import SequencerHub.Proofs.Blocks
import SequencerHub.Proofs.Lexing
import SequencerHub.Proofs.Quotes
import SequencerHub.Proofs.Scalars

/-! The tokens of texts and keys, however they are spelled. -/
namespace SequencerHub.Yaml

section Written

variable {cs : List Char}

def textToken (asKey : Bool) (cs : List Char) : Token :=
  .scalar cs (if spelling asKey cs = .bare then .plain else .quoted)

/-- How a text is written, and what makes that right. -/
inductive Written (asKey : Bool) (indent : Nat) (cs : List Char) : Style → List Char → Prop
  | bare (h : Bare cs) (hs : resolve cs = .string (String.ofList cs)) : Written asKey indent cs .plain cs
  | quoted {double : Bool} {s : List Char} (h : Quoted double s cs) (hs : asKey = true → ∀ c ∈ s, isBreak c = false) :
      Written asKey indent cs .quoted (quote double :: s)
  | literal (hne : cs ≠ []) (hp : ∀ c ∈ cs, isPrintable c = true) (hkey : asKey = false) :
      Written asKey indent cs .quoted ('|' :: literalSigns cs ++ '\n' :: literalLines indent true cs)

theorem singleQuoted_features (h : (features cs).singleQuoted = true) : (∀ c ∈ cs, isPrintable c = true) ∧
    (cs.IsChain fun a b => (isBreak a && isSpace b) = false) ∧
      cs.IsChain fun a b => (isSpace a && isBreak b) = false := by
  by_cases hempty : cs.isEmpty = true
  · simp [List.isEmpty_iff.mp hempty]
  · simp only [features, hempty, Bool.false_eq_true, if_false, Bool.not_eq_true', Bool.or_eq_false_iff] at h
    obtain ⟨hafter, hbefore, hprintable⟩ := h
    exact ⟨fun c hc => by simpa using List.any_eq_false.mp hprintable c hc, hasPair_eq_false.mp hafter,
      hasPair_eq_false.mp hbefore⟩

theorem multiline_features (h : (features cs).multiline = false) : ∀ c ∈ cs, isBreak c = false := by
  by_cases hempty : cs.isEmpty = true
  · simp [List.isEmpty_iff.mp hempty]
  · simp only [features, hempty, Bool.false_eq_true, if_false] at h
    exact fun c hc => by simpa using List.any_eq_false.mp h c hc

theorem block_features (h : (features cs).block = true) : ∀ c ∈ cs, isPrintable c = true := by
  by_cases hempty : cs.isEmpty = true
  · simp [List.isEmpty_iff.mp hempty]
  · simp only [features, hempty, Bool.false_eq_true, if_false, Bool.not_eq_true', Bool.or_eq_false_iff] at h
    exact fun c hc => by simpa using List.any_eq_false.mp h.2.2 c hc

def Suits (asKey : Bool) (cs : List Char) : Spelling → Prop
  | .bare => (features cs).plain = true ∧ ∃ s, resolve cs = .string s
  | .single => (features cs).singleQuoted = true ∧ '\n' ∉ cs ∧ (asKey = true → (features cs).multiline = false)
  | .double => True
  | .literal => asKey = false ∧ (features cs).block = true ∧ '\n' ∈ cs

theorem suits_spelling (asKey : Bool) (cs : List Char) : Suits asKey cs (spelling asKey cs) := by
  unfold spelling
  by_cases hfeed : cs.contains '\n' = true
  · rw [if_pos hfeed]
    cases hkey : asKey || !(features cs).block with
    | true => exact trivial
    | false =>
      obtain ⟨hkey, hblock⟩ := Bool.or_eq_false_iff.mp hkey
      exact ⟨hkey, by simpa using hblock, by simpa using hfeed⟩
  rw [if_neg hfeed]
  by_cases hkey : (asKey && (features cs).multiline) = true
  · rw [if_pos hkey]
    trivial
  rw [if_neg hkey]
  have hquoted : Suits asKey cs (if (features cs).singleQuoted then .single else .double) := by
    split_ifs with hsingle
    · exact ⟨hsingle, by simpa using hfeed, fun h => by simpa [h] using hkey⟩
    · trivial
  generalize (if (features cs).singleQuoted then Spelling.single else Spelling.double) = quoted at hquoted ⊢
  cases hr : resolve cs with
  | string s =>
    simp only
    split_ifs with hpadded hplain
    · exact hquoted
    · exact ⟨(Bool.and_eq_true_iff.mp hplain).1, s, hr⟩
    · exact hquoted
  | _ => exact hquoted

theorem line_closed {f : Char → List Char} {quote : Char} (h : ∀ c ∈ cs, ∀ d ∈ f c, isBreak d = false)
    (hquote : isBreak quote = false) : ∀ d ∈ cs.flatMap f ++ [quote], isBreak d = false := by
  intro d hd
  obtain hd | hd := List.mem_append.mp hd
  · obtain ⟨c, hc, hd⟩ := List.mem_flatMap.mp hd
    exact h c hc d hd
  · rwa [List.mem_singleton.mp hd]

theorem written (asKey : Bool) {indent : Nat} (hindent : 0 < indent ∨ asKey = true) (cs : List Char) :
    Written asKey indent cs (if spelling asKey cs = .bare then .plain else .quoted) (writeText asKey indent cs) := by
  have hsuits := suits_spelling asKey cs
  cases hsp : spelling asKey cs with
  | bare =>
    rw [hsp] at hsuits
    obtain ⟨hplain, s, hs⟩ := hsuits
    have hne : cs ≠ [] := by
      rintro rfl
      rw [resolve_nil] at hs
      cases hs
    rw [writeText, hsp]
    exact .bare (bare_of_features hplain hne) (resolve_string hs)
  | single =>
    rw [hsp] at hsuits
    obtain ⟨hsingle, hfeed, hkey⟩ := hsuits
    obtain ⟨hp, hafter, hbefore⟩ := singleQuoted_features hsingle
    have hfeeds : ∀ c ∈ cs, isPrintable c = true ∧ c ≠ '\n' := fun c hc => ⟨hp c hc, fun h => hfeed (h ▸ hc)⟩
    rw [writeText, hsp]
    cases asKey with
    | false =>
      have hquoted := quoted_single (hindent.resolve_right (by decide)) hfeeds hafter hbefore
      have hwritten : Written false indent cs .quoted (quote false :: single indent false cs) := .quoted hquoted nofun
      exact hwritten
    | true =>
      have hline := multiline_features (hkey rfl)
      have hsame : ∀ indent, single indent false cs = cs.flatMap doubled ++ ['\x27'] := fun indent => by
        simpa [single] using single_word indent hline []
      have hquoted := quoted_single Nat.one_pos hfeeds hafter hbefore
      rw [hsame] at hquoted ⊢
      have hwritten : Written true indent cs .quoted (quote false :: (cs.flatMap doubled ++ ['\x27'])) :=
        .quoted hquoted fun _ => line_closed (fun c hc d hd => eq_of_mem_doubled hd ▸ hline c hc) (by decide)
      exact hwritten
  | double =>
    rw [writeText, hsp]
    have hwritten : Written asKey indent cs .quoted (quote true :: (cs.flatMap escape ++ ['"'])) :=
      .quoted (quoted_double cs) fun _ => line_closed (fun c _ d hd => (flat_escape hd).2) (by decide)
    exact hwritten
  | literal =>
    rw [hsp] at hsuits
    obtain ⟨hkey, hblock, hfeed⟩ := hsuits
    rw [writeText, hsp]
    exact .literal (List.ne_nil_of_mem hfeed) (block_features hblock) hkey

theorem endLine_line {w : List Char} (h : w.getLast?.any isBreak = false) : endLine w = w ++ ['\n'] := by
  rw [endLine, h, if_neg (by decide)]

theorem endLine_append (w : List Char) : ∃ more, endLine w = w ++ more := by
  unfold endLine
  split
  · exact ⟨[], (List.append_nil w).symm⟩
  · exact ⟨_, rfl⟩

end Written

namespace Lexer

variable {cs rest tail : List Char} {m : Mark} {ts : List Placed} {ns : List Nat} {allowed : Bool} {n col : Nat}

section Scalars

theorem first_of_bare {c : Char} {more : List Char} (h : isSign none c more.head? = false) (tail : List Char) :
    c ∉ "#,[]\x7b\x7d&*!|>\x27\"%@`".toList ∧ (c = '?' ∨ c = ':' ∨ c = '-' → isGap (more ++ tail).head? = false) := by
  obtain ⟨hsigns, hgap⟩ := Bool.or_eq_false_iff.mp h
  refine ⟨by simpa using hsigns, fun hc => ?_⟩
  have hone : (c == '?' || c == ':' || c == '-') = true := by
    obtain rfl | rfl | rfl := hc <;> rfl
  rw [hone, Bool.true_and] at hgap
  cases more with
  | nil => exact absurd hgap (by decide)
  | cons d more => exact hgap

theorem starts_of_bare (hb : Bare cs) : Starts (cs ++ tail) := by
  obtain ⟨c, more, rfl⟩ := List.exists_cons_of_ne_nil hb.nonempty
  have hp := hb.printable c List.mem_cons_self
  have hblank : isBlank c = false := (isBlank_eq_isSpace hp).trans hb.head
  have hbreak := hb.line c List.mem_cons_self
  have hsign := (Bool.or_eq_false_iff.mp hb.sign).1
  have hhash : c ≠ '#' := by
    rintro rfl
    exact absurd hsign (by simp [isSign])
  have hmark : c ≠ '\ufeff' := by
    rintro rfl
    exact absurd hp (by decide)
  simp [Starts, hblank, hbreak, hhash, hmark]

theorem next_eq_plainScalar {l : Lexer} (hset : l.settle = .ok l) (hflow : l.inFlow = false) (hb : Bare cs)
    (hcursor : l.cursor = ⟨cs ++ tail, m⟩) (hmarker : (⟨cs ++ tail, m⟩ : Cursor).atDocumentMarker = false) :
    l.next = l.plainScalar := by
  obtain ⟨l₀, hl₀, hclose⟩ := settle_eq_ok hset
  obtain ⟨c, more, rfl⟩ := List.exists_cons_of_ne_nil hb.nonempty
  have hblank : isBlank c = false := (isBlank_eq_isSpace (hb.printable c List.mem_cons_self)).trans hb.head
  obtain ⟨hsigns, hgap⟩ := first_of_bare (Bool.or_eq_false_iff.mp hb.sign).1 tail
  have hone : (⟨c :: (more ++ tail), m⟩ : Cursor).isGapAt 1 = isGap (more ++ tail).head? := isGapAt_one _ _ _
  have hblankAt : isGap (more ++ tail).head? = false → (⟨c :: (more ++ tail), m⟩ : Cursor).isBlankAt 1 = false := by
    intro h
    rw [Cursor.isBlankAt, Cursor.peekAt?, List.getElem?_cons_succ, ← List.head?_eq_getElem?]
    cases hd : (more ++ tail).head? with
    | none => rfl
    | some d =>
      rw [hd] at h
      exact (Bool.or_eq_false_iff.mp h).1
  rw [List.cons_append] at hcursor hmarker
  simp only [String.reduceToList, List.mem_cons, List.not_mem_nil, or_false, not_or] at hsigns
  unfold next
  simp only [hl₀, ok_bind, hclose]
  simp only [hcursor, hmarker, Cursor.peek?_mk, List.head?_cons, hone, hflow, startsPlain]
  have hindicator : isFlowIndicator c = false := by simp [isFlowIndicator, hsigns]
  generalize (more ++ tail).head? = after at hgap hblankAt
  by_cases hc : c = '?' ∨ c = ':' ∨ c = '-'
  · simp [hsigns, hgap hc, hblankAt (hgap hc), hindicator, hblank]
  · simp only [not_or] at hc
    simp [hsigns, hc, hindicator, hblank]

/-- The indentation that a line must have to go on with a bare text. -/
def inner (ns : List Nat) : Nat := (ns.head?.map (· + 1)).getD 0

theorem next_bare {behind : Bool} {goal : Mark → Cursor} (hb : Bare cs) (he : PlainEnd (inner ns) tail behind goal)
    (htail : tail.head?.all (fun c => c != '-' && c != '.') = true) (hdeep : ∀ n ∈ ns.head?, n ≤ m.column) :
    next (standing (cs ++ tail) m ts ns allowed none) =
      .ok (standing (goal (m.onward cs.length)).rest (goal (m.onward cs.length)).mark
        (ts ++ [(.scalar cs .plain, m)]) ns behind (keyHere ts m ns allowed)) := by
  have hmarker := hb.no_marker htail (m := m)
  have hstarts : Starts (cs ++ tail) := starts_of_bare hb
  have hset := settle_standing hstarts hdeep ts allowed
  have hinner : inner ns ≤ m.column + 1 := by
    cases ns with
    | nil => exact Nat.zero_le _
    | cons n ns => exact Nat.succ_le_succ (hdeep n rfl)
  have hhash : cs.head? ≠ some '#' := by
    obtain ⟨c, more, rfl⟩ := List.exists_cons_of_ne_nil hb.nonempty
    have hsigns := (first_of_bare (Bool.or_eq_false_iff.mp hb.sign).1 tail).1
    intro h
    obtain rfl := Option.some.inj h
    exact hsigns (by decide)
  have hfuel : cs.length < (cs ++ tail).length + 1 := by
    rw [List.length_append]
    omega
  have hscan := scanPlain_text he hb.toPlain hb.nonempty hhash hmarker hinner hfuel [] {}
  rw [next_eq_plainScalar hset rfl hb rfl hmarker, plainScalar, saveKey_standing, ok_bind]
  change (scanPlain false (inner ns) ((cs ++ tail).length + 1) [] {} ⟨cs ++ tail, m⟩ >>= _) = _
  rw [hscan]
  simp [standing, allowKey, push, Gap.text]

/-- A text in quotes is one token, and a key may be where it starts. -/
theorem next_quoted {double : Bool} {s : List Char} (hq : Quoted double s cs) (htail : tail.head? ≠ some '\x27')
    (hdeep : ∀ n ∈ ns.head?, n ≤ m.column) :
    next (standing (quote double :: (s ++ tail)) m ts ns allowed none) =
      .ok (standing tail ((m.onward 1).past s) (ts ++ [(.scalar cs .quoted, m)]) ns false
        (keyHere ts m ns allowed)) := by
  have hstarts : Starts (quote double :: (s ++ tail)) := by cases double <;> rfl
  have hsign : Sign (quote double) false (quotedScalar · double) := by
    cases double with
    | true => exact .double
    | false => exact .single
  have hmarker : (⟨quote double :: (s ++ tail), m⟩ : Cursor).atDocumentMarker = false := by
    cases double <;> exact no_marker (by decide) (by decide) _ m
  have hbar : quote double ≠ '|' := by cases double <;> decide
  have hset := settle_standing hstarts hdeep ts allowed
  have hfuel : s.length ≤ (quote double :: (s ++ tail)).length + 1 := by
    simp only [List.length_cons, List.length_append]
    omega
  have hinside : (⟨s ++ tail, m.onward 1⟩ : Cursor).atDocumentMarker = false :=
    Cursor.atDocumentMarker_of_column (by simp)
  have hscan := hq.scan htail hfuel hinside [] {}
  rw [next_sign hsign hset rfl hmarker nofun (fun h => absurd h hbar), quotedScalar, saveKey_standing, ok_bind]
  change (scanQuoted double ((quote double :: (s ++ tail)).length + 1) [] {} ⟨s ++ tail, m.onward 1⟩ >>= _) = _
  rw [hscan]
  simp [standing, allowKey, push, Gap.text]

theorem next_literal (hne : cs ≠ []) (hp : ∀ c ∈ cs, isPrintable c = true) (hcol : col < n + 2)
    (hrest : StartsBehind (some (n + 2)) col rest) (hdeep : n ≤ m.column) :
    next (standing ('|' :: (literalSigns cs ++ '\n' :: (literalLines (n + 2) true cs ++ (ending cs ++
        (blanks col ++ rest))))) m ts (n :: ns) allowed none) =
      .ok (standing rest (((m.onward 1).past
        (literalSigns cs ++ '\n' :: (literalLines (n + 2) true cs ++ ending cs))).onward col)
        (ts ++ [(.scalar cs .quoted, m)]) (n :: ns) true none) := by
  have hstarts : Starts ('|' :: (literalSigns cs ++ '\n' :: (literalLines (n + 2) true cs ++ (ending cs ++
      (blanks col ++ rest))))) := rfl
  have hdeep' : ∀ k ∈ (n :: ns).head?, k ≤ m.column := by simpa using hdeep
  have hset := settle_standing hstarts hdeep' ts allowed
  have hscan := scanBlock_literal hne hp hcol hrest (m.onward 1)
  rw [next_sign .literal hset rfl (no_marker (by decide) (by decide) _ m) nofun (fun _ => rfl), blockScalar]
  have hdrop : dropKey (standing ('|' :: (literalSigns cs ++ '\n' :: (literalLines (n + 2) true cs ++ (ending cs ++
      (blanks col ++ rest))))) m ts (n :: ns) allowed none) = .ok _ := rfl
  rw [hdrop, ok_bind]
  change (scanBlock true (some n) ⟨literalSigns cs ++ '\n' :: (literalLines (n + 2) true cs ++ (ending cs ++
      (blanks col ++ rest))), m.onward 1⟩ >>= _) = _
  rw [hscan]
  simp [standing, allowKey, push]

end Scalars

section Texts

theorem getLast?_quoted {double : Bool} {s : List Char} (h : Quoted double s cs) :
    s.getLast? = some (quote double) := by
  induction h with
  | word hw => simp
  | blanks n hw hs h ih => simp [List.getLast?_append, ih]
  | breaks n hw hg hbreaks hs hn h ih => simp [List.getLast?_append, ih]

theorem getLast?_literalLines (indent : Nat) (hne : cs ≠ []) (breaks : Bool) :
    (literalLines indent breaks cs).getLast? = cs.getLast? := by
  induction cs generalizing breaks with
  | nil => exact absurd rfl hne
  | cons c cs ih =>
    rw [literalLines]
    cases cs with
    | nil => split_ifs <;> simp [literalLines]
    | cons d cs =>
      have hd := ih (by simp)
      split_ifs <;> simp [List.getLast?_append, List.getLast?_cons, hd]

theorem keyHere_inside (hdeep : n < m.column) (ts : List Placed) (ns : List Nat) (allowed : Bool) :
    ∀ k ∈ keyHere ts m (n :: ns) allowed, k.required = false ∧ k.mark = m := by
  intro k hk
  cases allowed with
  | false => cases hk
  | true =>
    obtain rfl := Option.some.inj hk
    have hne : n ≠ m.column := Nat.ne_of_lt hdeep
    simp [hne]

theorem getLast?_bare (hb : Bare cs) : cs.getLast?.any isBreak = false := by
  cases hc : cs.getLast? with
  | none => rfl
  | some c => exact hb.line c (List.mem_of_getLast? hc)

theorem leads_bare (hb : Bare cs) (hcol : col ≤ n) (hs : Starts rest) (hdeep : n < m.column) :
    Leads (standing (cs ++ ['\n'] ++ (blanks col ++ rest)) m ts (n :: ns) allowed none)
      (standing rest ((m.past (cs ++ ['\n'])).onward col) (ts ++ [(.scalar cs .plain, m)]) (n :: ns) true none) := by
  have hkey := keyHere_inside hdeep ts ns allowed
  have hdeep' : ∀ k ∈ (n :: ns).head?, k ≤ m.column := by simpa using Nat.le_of_lt hdeep
  have hend : PlainEnd (inner (n :: ns)) ('\n' :: (blanks col ++ rest)) true _ :=
    .line (Nat.lt_succ_of_le hcol) hs.not_gap
  have hold : ∀ k ∈ keyHere ts m (n :: ns) allowed,
      k.required = false ∧ k.mark.line < ((m.onward cs.length).down.onward col).line := fun k hk =>
    ⟨(hkey k hk).1, by rw [(hkey k hk).2]; exact Nat.lt_succ_self _⟩
  rw [List.append_assoc, Mark.past_append, Mark.past_line hb.line, Mark.past_break rfl]
  exact (leads_of_next (next_bare hb hend rfl hdeep') rfl (by simp [standing]; omega)).trans (leads_blanks hs 0 hold)

/-- A text to the line that follows it. -/
theorem leads_text (cs : List Char) (hcol : col ≤ n) (hs : Starts rest) (hdeep : n < m.column) :
    Leads (standing (endLine (writeText false (n + 2) cs) ++ (blanks col ++ rest)) m ts (n :: ns) allowed none)
      (standing rest ((m.past (endLine (writeText false (n + 2) cs))).onward col) (ts ++ [(textToken false cs, m)])
        (n :: ns) true none) := by
  obtain ⟨hblank, hbreak, hhash, hmark⟩ := hs.head
  have hkey := keyHere_inside hdeep ts ns allowed
  have hdeep' : ∀ k ∈ (n :: ns).head?, k ≤ m.column := by simpa using Nat.le_of_lt hdeep
  have hwritten := written false (.inl (Nat.succ_pos (n + 1))) cs
  unfold textToken
  generalize (if spelling false cs = .bare then Style.plain else .quoted) = style at hwritten ⊢
  generalize writeText false (n + 2) cs = w at hwritten ⊢
  cases hwritten with
  | bare hb hs' =>
    rw [endLine_line (getLast?_bare hb)]
    exact leads_bare hb hcol hs hdeep
  | @quoted double s hq hflat =>
    have hlast : (quote double :: s).getLast?.any isBreak = false := by
      simp only [List.getLast?_cons, getLast?_quoted hq]
      cases double <;> rfl
    have hquote : isBreak (quote double) = false := by cases double <;> rfl
    have hold : ∀ k ∈ keyHere ts m (n :: ns) allowed,
        k.required = false ∧ k.mark.line ≤ ((m.onward 1).past s).line := fun k hk =>
      ⟨(hkey k hk).1, by rw [(hkey k hk).2]; exact Mark.line_le_past (m.onward 1) s⟩
    rw [endLine_line hlast, List.append_assoc, Mark.past_append, Mark.past_letter hquote, Mark.past_break rfl]
    exact (leads_of_next (next_quoted hq (by simp) hdeep') rfl (by simp [standing])).trans
      (leads_feed hs col hold)
  | literal hne hp hkey =>
    have hlast : ('|' :: literalSigns cs ++ '\n' :: literalLines (n + 2) true cs).getLast? = cs.getLast? := by
      obtain ⟨before, c, rfl⟩ := (List.eq_nil_or_concat cs).resolve_left hne
      simp only [List.concat_eq_append] at hne ⊢
      simp [List.getLast?_append, List.getLast?_cons, getLast?_literalLines (n + 2) hne true]
    have hend : endLine ('|' :: literalSigns cs ++ '\n' :: literalLines (n + 2) true cs) =
        '|' :: (literalSigns cs ++ '\n' :: (literalLines (n + 2) true cs ++ ending cs)) := by
      rw [endLine, hlast, ending]
      split_ifs <;> simp
    have hbehind : StartsBehind (some (n + 2)) col rest :=
      { within := by simp; omega
        exact := .inr fun h => by rw [h] at hblank; exact absurd hblank (by decide)
        tab := fun h => by rw [h] at hblank; exact absurd hblank (by decide)
        line := hbreak }
    have hcol' : col < n + 2 := by omega
    rw [hend, Mark.past_letter (by decide)]
    simp only [List.cons_append, List.append_assoc]
    exact leads_of_next (next_literal hne hp hcol' hbehind (Nat.le_of_lt hdeep)) rfl (by simp [standing]; omega)

theorem length_le_byteLength (cs : List Char) : cs.length ≤ byteLength cs := by
  induction cs with
  | nil => exact Nat.le_refl _
  | cons c cs ih =>
    have hc := c.utf8Size_pos
    rw [byteLength, List.length_cons]
    omega

theorem length_flatMap_le {f : Char → List Char} {k : Nat} (h : ∀ c, (f c).length ≤ k) (cs : List Char) :
    (cs.flatMap f).length ≤ k * cs.length := by
  induction cs with
  | nil => simp
  | cons c cs ih =>
    have hc := h c
    rw [List.flatMap_cons, List.length_append, List.length_cons, Nat.mul_succ]
    omega

theorem length_key (indent : Nat) (h : isShortKey cs = true) : (writeText true indent cs).length ≤ 1024 := by
  obtain ⟨hline, hbytes⟩ := Bool.and_eq_true_iff.mp h
  have hlen : cs.length ≤ 128 := Nat.le_trans (length_le_byteLength cs) (of_decide_eq_true hbytes)
  have hsuits := suits_spelling true cs
  rw [writeText]
  cases hsp : spelling true cs with
  | bare => exact Nat.le_trans hlen (by decide)
  | single =>
    have hsame := single_word indent (multiline_features (Bool.not_eq_true' _ ▸ hline)) []
    have htwo : ∀ c, (doubled c).length ≤ 2 := fun c => by unfold doubled; split <;> simp
    have hdoubled := length_flatMap_le htwo cs
    rw [List.append_nil] at hsame
    simp only [hsame, single, List.length_cons, List.length_append, List.length_nil]
    omega
  | double =>
    have hescaped := length_flatMap_le length_escape_le cs
    simp only [List.length_cons, List.length_append, List.length_nil]
    omega
  | literal =>
    rw [hsp] at hsuits
    exact absurd hsuits.1 (by decide)

theorem line_key (indent : Nat) (cs : List Char) : ∀ c ∈ writeText true indent cs, isBreak c = false := by
  have hwritten : Written true indent cs _ (writeText true indent cs) := written true (.inr rfl) cs
  generalize (if spelling true cs = .bare then Style.plain else .quoted) = style at hwritten
  generalize writeText true indent cs = w at hwritten ⊢
  cases hwritten with
  | bare hb hs => exact hb.line
  | @quoted double s hq hflat =>
    have hquote : isBreak (quote double) = false := by cases double <;> rfl
    exact List.forall_mem_cons.mpr ⟨hquote, hflat rfl⟩
  | literal hne hp hkey => cases hkey

/-- A key in front of its colon, the first of which opens the mapping. -/
theorem leads_key (first : Bool) (indent : Nat) (hshort : isShortKey cs = true) (hns : ∀ k ∈ ns.head?, k < m.column)
    (hgap : isGap rest.head? = true) (ts : List Placed) :
    Leads (standing (writeText true indent cs ++ ':' :: rest) m ts (blocksBefore first m.column ns) true none)
      (standing rest (m.past (writeText true indent cs ++ [':']))
        (ts ++ opening first .blockMappingStart m ++
          [(.key, m), (textToken true cs, m), (.value, m.past (writeText true indent cs))])
        (m.column :: ns) false none) := by
  have hlen := length_key indent hshort
  have hline := line_key indent cs
  have hwritten : Written true indent cs _ (writeText true indent cs) := written true (.inr rfl) cs
  have hdeep := deep_before first hns
  unfold textToken
  generalize (if spelling true cs = .bare then Style.plain else .quoted) = style at hwritten ⊢
  generalize writeText true indent cs = w at hlen hline hwritten ⊢
  have hmark : m.past w = m.onward w.length := Mark.past_line hline m
  obtain ⟨hpos, hnext⟩ : 0 < w.length ∧
      next (standing (w ++ ':' :: rest) m ts (blocksBefore first m.column ns) true none) =
        .ok (standing (':' :: rest) (m.past w) (ts ++ [(.scalar cs style, m)]) (blocksBefore first m.column ns) false
          (keyHere ts m (blocksBefore first m.column ns) true)) := by
    cases hwritten with
    | bare hb hs =>
      have hend : PlainEnd (inner (blocksBefore first m.column ns)) (':' :: rest) false _ := .colon hgap
      exact ⟨List.length_pos_iff.mpr hb.nonempty, hmark ▸ next_bare hb hend rfl hdeep⟩
    | @quoted double s hq hflat =>
      have hquote : isBreak (quote double) = false := by cases double <;> rfl
      exact ⟨Nat.succ_pos _, Mark.past_letter hquote m s ▸ next_quoted hq (by simp) hdeep⟩
    | literal hne hp hkey => cases hkey
  rw [hmark] at hnext
  have hcolon := next_behind_key (k := ⟨ts.length, m, (blocksBefore first m.column ns).head? == some m.column⟩)
    (s := (.scalar cs style, m)) (m := m.onward w.length) first hns hgap rfl rfl (Nat.add_le_add_left hlen _)
    (Nat.le_add_right _ _) false
  rw [Mark.past_append, hmark, Mark.past_letter (by decide), Mark.past_nil]
  exact (leads_of_next hnext rfl (by simp [standing]; omega)).trans (leads_of_next hcolon rfl (by simp [standing]))

theorem starts_written {asKey : Bool} {indent : Nat} {style : Style} {w : List Char}
    (h : Written asKey indent cs style w) (tail : List Char) : Starts (w ++ tail) := by
  cases h with
  | bare hb hs => exact starts_of_bare hb
  | @quoted double s hq hflat => cases double <;> rfl
  | literal hne hp hkey => rfl

/-- A text starts a token. -/
theorem starts_text (asKey : Bool) {indent : Nat} (hindent : 0 < indent ∨ asKey = true) (cs tail : List Char) :
    Starts (writeText asKey indent cs ++ tail) :=
  starts_written (written asKey hindent cs) tail

end Texts

end Lexer

end SequencerHub.Yaml
