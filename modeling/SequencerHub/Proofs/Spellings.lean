import SequencerHub.Proofs.Cursors
import SequencerHub.Proofs.Marks

/-! Texts that stand bare on a line are read back as they are. -/
namespace SequencerHub.Yaml

def Gap.blanked (g : Gap) (n : Nat) : Gap :=
  if g.first.isSome then g else { g with blanks := g.blanks ++ Yaml.blanks n }

section ScanGap

variable {indent : Option Nat} {gap : Gap} {m : Mark} {tail : List Char}

theorem scanGap_blanks (n fuel : Nat) :
    scanGap indent (n + fuel) gap ⟨blanks n ++ tail, m⟩ = scanGap indent fuel (gap.blanked n) ⟨tail, m.onward n⟩ := by
  induction n generalizing gap m with
  | zero => simp [Gap.blanked, blanks]
  | succ n ih =>
    have hblanked : (gap.addBlank ' ').blanked n = gap.blanked (n + 1) := by
      unfold Gap.addBlank Gap.blanked
      split_ifs with h
      · rfl
      · simp [blanks, List.replicate_succ]
    have hstep : scanGap indent (n + fuel + 1) gap ⟨blanks (n + 1) ++ tail, m⟩ =
        scanGap indent (n + fuel) (gap.addBlank ' ') ⟨blanks n ++ tail, m.onward 1⟩ := by
      have hchars : blanks (n + 1) ++ tail = ' ' :: (blanks n ++ tail) := rfl
      rw [hchars, scanGap, Cursor.peek?_mk, List.head?_cons]
      simp [isBlank]
    rw [Nat.add_right_comm, hstep, ih, hblanked, Mark.onward_onward, Nat.add_comm 1]

theorem scanGap_break {c : Char} (hp : isPrintable c = true) (hb : isBreak c = true) (fuel : Nat) :
    scanGap indent (fuel + 1) gap ⟨c :: tail, m⟩ = scanGap indent fuel (gap.addBreak [c]) ⟨tail, m.down⟩ := by
  have hblank : isBlank c = false := by
    cases h : isBlank c with
    | false => rfl
    | true => exact absurd (not_isBreak_of_isBlank h) (by rw [hb]; decide)
  rw [scanGap, Cursor.peek?_mk, List.head?_cons]
  simp only [hblank, hb, Cursor.breakText_break hp hb, Cursor.skipLine_break hp hb]
  rfl

/-- Breaks behind the first one of a gap are kept as they are. -/
theorem scanGap_breaks {g : List Char} (hg : ∀ c ∈ g, isPrintable c = true ∧ isBreak c = true)
    (hfirst : gap.first.isSome = true) (fuel : Nat) : scanGap indent (g.length + fuel) gap ⟨g ++ tail, m⟩ =
      scanGap indent fuel { gap with later := gap.later ++ g } ⟨tail, m.past g⟩ := by
  induction g generalizing gap m with
  | nil => simp
  | cons c g ih =>
    obtain ⟨hp, hb⟩ := hg c List.mem_cons_self
    obtain ⟨first, hfirst'⟩ := Option.isSome_iff_exists.mp hfirst
    have hadd : gap.addBreak [c] = { gap with later := gap.later ++ [c] } := by simp [Gap.addBreak, hfirst']
    have hstill : ({ gap with later := gap.later ++ [c] } : Gap).first.isSome = true := hfirst
    rw [List.length_cons, Nat.add_right_comm, List.cons_append, scanGap_break hp hb, hadd,
      ih (fun d hd => hg d (List.mem_cons_of_mem _ hd)) hstill, Mark.past_break hb, List.append_assoc,
      List.singleton_append]

theorem scanGap_stop (h : tail.head?.any (fun c => isBlank c || isBreak c) = false) (fuel : Nat) :
    scanGap indent fuel gap ⟨tail, m⟩ = .ok (gap, ⟨tail, m⟩) := by
  cases fuel with
  | zero => rfl
  | succ fuel =>
    cases tail with
    | nil => rfl
    | cons c tail =>
      obtain ⟨hblank, hbreak⟩ := Bool.or_eq_false_iff.mp h
      simp [scanGap, hblank, hbreak]

theorem scanGap_line (indent : Option Nat) (m : Mark) (n : Nat)
    (h : tail.head?.any (fun c => isBlank c || isBreak c) = false) :
    scanGap indent ((blanks n ++ tail).length + 1) {} ⟨blanks n ++ tail, m⟩ =
      .ok ({ blanks := blanks n }, ⟨tail, m.onward n⟩) := by
  have hlen : (blanks n ++ tail).length + 1 = n + (tail.length + 1) := by
    simp only [List.length_append, blanks, List.length_replicate]
    omega
  rw [hlen, scanGap_blanks, scanGap_stop h]
  simp [Gap.blanked]

theorem scanGap_lines (indent : Option Nat) (m : Mark) (n : Nat) {c : Char} {g : List Char}
    (h : tail.head?.any (fun c => isBlank c || isBreak c) = false)
    (hg : ∀ d ∈ c :: g, isPrintable d = true ∧ isBreak d = true) :
    scanGap indent ((c :: (g ++ (blanks n ++ tail))).length + 1) {} ⟨c :: (g ++ (blanks n ++ tail)), m⟩ =
      .ok ({ first := some [c], later := g }, ⟨tail, (m.past (c :: g)).onward n⟩) := by
  obtain ⟨⟨hp, hb⟩, hg⟩ := List.forall_mem_cons.mp hg
  have hlen : (c :: (g ++ (blanks n ++ tail))).length + 1 = g.length + (n + (tail.length + 1)) + 1 := by
    simp only [List.length_append, List.length_cons, blanks, List.length_replicate]
    omega
  rw [hlen, scanGap_break hp hb, scanGap_breaks hg rfl, scanGap_blanks, scanGap_stop h, Mark.past_break hb]
  rfl

end ScanGap

section Plain

/-- A text that may stand bare behind a character. -/
structure Plain (before : Option Char) (cs : List Char) : Prop where
  sign : hasSign before cs = false
  printable : ∀ c ∈ cs, isPrintable c = true
  line : ∀ c ∈ cs, isBreak c = false
  head : cs.head?.any isSpace = false
  last : cs.getLast?.any isSpace = false

section Word

variable {before : Option Char} {w rest : List Char}

theorem Plain.word (hp : Plain before (w ++ rest)) (hw : ∀ c ∈ w, isSpace c = false) :
    ∀ c ∈ w, isBlank c = false ∧ isBreak c = false := fun c hc =>
  have hmem : c ∈ w ++ rest := List.mem_append_left rest hc
  ⟨(isBlank_eq_isSpace (hp.printable c hmem)).trans (hw c hc), hp.line c hmem⟩

theorem Plain.not_gap (hp : Plain before rest) (hne : rest ≠ []) (hhead : rest.head?.any isSpace = false)
    (tail : List Char) : (rest ++ tail).head?.any (fun c => isBlank c || isBreak c) = false := by
  obtain ⟨c, more, rfl⟩ := List.exists_cons_of_ne_nil hne
  have hc := hp.printable c List.mem_cons_self
  simp only [List.cons_append, List.head?_cons, Option.any_some, Bool.or_eq_false_iff]
  exact ⟨(isBlank_eq_isSpace hc).trans hhead, hp.line c List.mem_cons_self⟩

end Word

theorem not_gapColon {before after : Option Char} {c : Char} (h : isSign before c after = false) :
    (c == ':' && isGap after) = false := by
  cases before with
  | none =>
    by_contra hne
    obtain ⟨hc, hg⟩ := Bool.and_eq_true_iff.mp (Bool.of_not_eq_false hne)
    simp [isSign, hg, beq_iff_eq.mp hc] at h
  | some b => exact (Bool.or_eq_false_iff.mp h).1

theorem isGapAt_one (c : Char) (cs : List Char) (m : Mark) : (⟨c :: cs, m⟩ : Cursor).isGapAt 1 = isGap cs.head? := by
  cases cs <;> rfl

variable {before : Option Char} {w rest tail : List Char} {m : Mark}

theorem scanWord_append (hs : hasSign before (w ++ rest) = false) (hw : ∀ c ∈ w, isBlank c = false ∧ isBreak c = false)
    (fuel : Nat) (acc : List Char) : scanWord false (w.length + fuel) acc ⟨w ++ (rest ++ tail), m⟩ =
      scanWord false fuel (acc ++ w) ⟨rest ++ tail, m.onward w.length⟩ := by
  induction w generalizing before acc m with
  | nil => simp
  | cons c w ih =>
    rw [List.cons_append, hasSign] at hs
    obtain ⟨hc, hs⟩ := Bool.or_eq_false_iff.mp hs
    obtain ⟨hblank, hbreak⟩ := hw c List.mem_cons_self
    -- Behind its last character the text has a gap as far as the signs are concerned, whatever follows it.
    have hcolon : (c == ':' && isGap (w ++ (rest ++ tail)).head?) = false := by
      have hgap := not_gapColon hc
      rw [← List.append_assoc]
      cases hx : w ++ rest with
      | nil =>
        rw [hx] at hgap
        have hne : (c == ':') = false := by simpa [isGap] using hgap
        simp [hne]
      | cons d more => rwa [hx] at hgap
    have hlen : (c :: w).length + fuel = w.length + fuel + 1 := by rw [List.length_cons]; omega
    have hends : endsPlain false ⟨c :: (w ++ (rest ++ tail)), m⟩ = false := by
      simp only [endsPlain, Cursor.peek?_mk, List.head?_cons, isGapAt_one, hblank, hbreak, hcolon]
      rfl
    rw [hlen, List.cons_append, scanWord, hends]
    simp only [Bool.false_and, Bool.false_eq_true, if_false, Cursor.peek?_mk, List.head?_cons, Cursor.skip_cons,
      Option.map_some, Option.getD_some]
    rw [ih hs fun d hd => hw d (List.mem_cons_of_mem _ hd), Mark.onward_onward, List.length_cons, Nat.add_comm 1,
      List.append_assoc, List.singleton_append]

theorem scanWord_stop {c : Cursor} (h : endsPlain false c = true) (fuel : Nat) (acc : List Char) :
    scanWord false fuel acc c = .ok (acc, c) := by
  cases fuel with
  | zero => rfl
  | succ fuel => simp [scanWord, h]

/-- What stands behind a bare text: a colon and a gap, or the end of the line and a line that is indented less. -/
inductive PlainEnd (indent : Nat) : List Char → Bool → (Mark → Cursor) → Prop
  | colon {rest : List Char} (h : isGap rest.head? = true) :
      PlainEnd indent (':' :: rest) false fun m => ⟨':' :: rest, m⟩
  | line {col : Nat} {rest : List Char} (hcol : col < indent)
      (h : rest.head?.any (fun c => isBlank c || isBreak c) = false) :
      PlainEnd indent ('\n' :: (blanks col ++ rest)) true fun m => ⟨rest, m.down.onward col⟩

variable {indent : Nat} {behind : Bool} {goal : Mark → Cursor}

theorem PlainEnd.endsPlain (he : PlainEnd indent tail behind goal) (m : Mark) : endsPlain false ⟨tail, m⟩ = true := by
  cases he with
  | colon h => simp [Yaml.endsPlain, isGapAt_one, h]
  | line hcol h => simp [Yaml.endsPlain, isBreak]

theorem scanPlain_word (hw : w ≠ []) (hscan : scanWord false ((w ++ tail).length + 1) [] ⟨w ++ tail, m⟩ =
      .ok (w, ⟨tail, m.onward w.length⟩))
    (hmarker : (⟨w ++ tail, m⟩ : Cursor).atDocumentMarker = false) (hhash : w.head? ≠ some '#') (fuel : Nat)
    (acc : List Char) (gap : Gap) : scanPlain false indent (fuel + 1) acc gap ⟨w ++ tail, m⟩ =
      if tail.head?.any (fun c => isBlank c || isBreak c) then do
        let (gap', c) ← scanGap (some indent) (tail.length + 1) {} ⟨tail, m.onward w.length⟩
        if c.column < indent then .ok ((acc ++ gap.text ++ w, gap'.first.isSome), c)
        else scanPlain false indent fuel (acc ++ gap.text ++ w) gap' c
      else .ok ((acc ++ gap.text ++ w, false), ⟨tail, m.onward w.length⟩) := by
  have hhead : (w ++ tail).head? ≠ some '#' := by
    cases w with
    | nil => exact absurd rfl hw
    | cons c w => exact hhash
  have hempty : w.isEmpty = false := by simpa using hw
  have hstart : ((⟨w ++ tail, m⟩ : Cursor).atDocumentMarker || (⟨w ++ tail, m⟩ : Cursor).startsWith '#') = false := by
    rw [hmarker, Bool.false_or, Cursor.startsWith_mk]
    exact beq_eq_false_iff_ne.mpr hhead
  rw [scanPlain, if_neg (by rw [hstart]; decide), hscan]
  simp only [ok_bind, hempty, Bool.false_eq_true, if_false, Cursor.peek?_mk, Bool.not_false, Bool.true_and,
    decide_eq_true_eq]

theorem hasSign_behind {c : Char} (w : List Char) (h : hasSign before (w ++ c :: rest) = false) :
    hasSign (some c) rest = false := by
  induction w generalizing before with
  | nil => exact (Bool.or_eq_false_iff.mp h).2
  | cons d w ih => exact ih (Bool.or_eq_false_iff.mp h).2

theorem eq_blanks {g : List Char} (h : ∀ c ∈ g, isSpace c = true) : g = blanks g.length :=
  List.eq_replicate_iff.mpr ⟨rfl, fun c hc => beq_iff_eq.mp (h c hc)⟩

/-- Behind a gap inside of a bare text the rest is one, too. -/
theorem Plain.past_gap {g : List Char} (hp : Plain before (w ++ (g ++ rest))) (hg : g ≠ [])
    (hspace : ∀ c ∈ g, isSpace c = true) (hhead : rest.head?.any isSpace = false) :
    rest ≠ [] ∧ Plain (some ' ') rest ∧ rest.head? ≠ some '#' := by
  obtain ⟨init, c, rfl⟩ := (List.eq_nil_or_concat g).resolve_left hg
  obtain rfl : c = ' ' := beq_iff_eq.mp (hspace c (by simp))
  have hsign : hasSign (some ' ') rest = false := by
    have hall : hasSign before ((w ++ init) ++ ' ' :: rest) = false := by simpa using hp.sign
    exact hasSign_behind (w ++ init) hall
  have hrest : rest ≠ [] := by
    rintro rfl
    have hlast := hp.last
    rw [List.append_nil, List.concat_eq_append, ← List.append_assoc, List.getLast?_concat] at hlast
    exact absurd hlast (by decide)
  refine ⟨hrest, ⟨hsign, fun c hc => hp.printable c (by simp [hc]), fun c hc => hp.line c (by simp [hc]), hhead, ?_⟩,
    ?_⟩
  · have hlast := hp.last
    rwa [List.getLast?_append_of_ne_nil _ (by simp), List.getLast?_append_of_ne_nil _ hrest] at hlast
  · cases rest with
    | nil => exact absurd rfl hrest
    | cons d more =>
      have hd := (Bool.or_eq_false_iff.mp hsign).1
      rintro h
      obtain rfl := Option.some.inj h
      exact absurd hd (by simp [isSign, isGap, isBlank])

theorem scanWord_whole (hs : hasSign before (w ++ rest) = false) (hw : ∀ c ∈ w, isBlank c = false ∧ isBreak c = false)
    (hends : ∀ m, endsPlain false ⟨rest ++ tail, m⟩ = true) :
    scanWord false ((w ++ (rest ++ tail)).length + 1) [] ⟨w ++ (rest ++ tail), m⟩ =
      .ok (w, ⟨rest ++ tail, m.onward w.length⟩) := by
  have hlen : (w ++ (rest ++ tail)).length + 1 = w.length + ((rest ++ tail).length + 1) := by
    rw [List.length_append]
    omega
  rw [hlen, scanWord_append hs hw, scanWord_stop (hends _), List.nil_append]

/-- A bare text is read as it is. -/
theorem scanPlain_text (he : PlainEnd indent tail behind goal) {cs : List Char} (hp : Plain before cs) (hne : cs ≠ [])
    (hhash : cs.head? ≠ some '#') (hmarker : (⟨cs ++ tail, m⟩ : Cursor).atDocumentMarker = false)
    (hindent : indent ≤ m.column + 1) {fuel : Nat} (hf : cs.length < fuel) (acc : List Char) (gap : Gap) :
    scanPlain false indent fuel acc gap ⟨cs ++ tail, m⟩ =
      .ok ((acc ++ gap.text ++ cs, behind), goal (m.onward cs.length)) := by
  induction cs using gaps_induction isSpace generalizing before m fuel acc gap with
  | word w hw =>
    obtain ⟨fuel, rfl⟩ := Nat.exists_eq_add_one_of_ne_zero (Nat.ne_zero_of_lt hf)
    rw [← List.append_nil w] at hp
    have hscan := scanWord_whole (m := m) hp.sign (hp.word hw) he.endsPlain
    rw [List.nil_append] at hscan
    rw [scanPlain_word hne hscan hmarker hhash]
    cases he with
    | colon h => rfl
    | @line col rest hcol h =>
      have hgap := scanGap_lines (some indent) (m.onward w.length) col h
        (List.forall_mem_singleton.mpr (show isPrintable '\n' = true ∧ isBreak '\n' = true by decide))
      rw [List.nil_append, Mark.past_break (by decide), Mark.past_nil] at hgap
      rw [hgap]
      simp [isBreak, hcol]
  | gap w g rest hw hg hspace hhead ih =>
    obtain ⟨hrest, hbehind, hhash'⟩ := hp.past_gap hg hspace hhead
    obtain ⟨n, hn, rfl⟩ : ∃ n, n ≠ 0 ∧ g = blanks n := ⟨_, List.length_eq_zero_iff.not.mpr hg, eq_blanks hspace⟩
    obtain ⟨n, rfl⟩ := Nat.exists_eq_succ_of_ne_zero hn
    have hwne : w ≠ [] := by
      rintro rfl
      exact absurd hp.head (by simp [blanks, List.replicate_succ, isSpace])
    have hwhash : w.head? ≠ some '#' := by rwa [List.head?_append_of_ne_nil _ hwne] at hhash
    have hends : ∀ m, endsPlain false ⟨blanks (n + 1) ++ rest ++ tail, m⟩ = true := fun m => by
      simp [endsPlain, blanks, List.replicate_succ, isBlank]
    have hscan := scanWord_whole (m := m) hp.sign (hp.word hw) hends
    have hstop := hbehind.not_gap hrest hhead tail
    have hpos : 0 < w.length := List.length_pos_iff.mpr hwne
    have hgap := scanGap_line (some indent) (m.onward w.length) (n + 1) hstop
    rw [Mark.onward_onward] at hgap
    have hcolumn : ¬ m.column + (w.length + (n + 1)) < indent := by omega
    obtain ⟨fuel, rfl⟩ := Nat.exists_eq_add_one_of_ne_zero (Nat.ne_zero_of_lt hf)
    have hmarker' : (⟨rest ++ tail, m.onward (w.length + (n + 1))⟩ : Cursor).atDocumentMarker = false :=
      Cursor.atDocumentMarker_of_column (by simp)
    have hlonger : rest.length < fuel := by
      simp only [List.length_append] at hf
      omega
    have hblank : (blanks (n + 1) ++ (rest ++ tail)).head?.any (fun c => isBlank c || isBreak c) = true := rfl
    simp only [List.append_assoc] at hscan hmarker ⊢
    rw [scanPlain_word hwne hscan hmarker hwhash, if_pos hblank, hgap, ok_bind]
    refine (if_neg hcolumn).trans ?_
    rw [ih hbehind hrest hhash' hmarker' (by simp only [Mark.onward_column]; omega) hlonger]
    simp [blanks, Gap.text, Nat.add_assoc]

end Plain

section Bare

/-- A text that may stand bare where a token starts. -/
structure Bare (cs : List Char) : Prop extends Plain none cs where
  nonempty : cs ≠ []
  dashes : cs.take 3 ≠ ['-', '-', '-']
  dots : cs.take 3 ≠ ['.', '.', '.']

theorem bare_of_features {cs : List Char} (h : (features cs).plain = true) (hne : cs ≠ []) : Bare cs := by
  have hempty : cs.isEmpty = false := by simpa using hne
  simp only [features, hempty, Bool.false_eq_true, if_false, Bool.not_eq_true', Bool.or_eq_false_iff] at h
  obtain ⟨⟨⟨⟨⟨⟨hhead, hlast⟩, -⟩, -, hprintable⟩, hbreaks⟩, hdashes, hdots⟩, hsign⟩ := h
  have hedge : ∀ {c : Option Char}, c.any (fun c => isSpace c || isBreak c) = false → c.any isSpace = false := by
    intro c hc
    cases c with
    | none => rfl
    | some c => exact (Bool.or_eq_false_iff.mp hc).1
  exact {
    sign := hsign
    printable := fun c hc => by simpa using List.any_eq_false.mp hprintable c hc
    line := fun c hc => by simpa using List.any_eq_false.mp hbreaks c hc
    head := hedge hhead
    last := hedge hlast
    nonempty := hne
    dashes := by simpa using hdashes
    dots := by simpa using hdots }

section Alphanum

variable {c : Char} (h : c.isAlphanum = true)

include h

theorem not_isSign_of_isAlphanum (before after : Option Char) : isSign before c after = false := by
  have hsigns : ∀ d ∈ "#,[]\x7b\x7d&*!|>\x27\"%@`?:-".toList, d.isAlphanum = false :=
    List.all_iff_forall_prop.mp (by decide)
  have hne : ∀ d ∈ "#,[]\x7b\x7d&*!|>\x27\"%@`?:-".toList, c ≠ d := by
    rintro d hd rfl
    exact absurd h (by rw [hsigns c hd]; decide)
  simp only [String.reduceToList, List.forall_mem_cons] at hne
  cases before <;> simp_all [isSign]

theorem range_of_isAlphanum : '0' ≤ c ∧ c ≤ 'z' := by
  have hupper : c.isUpper = true → 'A' ≤ c ∧ c ≤ 'Z' := of_decide_eq_true
  have hlower : c.isLower = true → 'a' ≤ c ∧ c ≤ 'z' := fun h =>
    (Bool.and_eq_true_iff.mp h).imp of_decide_eq_true of_decide_eq_true
  have hdigit : c.isDigit = true → '0' ≤ c ∧ c ≤ '9' := fun h =>
    (Bool.and_eq_true_iff.mp h).imp of_decide_eq_true of_decide_eq_true
  obtain (h | h) | h := (Bool.or_eq_true_iff.mp h).imp_left Bool.or_eq_true_iff.mp
  · exact ⟨Char.le_trans (by decide) (hupper h).1, Char.le_trans (hupper h).2 (by decide)⟩
  · exact ⟨Char.le_trans (by decide) (hlower h).1, Char.le_trans (hlower h).2 (by decide)⟩
  · exact ⟨(hdigit h).1, Char.le_trans (hdigit h).2 (by decide)⟩

theorem isPrintable_of_isAlphanum : isPrintable c = true := by
  obtain ⟨hlow, hhigh⟩ := range_of_isAlphanum h
  have hlow : '\x20' ≤ c := Char.le_trans (by decide) hlow
  have hhigh : c ≤ '\x7e' := Char.le_trans hhigh (by decide)
  simp [isPrintable, hlow, hhigh]

theorem not_isBreak_of_isAlphanum : isBreak c = false := by
  have hbreaks : ∀ d ∈ ['\n', '\r', '\x85', '\u2028', '\u2029'], d.isAlphanum = false :=
    List.all_iff_forall_prop.mp (by decide)
  have hne : ∀ d ∈ ['\n', '\r', '\x85', '\u2028', '\u2029'], c ≠ d := by
    rintro d hd rfl
    exact absurd h (by rw [hbreaks c hd]; decide)
  simpa [isBreak, and_assoc] using hne

theorem not_isSpace_of_isAlphanum : isSpace c = false := by
  refine beq_eq_false_iff_ne.mpr ?_
  rintro rfl
  exact absurd h (by decide)

end Alphanum

theorem bare_of_isAlphanum {cs : List Char} (h : ∀ c ∈ cs, c.isAlphanum = true) (hne : cs ≠ []) : Bare cs := by
  have hsign : ∀ before, hasSign before cs = false := by
    clear hne
    induction cs with
    | nil => exact fun _ => rfl
    | cons c cs ih =>
      intro before
      rw [hasSign, not_isSign_of_isAlphanum (h c List.mem_cons_self), ih fun d hd => h d (List.mem_cons_of_mem _ hd)]
      rfl
  have hmarker : ∀ d : Char, d.isAlphanum = false → cs.take 3 ≠ [d, d, d] := fun d hd heq =>
    absurd (h d (List.mem_of_mem_take (by rw [heq]; exact List.mem_cons_self))) (by rw [hd]; decide)
  exact {
    sign := hsign none
    printable := fun c hc => isPrintable_of_isAlphanum (h c hc)
    line := fun c hc => not_isBreak_of_isAlphanum (h c hc)
    head := by
      cases hc : cs.head? with
      | none => rfl
      | some c => exact not_isSpace_of_isAlphanum (h c (List.mem_of_head? hc))
    last := by
      cases hc : cs.getLast? with
      | none => rfl
      | some c => exact not_isSpace_of_isAlphanum (h c (List.mem_of_getLast? hc))
    nonempty := hne
    dashes := hmarker '-' (by decide)
    dots := hmarker '.' (by decide) }

theorem Bare.no_marker {cs tail : List Char} {m : Mark} (hb : Bare cs)
    (htail : tail.head?.all (fun c => c != '-' && c != '.') = true) :
    (⟨cs ++ tail, m⟩ : Cursor).atDocumentMarker = false := by
  have htake : ∀ d : Char, cs.take 3 ≠ [d, d, d] → tail.head? ≠ some d → (cs ++ tail).take 3 ≠ [d, d, d] := by
    rintro d hcs hd heq
    have hne := hb.nonempty
    match cs, tail, hne with
    | [a], [], _ => simp at heq
    | [a], b :: tail, _ => simp_all
    | [a, b], [], _ => simp at heq
    | [a, b], c :: tail, _ => simp_all
    | a :: b :: c :: cs, tail, _ => simp_all
  have hdash : tail.head? ≠ some '-' := by rintro h; rw [h] at htail; exact absurd htail (by decide)
  have hdot : tail.head? ≠ some '.' := by rintro h; rw [h] at htail; exact absurd htail (by decide)
  simp [Cursor.atDocumentMarker, htake _ hb.dashes hdash, htake _ hb.dots hdot]

end Bare

end SequencerHub.Yaml
