import SequencerHub.Proofs.Cursors
import SequencerHub.Proofs.Marks

/-! One token after the other, outside of brackets. Between two tokens a lexer stands somewhere in the text with some
blocks open; blanks and breaks are passed over, and a line that is indented less closes blocks, before the next token
is looked at. -/
namespace SequencerHub.Yaml

namespace Lexer

/-- A lexer that stands in front of a text, with blocks open, the innermost first. -/
def standing (cs : List Char) (m : Mark) (ts : List Placed) (ns : List Nat) (allowed : Bool)
    (possible : Option PossibleKey) : Lexer where
  cursor := ⟨cs, m⟩
  tokens := ts.toArray
  indent := ns.head?
  outer := (ns.map some ++ [none]).tail
  keyAllowed := allowed
  possible := possible

/-- A lexer gets to another one, taking no more tokens than characters: it finishes with what that one does. -/
def Leads (l l' : Lexer) : Prop :=
  ∃ k, k + l'.cursor.rest.length ≤ l.cursor.rest.length ∧
    ∀ fuel ts, run (fuel + 1) l' = (ts, none) → run (k + fuel + 1) l = (ts, none)

theorem Leads.trans {l₁ l₂ l₃ : Lexer} (h : Leads l₁ l₂) (h' : Leads l₂ l₃) : Leads l₁ l₃ := by
  obtain ⟨k, hk, hrun⟩ := h
  obtain ⟨k', hk', hrun'⟩ := h'
  refine ⟨k + k', by omega, fun fuel ts hts => ?_⟩
  rw [Nat.add_assoc k]
  exact hrun _ ts (hrun' fuel ts hts)

theorem leads_of_next {l l' : Lexer} (h : l.next = .ok l') (hlive : l.finished = false)
    (hlen : l'.cursor.rest.length < l.cursor.rest.length) : Leads l l' := by
  refine ⟨1, by omega, fun fuel ts hts => ?_⟩
  rw [Nat.add_comm 1, run, hlive, h]
  exact hts

/-- What leaves the next token as it is leaves all tokens as they are. -/
theorem leads_of_same {l l' : Lexer} (h : l.next = l'.next) (hlive : l.finished = false) (hlive' : l'.finished = false)
    (hlen : l'.cursor.rest.length ≤ l.cursor.rest.length) : Leads l l' := by
  refine ⟨0, by omega, fun fuel ts hts => ?_⟩
  rw [run, hlive', ← h] at hts
  rw [Nat.zero_add, run, hlive]
  cases hn : l.next with
  | ok l'' => rwa [hn] at hts
  | error f => rw [hn] at hts; simp at hts

section Settling

variable {cs : List Char} {m : Mark} {ts : List Placed} {ns : List Nat} {allowed : Bool} {possible : Option PossibleKey}

def Starts (cs : List Char) : Prop :=
  cs.head?.all (fun c => !(isBlank c || isBreak c || c == '#' || c == '\ufeff')) = true

instance (cs : List Char) : Decidable (Starts cs) := inferInstanceAs (Decidable (_ = true))

theorem Starts.head (hs : Starts cs) : cs.head?.any isBlank = false ∧ cs.head?.any isBreak = false ∧
    cs.head? ≠ some '#' ∧ cs.head? ≠ some '\ufeff' := by
  cases cs with
  | nil => simp
  | cons c cs =>
    simp only [Starts, List.head?_cons, Option.all_some, Bool.not_eq_true', Bool.or_eq_false_iff,
      beq_eq_false_iff_ne] at hs
    obtain ⟨⟨⟨hblank, hbreak⟩, hhash⟩, hmark⟩ := hs
    simp [hblank, hbreak, hhash, hmark]

theorem Starts.not_gap (hs : Starts cs) : cs.head?.any (fun c => isBlank c || isBreak c) = false := by
  obtain ⟨hblank, hbreak, -, -⟩ := hs.head
  cases cs with
  | nil => rfl
  | cons c cs => exact Bool.or_eq_false_iff.mpr ⟨hblank, hbreak⟩

theorem skipToToken_step {l : Lexer} {c : Cursor} (hmark : l.cursor.startsWith '\ufeff' = false)
    (hskip : ∀ tabs : Bool, Cursor.skipWhile (fun ch => ch == ' ' || (tabs && ch == '\t')) l.cursor.rest.length
      l.cursor = c) (hhash : c.startsWith '#' = false) (fuel : Nat) :
    skipToToken (fuel + 1) l =
      if c.isBreakAt 0 then
        skipToToken fuel (if l.inFlow then { l with cursor := c.skipLine }
          else { l with cursor := c.skipLine, keyAllowed := true })
      else { l with cursor := c } := by
  have hfirst : (if l.cursor.mark.index = 0 ∧ l.cursor.startsWith '\ufeff' = true then l.cursor.skip else l.cursor) =
      l.cursor := if_neg fun h => absurd h.2 (by rw [hmark]; decide)
  rw [skipToToken]
  simp only [hfirst, hskip, hhash, Bool.false_eq_true, if_false]
  rfl

theorem skipToToken_blanks (hs : Starts cs) (n fuel : Nat) :
    skipToToken (fuel + 1) (standing (blanks n ++ cs) m ts ns allowed possible) =
      standing cs (m.onward n) ts ns allowed possible := by
  obtain ⟨hblank, hbreak, hhash, hmark⟩ := hs.head
  have hlen : (blanks n).length = n := List.length_replicate
  have hfirst : (⟨blanks n ++ cs, m⟩ : Cursor).startsWith '\ufeff' = false := by
    cases n with
    | zero => exact beq_eq_false_iff_ne.mpr hmark
    | succ n => rfl
  have hskip : ∀ tabs : Bool, Cursor.skipWhile (fun ch => ch == ' ' || (tabs && ch == '\t')) (blanks n ++ cs).length
      ⟨blanks n ++ cs, m⟩ = ⟨cs, m.onward n⟩ := by
    intro tabs
    refine (Cursor.skipWhile_all ?_ ?_ (by simp) m).trans (by rw [hlen])
    · intro c hc
      rw [List.eq_of_mem_replicate hc]
      rfl
    · cases cs with
      | nil => rfl
      | cons c cs =>
        have hc := Bool.or_eq_false_iff.mp hblank
        simp [hc.1, hc.2]
  have hline : (⟨cs, m.onward n⟩ : Cursor).isBreakAt 0 = false := by
    rw [Cursor.isBreakAt, Cursor.peekAt?, ← List.head?_eq_getElem?, hbreak]
  have hsign : (⟨cs, m.onward n⟩ : Cursor).startsWith '#' = false := beq_eq_false_iff_ne.mpr hhash
  rw [skipToToken_step (c := ⟨cs, m.onward n⟩) hfirst hskip hsign, hline]
  rfl

theorem skipToToken_feed (hs : Starts cs) (n fuel : Nat) :
    skipToToken (fuel + 2) (standing ('\n' :: (blanks n ++ cs)) m ts ns allowed possible) =
      standing cs (m.down.onward n) ts ns true possible := by
  have hskip : ∀ tabs : Bool, Cursor.skipWhile (fun ch => ch == ' ' || (tabs && ch == '\t'))
      ('\n' :: (blanks n ++ cs)).length ⟨'\n' :: (blanks n ++ cs), m⟩ = ⟨'\n' :: (blanks n ++ cs), m⟩ := fun tabs =>
    Cursor.skipWhile_stop (by cases tabs <;> rfl) _ m
  rw [← skipToToken_blanks hs n fuel, skipToToken_step (c := ⟨'\n' :: (blanks n ++ cs), m⟩) rfl hskip rfl]
  rfl

def settle (l : Lexer) : Step := do
  let l ← (skipToToken (l.cursor.rest.length + 1) l).dropStale
  .ok (l.closeTo (some l.cursor.column))

theorem next_congr {l l' : Lexer} (h : l.settle = l'.settle) : l.next = l'.next := by
  unfold settle at h
  unfold next
  cases hl : (skipToToken (l.cursor.rest.length + 1) l).dropStale <;>
    cases hl' : (skipToToken (l'.cursor.rest.length + 1) l').dropStale <;>
    rw [hl, hl'] at h
  · exact congrArg Except.error (Except.error.inj h)
  · cases h
  · cases h
  · have hclose := Except.ok.inj h
    simp only [ok_bind, hclose]

theorem closeTo_cons {col n : Nat} (h : col < n) : closeTo (some col) (standing cs m ts (n :: ns) allowed possible) =
    closeTo (some col) (standing cs m (ts ++ [(.blockEnd, m)]) ns allowed possible) := by
  have hdeeper : ((some col).any fun c => decide (n ≤ c)) = false := by simpa using h
  have hpop : { (standing cs m ts (n :: ns) allowed possible).push .blockEnd m with
      indent := (ns.map some ++ [none]).head?.getD none, outer := (ns.map some ++ [none]).tail } =
        standing cs m (ts ++ [(.blockEnd, m)]) ns allowed possible := by
    cases ns <;> simp [standing, push]
  have hlen : (standing cs m (ts ++ [(.blockEnd, m)]) ns allowed possible).outer.length + 1 =
      (standing cs m ts (n :: ns) allowed possible).outer.length := by simp [standing]
  rw [closeTo, closeTo, hlen, ← hpop, closeBlocks]
  simp only [standing, inFlow, List.head?_cons, hdeeper]
  rfl

theorem closeTo_stay {col : Nat} (h : ∀ n ∈ ns.head?, n ≤ col) :
    closeTo (some col) (standing cs m ts ns allowed possible) = standing cs m ts ns allowed possible := by
  rw [closeTo, closeBlocks]
  cases ns with
  | nil => rfl
  | cons n ns =>
    have hn : n ≤ col := h n rfl
    simp [standing, inFlow, hn]

theorem dropStale_standing (hold : ∀ k ∈ possible, k.required = false ∧ k.mark.line < m.line) :
    dropStale (standing cs m ts ns allowed possible) = .ok (standing cs m ts ns allowed none) := by
  cases possible with
  | none => rfl
  | some k =>
    obtain ⟨hrequired, hline⟩ := hold k rfl
    simp [dropStale, standing, isStale, hrequired, hline]

theorem settle_blanks (hs : Starts cs) (n : Nat) (hold : ∀ k ∈ possible, k.required = false ∧ k.mark.line < m.line) :
    settle (standing (blanks n ++ cs) m ts ns allowed possible) =
      .ok (closeTo (some (m.column + n)) (standing cs (m.onward n) ts ns allowed none)) := by
  have hold' : ∀ k ∈ possible, k.required = false ∧ k.mark.line < (m.onward n).line := hold
  rw [settle, skipToToken_blanks hs, dropStale_standing hold']
  rfl

theorem settle_feed (hs : Starts cs) (n : Nat) (hold : ∀ k ∈ possible, k.required = false ∧ k.mark.line ≤ m.line) :
    settle (standing ('\n' :: (blanks n ++ cs)) m ts ns allowed possible) =
      .ok (closeTo (some n) (standing cs (m.down.onward n) ts ns true none)) := by
  have hlen : (standing ('\n' :: (blanks n ++ cs)) m ts ns allowed possible).cursor.rest.length + 1 =
      (blanks n ++ cs).length + 2 := rfl
  have hold' : ∀ k ∈ possible, k.required = false ∧ k.mark.line < (m.down.onward n).line := fun k hk =>
    ⟨(hold k hk).1, Nat.lt_succ_of_le (hold k hk).2⟩
  rw [settle, hlen, skipToToken_feed hs, dropStale_standing hold', ok_bind]
  simp [standing, Cursor.column_mk]

theorem settle_starts (hs : Starts cs) : settle (standing cs m ts ns allowed none) =
    .ok (closeTo (some m.column) (standing cs m ts ns allowed none)) :=
  settle_blanks hs 0 fun _ hk => nomatch hk

theorem leads_blanks (hs : Starts cs) (n : Nat) (hold : ∀ k ∈ possible, k.required = false ∧ k.mark.line < m.line) :
    Leads (standing (blanks n ++ cs) m ts ns allowed possible) (standing cs (m.onward n) ts ns allowed none) :=
  leads_of_same (next_congr (by rw [settle_blanks hs n hold, settle_starts hs]; rfl)) rfl rfl (by simp [standing])

theorem leads_feed (hs : Starts cs) (n : Nat) (hold : ∀ k ∈ possible, k.required = false ∧ k.mark.line ≤ m.line) :
    Leads (standing ('\n' :: (blanks n ++ cs)) m ts ns allowed possible)
      (standing cs (m.down.onward n) ts ns true none) :=
  leads_of_same (next_congr (by rw [settle_feed hs n hold, settle_starts hs]; simp)) rfl rfl (by simp [standing]; omega)

/-- A line that is indented less closes the innermost block. -/
theorem leads_close (hs : Starts cs) {n : Nat} (h : m.column < n) :
    Leads (standing cs m ts (n :: ns) allowed none) (standing cs m (ts ++ [(.blockEnd, m)]) ns allowed none) :=
  leads_of_same (next_congr (by rw [settle_starts hs, settle_starts hs, closeTo_cons h])) rfl rfl (Nat.le_refl _)

end Settling

section Signs

variable {cs : List Char} {m : Mark} {ts more : List Placed} {ns : List Nat} {allowed : Bool}
  {possible : Option PossibleKey} {n : Nat} {t : Token}

theorem settle_eq_ok {l l' : Lexer} (h : l.settle = .ok l') : ∃ l₀,
    (skipToToken (l.cursor.rest.length + 1) l).dropStale = .ok l₀ ∧ l₀.closeTo (some l₀.cursor.column) = l' := by
  unfold settle at h
  cases hl : (skipToToken (l.cursor.rest.length + 1) l).dropStale with
  | error f => rw [hl] at h; cases h
  | ok l₀ => rw [hl] at h; exact ⟨l₀, rfl, Except.ok.inj h⟩

theorem settle_standing (hs : Starts cs) (hdeep : ∀ n ∈ ns.head?, n ≤ m.column) (ts : List Placed) (allowed : Bool) :
    settle (standing cs m ts ns allowed none) = .ok (standing cs m ts ns allowed none) := by
  rw [settle_starts hs, closeTo_stay hdeep]

theorem dropStale_fresh {l : Lexer} {k : PossibleKey} (hk : l.possible = some k) (hblock : l.outerPossible = [])
    (hfresh : l.isStale k = false) : l.dropStale = .ok l := by
  have hsame : { l with possible := some k, outerPossible := [] } = l := by
    rw [← hk, ← hblock]
  simp [dropStale, hk, hblock, hfresh, hsame]

/-- A possible key is kept on its line, unless it gets too long. -/
theorem settled_key {k : PossibleKey} (hs : Starts cs) (hdeep : ∀ n ∈ ns.head?, n ≤ m.column)
    (hline : k.mark.line = m.line) (hnear : m.index ≤ k.mark.index + 1024) (ts : List Placed) (allowed : Bool) :
    settle (standing cs m ts ns allowed (some k)) = .ok (standing cs m ts ns allowed (some k)) := by
  have hfresh : isStale (standing cs m ts ns allowed (some k)) k = false :=
    Bool.or_eq_false_iff.mpr ⟨decide_eq_false (hline ▸ Nat.lt_irrefl _), decide_eq_false (Nat.not_lt.mpr hnear)⟩
  have hskip : skipToToken (cs.length + 1) (standing cs m ts ns allowed (some k)) =
      standing cs m ts ns allowed (some k) := skipToToken_blanks hs 0 cs.length
  have hlen : (standing cs m ts ns allowed (some k)).cursor.rest.length + 1 = cs.length + 1 := rfl
  rw [settle, hlen, hskip, dropStale_fresh rfl rfl hfresh, ok_bind]
  exact congrArg Except.ok (closeTo_stay hdeep)

def blocksBefore (first : Bool) (n : Nat) (ns : List Nat) : List Nat := if first then ns else n :: ns

def opening (first : Bool) (t : Token) (m : Mark) : List Placed := if first then [(t, m)] else []

theorem insertIdx_length_append {α : Type} (xs ys : List α) (x : α) :
    (xs ++ ys).insertIdx xs.length x = xs ++ x :: ys := by
  induction xs with
  | nil => simp
  | cons y xs ih => simpa using ih

theorem insertIdx_toArray (ts more : List Placed) (t : Placed) :
    (ts ++ more).toArray.insertIdxIfInBounds ts.length t = (ts ++ t :: more).toArray := by
  rw [Array.insertIdxIfInBounds, dif_pos (by simp)]
  simp [insertIdx_length_append]

theorem openBlock_standing (first : Bool) (hns : ∀ k ∈ ns.head?, k < n) (cs : List Char) (m : Mark)
    (ts more : List Placed) (allowed : Bool) (possible : Option PossibleKey) (t : Token) (m' : Mark) :
    openBlock (standing cs m (ts ++ more) (blocksBefore first n ns) allowed possible) n ts.length t m' =
      standing cs m (ts ++ opening first t m' ++ more) (n :: ns) allowed possible := by
  cases first with
  | true =>
    have hnot : ns.head?.any (fun k => decide (n ≤ k)) = false := by
      cases ns with
      | nil => rfl
      | cons k ns => simpa using hns k rfl
    rw [openBlock, if_neg (by simp [standing, blocksBefore, inFlow, hnot])]
    cases ns <;> simp [standing, blocksBefore, opening, insertIdx_length_append]
  | false => simp [openBlock, standing, blocksBefore, opening]

theorem deep_before (first : Bool) (hns : ∀ k ∈ ns.head?, k < n) : ∀ k ∈ (blocksBefore first n ns).head?, k ≤ n := by
  cases first with
  | true => exact fun k hk => Nat.le_of_lt (hns k hk)
  | false => simp [blocksBefore]

/-- The signs that a document is written with, and what is done about them. Some of them have a gap behind them. -/
inductive Sign : Char → Bool → (Lexer → Step) → Prop
  | entry : Sign '-' true blockEntry
  | announced : Sign '?' true announcedKey
  | colon : Sign ':' true valueMark
  | openList : Sign '[' false (openFlow · .flowSequenceStart)
  | closeList : Sign ']' false (closeFlow · .flowSequenceEnd)
  | openMap : Sign '\x7b' false (openFlow · .flowMappingStart)
  | closeMap : Sign '\x7d' false (closeFlow · .flowMappingEnd)
  | literal : Sign '|' false (blockScalar · true)
  | single : Sign '\x27' false (quotedScalar · false)
  | double : Sign '"' false (quotedScalar · true)

theorem next_sign {c : Char} {gap : Bool} {f : Lexer → Step} (h : Sign c gap f) {l : Lexer} (hset : l.settle = .ok l)
    (hcursor : l.cursor = ⟨c :: cs, m⟩) (hmarker : (⟨c :: cs, m⟩ : Cursor).atDocumentMarker = false)
    (hgap : gap = true → isGap cs.head? = true) (hflow : c = '|' → l.inFlow = false) : l.next = f l := by
  obtain ⟨l₀, hl₀, hclose⟩ := settle_eq_ok hset
  have hone : (⟨c :: cs, m⟩ : Cursor).isGapAt 1 = isGap cs.head? := by cases cs <;> rfl
  unfold next
  simp only [hl₀, ok_bind, hclose]
  simp only [hcursor, hmarker, Cursor.peek?_mk, List.head?_cons, hone]
  cases h
  all_goals simp_all

theorem openBlockHere_standing (first : Bool) (hns : ∀ k ∈ ns.head?, k < m.column) (cs : List Char) (ts : List Placed)
    (allowed : Bool) (t : Token) :
    openBlockHere (standing cs m ts (blocksBefore first m.column ns) allowed none) t =
      standing cs m (ts ++ opening first t m) (m.column :: ns) allowed none := by
  have hopen := openBlock_standing first hns cs m ts [] allowed none t m
  rwa [List.append_nil, List.append_nil] at hopen

theorem take_standing (c : Char) (cs : List Char) (m : Mark) (ts : List Placed) (ns : List Nat) (allowed : Bool)
    (possible : Option PossibleKey) (t : Token) : take (standing (c :: cs) m ts ns allowed possible) 1 t =
      standing cs (m.onward 1) (ts ++ [(t, m)]) ns allowed possible := by
  simp [take, standing, Cursor.skipMany]

theorem next_entry (first : Bool) (hns : ∀ k ∈ ns.head?, k < m.column) :
    next (standing ('-' :: ' ' :: cs) m ts (blocksBefore first m.column ns) true none) =
      .ok (standing (' ' :: cs) (m.onward 1) (ts ++ opening first .blockSequenceStart m ++ [(.blockEntry, m)])
        (m.column :: ns) true none) := by
  have hstarts : Starts ('-' :: ' ' :: cs) := rfl
  have hset := settle_standing hstarts (deep_before first hns) ts true
  rw [next_sign .entry hset rfl (by simp [Cursor.atDocumentMarker]) (fun _ => rfl) nofun, blockEntry,
    openBlockHere_standing first hns]
  exact congrArg Except.ok (take_standing '-' (' ' :: cs) m (ts ++ opening first .blockSequenceStart m) (m.column :: ns)
    true none .blockEntry)

theorem next_announced (first : Bool) (hns : ∀ k ∈ ns.head?, k < m.column) :
    next (standing ('?' :: ' ' :: cs) m ts (blocksBefore first m.column ns) true none) =
      .ok (standing (' ' :: cs) (m.onward 1) (ts ++ opening first .blockMappingStart m ++ [(.key, m)])
        (m.column :: ns) true none) := by
  have hstarts : Starts ('?' :: ' ' :: cs) := rfl
  have hset := settle_standing hstarts (deep_before first hns) ts true
  rw [next_sign .announced hset rfl (by simp [Cursor.atDocumentMarker]) (fun _ => rfl) nofun, announcedKey,
    openBlockHere_standing first hns]
  exact congrArg Except.ok (take_standing '?' (' ' :: cs) m (ts ++ opening first .blockMappingStart m) (m.column :: ns)
    true none .key)

theorem next_colon (hns : ∀ k ∈ ns.head?, k < m.column) :
    next (standing (':' :: ' ' :: cs) m ts (m.column :: ns) true none) =
      .ok (standing (' ' :: cs) (m.onward 1) (ts ++ [(.value, m)]) (m.column :: ns) true none) := by
  have hstarts : Starts (':' :: ' ' :: cs) := rfl
  have hset := settle_standing hstarts (deep_before false hns) ts true
  have hhere := openBlockHere_standing false hns (':' :: ' ' :: cs) ts true .blockMappingStart
  rw [opening, if_neg (by decide), List.append_nil] at hhere
  refine (next_sign .colon hset rfl (by simp [Cursor.atDocumentMarker]) (fun _ => rfl) nofun).trans ?_
  have hvalue : valueMark (standing (':' :: ' ' :: cs) m ts (blocksBefore false m.column ns) true none) =
      (let l := openBlockHere (standing (':' :: ' ' :: cs) m ts (blocksBefore false m.column ns) true none)
        .blockMappingStart
      .ok ((l.allowKey !l.inFlow).take 1 .value)) := rfl
  rw [hvalue, hhere]
  exact congrArg Except.ok (take_standing ':' (' ' :: cs) m ts (m.column :: ns) true none .value)

/-- The colon behind a key that could be one: the key is put where it started, and the first one opens the mapping. -/
theorem next_behind_key {k : PossibleKey} {s : Placed} (first : Bool) (hns : ∀ n ∈ ns.head?, n < k.mark.column)
    (hgap : isGap cs.head? = true) (hk : k.position = ts.length) (hline : k.mark.line = m.line)
    (hnear : m.index ≤ k.mark.index + 1024) (hcolumn : k.mark.column ≤ m.column) (allowed : Bool) :
    next (standing (':' :: cs) m (ts ++ [s]) (blocksBefore first k.mark.column ns) allowed (some k)) =
      .ok (standing cs (m.onward 1) (ts ++ opening first .blockMappingStart k.mark ++ [(.key, k.mark), s, (.value, m)])
        (k.mark.column :: ns) false none) := by
  have hstarts : Starts (':' :: cs) := rfl
  have hdeep : ∀ n ∈ (blocksBefore first k.mark.column ns).head?, n ≤ m.column := fun n hn =>
    Nat.le_trans (deep_before first hns n hn) hcolumn
  have hset := settled_key hstarts hdeep hline hnear (ts ++ [s]) allowed
  refine (next_sign .colon hset rfl (by simp [Cursor.atDocumentMarker]) (fun _ => hgap) nofun).trans ?_
  have hkey : { standing (':' :: cs) m (ts ++ [s]) (blocksBefore first k.mark.column ns) allowed (some k) with
      tokens := (ts ++ [s]).toArray.insertIdxIfInBounds k.position (.key, k.mark) } =
        standing (':' :: cs) m (ts ++ [(.key, k.mark), s]) (blocksBefore first k.mark.column ns) allowed (some k) := by
    rw [hk, insertIdx_toArray]
    rfl
  have hvalue : valueMark (standing (':' :: cs) m (ts ++ [s]) (blocksBefore first k.mark.column ns) allowed (some k)) =
      (let l := openBlock
        { standing (':' :: cs) m (ts ++ [s]) (blocksBefore first k.mark.column ns) allowed (some k) with
          tokens := (ts ++ [s]).toArray.insertIdxIfInBounds k.position (.key, k.mark) }
        k.mark.column k.position .blockMappingStart k.mark
      .ok (({ l with possible := none }.allowKey false).take 1 .value)) := rfl
  have htake := take_standing ':' cs m (ts ++ opening first .blockMappingStart k.mark ++ [(.key, k.mark), s])
    (k.mark.column :: ns) false none .value
  rw [hvalue, hkey, hk, openBlock_standing first hns]
  refine (congrArg Except.ok htake).trans ?_
  simp

def keyHere (ts : List Placed) (m : Mark) (ns : List Nat) (allowed : Bool) : Option PossibleKey :=
  if allowed then some ⟨ts.length, m, ns.head? == some m.column⟩ else none

theorem saveKey_standing (cs : List Char) (m : Mark) (ts : List Placed) (ns : List Nat) (allowed : Bool) :
    saveKey (standing cs m ts ns allowed none) =
      .ok (standing cs m ts ns allowed (keyHere ts m ns allowed)) := by
  cases allowed <;> rfl

def bracketed (cs : List Char) (m : Mark) (ts : List Placed) (ns : List Nat) (possible : Option PossibleKey) : Lexer :=
  { standing cs m ts ns true none with outerPossible := [possible] }

theorem skipToToken_bracketed (hs : Starts cs) (fuel : Nat) :
    skipToToken (fuel + 1) (bracketed cs m ts ns possible) = bracketed cs m ts ns possible := by
  obtain ⟨hblank, hbreak, hhash, hmark⟩ := hs.head
  have hskip : ∀ tabs : Bool, Cursor.skipWhile (fun ch => ch == ' ' || (tabs && ch == '\t')) cs.length ⟨cs, m⟩ =
      ⟨cs, m⟩ := fun tabs => by
    refine Cursor.skipWhile_stop ?_ _ m
    cases cs with
    | nil => rfl
    | cons c cs =>
      have hc := Bool.or_eq_false_iff.mp hblank
      simp [hc.1, hc.2]
  have hline : (⟨cs, m⟩ : Cursor).isBreakAt 0 = false := by
    rw [Cursor.isBreakAt, Cursor.peekAt?, ← List.head?_eq_getElem?, hbreak]
  have hfirst : (⟨cs, m⟩ : Cursor).startsWith '\ufeff' = false := beq_eq_false_iff_ne.mpr hmark
  have hsign : (⟨cs, m⟩ : Cursor).startsWith '#' = false := beq_eq_false_iff_ne.mpr hhash
  rw [skipToToken_step (c := ⟨cs, m⟩) hfirst hskip hsign, hline]
  rfl

theorem settled_bracketed (hs : Starts cs) (hline : ∀ k ∈ possible, k.mark.line = m.line)
    (hnear : ∀ k ∈ possible, m.index ≤ k.mark.index + 1024) (ts : List Placed) (ns : List Nat) :
    settle (bracketed cs m ts ns possible) = .ok (bracketed cs m ts ns possible) := by
  have hdrop : dropStale (bracketed cs m ts ns possible) = .ok (bracketed cs m ts ns possible) := by
    cases possible with
    | none => rfl
    | some k =>
      have hstale : isStale (bracketed cs m ts ns (some k)) k = false :=
        Bool.or_eq_false_iff.mpr ⟨decide_eq_false (hline k rfl ▸ Nat.lt_irrefl _),
          decide_eq_false (Nat.not_lt.mpr (hnear k rfl))⟩
      have hnone : (bracketed cs m ts ns (some k)).possible = none := rfl
      have houter : (bracketed cs m ts ns (some k)).outerPossible = [some k] := rfl
      simp [dropStale, hstale, hnone, houter]
      rfl
  rw [settle, skipToToken_bracketed hs, hdrop]
  rfl

theorem no_marker {c : Char} (hdash : c ≠ '-') (hdot : c ≠ '.') (cs : List Char) (m : Mark) :
    (⟨c :: cs, m⟩ : Cursor).atDocumentMarker = false := by
  simp [Cursor.atDocumentMarker, hdash, hdot]

theorem next_open {c : Char} {t : Token} (hsign : Sign c false (openFlow · t))
    (hc : c ∈ ['[', '\x7b', ']', '\x7d']) (hdeep : ∀ n ∈ ns.head?, n ≤ m.column) :
    next (standing (c :: cs) m ts ns allowed none) =
      .ok (bracketed cs (m.onward 1) (ts ++ [(t, m)]) ns (keyHere ts m ns allowed)) := by
  have hfacts : ∀ c ∈ ['[', '\x7b', ']', '\x7d'], Starts [c] ∧ c ≠ '-' ∧ c ≠ '.' ∧ c ≠ '|' :=
    List.all_iff_forall_prop.mp (by decide)
  obtain ⟨hstarts, hdash, hdot, hbar⟩ := hfacts c hc
  have hset := settle_standing (show Starts (c :: cs) from hstarts) hdeep ts allowed
  rw [next_sign hsign hset rfl (no_marker hdash hdot cs m) nofun (fun h => absurd h hbar), openFlow, saveKey_standing,
    ok_bind]
  simp [bracketed, standing, take, allowKey, Cursor.skipMany]

theorem next_close {c : Char} {t : Token} (hsign : Sign c false (closeFlow · t))
    (hc : c ∈ ['[', '\x7b', ']', '\x7d']) (hline : ∀ k ∈ possible, k.mark.line = m.line)
    (hnear : ∀ k ∈ possible, m.index ≤ k.mark.index + 1024) :
    next (bracketed (c :: cs) m ts ns possible) =
      .ok (standing cs (m.onward 1) (ts ++ [(t, m)]) ns false possible) := by
  have hfacts : ∀ c ∈ ['[', '\x7b', ']', '\x7d'], Starts [c] ∧ c ≠ '-' ∧ c ≠ '.' ∧ c ≠ '|' :=
    List.all_iff_forall_prop.mp (by decide)
  obtain ⟨hstarts, hdash, hdot, hbar⟩ := hfacts c hc
  have hset := settled_bracketed (show Starts (c :: cs) from hstarts) hline hnear ts ns
  have hdrop : dropKey (bracketed (c :: cs) m ts ns possible) = .ok (bracketed (c :: cs) m ts ns possible) := rfl
  rw [next_sign hsign hset rfl (no_marker hdash hdot cs m) nofun (fun h => absurd h hbar), closeFlow, hdrop, ok_bind]
  simp [bracketed, standing, take, allowKey, Cursor.skipMany]

theorem leads_empty {start stop : Char} {t t' : Token} (hopen : Sign start false (openFlow · t))
    (hclose : Sign stop false (closeFlow · t')) (hstart : start ∈ ['[', '\x7b', ']', '\x7d'])
    (hstop : stop ∈ ['[', '\x7b', ']', '\x7d']) (hdeep : ∀ n ∈ ns.head?, n ≤ m.column) :
    Leads (standing (start :: stop :: cs) m ts ns allowed none)
      (standing cs (m.onward 2) (ts ++ [(t, m), (t', m.onward 1)]) ns false (keyHere ts m ns allowed)) := by
  have hkey : ∀ k ∈ keyHere ts m ns allowed, k.mark = m := by
    cases allowed <;> simp [keyHere]
  have hline : ∀ k ∈ keyHere ts m ns allowed, k.mark.line = (m.onward 1).line := fun k hk => by rw [hkey k hk]; rfl
  have hnear : ∀ k ∈ keyHere ts m ns allowed, (m.onward 1).index ≤ k.mark.index + 1024 := fun k hk => by
    rw [hkey k hk, Mark.onward_index]
    omega
  refine (leads_of_next (next_open hopen hstart hdeep) rfl (by simp [standing, bracketed])).trans ?_
  refine leads_of_next ((next_close hclose hstop hline hnear).trans ?_) rfl (by simp [standing, bracketed])
  simp

end Signs

end Lexer

end SequencerHub.Yaml
