import SequencerHub.Proofs.Tokens

/-! The tokens of a whole document. Every value gives its own, up to the line behind it; a block closes with the line
that is indented less. -/
namespace SequencerHub.Yaml

mutual

/-- The tokens of a value. Directly behind a key the entries of a list are in the mapping's own block. -/
def Value.tokens (behindKey : Bool) : Value → List Token
  | .null => [.scalar "null".toList .plain]
  | .number n => [.scalar (Nat.toDigits 10 n) .plain]
  | .text s => [textToken false s.toList]
  | .list [] => [.flowSequenceStart, .flowSequenceEnd]
  | .list items => if behindKey then itemTokens items else .blockSequenceStart :: (itemTokens items ++ [.blockEnd])
  | .map [] => [.flowMappingStart, .flowMappingEnd]
  | .map members => .blockMappingStart :: (memberTokens members ++ [.blockEnd])

def itemTokens : List Value → List Token
  | [] => []
  | v :: more => .blockEntry :: (v.tokens false ++ itemTokens more)

def memberTokens : List (String × Value) → List Token
  | [] => []
  | (key, v) :: more =>
    .key :: textToken (isShortKey key.toList) key.toList :: .value ::
      (v.tokens (isShortKey key.toList) ++ memberTokens more)

end

/-- Values that are written behind the sign that introduces them, not on lines below it. -/
inductive Value.IsLeaf : Value → Prop
  | null : IsLeaf .null
  | number (n : Nat) : IsLeaf (.number n)
  | text (s : String) : IsLeaf (.text s)
  | emptyList : IsLeaf (.list [])
  | emptyMap : IsLeaf (.map [])

def writeMember (indent : Nat) (key : List Char) (v : Value) : List Char :=
  if isShortKey key then writeText true indent key ++ ':' :: writeValue (indent + 2) indent v
  else '?' :: ' ' :: (endLine (writeText false (indent + 2) key) ++
    (blanks indent ++ ':' :: writeInline (indent + 2) v))

theorem writeMembers_cons (indent : Nat) (key : String) (v : Value) (more : List (String × Value)) :
    writeMembers indent ((key, v) :: more) =
      blanks indent ++ (writeMember indent key.toList v ++ writeMembers indent more) := by
  rw [writeMembers, writeMember]
  split_ifs <;> simp

theorem writeItems_cons (indent : Nat) (v : Value) (more : List Value) : writeItems indent (v :: more) =
    blanks indent ++ ('-' :: writeInline (indent + 2) v ++ writeItems indent more) := by
  rw [writeItems]
  simp

section Written

variable (inner list indent : Nat)

theorem writeInline_number (n : Nat) : writeInline indent (.number n) = ' ' :: (Nat.toDigits 10 n ++ ['\n']) := rfl

theorem writeInline_text (s : String) :
    writeInline indent (.text s) = ' ' :: endLine (writeText false indent s.toList) := rfl

theorem writeValue_list (v : Value) (more : List Value) :
    writeValue inner list (.list (v :: more)) = '\n' :: writeItems list (v :: more) := rfl

theorem writeInline_list (v : Value) (more : List Value) :
    writeInline indent (.list (v :: more)) = ' ' :: (writeItems indent (v :: more)).drop indent := rfl

theorem writeValue_map (member : String × Value) (more : List (String × Value)) :
    writeValue inner list (.map (member :: more)) = '\n' :: writeMembers inner (member :: more) := rfl

theorem writeInline_map (member : String × Value) (more : List (String × Value)) :
    writeInline indent (.map (member :: more)) = ' ' :: (writeMembers indent (member :: more)).drop indent := rfl

end Written

theorem drop_blanks (n : Nat) (cs : List Char) : (blanks n ++ cs).drop n = cs :=
  List.drop_left' List.length_replicate

namespace Lexer

/-- A text is taken up to the line behind it, in the same block or one around it, and gives tokens. -/
structure Gives (cs : List Char) (m : Mark) (before ns : List Nat) (allowed : Bool) (tokens : List Token) : Prop where
  line : (m.past cs).column = 0
  leads : ∀ (ts : List Placed) {col : Nat} {rest : List Char}, (∀ n ∈ ns.head?, col ≤ n) → Starts rest →
    ∃ new : List Placed, new.map Prod.fst = tokens ∧
      Leads (standing (cs ++ (blanks col ++ rest)) m ts before allowed none)
        (standing rest ((m.past cs).onward col) (ts ++ new) ns true none)

section Steps

variable {cs cs' : List Char} {m m' : Mark} {before mid ns : List Nat} {allowed allowed' : Bool} {t t' : List Token}
  {n k : Nat}

theorem Gives.step (new : List Placed) (hlead : ∀ ts tail, Leads (standing (cs ++ tail) m ts before allowed none)
      (standing (cs' ++ tail) m' (ts ++ new) mid allowed' none))
    (hpast : m'.past cs' = m.past cs) (h : Gives cs' m' mid ns allowed' t) (ht : new.map Prod.fst ++ t = t') :
    Gives cs m before ns allowed t' where
  line := hpast ▸ h.line
  leads ts col rest hcol hs := by
    obtain ⟨more, hmore, hleads⟩ := h.leads (ts ++ new) hcol hs
    refine ⟨new ++ more, by rw [List.map_append, hmore, ht], (hlead ts _).trans ?_⟩
    rwa [hpast, List.append_assoc] at hleads

theorem Gives.append (h : Gives cs m before (n :: ns) allowed t)
    (h' : Gives cs' ((m.past cs).onward n) (n :: ns) (n :: ns) true t') (hs' : ∀ tail, Starts (cs' ++ tail)) :
    Gives (cs ++ (blanks n ++ cs')) m before (n :: ns) allowed (t ++ t') where
  line := by
    rw [Mark.past_append, Mark.past_append, Mark.past_blanks]
    exact h'.line
  leads ts col rest hcol hs := by
    have hdeep : ∀ k ∈ (n :: ns).head?, n ≤ k := by simp
    obtain ⟨new, hnew, hleads⟩ := h.leads ts hdeep (hs' (blanks col ++ rest))
    obtain ⟨more, hmore, hleads'⟩ := h'.leads (ts ++ new) hcol hs
    refine ⟨new ++ more, by rw [List.map_append, hnew, hmore], ?_⟩
    simp only [List.append_assoc, Mark.past_append, Mark.past_blanks] at hleads' ⊢
    exact hleads.trans hleads'

theorem Gives.close (h : Gives cs m before (n :: k :: ns) allowed t) (hk : k < n) :
    Gives cs m before (k :: ns) allowed (t ++ [.blockEnd]) where
  line := h.line
  leads ts col rest hcol hs := by
    have hcol' : col ≤ k := hcol k rfl
    have hdeep : ∀ i ∈ (n :: k :: ns).head?, col ≤ i := by simp; omega
    have hcolumn : ((m.past cs).onward col).column < n := by
      rw [Mark.onward_column, h.line]
      omega
    obtain ⟨new, hnew, hleads⟩ := h.leads ts hdeep hs
    refine ⟨new ++ [(.blockEnd, (m.past cs).onward col)], by rw [List.map_append, hnew]; rfl, ?_⟩
    rw [← List.append_assoc ts]
    exact hleads.trans (leads_close hs hcolumn)

/-- A blank in front does not count. -/
theorem Gives.behind_blank (h : Gives cs (m.onward 1) before ns allowed t) (hs : ∀ tail, Starts (cs ++ tail)) :
    Gives (' ' :: cs) m before ns allowed t := by
  refine Gives.step [] (fun ts tail => ?_) (Mark.past_letter (by decide) m cs).symm h rfl
  rw [List.append_nil]
  exact leads_blanks (hs tail) 1 fun _ hk => nomatch hk

end Steps

section Leaves

variable {rest : List Char} {m : Mark} {ns : List Nat} {allowed : Bool} {n : Nat}

theorem column_past_line {cs : List Char} (h : cs.getLast?.any isBreak = true) (m : Mark) : (m.past cs).column = 0 := by
  obtain ⟨before, c, rfl⟩ := (List.eq_nil_or_concat cs).resolve_left (by rintro rfl; exact absurd h (by decide))
  have hc : isBreak c = true := by simpa using h
  rw [List.concat_eq_append, Mark.past_append, Mark.past_break hc]
  rfl

theorem getLast?_endLine (cs : List Char) : (endLine cs).getLast?.any isBreak = true := by
  unfold endLine
  split_ifs with h
  · exact h
  · simp [isBreak]

theorem gives_bare {cs : List Char} (hb : Bare cs) (hm : n ≤ m.column) :
    Gives (' ' :: (cs ++ ['\n'])) m (n :: ns) (n :: ns) allowed [.scalar cs .plain] := by
  have hgives : Gives (cs ++ ['\n']) (m.onward 1) (n :: ns) (n :: ns) allowed [.scalar cs .plain] :=
    { line := column_past_line (by simp [isBreak]) _
      leads := fun ts col rest hcol hs => ⟨_, rfl, leads_bare hb (hcol n rfl) hs (Nat.lt_succ_of_le hm)⟩ }
  exact hgives.behind_blank fun tail => by rw [List.append_assoc]; exact starts_of_bare hb

theorem gives_text (cs : List Char) (hm : n ≤ m.column) :
    Gives (' ' :: endLine (writeText false (n + 2) cs)) m (n :: ns) (n :: ns) allowed [textToken false cs] := by
  have hgives : Gives (endLine (writeText false (n + 2) cs)) (m.onward 1) (n :: ns) (n :: ns) allowed
      [textToken false cs] :=
    { line := column_past_line (getLast?_endLine _) _
      leads := fun ts col rest hcol hs => ⟨_, rfl, leads_text cs (hcol n rfl) hs (Nat.lt_succ_of_le hm)⟩ }
  refine hgives.behind_blank fun tail => ?_
  obtain ⟨more, hmore⟩ := endLine_append (writeText false (n + 2) cs)
  rw [hmore, List.append_assoc]
  exact starts_text false (.inl (Nat.succ_pos _)) cs _

theorem gives_empty {start stop : Char} {t t' : Token} (hopen : Sign start false (openFlow · t))
    (hclose : Sign stop false (closeFlow · t')) (hstart : start ∈ ['[', '\x7b', ']', '\x7d'])
    (hstop : stop ∈ ['[', '\x7b', ']', '\x7d']) (hm : n ≤ m.column) :
    Gives [' ', start, stop, '\n'] m (n :: ns) (n :: ns) allowed [t, t'] := by
  have hfacts : ∀ c ∈ ['[', '\x7b', ']', '\x7d'], Starts [c] ∧ isBreak c = false :=
    List.all_iff_forall_prop.mp (by decide)
  have hstart' := (hfacts start hstart).2
  have hstop' := (hfacts stop hstop).2
  have hdeep : ∀ k ∈ (n :: ns).head?, k ≤ (m.onward 1).column := by simp; omega
  have hgives : Gives [start, stop, '\n'] (m.onward 1) (n :: ns) (n :: ns) allowed [t, t'] :=
    { line := column_past_line rfl _
      leads := fun ts col rest hcol hs => by
        have hkey := keyHere_inside (m := m.onward 1) (Nat.lt_succ_of_le hm) ts ns allowed
        have hold : ∀ k ∈ keyHere ts (m.onward 1) (n :: ns) allowed,
            k.required = false ∧ k.mark.line ≤ ((m.onward 1).onward 2).line := fun k hk =>
          ⟨(hkey k hk).1, by rw [(hkey k hk).2]; exact Nat.le_refl _⟩
        rw [Mark.past_letter hstart', Mark.past_letter hstop', Mark.past_break rfl, Mark.past_nil]
        exact ⟨_, rfl, (leads_empty hopen hclose hstart hstop hdeep).trans (leads_feed hs col hold)⟩ }
  exact hgives.behind_blank fun tail => (hfacts start hstart).1

theorem bare_null : Bare "null".toList := bare_of_isAlphanum (List.all_iff_forall_prop.mp (by decide)) (by decide)

theorem bare_digits (n : Nat) : Bare (Nat.toDigits 10 n) := by
  refine bare_of_isAlphanum (fun c hc => ?_) Nat.toDigits_ne_nil
  have hdigit := Nat.isDigit_of_mem_toDigits (by decide) (by decide) hc
  simp [Char.isAlphanum, hdigit]

theorem gives_leaf {v : Value} (hv : v.IsLeaf) (behindKey : Bool) (hm : n ≤ m.column) :
    Gives (writeInline (n + 2) v) m (n :: ns) (n :: ns) allowed (v.tokens behindKey) := by
  cases hv with
  | null => exact gives_bare bare_null hm
  | number k => exact gives_bare (bare_digits k) hm
  | text s => exact gives_text s.toList hm
  | emptyList => exact gives_empty .openList .closeList (by decide) (by decide) hm
  | emptyMap => exact gives_empty .openMap .closeMap (by decide) (by decide) hm

end Leaves

section Blocks

variable {cs : List Char} {m : Mark} {before ns : List Nat} {allowed : Bool} {t : List Token} {n k : Nat}

theorem Gives.below (h : Gives cs (m.down.onward k) before ns true t) (hs : ∀ tail, Starts (cs ++ tail)) :
    Gives ('\n' :: (blanks k ++ cs)) m before ns allowed t := by
  have hpast : (m.down.onward k).past cs = m.past ('\n' :: (blanks k ++ cs)) := by
    rw [Mark.past_break rfl, Mark.past_append, Mark.past_blanks]
  refine Gives.step [] (fun ts tail => ?_) hpast h rfl
  rw [List.append_nil, List.cons_append, List.append_assoc]
  exact leads_feed (hs tail) k fun _ hk => nomatch hk

def openingToken (first : Bool) (t : Token) : List Token := if first then [t] else []

theorem map_opening (first : Bool) (t : Token) (m : Mark) :
    (opening first t m).map Prod.fst = openingToken first t := by
  cases first <;> rfl

theorem isGap_writeValue (inner list : Nat) (v : Value) (tail : List Char) :
    isGap (writeValue inner list v ++ tail).head? = true := by
  cases v with
  | list items => cases items <;> rfl
  | map members => cases members <;> rfl
  | _ => rfl

theorem exists_writeInline (indent : Nat) (v : Value) : ∃ cs, writeInline indent v = ' ' :: cs := by
  cases v with
  | list items => cases items <;> exact ⟨_, rfl⟩
  | map members => cases members <;> exact ⟨_, rfl⟩
  | _ => exact ⟨_, rfl⟩

theorem gives_item (first : Bool) {v : Value} (hm : m.column = n) (hns : ∀ k ∈ ns.head?, k < n)
    (hv : Gives (writeInline (n + 2) v) (m.onward 1) (n :: ns) (n :: ns) true t) :
    Gives ('-' :: writeInline (n + 2) v) m (blocksBefore first n ns) (n :: ns) true
      (openingToken first .blockSequenceStart ++ .blockEntry :: t) := by
  subst hm
  obtain ⟨cs, hcs⟩ := exists_writeInline (m.column + 2) v
  rw [hcs] at hv ⊢
  refine Gives.step (opening first .blockSequenceStart m ++ [(.blockEntry, m)]) (fun ts tail => ?_)
    (Mark.past_letter (by decide) m _).symm hv (by simp [map_opening])
  rw [← List.append_assoc]
  exact leads_of_next (next_entry first hns) rfl (by simp [standing])

theorem gives_colon {v : Value} (hm : m.column = n) (hns : ∀ k ∈ ns.head?, k < n)
    (hv : Gives (writeInline (n + 2) v) (m.onward 1) (n :: ns) (n :: ns) true t) :
    Gives (':' :: writeInline (n + 2) v) m (n :: ns) (n :: ns) true (.value :: t) := by
  subst hm
  obtain ⟨cs, hcs⟩ := exists_writeInline (m.column + 2) v
  rw [hcs] at hv ⊢
  refine Gives.step [(.value, m)] (fun ts tail => ?_) (Mark.past_letter (by decide) m _).symm hv rfl
  exact leads_of_next (next_colon hns) rfl (by simp [standing])

theorem gives_member (first : Bool) (key : List Char) {v : Value} (hm : m.column = n) (hns : ∀ k ∈ ns.head?, k < n)
    (hv : ∀ m, n ≤ m.column → Gives (writeValue (n + 2) n v) m (n :: ns) (n :: ns) false (v.tokens true))
    (hv' : ∀ m, m.column = n + 1 → Gives (writeInline (n + 2) v) m (n :: ns) (n :: ns) true (v.tokens false)) :
    Gives (writeMember n key v) m (blocksBefore first n ns) (n :: ns) true
      (openingToken first .blockMappingStart ++
        .key :: textToken (isShortKey key) key :: .value :: v.tokens (isShortKey key)) := by
  subst hm
  unfold writeMember
  cases hshort : isShortKey key with
  | true =>
    have hcolumn : m.column ≤ (m.past (writeText true m.column key ++ [':'])).column := by
      rw [Mark.past_append, Mark.past_line (line_key m.column key), Mark.past_letter (by decide), Mark.past_nil]
      simp only [Mark.onward_column]
      omega
    have hpast : (m.past (writeText true m.column key ++ [':'])).past (writeValue (m.column + 2) m.column v) =
        m.past (writeText true m.column key ++ ':' :: writeValue (m.column + 2) m.column v) := by
      rw [← Mark.past_append, List.append_assoc, List.singleton_append]
    refine Gives.step (opening first .blockMappingStart m ++
      [(.key, m), (textToken true key, m), (.value, m.past (writeText true m.column key))]) (fun ts tail => ?_) hpast
      (hv _ hcolumn) (by simp [map_opening])
    have hleads := leads_key first m.column hshort hns (isGap_writeValue (m.column + 2) m.column v tail) ts
    simpa using hleads
  | false =>
    have hkey : Gives _ (m.onward 1) (m.column :: ns) _ true _ := gives_text key (Nat.le_add_right m.column 1)
    have hline : (((m.onward 1).past (' ' :: endLine (writeText false (m.column + 2) key))).onward m.column).column =
        m.column := by rw [Mark.onward_column, hkey.line, Nat.zero_add]
    have hvalue := gives_colon hline hns (hv' _ (by rw [Mark.onward_column, hline]))
    refine Gives.step (opening first .blockMappingStart m ++ [(.key, m)]) (fun ts tail => ?_)
      (Mark.past_letter (by decide) m _).symm (hkey.append hvalue fun tail => rfl) (by simp [map_opening])
    rw [if_neg (by decide), ← List.append_assoc ts]
    exact leads_of_next (next_announced first hns) rfl (by simp [standing])

end Blocks

section Values

theorem drop_writeItems (n : Nat) (v : Value) (more : List Value) :
    (writeItems n (v :: more)).drop n = '-' :: writeInline (n + 2) v ++ writeItems n more := by
  rw [writeItems_cons, drop_blanks]

theorem drop_writeMembers (n : Nat) (key : String) (v : Value) (more : List (String × Value)) :
    (writeMembers n ((key, v) :: more)).drop n = writeMember n key.toList v ++ writeMembers n more := by
  rw [writeMembers_cons, drop_blanks]

theorem starts_member (n : Nat) (key : List Char) (v : Value) (tail : List Char) :
    Starts (writeMember n key v ++ tail) := by
  unfold writeMember
  split_ifs
  · rw [List.append_assoc]
    exact starts_text true (.inr rfl) key _
  · rfl

theorem items_start (n : Nat) {items : List Value} (hne : items ≠ []) :
    writeItems n items = blanks n ++ (writeItems n items).drop n ∧
      ∀ tail, Starts ((writeItems n items).drop n ++ tail) := by
  cases items with
  | nil => exact absurd rfl hne
  | cons v more =>
    rw [drop_writeItems, writeItems_cons]
    exact ⟨rfl, fun tail => rfl⟩

theorem members_start (n : Nat) {members : List (String × Value)} (hne : members ≠ []) :
    writeMembers n members = blanks n ++ (writeMembers n members).drop n ∧
      ∀ tail, Starts ((writeMembers n members).drop n ++ tail) := by
  cases members with
  | nil => exact absurd rfl hne
  | cons member more =>
    obtain ⟨key, v⟩ := member
    rw [drop_writeMembers, writeMembers_cons]
    exact ⟨rfl, fun tail => by rw [List.append_assoc]; exact starts_member n key.toList v _⟩

theorem deeper (n : Nat) (ns : List Nat) : ∀ k ∈ (n :: ns).head?, k < n + 2 := by
  simp

mutual

/-- A value behind the colon of its key. -/
theorem gives_value (v : Value) {n : Nat} {ns : List Nat} (m : Mark) (hm : n ≤ m.column) (hns : ∀ k ∈ ns.head?, k < n) :
    Gives (writeValue (n + 2) n v) m (n :: ns) (n :: ns) false (v.tokens true) := by
  cases v with
  | null => exact gives_leaf .null true hm
  | number k => exact gives_leaf (.number k) true hm
  | text s => exact gives_leaf (.text s) true hm
  | list items =>
    cases items with
    | nil => exact gives_leaf .emptyList true hm
    | cons x more =>
      obtain ⟨hlines, hstarts⟩ := items_start n (List.cons_ne_nil x more)
      have hitems := gives_items false (x :: more) (by simp) (m := m.down.onward n) (Nat.zero_add n) hns
      rw [writeValue_list, hlines]
      exact hitems.below hstarts
  | map members =>
    cases members with
    | nil => exact gives_leaf .emptyMap true hm
    | cons x more =>
      obtain ⟨hlines, hstarts⟩ := members_start (n + 2) (List.cons_ne_nil x more)
      have hmembers := gives_members true (x :: more) (by simp) (m := m.down.onward (n + 2)) (Nat.zero_add (n + 2))
        (deeper n ns)
      rw [writeValue_map, hlines]
      exact (hmembers.below hstarts).close (by omega)

/-- A value behind the sign of an entry, or behind the colon of a key that was announced. -/
theorem gives_inline (v : Value) {n : Nat} {ns : List Nat} (m : Mark) (hm : m.column = n + 1) :
    Gives (writeInline (n + 2) v) m (n :: ns) (n :: ns) true (v.tokens false) := by
  have hm' : n ≤ m.column := by omega
  cases v with
  | null => exact gives_leaf .null false hm'
  | number k => exact gives_leaf (.number k) false hm'
  | text s => exact gives_leaf (.text s) false hm'
  | list items =>
    cases items with
    | nil => exact gives_leaf .emptyList false hm'
    | cons x more =>
      obtain ⟨-, hstarts⟩ := items_start (n + 2) (List.cons_ne_nil x more)
      have hitems := gives_items true (x :: more) (by simp) (m := m.onward 1) (congrArg (· + 1) hm) (deeper n ns)
      exact (hitems.behind_blank hstarts).close (by omega)
  | map members =>
    cases members with
    | nil => exact gives_leaf .emptyMap false hm'
    | cons x more =>
      obtain ⟨-, hstarts⟩ := members_start (n + 2) (List.cons_ne_nil x more)
      have hmembers := gives_members true (x :: more) (by simp) (m := m.onward 1) (congrArg (· + 1) hm) (deeper n ns)
      exact (hmembers.behind_blank hstarts).close (by omega)

/-- The entries of a list, from the first sign on. -/
theorem gives_items (first : Bool) (items : List Value) (hne : items ≠ []) {n : Nat} {ns : List Nat} {m : Mark}
    (hm : m.column = n) (hns : ∀ k ∈ ns.head?, k < n) :
    Gives ((writeItems n items).drop n) m (blocksBefore first n ns) (n :: ns) true
      (openingToken first .blockSequenceStart ++ itemTokens items) := by
  cases items with
  | nil => exact absurd rfl hne
  | cons v more =>
    have hv := gives_item first hm hns (gives_inline v (m.onward 1) (congrArg (· + 1) hm))
    rw [drop_writeItems]
    cases more with
    | nil => simpa [writeItems, itemTokens] using hv
    | cons w more =>
      have hline : ((m.past ('-' :: writeInline (n + 2) v)).onward n).column = n := by
        rw [Mark.onward_column, hv.line, Nat.zero_add]
      obtain ⟨hlines, hstarts⟩ := items_start n (List.cons_ne_nil w more)
      have hmore := gives_items false (w :: more) (by simp) hline hns
      rw [hlines, itemTokens]
      simpa [openingToken] using hv.append hmore hstarts

theorem gives_members (first : Bool) (members : List (String × Value)) (hne : members ≠ []) {n : Nat} {ns : List Nat}
    {m : Mark} (hm : m.column = n) (hns : ∀ k ∈ ns.head?, k < n) :
    Gives ((writeMembers n members).drop n) m (blocksBefore first n ns) (n :: ns) true
      (openingToken first .blockMappingStart ++ memberTokens members) := by
  cases members with
  | nil => exact absurd rfl hne
  | cons member more =>
    obtain ⟨key, v⟩ := member
    have hv := gives_member first key.toList hm hns (fun m hm => gives_value v m hm hns) fun m hm =>
      gives_inline v m hm
    rw [drop_writeMembers]
    cases more with
    | nil => simpa [writeMembers, memberTokens] using hv
    | cons member more =>
      have hline : ((m.past (writeMember n key.toList v)).onward n).column = n := by
        rw [Mark.onward_column, hv.line, Nat.zero_add]
      obtain ⟨hlines, hstarts⟩ := members_start n (List.cons_ne_nil member more)
      have hmore := gives_members false (member :: more) (by simp) hline hns
      rw [hlines, memberTokens]
      simpa [openingToken] using hv.append hmore hstarts

end

end Values

end Lexer

section Printable

variable {cs : List Char}

def Printable (cs : List Char) : Prop := ∀ c ∈ cs, isPrintable c = true

@[simp] theorem printable_nil : Printable [] := nofun

@[simp] theorem printable_cons {c : Char} : Printable (c :: cs) ↔ isPrintable c = true ∧ Printable cs :=
  List.forall_mem_cons

@[simp] theorem printable_append {ds : List Char} : Printable (cs ++ ds) ↔ Printable cs ∧ Printable ds :=
  List.forall_mem_append

@[simp] theorem printable_blanks (n : Nat) : Printable (blanks n) := fun c hc => by
  rw [List.eq_of_mem_replicate hc]
  decide

@[simp] theorem isPrintable_signs : isPrintable ' ' = true ∧ isPrintable '\n' = true ∧ isPrintable '\x27' = true ∧
    isPrintable '"' = true ∧ isPrintable '|' = true ∧ isPrintable ':' = true ∧ isPrintable '-' = true ∧
    isPrintable '?' = true := by decide

theorem printable_single (indent : Nat) (breaks : Bool) (h : Printable cs) : Printable (single indent breaks cs) := by
  induction cs generalizing breaks with
  | nil => simp [single]
  | cons c cs ih =>
    obtain ⟨hc, hcs⟩ := printable_cons.mp h
    rw [single]
    split_ifs <;> simp [hc, ih _ hcs]

theorem printable_literalLines (indent : Nat) (breaks : Bool) (h : Printable cs) :
    Printable (literalLines indent breaks cs) := by
  induction cs generalizing breaks with
  | nil => exact printable_nil
  | cons c cs ih =>
    obtain ⟨hc, hcs⟩ := printable_cons.mp h
    rw [literalLines]
    split_ifs <;> simp [hc, ih _ hcs]

theorem printable_writeText (asKey : Bool) (indent : Nat) (cs : List Char) : Printable (writeText asKey indent cs) := by
  have hsuits := suits_spelling asKey cs
  rw [writeText]
  cases hsp : spelling asKey cs <;> rw [hsp] at hsuits
  case bare =>
    obtain rfl | hne := eq_or_ne cs []
    · exact printable_nil
    · exact (bare_of_features hsuits.1 hne).printable
  case single => simp [printable_single indent false (singleQuoted_features hsuits.1).1]
  case double =>
    have hflat : Printable (cs.flatMap escape) := fun d hd => by
      obtain ⟨c, -, hd⟩ := List.mem_flatMap.mp hd
      exact (flat_escape hd).1
    simp [hflat]
  case literal =>
    have hsigns : Printable (literalSigns cs) := by
      rw [literalSigns_eq, signs]
      generalize chomping cs = chomp
      split_ifs <;> cases chomp <;> exact List.all_iff_forall_prop.mp (by decide)
    simp [hsigns, printable_literalLines indent true (block_features hsuits.2.1)]

theorem printable_endLine (h : Printable cs) : Printable (endLine cs) := by
  unfold endLine
  split_ifs <;> simp [h]

theorem printable_leaf {v : Value} (hv : v.IsLeaf) (indent : Nat) : Printable (writeInline indent v) := by
  cases hv with
  | null => exact List.all_eq_true.mp (show " null\n".toList.all isPrintable = true by decide)
  | number k =>
    have hdigits : Printable (Nat.toDigits 10 k) := (Lexer.bare_digits k).printable
    simp [writeInline_number, hdigits]
  | text s => simp [writeInline_text, printable_endLine (printable_writeText false indent s.toList)]
  | emptyList => exact List.all_eq_true.mp (show " []\n".toList.all isPrintable = true by decide)
  | emptyMap => exact List.all_eq_true.mp (show " \x7b\x7d\n".toList.all isPrintable = true by decide)

theorem printable_drop (h : Printable cs) (n : Nat) : Printable (cs.drop n) := fun c hc => h c (List.mem_of_mem_drop hc)

mutual

theorem printable_writeValue (v : Value) (inner list : Nat) : Printable (writeValue inner list v) := by
  cases v with
  | null => exact printable_leaf .null inner
  | number k => exact printable_leaf (.number k) inner
  | text s => exact printable_leaf (.text s) inner
  | list items =>
    cases items with
    | nil => exact printable_leaf .emptyList inner
    | cons x more => simp [writeValue_list, printable_writeItems (x :: more) list]
  | map members =>
    cases members with
    | nil => exact printable_leaf .emptyMap inner
    | cons x more => simp [writeValue_map, printable_writeMembers (x :: more) inner]

theorem printable_writeInline (v : Value) (indent : Nat) : Printable (writeInline indent v) := by
  cases v with
  | null => exact printable_leaf .null indent
  | number k => exact printable_leaf (.number k) indent
  | text s => exact printable_leaf (.text s) indent
  | list items =>
    cases items with
    | nil => exact printable_leaf .emptyList indent
    | cons x more => simp [writeInline_list, printable_drop (printable_writeItems (x :: more) indent)]
  | map members =>
    cases members with
    | nil => exact printable_leaf .emptyMap indent
    | cons x more => simp [writeInline_map, printable_drop (printable_writeMembers (x :: more) indent)]

theorem printable_writeItems (items : List Value) (indent : Nat) : Printable (writeItems indent items) := by
  cases items with
  | nil => exact printable_nil
  | cons v more =>
    simp [writeItems_cons, printable_writeInline v (indent + 2), printable_writeItems more indent]

theorem printable_writeMembers (members : List (String × Value)) (indent : Nat) :
    Printable (writeMembers indent members) := by
  cases members with
  | nil => exact printable_nil
  | cons member more =>
    obtain ⟨key, v⟩ := member
    have hv := printable_writeValue v (indent + 2) indent
    have hv' := printable_writeInline v (indent + 2)
    rw [writeMembers_cons, writeMember]
    split_ifs <;> simp [printable_writeText, printable_endLine, hv, hv', printable_writeMembers more indent]

end

end Printable

theorem Lexer.next_end (ts : List Placed) {m : Mark} (allowed : Bool) :
    ∃ l, next (standing [] m ts [0] allowed none) = .ok l ∧ l.finished = true ∧
      l.tokens.toList = ts ++ [(Token.blockEnd, m), (Token.streamEnd, m)] := by
  have hdeep : ∀ k ∈ [0].head?, k ≤ m.column := by simp
  have hset := settle_standing (show Starts [] from rfl) hdeep ts allowed
  obtain ⟨l₀, hl₀, hclose⟩ := settle_eq_ok hset
  have hnext : next (standing [] m ts [0] allowed none) = endStream (standing [] m ts [0] allowed none) := by
    unfold next
    simp only [hl₀, ok_bind, hclose]
    rfl
  rw [hnext]
  exact ⟨_, rfl, rfl, by simp [standing, push, closeTo, closeBlocks, inFlow]⟩

/-- The tokens of a document. -/
theorem tokens_render {members : List (String × Value)} (hne : members ≠ []) :
    ∃ ts, tokens (writeMembers 0 members) = (ts, none) ∧ ts.map Prod.fst =
      .blockMappingStart :: (memberTokens members ++ [.blockEnd, .streamEnd]) := by
  have hallowed : (writeMembers 0 members).findIdx? (fun c => !isAllowed c) = none := by
    refine List.findIdx?_eq_none_iff.mpr fun c hc => ?_
    rw [isAllowed_of_isPrintable (printable_writeMembers members 0 c hc)]
    rfl
  have hgives : Lexer.Gives (writeMembers 0 members) ⟨0, 0, 0⟩ [] [0] true
      (Lexer.openingToken true .blockMappingStart ++ memberTokens members) :=
    Lexer.gives_members true members hne (n := 0) (m := ⟨0, 0, 0⟩) rfl fun _ hk => nomatch hk
  have hends : ∀ n ∈ [0].head?, 0 ≤ n := by simp
  obtain ⟨new, hnew, k, hk, hrun⟩ := hgives.leads [] hends (show Lexer.Starts [] from rfl)
  rw [List.nil_append] at hrun
  generalize ((⟨0, 0, 0⟩ : Mark).past (writeMembers 0 members)).onward 0 = stop at hrun
  obtain ⟨l, hl, hfinished, htokens⟩ := Lexer.next_end new (m := stop) true
  have hlast : ∀ fuel, Lexer.run (fuel + 2) (Lexer.standing [] stop new [0] true none) = (l.tokens, none) := by
    intro fuel
    have hlive : (Lexer.standing [] stop new [0] true none).finished = false := rfl
    rw [Lexer.run, hlive, hl]
    simp [Lexer.run, hfinished]
  have htext : writeMembers 0 members ++ (blanks 0 ++ []) = writeMembers 0 members := List.append_nil _
  rw [htext] at hk hrun
  have hlen : k ≤ (writeMembers 0 members).length := Nat.le_trans (Nat.le_add_right k _) hk
  obtain ⟨fuel, hfuel⟩ : ∃ fuel, 2 * (writeMembers 0 members).length + 2 = k + (fuel + 1) + 1 :=
    ⟨2 * (writeMembers 0 members).length - k, by omega⟩
  refine ⟨l.tokens.toList, ?_, ?_⟩
  · have hwhole := hrun (fuel + 1) l.tokens (hlast fuel)
    rw [← hfuel] at hwhole
    rw [tokens, hallowed]
    exact congrArg (fun r : Array Placed × Option Fault => (r.1.toList, r.2)) hwhole
  · rw [htokens, List.map_append, hnew]
    simp [Lexer.openingToken]

end SequencerHub.Yaml
