import SequencerHub.Json.Document
import SequencerHub.Proofs.Marks
import SequencerHub.Proofs.Numerals

/-! A JSON value without floating-point numbers is read back from its text, if it is not nested too deep. -/
namespace SequencerHub
namespace QuotedText

theorem hexValue?_hexDigit : ∀ n < 16, hexValue? (Json.hexDigit n) = some n := by decide

theorem readUnicode_control {c : Char} (h : c.toNat < 0x20) (t : List Char) :
    readUnicode ('0' :: '0' :: Json.hexDigit (c.toNat / 16) :: Json.hexDigit (c.toNat % 16) :: t) = .ok (c, t) := by
  have hhigh : hexValue? (Json.hexDigit (c.toNat / 16)) = some (c.toNat / 16) := hexValue?_hexDigit _ (by omega)
  have hlow : hexValue? (Json.hexDigit (c.toNat % 16)) = some (c.toNat % 16) := hexValue?_hexDigit _ (by omega)
  have hzero : hexValue? '0' = some 0 := rfl
  have hcode : ((0 * 16 + 0) * 16 + c.toNat / 16) * 16 + c.toNat % 16 = c.toNat := by omega
  have hhex : readHex ('0' :: '0' :: Json.hexDigit (c.toNat / 16) :: Json.hexDigit (c.toNat % 16) :: t) =
      .ok (c.toNat, t) := by
    simp [readHex, hexDigits, hhigh, hlow, hzero]
    omega
  have htrailing : isTrailing c.toNat = false := by
    simp only [isTrailing, Bool.and_eq_false_iff, decide_eq_false_iff_not]
    omega
  have hleading : isLeading c.toNat = false := by
    simp only [isLeading, Bool.and_eq_false_iff, decide_eq_false_iff_not]
    omega
  simp [readUnicode, hhex, htrailing, hleading]

/-- The characters that are written by a letter behind a backslash. -/
def lettered : List Char := ['"', '\\', '\n', '\r', '\t', '\x08', '\x0c']

/-- A character is written behind a backslash, by its number, or as it is. -/
theorem escape_cases (c : Char) :
    (∃ d, Json.escape c = ['\\', d] ∧ d ≠ 'u' ∧ unescape? d = some c) ∨
      (c.toNat < 0x20 ∧ Json.escape c =
        ['\\', 'u', '0', '0', Json.hexDigit (c.toNat / 16), Json.hexDigit (c.toNat % 16)]) ∨
      (Json.escape c = [c] ∧ c ≠ '"' ∧ c ≠ '\\' ∧ ¬ c.toNat < 0x20) := by
  have htable : ∀ d ∈ lettered, ∃ e, Json.escape d = ['\\', e] ∧ e ≠ 'u' ∧ unescape? e = some d := by
    simp only [lettered, List.forall_mem_cons]
    exact ⟨⟨'"', rfl, by decide, rfl⟩, ⟨'\\', rfl, by decide, rfl⟩, ⟨'n', rfl, by decide, rfl⟩,
      ⟨'r', rfl, by decide, rfl⟩, ⟨'t', rfl, by decide, rfl⟩, ⟨'b', rfl, by decide, rfl⟩, ⟨'f', rfl, by decide, rfl⟩,
      List.forall_mem_nil _⟩
  by_cases hc : c ∈ lettered
  · exact .inl (htable c hc)
  · simp only [lettered, List.mem_cons, List.not_mem_nil, or_false, not_or] at hc
    obtain ⟨hquote, hback, hn, hr, ht, hb, hf⟩ := hc
    have hesc : Json.escape c = if c.toNat < 0x20 then
        ['\\', 'u', '0', '0', Json.hexDigit (c.toNat / 16), Json.hexDigit (c.toNat % 16)] else [c] := by
      rw [Json.escape, if_neg hquote, if_neg hback, if_neg hn, if_neg hr, if_neg ht, if_neg hb, if_neg hf]
    by_cases hcontrol : c.toNat < 0x20
    · exact .inr (.inl ⟨hcontrol, hesc.trans (if_pos hcontrol)⟩)
    · exact .inr (.inr ⟨hesc.trans (if_neg hcontrol), hquote, hback, hcontrol⟩)

theorem read_escape (c : Char) (fuel : Nat) (t : List Char) :
    read (fuel + 1) (Json.escape c ++ t) = (read fuel t).map fun x => (c :: x.1, x.2) := by
  have hrest : ∀ d, (read fuel t >>= fun x => .ok (d :: x.1, x.2)) = (read fuel t).map fun x => (d :: x.1, x.2) := by
    intro d
    cases read fuel t <;> rfl
  obtain ⟨d, hc, hu, hd⟩ | ⟨hlow, hc⟩ | ⟨hc, hquote, hback, hhigh⟩ := escape_cases c
  · have he : readEscape (d :: t) = .ok (c, t) := by simp [readEscape, hu, hd]
    rw [hc, List.cons_append, List.singleton_append, read, if_neg (by decide), if_pos rfl, he]
    exact hrest c
  · have he : readEscape ('u' :: '0' :: '0' :: Json.hexDigit (c.toNat / 16) :: Json.hexDigit (c.toNat % 16) :: t) =
        .ok (c, t) := by
      rw [readEscape, if_pos rfl, readUnicode_control hlow]
    rw [hc]
    simp only [List.cons_append, List.nil_append]
    rw [read, if_neg (by decide), if_pos rfl, he]
    exact hrest c
  · rw [hc, List.singleton_append, read, if_neg hquote, if_neg hback, if_neg hhigh]
    exact hrest c

/-- The content of a quoted text is read up to the closing quote. -/
theorem read_flatMap_escape (s : List Char) {fuel : Nat} (h : s.length < fuel) (rest : List Char) :
    read fuel (s.flatMap Json.escape ++ '"' :: rest) = .ok (s, rest) := by
  induction s generalizing fuel with
  | nil =>
    obtain ⟨fuel, rfl⟩ := Nat.exists_eq_add_of_lt h
    simp [read]
  | cons c s ih =>
    obtain ⟨fuel, rfl⟩ : ∃ k, fuel = k + 1 := ⟨fuel - 1, by omega⟩
    have hl : s.length < fuel := by simpa using h
    rw [List.flatMap_cons, List.append_assoc, read_escape, ih hl]
    rfl

theorem length_le_flatMap_escape (s : List Char) : s.length ≤ (s.flatMap Json.escape).length := by
  induction s with
  | nil => exact Nat.le_refl 0
  | cons c s ih =>
    have hc : 1 ≤ (Json.escape c).length := by
      obtain ⟨d, hc, -⟩ | ⟨-, hc⟩ | ⟨hc, -⟩ := escape_cases c <;> simp [hc]
    rw [List.flatMap_cons, List.length_append, List.length_cons]
    omega

theorem read_quote (s rest : List Char) :
    read ((s.flatMap Json.escape ++ '"' :: rest).length + 1) (s.flatMap Json.escape ++ '"' :: rest) =
      .ok (s, rest) := by
  have hl := length_le_flatMap_escape s
  refine read_flatMap_escape s ?_ rest
  rw [List.length_append]
  omega

end QuotedText

mutual

/-- Whether a value holds no floating-point number. -/
def Json.isExact : Json → Bool
  | .number (.float _) => false
  | .array items => Json.areExact items
  | .object members => Json.membersAreExact members
  | _ => true

def Json.areExact : List Json → Bool
  | [] => true
  | j :: more => j.isExact && Json.areExact more

def Json.membersAreExact : List (String × Json) → Bool
  | [] => true
  | (_, j) :: more => j.isExact && Json.membersAreExact more

end

mutual

/-- How many brackets are open at most at a place of the value's text. -/
def Json.nesting : Json → Nat
  | .array items => Json.nestingOfItems items + 1
  | .object members => Json.nestingOfMembers members + 1
  | _ => 0

def Json.nestingOfItems : List Json → Nat
  | [] => 0
  | j :: more => max j.nesting (Json.nestingOfItems more)

def Json.nestingOfMembers : List (String × Json) → Nat
  | [] => 0
  | (_, j) :: more => max j.nesting (Json.nestingOfMembers more)

end

namespace JsonText

def Opens (c : Char) : Prop := isBlank c = false ∧ c ≠ ']' ∧ c ≠ '\x7d'

theorem opens_digit {c : Char} (h : c.isDigit = true) : Opens c := by
  refine ⟨?_, ?_, ?_⟩
  · simp only [isBlank, Bool.or_eq_false_iff, beq_eq_false_iff_ne]
    refine ⟨⟨⟨?_, ?_⟩, ?_⟩, ?_⟩ <;> rintro rfl <;> cases h
  · rintro rfl
    cases h
  · rintro rfl
    cases h

theorem opens_number {c : Char} (h : c = '-' ∨ c.isDigit = true) : Opens c := by
  obtain rfl | h := h
  · exact ⟨by decide, by decide, by decide⟩
  · exact opens_digit h

theorem exists_writeInt (i : Int) : ∃ c cs, Json.writeInt i = c :: cs ∧ (c = '-' ∨ c.isDigit = true) := by
  rw [Json.writeInt]
  split_ifs
  · exact ⟨'-', _, rfl, .inl rfl⟩
  · obtain ⟨c, cs, hc⟩ := List.exists_cons_of_ne_nil (Nat.toDigits_ne_nil (n := i.natAbs) (b := 10))
    exact ⟨c, cs, hc, .inr (isDigit_of_mem (n := i.natAbs) (by simp [hc]))⟩

theorem write_opens (j : Json) (hj : j.isExact = true) : ∃ c cs, j.write = c :: cs ∧ Opens c := by
  cases j with
  | null => exact ⟨'n', _, rfl, by decide, by decide, by decide⟩
  | bool b => cases b <;> exact ⟨_, _, rfl, by decide, by decide, by decide⟩
  | number n =>
    cases n with
    | whole n =>
      obtain ⟨c, cs, hc, hs⟩ := exists_writeInt n.val
      exact ⟨c, cs, hc, opens_number hs⟩
    | float x => cases hj
  | string s => exact ⟨'"', _, rfl, by decide, by decide, by decide⟩
  | array items => exact ⟨'[', _, rfl, by decide, by decide, by decide⟩
  | object members => exact ⟨'\x7b', _, rfl, by decide, by decide, by decide⟩

theorem skipBlanks_cons {c : Char} (h : isBlank c = false) (cs : List Char) : skipBlanks (c :: cs) = c :: cs := by
  simp [skipBlanks, h]

section Steps

variable {fuel depth : Nat} {first : Bool} {c : Char} {cs rest : List Char}

theorem readWord_append (ws rest : List Char) : readWord ws (ws ++ rest) = .ok rest := by
  induction ws with
  | nil => rfl
  | cons w ws ih => rw [List.cons_append, readWord, if_pos rfl, ih]

theorem ofWord_append (cs : List Char) (value : Scalar) (tail : String) (rest : List Char) :
    ofWord cs value tail (tail.toList ++ rest) = ofScalar cs value rest := by
  rw [ofWord, readWord_append]

theorem readValue_null : readValue (fuel + 1) depth (Json.null.write ++ rest) =
    ofScalar (Json.null.write ++ rest) .null rest := by
  have hw : Json.null.write ++ rest = 'n' :: ("ull".toList ++ rest) := rfl
  rw [hw, readValue, skipBlanks_cons (by decide)]
  exact ofWord_append _ .null "ull" rest

theorem readValue_bool (b : Bool) : readValue (fuel + 1) depth ((Json.bool b).write ++ rest) =
    ofScalar ((Json.bool b).write ++ rest) (.bool b) rest := by
  cases b with
  | false =>
    have hw : (Json.bool false).write ++ rest = 'f' :: ("alse".toList ++ rest) := rfl
    rw [hw, readValue, skipBlanks_cons (by decide)]
    exact ofWord_append _ (.bool false) "alse" rest
  | true =>
    have hw : (Json.bool true).write ++ rest = 't' :: ("rue".toList ++ rest) := rfl
    rw [hw, readValue, skipBlanks_cons (by decide)]
    exact ofWord_append _ (.bool true) "rue" rest

theorem readValue_whole (n : Whole) (hr : NumberText.Ends rest) :
    readValue (fuel + 1) depth ((Json.number (.whole n)).write ++ rest) =
      ofScalar ((Json.number (.whole n)).write ++ rest) (.number (.whole n)) rest := by
  have hw : (Json.number (.whole n)).write = Json.writeInt n.val := rfl
  have hn := ofNumber_writeInt n hr
  obtain ⟨c, cs, hc, hs⟩ := exists_writeInt n.val
  have hne : c ≠ '"' ∧ c ≠ '\x7b' ∧ c ≠ '[' := by
    refine ⟨?_, ?_, ?_⟩ <;> rintro rfl <;> revert hs <;> decide
  rw [hw]
  rw [hc, List.cons_append] at hn ⊢
  rw [readValue, skipBlanks_cons (opens_number hs).1]
  simp only [if_neg hne.1, if_neg hne.2.1, if_neg hne.2.2, if_pos hs, hn]

theorem readValue_string (s : String) : readValue (fuel + 1) depth ((Json.string s).write ++ rest) =
    ofScalar ((Json.string s).write ++ rest) (.string s) rest := by
  have hq : (Json.string s).write ++ rest = '"' :: (s.toList.flatMap Json.escape ++ '"' :: rest) := by
    have hw : (Json.string s).write = '"' :: s.toList.flatMap Json.escape ++ ['"'] := rfl
    simp [hw]
  rw [hq, readValue, skipBlanks_cons (by decide)]
  simp only [if_true, QuotedText.read_quote, String.ofList_toList]

theorem readItems_end : readItems (fuel + 1) depth first (']' :: rest) = (.done (.start rest), some rest) := by
  simp [readItems, skipBlanks_cons (c := ']') (by decide)]

theorem readItems_first (h : Opens c) : readItems (fuel + 1) depth true (c :: cs) = readItem fuel depth (c :: cs) := by
  simp [readItems, skipBlanks_cons h.1, h.2.1]

theorem readItems_comma (h : Opens c) :
    readItems (fuel + 1) depth false (',' :: c :: cs) = readItem fuel depth (c :: cs) := by
  simp [readItems, skipBlanks_cons (c := ',') (by decide), skipBlanks_cons h.1, h.2.1]

theorem readMembers_end : readMembers (fuel + 1) depth first ('\x7d' :: rest) = (.done (.start rest), some rest) := by
  simp [readMembers, skipBlanks_cons (c := '\x7d') (by decide)]

theorem readMembers_first : readMembers (fuel + 1) depth true ('"' :: cs) = readMember fuel depth ('"' :: cs) := by
  simp [readMembers, skipBlanks_cons (c := '"') (by decide)]

theorem readMembers_comma :
    readMembers (fuel + 1) depth false (',' :: '"' :: cs) = readMember fuel depth ('"' :: cs) := by
  simp [readMembers, skipBlanks_cons (c := ',') (by decide), skipBlanks_cons (c := '"') (by decide)]

theorem readValue_array {items : Items Spot} (hd : 1 < depth)
    (hi : readItems fuel (depth - 1) true cs = (items, some rest)) :
    readValue (fuel + 1) depth ('[' :: cs) = (.list (.start ('[' :: cs)) items, some rest) := by
  rw [readValue, skipBlanks_cons (by decide)]
  simp [Nat.not_le.mpr hd, hi]

theorem readValue_object {members : Members Spot} (hd : 1 < depth)
    (hm : readMembers fuel (depth - 1) true cs = (members, some rest)) :
    readValue (fuel + 1) depth ('\x7b' :: cs) = (.object (.start ('\x7b' :: cs)) members, some rest) := by
  rw [readValue, skipBlanks_cons (by decide)]
  simp [Nat.not_le.mpr hd, hm]

theorem readItem_sound {v : Node Spot} {items : Items Spot} {r : List Char} (hv : readValue fuel depth cs = (v, some r))
    (hi : readItems fuel depth false r = (items, some rest)) :
    readItem (fuel + 1) depth cs = (.item v items, some rest) := by
  rw [readItem, hv]
  simp only [hi]

theorem readMember_sound {k : String} {v : Node Spot} {members : Members Spot} {r : List Char}
    (hv : readValue fuel depth cs = (v, some r)) (hm : readMembers fuel depth false r = (members, some rest)) :
    ∃ m, readMember (fuel + 1) depth (Json.quote k.toList ++ ':' :: cs) = (m, some rest) ∧
      m.bare = .member k () () v.bare () members.bare := by
  have hk : (k.toList.flatMap Json.escape ++ ['"']) ++ ':' :: cs =
      k.toList.flatMap Json.escape ++ '"' :: ':' :: cs := by simp
  rw [Json.quote, List.cons_append, List.cons_append, hk, readMember]
  simp only [QuotedText.read_quote, skipBlanks_cons (c := ':') (by decide), hv, hm]
  exact ⟨_, rfl, by simp [Members.bare]⟩

end Steps

section Pieces

variable (items : List Json) (members : List (String × Json)) (k : String) (j w : Json) (m : String × Json)
  (more : List Json) (others : List (String × Json)) (rest : List Char)

/-! The text of a value, of elements and of members, piece by piece, and how long each is. -/

theorem write_array : (Json.array items).write ++ rest = '[' :: (Json.writeItems items ++ ']' :: rest) := by
  have hw : (Json.array items).write = '[' :: Json.writeItems items ++ [']'] := rfl
  simp [hw]

theorem length_write_array : (Json.array items).write.length = (Json.writeItems items).length + 2 := by
  have hw := congrArg List.length (write_array items [])
  simpa using hw

theorem write_object :
    (Json.object members).write ++ rest = '\x7b' :: (Json.writeMembers members ++ '\x7d' :: rest) := by
  have hw : (Json.object members).write = '\x7b' :: Json.writeMembers members ++ ['\x7d'] := rfl
  simp [hw]

theorem length_write_object : (Json.object members).write.length = (Json.writeMembers members).length + 2 := by
  have hw := congrArg List.length (write_object members [])
  simpa using hw

theorem writeItems_more : Json.writeItems (j :: w :: more) ++ rest =
    j.write ++ ',' :: (Json.writeItems (w :: more) ++ rest) := by
  have hw : Json.writeItems (j :: w :: more) = j.write ++ ',' :: Json.writeItems (w :: more) := rfl
  simp [hw]

theorem length_writeItems_more : (Json.writeItems (j :: w :: more)).length =
    j.write.length + (Json.writeItems (w :: more)).length + 1 := by
  have hw := congrArg List.length (writeItems_more j w more [])
  simp only [List.append_nil, List.length_append, List.length_cons] at hw
  omega

theorem writeMembers_last : Json.writeMembers [(k, j)] ++ rest = Json.quote k.toList ++ ':' :: (j.write ++ rest) := by
  have hw : Json.writeMembers [(k, j)] = Json.quote k.toList ++ ':' :: j.write := rfl
  simp [hw]

theorem length_writeMembers_last :
    (Json.writeMembers [(k, j)]).length = (Json.quote k.toList).length + j.write.length + 1 := by
  have hw := congrArg List.length (writeMembers_last k j [])
  simp only [List.append_nil, List.length_append, List.length_cons] at hw
  omega

theorem writeMembers_more : Json.writeMembers ((k, j) :: m :: others) ++ rest =
    Json.quote k.toList ++ ':' :: (j.write ++ ',' :: (Json.writeMembers (m :: others) ++ rest)) := by
  have hw : Json.writeMembers ((k, j) :: m :: others) =
      Json.quote k.toList ++ ':' :: j.write ++ ',' :: Json.writeMembers (m :: others) := rfl
  simp [hw]

theorem length_writeMembers_more : (Json.writeMembers ((k, j) :: m :: others)).length =
    (Json.quote k.toList).length + j.write.length + (Json.writeMembers (m :: others)).length + 2 := by
  have hw := congrArg List.length (writeMembers_more k j m others [])
  simp only [List.append_nil, List.length_append, List.length_cons] at hw
  omega

end Pieces

theorem write_length_pos {j : Json} (hj : j.isExact = true) : 0 < j.write.length := by
  obtain ⟨c, cs, hc, -⟩ := write_opens j hj
  simp [hc]

theorem writeItems_opens {j : Json} {more : List Json} (h : Json.areExact (j :: more) = true) :
    ∃ c cs, Json.writeItems (j :: more) = c :: cs ∧ Opens c := by
  simp only [Json.areExact, Bool.and_eq_true] at h
  obtain ⟨c, cs, hc, ho⟩ := write_opens j h.1
  cases more with
  | nil => exact ⟨c, cs, hc, ho⟩
  | cons w more => exact ⟨c, _, by rw [Json.writeItems, hc, List.cons_append], ho⟩

theorem writeMembers_opens (m : String × Json) (more : List (String × Json)) :
    ∃ cs, Json.writeMembers (m :: more) = '"' :: cs := by
  obtain ⟨k, j⟩ := m
  cases more with
  | nil => exact ⟨_, by rw [Json.writeMembers, Json.quote, List.cons_append, List.cons_append]⟩
  | cons m more =>
    exact ⟨_, by rw [Json.writeMembers, Json.quote, List.cons_append, List.cons_append, List.cons_append]⟩

theorem ends_of_mem {c : Char} (h : c ∈ [',', ']', '\x7d']) (cs : List Char) : NumberText.Ends (c :: cs) := by
  simp only [List.mem_cons, List.not_mem_nil, or_false] at h
  obtain rfl | rfl | rfl := h <;> exact ⟨by decide, by decide, by decide, by decide⟩

mutual

/-- The text of a value is read as its tree, and what follows is left. -/
theorem readValue_write (j : Json) (hj : j.isExact = true) (fuel depth : Nat) (hf : 2 * j.write.length ≤ fuel)
    (hd : j.nesting < depth) {rest : List Char} (hr : NumberText.Ends rest) :
    ∃ n, readValue fuel depth (j.write ++ rest) = (n, some rest) ∧ n.bare = Node.ofJson j := by
  -- A value and a separator cost the reader a step each, and either has a character of its own: twice the length does.
  obtain ⟨c, cs, hc, ho⟩ := write_opens j hj
  obtain ⟨fuel, rfl⟩ : ∃ k, fuel = k + 1 := ⟨fuel - 1, by rw [hc, List.length_cons] at hf; omega⟩
  cases j with
  | null => exact ⟨_, readValue_null, rfl⟩
  | bool b => exact ⟨_, readValue_bool b, rfl⟩
  | number n =>
    cases n with
    | whole n => exact ⟨_, readValue_whole n hr, rfl⟩
    | float x => cases hj
  | string s => exact ⟨_, readValue_string s, rfl⟩
  | array items =>
    have hlen := length_write_array items
    have hnest : Json.nestingOfItems items + 1 < depth := hd
    obtain ⟨fuel, rfl⟩ : ∃ k, fuel = k + 1 := ⟨fuel - 1, by omega⟩
    obtain ⟨x, hx, hb⟩ : ∃ x, readItems (fuel + 1) (depth - 1) true (Json.writeItems items ++ ']' :: rest) =
        (x, some rest) ∧ x.bare = Items.ofJson items := by
      cases items with
      | nil => exact ⟨_, readItems_end, rfl⟩
      | cons j more =>
        obtain ⟨x, hx, hb⟩ := readItem_write (j :: more) (by simp) hj fuel (depth - 1) (by omega)
          (by omega) rest
        obtain ⟨c, cs, hc, ho⟩ := writeItems_opens hj
        rw [hc, List.cons_append] at hx ⊢
        exact ⟨x, by rw [readItems_first ho, hx], hb⟩
    exact ⟨_, by rw [write_array, readValue_array (by omega) hx], by rw [Node.bare, hb, Node.ofJson]⟩
  | object members =>
    have hlen := length_write_object members
    have hnest : Json.nestingOfMembers members + 1 < depth := hd
    obtain ⟨fuel, rfl⟩ : ∃ k, fuel = k + 1 := ⟨fuel - 1, by omega⟩
    obtain ⟨x, hx, hb⟩ : ∃ x, readMembers (fuel + 1) (depth - 1) true (Json.writeMembers members ++ '\x7d' :: rest) =
        (x, some rest) ∧ x.bare = Members.ofJson members := by
      cases members with
      | nil => exact ⟨_, readMembers_end, rfl⟩
      | cons m more =>
        obtain ⟨x, hx, hb⟩ := readMember_write (m :: more) (by simp) hj fuel (depth - 1) (by omega)
          (by omega) rest
        obtain ⟨cs, hc⟩ := writeMembers_opens m more
        rw [hc, List.cons_append] at hx ⊢
        exact ⟨x, by rw [readMembers_first, hx], hb⟩
    exact ⟨_, by rw [write_object, readValue_object (by omega) hx], by rw [Node.bare, hb, Node.ofJson]⟩

theorem readItem_write (items : List Json) (hne : items ≠ []) (hj : Json.areExact items = true) (fuel depth : Nat)
    (hf : 2 * (Json.writeItems items).length + 1 ≤ fuel) (hd : Json.nestingOfItems items < depth) (rest : List Char) :
    ∃ x, readItem fuel depth (Json.writeItems items ++ ']' :: rest) = (x, some rest) ∧ x.bare = Items.ofJson items := by
  cases items with
  | nil => exact absurd rfl hne
  | cons j more =>
    simp only [Json.areExact, Bool.and_eq_true] at hj
    simp only [Json.nestingOfItems, max_lt_iff] at hd
    obtain ⟨fuel, rfl⟩ : ∃ k, fuel = k + 1 := ⟨fuel - 1, by omega⟩
    cases more with
    | nil =>
      rw [Json.writeItems] at hf ⊢
      obtain ⟨v, hv, hb⟩ := readValue_write j hj.1 fuel depth (by omega) hd.1
        (ends_of_mem (c := ']') (by simp) rest)
      obtain ⟨fuel, rfl⟩ : ∃ k, fuel = k + 1 := ⟨fuel - 1, by have := write_length_pos hj.1; omega⟩
      exact ⟨_, readItem_sound hv readItems_end, by rw [Items.bare, Items.bare, hb, Items.ofJson, Items.ofJson]⟩
    | cons w more =>
      have hlen := length_writeItems_more j w more
      obtain ⟨v, hv, hb⟩ := readValue_write j hj.1 fuel depth (by omega) hd.1
        (ends_of_mem (c := ',') (by simp) (Json.writeItems (w :: more) ++ ']' :: rest))
      obtain ⟨fuel, rfl⟩ : ∃ k, fuel = k + 1 := ⟨fuel - 1, by omega⟩
      obtain ⟨x, hx, hbx⟩ := readItem_write (w :: more) (by simp) hj.2 fuel depth (by omega) hd.2 rest
      obtain ⟨c, cs, hc, ho⟩ := writeItems_opens hj.2
      rw [hc, List.cons_append] at hv hx
      rw [writeItems_more, hc, List.cons_append]
      exact ⟨_, readItem_sound hv ((readItems_comma ho).trans hx), by rw [Items.bare, hb, hbx]; rfl⟩

theorem readMember_write (members : List (String × Json)) (hne : members ≠ [])
    (hj : Json.membersAreExact members = true) (fuel depth : Nat)
    (hf : 2 * (Json.writeMembers members).length + 1 ≤ fuel) (hd : Json.nestingOfMembers members < depth)
    (rest : List Char) :
    ∃ x, readMember fuel depth (Json.writeMembers members ++ '\x7d' :: rest) = (x, some rest) ∧
      x.bare = Members.ofJson members := by
  cases members with
  | nil => exact absurd rfl hne
  | cons m more =>
    obtain ⟨k, j⟩ := m
    simp only [Json.membersAreExact, Bool.and_eq_true] at hj
    simp only [Json.nestingOfMembers, max_lt_iff] at hd
    obtain ⟨fuel, rfl⟩ : ∃ k, fuel = k + 1 := ⟨fuel - 1, by omega⟩
    have hpos := write_length_pos hj.1
    cases more with
    | nil =>
      have hlen := length_writeMembers_last k j
      obtain ⟨v, hv, hb⟩ := readValue_write j hj.1 fuel depth (by omega) hd.1
        (ends_of_mem (c := '\x7d') (by simp) rest)
      obtain ⟨fuel, rfl⟩ : ∃ k, fuel = k + 1 := ⟨fuel - 1, by omega⟩
      obtain ⟨x, hx, hbx⟩ := readMember_sound (k := k) hv readMembers_end
      exact ⟨x, by rw [writeMembers_last, hx], by rw [hbx, hb]; rfl⟩
    | cons m more =>
      have hlen := length_writeMembers_more k j m more
      obtain ⟨v, hv, hb⟩ := readValue_write j hj.1 fuel depth (by omega) hd.1
        (ends_of_mem (c := ',') (by simp) (Json.writeMembers (m :: more) ++ '\x7d' :: rest))
      obtain ⟨fuel, rfl⟩ : ∃ k, fuel = k + 1 := ⟨fuel - 1, by omega⟩
      obtain ⟨x, hx, hbx⟩ := readMember_write (m :: more) (by simp) hj.2 fuel depth (by omega) hd.2 rest
      obtain ⟨cs, hc⟩ := writeMembers_opens m more
      rw [hc, List.cons_append] at hv hx
      obtain ⟨y, hy, hby⟩ := readMember_sound (k := k) hv (readMembers_comma.trans hx)
      exact ⟨y, by rw [writeMembers_more, hc, List.cons_append, hy], by rw [hby, hb, hbx]; rfl⟩

end

theorem tree_write (j : Json) (hj : j.isExact = true) {depth : Nat} (hd : j.nesting < depth) :
    ∃ n, tree depth j.write = (n, some []) ∧ n.bare = Node.ofJson j := by
  have hends : NumberText.Ends [] := trivial
  obtain ⟨n, hn, hb⟩ := readValue_write j hj (3 * j.write.length + 3) depth (by omega) hd hends
  exact ⟨n, by rw [tree, ← hn, List.append_nil], hb⟩

end JsonText

/-- What a typed reader makes of the tree of a value it also makes of its text. -/
theorem decodeText_write {α : Type} {typed : Node Spot → Decoded Spot α} {j : Json} {a : α} (hj : j.isExact = true)
    {depth : Nat} (hd : j.nesting < depth) (h : ∀ n, n.bare = Node.ofJson j → typed n = .ok a) :
    decodeText depth typed j.write = .ok a := by
  obtain ⟨n, hn, hb⟩ := JsonText.tree_write j hj hd
  simp only [decodeText, hn, h n hb]
  rfl

/-- A value is read back from its text, with its members sorted. -/
theorem Json.parse_write (j : Json) (hj : j.isExact = true) (hd : j.nesting < JsonText.depthLimit) :
    Json.parse j.write = .ok j.canonical := by
  have hread : ∀ n : Node Spot, n.bare = Node.ofJson j → n.toJson = .ok j := by
    intro n hn
    have ht : n.toJson.toOption = some j := by rw [← n.toJson_bare, hn, Node.toJson_ofJson, toOption_ok]
    exact toOption_eq_some.mp ht
  rw [Json.parse, decodeText_write hj hd hread]
end SequencerHub
