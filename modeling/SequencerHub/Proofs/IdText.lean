import Mathlib.Tactic
import SequencerHub.SequencerId.Parser

/-! An identifier is read back from its written form. -/
namespace SequencerHub.SequencerId

theorem digitChar_spec : ∀ n < 16, hexValue? (Nat.digitChar n) = some n ∧ Nat.digitChar n ≠ '-' ∧
    Nat.digitChar n ≠ '\x7b' ∧ (Nat.digitChar n).toLower ≠ 'u' ∧ (Nat.digitChar n).utf8Size = 1 := by decide

def IsDigit (c : Char) : Prop := ∃ n < 16, c = Nat.digitChar n

theorem IsDigit.ne_hyphen {c : Char} (h : IsDigit c) : c ≠ '-' := by
  obtain ⟨n, hn, rfl⟩ := h
  exact (digitChar_spec n hn).2.1

@[simp] theorem length_hexDigits (count n : Nat) : (hexDigits count n).length = count := by
  induction count generalizing n with
  | zero => rfl
  | succ count ih => simp [hexDigits, ih]

theorem isDigit_of_mem (count n : Nat) {c : Char} (h : c ∈ hexDigits count n) : IsDigit c := by
  induction count generalizing n with
  | zero => cases h
  | succ count ih =>
    rw [hexDigits, List.mem_append, List.mem_singleton] at h
    obtain h | rfl := h
    · exact ih _ h
    · exact ⟨n % 16, Nat.mod_lt _ (by omega), rfl⟩

theorem number?_append (acc : Nat) (xs ys : List Char) :
    number? acc (xs ++ ys) = (number? acc xs).bind fun n => number? n ys := by
  induction xs generalizing acc with
  | nil => rfl
  | cons x xs ih =>
    simp only [List.cons_append, number?]
    cases hexValue? x with
    | none => rfl
    | some d => exact ih _

theorem number?_hexDigits (count n : Nat) (acc : Nat) :
    number? acc (hexDigits count n) = some (16 ^ count * acc + n % 16 ^ count) := by
  induction count generalizing n with
  | zero => simp [hexDigits, number?, Nat.mod_one]
  | succ count ih =>
    have hd : number? (16 ^ count * acc + n / 16 % 16 ^ count) [Nat.digitChar (n % 16)] =
        some (16 * (16 ^ count * acc + n / 16 % 16 ^ count) + n % 16) := by
      simp [number?, (digitChar_spec (n % 16) (Nat.mod_lt _ (by omega))).1]
    have hm : n % 16 ^ (count + 1) = 16 * (n / 16 % 16 ^ count) + n % 16 := by
      rw [pow_succ, Nat.mul_comm (16 ^ count) 16, Nat.mod_mul]
      omega
    rw [hexDigits, number?_append, ih, Option.bind_some, hd, hm, pow_succ]
    congr 1
    ring

theorem ofDigits?_digits (id : SequencerId) : ofDigits? id.digits = some id := by
  have hn : number? 0 id.digits = some id.val := by
    rw [digits, number?_hexDigits]
    simp [Nat.mod_eq_of_lt id.lt]
  rw [ofDigits?, hn, if_pos (by simp [digits])]
  simp [ofNat, Nat.mod_eq_of_lt id.lt]

theorem hyphenate_cons (size next : Nat) (more : List Nat) (ds : List Char) : hyphenate (size :: next :: more) ds =
    ds.take size ++ '-' :: hyphenate (next :: more) (ds.drop size) := rfl

section Groups

variable {xs ys : List Char}

theorem splitGroups_last (h : ∀ c ∈ xs, c ≠ '-') : splitGroups xs = [xs] := by
  induction xs with
  | nil => rfl
  | cons x xs ih =>
    have hx : x ≠ '-' := h x List.mem_cons_self
    rw [splitGroups, ih fun c hc => h c (List.mem_cons_of_mem x hc)]
    simp [hx]

theorem splitGroups_ne_nil (ys : List Char) : splitGroups ys ≠ [] := by
  cases ys with
  | nil => simp [splitGroups]
  | cons y ys =>
    rw [splitGroups]
    split
    · simp
    · split_ifs <;> simp

theorem splitGroups_append (h : ∀ c ∈ xs, c ≠ '-') : splitGroups (xs ++ '-' :: ys) = xs :: splitGroups ys := by
  induction xs with
  | nil =>
    obtain ⟨g, gs, hg⟩ := List.exists_cons_of_ne_nil (splitGroups_ne_nil ys)
    simp [splitGroups, hg]
  | cons x xs ih =>
    have hx : x ≠ '-' := h x List.mem_cons_self
    rw [List.cons_append, splitGroups, ih fun c hc => h c (List.mem_cons_of_mem x hc)]
    simp [hx]

def cut : List Nat → List Char → List (List Char)
  | [], ds => [ds]
  | [size], ds => [ds.take size]
  | size :: more, ds => ds.take size :: cut more (ds.drop size)

theorem splitGroups_hyphenate (sizes : List Nat) {ds : List Char} (h : ∀ c ∈ ds, c ≠ '-') :
    splitGroups (hyphenate sizes ds) = cut sizes ds := by
  induction sizes generalizing ds with
  | nil => exact splitGroups_last h
  | cons size more ih =>
    have htake : ∀ c ∈ ds.take size, c ≠ '-' := fun c hc => h c (List.mem_of_mem_take hc)
    cases more with
    | nil => exact splitGroups_last htake
    | cons next more =>
      have hdrop : ∀ c ∈ ds.drop size, c ≠ '-' := fun c hc => h c (List.mem_of_mem_drop hc)
      rw [hyphenate_cons, splitGroups_append htake, ih hdrop]
      rfl

theorem flatten_cut {sizes : List Nat} {ds : List Char} (h : ds.length ≤ sizes.sum) : (cut sizes ds).flatten = ds := by
  induction sizes generalizing ds with
  | nil => simp [cut]
  | cons size more ih =>
    cases more with
    | nil => simpa [cut] using h
    | cons next more =>
      have hdrop : (ds.drop size).length ≤ (next :: more).sum := by
        rw [List.sum_cons] at h
        rw [List.length_drop]
        omega
      have hcut : cut (size :: next :: more) ds = ds.take size :: cut (next :: more) (ds.drop size) := rfl
      rw [hcut, List.flatten_cons, ih hdrop, List.take_append_drop]

end Groups

theorem mem_hyphenate {sizes : List Nat} {ds : List Char} {c : Char} (h : c ∈ hyphenate sizes ds) :
    c = '-' ∨ c ∈ ds := by
  induction sizes generalizing ds with
  | nil => exact .inr h
  | cons size more ih =>
    cases more with
    | nil => exact .inr (List.mem_of_mem_take h)
    | cons next more =>
      rw [hyphenate_cons, List.mem_append, List.mem_cons] at h
      obtain h | rfl | h := h
      · exact .inr (List.mem_of_mem_take h)
      · exact .inl rfl
      · exact (ih h).imp_right List.mem_of_mem_drop

theorem strayCharacter?_none {cs : List Char} (h : ∀ c ∈ cs, c = '-' ∨ IsDigit c) (index : Nat) :
    strayCharacter? index cs = none := by
  induction cs generalizing index with
  | nil => rfl
  | cons c cs ih =>
    have hc : c = '-' ∨ (hexValue? c).isSome = true := by
      refine (h c List.mem_cons_self).imp_right ?_
      rintro ⟨n, hn, rfl⟩
      rw [(digitChar_spec n hn).1]
      rfl
    rw [strayCharacter?, if_pos hc]
    exact ih (fun d hd => h d (List.mem_cons_of_mem c hd)) _

theorem byteLength_eq_length {cs : List Char} (h : ∀ c ∈ cs, c = '-' ∨ IsDigit c) : byteLength cs = cs.length := by
  induction cs with
  | nil => rfl
  | cons c cs ih =>
    have hc : c.utf8Size = 1 := by
      obtain rfl | ⟨n, hn, rfl⟩ := h c List.mem_cons_self
      · decide
      · exact (digitChar_spec n hn).2.2.2.2
    rw [byteLength, hc, ih fun d hd => h d (List.mem_cons_of_mem c hd), List.length_cons, Nat.add_comm]

/-- The written form is taken as it stands: it begins neither with a brace nor with a scheme. -/
theorem unwrap_chars (id : SequencerId) : unwrap id.chars = .bare id.chars := by
  obtain ⟨d, ds, hds⟩ : ∃ d ds, id.digits = d :: ds := List.exists_cons_of_length_pos (by simp [digits])
  obtain ⟨n, hn, rfl⟩ : IsDigit d := isDigit_of_mem 32 id.val (by rw [← digits, hds]; simp)
  obtain ⟨cs, hcs⟩ : ∃ cs, id.chars = Nat.digitChar n :: cs := ⟨_, by rw [chars, hds]; rfl⟩
  obtain ⟨-, -, hbrace, hscheme, -⟩ := digitChar_spec n hn
  have hurn : ¬ ((Nat.digitChar n :: cs).take 9).map Char.toLower = urnScheme := by
    intro h
    exact hscheme (List.cons.inj h).1
  rw [hcs, unwrap]
  · rw [if_neg hurn]
  · rintro r h
    exact hbrace (List.cons.inj h).1

/-- The identifier that is written is the one that is read. -/
theorem ofText_toText (id : SequencerId) : ofText id.toText = .ok id := by
  have hd : ∀ c ∈ id.digits, IsDigit c := fun c hc => isDigit_of_mem 32 id.val hc
  have hlen : id.digits.length = 32 := by simp [digits]
  have hc : ∀ c ∈ id.chars, c = '-' ∨ IsDigit c := fun c hc => (mem_hyphenate hc).imp_right (hd c)
  have hsize : byteLength id.chars = 36 := by
    rw [byteLength_eq_length hc]
    simp [chars, groups, hyphenate, hlen]
  have hgroups : splitGroups id.chars = cut groups id.digits :=
    splitGroups_hyphenate groups fun c hc => (hd c hc).ne_hyphen
  have hbad : badGroup? 0 groups (cut groups id.digits) = none := by simp [groups, cut, badGroup?, hlen]
  have hflat : (cut groups id.digits).flatten = id.digits := flatten_cut (by simp [hlen, groups])
  have hcount : (cut groups id.digits).length = 5 := rfl
  simp only [ofText, toText, String.toList_ofList, parse, hsize, unwrap_chars, Wrapping.body,
    strayCharacter?_none hc, hgroups]
  rw [if_neg (by decide)]
  split
  · rename_i h
    rw [h] at hcount
    cases hcount
  · simp only [hcount, ne_eq, not_true, if_false, hbad, hflat, ofDigits?_digits]

end SequencerHub.SequencerId
