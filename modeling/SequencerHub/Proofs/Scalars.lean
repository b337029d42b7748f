import SequencerHub.Proofs.Numerals
import SequencerHub.Yaml.Scalar

/-! What unquoted text stands for. Text that stands for text stands for itself, and digits stand for their number. -/
namespace SequencerHub.Yaml

section Words

variable {cs : List Char}

theorem resolve_nil : resolve [] = .null := by
  simp [resolve]

theorem resolve_string {s : String} (h : resolve cs = .string s) : resolve cs = .string (String.ofList cs) := by
  have hs : s = String.ofList cs := by
    unfold resolve at h
    dsimp only at h
    split at h
    · cases h
    split at h
    · cases h
    split at h
    · cases h
    split at h
    · split at h <;> cases h
    split at h
    · cases h; rfl
    split at h <;> cases h
    rfl
  rw [h, hs]

theorem resolve_null : resolve "null".toList = .null := by
  simp [resolve]

end Words

section Digits

variable {c : Char} {cs : List Char}

def countScalar (n : Nat) : Scalar := resolve (Nat.toDigits 10 n)

theorem digitBelow_digit (h : c.isDigit = true) : digitBelow 10 c = some (c.toNat - '0'.toNat) := by
  have hrange : '0' ≤ c ∧ c ≤ '9' := by
    simpa [Char.isDigit, Char.le_def] using h
  have hbelow : c.toNat - 48 < 10 := by
    have hle : c.toNat ≤ 57 := hrange.2
    omega
  rw [digitBelow, if_pos hrange]
  simpa using hbelow

theorem digits?_digits (h : ∀ c ∈ cs, c.isDigit = true) (acc : Nat) :
    digits? 10 acc cs = some (Nat.ofDigitChars 10 cs acc) := by
  induction cs generalizing acc with
  | nil => rfl
  | cons c cs ih =>
    obtain ⟨hc, hcs⟩ := List.forall_mem_cons.mp h
    rw [digits?, digitBelow_digit hc, Nat.ofDigitChars_cons]
    exact ih hcs _

theorem natural?_toDigits (n : Nat) : natural? 10 (Nat.toDigits 10 n) = some n := by
  have hne : (Nat.toDigits 10 n).isEmpty = false := by simp [Nat.toDigits_ne_nil]
  rw [natural?, hne, if_neg (by decide), digits?_digits fun c hc => isDigit_of_mem hc,
    Nat.ofDigitChars_toDigits (by decide) (by decide)]

theorem toDigits_zero_cons {n : Nat} (h : Nat.toDigits 10 n = '0' :: cs) : cs = [] := by
  by_cases hn : n = 0
  · rw [hn, Nat.toDigits_zero] at h
    exact (List.cons.inj h).2.symm
  · obtain ⟨c, cs, hc, h0⟩ := toDigits_eq_cons hn
    exact absurd (List.cons.inj (hc.symm.trans h)).1 h0

/-- How the digits of a number begin. -/
theorem exists_toDigits (n : Nat) :
    ∃ c cs, Nat.toDigits 10 n = c :: cs ∧ c.isDigit = true ∧ (c = '0' → cs = []) := by
  obtain ⟨c, cs, hc⟩ := List.exists_cons_of_ne_nil (Nat.toDigits_ne_nil (n := n) (b := 10))
  refine ⟨c, cs, hc, isDigit_of_mem (n := n) (hc ▸ List.mem_cons_self), ?_⟩
  rintro rfl
  exact toDigits_zero_cons hc

theorem ne_sign_of_isDigit (hc : c.isDigit = true) : c ≠ '+' ∧ c ≠ '-' := by
  constructor <;>
  · rintro rfl
    exact absurd hc (by decide)

theorem isPadded_toDigits (n : Nat) : isPadded (Nat.toDigits 10 n) = false := by
  obtain ⟨c, cs, hcs, hc, hzero⟩ := exists_toDigits n
  obtain ⟨hplus, hminus⟩ := ne_sign_of_isDigit hc
  rw [hcs]
  by_cases h0 : c = '0'
  · obtain rfl := hzero h0
    subst h0
    rfl
  · simp [isPadded, hplus, hminus, h0]

theorem magnitude?_toDigits (n : Nat) : magnitude? (Nat.toDigits 10 n) = some n := by
  have hplain : magnitude? (Nat.toDigits 10 n) =
      if isPadded (Nat.toDigits 10 n) then none else natural? 10 (Nat.toDigits 10 n) := by
    unfold magnitude?
    split
    all_goals first
      | rfl
      | rename_i h
        exact absurd (toDigits_zero_cons h) (List.cons_ne_nil _ _)
  rw [hplain, isPadded_toDigits, if_neg (by decide), natural?_toDigits]

theorem integer?_toDigits (n : Nat) : integer? (Nat.toDigits 10 n) = some (n : Int) := by
  obtain ⟨c, cs, hcs, hc, -⟩ := exists_toDigits n
  have hmagnitude := magnitude?_toDigits n
  obtain ⟨hplus, hminus⟩ := ne_sign_of_isDigit hc
  rw [hcs] at hmagnitude ⊢
  simp [integer?, hplus, hminus, hmagnitude]

/-- No word for nothing or a truth value starts with a digit. -/
theorem ofList_ne_word (hc : c.isDigit = true) {w : String} (hw : w.toList.head?.any Char.isDigit = false) :
    String.ofList (c :: cs) ≠ w := by
  rintro rfl
  rw [String.toList_ofList, List.head?_cons, Option.any_some, hc] at hw
  cases hw

theorem resolve_integer {i : Int} (hc : c.isDigit = true) (hi : (integer? (c :: cs)).filter isBounded = some i) :
    resolve (c :: cs) = (Whole.ofInt? i).elim (.wide i) (.number ∘ .whole) := by
  unfold resolve
  simp (disch := decide) only [List.mem_cons, ofList_ne_word hc, List.not_mem_nil, or_self, if_false, hi]
  cases Whole.ofInt? i <;> rfl

theorem countScalar_of_lt {n : Nat} (h : n < 2 ^ 64) : countScalar n = .number (.whole ⟨n, by omega⟩) := by
  have hfits : (-0x8000000000000000 : Int) ≤ n ∧ (n : Int) < 0x10000000000000000 := by omega
  have hwhole : Whole.ofInt? n = some ⟨n, hfits⟩ := dif_pos hfits
  have hbounded : isBounded n = true := by
    rw [isBounded, Bool.and_eq_true, decide_eq_true_eq, decide_eq_true_eq]
    omega
  have hi : (integer? (Nat.toDigits 10 n)).filter isBounded = some (n : Int) := by
    rw [integer?_toDigits, Option.filter_some_pos hbounded]
  obtain ⟨c, cs, hcs, hc, -⟩ := exists_toDigits n
  rw [hcs] at hi
  rw [countScalar, hcs, resolve_integer hc hi, hwhole]
  rfl

theorem countScalar_ne_null (n : Nat) : countScalar n ≠ .null := by
  obtain ⟨c, cs, hcs, hc, -⟩ := exists_toDigits n
  rw [countScalar, hcs, resolve]
  simp (disch := decide) only [List.mem_cons, ofList_ne_word hc, List.not_mem_nil, or_self, if_false]
  cases (integer? (c :: cs)).filter isBounded with
  | some i =>
    dsimp only
    cases Whole.ofInt? i <;> nofun
  | none =>
    dsimp only
    split_ifs
    · nofun
    · cases float (c :: cs) <;> nofun

end Digits

end SequencerHub.Yaml
