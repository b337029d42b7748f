import Mathlib.Tactic
import SequencerHub.Json.Reader
import SequencerHub.Json.Printer

/-! Integers are read back from their decimal digits. -/
namespace SequencerHub

theorem toDigits_eq_cons {n : Nat} (hn : n ≠ 0) : ∃ c cs, Nat.toDigits 10 n = c :: cs ∧ c ≠ '0' := by
  induction n using Nat.strong_induction_on with
  | _ n ih =>
    by_cases hlt : n < 10
    · refine ⟨n.digitChar, [], Nat.toDigits_of_lt_base hlt, ?_⟩
      interval_cases n <;> first | exact absurd rfl hn | decide
    · obtain ⟨c, cs, hc, h0⟩ := ih (n / 10) (by omega) (by omega)
      exact ⟨c, cs ++ [(n % 10).digitChar], by rw [Nat.toDigits_of_base_le (by omega) (by omega), hc]; rfl, h0⟩

theorem isDigit_of_mem {n : Nat} {c : Char} (h : c ∈ Nat.toDigits 10 n) : c.isDigit = true :=
  Nat.isDigit_of_mem_toDigits (by omega) (by omega) h

namespace NumberText

def Ends : List Char → Prop
  | [] => True
  | c :: _ => c.isDigit = false ∧ c ≠ '.' ∧ c ≠ 'e' ∧ c ≠ 'E'

variable {rest : List Char}

theorem takeWhile_digits {ds : List Char} (hd : ∀ c ∈ ds, c.isDigit = true) (hr : Ends rest) :
    (ds ++ rest).takeWhile Char.isDigit = ds ∧ (ds ++ rest).dropWhile Char.isDigit = rest := by
  rw [List.takeWhile_append_of_pos hd, List.dropWhile_append_of_pos hd]
  cases rest with
  | nil => simp
  | cons c rest => simp [hr.1]

theorem scanFraction_ends (t : NumberText) (hr : Ends rest) : scanFraction t rest = .ok (t, rest) := by
  cases rest with
  | nil => rfl
  | cons c rest =>
    obtain ⟨-, hdot, he, hE⟩ := hr
    have hexp : scanExponent t (c :: rest) = .ok (t, c :: rest) := by simp [scanExponent, he, hE]
    unfold scanFraction
    split
    · rename_i r heq
      exact absurd (List.cons.inj heq).1 hdot
    · exact hexp

theorem scanDigits_toDigits (negative : Bool) (n : Nat) (hr : Ends rest) :
    scanDigits negative (Nat.toDigits 10 n ++ rest) = .ok (⟨negative, Nat.toDigits 10 n, none, none⟩, rest) := by
  by_cases hn : n = 0
  · have hs : startsWithDigit rest = false := by
      cases rest with
      | nil => rfl
      | cons c rest => exact hr.1
    simp [hn, Nat.toDigits_zero, scanDigits, hs, scanFraction_ends _ hr]
  · obtain ⟨c, cs, hc, h0⟩ := toDigits_eq_cons hn
    have hd : ∀ d ∈ c :: cs, d.isDigit = true := fun d h => isDigit_of_mem (n := n) (hc ▸ h)
    obtain ⟨htake, hdrop⟩ := takeWhile_digits hd hr
    rw [List.cons_append] at htake hdrop
    rw [hc, List.cons_append, scanDigits, if_neg h0, if_pos (hd c List.mem_cons_self), htake, hdrop,
      scanFraction_ends _ hr]

theorem le_ofDigitChars (ds : List Char) (n : Nat) : n ≤ Nat.ofDigitChars 10 ds n := by
  induction ds generalizing n with
  | nil => exact Nat.le_refl n
  | cons d ds ih =>
    rw [Nat.ofDigitChars_cons]
    exact Nat.le_trans (by omega) (ih _)

theorem accumulate_of_le {bound n : Nat} {ds : List Char} (h : Nat.ofDigitChars 10 ds n ≤ bound) :
    accumulate bound n ds = (Nat.ofDigitChars 10 ds n, []) := by
  induction ds generalizing n with
  | nil => rfl
  | cons d ds ih =>
    rw [Nat.ofDigitChars_cons] at h ⊢
    have hd : 10 * n + digitValue d ≤ bound := Nat.le_trans (le_ofDigitChars ds _) h
    rw [accumulate, if_pos hd]
    exact ih h

theorem value_toDigits (i : Whole) : value ⟨decide (i.val < 0), Nat.toDigits 10 i.val.natAbs, none, none⟩ rest =
    .ok (.whole i) := by
  have hfits := i.fits
  have hn : Nat.ofDigitChars 10 (Nat.toDigits 10 i.val.natAbs) 0 = i.val.natAbs :=
    Nat.ofDigitChars_toDigits (by omega) (by omega)
  have ha : accumulate wordBound 0 (Nat.toDigits 10 i.val.natAbs) = (i.val.natAbs, []) := by
    rw [accumulate_of_le (by rw [hn, wordBound]; omega), hn]
  have hi : (if decide (i.val < 0) = true then -(i.val.natAbs : Int) else i.val.natAbs) = i.val := by
    split_ifs with h
    · have := of_decide_eq_true h
      omega
    · have : ¬ i.val < 0 := by simpa using h
      omega
  have hz : ¬ (decide (i.val < 0) = true ∧ i.val.natAbs = 0) := by
    simp only [decide_eq_true_eq]
    omega
  simp only [value, parts, ha, Option.isNone_none, List.length_nil, Nat.cast_zero, and_self, if_true, integer, hi,
    Whole.ofInt?, hfits, dif_pos, if_neg hz]

theorem scan_writeInt (i : Int) (hr : Ends rest) : scan (Json.writeInt i ++ rest) =
    .ok (⟨decide (i < 0), Nat.toDigits 10 i.natAbs, none, none⟩, rest) := by
  rw [Json.writeInt]
  split_ifs with hi
  · rw [List.cons_append, scan, scanDigits_toDigits true _ hr, decide_eq_true hi]
  · rw [decide_eq_false hi, ← scanDigits_toDigits false _ hr]
    unfold scan
    split
    · rename_i r heq
      obtain ⟨c, cs, hc⟩ := List.exists_cons_of_ne_nil (Nat.toDigits_ne_nil (n := i.natAbs) (b := 10))
      have hd : c.isDigit = true := isDigit_of_mem (n := i.natAbs) (by simp [hc])
      rw [hc, List.cons_append] at heq
      rw [(List.cons.inj heq).1] at hd
      cases hd
    · rfl

end NumberText

/-- The digits of an integer are read as that integer, where the numeral ends. -/
theorem JsonText.ofNumber_writeInt (i : Whole) {rest : List Char} (hr : NumberText.Ends rest) :
    ofNumber (Json.writeInt i.val ++ rest) =
      ofScalar (Json.writeInt i.val ++ rest) (.number (.whole i)) rest := by
  rw [ofNumber, NumberText.scan_writeInt _ hr]
  simp only [NumberText.value_toDigits]

end SequencerHub
