import Mathlib.Tactic
import SequencerHub.Files.Path

/-! Paths taken apart at their slashes, and put together again. -/
namespace SequencerHub

namespace Path

section Split

variable {p q base : List Char}

theorem splitSlashes_ne_nil (p : List Char) : splitSlashes p ≠ [] := by
  cases p with
  | nil => simp [splitSlashes]
  | cons c p =>
    rw [splitSlashes]
    split
    · simp
    · split_ifs <;> simp

theorem splitSlashes_append (p q : List Char) :
    splitSlashes (p ++ '/' :: q) = splitSlashes p ++ splitSlashes q := by
  induction p with
  | nil =>
    obtain ⟨part, parts, hq⟩ := List.exists_cons_of_ne_nil (splitSlashes_ne_nil q)
    simp [splitSlashes, hq]
  | cons c p ih =>
    obtain ⟨part, parts, hp⟩ := List.exists_cons_of_ne_nil (splitSlashes_ne_nil p)
    rw [List.cons_append, splitSlashes, splitSlashes, ih, hp, List.cons_append]
    by_cases hc : c = '/' <;> simp [hc]

theorem splitSlashes_last (h : ∀ c ∈ p, c ≠ '/') : splitSlashes p = [p] := by
  induction p with
  | nil => rfl
  | cons c p ih =>
    have hc : c ≠ '/' := h c List.mem_cons_self
    rw [splitSlashes, ih fun d hd => h d (List.mem_cons_of_mem c hd)]
    simp [hc]

theorem splitSlashes_part (h : ∀ c ∈ p, c ≠ '/') (q : List Char) :
    splitSlashes (p ++ '/' :: q) = p :: splitSlashes q := by
  rw [splitSlashes_append, splitSlashes_last h, List.singleton_append]

theorem not_mem_of_mem_splitSlashes {part : List Char} (h : part ∈ splitSlashes p) : '/' ∉ part := by
  induction p generalizing part with
  | nil =>
    obtain rfl := List.mem_singleton.mp h
    exact List.not_mem_nil
  | cons c p ih =>
    obtain ⟨first, parts, hp⟩ := List.exists_cons_of_ne_nil (splitSlashes_ne_nil p)
    rw [hp] at ih
    simp only [splitSlashes, hp] at h
    split_ifs at h with hc
    · rcases List.mem_cons.mp h with rfl | h
      · exact List.not_mem_nil
      · exact ih h
    · rcases List.mem_cons.mp h with rfl | h
      · exact List.not_mem_cons_of_ne_of_not_mem (Ne.symm hc) (ih List.mem_cons_self)
      · exact ih (List.mem_cons_of_mem first h)

theorem intercalate_splitSlashes (p : List Char) : ['/'].intercalate (splitSlashes p) = p := by
  induction p with
  | nil => rfl
  | cons c p ih =>
    obtain ⟨first, parts, hp⟩ := List.exists_cons_of_ne_nil (splitSlashes_ne_nil p)
    rw [hp] at ih
    simp only [splitSlashes, hp]
    split_ifs with hc
    · rw [List.intercalate_cons_cons, ih, hc]
      rfl
    · cases parts with
      | nil => simpa using ih
      | cons next parts =>
        rw [List.intercalate_cons_cons] at ih ⊢
        simpa using ih

theorem steps_append (p q : List Char) : steps (p ++ '/' :: q) = steps p ++ steps q := by
  rw [steps, splitSlashes_append, List.filter_append, steps, steps]

def names (p : List Char) : List (List Char) := (steps p).filter (· != ['.'])

theorem names_append (p q : List Char) : names (p ++ '/' :: q) = names p ++ names q := by
  rw [names, steps_append, List.filter_append, names, names]

/-- The components of an absolute path are the names on the way to it. -/
theorem components_eq_names (h : isAbsolute p = true) : components p = names p := by
  unfold components names
  cases steps p with
  | nil => rfl
  | cons part parts =>
    by_cases hdot : part = ['.']
    · subst hdot
      simp [h]
    · have hother : ∀ more, part :: parts ≠ ['.'] :: more := fun more heq => hdot (List.cons.inj heq).1
      split
      · rename_i more heq
        exact absurd heq (hother more)
      · rfl

theorem exists_of_isAbsolute (h : isAbsolute p = true) : ∃ rest, p = '/' :: rest := by
  cases p with
  | nil => cases h
  | cons c rest =>
    have hc : c = '/' := by simpa [isAbsolute] using h
    exact ⟨rest, by rw [hc]⟩

theorem joinChars_of_isAbsolute (h : isAbsolute p = true) (base : List Char) : joinChars base p = p := by
  rw [joinChars, if_pos h]

theorem isAbsolute_joinChars (base p : List Char) :
    isAbsolute (joinChars base p) = (isAbsolute p || isAbsolute base) := by
  cases hp : isAbsolute p with
  | true => rw [joinChars_of_isAbsolute hp, hp, Bool.true_or]
  | false =>
    rw [joinChars, hp, if_neg Bool.false_ne_true, Bool.false_or]
    cases base with
    | nil => exact hp
    | cons c base =>
      split_ifs <;> rfl

/-- A relative path goes on from where the base leads. -/
theorem names_joinChars (h : isAbsolute p = false) (base : List Char) :
    names (joinChars base p) = names base ++ names p := by
  rw [joinChars, h, if_neg Bool.false_ne_true]
  by_cases hempty : base = []
  · subst hempty
    rfl
  · by_cases hslash : base.getLast? = some '/'
    · have hbase : base = base.dropLast ++ '/' :: [] := (List.dropLast_append_getLast? '/' hslash).symm
      have hnames : names base = names base.dropLast := by
        conv_lhs => rw [hbase, names_append]
        exact List.append_nil _
      have happend : base ++ p = base.dropLast ++ '/' :: p := by
        conv_lhs => rw [hbase]
        simp
      rw [if_pos (by simp [hslash]), happend, names_append, hnames]
    · rw [if_neg (by simp [hempty, hslash]), names_append]

end Split
end Path
end SequencerHub
