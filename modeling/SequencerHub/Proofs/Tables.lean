import Mathlib.Tactic
import SequencerHub.Config.Layered
import SequencerHub.Host.Basic

/-! Tables whose entries stand in the order of their keys, and what becomes of them when an entry is put in: the members
of objects and of settings, the types of backends, and the providers of hosts. -/
namespace SequencerHub

section Order

variable {α κ : Type} [LT κ] [DecidableLT κ] [DecidableEq κ]

/-- What it means that a function puts an entry at its place, instead of an entry with the same key if there is one. -/
structure PutsInOrder (key : α → κ) (entry : α) (put : List α → List α) : Prop where
  nil : put [] = [entry]
  cons : ∀ first more, put (first :: more) =
    if key entry < key first then entry :: first :: more
    else if key entry = key first then entry :: more
    else first :: put more

namespace PutsInOrder

variable {key : α → κ} {entry : α} {put : List α → List α}

theorem mem (h : PutsInOrder key entry put) {x : α} {entries : List α} (hx : x ∈ put entries) :
    x = entry ∨ x ∈ entries := by
  induction entries with
  | nil =>
    rw [h.nil] at hx
    exact .inl (List.mem_singleton.mp hx)
  | cons first more ih =>
    rw [h.cons] at hx
    split_ifs at hx
    · exact List.mem_cons.mp hx
    · exact (List.mem_cons.mp hx).imp_right (List.mem_cons_of_mem first)
    · rcases List.mem_cons.mp hx with rfl | hx
      · exact .inr List.mem_cons_self
      · exact (ih hx).imp_right (List.mem_cons_of_mem first)

theorem find? (h : PutsInOrder key entry put) (entries : List α) (k : κ) :
    (put entries).find? (key · = k) = if key entry = k then some entry else entries.find? (key · = k) := by
  induction entries with
  | nil =>
    rw [h.nil]
    by_cases hk : key entry = k <;> simp [hk]
  | cons first more ih =>
    rw [h.cons]
    by_cases hlt : key entry < key first
    · rw [if_pos hlt]
      by_cases hk : key entry = k <;> simp [hk]
    · by_cases heq : key entry = key first
      · rw [if_neg hlt, if_pos heq]
        by_cases hk : key first = k <;> simp [heq, hk]
      · rw [if_neg hlt, if_neg heq]
        by_cases hfirst : key first = k
        · have hk : key entry ≠ k := fun hk => heq (hk.trans hfirst.symm)
          simp [hfirst, hk]
        · simpa [hfirst] using ih

theorem pairwise [LE κ] [Std.IsLinearOrder κ] [Std.LawfulOrderLT κ] (h : PutsInOrder key entry put) {entries : List α}
    (hentries : entries.Pairwise (key · < key ·)) : (put entries).Pairwise (key · < key ·) := by
  induction entries with
  | nil =>
    rw [h.nil]
    exact List.pairwise_singleton _ _
  | cons first more ih =>
    obtain ⟨hfirst, hmore⟩ := List.pairwise_cons.mp hentries
    rw [h.cons]
    split_ifs with hlt heq
    · refine List.pairwise_cons.mpr ⟨fun x hx => ?_, hentries⟩
      rcases List.mem_cons.mp hx with rfl | hx
      · exact hlt
      · exact Std.lt_trans hlt (hfirst x hx)
    · exact List.pairwise_cons.mpr ⟨fun x hx => heq ▸ hfirst x hx, hmore⟩
    · refine List.pairwise_cons.mpr ⟨fun x hx => ?_, ih hmore⟩
      rcases h.mem hx with rfl | hx
      · exact Std.lt_of_le_of_ne (Std.not_lt.mp hlt) (Ne.symm heq)
      · exact hfirst x hx

theorem perm (h : PutsInOrder key entry put) {entries : List α} (hnew : key entry ∉ entries.map key) :
    (put entries).Perm (entry :: entries) := by
  induction entries with
  | nil =>
    rw [h.nil]
  | cons first more ih =>
    obtain ⟨hne, hmore⟩ := List.ne_and_not_mem_of_not_mem_cons hnew
    rw [h.cons, if_neg hne]
    split_ifs
    · exact List.Perm.refl _
    · exact ((ih hmore).cons first).trans (List.Perm.swap _ _ _)

end PutsInOrder

end Order

theorem Json.insertMember_putsInOrder (key : String) (value : Json) :
    PutsInOrder Prod.fst (key, value) (insertMember key value) := ⟨rfl, fun _ _ => rfl⟩

theorem Setting.put_putsInOrder (key : String) (v : Setting) : PutsInOrder Prod.fst (key, v) (put key v) :=
  ⟨rfl, fun _ _ => rfl⟩

theorem Factory.insert_putsInOrder (name : String) (c : Constructors) :
    PutsInOrder Prod.fst (name, c) (insert name c) := ⟨rfl, fun _ _ => rfl⟩

theorem Host.insert_putsInOrder (p : Provider) : PutsInOrder Provider.id p (insert p) := ⟨rfl, fun _ _ => rfl⟩

end SequencerHub
