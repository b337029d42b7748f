import Mathlib.Data.List.Nodup
import Mathlib.Logic.Function.Basic
import SequencerHub.Provider.Basic

/-! The registry as a map from identifiers to instances, and single accesses to such a map.
Every operation of the registry is one access, so that a registry and an atomic map can be compared step by step. -/
namespace SequencerHub
namespace Registry

theorem find?_nil (id : SequencerId) : Registry.find? [] id = none := rfl

theorem find?_cons (x : SequencerId × Instance) (r : Registry) (id : SequencerId) :
    Registry.find? (x :: r) id = if x.1 = id then some x.2 else r.find? id := by
  by_cases h : x.1 = id <;> simp [Registry.find?, h]

@[simp] theorem mem_erase {r : Registry} {id : SequencerId} {x : SequencerId × Instance} :
    x ∈ r.erase id ↔ x ∈ r ∧ x.1 ≠ id := by
  simp [Registry.erase]

@[simp] theorem mem_insert {r : Registry} {id : SequencerId} {i : Instance} {x : SequencerId × Instance} :
    x ∈ r.insert id i ↔ (x ∈ r ∧ x.1 ≠ id) ∨ x = (id, i) := by
  simp [Registry.insert]

theorem mem_ids {r : Registry} {id : SequencerId} : id ∈ r.ids ↔ ∃ i, (id, i) ∈ r := by
  simp [Registry.ids]

theorem mem_of_find? {r : Registry} {id : SequencerId} {i : Instance} (h : r.find? id = some i) :
    (id, i) ∈ r := by
  obtain ⟨x, hx, rfl⟩ := Option.map_eq_some_iff.mp h
  have he : x.1 = id := by simpa using List.find?_some hx
  subst he
  exact List.mem_of_find?_eq_some hx

theorem find?_eq_none {r : Registry} {id : SequencerId} : r.find? id = none ↔ id ∉ r.ids := by
  rw [mem_ids, not_exists]
  simp only [Registry.find?, Option.map_eq_none_iff, List.find?_eq_none, decide_eq_true_eq, Prod.forall]
  exact ⟨fun h i hi => h id i hi rfl, fun h a b hb he => h b (he ▸ hb)⟩

theorem erase_of_find?_none {r : Registry} {id : SequencerId} (h : r.find? id = none) : r.erase id = r := by
  apply List.filter_eq_self.mpr
  intro x hx
  have hn : x.1 ≠ id := fun he => find?_eq_none.mp h (mem_ids.mpr ⟨x.2, he ▸ hx⟩)
  simpa using hn

theorem insert_of_find?_none {r : Registry} {id : SequencerId} (i : Instance) (h : r.find? id = none) :
    r.insert id i = r ++ [(id, i)] := by
  rw [Registry.insert, erase_of_find?_none h]

theorem find?_erase (r : Registry) (id id' : SequencerId) :
    (r.erase id).find? id' = if id' = id then none else r.find? id' := by
  induction r with
  | nil => simp [Registry.erase, find?_nil]
  | cons x r ih =>
    by_cases hx : x.1 = id
    · have he : Registry.erase (x :: r) id = Registry.erase r id := by simp [Registry.erase, hx]
      rw [he, ih, find?_cons]
      split_ifs <;> simp_all
    · have he : Registry.erase (x :: r) id = x :: Registry.erase r id := by simp [Registry.erase, hx]
      rw [he, find?_cons, ih, find?_cons]
      split_ifs <;> simp_all

theorem find?_append (r r' : Registry) (id : SequencerId) :
    Registry.find? (r ++ r') id = (r.find? id).or (r'.find? id) := by
  induction r with
  | nil => rfl
  | cons x r ih =>
    rw [List.cons_append, find?_cons, find?_cons, ih]
    split_ifs <;> simp

theorem find?_insert (r : Registry) (id id' : SequencerId) (i : Instance) :
    (r.insert id i).find? id' = if id' = id then some i else r.find? id' := by
  rw [Registry.insert, find?_append, find?_erase, find?_cons, find?_nil]
  by_cases h : id' = id
  · simp [h]
  · simp [h, Ne.symm h]

theorem perm_erase {r : Registry} (hr : r.ids.Nodup) {id : SequencerId} {i : Instance}
    (h : r.find? id = some i) : r.Perm ((id, i) :: r.erase id) := by
  induction r with
  | nil => simp [find?_nil] at h
  | cons x r ih =>
    have hn : x.1 ∉ Registry.ids r ∧ (Registry.ids r).Nodup := List.nodup_cons.mp hr
    rw [find?_cons] at h
    split_ifs at h with hx
    · have hi : x = (id, i) := Prod.ext hx (Option.some.inj h)
      subst hi
      have he : Registry.erase ((id, i) :: r) id = Registry.erase r id := by simp [Registry.erase]
      rw [he, erase_of_find?_none (find?_eq_none.mpr hn.1)]
    · have he : Registry.erase (x :: r) id = x :: Registry.erase r id := by simp [Registry.erase, hx]
      rw [he]
      exact ((ih hn.2 h).cons x).trans (List.Perm.swap _ _ _)

end Registry

/-- What a registry is compared with: a map that is accessed in single steps. -/
abbrev AtomicMap := SequencerId → Option Instance

inductive Access
  | insert (id : SequencerId) (i : Instance)
  | lookup (id : SequencerId)
  | remove (id : SequencerId)
  /-- Takes everything out. -/
  | drain

namespace Access

def apply : Access → AtomicMap → AtomicMap
  | insert id i, m => Function.update m id (some i)
  | lookup _, m => m
  | remove id, m => Function.update m id none
  | drain, _ => fun _ => none

def on : Access → Registry → Registry
  | insert id i, r => r.insert id i
  | lookup _, r => r
  | remove id, r => r.erase id
  | drain, _ => []

def takes : Access → Registry → Registry
  | remove id, r => (r.find? id).toList.map (id, ·)
  | drain, r => r
  | _, _ => []

def puts : Access → Registry
  | insert id i => [(id, i)]
  | _ => []

/-- The identifier whose instance an access asks for. -/
def target? : Access → Option SequencerId
  | lookup id => some id
  | remove id => some id
  | _ => none

/-- Whether an access would take out the instance of an identifier. -/
def Removes (id : SequencerId) : Access → Prop
  | remove id' => id' = id
  | drain => True
  | _ => False

/-- Whether an access puts in an instance under an identifier. -/
def Inserts (id : SequencerId) : Access → Prop
  | insert id' _ => id' = id
  | _ => False

instance (id : SequencerId) (a : Access) : Decidable (a.Removes id) := by
  cases a <;> unfold Removes <;> infer_instance

/-- A registry and an atomic map agree on every access. -/
theorem find?_on (a : Access) (r : Registry) : (a.on r).find? = a.apply r.find? := by
  funext id'
  cases a with
  | insert id i => simp [on, apply, Registry.find?_insert, Function.update_apply]
  | lookup id => rfl
  | remove id => simp [on, apply, Registry.find?_erase, Function.update_apply]
  | drain => rfl

theorem apply_ne {a : Access} {id : SequencerId} (hr : ¬ a.Removes id) (hi : ¬ a.Inserts id) (m : AtomicMap) :
    a.apply m id = m id := by
  cases a with
  | insert id' i => exact Function.update_of_ne (fun h => hi h.symm) _ _
  | lookup id' => rfl
  | remove id' => exact Function.update_of_ne (fun h => hr h.symm) _ _
  | drain => exact absurd trivial hr

theorem apply_removes {a : Access} {id : SequencerId} (hr : a.Removes id) (m : AtomicMap) :
    a.apply m id = none := by
  cases a with
  | insert id' i => exact hr.elim
  | lookup id' => exact hr.elim
  | remove id' => cases hr; simp [apply]
  | drain => rfl

theorem takes_leaves {a : Access} {r : Registry} {x : SequencerId × Instance} (h : x ∈ a.takes r) :
    x ∈ r ∧ x.1 ∉ (a.on r).ids := by
  cases a with
  | remove id =>
    obtain ⟨i, hi, rfl⟩ := List.mem_map.mp h
    exact ⟨Registry.mem_of_find? (Option.mem_toList.mp hi), by simp [on, Registry.mem_ids]⟩
  | drain => exact ⟨h, List.not_mem_nil⟩
  | insert id i => exact absurd h List.not_mem_nil
  | lookup id => exact absurd h List.not_mem_nil

/-- An access loses nothing and doubles nothing, unless it inserts under an identifier that is live. -/
theorem takes_on_perm {a : Access} {r : Registry} (hr : r.ids.Nodup)
    (hf : ∀ x ∈ a.puts, r.find? x.1 = none) : (a.takes r ++ a.on r).Perm (r ++ a.puts) := by
  cases a with
  | insert id i =>
    have hn : r.find? id = none := hf (id, i) (by simp [puts])
    simp [takes, on, puts, Registry.insert_of_find?_none i hn]
  | lookup id => simp [takes, on, puts]
  | remove id =>
    cases hi : r.find? id with
    | none => simp [takes, on, puts, hi, Registry.erase_of_find?_none hi]
    | some i => simpa [takes, on, puts, hi] using (Registry.perm_erase hr hi).symm
  | drain => simp [takes, on, puts]

end Access
end SequencerHub
