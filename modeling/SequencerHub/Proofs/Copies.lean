import SequencerHub.Proofs.Registrations

/-! Tables of backend types that are filled and copied in any order. What a table knows is told by its own history,
which began in another table if it is a copy. From the copying on both go their own ways. -/
namespace SequencerHub

abbrev Factories := Nat → Factory

namespace Factories

open Factory (Knows ofRegistrations)

inductive Move
  | renew (place : Nat)
  | register (place : Nat) (name : String) (c : Constructors)
  | copy (source target : Nat)

def step (fs : Factories) : Move → Factories
  | .renew place => Function.update fs place {}
  | .register place name c => Function.update fs place ((fs place).register name c)
  | .copy source target => Function.update fs target (fs source)

def steps (fs : Factories) (ms : List Move) : Factories := ms.foldl step fs

def bare : Factories := fun _ => {}

namespace Move

def place : Move → Nat
  | renew place | register place .. | copy _ place => place

def registered? (here : Nat) : Move → Option (String × Constructors)
  | register place name c => if place = here then some (name, c) else none
  | _ => none

def Replaces (here : Nat) : Move → Prop
  | renew place | copy _ place => place = here
  | register .. => False

variable {m : Move} {here : Nat}

theorem Replaces.place (h : m.Replaces here) : m.place = here := by
  cases m with
  | renew fresh => exact h
  | register other name c => exact h.elim
  | copy source target => exact h

theorem registered?_of_ne (h : m.place ≠ here) : m.registered? here = none := by
  cases m with
  | register other name c => exact if_neg h
  | _ => rfl

end Move

/-- The registrations in the history of the table at a place, the oldest one first. Moves are given from the last one
back, and the table is followed to the place that it came from. -/
def followBack : List Move → Nat → List (String × Constructors)
  | [], _ => []
  | .renew fresh :: before, place => if fresh = place then [] else followBack before place
  | .register other name c :: before, place =>
    if other = place then followBack before place ++ [(name, c)] else followBack before place
  | .copy source target :: before, place => followBack before (if target = place then source else place)

/-- The registrations in the history of the table that stands at a place in the end. -/
def past (ms : List Move) (place : Nat) : List (String × Constructors) := followBack ms.reverse place

section Histories

variable {ms later : List Move} {m : Move} {place source target : Nat}

theorem steps_concat (fs : Factories) (ms : List Move) (m : Move) : fs.steps (ms ++ [m]) = (fs.steps ms).step m :=
  List.foldl_concat ..

theorem steps_append (fs : Factories) (ms later : List Move) : fs.steps (ms ++ later) = (fs.steps ms).steps later :=
  List.foldl_append

theorem past_copy (ms : List Move) (source target : Nat) :
    past (ms ++ [.copy source target]) target = past ms source := by
  rw [past, List.reverse_concat, followBack, if_pos rfl, past]

/-- As long as a table is not replaced, its history grows by what is registered at its place. -/
theorem past_concat (h : ¬ m.Replaces place) :
    past (ms ++ [m]) place = past ms place ++ (m.registered? place).toList := by
  rw [past, List.reverse_concat]
  cases m with
  | renew fresh => simp [followBack, past, Move.registered?, if_neg (show ¬ fresh = place from h)]
  | register other name c =>
    by_cases heq : other = place <;> simp [followBack, past, Move.registered?, heq]
  | copy source target => simp [followBack, past, Move.registered?, if_neg (show ¬ target = place from h)]

theorem past_append (h : ∀ m ∈ later, ¬ m.Replaces place) :
    past (ms ++ later) place = past ms place ++ later.filterMap (·.registered? place) := by
  induction later using List.reverseRecOn with
  | nil => simp
  | append_singleton later m ih =>
    obtain ⟨hlater, hm⟩ := List.forall_mem_append.mp h
    rw [← List.append_assoc, past_concat (hm m List.mem_cons_self), ih hlater]
    cases hentry : m.registered? place <;> simp [hentry]

theorem past_source (hne : source ≠ target) (h : ∀ m ∈ later, ¬ m.Replaces source) :
    past (ms ++ .copy source target :: later) source = past ms source ++ later.filterMap (·.registered? source) := by
  have hcopy : ¬ (Move.copy source target).Replaces source := Ne.symm hne
  rw [past_append (List.forall_mem_cons.mpr ⟨hcopy, h⟩)]
  rfl

/-- A copy has its history before the copying from where it was copied. -/
theorem past_target (h : ∀ m ∈ later, ¬ m.Replaces target) :
    past (ms ++ .copy source target :: later) target = past ms source ++ later.filterMap (·.registered? target) := by
  rw [List.append_cons, past_append h, past_copy]

theorem step_of_ne (fs : Factories) (h : m.place ≠ place) : fs.step m place = fs place := by
  cases m <;> exact Function.update_of_ne (Ne.symm h) ..

theorem steps_of_ne (fs : Factories) (h : ∀ m ∈ later, m.place ≠ place) : fs.steps later place = fs place :=
  List.foldlRecOn (motive := fun fs' => fs' place = fs place) later step rfl
    fun fs' hfs m hm => (fs'.step_of_ne (h m hm)).trans hfs

/-- A table is what its history makes of an empty one. -/
theorem steps_bare (ms : List Move) (place : Nat) : bare.steps ms place = ofRegistrations (past ms place) := by
  induction ms using List.reverseRecOn generalizing place with
  | nil => rfl
  | append_singleton ms m ih =>
    rw [steps_concat]
    by_cases h : m.place = place
    · subst h
      cases m with
      | renew fresh => simp [step, past, followBack, Move.place, ofRegistrations]
      | register other name c =>
        rw [past_concat id, step]
        simp [Move.place, Move.registered?, ih, Factory.ofRegistrations_concat]
      | copy source target =>
        rw [Move.place, past_copy, ← ih, step, Function.update_self]
    · rw [step_of_ne _ h, ih, past_concat (fun hr => h hr.place), Move.registered?_of_ne h, Option.toList_none,
        List.append_nil]

end Histories

/-- What it means that tables have kept to their histories, and go their own ways from there. -/
structure KeepHistories (ms : List Move) : Prop where
  knows : ∀ place, (bare.steps ms place).Knows (past ms place)
  /-- A table is the same as long as nothing happens at its own place. -/
  untouched : ∀ place later, (∀ m ∈ later, m.place ≠ place) → bare.steps (ms ++ later) place = bare.steps ms place
  copied : ∀ source target, bare.steps (ms ++ [.copy source target]) target = bare.steps ms source
  /-- A table and its copy have in common what was registered before, and nothing that is registered later. -/
  apart : ∀ source target later, source ≠ target → (∀ m ∈ later, ¬ m.Replaces source ∧ ¬ m.Replaces target) →
    (bare.steps (ms ++ .copy source target :: later) source).Knows
        (past ms source ++ later.filterMap (·.registered? source)) ∧
      (bare.steps (ms ++ .copy source target :: later) target).Knows
        (past ms source ++ later.filterMap (·.registered? target))

theorem knows_past (ms : List Move) (place : Nat) : (bare.steps ms place).Knows (past ms place) := by
  rw [steps_bare]
  exact Factory.knows_ofRegistrations _

/-- Whatever is registered and copied, in any order, every table has each type as it was registered last in the table's
own history. -/
theorem last_registration_wins (ms : List Move) : KeepHistories ms := by
  refine ⟨knows_past ms, fun place later h => ?_, fun source target => ?_, fun source target later hne h => ⟨?_, ?_⟩⟩
  · rw [steps_append, steps_of_ne _ h]
  · rw [steps_bare, steps_bare, past_copy]
  · rw [← past_source hne fun m hm => (h m hm).1]
    exact knows_past _ source
  · rw [← past_target fun m hm => (h m hm).2]
    exact knows_past _ target

end Factories
end SequencerHub
