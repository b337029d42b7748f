import SequencerHub.Proofs.Requests
import SequencerHub.Provider.Teardown

/-! What a teardown does to the ledger, step by step. The instances that it owes a destruction are called in turn; only
a panic lets go of those that have not had their turn. -/
namespace SequencerHub

/-- The second ledger comes from the first when the given instances are destroyed in turn. -/
structure Ledger.Destroys (l : Ledger) (done : List Instance) (l' : Ledger) : Prop where
  supply : l'.supply = l.supply
  minted : l'.minted = l.minted
  built : l'.built = l.built
  calls : l'.calls = l.calls ++ done.map fun i => (i.serial, .destroy)

namespace Ledger

theorem SameBooks.destroys {l l' : Ledger} (h : l.SameBooks l') : l.Destroys [] l' :=
  ⟨h.supply, h.minted, h.built, by simp [h.calls]⟩

theorem destroys_called (l : Ledger) (i : Instance) : l.Destroys [i] (l.called i.serial .destroy) :=
  ⟨rfl, rfl, rfl, rfl⟩

theorem Destroys.trans {l l' l'' : Ledger} {done done' : List Instance} (h : l.Destroys done l')
    (h' : l'.Destroys done' l'') : l.Destroys (done ++ done') l'' :=
  ⟨h'.supply.trans h.supply, h'.minted.trans h.minted, h'.built.trans h.built, by
    rw [h'.calls, h.calls, List.map_append, List.append_assoc]⟩

end Ledger

/-- Nothing that has been called is taken back. -/
structure Ledger.Grows (l l' : Ledger) : Prop where
  built : l.built.length ≤ l'.built.length
  calls : l.calls <+: l'.calls

namespace Ledger

theorem Grows.refl (l : Ledger) : l.Grows l := ⟨Nat.le_refl _, List.prefix_refl _⟩

theorem Grows.trans {l l' l'' : Ledger} (h : l.Grows l') (h' : l'.Grows l'') : l.Grows l'' :=
  ⟨Nat.le_trans h.built h'.built, h.calls.trans h'.calls⟩

theorem SameBooks.grows {l l' : Ledger} (h : l.SameBooks l') : l.Grows l' :=
  ⟨Nat.le_of_eq (by rw [h.built]), h.calls ▸ List.prefix_refl _⟩

theorem Destroys.grows {l l' : Ledger} {done : List Instance} (h : l.Destroys done l') : l.Grows l' :=
  ⟨Nat.le_of_eq (by rw [h.built]), h.calls ▸ List.prefix_append _ _⟩

theorem grows_called (l : Ledger) (serial : Nat) (c : Call) : l.Grows (l.called serial c) :=
  ⟨Nat.le_refl _, List.prefix_append _ _⟩

end Ledger

theorem Provider.Served.grows {p : Provider} {r : Request} {l : Ledger} {out : Provider × Work × Ledger}
    (h : Served p r l out) : l.Grows out.2.2 :=
  ⟨Nat.le_trans (Nat.le_add_right _ _) h.built, h.calls ▸ List.prefix_append _ _⟩

/-- The instances that a teardown of the provider would destroy. -/
def Provider.doomed (p : Provider) : List Instance :=
  match p.options.teardown with
  | .destroy => p.live.map (·.2)
  | .detach => []

namespace Teardown
namespace Progress

/-- The instances that still wait for their turn. -/
def left : Progress → List Instance
  | waiting _ _ _ instances => instances.map (·.2)
  | _ => []

def IsPanicked : Progress → Prop
  | panicked _ => True
  | _ => False

end Progress

/-- The instances that still wait for their turn, those of the providers behind included. -/
def pending : Teardown → List Instance
  | waiting _ _ _ _ instances providers => instances.map (·.2) ++ providers.flatMap Provider.doomed
  | _ => []

def IsPanicked : Teardown → Prop
  | panicked _ => True
  | _ => False

def IsFinished : Teardown → Prop
  | finished => True
  | _ => False

instance (t : Teardown) : Decidable t.IsFinished := by
  unfold IsFinished
  split <;> infer_instance

instance (t : Teardown) : Decidable t.IsPanicked := by
  unfold IsPanicked
  split <;> infer_instance

/-- A call that has begun waits on, ends with an answer, or panics. -/
theorem runCall_cases (opened : Gates) (providerId : UInt16) (id : SequencerId) (acts : List Act)
    (outcome : Outcome Bool) (instances : Registry) (l : Ledger) :
    ∃ l', l.SameBooks l' ∧
      ((∃ acts', runCall opened providerId id acts outcome instances l =
          (.waiting id acts' outcome instances, l')) ∨
        ((∀ q, outcome ≠ .panicked q) ∧
          runCall opened providerId id acts outcome instances l = (.finished, l')) ∨
        ∃ q, outcome = .panicked q ∧
          runCall opened providerId id acts outcome instances l = (.panicked q, l')) := by
  have hb := sameBooks_runActs opened acts l
  unfold runCall
  split
  · rename_i l₁ heq
    rw [heq] at hb
    refine ⟨_, hb.trans (l₁.sameBooks_loggedAll (events providerId id outcome)), .inr ?_⟩
    cases outcome with
    | ok b => exact .inl ⟨nofun, rfl⟩
    | failed e => exact .inl ⟨nofun, rfl⟩
    | panicked q => exact .inr ⟨q, rfl, rfl⟩
  · rename_i acts' l₁ _ heq
    rw [heq] at hb
    exact ⟨l₁, hb, .inl ⟨acts', rfl⟩⟩

theorem runCall_grows (opened : Gates) (providerId : UInt16) (id : SequencerId) (acts : List Act)
    (outcome : Outcome Bool) (instances : Registry) (l : Ledger) :
    l.Grows (runCall opened providerId id acts outcome instances l).2 := by
  obtain ⟨l', hb, ⟨acts', hr⟩ | ⟨-, hr⟩ | ⟨q, -, hr⟩⟩ := runCall_cases opened providerId id acts outcome instances l
  all_goals exact hr ▸ hb.grows

/-- A teardown that owes the destruction of some instances: what it has done, what it still owes, and what it
lets go of in a panic. -/
structure Discharges (owed : List Instance) (l : Ledger) (left : List Instance) (stopped : Prop) (l' : Ledger) :
    Prop where
  intro ::
  exists_done : ∃ done lost, l.Destroys done l' ∧ owed = done ++ (left ++ lost) ∧ (lost = [] ∨ stopped)

theorem Discharges.grows {owed left : List Instance} {l l' : Ledger} {stopped : Prop}
    (h : Discharges owed l left stopped l') : l.Grows l' := by
  obtain ⟨done, lost, hd, -, -⟩ := h
  exact hd.grows

theorem destroyAll_discharges (opened : Gates) (providerId : UInt16) (r : Registry) (l : Ledger) :
    Discharges (r.map (·.2)) l (destroyAll opened providerId r l).1.left
      (destroyAll opened providerId r l).1.IsPanicked (destroyAll opened providerId r l).2 := by
  induction r generalizing l with
  | nil => exact ⟨[], [], (Ledger.SameBooks.refl l).destroys, rfl, .inl rfl⟩
  | cons x more ih =>
    obtain ⟨id, i⟩ := x
    have hd := l.destroys_called i
    obtain ⟨l', hb, ⟨acts', hr⟩ | ⟨-, hr⟩ | ⟨q, -, hr⟩⟩ :=
      runCall_cases opened providerId id (i.backend.destroy (l.history i.serial)).acts
        (i.backend.destroy (l.history i.serial)).outcome more (l.called i.serial .destroy)
    · simp only [destroyAll, hr]
      exact ⟨[i], [], hd.trans hb.destroys, by simp [Progress.left], .inl rfl⟩
    · simp only [destroyAll, hr]
      obtain ⟨done, lost, hl, ho, hs⟩ := ih l'
      refine ⟨[i] ++ done, lost, ?_, by simp [ho], hs⟩
      simpa using (hd.trans hb.destroys).trans hl
    · simp only [destroyAll, hr]
      exact ⟨[i], more.map (·.2), hd.trans hb.destroys, by simp [Progress.left], .inr trivial⟩

theorem dismiss_discharges (opened : Gates) (p : Provider) (l : Ledger) :
    Discharges p.doomed l (dismiss opened p.options p.live l).1.left
      (dismiss opened p.options p.live l).1.IsPanicked (dismiss opened p.options p.live l).2 := by
  unfold dismiss Provider.doomed
  cases p.options.teardown with
  | destroy => exact destroyAll_discharges opened p.options.providerId p.live l
  | detach =>
    refine ⟨[], [], Ledger.SameBooks.destroys ?_, rfl, .inl rfl⟩
    dsimp only
    split
    · exact .refl l
    · exact l.sameBooks_logged _

theorem ofProgress_cases (providerId : UInt16) (providers : List Provider) (progress : Progress) :
    (ofProgress providerId providers progress = none ∧ progress.left = [] ∧ ¬ progress.IsPanicked) ∨
      ∃ t, ofProgress providerId providers progress = some t ∧
        ((¬ t.IsPanicked ∧ ¬ progress.IsPanicked ∧
            t.pending = progress.left ++ providers.flatMap Provider.doomed) ∨
          (t.IsPanicked ∧ t.pending = [] ∧ progress.left = [])) := by
  cases progress with
  | finished => exact .inl ⟨rfl, rfl, not_false⟩
  | panicked q => exact .inr ⟨.panicked q, rfl, .inr ⟨trivial, rfl, rfl⟩⟩
  | waiting id acts outcome instances =>
    exact .inr ⟨_, rfl, .inl ⟨not_false, not_false, rfl⟩⟩

/-- One provider is dealt with as its progress says, and then the others, if the progress lets them. -/
theorem Discharges.follow {owed : List Instance} {l l' : Ledger} {progress : Progress} {providerId : UInt16}
    {providers : List Provider} {rest : Teardown × Ledger}
    (h : Discharges owed l progress.left progress.IsPanicked l')
    (hr : Discharges (providers.flatMap Provider.doomed) l' rest.1.pending rest.1.IsPanicked rest.2)
    {out : Teardown × Ledger}
    (ho : out = match ofProgress providerId providers progress with
      | none => rest
      | some t => (t, l')) :
    Discharges (owed ++ providers.flatMap Provider.doomed) l out.1.pending out.1.IsPanicked out.2 := by
  obtain ⟨done, lost, hd, he, hl⟩ := h
  obtain ⟨hn, hleft, hp⟩ | ⟨t, ht, ⟨htp, hpp, hpend⟩ | ⟨htp, hpend, hleft⟩⟩ :=
    ofProgress_cases providerId providers progress
  · obtain ⟨done', lost', hd', he', hl'⟩ := hr
    simp only [hn] at ho
    subst ho
    have hlost : lost = [] := hl.resolve_right hp
    refine ⟨done ++ done', lost', hd.trans hd', ?_, hl'⟩
    rw [he, he', hleft, hlost]
    simp
  · simp only [ht] at ho
    subst ho
    refine ⟨done, [], hd, ?_, .inl rfl⟩
    rw [he, hpend, hl.resolve_right hpp]
    simp
  · simp only [ht] at ho
    subst ho
    refine ⟨done, lost ++ providers.flatMap Provider.doomed, hd, ?_, .inr htp⟩
    rw [he, hpend, hleft]
    simp

theorem all_discharges (opened : Gates) (providers : List Provider) (l : Ledger) :
    Discharges (providers.flatMap Provider.doomed) l (all opened providers l).1.pending
      (all opened providers l).1.IsPanicked (all opened providers l).2 := by
  induction providers generalizing l with
  | nil => exact ⟨[], [], (Ledger.SameBooks.refl l).destroys, rfl, .inl rfl⟩
  | cons p more ih =>
    obtain ⟨done, lost, hd, he, hl⟩ := dismiss_discharges opened p (l.logged (.tearingDown p.id))
    have hp : Discharges p.doomed l (dismiss opened p.options p.live (l.logged (.tearingDown p.id))).1.left
        (dismiss opened p.options p.live (l.logged (.tearingDown p.id))).1.IsPanicked
        (dismiss opened p.options p.live (l.logged (.tearingDown p.id))).2 :=
      ⟨done, lost, by simpa using (l.sameBooks_logged _).destroys.trans hd, he, hl⟩
    exact hp.follow (ih _) rfl

/-- A teardown that goes on destroys instances that it owes, and forgets none unless it panics. -/
theorem resume_discharges (opened : Gates) (t : Teardown) (l : Ledger) :
    Discharges t.pending l (t.resume opened l).1.pending (t.resume opened l).1.IsPanicked (t.resume opened l).2 := by
  cases t with
  | finished => exact ⟨[], [], (Ledger.SameBooks.refl l).destroys, rfl, .inl rfl⟩
  | panicked q => exact ⟨[], [], (Ledger.SameBooks.refl l).destroys, rfl, .inl rfl⟩
  | waiting providerId id acts outcome instances providers =>
    obtain ⟨l', hb, ⟨acts', hr⟩ | ⟨-, hr⟩ | ⟨q, -, hr⟩⟩ :=
      runCall_cases opened providerId id acts outcome instances l
    · simp only [resume, hr]
      exact ⟨[], [], hb.destroys, by simp [pending, ofProgress], .inl rfl⟩
    · obtain ⟨done, lost, hd, he, hl⟩ := destroyAll_discharges opened providerId instances l'
      have hp : Discharges (instances.map (·.2)) l (destroyAll opened providerId instances l').1.left
          (destroyAll opened providerId instances l').1.IsPanicked (destroyAll opened providerId instances l').2 :=
        ⟨done, lost, by simpa using hb.destroys.trans hd, he, hl⟩
      simp only [resume, hr]
      exact hp.follow (all_discharges opened providers _) rfl
    · simp only [resume, hr]
      exact ⟨[], pending (.waiting providerId id acts outcome instances providers), hb.destroys,
        by simp [pending, ofProgress], .inr trivial⟩

theorem tearDown_discharges (opened : Gates) (p : Provider) (l : Ledger) :
    Discharges p.doomed l (p.tearDown opened l).2.1.pending (p.tearDown opened l).2.1.IsPanicked
      (p.tearDown opened l).2.2 := by
  have ho : (p.tearDown opened l).2 = match ofProgress p.id [] (dismiss opened p.options p.live l).1 with
      | none => all opened [] (dismiss opened p.options p.live l).2
      | some t => (t, (dismiss opened p.options p.live l).2) := by
    simp only [Provider.tearDown]
    cases ofProgress p.id [] (dismiss opened p.options p.live l).1 <;> rfl
  simpa using (dismiss_discharges opened p l).follow (all_discharges opened [] _) ho

theorem resume_isPanicked {t : Teardown} (h : t.IsPanicked) (opened : Gates) (l : Ledger) :
    (t.resume opened l).1.IsPanicked := by
  cases t with
  | panicked q => exact trivial
  | finished => exact h.elim
  | waiting => exact h.elim

end Teardown
end SequencerHub
