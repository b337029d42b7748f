import SequencerHub.Backend.Scripted
import SequencerHub.Proofs.Teardown

/-! Requests and teardowns at work at one provider at the same time. Each goes on alone up to where a backend call
waits, and then any of them may be next. -/
namespace SequencerHub

/-- A provider and all that has begun at it, in the order in which it began. -/
structure Traffic where
  provider : Provider
  ledger : Ledger
  requests : List (Request × Work) := []
  teardowns : List Teardown := []

/-- What happens next: a request or a teardown begins, or one that has begun goes on. -/
inductive Move
  | request (r : Request)
  | resume (n : Nat) (opened : Gates)
  | tearDown (opened : Gates)
  | resumeTeardown (n : Nat) (opened : Gates)

namespace Traffic

def fresh (options : ProviderOptions) (factory : Factory) (supply : Nat → SequencerId) : Traffic where
  provider := { options, factory }
  ledger := { supply }

def trials : Traffic :=
  fresh { teardown := .destroy } (Factory.register {} "scripted" (Scripted.constructors "scripted")) SequencerId.ofNat

def step (s : Traffic) : Move → Traffic
  | .request r =>
    let served := s.provider.handle r s.ledger
    { s with provider := served.1, ledger := served.2.2, requests := s.requests ++ [(r, served.2.1)] }
  | .resume n opened =>
    match s.requests[n]? with
    | none => s
    | some (r, w) =>
      let resumed := w.resume opened s.provider.id s.ledger
      { s with ledger := resumed.2, requests := s.requests.set n (r, resumed.1) }
  | .tearDown opened =>
    let begun := s.provider.tearDown opened s.ledger
    { s with provider := begun.1, ledger := begun.2.2, teardowns := s.teardowns ++ [begun.2.1] }
  | .resumeTeardown n opened =>
    match s.teardowns[n]? with
    | none => s
    | some t =>
      let resumed := t.resume opened s.ledger
      { s with ledger := resumed.2, teardowns := s.teardowns.set n resumed.1 }

def run (s : Traffic) (ms : List Move) : Traffic := ms.foldl step s

/-- The run after some of its moves. -/
def after (s : Traffic) (ms : List Move) (k : Nat) : Traffic := s.run (ms.take k)

def constructs (s : Traffic) : Move → Option Instance
  | .request r => s.provider.constructed? r s.ledger
  | _ => none

def access? (s : Traffic) : Move → Option Access
  | .request r => s.provider.access? r s.ledger
  | .tearDown _ => some .drain
  | _ => none

section Run

variable (s : Traffic) (ms : List Move)

theorem run_concat (m : Move) : s.run (ms ++ [m]) = (s.run ms).step m := by
  simp [run]

@[simp] theorem after_zero : s.after ms 0 = s := rfl

theorem after_length : s.after ms ms.length = s.run ms := by
  rw [after, List.take_length]

theorem after_succ {k : Nat} {m : Move} (h : ms[k]? = some m) :
    s.after ms (k + 1) = (s.after ms k).step m := by
  rw [after, List.take_add_one, h, Option.toList_some, run_concat, after]

theorem after_of_length_le {k : Nat} (h : ms.length ≤ k) : s.after ms k = s.run ms := by
  rw [after, List.take_of_length_le h]

theorem after_succ_of_none {k : Nat} (h : ms[k]? = none) : s.after ms (k + 1) = s.after ms k := by
  have hl : ms.length ≤ k := List.getElem?_eq_none_iff.mp h
  rw [after_of_length_le s ms hl, after_of_length_le s ms (Nat.le_succ_of_le hl)]

/-- What every move preserves holds from its start on. -/
theorem after_induction {P : Traffic → Prop} (hs : ∀ s m, P s → P (s.step m)) {j k : Nat} (hjk : j ≤ k)
    (hj : P (s.after ms j)) : P (s.after ms k) := by
  induction hjk with
  | refl => exact hj
  | @step k hk ih =>
    cases hm : ms[k]? with
    | none => rwa [after_succ_of_none s ms hm]
    | some m =>
      rw [after_succ s ms hm]
      exact hs _ m ih

theorem run_induction {P : Traffic → Prop} (hs : ∀ s m, P s → P (s.step m)) (h : P s) : P (s.run ms) := by
  rw [← after_length]
  exact after_induction s ms hs (Nat.zero_le _) h

theorem after_mono {f : Traffic → Nat} (hf : ∀ s m, f s ≤ f (s.step m)) {j k : Nat} (hjk : j ≤ k) :
    f (s.after ms j) ≤ f (s.after ms k) :=
  after_induction s ms (P := fun s' => f (s.after ms j) ≤ f s') (fun s' m hle => Nat.le_trans hle (hf s' m)) hjk
    (Nat.le_refl _)

/-- Where something has become true, one of the moves has made it so. -/
theorem exists_step {P : Traffic → Prop} {i k : Nat} (hik : i ≤ k) (hi : ¬ P (s.after ms i)) (hk : P (s.after ms k)) :
    ∃ j m, i ≤ j ∧ j < k ∧ ms[j]? = some m ∧ ¬ P (s.after ms j) ∧ P ((s.after ms j).step m) := by
  induction hik with
  | refl => exact absurd hk hi
  | @step k hle ih =>
    by_cases hp : P (s.after ms k)
    · obtain ⟨j, m, hij, hjk, hm⟩ := ih hp
      exact ⟨j, m, hij, Nat.lt_succ_of_lt hjk, hm⟩
    · cases hm : ms[k]? with
      | none =>
        rw [after_succ_of_none s ms hm] at hk
        exact absurd hk hp
      | some m =>
        rw [after_succ s ms hm] at hk
        exact ⟨k, m, hle, Nat.lt_succ_self k, hm, hp, hk⟩

end Run

section Step

variable (s : Traffic) (m : Move)

/-- A move changes nothing of the provider but its registry, and that by one access. -/
theorem step_provider : (s.step m).provider =
    { s.provider with live := (s.access? m).elim s.provider.live (·.on s.provider.live) } := by
  cases m with
  | request r => exact (s.provider.handle_served r s.ledger).provider
  | resume n opened => simp only [step]; split <;> rfl
  | tearDown opened => rfl
  | resumeTeardown n opened => simp only [step]; split <;> rfl

theorem step_live : (s.step m).provider.live = (s.access? m).elim s.provider.live (·.on s.provider.live) := by
  rw [step_provider]

theorem step_options : (s.step m).provider.options = s.provider.options := by
  rw [step_provider]

/-- Where no request begins, the ledger changes only by the destruction of instances. -/
theorem step_ledger :
    (∃ r, m = .request r ∧ Provider.Served s.provider r s.ledger (s.provider.handle r s.ledger)) ∨
      s.constructs m = none ∧ ∃ done, s.ledger.Destroys done (s.step m).ledger := by
  cases m with
  | request r => exact .inl ⟨r, rfl, s.provider.handle_served r s.ledger⟩
  | resume n opened =>
    refine .inr ⟨rfl, [], Ledger.SameBooks.destroys ?_⟩
    simp only [step]
    split
    · exact .refl s.ledger
    · rename_i r w _
      exact w.sameBooks_resume opened s.provider.id s.ledger
  | tearDown opened =>
    obtain ⟨done, lost, hd, -⟩ := Teardown.tearDown_discharges opened s.provider s.ledger
    exact .inr ⟨rfl, done, hd⟩
  | resumeTeardown n opened =>
    simp only [step]
    split
    · exact .inr ⟨rfl, [], (Ledger.SameBooks.refl s.ledger).destroys⟩
    · rename_i t _
      obtain ⟨done, lost, hd, -⟩ := Teardown.resume_discharges opened t s.ledger
      exact .inr ⟨rfl, done, hd⟩

theorem step_supply : (s.step m).ledger.supply = s.ledger.supply := by
  obtain ⟨r, rfl, hs⟩ | ⟨-, done, hd⟩ := step_ledger s m
  · exact hs.supply
  · exact hd.supply

theorem step_minted : (s.step m).ledger.minted = s.ledger.minted + (s.constructs m).toList.length := by
  obtain ⟨r, rfl, hs⟩ | ⟨hn, done, hd⟩ := step_ledger s m
  · exact hs.minted
  · simp [hn, hd.minted]

theorem step_built :
    s.ledger.built.length + (s.constructs m).toList.length ≤ (s.step m).ledger.built.length := by
  obtain ⟨r, rfl, hs⟩ | ⟨hn, done, hd⟩ := step_ledger s m
  · exact hs.built
  · simp [hn, hd.built]

/-- A request is where it was, or further without another answer to whether there is such a sequencer, or new. -/
theorem step_requests {n : Nat} {r : Request} {w : Work} (h : (s.step m).requests[n]? = some (r, w)) :
    (∃ w₀, s.requests[n]? = some (r, w₀) ∧ (w.IsMissing ↔ w₀.IsMissing) ∧ w.minted? = w₀.minted?) ∨
      n = s.requests.length ∧ m = .request r ∧ Provider.Served s.provider r s.ledger
        ((s.step m).provider, w, (s.step m).ledger) := by
  cases m with
  | request r' =>
    simp only [step, List.getElem?_append] at h
    split_ifs at h with hn
    · exact .inl ⟨w, h, .rfl, rfl⟩
    · have hn' : n = s.requests.length := by
        have hl := (List.getElem?_eq_some_iff.mp h).1
        simp only [List.length_singleton] at hl
        omega
      subst hn'
      simp only [Nat.sub_self, List.getElem?_cons_zero, Option.some.injEq, Prod.mk.injEq] at h
      obtain ⟨rfl, rfl⟩ := h
      exact .inr ⟨rfl, rfl, s.provider.handle_served r' s.ledger⟩
  | resume n' opened =>
    simp only [step] at h
    split at h
    · exact .inl ⟨w, h, .rfl, rfl⟩
    · rename_i r' w' hw
      rw [List.getElem?_set] at h
      split_ifs at h with hn hl
      · obtain ⟨rfl, rfl⟩ : r' = r ∧ (w'.resume opened s.provider.id s.ledger).1 = w := by simpa using h
        exact .inl ⟨w', hn ▸ hw, Work.resume_isMissing .., Work.resume_minted? ..⟩
      · exact .inl ⟨w, h, .rfl, rfl⟩
  | tearDown opened => exact .inl ⟨w, h, .rfl, rfl⟩
  | resumeTeardown n' opened =>
    have hr : (s.step (.resumeTeardown n' opened)).requests = s.requests := by
      simp only [step]
      split <;> rfl
    exact .inl ⟨w, hr ▸ h, .rfl, rfl⟩

end Step

theorem run_options (s : Traffic) (ms : List Move) : (s.run ms).provider.options = s.provider.options :=
  run_induction s ms (P := fun s' => s'.provider.options = s.provider.options)
    (fun s' m h => (step_options s' m).trans h) rfl

theorem accepts_congr {p q : Provider} (h : q.options = p.options) (r : Request) : q.Accepts r ↔ p.Accepts r := by
  simp only [Provider.Accepts, Provider.admits, Provider.isProtected, h]

end Traffic
end SequencerHub
