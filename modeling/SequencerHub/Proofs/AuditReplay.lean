import Mathlib.Data.List.ReduceOption
import SequencerHub.Proofs.AuditTrail

/-! The log of a provider replayed. When nothing is under way, the sequencers that are live as far as the log tells are
those in the registry, as long as no panic has kept an end out of the log. -/
namespace SequencerHub
namespace Scripted

theorem discreet_backend (config : Json) : (backend config).Discreet := by
  have hgate : ∀ s, ∀ a ∈ gate s, a.Discreet := by
    intro s a ha
    unfold gate at ha
    split at ha
    · exact List.mem_singleton.mp ha ▸ trivial
    · exact absurd ha List.not_mem_nil
  refine ⟨fun _ e he => ?_, fun _ x y a ha => ?_, fun _ a ha => ?_⟩
  · exact List.mem_singleton.mp he ▸ trivial
  · obtain ha | ha := List.mem_append.mp ha
    · exact hgate _ a ha
    · exact List.mem_singleton.mp ha ▸ trivial
  · obtain rfl | ha := List.mem_cons.mp ha
    · trivial
    · have hmore : a ∈ gate (settings config "destroy") ∨ ∃ e, a = .effect (note e) := by
        split at ha
        · exact absurd ha List.not_mem_nil
        · exact (List.mem_append.mp ha).imp_right fun h => ⟨_, List.mem_singleton.mp h⟩
      obtain ha | ⟨e, rfl⟩ := hmore
      · exact hgate _ a ha
      · trivial

theorem discreet (tag : String) : (Factory.register {} tag (constructors tag)).Discreet := by
  have hpick : ∀ name c, (Factory.register {} tag (constructors tag)).find? name = some c →
      ∀ how, c.pick how = constructor tag how := by
    intro name c hc how
    obtain ⟨x, hx, rfl⟩ := Option.map_eq_some_iff.mp hc
    obtain rfl := List.mem_singleton.mp (List.mem_of_find?_eq_some hx)
    cases how <;> rfl
  refine ⟨fun name c hc how nth args e he => ?_, fun name c hc how nth args b hb => ?_⟩
  · rw [hpick name c hc how] at he
    exact List.mem_singleton.mp he ▸ trivial
  · rw [hpick name c hc how] at hb
    have hbuilt : b = backend args.config := by
      unfold constructor at hb
      dsimp only at hb
      split at hb
      all_goals cases hb
      rfl
    exact hbuilt ▸ discreet_backend args.config

end Scripted

namespace Dispatch

def IsRunning : Dispatch → Prop
  | running _ _ _ => True
  | replied _ => False

instance (d : Dispatch) : Decidable d.IsRunning := by
  unfold IsRunning
  split <;> infer_instance

theorem owed_of_not_isRunning {d : Dispatch} (h : ¬ d.IsRunning) : d.owed = [] := by
  cases d with
  | replied r => rfl
  | running providerId op w => exact absurd trivial h

end Dispatch

namespace Hosting

/-- Whether no request and no teardown is under way. -/
def Quiet (s : Hosting) : Prop :=
  (∀ d ∈ s.requests.reduceOption, ¬ d.IsRunning) ∧ ∀ t ∈ s.teardowns, t.IsFinished ∨ t.IsPanicked

instance (s : Hosting) : Decidable s.Quiet := by
  unfold Quiet
  infer_instance

/-- Whether every move that loses sequencers is followed by one that clears the log of them. -/
def Recovers (s : Hosting) (ms : List Move) : Prop :=
  ∀ k m, ms[k]? = some m → (s.run (ms.take k)).Loses m →
    ∃ j m', k < j ∧ ms[j]? = some m' ∧ (s.run (ms.take j)).Detaches m'

section Run

variable (s : Hosting) (ms : List Move) (m : Move)

theorem step_mints (hm : m.IsService) :
    (s.step m).ledger.supply = s.ledger.supply ∧ s.ledger.minted ≤ (s.step m).ledger.minted := by
  have hsame : ∀ {l : Ledger}, s.ledger.SameBooks l → l.supply = s.ledger.supply ∧ s.ledger.minted ≤ l.minted :=
    fun h => ⟨h.supply, Nat.le_of_eq h.minted.symm⟩
  have hdestroys : ∀ {l : Ledger} {done : List Instance}, s.ledger.Destroys done l →
      l.supply = s.ledger.supply ∧ s.ledger.minted ≤ l.minted :=
    fun h => ⟨h.supply, Nat.le_of_eq h.minted.symm⟩
  cases m with
  | provide o f => exact hm.elim
  | deregister id => exact hm.elim
  | request id r opened =>
    cases hp : s.host.find? id with
    | none => exact step_request_none hp r opened ▸ hsame (.refl _)
    | some p =>
      obtain ⟨l, hl, hstep⟩ := step_request hp r opened
      have hserved := p.handle_served r s.ledger
      rw [hstep s.ledger]
      refine ⟨hl.supply.trans hserved.supply, ?_⟩
      rw [hl.minted, hserved.minted]
      exact Nat.le_add_right _ _
  | resume n opened => exact hsame (s.sameBooks_resume n opened)
  | tearDownOne id opened =>
    simp only [step]
    split
    · exact hsame (.refl _)
    · rename_i p hp
      obtain ⟨done, lost, hd, -⟩ := Teardown.tearDown_discharges opened p s.ledger
      exact hdestroys hd
  | tearDown opened =>
    obtain ⟨done, lost, hd, -⟩ := Teardown.all_discharges opened s.host.providers s.ledger
    exact hdestroys hd
  | resumeTeardown n opened =>
    simp only [step]
    split
    · exact hsame (.refl _)
    · rename_i t ht
      obtain ⟨done, lost, hd, -⟩ := Teardown.resume_discharges opened t s.ledger
      exact hdestroys hd
  | requestShutdown =>
    simp only [step, Host.requestShutdown]
    split
    · exact hsame (.refl _)
    · exact hsame (Ledger.sameBooks_logged _ _)

variable {s ms m}

theorem supply_run (hms : ∀ m ∈ ms, m.IsService) : (s.run ms).ledger.supply = s.ledger.supply := by
  induction ms generalizing s with
  | nil => rfl
  | cons m ms ih =>
    have hrest := ih (s := s.step m) fun m' hm' => hms m' (List.mem_cons_of_mem _ hm')
    exact hrest.trans (s.step_mints m (hms m List.mem_cons_self)).1

theorem distinct_of_step (hm : m.IsService) (hd : (s.step m).ledger.Distinct) : s.ledger.Distinct := by
  obtain ⟨hs, hle⟩ := s.step_mints m hm
  intro a b ha hb hab
  exact hd a b (Nat.lt_of_lt_of_le ha hle) (Nat.lt_of_lt_of_le hb hle) (by rw [hs, hab])

/-- The last move must not lose anything, and what was lost before is recovered if it is recovered by then. -/
theorem recovers_concat : s.Recovers (ms ++ [m]) ↔
    ¬ (s.run ms).Loses m ∧ ((s.run ms).Detaches m ∨ s.Recovers ms) := by
  have htake : ∀ k, k ≤ ms.length → (ms ++ [m]).take k = ms.take k := fun k hk => List.take_append_of_le_length hk
  have hlast : (ms ++ [m])[ms.length]? = some m := by simp
  have hrun : s.run ((ms ++ [m]).take ms.length) = s.run ms := by rw [htake _ (Nat.le_refl _), List.take_length]
  have hplace : ∀ {k x}, (ms ++ [m])[k]? = some x → ms[k]? = some x ∧ k < ms.length ∨ k = ms.length ∧ x = m := by
    intro k x hx
    obtain hlt | rfl | hgt := Nat.lt_trichotomy k ms.length
    · exact .inl ⟨by rwa [List.getElem?_append_left hlt] at hx, hlt⟩
    · exact .inr ⟨rfl, (Option.some.inj (hlast.symm.trans hx)).symm⟩
    · have hlen := (List.getElem?_eq_some_iff.mp hx).1
      rw [List.length_append, List.length_singleton] at hlen
      omega
  constructor
  · intro h
    refine ⟨fun hloses => ?_, ?_⟩
    · obtain ⟨j, m', hj, hm', -⟩ := h ms.length m hlast (hrun.symm ▸ hloses)
      obtain ⟨-, hlt⟩ | ⟨rfl, -⟩ := hplace hm' <;> omega
    · by_cases hdetaches : (s.run ms).Detaches m
      · exact .inl hdetaches
      · refine .inr fun k x hx hloses => ?_
        have hk : k < ms.length := (List.getElem?_eq_some_iff.mp hx).1
        obtain ⟨j, m', hj, hm', hd⟩ := h k x (by rwa [List.getElem?_append_left hk]) (htake k hk.le ▸ hloses)
        obtain ⟨hm', hlt⟩ | ⟨rfl, rfl⟩ := hplace hm'
        · exact ⟨j, m', hj, hm', htake j hlt.le ▸ hd⟩
        · exact absurd (hrun ▸ hd) hdetaches
  · rintro ⟨hkeeps, h⟩ k x hx hloses
    obtain ⟨hx, hk⟩ | ⟨rfl, rfl⟩ := hplace hx
    · obtain hdetaches | h := h
      · exact ⟨ms.length, m, hk, hlast, hrun.symm ▸ hdetaches⟩
      · obtain ⟨j, m', hj, hm', hd⟩ := h k x hx (htake k hk.le ▸ hloses)
        have hlt : j < ms.length := (List.getElem?_eq_some_iff.mp hm').1
        exact ⟨j, m', hj, by rwa [List.getElem?_append_left hlt], (htake j hlt.le).symm ▸ hd⟩
    · exact absurd (hrun ▸ hloses) hkeeps

theorem Trail.run (h : s.Trail []) (hms : ∀ m ∈ ms, m.IsService) (hd : (s.run ms).ledger.Distinct) :
    ∃ lost, (s.run ms).Trail lost ∧ (lost = [] ↔ s.Recovers ms) := by
  induction ms using List.reverseRecOn with
  | nil => exact ⟨[], h, iff_of_true rfl fun k m hm => by simp at hm⟩
  | append_singleton ms m ih =>
    have hm : m.IsService := hms m (by simp)
    rw [run_concat] at hd ⊢
    obtain ⟨lost, ht, hl⟩ := ih (fun m' hm' => hms m' (by simp [hm'])) (distinct_of_step hm hd)
    obtain ⟨lost', ht', hl'⟩ := ht.step hm hd
    exact ⟨lost', ht', by rw [hl', hl, recovers_concat]⟩

end Run

theorem trail_sole (address : String) (supply : Nat → SequencerId) (o : ProviderOptions) {f : Factory}
    (hf : f.Discreet) : (sole address supply o f).Trail [] where
  alone := {
    one := Nat.le_refl 1
    providers := fun p hp => by
      obtain rfl := List.mem_singleton.mp hp
      exact ⟨hf, fun x hx => absurd hx List.not_mem_nil⟩
    detached := fun _ _ _ => rfl
    requests := fun d hd => absurd hd List.not_mem_nil
    teardowns := fun t ht => absurd ht List.not_mem_nil }
  balanced := {
    once := List.nodup_nil
    told := fun id hid => absurd hid List.not_mem_nil
    known := fun id hid => absurd hid (Finset.notMem_empty id) }
  minted := fun id hid => absurd hid List.not_mem_nil

/-- Whenever no request and no teardown is under way at a provider, the sequencers that are live as far as its log tells
are those in its registry, if and only if every panic that has kept an end out of the log was followed by a teardown
that let all live sequencers go. -/
theorem told_eq_live_iff (address : String) (supply : Nat → SequencerId) (o : ProviderOptions) {f : Factory}
    (hf : f.Discreet) {ms : List Move} (hms : ∀ m ∈ ms, m.IsService)
    (hd : ((sole address supply o f).run ms).ledger.Distinct) (hq : ((sole address supply o f).run ms).Quiet) :
    ((sole address supply o f).run ms).ledger.told = ((sole address supply o f).run ms).live.toFinset ↔
      (sole address supply o f).Recovers ms := by
  obtain ⟨lost, ht, hl⟩ := (trail_sole address supply o hf).run hms hd
  rw [← hl]
  refine ht.balanced.told_eq_iff (List.flatMap_eq_nil_iff.mpr fun d hd => ?_)
    (List.flatMap_eq_nil_iff.mpr fun t ht => ?_)
  · cases d with
    | none => rfl
    | some d => exact Dispatch.owed_of_not_isRunning (hq.1 d (List.reduceOption_mem_iff.mpr hd))
  · cases t with
    | waiting => exact ((hq.2 _ ht).elim id id).elim
    | _ => rfl

def onTrial : Hosting :=
  sole "local://trials" SequencerId.ofNat {} (.register {} "scripted" (Scripted.constructors "scripted"))

/-- A sequencer whose destruction panics, one whose destruction waits, and one that is let go with the provider; then
one is constructed anew. -/
def reopened : List Move :=
  [.request 0 (.construct .create "" "scripted" "\x7b\"destroy\":\x7b\"panic\":\"boom\"\x7d\x7d") [],
    .request 0 (.construct .create "" "scripted" "\x7b\"destroy\":\x7b\"gate\":\"g\"\x7d\x7d") [],
    .request 0 (.construct .attach "" "scripted" "{}") [], .request 0 (.destroy "" (SequencerId.ofNat 0)) [],
    .request 0 (.destroy "" (SequencerId.ofNat 1)) [], .tearDownOne 0 [], .resume 4 ["g"],
    .request 0 (.construct .attach "" "scripted" "{}") []]

theorem run_reopened : (onTrial.run reopened).ledger.minted = 4 ∧ (onTrial.run reopened).Quiet ∧
    (onTrial.run reopened).ledger.told = {SequencerId.ofNat 3} ∧
    (onTrial.run reopened).live = [SequencerId.ofNat 3] := by
  decide +kernel

theorem told_eq_live_iff_reopened : (∀ m ∈ reopened, m.IsService) ∧ (onTrial.run reopened).ledger.Distinct ∧
    (onTrial.run reopened).Quiet ∧ (onTrial.run reopened).ledger.told = {SequencerId.ofNat 3} ∧
    onTrial.Recovers reopened := by
  have hms : ∀ m ∈ reopened, m.IsService := by decide
  obtain ⟨hminted, hq, htold, hlive⟩ := run_reopened
  have hd : (onTrial.run reopened).ledger.Distinct :=
    Ledger.distinct_of_counting (supply_run hms) (by rw [hminted]; decide)
  refine ⟨hms, hd, hq, htold, ?_⟩
  exact (told_eq_live_iff "local://trials" SequencerId.ofNat {} (Scripted.discreet "scripted") hms hd hq).mp
    (htold.trans (congrArg List.toFinset hlive).symm)

def explosive : List Move :=
  [.request 0 (.construct .create "" "scripted" "\x7b\"destroy\":\x7b\"panic\":\"boom\"\x7d\x7d") [],
    .request 0 (.destroy "" (SequencerId.ofNat 0)) []]

theorem run_explosive : (onTrial.run explosive).ledger.minted = 1 ∧ (onTrial.run explosive).Quiet ∧
    (onTrial.run explosive).ledger.told = {SequencerId.ofNat 0} ∧ (onTrial.run explosive).live = [] := by
  decide +kernel

/-- Nothing is under way, and the log tells of a sequencer that is no longer in the registry. -/
theorem told_ne_live_explosive : (∀ m ∈ explosive, m.IsService) ∧ (onTrial.run explosive).ledger.Distinct ∧
    (onTrial.run explosive).Quiet ∧ (onTrial.run explosive).ledger.told = {SequencerId.ofNat 0} ∧
    (onTrial.run explosive).ledger.told ≠ (onTrial.run explosive).live.toFinset := by
  have hms : ∀ m ∈ explosive, m.IsService := by decide
  obtain ⟨hminted, hq, htold, hlive⟩ := run_explosive
  refine ⟨hms, Ledger.distinct_of_counting (supply_run hms) (by rw [hminted]; decide), hq, htold, ?_⟩
  rw [htold, hlive]
  exact Finset.singleton_ne_empty _

end Hosting
end SequencerHub
