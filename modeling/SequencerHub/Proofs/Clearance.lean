import SequencerHub.Proofs.Containment
import SequencerHub.Proofs.Departures
import SequencerHub.Proofs.Shutdown

/-! The teardown of a host amid all that goes on around it. The host has no providers at once; the sequencers that are to
be destroyed are destroyed one after the other, each once, and no others. -/
namespace SequencerHub

def Instance.Gentle (i : Instance) : Prop := ∀ calls q, (i.backend.destroy calls).outcome ≠ .panicked q

def AtGate (opened : Gates) (acts : List Act) : Prop := ∃ g more, acts = .await g :: more ∧ g ∉ opened

theorem runActs_atGate {opened : Gates} {acts : List Act} {l : Ledger} (h : (runActs opened acts l).1 ≠ []) :
    AtGate opened (runActs opened acts l).1 := by
  induction acts generalizing l with
  | nil => exact absurd rfl h
  | cons a acts ih =>
    cases a with
    | effect e => exact ih h
    | await g =>
      simp only [runActs] at h ⊢
      split_ifs at h ⊢ with hg
      · exact ih h
      · exact ⟨g, acts, rfl, hg⟩

namespace Teardown

def Gentle : Teardown → Prop
  | finished => True
  | panicked _ => False
  | waiting _ _ _ outcome instances providers =>
    (∀ q, outcome ≠ .panicked q) ∧ (∀ x ∈ instances, x.2.Gentle) ∧ ∀ p ∈ providers, ∀ i ∈ p.doomed, i.Gentle

/-- A teardown that has come to its end, or waits at a gate. -/
def Rests (opened : Gates) : Teardown → Prop
  | finished => True
  | panicked _ => False
  | waiting _ _ acts _ _ _ => AtGate opened acts

namespace Progress

def Gentle : Progress → Prop
  | finished => True
  | panicked _ => False
  | waiting _ _ outcome instances => (∀ q, outcome ≠ .panicked q) ∧ ∀ x ∈ instances, x.2.Gentle

def Rests (opened : Gates) : Progress → Prop
  | finished => True
  | panicked _ => False
  | waiting _ acts _ _ => AtGate opened acts

end Progress

section Gentle

variable (opened : Gates) (providerId : UInt16) (id : SequencerId) (acts : List Act) {outcome : Outcome Bool}
  {instances : Registry}

theorem runCall_gentle (ho : ∀ q, outcome ≠ .panicked q) (hi : ∀ x ∈ instances, x.2.Gentle) (l : Ledger) :
    (runCall opened providerId id acts outcome instances l).1.Gentle ∧
      (runCall opened providerId id acts outcome instances l).1.Rests opened := by
  have hgate : (runActs opened acts l).1 ≠ [] → AtGate opened (runActs opened acts l).1 := runActs_atGate
  unfold runCall
  split
  · cases outcome with
    | panicked q => exact absurd rfl (ho q)
    | _ => exact ⟨trivial, trivial⟩
  · rename_i left l' hne heq
    rw [heq] at hgate
    exact ⟨⟨ho, hi⟩, hgate hne⟩

theorem destroyAll_gentle {r : Registry} (hr : ∀ x ∈ r, x.2.Gentle) (l : Ledger) :
    (destroyAll opened providerId r l).1.Gentle ∧ (destroyAll opened providerId r l).1.Rests opened := by
  induction r generalizing l with
  | nil => exact ⟨trivial, trivial⟩
  | cons x r ih =>
    obtain ⟨hx, hr⟩ := List.forall_mem_cons.mp hr
    have hcall := runCall_gentle opened providerId x.1 (x.2.backend.destroy (l.history x.2.serial)).acts
      (hx (l.history x.2.serial)) hr (l.called x.2.serial .destroy)
    simp only [destroyAll]
    split
    · exact ih hr _
    · exact hcall

theorem dismiss_gentle {p : Provider} (hp : ∀ i ∈ p.doomed, i.Gentle) (l : Ledger) :
    (dismiss opened p.options p.live l).1.Gentle ∧ (dismiss opened p.options p.live l).1.Rests opened := by
  unfold dismiss
  unfold Provider.doomed at hp
  cases hpolicy : p.options.teardown with
  | destroy =>
    simp only [hpolicy] at hp
    exact destroyAll_gentle opened p.id (fun x hx => hp x.2 (List.mem_map_of_mem hx)) l
  | detach => exact ⟨trivial, trivial⟩

theorem all_gentle {ps : List Provider} (hps : ∀ p ∈ ps, ∀ i ∈ p.doomed, i.Gentle) (l : Ledger) :
    (all opened ps l).1.Gentle ∧ (all opened ps l).1.Rests opened := by
  induction ps generalizing l with
  | nil => exact ⟨trivial, trivial⟩
  | cons p ps ih =>
    obtain ⟨hp, hps⟩ := List.forall_mem_cons.mp hps
    obtain ⟨hg, hr⟩ := dismiss_gentle opened hp (l.logged (.tearingDown p.id))
    simp only [all]
    cases hd : (dismiss opened p.options p.live (l.logged (.tearingDown p.id))).1 with
    | finished => exact ih hps _
    | panicked q => exact (hd ▸ hg).elim
    | waiting id acts outcome instances =>
      rw [hd] at hg hr
      exact ⟨⟨hg.1, hg.2, hps⟩, hr⟩

/-- A teardown that goes on does not panic, and stops nowhere but at a gate that is closed. -/
theorem resume_gentle {t : Teardown} (ht : t.Gentle) (l : Ledger) :
    (t.resume opened l).1.Gentle ∧ (t.resume opened l).1.Rests opened := by
  cases t with
  | finished => exact ⟨trivial, trivial⟩
  | panicked q => exact ht.elim
  | waiting providerId id acts outcome instances providers =>
    obtain ⟨ho, hi, hp⟩ := ht
    obtain ⟨hg, hr⟩ := runCall_gentle opened providerId id acts ho hi l
    simp only [resume]
    cases hc : runCall opened providerId id acts outcome instances l with
    | mk progress l' =>
      rw [hc] at hg hr
      cases progress with
      | finished =>
        obtain ⟨hg', hr'⟩ := destroyAll_gentle opened providerId hi l'
        cases hd : destroyAll opened providerId instances l' with
        | mk progress l'' =>
          rw [hd] at hg' hr'
          cases progress with
          | finished => exact all_gentle opened hp l''
          | panicked q => exact hg'.elim
          | waiting id' acts' outcome' instances' => exact ⟨⟨hg'.1, hg'.2, hp⟩, hr'⟩
      | panicked q => exact hg.elim
      | waiting id' acts' outcome' instances' => exact ⟨⟨hg.1, hg.2, hp⟩, hr⟩

theorem Gentle.not_panicked {t : Teardown} (ht : t.Gentle) : ¬ t.IsPanicked := by
  cases t with
  | panicked q => exact ht.elim
  | _ => exact not_false

theorem pending_of_isFinished {t : Teardown} (ht : t.IsFinished) : t.pending = [] := by
  cases t with
  | finished => rfl
  | _ => exact ht.elim

/-- Whatever is owed and not left is under destruction, unless the rest was let go. -/
theorem Discharges.destroyed {owed left : List Instance} {l l' : Ledger} {stopped : Prop}
    (h : Discharges owed l left stopped l') (hn : ¬ stopped) {k : Nat} (hk : k ∈ owed.map Instance.serial) :
    k ∈ left.map Instance.serial ∨ k ∈ l'.destroyed := by
  obtain ⟨done, lost, hd, rfl, hlost⟩ := h
  obtain rfl := hlost.resolve_right hn
  rw [List.append_nil, List.map_append, List.mem_append] at hk
  rw [hd.destroyed, List.mem_append]
  exact hk.symm.imp_right .inr

theorem isSingle_of_ofProgress {providerId : UInt16} {progress : Progress} {t : Teardown}
    (h : ofProgress providerId [] progress = some t) : t.IsSingle := by
  have hsingle := (ofProgress_single providerId progress).2
  rwa [h] at hsingle

theorem resume_isSingle {t : Teardown} (ht : t.IsSingle) (opened : Gates) (l : Ledger) :
    (t.resume opened l).1.IsSingle := by
  cases t with
  | waiting providerId id acts outcome instances providers =>
    obtain rfl : providers = [] := ht
    simp only [resume]
    split
    · trivial
    · rename_i h
      exact isSingle_of_ofProgress h
  | _ => trivial

end Gentle
end Teardown

namespace Parting

/-- The providers as a parting has them: those whose turn has come have empty registries, and those behind are as they
were. -/
structure Splits (providers : List Provider) (s : Parting) : Prop where
  split : ∃ before, providers = before ++ s.behind ∧ s.gone = before.map ({ · with live := [] })
  single : s.now.IsSingle
  ended : s.now.IsFinished → s.behind = []

theorem proceed_splits (opened : Gates) (before rest : List Provider) (l : Ledger) :
    Splits (before ++ rest) (proceed opened (before.map ({ · with live := [] })) rest l) := by
  induction rest generalizing before l with
  | nil => exact ⟨⟨before, rfl, rfl⟩, trivial, fun _ => rfl⟩
  | cons p more ih =>
    have hsingle : (p.tearDown opened (l.logged (.tearingDown p.id))).2.1.IsSingle := (Teardown.ofProgress_single p.id _).2
    simp only [proceed]
    split
    · have hih := ih (before ++ [p]) (p.tearDown opened (l.logged (.tearingDown p.id))).2.2
      simpa [Provider.tearDown] using hih
    · rename_i hn
      refine ⟨⟨before ++ [p], by simp, by simp [Provider.tearDown]⟩, hsingle, fun hf => ?_⟩
      cases ht : (p.tearDown opened (l.logged (.tearingDown p.id))).2.1 with
      | finished => exact absurd ht hn
      | _ => simp [ht, Teardown.IsFinished] at hf

theorem Splits.resume {providers : List Provider} {s : Parting} (h : Splits providers s) (opened : Gates) :
    Splits providers (s.resume opened) := by
  obtain ⟨before, hp, hg⟩ := h.split
  have hsingle := Teardown.resume_isSingle h.single opened s.ledger
  simp only [Parting.resume]
  split
  · rw [hg, hp]
    exact proceed_splits opened before s.behind _
  · rename_i hn
    refine ⟨⟨before, hp, hg⟩, hsingle, fun hf => ?_⟩
    cases ht : (s.now.resume opened s.ledger).1 with
    | finished => exact absurd ht hn
    | _ => simp [ht, Teardown.IsFinished] at hf

theorem whole_isFinished (s : Parting) : s.whole.IsFinished ↔ s.now.IsFinished := by
  unfold whole
  split
  · rename_i hnow
    rw [hnow]
    rfl
  · rfl

theorem Splits.whole_resume {providers : List Provider} {s : Parting} (h : Splits providers s) (opened : Gates)
    (l : Ledger) : (({ s with ledger := l }).resume opened).whole = (s.whole.resume opened l).1 := by
  have hr := resume_whole (s := { s with ledger := l }) h.single h.ended opened
  exact congrArg Prod.fst hr

end Parting

/-- The same providers with the same sequencers, in the order in which their tables give them. -/
def Shuffles (providers order : List Provider) : Prop :=
  ∃ ps, ps.Perm providers ∧ List.Forall₂ (fun p q => q = { p with live := q.live } ∧ q.live.Perm p.live) ps order

section Shuffles

variable {providers order : List Provider}

theorem Provider.doomed_perm {p q : Provider} (hq : q = { p with live := q.live }) (hl : q.live.Perm p.live) :
    q.doomed.Perm p.doomed := by
  have hpolicy : q.options.teardown = p.options.teardown := by rw [hq]
  unfold doomed
  rw [hpolicy]
  cases p.options.teardown with
  | destroy => exact hl.map _
  | detach => exact .refl _

theorem Shuffles.doomed (h : Shuffles providers order) :
    (order.flatMap Provider.doomed).Perm (providers.flatMap Provider.doomed) := by
  obtain ⟨ps, hp, hs⟩ := h
  refine List.Perm.trans ?_ (hp.flatMap_right _)
  clear hp
  induction hs with
  | nil => exact .refl _
  | cons hpq hs ih => exact (Provider.doomed_perm hpq.1 hpq.2).append ih

theorem Shuffles.gentle (h : Shuffles providers order) (hg : ∀ p ∈ providers, ∀ i ∈ p.doomed, i.Gentle) :
    ∀ p ∈ order, ∀ i ∈ p.doomed, i.Gentle := by
  intro p hp i hi
  have hmem := h.doomed.mem_iff.mp (List.mem_flatMap.mpr ⟨p, hp, hi⟩)
  obtain ⟨q, hq, hi⟩ := List.mem_flatMap.mp hmem
  exact hg q hq i hi

end Shuffles

namespace Hub

/-- Tears all providers of a host down, one after the other in the given order. -/
def tearDownIn (h : Hub) (n : Nat) (host : Host) (order : List Provider) : Hub :=
  let (t, l) := Teardown.all h.opened order h.ledger
  ((h.setHost n { host with providers := [] } l).start (.tearing t)).1

theorem step_tearDown {h : Hub} {n : Nat} {host : Host} (hn : h.hosts[n]? = some host) :
    h.step (.tearDown n) = h.tearDownIn n host host.providers := by
  simp only [step, tearDown, hn]
  rfl

/-- The instances that a teardown of the host destroys. -/
def doomed (host : Host) : List Nat := (host.providers.flatMap Provider.doomed).map Instance.serial

section TearDown

variable {h : Hub} {n : Nat} {host : Host} {order : List Provider}

theorem count_tearDownIn (hn : h.hosts[n]? = some host) (ho : Shuffles host.providers order) (k : Nat) :
    (h.tearDownIn n host order).tally.count k + host.serials.count k ≤ h.tally.count k + (doomed host).count k := by
  have howed : (doomed host).count k = ((order.flatMap Provider.doomed).map Instance.serial).count k :=
    ((ho.doomed.map _).count_eq k).symm
  rw [howed]
  exact count_emptied hn rfl k

theorem Sound.tearDownIn (hs : h.Sound) (hn : h.hosts[n]? = some host) (ho : Shuffles host.providers order) :
    Conserves h (h.tearDownIn n host order) := by
  refine .emptied hs hn (fun k => ?_) rfl
  rw [(ho.doomed.map Instance.serial).count_eq k]
  exact count_doomed_le host.providers k

end TearDown

def Vacant (h : Hub) (n : Nat) : Prop := ∃ host, h.hosts[n]? = some host ∧ host.providers = []

section Vacant

variable {h : Hub} {n : Nat}

/-- A host without providers has none until one is registered. -/
theorem Vacant.step (hv : h.Vacant n) {m : Move} (hm : ∀ gate, m ≠ .openGate gate)
    (hp : ∀ o f, m ≠ .provide n o f) : (h.step m).Vacant n := by
  obtain ⟨host, hn, hempty⟩ := hv
  have hlt := (List.getElem?_eq_some_iff.mp hn).1
  by_cases hprovide : ∃ j o f, m = .provide j o f
  · obtain ⟨j, o, f, rfl⟩ := hprovide
    have hj : j ≠ n := fun heq => hp o f (heq ▸ rfl)
    simp only [Hub.step, provide]
    split
    · exact ⟨host, hn, hempty⟩
    · split
      · exact ⟨host, hn, hempty⟩
      · exact ⟨host, (List.getElem?_set_ne hj).trans hn, hempty⟩
  · have hmoved := h.step_moved hm
    unfold Vacant
    generalize (h.step m).hosts = hosts at hmoved
    cases hmoved with
    | same => exact ⟨host, hn, hempty⟩
    | added address => exact ⟨host, (List.getElem?_append_left hlt).trans hn, hempty⟩
    | @set j x x' hj hb =>
      rcases eq_or_ne j n with rfl | hne
      · obtain rfl : x = host := Option.some.inj (hj.symm.trans hn)
        refine ⟨x', List.getElem?_set_self hlt, ?_⟩
        cases hb with
        | same => exact hempty
        | asked => exact hempty
        | served q l hfind => rw [Host.find?, hempty] at hfind; cases hfind
        | provided hprovided => exact absurd ⟨_, _, _, hprovided⟩ hprovide
        | thinned id => simp [hempty]
        | emptied => rfl
      · exact ⟨host, (List.getElem?_set_ne hne).trans hn, hempty⟩

/-- A request that gets to a host without providers is refused, and nothing else comes of it. -/
theorem Vacant.send (hv : h.Vacant n) {link : Link} {providerId id : UInt16} {r : Request}
    (ht : h.target? link providerId r = some (n, id)) :
    h.send link providerId r = (h, .replied (.error (.noSuchProvider id))) := by
  obtain ⟨host, hn, hempty⟩ := hv
  have hfind : host.find? id = none := by rw [Host.find?, hempty, List.find?_nil]
  rw [send_of_target ht, deliver]
  simp only [hn, Host.dispatch, hfind, link.receive_none]

theorem Vacant.tearDown (hv : h.Vacant n) : h.step (.tearDown n) = (h.start (.tearing .finished)).1 := by
  obtain ⟨⟨address, providers, stopping⟩, hn, rfl⟩ := hv
  have hself : h.hosts.set n ⟨address, [], stopping⟩ = h.hosts := by
    obtain ⟨hlt, heq⟩ := List.getElem?_eq_some_iff.mp hn
    rw [← heq, List.set_getElem_self]
  simp only [Hub.step, Hub.tearDown, hn, Host.tearDown, Teardown.all, setHost, hself]

end Vacant
end Hub

/-- A host under teardown: the task that tears it down, and its providers as the teardown leaves them. -/
structure Clearance where
  hub : Hub
  task : Nat
  view : Parting

namespace Clearance

inductive Move
  | hub (m : Hub.Move) (single : ∀ gate, m ≠ .openGate gate)
  | gates (opened : Gates)

def begin (h : Hub) (n : Nat) (host : Host) (order : List Provider) : Clearance :=
  ⟨h.tearDownIn n host order, h.tasks.length, Parting.proceed h.opened [] order h.ledger⟩

/-- The providers when something happens: it is the turn of some only when the teardown goes on. -/
def viewed (s : Clearance) : Hub.Move → Parting
  | .advance k => if k = s.task then ({ s.view with ledger := s.hub.ledger }).resume s.hub.opened else s.view
  | _ => s.view

def step (s : Clearance) : Move → Clearance
  | .hub m _ => { s with hub := s.hub.step m, view := s.viewed m }
  | .gates opened => { s with hub := { s.hub with opened } }

def run (s : Clearance) (ms : List Move) : Clearance := ms.foldl step s

def Move.Registers (n : Nat) : Move → Prop
  | hub (.provide m _ _) _ => m = n
  | _ => False

structure Holds (owed : List Nat) (order : List Provider) (s : Clearance) : Prop where
  sound : s.hub.Sound
  task : s.hub.tasks[s.task]? = some (.tearing s.view.whole)
  gentle : s.view.whole.Gentle
  splits : s.view.Splits order
  owed : ∀ k ∈ owed, k ∈ s.view.whole.pending.map Instance.serial ∨ k ∈ s.hub.ledger.destroyed

section Holds

variable {h : Hub} {n : Nat} {host : Host} {order : List Provider} {owed : List Nat} {s : Clearance}

theorem begin_holds (hs : h.Sound) (hn : h.hosts[n]? = some host) (ho : Shuffles host.providers order)
    (hg : ∀ p ∈ host.providers, ∀ i ∈ p.doomed, i.Gentle) : (begin h n host order).Holds (Hub.doomed host) order := by
  have hgentle := (Teardown.all_gentle h.opened (ho.gentle hg) h.ledger).1
  have hwhole : (Parting.proceed h.opened [] order h.ledger).whole = (Teardown.all h.opened order h.ledger).1 :=
    congrArg Prod.fst (Parting.proceed_whole h.opened [] order h.ledger)
  refine ⟨hs.of_conserves (hs.tearDownIn hn ho), ?_, ?_, Parting.proceed_splits h.opened [] order h.ledger, ?_⟩
  · have hlast : (begin h n host order).hub.tasks[h.tasks.length]? =
        some (.tearing (Teardown.all h.opened order h.ledger).1) := List.getElem?_concat_length
    exact hlast.trans (by rw [← hwhole]; rfl)
  · exact hwhole ▸ hgentle
  · intro k hk
    have hk : k ∈ (order.flatMap Provider.doomed).map Instance.serial := (ho.doomed.map _).mem_iff.mpr hk
    have hd := (Teardown.all_discharges h.opened order h.ledger).destroyed hgentle.not_panicked hk
    rwa [← hwhole] at hd

theorem destroyed_mono {l l' : Ledger} (hl : l.Grows l') {k : Nat} (hk : k ∈ l.destroyed) : k ∈ l'.destroyed := by
  obtain ⟨more, hmore⟩ := hl.calls
  rw [Ledger.destroyed_of_calls hmore.symm]
  exact List.mem_append_left _ hk

theorem Holds.advance (hs : s.Holds owed order) :
    Holds owed order ⟨s.hub.advance s.task, s.task, ({ s.view with ledger := s.hub.ledger }).resume s.hub.opened⟩ := by
  have hwhole := hs.splits.whole_resume s.hub.opened s.hub.ledger
  have hgentle := (Teardown.resume_gentle s.hub.opened hs.gentle s.hub.ledger).1
  have hc := hs.sound.advance s.task
  refine ⟨hs.sound.of_conserves hc, ?_, ?_, ?_, fun k hk => ?_⟩
  · rw [s.hub.advance_self hs.task, hwhole]
    rfl
  · exact hwhole ▸ hgentle
  · have hsplits : ({ s.view with ledger := s.hub.ledger } : Parting).Splits order :=
      ⟨hs.splits.split, hs.splits.single, hs.splits.ended⟩
    exact hsplits.resume s.hub.opened
  · have hledger : (s.hub.advance s.task).ledger = (s.view.whole.resume s.hub.opened s.hub.ledger).2 := by
      rw [s.hub.advance_eq _ hs.task]
      rfl
    rcases hs.owed k hk with hk | hk
    · have hd := (Teardown.resume_discharges s.hub.opened s.view.whole s.hub.ledger).destroyed hgentle.not_panicked hk
      rwa [hwhole, hledger]
    · exact .inr (destroyed_mono hc.grows hk)

theorem Holds.step (hs : s.Holds owed order) (m : Move) : (s.step m).Holds owed order := by
  cases m with
  | gates opened => exact ⟨hs.sound.of_conserves (.of_eq hs.sound rfl rfl (.refl _)), hs.task, hs.gentle, hs.splits, hs.owed⟩
  | hub m single =>
    obtain ⟨hne, htask⟩ | ⟨rfl, -⟩ := Hub.step_task_cases single hs.task
    · have hview : s.viewed m = s.view := by
        cases m with
        | advance k =>
          have hk : k ≠ s.task := fun heq => hne (congrArg Hub.Move.advance heq)
          exact if_neg hk
        | _ => rfl
      have hc := hs.sound.step m
      refine ⟨hs.sound.of_conserves hc, ?_, ?_, ?_, fun k hk => ?_⟩
      · exact htask.trans (by rw [← hview]; rfl)
      · exact (congrArg (fun v => v.whole.Gentle) hview).mpr hs.gentle
      · exact (congrArg (Parting.Splits order) hview).mpr hs.splits
      · have hpending : (s.step (.hub m single)).view = s.view := hview
        rw [hpending]
        exact (hs.owed k hk).imp_right (destroyed_mono hc.grows)
    · have hview : s.viewed (.advance s.task) = ({ s.view with ledger := s.hub.ledger }).resume s.hub.opened := if_pos rfl
      have hadv := hs.advance
      rwa [← hview] at hadv

theorem Holds.run (hs : s.Holds owed order) (ms : List Move) : (s.run ms).Holds owed order :=
  List.foldlRecOn ms Clearance.step hs fun _ hs m _ => hs.step m

end Holds

section Accounts

variable {h : Hub} {n : Nat} {host : Host} {order : List Provider}

theorem vacant_run (ms : List Move) (hms : ∀ m ∈ ms, ¬ m.Registers n) {s : Clearance} (hv : s.hub.Vacant n) :
    (s.run ms).hub.Vacant n := by
  refine List.foldlRecOn (motive := fun s => s.hub.Vacant n) ms Clearance.step hv fun s hv m hm => ?_
  cases m with
  | gates opened => exact hv
  | hub m single =>
    have hfree : ∀ o f, m ≠ .provide n o f := by
      rintro o f rfl
      exact hms _ hm rfl
    exact hv.step single hfree

theorem run_conserves {s : Clearance} (hs : s.hub.Sound) (ms : List Move) : Hub.Conserves s.hub (s.run ms).hub := by
  refine List.foldlRecOn (motive := fun s' => Hub.Conserves s.hub s'.hub) ms Clearance.step (.refl hs) fun s' hc m _ => ?_
  have hs' := hs.of_conserves hc
  cases m with
  | gates opened => exact hc.trans (.of_eq hs' rfl rfl (.refl _))
  | hub m single => exact hc.trans (hs'.step m)

/-- What is nowhere at some time stays away from all registries, and is not destroyed. -/
theorem not_destroyed {h h' : Hub} (hc : Hub.Conserves h h') {k : Nat} (hk : k < h.ledger.built.length)
    (hnone : h.tally.count k = 0) : h'.ledger.destroyed.count k = 0 := by
  have hcount := hc.count k
  have hnews : h.ledger.news h'.ledger k = 0 := if_neg fun hnew => Nat.not_lt.mpr hnew.1 hk
  have hpart : h'.ledger.destroyed.count k ≤ h'.tally.count k := by
    simp only [Hub.tally, List.count_append]
    omega
  omega

theorem count_tally (hs : h.Sound) (k : Nat) : h.registered.count k + h.ledger.destroyed.count k ≤ 1 := by
  have honce := List.nodup_iff_count_le_one.mp hs.once k
  simp only [Hub.tally, List.count_append] at honce
  omega

theorem serial_mem_registered (hn : h.hosts[n]? = some host) {p : Provider} (hp : p ∈ host.providers)
    {x : SequencerId × Instance} (hx : x ∈ p.live) : x.2.serial ∈ h.registered :=
  List.mem_flatMap.mpr ⟨host, List.mem_of_getElem? hn, List.mem_flatMap.mpr ⟨p, hp, List.mem_map_of_mem hx⟩⟩

theorem detached_count {p : Provider} (hp : p ∈ host.providers) (hd : p.options.teardown = .detach)
    {x : SequencerId × Instance} (hx : x ∈ p.live) :
    (Hub.doomed host).count x.2.serial + 1 ≤ host.serials.count x.2.serial := by
  obtain ⟨before, after, hsplit⟩ := List.append_of_mem hp
  have hnone : p.doomed = [] := by rw [Provider.doomed, hd]
  have hone : 1 ≤ p.live.serials.count x.2.serial := List.count_pos_iff.mpr (List.mem_map_of_mem hx)
  have hbefore := Hub.count_doomed_le before x.2.serial
  have hafter := Hub.count_doomed_le after x.2.serial
  simp only [Hub.doomed, Host.serials, hsplit, List.flatMap_append, List.flatMap_cons, hnone, List.nil_append,
    List.map_append, List.count_append]
  omega

end Accounts

/-- What it means that the teardown of a host has been gone about as it should, as far as it has got. -/
structure Cleared (h : Hub) (n : Nat) (host : Host) (order : List Provider) (ms : List Move) (s : Clearance) : Prop where
  task : s.hub.tasks[s.task]? = some (.tearing s.view.whole)
  /-- The teardown does not panic. When it goes on it comes to its end, or to a gate that is closed. -/
  goesOn : ∃ t : Teardown, (s.hub.advance s.task).tasks[s.task]? = some (.tearing t) ∧ t.Rests s.hub.opened
  vacant : (∀ m ∈ ms, ¬ m.Registers n) → s.hub.Vacant n
  /-- Until a provider is registered again, requests are refused, whatever link they come over. -/
  refused : (∀ m ∈ ms, ¬ m.Registers n) → ∀ link providerId r id, s.hub.target? link providerId r = some (n, id) →
    s.hub.send link providerId r = (s.hub, .replied (.error (.noSuchProvider id)))
  again : (∀ m ∈ ms, ¬ m.Registers n) → s.hub.step (.tearDown n) = (s.hub.start (.tearing .finished)).1
  /-- All providers have been torn down when the teardown is at its end, and their registries are empty. -/
  emptied : s.view.whole.IsFinished → s.view.behind = [] ∧ s.view.gone = order.map ({ · with live := [] })
  destroyed : s.view.whole.IsFinished → ∀ p ∈ host.providers, p.options.teardown = .destroy → ∀ x ∈ p.live,
    h.ledger.destroyed.count x.2.serial = 0 ∧ s.hub.ledger.destroyed.count x.2.serial = 1
  /-- Never more than once, and not at all if the provider detaches. -/
  once : ∀ k, s.hub.ledger.destroyed.count k ≤ 1
  detached : ∀ p ∈ host.providers, p.options.teardown = .detach → ∀ x ∈ p.live,
    s.hub.ledger.destroyed.count x.2.serial = 0
  /-- Instances that have been closed or destroyed before are left alone. -/
  retired : ∀ k < h.ledger.built.length, k ∉ h.registered → k ∉ h.tasks.flatMap Task.awaited →
    s.hub.ledger.destroyed.count k = h.ledger.destroyed.count k

section Cleared

variable {h : Hub} {n : Nat} {host : Host} {order : List Provider}

theorem Holds.cleared (hs : h.Sound) (hn : h.hosts[n]? = some host) (ho : Shuffles host.providers order)
    (ms : List Move) (hh : ((begin h n host order).run ms).Holds (Hub.doomed host) order) :
    Cleared h n host order ms ((begin h n host order).run ms) := by
  have hbegin := hs.tearDownIn hn ho
  have hlater := run_conserves (s := begin h n host order) (hs.of_conserves hbegin) ms
  have hvacant : (begin h n host order).hub.Vacant n :=
    ⟨_, List.getElem?_set_self (List.getElem?_eq_some_iff.mp hn).1, rfl⟩
  have hregistered : ∀ p ∈ host.providers, ∀ x ∈ p.live, x.2.serial ∈ h.registered := fun p hp x hx =>
    serial_mem_registered hn hp hx
  refine ⟨hh.task, ?_, fun hms => vacant_run ms hms hvacant,
    fun hms _ _ _ _ ht => (vacant_run ms hms hvacant).send ht, fun hms => (vacant_run ms hms hvacant).tearDown,
    fun hf => ?_, fun hf p hp hpolicy x hx => ?_, fun k => ?_, fun p hp hpolicy x hx => ?_, fun k hk hlive hawaited => ?_⟩
  · exact ⟨_, hh.advance.task, hh.splits.whole_resume _ _ ▸ (Teardown.resume_gentle _ hh.gentle _).2⟩
  · have hbehind := hh.splits.ended ((Parting.whole_isFinished _).mp hf)
    obtain ⟨before, horder, hgone⟩ := hh.splits.split
    rw [hbehind, List.append_nil] at horder
    exact ⟨hbehind, horder ▸ hgone⟩
  · have hmem : x.2.serial ∈ Hub.doomed host := by
      refine List.mem_map_of_mem (List.mem_flatMap.mpr ⟨p, hp, ?_⟩)
      rw [Provider.doomed, hpolicy]
      exact List.mem_map_of_mem hx
    have hdone : x.2.serial ∈ ((begin h n host order).run ms).hub.ledger.destroyed :=
      (hh.owed _ hmem).resolve_left (by rw [Teardown.pending_of_isFinished hf]; exact List.not_mem_nil)
    have hbefore := count_tally hs x.2.serial
    have hafter := count_tally hh.sound x.2.serial
    have hone := List.count_pos_iff.mpr (hregistered p hp x hx)
    have hpos := List.count_pos_iff.mpr hdone
    omega
  · have honce := count_tally hh.sound k
    omega
  · have hbuilt : x.2.serial < h.ledger.built.length :=
      hs.built _ (List.mem_append_left _ (hregistered p hp x hx))
    have hcount := Hub.count_tearDownIn hn ho x.2.serial
    have hdetached := detached_count hp hpolicy hx
    have honce := List.nodup_iff_count_le_one.mp hs.once x.2.serial
    exact not_destroyed hlater (Nat.lt_of_lt_of_le hbuilt hbegin.grows.built) (by simp only [begin]; omega)
  · by_cases hdestroyed : k ∈ h.ledger.destroyed
    · have hbefore := count_tally hs k
      have hpos := List.count_pos_iff.mpr hdestroyed
      rw [((hbegin.trans hlater).destroyed_once hs hdestroyed).1]
      omega
    · have hnone : h.tally.count k = 0 := by
        simp only [Hub.tally, List.count_append, List.count_eq_zero.mpr hlive, List.count_eq_zero.mpr hawaited,
          List.count_eq_zero.mpr hdestroyed]
      rw [not_destroyed (hbegin.trans hlater) hk hnone, List.count_eq_zero.mpr hdestroyed]

/-- A host that was built up in whatever way is torn down in whatever order its tables give, amid whatever else
happens: every sequencer of a provider that destroys is destroyed once, and no other one. -/
theorem tearDown_clears (supply : Nat → SequencerId) (earlier : List Hub.Move)
    (hh : h = ({ ledger := { supply } } : Hub).steps earlier) (hn : h.hosts[n]? = some host)
    (ho : Shuffles host.providers order) (hg : ∀ p ∈ host.providers, ∀ i ∈ p.doomed, i.Gentle) (ms : List Move) :
    (begin h n host host.providers).hub = h.step (.tearDown n) ∧
      Cleared h n host order ms ((begin h n host order).run ms) := by
  have hempty : ({ ledger := { supply } } : Hub).Sound := ⟨List.forall_mem_nil _, List.nodup_nil, List.forall_mem_nil _⟩
  have hs : h.Sound := hh ▸ hempty.of_conserves (hempty.steps earlier)
  exact ⟨(Hub.step_tearDown hn).symm, ((begin_holds hs hn ho hg).run ms).cleared hs hn ho ms⟩

end Cleared

def mortal (script : Script Bool) : Backend where
  sayHello := fun _ => ⟨[], none⟩
  computeSum := fun _ x _ => ⟨[], .ok x⟩
  destroy := fun _ => script

def slow : Script Bool := ⟨[.await "door"], .ok true⟩
def failing : Script Bool := ⟨[], .failed ⟨"no", []⟩⟩

def mortals : Factory :=
  ⟨[("failing", ⟨fun _ _ => ⟨[], .ok (mortal failing)⟩, fun _ _ => ⟨[], .ok (mortal failing)⟩⟩),
    ("slow", ⟨fun _ _ => ⟨[], .ok (mortal slow)⟩, fun _ _ => ⟨[], .ok (mortal slow)⟩⟩)]⟩

/-- Of the first provider, which destroys its sequencers, the third one has been closed. -/
def manned : List Hub.Move :=
  [.addHost "local://trials", .provide 0 { teardown := .destroy } mortals, .provide 0 { providerId := 1 } mortals,
    .send (.direct 0) 0 (.construct .create "" "slow" "\x7b\x7d"), .advance 0,
    .send (.direct 0) 0 (.construct .create "" "failing" "\x7b\x7d"), .advance 1,
    .send (.direct 0) 0 (.construct .create "" "slow" "\x7b\x7d"), .advance 2,
    .send (.direct 0) 1 (.construct .attach "" "slow" "\x7b\x7d"), .advance 3,
    .send (.direct 0) 0 (.close "" (.ofNat 2)), .advance 4]

def crew : Host where
  address := "local://trials"
  providers := [
    { options := { teardown := .destroy }, factory := mortals,
      live := [(.ofNat 0, ⟨0, mortal slow⟩), (.ofNat 1, ⟨1, mortal failing⟩)] },
    { options := { providerId := 1 }, factory := mortals, live := [(.ofNat 3, ⟨3, mortal slow⟩)] }]

/-- While the first destruction waits, a greeting is sent and the host is torn down once more. -/
def disturbed : List Move :=
  [.hub (.send (.direct 0) 0 (.sayHello (.ofNat 1))) (by simp), .hub (.tearDown 0) (by simp), .gates ["door"],
    .hub (.advance 5) (Hub.advance_single 5)]

theorem tearDown_clears_crew :
    (({ ledger := { supply := SequencerId.ofNat } } : Hub).steps manned).hosts[0]? = some crew ∧
      Cleared (({ ledger := { supply := SequencerId.ofNat } } : Hub).steps manned) 0 crew crew.providers.reverse disturbed
        ((begin (({ ledger := { supply := SequencerId.ofNat } } : Hub).steps manned) 0 crew crew.providers.reverse).run
          disturbed) ∧
      ((begin (({ ledger := { supply := SequencerId.ofNat } } : Hub).steps manned) 0 crew crew.providers.reverse).run
          disturbed).hub.ledger.destroyed = [0, 1] := by
  have hcrew : (({ ledger := { supply := SequencerId.ofNat } } : Hub).steps manned).hosts[0]? = some crew := by
    with_unfolding_all rfl
  have horder : Shuffles crew.providers crew.providers.reverse :=
    ⟨crew.providers.reverse, crew.providers.reverse_perm, List.forall₂_same.mpr fun _ _ => ⟨rfl, .refl _⟩⟩
  have hgentle : ∀ p ∈ crew.providers, ∀ i ∈ p.doomed, i.Gentle := by
    intro p hp i hi
    simp only [crew, List.mem_cons, List.not_mem_nil, or_false] at hp
    obtain rfl | rfl := hp
    · simp only [Provider.doomed, List.map_cons, List.map_nil, List.mem_cons, List.not_mem_nil, or_false] at hi
      obtain rfl | rfl := hi <;> exact fun _ _ h => by cases h
    · exact absurd hi List.not_mem_nil
  exact ⟨hcrew, (tearDown_clears SequencerId.ofNat manned rfl hcrew horder hgentle disturbed).2, by decide +kernel⟩

end Clearance
end SequencerHub
