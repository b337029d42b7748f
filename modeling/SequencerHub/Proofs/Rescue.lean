import SequencerHub.Proofs.Decisions
import SequencerHub.Proofs.Hosting

/-! The same code with an error in place of one panic. Up to the call in question and after it, providers and hosts do
the same with either code. -/
namespace SequencerHub

/-- One call among all that are made: a constructor, by how many were called before it, or a call of an instance, by
how many calls that instance has had before it. -/
inductive Occasion
  | construction (nth : Nat)
  | call (serial nth : Nat)
  deriving DecidableEq

def Occasion.IsPast (l : Ledger) : Occasion → Prop
  | construction nth => nth < l.built.length
  | call serial nth => nth < (l.history serial).length

/-- A call that is not to panic, and the error with which it is to fail instead. -/
structure Rescue where
  occasion : Occasion
  error : ErrorChain

namespace Occasion

variable {occasion : Occasion} {l l' l'' : Ledger}

theorem IsPast.mono (h : occasion.IsPast l) (hl : l.Grows l') : occasion.IsPast l' := by
  cases occasion with
  | construction nth => exact Nat.lt_of_lt_of_le h hl.built
  | call serial nth => exact Nat.lt_of_lt_of_le h ((hl.calls.filter _).map _).length_le

/-- Whether the call is none of those that are made from one moment to another. -/
def Outside (occasion : Occasion) (l l' : Ledger) : Prop := occasion.IsPast l ∨ ¬ occasion.IsPast l'

theorem Outside.mono (h : occasion.Outside l l') {l₁ l₁' : Ledger} (hl : l.Grows l₁) (hl' : l₁'.Grows l') :
    occasion.Outside l₁ l₁' :=
  h.imp (·.mono hl) fun hn hp => hn (hp.mono hl')

theorem Outside.left (h : occasion.Outside l l'') (hl : l'.Grows l'') : occasion.Outside l l' := h.mono (.refl l) hl

theorem Outside.right (h : occasion.Outside l l'') (hl : l.Grows l') : occasion.Outside l' l'' := h.mono hl (.refl l'')

theorem Outside.ne_construction (h : occasion.Outside l l') (hl : l.built.length < l'.built.length) :
    occasion ≠ .construction l.built.length := by
  rintro rfl
  exact h.elim (Nat.lt_irrefl _) fun hn => hn hl

theorem isPast_called (l : Ledger) (serial : Nat) (c : Call) :
    (call serial (l.history serial).length).IsPast (l.called serial c) := by
  simp [IsPast, Ledger.history, Ledger.called]

theorem Outside.ne_call (h : occasion.Outside l l') {i : Instance} {c : Call} (hl : (l.called i.serial c).Grows l') :
    occasion ≠ .call i.serial (l.history i.serial).length := by
  rintro rfl
  exact h.elim (Nat.lt_irrefl _) fun hn => hn ((isPast_called l i.serial c).mono hl)

end Occasion

section Backend

def Outcome.rescued {α : Type} (e : ErrorChain) : Outcome α → Outcome α
  | .panicked _ => .failed e
  | o => o

def Script.rescued {α : Type} (e : ErrorChain) (s : Script α) : Script α := { s with outcome := s.outcome.rescued e }

/-- The backend whose call of a number does not panic. A greeting, which cannot fail, ends well. -/
def Backend.rescued (nth : Nat) (e : ErrorChain) (b : Backend) : Backend where
  sayHello calls := if calls.length = nth then { b.sayHello calls with panic := none } else b.sayHello calls
  computeSum calls x y := if calls.length = nth then (b.computeSum calls x y).rescued e else b.computeSum calls x y
  destroy calls := if calls.length = nth then (b.destroy calls).rescued e else b.destroy calls

def Instance.rescued (r : Rescue) (i : Instance) : Instance :=
  match r.occasion with
  | .construction _ => i
  | .call serial nth => if i.serial = serial then { i with backend := i.backend.rescued nth r.error } else i

namespace Instance

variable {r : Rescue} {i : Instance} {calls : List Call}

@[simp] theorem serial_rescued : (i.rescued r).serial = i.serial := by
  unfold rescued
  split
  · rfl
  · split <;> rfl

theorem eta_rescued (r : Rescue) (serial : Nat) (b : Backend) :
    (⟨serial, (Instance.rescued r ⟨serial, b⟩).backend⟩ : Instance) = Instance.rescued r ⟨serial, b⟩ := by
  unfold rescued
  split
  · rfl
  · split <;> rfl

theorem backend_rescued_call (h : r.occasion = .call i.serial calls.length) :
    (i.rescued r).backend = i.backend.rescued calls.length r.error := by
  simp [rescued, h]

theorem sayHello_rescued_call (h : r.occasion = .call i.serial calls.length) :
    (i.rescued r).backend.sayHello calls = { i.backend.sayHello calls with panic := none } := by
  simp [backend_rescued_call h, Backend.rescued]

theorem computeSum_rescued_call (h : r.occasion = .call i.serial calls.length) (x y : Int32) :
    (i.rescued r).backend.computeSum calls x y = (i.backend.computeSum calls x y).rescued r.error := by
  simp [backend_rescued_call h, Backend.rescued]

theorem destroy_rescued_call (h : r.occasion = .call i.serial calls.length) :
    (i.rescued r).backend.destroy calls = (i.backend.destroy calls).rescued r.error := by
  simp [backend_rescued_call h, Backend.rescued]

/-- All other calls are as they were. -/
theorem rescued_cases (h : r.occasion ≠ .call i.serial calls.length) : (i.rescued r).backend = i.backend ∨
    ∃ nth, calls.length ≠ nth ∧ (i.rescued r).backend = i.backend.rescued nth r.error := by
  unfold rescued
  split
  · exact .inl rfl
  · rename_i serial nth hs
    split
    · rename_i hi
      exact .inr ⟨nth, fun hn => h (by rw [hs, hi, hn]), rfl⟩
    · exact .inl rfl

theorem sayHello_rescued (h : r.occasion ≠ .call i.serial calls.length) :
    (i.rescued r).backend.sayHello calls = i.backend.sayHello calls := by
  obtain hb | ⟨nth, hn, hb⟩ := rescued_cases h
  · rw [hb]
  · simp [hb, Backend.rescued, hn]

theorem computeSum_rescued (h : r.occasion ≠ .call i.serial calls.length) :
    (i.rescued r).backend.computeSum calls = i.backend.computeSum calls := by
  obtain hb | ⟨nth, hn, hb⟩ := rescued_cases h
  · rw [hb]
  · simp [hb, Backend.rescued, hn]

theorem destroy_rescued (h : r.occasion ≠ .call i.serial calls.length) :
    (i.rescued r).backend.destroy calls = i.backend.destroy calls := by
  obtain hb | ⟨nth, hn, hb⟩ := rescued_cases h
  · rw [hb]
  · simp [hb, Backend.rescued, hn]

end Instance

def Outcome.map {α β : Type} (f : α → β) : Outcome α → Outcome β
  | .ok v => .ok (f v)
  | .failed e => .failed e
  | .panicked q => .panicked q

/-- The constructor that does not panic, if it is the one in question, and builds backends that do not. -/
def Constructor.rescued (r : Rescue) (c : Constructor) : Constructor := fun nth args =>
  let made := c nth args
  let outcome := if r.occasion = .construction nth then made.outcome.rescued r.error else made.outcome
  { made with outcome := outcome.map fun b => (Instance.rescued r ⟨nth, b⟩).backend }

def Constructors.rescued (r : Rescue) (c : Constructors) : Constructors :=
  ⟨Constructor.rescued r c.create, Constructor.rescued r c.attach⟩

theorem Constructors.pick_rescued (r : Rescue) (c : Constructors) (how : Construction) :
    (c.rescued r).pick how = Constructor.rescued r (c.pick how) := by
  cases how <;> rfl

def Factory.rescued (r : Rescue) (f : Factory) : Factory := ⟨f.types.map fun x => (x.1, x.2.rescued r)⟩

theorem Factory.find?_rescued (r : Rescue) (f : Factory) (name : String) :
    (f.rescued r).find? name = (f.find? name).map (Constructors.rescued r) := by
  simp only [find?, rescued, List.find?_map, Option.map_map]
  rfl

end Backend

def Registry.rescued (r : Rescue) (reg : Registry) : Registry := reg.map fun x => (x.1, x.2.rescued r)

namespace Registry

variable (r : Rescue) (reg : Registry)

theorem find?_rescued (id : SequencerId) : (reg.rescued r).find? id = (reg.find? id).map (Instance.rescued r) := by
  simp only [find?, rescued, List.find?_map, Option.map_map]
  rfl

theorem erase_rescued (id : SequencerId) : (reg.rescued r).erase id = (reg.erase id).rescued r := by
  simp only [erase, rescued, List.filter_map]
  rfl

theorem insert_rescued (id : SequencerId) (i : Instance) :
    (reg.rescued r).insert id (i.rescued r) = (reg.insert id i).rescued r := by
  rw [insert, erase_rescued, insert, rescued, rescued, List.map_append]
  rfl

@[simp] theorem ids_rescued : (reg.rescued r).ids = reg.ids := by
  simp [ids, rescued, Function.comp_def]

@[simp] theorem isEmpty_rescued : (reg.rescued r).isEmpty = reg.isEmpty := by
  simp [rescued]

@[simp] theorem length_rescued : (reg.rescued r).length = reg.length := by
  simp [rescued]

end Registry

namespace Provider

def rescued (r : Rescue) (p : Provider) : Provider :=
  { p with factory := p.factory.rescued r, live := p.live.rescued r }

variable {r : Rescue} {p : Provider}

@[simp] theorem id_rescued : (p.rescued r).id = p.id := rfl

@[simp] theorem options_rescued : (p.rescued r).options = p.options := rfl

@[simp] theorem factory_rescued : (p.rescued r).factory = p.factory.rescued r := rfl

@[simp] theorem live_rescued : (p.rescued r).live = p.live.rescued r := rfl

@[simp] theorem admits_rescued (token : String) : (p.rescued r).admits token = p.admits token := rfl

@[simp] theorem describe_rescued : (p.rescued r).describe = p.describe := by
  simp only [describe, rescued, Registry.ids_rescued]
  rfl

theorem build_rescued {l : Ledger} (h : r.occasion ≠ .construction l.built.length) (how : Construction)
    (sequencerType : String) (c : Constructors) (config : Json) :
    (p.rescued r).build how sequencerType (c.rescued r) config l =
      ((p.build how sequencerType c config l).1.rescued r, (p.build how sequencerType c config l).2) := by
  simp only [build, Constructors.pick_rescued, Constructor.rescued, if_neg h, id_rescued]
  cases hm : (c.pick how l.built.length ⟨p.id, config⟩).outcome with
  | ok b =>
    simp only [Outcome.map, enlist, Instance.eta_rescued, rescued, ← Registry.insert_rescued]
    rfl
  | failed e => simp [Outcome.map]
  | panicked q => simp [Outcome.map]

theorem construct_rescued {l : Ledger} (how : Construction) (token sequencerType config : String)
    (h : r.occasion.Outside l (p.construct how token sequencerType config l).2.2) :
    (p.rescued r).construct how token sequencerType config l =
      ((p.construct how token sequencerType config l).1.rescued r, (p.construct how token sequencerType config l).2) := by
  by_cases ht : p.admits token = true
  · simp only [construct, admits_rescued, ht, if_true, factory_rescued, Factory.find?_rescued] at h ⊢
    cases hf : p.factory.find? sequencerType with
    | none => rfl
    | some c =>
      cases hj : parseConfig config with
      | error e => rfl
      | ok j =>
        simp only [hf, hj] at h
        exact build_rescued (h.ne_construction (by rw [length_built_build]; exact Nat.lt_succ_self _)) ..
  · simp [construct, ht]

theorem close_rescued (token : String) (id : SequencerId) (l : Ledger) :
    (p.rescued r).close token id l = ((p.close token id l).1.rescued r, (p.close token id l).2) := by
  simp only [close, admits_rescued, live_rescued, Registry.find?_rescued]
  split
  · cases p.live.find? id with
    | none => rfl
    | some i => simp [rescued, Registry.erase_rescued, Provider.id]
  · rfl

theorem destroy_rescued {l : Ledger} (token : String) (id : SequencerId)
    (h : r.occasion.Outside l (p.destroy token id l).2.2) :
    (p.rescued r).destroy token id l = ((p.destroy token id l).1.rescued r, (p.destroy token id l).2) := by
  by_cases ht : p.admits token = true
  · simp only [destroy, admits_rescued, ht, if_true, live_rescued, Registry.find?_rescued] at h ⊢
    cases hf : p.live.find? id with
    | none => rfl
    | some i =>
      rw [hf] at h
      simp [Instance.destroy_rescued (h.ne_call (.refl _)), rescued, Registry.erase_rescued]
  · simp [destroy, ht]

theorem sayHello_rescued {l : Ledger} (id : SequencerId) (h : r.occasion.Outside l (p.sayHello id l).2) :
    (p.rescued r).sayHello id l = p.sayHello id l := by
  simp only [sayHello, live_rescued, Registry.find?_rescued] at h ⊢
  cases hf : p.live.find? id with
  | none => rfl
  | some i =>
    have hg : (l.called i.serial .hello).Grows (p.sayHello id l).2 := by
      simp only [sayHello, hf]
      split <;> exact (Ledger.sameBooks_recordedAll _ _).grows
    simp [Instance.sayHello_rescued (h.ne_call hg)]

theorem computeSum_rescued {l : Ledger} (id : SequencerId) (x y : Int32)
    (h : r.occasion.Outside l (p.computeSum id x y l).2) :
    (p.rescued r).computeSum id x y l = p.computeSum id x y l := by
  simp only [computeSum, live_rescued, Registry.find?_rescued] at h ⊢
  cases hf : p.live.find? id with
  | none => rfl
  | some i =>
    rw [hf] at h
    simp [Instance.computeSum_rescued (h.ne_call (.refl _))]

theorem serve_rescued (q : Request) {l : Ledger} (h : r.occasion.Outside l (p.serve q l).2.2) :
    (p.rescued r).serve q l = ((p.serve q l).1.rescued r, (p.serve q l).2) := by
  cases q with
  | construct how token sequencerType config => exact construct_rescued how token sequencerType config h
  | close token id => exact close_rescued token id l
  | destroy token id => exact destroy_rescued token id h
  | check id =>
    simp only [serve, check, live_rescued, Registry.find?_rescued]
    cases p.live.find? id <;> rfl
  | sayHello id => exact congrArg (p.rescued r, ·) (sayHello_rescued id h)
  | computeSum id x y => exact congrArg (p.rescued r, ·) (computeSum_rescued id x y h)

theorem handle_rescued (q : Request) {l : Ledger} (h : r.occasion.Outside l (p.handle q l).2.2) :
    (p.rescued r).handle q l = ((p.handle q l).1.rescued r, (p.handle q l).2) := by
  have hs : r.occasion.Outside (l.logged (.handling p.id q.op)) (p.serve q (l.logged (.handling p.id q.op))).2.2 :=
    h.mono (l.sameBooks_logged _).grows (Ledger.sameBooks_loggedAll _ _).grows
  simp only [handle, id_rescued, serve_rescued q hs]
  rfl

end Provider

namespace Teardown

variable (r : Rescue) (opened : Gates)

def Progress.rescued : Progress → Progress
  | waiting id acts outcome instances => waiting id acts outcome (instances.rescued r)
  | progress => progress

def rescued : Teardown → Teardown
  | waiting providerId id acts outcome instances providers =>
    waiting providerId id acts outcome (instances.rescued r) (providers.map (Provider.rescued r))
  | t => t

theorem ofProgress_rescued (providerId : UInt16) (providers : List Provider) (progress : Progress) :
    ofProgress providerId (providers.map (Provider.rescued r)) (progress.rescued r) =
      (ofProgress providerId providers progress).map (rescued r) := by
  cases progress <;> rfl

theorem runCall_rescued (providerId : UInt16) (id : SequencerId) (acts : List Act) (outcome : Outcome Bool)
    (instances : Registry) (l : Ledger) : runCall opened providerId id acts outcome (instances.rescued r) l =
      ((runCall opened providerId id acts outcome instances l).1.rescued r,
        (runCall opened providerId id acts outcome instances l).2) := by
  simp only [runCall]
  split
  · cases outcome <;> rfl
  · rfl

variable {r}

theorem destroyAll_rescued (providerId : UInt16) (reg : Registry) {l : Ledger}
    (h : r.occasion.Outside l (destroyAll opened providerId reg l).2) :
    destroyAll opened providerId (reg.rescued r) l =
      ((destroyAll opened providerId reg l).1.rescued r, (destroyAll opened providerId reg l).2) := by
  induction reg generalizing l with
  | nil => rfl
  | cons x more ih =>
    obtain ⟨id, i⟩ := x
    have hg := runCall_grows opened providerId id (i.backend.destroy (l.history i.serial)).acts
      (i.backend.destroy (l.history i.serial)).outcome more (l.called i.serial .destroy)
    have hc := runCall_rescued r opened providerId id (i.backend.destroy (l.history i.serial)).acts
      (i.backend.destroy (l.history i.serial)).outcome more (l.called i.serial .destroy)
    have hne : r.occasion ≠ .call i.serial (l.history i.serial).length := by
      refine h.ne_call (hg.trans ?_)
      simp only [destroyAll]
      split
      · rename_i l' heq
        exact heq ▸ (destroyAll_discharges opened providerId more l').grows
      · exact .refl _
    change destroyAll opened providerId ((id, i.rescued r) :: Registry.rescued r more) l = _
    simp only [destroyAll, Instance.serial_rescued, Instance.destroy_rescued hne, hc] at h ⊢
    generalize runCall opened providerId id (i.backend.destroy (l.history i.serial)).acts
      (i.backend.destroy (l.history i.serial)).outcome more (l.called i.serial .destroy) = ran at hg h
    obtain ⟨progress, l'⟩ := ran
    cases progress with
    | finished => exact ih (h.right ((l.grows_called ..).trans hg))
    | panicked q => rfl
    | waiting => rfl

theorem dismiss_rescued (p : Provider) {l : Ledger}
    (h : r.occasion.Outside l (dismiss opened p.options p.live l).2) :
    dismiss opened p.options (p.live.rescued r) l =
      ((dismiss opened p.options p.live l).1.rescued r, (dismiss opened p.options p.live l).2) := by
  unfold dismiss at h ⊢
  cases hp : p.options.teardown with
  | destroy =>
    rw [hp] at h
    exact destroyAll_rescued opened p.options.providerId p.live h
  | detach =>
    simp only [Registry.isEmpty_rescued, Registry.length_rescued]
    rfl

theorem all_rescued (providers : List Provider) {l : Ledger} (h : r.occasion.Outside l (all opened providers l).2) :
    all opened (providers.map (Provider.rescued r)) l =
      ((all opened providers l).1.rescued r, (all opened providers l).2) := by
  induction providers generalizing l with
  | nil => rfl
  | cons p more ih =>
    have hg := (dismiss_discharges opened p (l.logged (.tearingDown p.id))).grows
    have hl := (l.sameBooks_logged (.tearingDown p.id)).grows
    have hd : r.occasion.Outside (l.logged (.tearingDown p.id))
        (dismiss opened p.options p.live (l.logged (.tearingDown p.id))).2 := by
      refine (h.right hl).left ?_
      simp only [all]
      split
      · exact (all_discharges opened more _).grows
      · exact .refl _
    simp only [all, List.map_cons, Provider.id_rescued, Provider.options_rescued, Provider.live_rescued,
      dismiss_rescued opened p hd, ofProgress_rescued] at h ⊢
    generalize dismiss opened p.options p.live (l.logged (.tearingDown p.id)) = dismissed at hg h
    obtain ⟨progress, l'⟩ := dismissed
    cases progress with
    | finished => exact ih (h.right (hl.trans hg))
    | panicked q => rfl
    | waiting => rfl

theorem resume_rescued (t : Teardown) {l : Ledger} (h : r.occasion.Outside l (t.resume opened l).2) :
    (t.rescued r).resume opened l = ((t.resume opened l).1.rescued r, (t.resume opened l).2) := by
  cases t with
  | finished => rfl
  | panicked q => rfl
  | waiting providerId id acts outcome instances providers =>
    have hg := runCall_grows opened providerId id acts outcome instances l
    simp only [resume, rescued, runCall_rescued] at h ⊢
    generalize runCall opened providerId id acts outcome instances l = ran at hg h
    obtain ⟨progress, l₁⟩ := ran
    cases progress with
    | panicked q => rfl
    | waiting => rfl
    | finished =>
      have hd := (destroyAll_discharges opened providerId instances l₁).grows
      have ho : r.occasion.Outside l₁ (destroyAll opened providerId instances l₁).2 := by
        refine (h.right hg).left ?_
        dsimp only
        split
        · exact (all_discharges opened providers _).grows
        · exact .refl _
      simp only [Progress.rescued, destroyAll_rescued opened providerId instances ho] at h ⊢
      generalize destroyAll opened providerId instances l₁ = done at hd h
      obtain ⟨progress, l₂⟩ := done
      cases progress with
      | finished => exact all_rescued opened providers (h.right (hg.trans hd))
      | panicked q => rfl
      | waiting => rfl

theorem tearDown_rescued (p : Provider) {l : Ledger} (h : r.occasion.Outside l (p.tearDown opened l).2.2) :
    (p.rescued r).tearDown opened l =
      ((p.tearDown opened l).1.rescued r, (p.tearDown opened l).2.1.rescued r, (p.tearDown opened l).2.2) := by
  have hd : r.occasion.Outside l (dismiss opened p.options p.live l).2 := h
  simp only [Provider.tearDown, Provider.id_rescued, Provider.options_rescued, Provider.live_rescued,
    dismiss_rescued opened p hd]
  obtain ⟨progress, l'⟩ := dismiss opened p.options p.live l
  cases progress <;> rfl

end Teardown

namespace Host

def rescued (r : Rescue) (h : Host) : Host := h.each (Provider.rescued r)

section

variable (r : Rescue) (h : Host)

theorem find?_rescued (id : UInt16) : (h.rescued r).find? id = (h.find? id).map (Provider.rescued r) :=
  h.find?_each (Provider.rescued r) (fun _ => rfl) id

theorem put_rescued (p : Provider) : (h.rescued r).put (p.rescued r) = (h.put p).rescued r :=
  h.put_each (Provider.rescued r) (fun _ => rfl) p

theorem register_rescued (p : Provider) (l : Ledger) :
    (h.rescued r).register (p.rescued r) l = (h.register p l).map fun x => (x.1.rescued r, x.2) :=
  h.register_each (Provider.rescued r) (fun _ => rfl) p l

theorem deregister_rescued (id : UInt16) (l : Ledger) : (h.rescued r).deregister id l =
    ((h.deregister id l).1.map (Provider.rescued r), (h.deregister id l).2.1.rescued r, (h.deregister id l).2.2) :=
  h.deregister_each (Provider.rescued r) (fun _ => rfl) id l

end

theorem tearDown_rescued {r : Rescue} {h : Host} (opened : Gates) {l : Ledger}
    (ho : r.occasion.Outside l (h.tearDown opened l).2.2) : (h.rescued r).tearDown opened l =
      ((h.tearDown opened l).1.rescued r, (h.tearDown opened l).2.1.rescued r, (h.tearDown opened l).2.2) := by
  have ha : r.occasion.Outside l (Teardown.all opened h.providers l).2 := ho
  simp [tearDown, rescued, each, Teardown.all_rescued opened h.providers ha]

end Host

namespace Hosting

def rescued (r : Rescue) (s : Hosting) : Hosting :=
  { s with host := s.host.rescued r, teardowns := s.teardowns.map (Teardown.rescued r) }

def Move.rescued (r : Rescue) : Move → Move
  | .provide o f => .provide o (f.rescued r)
  | m => m

theorem step_grows (s : Hosting) (m : Move) : s.ledger.Grows (s.step m).ledger := by
  cases m with
  | provide o f =>
    have hl := s.ledger.sameBooks_logged (.providerCreated o)
    simp only [step, Host.register]
    cases s.host.find? (Provider.id { options := o, factory := f }) with
    | some q => exact hl.grows
    | none => exact (hl.trans (Ledger.sameBooks_logged _ _)).grows
  | deregister id =>
    simp only [step, Host.deregister]
    split
    · exact .refl _
    · exact (s.ledger.sameBooks_logged _).grows
  | request id q opened =>
    cases hp : s.host.find? id with
    | none =>
      simp only [step, Host.dispatch, hp]
      exact .refl _
    | some p =>
      simp only [step, s.host.dispatch_of_find? hp]
      exact (p.handle_served q s.ledger).grows.trans (Host.sameBooks_dispatch p id opened q s.ledger).grows
  | resume n opened => exact (s.sameBooks_resume n opened).grows
  | tearDownOne id opened =>
    simp only [step]
    split
    · exact .refl _
    · rename_i p hp
      exact (Teardown.tearDown_discharges opened p s.ledger).grows
  | tearDown opened => exact (Teardown.all_discharges opened s.host.providers s.ledger).grows
  | resumeTeardown n opened =>
    simp only [step]
    split
    · exact .refl _
    · rename_i t ht
      exact (Teardown.resume_discharges opened t s.ledger).grows
  | requestShutdown =>
    simp only [step, Host.requestShutdown]
    split
    · exact .refl _
    · exact (s.ledger.sameBooks_logged _).grows

theorem run_grows (s : Hosting) (ms : List Move) : s.ledger.Grows (s.run ms).ledger := by
  induction ms generalizing s with
  | nil => exact .refl _
  | cons m ms ih => exact (s.step_grows m).trans (ih _)

/-- Every move that does not make the call in question comes to the same with either code. -/
theorem step_rescued {r : Rescue} {s : Hosting} {m : Move} (h : r.occasion.Outside s.ledger (s.step m).ledger) :
    (s.rescued r).step (m.rescued r) = (s.step m).rescued r := by
  cases m with
  | provide o f =>
    have hp : ({ options := o, factory := f.rescued r } : Provider) = Provider.rescued r { options := o, factory := f } :=
      rfl
    simp only [step, Move.rescued, rescued, hp, Host.register_rescued]
    cases s.host.register { options := o, factory := f } (s.ledger.logged (.providerCreated o)) <;> rfl
  | deregister id =>
    simp only [step, Move.rescued, rescued, Host.deregister_rescued]
  | request id q opened =>
    simp only [step, Move.rescued, rescued] at h ⊢
    cases hp : s.host.find? id with
    | none =>
      have hp' : (s.host.rescued r).find? id = none := by rw [s.host.find?_rescued, hp, Option.map_none]
      simp only [Host.dispatch, hp, hp']
    | some p =>
      have hp' : (s.host.rescued r).find? id = some (p.rescued r) := by
        rw [s.host.find?_rescued, hp, Option.map_some]
      simp only [s.host.dispatch_of_find? hp] at h
      have hh := p.handle_rescued q (h.left (Host.sameBooks_dispatch p id opened q s.ledger).grows)
      simp only [Host.dispatch_of_find? _ hp, Host.dispatch_of_find? _ hp', hh, Host.put_rescued]
  | resume n opened =>
    simp only [step, Move.rescued, rescued]
    split <;> rfl
  | tearDownOne id opened =>
    simp only [step, Move.rescued, rescued, s.host.find?_rescued] at h ⊢
    cases hp : s.host.find? id with
    | none => rfl
    | some p =>
      simp only [hp] at h
      simp [Teardown.tearDown_rescued opened p h, Host.put_rescued]
  | tearDown opened => simp [step, Move.rescued, rescued, Host.tearDown_rescued opened h]
  | resumeTeardown n opened =>
    simp only [step, Move.rescued, rescued, List.getElem?_map] at h ⊢
    cases ht : s.teardowns[n]? with
    | none => rfl
    | some t =>
      simp only [ht] at h
      simp [Teardown.resume_rescued opened t h]
  | requestShutdown => rfl

theorem run_rescued {r : Rescue} {s : Hosting} {ms : List Move}
    (h : r.occasion.Outside s.ledger (s.run ms).ledger) :
    (s.rescued r).run (ms.map (Move.rescued r)) = (s.run ms).rescued r := by
  induction ms generalizing s with
  | nil => rfl
  | cons m ms ih =>
    have hm : r.occasion.Outside s.ledger (s.step m).ledger := h.left ((s.step m).run_grows ms)
    have hms : r.occasion.Outside (s.step m).ledger ((s.step m).run ms).ledger := h.right (s.step_grows m)
    rw [List.map_cons, run, List.foldl_cons, step_rescued hm]
    exact ih hms

end Hosting
end SequencerHub
