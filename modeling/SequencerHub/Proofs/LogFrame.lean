import SequencerHub.Host.Basic
import SequencerHub.Proofs.Traffic

/-! Nobody reads the log. Whatever was logged before an operation stays in front of what the operation logs, and
makes no difference to anything else. -/
namespace SequencerHub

def Ledger.behind (l : Ledger) (earlier : List LogEvent) : Ledger := { l with log := earlier ++ l.log }

namespace Ledger

variable (l : Ledger) (earlier : List LogEvent)

@[simp] theorem behind_nil : l.behind [] = l := rfl

@[simp] theorem behind_log : (l.behind earlier).log = earlier ++ l.log := rfl

@[simp] theorem history_behind (serial : Nat) : (l.behind earlier).history serial = l.history serial := rfl

@[simp] theorem nextId_behind : (l.behind earlier).nextId = l.nextId := rfl

@[simp] theorem built_behind : (l.behind earlier).built = l.built := rfl

@[simp] theorem called_behind (serial : Nat) (c : Call) :
    (l.behind earlier).called serial c = (l.called serial c).behind earlier := rfl

@[simp] theorem constructed_behind (b : Built) :
    (l.behind earlier).constructed b = (l.constructed b).behind earlier := rfl

@[simp] theorem mint_behind : (l.behind earlier).mint = l.mint.behind earlier := rfl

@[simp] theorem logged_behind (e : LogEvent) : (l.behind earlier).logged e = (l.logged e).behind earlier := by
  simp [behind, logged]

@[simp] theorem recorded_behind (e : Effect) : (l.behind earlier).recorded e = (l.recorded e).behind earlier := by
  cases e with
  | note entry => rfl
  | log e => exact l.logged_behind earlier e

theorem foldl_behind {α : Type} {f : Ledger → α → Ledger}
    (hf : ∀ l x, f (l.behind earlier) x = (f l x).behind earlier) (xs : List α) :
    xs.foldl f (l.behind earlier) = (xs.foldl f l).behind earlier := by
  induction xs generalizing l with
  | nil => rfl
  | cons x xs ih => rw [List.foldl_cons, hf, ih, List.foldl_cons]

@[simp] theorem recordedAll_behind (effects : List Effect) :
    (l.behind earlier).recordedAll effects = (l.recordedAll effects).behind earlier :=
  l.foldl_behind earlier (fun l => l.recorded_behind earlier) effects

@[simp] theorem loggedAll_behind (events : List LogEvent) :
    events.foldl logged (l.behind earlier) = (events.foldl logged l).behind earlier :=
  l.foldl_behind earlier (fun l => l.logged_behind earlier) events

end Ledger

section Work

variable (earlier : List LogEvent) (opened : Gates)

@[simp] theorem runActs_behind (acts : List Act) (l : Ledger) :
    runActs opened acts (l.behind earlier) = ((runActs opened acts l).1, (runActs opened acts l).2.behind earlier) := by
  induction acts generalizing l with
  | nil => rfl
  | cons a acts ih =>
    cases a with
    | effect e => simp [runActs, ih]
    | await g =>
      simp only [runActs]
      split
      · exact ih l
      · rfl

@[simp] theorem Work.resume_behind (providerId : UInt16) (w : Work) (l : Ledger) :
    w.resume opened providerId (l.behind earlier) =
      ((w.resume opened providerId l).1, (w.resume opened providerId l).2.behind earlier) := by
  cases w with
  | ended e => rfl
  | summing acts outcome =>
    simp only [resume, runActs_behind]
    obtain ⟨left, l'⟩ := runActs opened acts l
    cases left <;> rfl
  | destroying id acts outcome =>
    simp only [resume, runActs_behind]
    obtain ⟨left, l'⟩ := runActs opened acts l
    cases left <;> simp

end Work

namespace Provider

variable (p : Provider) (earlier : List LogEvent) (l : Ledger)

theorem build_behind (how : Construction) (sequencerType : String) (c : Constructors) (config : Json) :
    p.build how sequencerType c config (l.behind earlier) =
      ((p.build how sequencerType c config l).1, (p.build how sequencerType c config l).2.1,
        (p.build how sequencerType c config l).2.2.behind earlier) := by
  simp only [build, Ledger.built_behind, Ledger.constructed_behind, Ledger.recordedAll_behind]
  split <;> simp [enlist]

theorem serve_behind (r : Request) : p.serve r (l.behind earlier) =
    ((p.serve r l).1, (p.serve r l).2.1, (p.serve r l).2.2.behind earlier) := by
  cases r with
  | construct how token sequencerType config =>
    simp only [serve, construct]
    split
    · split
      · rfl
      · split
        · rfl
        · exact p.build_behind earlier l _ _ _ _
    · simp
  | close token id =>
    simp only [serve, close]
    split
    · split <;> simp
    · simp
  | destroy token id =>
    simp only [serve, destroy]
    split
    · split <;> simp
    · simp
  | check id => rfl
  | sayHello id =>
    simp only [serve, sayHello]
    split
    · rfl
    · simp only [Ledger.history_behind, Ledger.called_behind, Ledger.recordedAll_behind]
      split <;> rfl
  | computeSum id x y =>
    simp only [serve, computeSum]
    split <;> simp

@[simp] theorem handle_behind (r : Request) : p.handle r (l.behind earlier) =
    ((p.handle r l).1, (p.handle r l).2.1, (p.handle r l).2.2.behind earlier) := by
  simp [handle, serve_behind]

end Provider

namespace Teardown

variable (earlier : List LogEvent) (opened : Gates)

@[simp] theorem runCall_behind (providerId : UInt16) (id : SequencerId) (acts : List Act) (outcome : Outcome Bool)
    (instances : Registry) (l : Ledger) : runCall opened providerId id acts outcome instances (l.behind earlier) =
      ((runCall opened providerId id acts outcome instances l).1,
        (runCall opened providerId id acts outcome instances l).2.behind earlier) := by
  simp only [runCall, runActs_behind]
  obtain ⟨left, l'⟩ := runActs opened acts l
  cases left with
  | nil => cases outcome <;> simp
  | cons a left => rfl

@[simp] theorem destroyAll_behind (providerId : UInt16) (r : Registry) (l : Ledger) :
    destroyAll opened providerId r (l.behind earlier) =
      ((destroyAll opened providerId r l).1, (destroyAll opened providerId r l).2.behind earlier) := by
  induction r generalizing l with
  | nil => rfl
  | cons x more ih =>
    obtain ⟨id, i⟩ := x
    simp only [destroyAll, Ledger.history_behind, Ledger.called_behind, runCall_behind]
    obtain ⟨progress, l'⟩ := runCall opened providerId id (i.backend.destroy (l.history i.serial)).acts
      (i.backend.destroy (l.history i.serial)).outcome more (l.called i.serial .destroy)
    cases progress with
    | finished => exact ih l'
    | panicked q => rfl
    | waiting => rfl

@[simp] theorem dismiss_behind (o : ProviderOptions) (drained : Registry) (l : Ledger) :
    dismiss opened o drained (l.behind earlier) =
      ((dismiss opened o drained l).1, (dismiss opened o drained l).2.behind earlier) := by
  simp only [dismiss]
  split
  · simp
  · split <;> simp

@[simp] theorem all_behind (providers : List Provider) (l : Ledger) : all opened providers (l.behind earlier) =
    ((all opened providers l).1, (all opened providers l).2.behind earlier) := by
  induction providers generalizing l with
  | nil => rfl
  | cons p more ih =>
    simp only [all, Ledger.logged_behind, dismiss_behind]
    split
    · exact ih _
    · rfl

@[simp] theorem resume_behind (t : Teardown) (l : Ledger) : t.resume opened (l.behind earlier) =
    ((t.resume opened l).1, (t.resume opened l).2.behind earlier) := by
  cases t with
  | finished => rfl
  | panicked q => rfl
  | waiting providerId id acts outcome instances providers =>
    simp only [resume, runCall_behind]
    obtain ⟨progress, l'⟩ := runCall opened providerId id acts outcome instances l
    cases progress with
    | finished =>
      simp only [destroyAll_behind]
      split <;> simp
    | panicked q => rfl
    | waiting => rfl

@[simp] theorem tearDown_behind (p : Provider) (l : Ledger) : p.tearDown opened (l.behind earlier) =
    ((p.tearDown opened l).1, (p.tearDown opened l).2.1, (p.tearDown opened l).2.2.behind earlier) := by
  simp [Provider.tearDown]

end Teardown

@[simp] theorem Dispatch.ofWork_behind (earlier : List LogEvent) (providerId : UInt16) (op : Operation) (w : Work)
    (l : Ledger) : ofWork providerId op w (l.behind earlier) =
      ((ofWork providerId op w l).1, (ofWork providerId op w l).2.behind earlier) := by
  cases w with
  | ended e => cases e <;> simp [ofWork]
  | summing acts outcome => rfl
  | destroying id acts outcome => rfl

@[simp] theorem Dispatch.resume_behind (earlier : List LogEvent) (opened : Gates) (d : Dispatch) (l : Ledger) :
    d.resume opened (l.behind earlier) = ((d.resume opened l).1, (d.resume opened l).2.behind earlier) := by
  cases d with
  | replied r => rfl
  | running providerId op w => simp [resume]

namespace Host

variable (h : Host) (earlier : List LogEvent) (l : Ledger)

@[simp] theorem register_behind (p : Provider) :
    h.register p (l.behind earlier) = (h.register p l).map fun x => (x.1, x.2.behind earlier) := by
  simp only [register]
  split
  · rfl
  · simp [Except.map]

@[simp] theorem deregister_behind (id : UInt16) : h.deregister id (l.behind earlier) =
    ((h.deregister id l).1, (h.deregister id l).2.1, (h.deregister id l).2.2.behind earlier) := by
  simp only [deregister]
  split <;> simp

@[simp] theorem dispatch_behind (opened : Gates) (id : UInt16) (r : Request) :
    h.dispatch opened id r (l.behind earlier) =
      (h.dispatch opened id r l).map fun x => (x.1, x.2.1, x.2.2.behind earlier) := by
  simp only [dispatch]
  split <;> simp

@[simp] theorem requestShutdown_behind : h.requestShutdown (l.behind earlier) =
    ((h.requestShutdown l).1, (h.requestShutdown l).2.behind earlier) := by
  simp only [requestShutdown]
  split <;> simp

@[simp] theorem tearDown_behind (opened : Gates) : h.tearDown opened (l.behind earlier) =
    ((h.tearDown opened l).1, (h.tearDown opened l).2.1, (h.tearDown opened l).2.2.behind earlier) := by
  simp [tearDown]

end Host

end SequencerHub
