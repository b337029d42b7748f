import SequencerHub.Provider.Basic

/-! The end of providers. The registry is emptied at once; under the policy that destroys, the instances that were in it
are then destroyed one after the other. A panic ends the whole teardown where it stands. -/
namespace SequencerHub

inductive Teardown
  | finished
  | panicked (p : Panic)
  /-- A call waits; behind it come further instances of the same provider and further providers. -/
  | waiting (providerId : UInt16) (id : SequencerId) (acts : List Act) (outcome : Outcome Bool)
      (instances : Registry) (providers : List Provider)

namespace Teardown

def events (providerId : UInt16) (id : SequencerId) : Outcome Bool → List LogEvent
  | .ok b => [.tornDown providerId id b]
  | .failed e => [.tearDownFailed providerId id e.message]
  | .panicked _ => []

/-- How the destruction of the instances of one provider stands. -/
inductive Progress
  | finished
  | panicked (p : Panic)
  | waiting (id : SequencerId) (acts : List Act) (outcome : Outcome Bool) (instances : Registry)

def runCall (opened : Gates) (providerId : UInt16) (id : SequencerId) (acts : List Act)
    (outcome : Outcome Bool) (instances : Registry) (l : Ledger) : Progress × Ledger :=
  match runActs opened acts l with
  | ([], l) =>
    let l := (events providerId id outcome).foldl Ledger.logged l
    match outcome with
    | .panicked p => (.panicked p, l)
    | _ => (.finished, l)
  | (acts, l) => (.waiting id acts outcome instances, l)

def destroyAll (opened : Gates) (providerId : UInt16) : Registry → Ledger → Progress × Ledger
  | [], l => (.finished, l)
  | (id, i) :: more, l =>
    let s := i.backend.destroy (l.history i.serial)
    match runCall opened providerId id s.acts s.outcome more (l.called i.serial .destroy) with
    | (.finished, l) => destroyAll opened providerId more l
    | stopped => stopped

/-- What becomes of the instances that were in a provider's registry. -/
def dismiss (opened : Gates) (o : ProviderOptions) (drained : Registry) (l : Ledger) :
    Progress × Ledger :=
  match o.teardown with
  | .destroy => destroyAll opened o.providerId drained l
  | .detach =>
    (.finished, if drained.isEmpty then l else l.logged (.detachedAll o.providerId drained.length))

/-- The teardown behind the progress with one provider; none if it can go on with the others. -/
def ofProgress (providerId : UInt16) (providers : List Provider) : Progress → Option Teardown
  | .finished => none
  | .panicked p => some (.panicked p)
  | .waiting id acts outcome instances =>
    some (.waiting providerId id acts outcome instances providers)

def all (opened : Gates) : List Provider → Ledger → Teardown × Ledger
  | [], l => (.finished, l)
  | p :: more, l =>
    let (progress, l) := dismiss opened p.options p.live (l.logged (.tearingDown p.id))
    match ofProgress p.id more progress with
    | none => all opened more l
    | some t => (t, l)

def resume (opened : Gates) : Teardown → Ledger → Teardown × Ledger
  | finished, l => (finished, l)
  | panicked p, l => (panicked p, l)
  | waiting providerId id acts outcome instances providers, l =>
    let (progress, l) := runCall opened providerId id acts outcome instances l
    let (progress, l) := match progress with
      | .finished => destroyAll opened providerId instances l
      | stopped => (stopped, l)
    match ofProgress providerId providers progress with
    | none => all opened providers l
    | some t => (t, l)

end Teardown

def Provider.tearDown (opened : Gates) (p : Provider) (l : Ledger) : Provider × Teardown × Ledger :=
  let (progress, l) := Teardown.dismiss opened p.options p.live l
  ({ p with live := [] }, (Teardown.ofProgress p.id [] progress).getD .finished, l)

end SequencerHub
