import SequencerHub.Ledger
import SequencerHub.Wire.Answer

/-! Calls of backends that may have to wait. A call runs until it waits at a closed gate or ends. -/
namespace SequencerHub

abbrev Gates := List String

/-- Runs acts up to the first closed gate and gives those that are left. -/
def runActs (opened : Gates) : List Act → Ledger → List Act × Ledger
  | [], l => ([], l)
  | .effect e :: more, l => runActs opened more (l.recorded e)
  | .await g :: more, l => if g ∈ opened then runActs opened more l else (.await g :: more, l)

inductive Ending
  | answered (r : Except RemoteError Answer)
  | panicked (p : Panic)

/-- What is left to do for a request once the registry has been consulted. -/
inductive Work
  | ended (e : Ending)
  | summing (acts : List Act) (outcome : Outcome Int32)
  | destroying (id : SequencerId) (acts : List Act) (outcome : Outcome Bool)

namespace Work

def refused (e : RemoteError) : Work := .ended (.answered (.error e))
def answered (a : Answer) : Work := .ended (.answered (.ok a))

def backendFailure (e : ErrorChain) : RemoteError := ⟨.backendOperation, e.message⟩

def sumEnding : Outcome Int32 → Ending
  | .ok n => .answered (.ok (.sum n))
  | .failed e => .answered (.error (backendFailure e))
  | .panicked p => .panicked p

def destroyEnding : Outcome Bool → Ending
  | .ok b => .answered (.ok (.flag b))
  | .failed e => .answered (.error (backendFailure e))
  | .panicked p => .panicked p

/-- What is logged at the end of a destruction. A panic leaves nothing. -/
def destroyEvents (providerId : UInt16) (id : SequencerId) : Outcome Bool → List LogEvent
  | .ok b => [.destroyed providerId id b]
  | .failed e => [.destroyFailed providerId id e.message]
  | .panicked _ => []

/-- Goes on until a closed gate or the end. -/
def resume (opened : Gates) (providerId : UInt16) : Work → Ledger → Work × Ledger
  | ended e, l => (ended e, l)
  | summing acts outcome, l =>
    match runActs opened acts l with
    | ([], l) => (ended (sumEnding outcome), l)
    | (acts, l) => (summing acts outcome, l)
  | destroying id acts outcome, l =>
    match runActs opened acts l with
    | ([], l) =>
      (ended (destroyEnding outcome), (destroyEvents providerId id outcome).foldl Ledger.logged l)
    | (acts, l) => (destroying id acts outcome, l)

end Work
end SequencerHub
