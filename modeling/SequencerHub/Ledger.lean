import SequencerHub.Factory

/-! The ledger of all that happens on the way: constructors called, identifiers given out, calls of backends, and what
was noted and logged. Every list has the oldest entry first. -/
namespace SequencerHub

/-- A live backend; its serial number counts the constructors called before its own. -/
structure Instance where
  serial : Nat
  backend : Backend

structure Built where
  how : Construction
  sequencerType : String
  args : BackendArgs

structure Ledger where
  /-- The identifiers in the order in which they are given out. -/
  supply : Nat → SequencerId
  minted : Nat := 0
  built : List Built := []
  /-- Calls of backends, by the serial number of the instance. -/
  calls : List (Nat × Call) := []
  journal : List Json := []
  log : List LogEvent := []

namespace Ledger

def logged (l : Ledger) (e : LogEvent) : Ledger := { l with log := l.log ++ [e] }

def recorded (l : Ledger) : Effect → Ledger
  | .note entry => { l with journal := l.journal ++ [entry] }
  | .log e => l.logged e

def recordedAll (l : Ledger) (effects : List Effect) : Ledger := effects.foldl recorded l

def history (l : Ledger) (serial : Nat) : List Call :=
  (l.calls.filter (·.1 = serial)).map (·.2)

def called (l : Ledger) (serial : Nat) (c : Call) : Ledger :=
  { l with calls := l.calls ++ [(serial, c)] }

def constructed (l : Ledger) (b : Built) : Ledger := { l with built := l.built ++ [b] }

def nextId (l : Ledger) : SequencerId := l.supply l.minted

def mint (l : Ledger) : Ledger := { l with minted := l.minted + 1 }

end Ledger
end SequencerHub
