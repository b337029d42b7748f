import SequencerHub.Log.Event

/-! Backends: the pluggable part behind a sequencer. A backend's behaviour is a function of the arguments it was built
from and of the calls it has had. What a call does is given in full: the effects it has on the way, the gates at which
it waits, and how it ends. -/
namespace SequencerHub

/-- An error with its causes, outermost first. -/
structure ErrorChain where
  outermost : String
  causes : List String := []
  deriving DecidableEq

def ErrorChain.message (e : ErrorChain) : String := ": ".intercalate (e.outermost :: e.causes)

/-- What a panic carries: a text, or something that is none. -/
inductive Panic
  | text (s : String)
  | opaqueValue
  deriving DecidableEq

def Panic.message : Panic → String
  | text s => s
  | opaqueValue => "unknown panic"

inductive Outcome (α : Type)
  | ok (value : α)
  | failed (e : ErrorChain)
  | panicked (p : Panic)
  deriving DecidableEq

/-- What a call does besides answering: it leaves an entry in the operator's journal or logs an event. -/
inductive Effect
  | note (entry : Json)
  | log (e : LogEvent)

inductive Act
  | effect (e : Effect)
  /-- Goes on only when the gate of that name is open. -/
  | await (gate : String)

/-- A call that ends at once. -/
structure Prompt (α : Type) where
  effects : List Effect
  outcome : Outcome α

/-- A greeting. It cannot fail, but it can panic. -/
structure Greeting where
  effects : List Effect
  panic : Option Panic := none

/-- A call that may wait. -/
structure Script (α : Type) where
  acts : List Act
  outcome : Outcome α

inductive Call
  | hello
  | sum (x y : Int32)
  | destroy
  deriving DecidableEq

structure Backend where
  sayHello : List Call → Greeting
  computeSum : List Call → Int32 → Int32 → Script Int32
  /-- Removes the outside state; the answer says whether there was any. -/
  destroy : List Call → Script Bool

/-- What a constructor is told: the provider, and the configuration, which is an object. -/
structure BackendArgs where
  providerId : UInt16
  config : Json

/-- Builds a backend; the number counts the constructions before this one. -/
abbrev Constructor := Nat → BackendArgs → Prompt Backend

/-- One constructor for fresh state and one for state that exists already. -/
structure Constructors where
  create : Constructor
  attach : Constructor

def Constructors.pick (c : Constructors) : Construction → Constructor
  | .create => c.create
  | .attach => c.attach

def checkedSum (x y : Int32) : Option Int32 :=
  let s := x.toInt + y.toInt
  if -0x80000000 ≤ s ∧ s < 0x80000000 then some (Int32.ofInt s) else none

end SequencerHub
