import SequencerHub.Decode.Tagged
import SequencerHub.SequencerId.Parser

/-! Requests to a provider and their JSON form: an object with the operation's name as its tag. -/
namespace SequencerHub

/-- The two ways to come by a sequencer: fresh state, or state that exists already. -/
inductive Construction
  | create
  | attach
  deriving DecidableEq, Repr

inductive Operation
  | createSequencer
  | openSequencer
  | closeSequencer
  | destroySequencer
  | checkSequencer
  | sayHello
  | computeSum
  deriving DecidableEq, Repr

namespace Operation

def name : Operation → String
  | createSequencer => "create_sequencer"
  | openSequencer => "open_sequencer"
  | closeSequencer => "close_sequencer"
  | destroySequencer => "destroy_sequencer"
  | checkSequencer => "check_sequencer"
  | sayHello => "say_hello"
  | computeSum => "compute_sum"

def title : Operation → String
  | createSequencer => "CreateSequencer"
  | openSequencer => "OpenSequencer"
  | closeSequencer => "CloseSequencer"
  | destroySequencer => "DestroySequencer"
  | checkSequencer => "CheckSequencer"
  | sayHello => "SayHello"
  | computeSum => "ComputeSum"

def all : List Operation :=
  [createSequencer, openSequencer, closeSequencer, destroySequencer, checkSequencer, sayHello,
    computeSum]

end Operation

/-- One call of a provider. Administrative calls carry the caller's token. -/
inductive Request
  | construct (how : Construction) (token sequencerType config : String)
  | close (token : String) (id : SequencerId)
  | destroy (token : String) (id : SequencerId)
  | check (id : SequencerId)
  | sayHello (id : SequencerId)
  | computeSum (id : SequencerId) (x y : Int32)
  deriving DecidableEq

namespace Request

def op : Request → Operation
  | construct .create _ _ _ => .createSequencer
  | construct .attach _ _ _ => .openSequencer
  | close _ _ => .closeSequencer
  | destroy _ _ => .destroySequencer
  | check _ => .checkSequencer
  | sayHello _ => .sayHello
  | computeSum _ _ _ => .computeSum

def members : Request → List (String × Json)
  | construct _ token sequencerType config =>
    [("token", .string token), ("sequencer_type", .string sequencerType), ("config", .string config)]
  | close token id => [("token", .string token), ("sequencer_id", .string id.toText)]
  | destroy token id => [("token", .string token), ("sequencer_id", .string id.toText)]
  | check id => [("sequencer_id", .string id.toText)]
  | sayHello id => [("sequencer_id", .string id.toText)]
  | computeSum id x y => [("sequencer_id", .string id.toText), ("x", .ofInt32 x), ("y", .ofInt32 y)]

def toJson (r : Request) : Json := .object (("op", .string r.op.name) :: r.members)

structure Draft where
  token : Option String := none
  sequencerType : Option String := none
  config : Option String := none
  id : Option SequencerId := none
  x : Option Int32 := none
  y : Option Int32 := none

variable {μ : Type}

def readId (n : Node μ) : Decoded μ SequencerId :=
  n.parsed "a formatted UUID string" fun t =>
    (SequencerId.ofText t).mapError fun e => "UUID parsing failed: " ++ e.message

def tokenField : Field μ Draft where
  name := "token"
  presence := .defaulted
  given := (·.token.isSome)
  read := fun n d => do
    let t ← n.string
    .ok { d with token := some t }

def typeField : Field μ Draft where
  name := "sequencer_type"
  presence := .required
  given := (·.sequencerType.isSome)
  read := fun n d => do
    let t ← n.string
    .ok { d with sequencerType := some t }

def configField : Field μ Draft where
  name := "config"
  presence := .required
  given := (·.config.isSome)
  read := fun n d => do
    let t ← n.string
    .ok { d with config := some t }

def idField : Field μ Draft where
  name := "sequencer_id"
  presence := .required
  given := (·.id.isSome)
  read := fun n d => do
    let id ← readId n
    .ok { d with id := some id }

def xField : Field μ Draft where
  name := "x"
  presence := .required
  given := (·.x.isSome)
  read := fun n d => do
    let x ← n.int32
    .ok { d with x := some x }

def yField : Field μ Draft where
  name := "y"
  presence := .required
  given := (·.y.isSome)
  read := fun n d => do
    let y ← n.int32
    .ok { d with y := some y }

/-- The fields of each operation, in the order of the list form. -/
def fields : Operation → List (Field μ Draft)
  | .createSequencer => [tokenField, typeField, configField]
  | .openSequencer => [tokenField, typeField, configField]
  | .closeSequencer => [tokenField, idField]
  | .destroySequencer => [tokenField, idField]
  | .checkSequencer => [idField]
  | .sayHello => [idField]
  | .computeSum => [idField, xField, yField]

def shape (op : Operation) : RecordShape μ Draft where
  title := s!"struct variant RpcRequest::{op.title}"
  fields := fields op
  closed := false

/-- The request of an operation from its fields; an absent token is the empty one. -/
def build : Operation → Draft → Option Request
  | .createSequencer, d => do
    some (.construct .create (d.token.getD "") (← d.sequencerType) (← d.config))
  | .openSequencer, d => do
    some (.construct .attach (d.token.getD "") (← d.sequencerType) (← d.config))
  | .closeSequencer, d => do some (.close (d.token.getD "") (← d.id))
  | .destroySequencer, d => do some (.destroy (d.token.getD "") (← d.id))
  | .checkSequencer, d => do some (.check (← d.id))
  | .sayHello, d => do some (.sayHello (← d.id))
  | .computeSum, d => do some (.computeSum (← d.id) (← d.x) (← d.y))

def tag : Tag Operation where
  name := "op"
  title := "internally tagged enum RpcRequest"
  choice := ⟨"RpcRequest", Operation.all.map fun op => (op.name, op)⟩

def read : Node μ → Decoded μ Request :=
  tag.read fun op n => (shape op).read .content {} (build op) n

end Request
end SequencerHub
