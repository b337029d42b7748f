import SequencerHub.Decode.Choice
import SequencerHub.Decode.Record

/-! Failures as they travel: a kind from a fixed set and a message. -/
namespace SequencerHub

inductive ErrorKind
  | auth
  | configParse
  | unknownBackendType
  | backendConstruction
  | notFound
  | backendOperation
  deriving DecidableEq, Repr

namespace ErrorKind

def choice : Choice ErrorKind where
  title := "ErrorKind"
  options := [
    ("auth", auth), ("config_parse", configParse), ("unknown_backend_type", unknownBackendType),
    ("backend_construction", backendConstruction), ("not_found", notFound),
    ("backend_operation", backendOperation)]

def name : ErrorKind → String
  | auth => "auth"
  | configParse => "config_parse"
  | unknownBackendType => "unknown_backend_type"
  | backendConstruction => "backend_construction"
  | notFound => "not_found"
  | backendOperation => "backend_operation"

end ErrorKind

structure RemoteError where
  kind : ErrorKind
  message : String
  deriving DecidableEq

namespace RemoteError

def isNotFound (e : RemoteError) : Bool := e.kind = .notFound

def toJson (e : RemoteError) : Json :=
  .object [("kind", .string e.kind.name), ("message", .string e.message)]

structure Draft where
  kind : Option ErrorKind := none
  message : Option String := none

variable {μ : Type} [Mark μ]

def shape (origin : Origin) : RecordShape μ Draft where
  title := "struct RemoteError"
  fields := [
    { name := "kind", presence := .required, given := (·.kind.isSome)
      read := fun n d => do
        let kind ← ErrorKind.choice.read origin n
        .ok { d with kind := some kind } },
    { name := "message", presence := .required, given := (·.message.isSome)
      read := fun n d => do
        let message ← n.string
        .ok { d with message := some message } }]
  closed := false

def build (d : Draft) : Option RemoteError := do
  let kind ← d.kind
  let message ← d.message
  some ⟨kind, message⟩

def read (origin : Origin) : Node μ → Decoded μ RemoteError := (shape origin).read origin {} build

end RemoteError
end SequencerHub
