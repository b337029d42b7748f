import SequencerHub.Decode.Tagged
import SequencerHub.Wire.ErrorKind

/-! The reply to a request: a value or a failure, never both, as an object tagged with its status. -/
namespace SequencerHub

inductive Envelope (α : Type)
  | success (value : α)
  | failure (kind : ErrorKind) (error : String)

/-- How a type travels inside an envelope. -/
structure Payload (α : Type) where
  read : Node Unit → Decoded Unit α
  /-- What an envelope without a value stands for, if anything. -/
  absent : Option α
  write : α → Json

inductive Status
  | success
  | failure
  deriving DecidableEq, Repr

namespace Envelope

variable {α β μ : Type}

def succeeded : Envelope α → Bool
  | success _ => true
  | failure _ _ => false

def value? : Envelope α → Option α
  | success v => some v
  | failure _ _ => none

def error? : Envelope α → Option String
  | success _ => none
  | failure _ e => some e

def kind? : Envelope α → Option ErrorKind
  | success _ => none
  | failure k _ => some k

def map (f : α → β) : Envelope α → Envelope β
  | success v => success (f v)
  | failure k e => failure k e

def toResult : Envelope α → Except RemoteError α
  | success v => .ok v
  | failure k e => .error ⟨k, e⟩

def ofResult : Except RemoteError α → Envelope α
  | .ok v => success v
  | .error e => failure e.kind e.message

def toJson (write : α → Json) : Envelope α → Json
  | success v => .object [("status", .string "success"), ("value", write v)]
  | failure k e =>
    .object [("error", .string e), ("kind", .string k.name), ("status", .string "failure")]

structure FailureDraft where
  kind : Option ErrorKind := none
  error : Option String := none

def failureShape : RecordShape Unit FailureDraft where
  title := "struct variant RequestResult::Failure"
  fields := [
    { name := "kind", presence := .required, given := (·.kind.isSome)
      read := fun n d => do
        let kind ← ErrorKind.choice.read .content n
        .ok { d with kind := some kind } },
    { name := "error", presence := .required, given := (·.error.isSome)
      read := fun n d => do
        let e ← n.string
        .ok { d with error := some e } }]
  closed := false

def successShape (p : Payload α) : RecordShape Unit (Option α) where
  title := "struct variant RequestResult::Success"
  fields := [
    { name := "value"
      presence := if p.absent.isSome then .optional else .required
      given := Option.isSome
      read := fun n _ => some <$> p.read n }]
  closed := false

def readForm (p : Payload α) : Status → Node Unit → Decoded Unit (Envelope α)
  | .success => (successShape p).read .content none fun v => success <$> (v <|> p.absent)
  | .failure => failureShape.read .content {} fun d => do some (failure (← d.kind) (← d.error))

def tag : Tag Status where
  name := "status"
  title := "internally tagged enum RequestResult"
  choice := ⟨"RequestResult", [("success", .success), ("failure", .failure)]⟩

def read (p : Payload α) : Node μ → Decoded μ (Envelope α) := tag.read (readForm p)

end Envelope
end SequencerHub
