import SequencerHub.Decode.Basic
import SequencerHub.Decode.Message
import SequencerHub.Json.Reader

/-! Whole JSON texts and JSON values, read by a typed reader. -/
namespace SequencerHub

/-- A refused text or value; a refusal in text mostly has a position. -/
structure JsonError where
  cause : Cause
  position : Option Position
  path : List Segment

namespace JsonError

/-- Breaches of the grammar, told from well-formed values of the wrong kind. -/
def isSyntax (e : JsonError) : Bool :=
  match e.cause with
  | .fault _ => true
  | .mismatch _ => false

def message (e : JsonError) : String :=
  match e.position with
  | some p => s!"{e.cause.message} at line {p.line} column {p.column}"
  | none => e.cause.message

def ofText (text : List Char) (e : DecodeError Spot) : JsonError :=
  ⟨e.cause, e.place.map (·.position text), e.path⟩

end JsonError

def decodeText {α : Type} (depth : Nat) (read : Node Spot → Decoded Spot α) (text : List Char) :
    Except JsonError α :=
  let (root, rest) := JsonText.tree depth text
  match read root with
  | .error e => .error (.ofText text e)
  | .ok a =>
    match JsonText.skipBlanks (rest.getD []) with
    | [] => .ok a
    | r => .error (.ofText text (.ofFault .charactersAtEnd (.next r)))

def decodeJson {α : Type} (read : Node Unit → Decoded Unit α) (j : Json) : Except JsonError α :=
  match read (.ofJson j) with
  | .ok a => .ok a
  | .error e => .error ⟨e.cause, none, e.path⟩

/-- The value of a JSON text, with members sorted. -/
def Json.parse (text : List Char) : Except JsonError Json :=
  match decodeText JsonText.depthLimit Node.toJson text with
  | .ok j => .ok j.canonical
  | .error e => .error e

def Json.ofText (s : String) : Except JsonError Json := Json.parse s.toList

end SequencerHub
