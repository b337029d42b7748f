import SequencerHub.Decode.Choice
import SequencerHub.Decode.Record

/-! Tagged values: one member, or the first element, names the form that the others have. The others are set aside until
the tag is known, and then read without their places. -/
namespace SequencerHub

inductive Content
  | members (ms : List (String × Json))
  | items (xs : List Json)

def Content.toNode : Content → Node Unit
  | .members ms => .object () (.ofJson ms)
  | .items xs => .list () (.ofJson xs)

/-- A tag with the name under which it stands. -/
structure Tag (τ : Type) where
  name : String
  title : String
  choice : Choice τ

namespace Tag

variable {μ τ : Type}

def readName (t : Tag τ) (n : Node μ) : Decoded μ τ := do
  let name ← n.text "variant identifier"
  t.choice.named name n.found.2

def readMembers (t : Tag τ) (tag : Option τ) (aside : List (String × Json)) :
    Members μ → Decoded μ (τ × Content)
  | .member key _ keyEnd v _ rest =>
    if key = t.name then
      match tag with
      | some _ => .error (.ofMismatch (.duplicateField t.name) keyEnd)
      | none =>
        match inPart (.key key) (t.readName v) with
        | .ok tag => readMembers t (some tag) aside rest
        | .error e => .error e
    else
      match inPart (.key key) v.toJson with
      | .ok j => readMembers t tag (aside ++ [(key, j)]) rest
      | .error e => .error e
  | .keyless _ f place => .error ((DecodeError.ofFault f place).within .unknown)
  | .broken f place => .error ((DecodeError.ofFault f place).within .unknown)
  | .done stop =>
    match tag with
    | some tag => .ok (tag, .members aside)
    | none => .error (.ofMismatch (.missingField t.name) stop)

/-- Reads the tag and sets the rest aside. -/
def split (t : Tag τ) : Node μ → Decoded μ (τ × Content)
  | .object _ members => t.readMembers none [] members
  | .list _ (.item v rest) => do
    let tag ← inPart (.item 0) (t.readName v)
    let aside ← rest.toJson 1
    .ok (tag, .items aside)
  | .list _ (.done stop) => .error (.ofMismatch (.missingField t.name) stop)
  | .list _ (.broken f place) => .error (.ofFault f place)
  | n => n.refuse t.title

def read {α : Type} (t : Tag τ) (form : τ → Node Unit → Decoded Unit α) (n : Node μ) :
    Decoded μ α := do
  let (tag, content) ← t.split n
  match form tag content.toNode with
  | .ok a => .ok a
  | .error e => .error ⟨e.cause, none, []⟩

end Tag
end SequencerHub
