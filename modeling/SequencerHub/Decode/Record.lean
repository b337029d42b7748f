import SequencerHub.Decode.Basic

/-! Records: objects with fixed keys, or lists with one element for each key in order. A record is read into a draft
whose fields may be absent; what is still missing at the end is reported by the first missing field. -/
namespace SequencerHub

/-- What the absence of a field means. -/
inductive Presence
  | required
  /-- Absence in an object means no value; a list has to have the element. -/
  | optional
  /-- A default stands in, in either form. -/
  | defaulted
  deriving DecidableEq

/-- A field of a record that is drafted in a `δ`. -/
structure Field (μ δ : Type) where
  name : String
  presence : Presence
  given : δ → Bool
  read : Node μ → δ → Decoded μ δ

structure RecordShape (μ δ : Type) where
  title : String
  fields : List (Field μ δ)
  /-- Members that name no field are refused. -/
  closed : Bool

namespace RecordShape

variable {μ δ α : Type}

def names (r : RecordShape μ δ) : List String := r.fields.map (·.name)

def readMembers (r : RecordShape μ δ) (draft : δ) : Members μ → Decoded μ (δ × μ)
  | .member key _ keyEnd v _ rest =>
    match r.fields.find? (·.name = key) with
    | some field =>
      if field.given draft then .error (.ofMismatch (.duplicateField key) keyEnd)
      else
        match inPart (.key key) (field.read v draft) with
        | .ok draft => readMembers r draft rest
        | .error e => .error e
    | none =>
      if r.closed then .error ((DecodeError.ofMismatch (.unknownField key r.names) keyEnd).within (.key key))
      else readMembers r draft rest
  | .keyless _ f place => .error ((DecodeError.ofFault f place).within .unknown)
  | .done stop => .ok (draft, stop)
  | .broken f place => .error ((DecodeError.ofFault f place).within .unknown)

def itemCount : Items μ → Nat
  | .item _ rest => itemCount rest + 1
  | _ => 0

def readEnd [Mark μ] (origin : Origin) (count : Nat) : Items μ → Decoded μ μ
  | .done stop => .ok stop
  | .broken f place =>
    .error (.ofFault (if f = .commaAtEnd then .commaAtEnd else .charactersAtEnd) place)
  | .item v rest =>
    let total := count + 1 + itemCount rest
    match origin with
    | .text => .error (.ofFault .charactersAtEnd (Mark.next v.start))
    | .layers => .ok v.start
    | .content =>
      let expected := if count = 1 then "1 element in sequence" else s!"{count} elements in sequence"
      .error (.ofMismatch (.wrongLength total expected) v.start)
    | _ => .error (.ofMismatch (.wrongLength total "fewer elements in array") v.start)

def lengthText (r : RecordShape μ δ) : String :=
  let n := r.fields.length
  let ending := if n = 1 then "" else "s"
  s!"{r.title} with {n} element{ending}"

def readItems [Mark μ] (r : RecordShape μ δ) (origin : Origin) (index : Nat) (draft : δ) :
    List (Field μ δ) → Items μ → Decoded μ (δ × μ)
  | [], items => do
    let stop ← readEnd origin index items
    .ok (draft, stop)
  | field :: fields, .item v rest => do
    let draft ← inPart (.item index) (field.read v draft)
    readItems r origin (index + 1) draft fields rest
  | _ :: _, .broken f place => .error (.ofFault f place)
  | field :: fields, .done stop =>
    if field.presence = .defaulted then readItems r origin (index + 1) draft fields (.done stop)
    else .error (.ofMismatch (.wrongLength index r.lengthText) stop)

def missing? (r : RecordShape μ δ) (draft : δ) : Option String :=
  (r.fields.find? fun f => f.presence = .required ∧ ¬ f.given draft).map (·.name)

def finish (r : RecordShape μ δ) (build : δ → Option α) : δ × μ → Decoded μ α
  | (draft, stop) =>
    match r.missing? draft, build draft with
    | none, some a => .ok a
    | name?, _ => .error (.ofMismatch (.missingField (name?.getD "")) stop)

/-- Reads a record from a tree of either form. -/
def read [Mark μ] (r : RecordShape μ δ) (origin : Origin) (empty : δ) (build : δ → Option α) :
    Node μ → Decoded μ α
  | .object _ members => r.readMembers empty members >>= r.finish build
  | .list start items =>
    if origin = .document then (Node.list start items).refuse r.title
    else r.readItems origin 0 empty r.fields items >>= r.finish build
  | n => n.refuse r.title

end RecordShape
end SequencerHub
