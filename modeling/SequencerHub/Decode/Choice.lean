import SequencerHub.Decode.Basic

/-! Choices: names that stand for a value each. Sources spell a choice as the bare name or as an object with the name as
its only key and nothing as its value; a document puts a tag in place of such an object. -/
namespace SequencerHub

structure Choice (α : Type) where
  title : String
  options : List (String × α)

namespace Choice

variable {μ α : Type}

def names (c : Choice α) : List String := c.options.map (·.1)

def find? (c : Choice α) (name : String) : Option α := (c.options.find? (·.1 = name)).map (·.2)

def named (c : Choice α) (name : String) (place : μ) : Decoded μ α :=
  match c.find? name with
  | some a => .ok a
  | none => .error (.ofMismatch (.unknownVariant name c.names) place)

/-- From text: a quoted name, or an object that holds nothing else. -/
def readText [Mark μ] (c : Choice α) : Node μ → Decoded μ α
  | .scalar (.string s) _ stop => c.named s stop
  | .object _ (.member key keyStop _ v next rest) => do
    let a ← c.named key keyStop
    v.unit .text
    match rest with
    | .done _ => .ok a
    | .broken .endInObject place => .error (.ofFault .endInObject place)
    | _ => .error (.ofFault .valueExpected next)
  | .object _ (.keyless found _ _) => found.refuse "variant identifier"
  | .object _ (.done stop) => .error (.ofFault .valueExpected stop)
  | .object _ (.broken f place) => .error (.ofFault f place)
  | .broken _ f place => .error (.ofFault f place)
  | n => .error (.ofFault .valueExpected (Mark.next n.start))

def readValue (c : Choice α) (origin : Origin) : Node μ → Decoded μ α
  | .scalar (.string s) _ stop => c.named s stop
  | .object _ (.member key keyStop _ v _ (.done _)) => do
    let a ← c.named key keyStop
    v.unit origin
    .ok a
  | .object start _ =>
    .error (.ofMismatch (.wrongValue .object "map with a single key") start)
  | n => n.refuse "string or map"

/-- From a document: the name, or a tag. -/
def readDocument (c : Choice α) : Node μ → Decoded μ α
  | .scalar (.string s) _ stop => c.named s stop
  | .plain t _ _ stop => c.named t stop
  | .object start (.member key keyStop _ v _ (.done _)) => do
    match key.toList with
    | '!' :: name =>
      let a ← c.named (String.ofList name) keyStop
      v.unit .document
      .ok a
    | _ => .error (.ofMismatch (.wrongType .object "a tag") start)
  | n => n.refuse "a tag"

/-- From layered settings, where a number counts the options. -/
def readLayers (c : Choice α) : Node μ → Decoded μ α
  | .scalar (.string s) _ stop => c.named s stop
  | .object _ (.member key keyStop _ v _ (.done _)) => do
    let a ← c.named key keyStop
    inPart (.key key) (v.unit .layers)
    .ok a
  | .scalar (.number (.whole i)) start stop =>
    if 0 ≤ i.val ∧ i.val < 0x100000000 then
      match c.options[i.val.toNat]? with
      | some (_, a) => .ok a
      | none =>
        .error (.ofMismatch (.wrongValue (.scalar (.number (.whole i)))
          s!"variant index 0 <= i < {c.options.length}") stop)
    else (Node.scalar (.number (.whole i)) start stop).refuse s!"enum {c.title}"
  | n => n.refuse s!"enum {c.title}"

def read [Mark μ] (c : Choice α) (origin : Origin) : Node μ → Decoded μ α :=
  match origin with
  | .text => c.readText
  | .document => c.readDocument
  | .layers => c.readLayers
  | _ => c.readValue origin

end Choice
end SequencerHub
