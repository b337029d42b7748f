import SequencerHub.Decode.Error
import SequencerHub.Text.Position

/-! Typed readers of trees. The sources differ in small ways (what a superfluous element means, which values stand for a
variant), so every reader is told the origin of its tree. -/
namespace SequencerHub

inductive Origin
  | text
  | value
  /-- Members set aside until a tag told how to read them. -/
  | content
  | document
  | layers
  deriving DecidableEq

/-- Marks that can tell the place one byte further. -/
class Mark (μ : Type) where
  next : μ → μ

instance : Mark Unit := ⟨id⟩
instance : Mark Spot := ⟨fun s => ⟨s.rest, s.ahead + 1⟩⟩

variable {μ α : Type}

namespace Node

def found : Node μ → Found × μ
  | .scalar s _ stop => (.scalar s, stop)
  | .plain _ s _ stop => (.scalar s, stop)
  | .list start _ => (.list, start)
  | .object start _ => (.object, start)
  | .broken start _ _ => (.scalar .null, start)

/-- The refusal of a node where something else is expected; a broken node is refused for its fault. -/
def refuse (expected : String) : Node μ → Decoded μ α
  | .broken _ f place => .error (.ofFault f place)
  | n => .error (.ofMismatch (.wrongType n.found.1 expected) n.found.2)

/-- The scalar of a node, unless it has parts or is broken. -/
def scalar? : Node μ → Option (Scalar × μ)
  | .scalar s _ stop => some (s, stop)
  | .plain _ s _ stop => some (s, stop)
  | _ => none

/-- A text. Unquoted text counts as it stands, whatever else it could be read as. -/
def text (expected : String) : Node μ → Decoded μ String
  | .scalar (.string s) _ _ => .ok s
  | .scalar (.char c) _ _ => .ok c.toString
  | .plain t _ _ _ => .ok t
  | n => n.refuse expected

def string : Node μ → Decoded μ String := text "a string"

/-- A text that has to pass a further test. -/
def parsed (expected : String) (parse : String → Except String α) (n : Node μ) : Decoded μ α := do
  let t ← n.text expected
  match parse t with
  | .ok a => .ok a
  | .error reason => .error (.ofMismatch (.notAnId reason) n.found.2)

def integer (low high : Int) (expected : String) (n : Node μ) : Decoded μ Int :=
  match n.scalar? with
  | some (.number (.whole i), stop) =>
    if low ≤ i.val ∧ i.val ≤ high then .ok i.val
    else .error (.ofMismatch (.wrongValue (.scalar (.number (.whole i))) expected) stop)
  | _ => n.refuse expected

def uint16 (n : Node μ) : Decoded μ UInt16 :=
  (fun i => UInt16.ofNat i.toNat) <$> integer 0 0xffff "u16" n

def uint32 (n : Node μ) : Decoded μ UInt32 :=
  (fun i => UInt32.ofNat i.toNat) <$> integer 0 0xffffffff "u32" n

/-- An integer that fits an unsigned word; the word's name differs with its use. -/
def uint64 (expected : String) (n : Node μ) : Decoded μ UInt64 :=
  (fun i => UInt64.ofNat i.toNat) <$> integer 0 0xffffffffffffffff expected n

def int32 (n : Node μ) : Decoded μ Int32 :=
  Int32.ofInt <$> integer (-0x80000000) 0x7fffffff "i32" n

def boolean (n : Node μ) : Decoded μ Bool :=
  match n.scalar? with
  | some (.bool b, _) => .ok b
  | _ => n.refuse "a boolean"

/-- Nothing. Of members set aside, an object without members passes for nothing too. -/
def unit (origin : Origin) (n : Node μ) : Decoded μ Unit :=
  match n with
  | .object _ (.done _) => if origin = .content then .ok () else n.refuse "unit"
  | _ =>
    match n.scalar? with
    | some (.null, _) => .ok ()
    | _ => n.refuse "unit"

def option (read : Node μ → Decoded μ α) (n : Node μ) : Decoded μ (Option α) :=
  match n.scalar? with
  | some (.null, _) => .ok none
  | _ => some <$> read n

def eachItem (read : Node μ → Decoded μ α) (index : Nat) : Items μ → Decoded μ (List α)
  | .item v rest => do
    let a ← inPart (.item index) (read v)
    let more ← eachItem read (index + 1) rest
    .ok (a :: more)
  | .done _ => .ok []
  | .broken f place => .error (.ofFault f place)

def listOf (read : Node μ → Decoded μ α) : Node μ → Decoded μ (List α)
  | .list _ items => eachItem read 0 items
  | n => n.refuse "a sequence"

def eachMember (read : Node μ → Decoded μ α) : Members μ → Decoded μ (List (String × α))
  | .member key _ _ v _ rest => do
    let a ← inPart (.key key) (read v)
    let more ← eachMember read rest
    .ok ((key, a) :: more)
  | .keyless _ f place => .error ((DecodeError.ofFault f place).within .unknown)
  | .done _ => .ok []
  | .broken f place => .error ((DecodeError.ofFault f place).within .unknown)

def mapOf (read : Node μ → Decoded μ α) : Node μ → Decoded μ (List (String × α))
  | .object _ members => eachMember read members
  | n => n.refuse "a map"

end Node

/-- The JSON value of a scalar. An integer beyond 64 bits becomes floating point. -/
def Scalar.toJson : Scalar → Json
  | .null => .null
  | .bool b => .bool b
  | .number n => .number n
  | .wide n => .number (.float (.ofFloat (Float.ofInt n)))
  | .char c => .string c.toString
  | .string s => .string s

mutual

def Node.toJson : Node μ → Decoded μ Json
  | .scalar s _ _ => .ok s.toJson
  | .plain _ s _ _ => .ok s.toJson
  | .list _ items => do
    let items ← Items.toJson 0 items
    .ok (.array items)
  | .object _ members => do
    let members ← Members.toJson members
    .ok (.object members)
  | .broken _ f place => .error (.ofFault f place)

def Items.toJson (index : Nat) : Items μ → Decoded μ (List Json)
  | .item v rest => do
    let j ← inPart (.item index) v.toJson
    let more ← Items.toJson (index + 1) rest
    .ok (j :: more)
  | .done _ => .ok []
  | .broken f place => .error (.ofFault f place)

def Members.toJson : Members μ → Decoded μ (List (String × Json))
  | .member key _ _ v _ rest => do
    let j ← inPart (.key key) v.toJson
    let more ← Members.toJson rest
    .ok ((key, j) :: more)
  | .keyless _ f place => .error ((DecodeError.ofFault f place).within .unknown)
  | .done _ => .ok []
  | .broken f place => .error ((DecodeError.ofFault f place).within .unknown)

end

mutual

/-- The value with its members sorted; of members with one key the last counts. -/
def Json.canonical : Json → Json
  | .array items => .array (Json.canonicalItems items)
  | .object members => .ofMembers (Json.canonicalMembers members)
  | j => j

def Json.canonicalItems : List Json → List Json
  | [] => []
  | j :: more => j.canonical :: Json.canonicalItems more

def Json.canonicalMembers : List (String × Json) → List (String × Json)
  | [] => []
  | (k, j) :: more => (k, j.canonical) :: Json.canonicalMembers more

end

end SequencerHub
