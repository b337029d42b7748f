import SequencerHub.Number.Binary64

/-! JSON values. Integers that fit a 64-bit word, signed or unsigned, are exact; every other number is binary floating
point. -/
namespace SequencerHub

/-- An integer that fits a signed or an unsigned 64-bit word. -/
structure Whole where
  val : Int
  fits : -0x8000000000000000 ≤ val ∧ val < 0x10000000000000000
  deriving DecidableEq

namespace Whole

instance : Inhabited Whole := ⟨⟨0, by decide⟩⟩

def ofInt? (n : Int) : Option Whole :=
  if h : -0x8000000000000000 ≤ n ∧ n < 0x10000000000000000 then some ⟨n, h⟩ else none

def ofInt32 (n : Int32) : Whole :=
  ⟨n.toInt, by have := n.le_toInt; have := n.toInt_lt; omega⟩

def ofUInt16 (n : UInt16) : Whole := ⟨n.toNat, by have := n.toNat_lt; omega⟩

def ofUInt32 (n : UInt32) : Whole := ⟨n.toNat, by have := n.toNat_lt; omega⟩

def ofUInt64 (n : UInt64) : Whole := ⟨n.toNat, by have := n.toNat_lt; omega⟩

end Whole

inductive JsonNumber
  | whole (n : Whole)
  | float (x : Binary64)
  deriving DecidableEq, Inhabited

inductive Json
  | null
  | bool (b : Bool)
  | number (n : JsonNumber)
  | string (s : String)
  | array (items : List Json)
  | object (members : List (String × Json))
  deriving Inhabited

namespace Json

/-- The object with the given members in the order of their keys; of members with one key the last
counts. -/
def insertMember (key : String) (value : Json) : List (String × Json) → List (String × Json)
  | [] => [(key, value)]
  | (k, v) :: more =>
    if key < k then (key, value) :: (k, v) :: more
    else if key = k then (key, value) :: more
    else (k, v) :: insertMember key value more

def ofMembers (members : List (String × Json)) : Json :=
  .object (members.foldl (fun sorted (k, v) => insertMember k v sorted) [])

def ofInt32 (n : Int32) : Json := .number (.whole (.ofInt32 n))

def ofUInt16 (n : UInt16) : Json := .number (.whole (.ofUInt16 n))

/-- A count. Counts stay below the bound of a word; beyond it the bound is written. -/
def ofNat (n : Nat) : Json :=
  .number (.whole (Whole.ofUInt64 (UInt64.ofNat (min n 0xffffffffffffffff))))

def ofStrings (texts : List String) : Json := .array (texts.map .string)

/-- The value of an optional member, null when there is none. -/
def ofOption : Option Json → Json
  | none => .null
  | some j => j

def get? (key : String) : Json → Option Json
  | .object members => (members.reverse.find? (·.1 = key)).map (·.2)
  | _ => none

def isObject : Json → Bool
  | .object _ => true
  | _ => false

def string? : Json → Option String
  | .string s => some s
  | _ => none

def bool? : Json → Option Bool
  | .bool b => some b
  | _ => none

def array? : Json → Option (List Json)
  | .array items => some items
  | _ => none

def members? : Json → Option (List (String × Json))
  | .object members => some members
  | _ => none

def int? : Json → Option Int
  | .number (.whole n) => some n.val
  | _ => none

end Json
end SequencerHub
