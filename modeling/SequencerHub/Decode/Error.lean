import SequencerHub.Tree

/-! Why a typed reader refuses a tree. -/
namespace SequencerHub

inductive Found
  | scalar (s : Scalar)
  | list
  | object

inductive Mismatch
  | wrongType (found : Found) (expected : String)
  | wrongValue (found : Found) (expected : String)
  | wrongLength (count : Nat) (expected : String)
  | unknownVariant (name : String) (known : List String)
  | unknownField (name : String) (known : List String)
  | missingField (name : String)
  | duplicateField (name : String)
  | notAnId (reason : String)

inductive Cause
  | fault (f : Fault)
  | mismatch (m : Mismatch)

inductive Segment
  | key (name : String)
  | item (index : Nat)
  | unknown
  deriving DecidableEq

/-- A refusal: the cause, the place if one is known, and the way from the root to the part that was
refused. -/
structure DecodeError (μ : Type) where
  cause : Cause
  place : Option μ
  path : List Segment

namespace DecodeError

variable {μ : Type}

def ofMismatch (m : Mismatch) (place : μ) : DecodeError μ := ⟨.mismatch m, some place, []⟩
def ofFault (f : Fault) (place : μ) : DecodeError μ := ⟨.fault f, some place, []⟩

/-- The refusal seen from the value that has the refused one as a part. -/
def within (s : Segment) (e : DecodeError μ) : DecodeError μ := { e with path := s :: e.path }

def unplaced {ν : Type} (e : DecodeError μ) : DecodeError ν := ⟨e.cause, none, e.path⟩

end DecodeError

abbrev Decoded (μ α : Type) := Except (DecodeError μ) α

/-- Gives the errors of a reader of a part the step to that part. -/
def inPart {μ α : Type} (s : Segment) : Decoded μ α → Decoded μ α
  | .ok a => .ok a
  | .error e => .error (e.within s)

def oneOf : List String → String
  | [] => "there are no fields"
  | [a] => s!"`{a}`"
  | [a, b] => s!"`{a}` or `{b}`"
  | names => "one of " ++ ", ".intercalate (names.map fun a => s!"`{a}`")

end SequencerHub
