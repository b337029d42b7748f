import SequencerHub.SequencerId
import SequencerHub.Text.Position

/-! The accepted spellings of an identifier: 32 hexadecimal digits in either case, alone, in five groups with hyphens,
and the latter also in braces or behind `urn:uuid:`. -/
namespace SequencerHub

/-- Why a text is no identifier. Places count bytes from the start, groups count from zero. -/
inductive IdError
  | character (found : Char) (index : Nat)
  | length (found : Nat)
  | groupCount (found : Nat)
  | groupLength (group expected found : Nat)
  deriving DecidableEq, Repr

def IdError.message : IdError → String
  | .character c i => s!"invalid character: found `{c}` at {i}"
  | .length n => s!"invalid length: found {n}"
  | .groupCount n => s!"invalid group count: expected 5, found {n}"
  | .groupLength g e n => s!"invalid group length in group {g}: expected {e}, found {n}"

namespace SequencerId

def hexValue? (c : Char) : Option Nat :=
  if '0' ≤ c ∧ c ≤ '9' then some (c.toNat - 48)
  else if 'a' ≤ c ∧ c ≤ 'f' then some (c.toNat - 87)
  else if 'A' ≤ c ∧ c ≤ 'F' then some (c.toNat - 55)
  else none

def number? (acc : Nat) : List Char → Option Nat
  | [] => some acc
  | c :: cs =>
    match hexValue? c with
    | some d => number? (16 * acc + d) cs
    | none => none

def ofDigits? (ds : List Char) : Option SequencerId :=
  if ds.length = 32 then (number? 0 ds).map ofNat else none

/-- What a spelling wraps: the part between braces or behind the scheme, and the bytes before it. -/
inductive Wrapping
  | bare (body : List Char)
  | braced (body : List Char)
  | scheme (body : List Char)

def urnScheme : List Char := "urn:uuid:".toList

def unwrap (cs : List Char) : Wrapping :=
  match cs with
  | '\x7b' :: r =>
    if r.getLast? = some '\x7d' then .braced r.dropLast else .bare cs
  | _ =>
    if (cs.take 9).map Char.toLower = urnScheme then .scheme (cs.drop 9) else .bare cs

def Wrapping.body : Wrapping → List Char
  | .bare b => b
  | .braced b => b
  | .scheme b => b

def Wrapping.offset : Wrapping → Nat
  | .bare _ => 0
  | .braced _ => 1
  | .scheme _ => 9

def splitGroups : List Char → List (List Char)
  | [] => [[]]
  | c :: cs =>
    match splitGroups cs with
    | [] => [[c]]
    | g :: gs => if c = '-' then [] :: g :: gs else (c :: g) :: gs

def strayCharacter? (index : Nat) : List Char → Option (Char × Nat)
  | [] => none
  | c :: cs =>
    if c = '-' ∨ (hexValue? c).isSome then strayCharacter? (index + c.utf8Size) cs
    else some (c, index)

def badGroup? (index : Nat) : List Nat → List (List Char) → Option (Nat × Nat × Nat)
  | size :: sizes, g :: gs =>
    if g.length = size then badGroup? (index + 1) sizes gs else some (index, size, g.length)
  | _, _ => none

def longest : Nat := 45

/-- The identifier that a text spells, or what is wrong with it: first its length beyond the longest
spelling, then its characters, then its groups. -/
def parse (text : List Char) : Except IdError SequencerId :=
  let size := byteLength text
  if longest < size then .error (.length size)
  else
    let wrapping := unwrap text
    match strayCharacter? wrapping.offset wrapping.body with
    | some (c, i) => .error (.character c i)
    | none =>
      let gs := splitGroups wrapping.body
      match wrapping, gs with
      | .bare _, [ds] =>
        match ofDigits? ds with
        | some id => .ok id
        | none => .error (if size = 36 then .groupCount 1 else .length size)
      | _, _ =>
        if gs.length ≠ 5 then .error (.groupCount gs.length)
        else match badGroup? 0 groups gs with
          | some (g, expected, found) => .error (.groupLength g expected found)
          | none =>
            match ofDigits? gs.flatten with
            | some id => .ok id
            | none => .error (.length size)

def ofText (s : String) : Except IdError SequencerId := parse s.toList

end SequencerId
end SequencerHub
