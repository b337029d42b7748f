import SequencerHub.Json.Basic
import SequencerHub.Number.Layout

/-! The compact text of a JSON value: no blanks, control characters escaped, everything else as it is. -/
namespace SequencerHub.Json

def hexDigit (n : Nat) : Char := if n < 10 then Char.ofNat (48 + n) else Char.ofNat (87 + n)

def escape (c : Char) : List Char :=
  if c = '"' then ['\\', '"']
  else if c = '\\' then ['\\', '\\']
  else if c = '\n' then ['\\', 'n']
  else if c = '\r' then ['\\', 'r']
  else if c = '\t' then ['\\', 't']
  else if c = '\x08' then ['\\', 'b']
  else if c = '\x0c' then ['\\', 'f']
  else if c.toNat < 0x20 then
    ['\\', 'u', '0', '0', hexDigit (c.toNat / 16), hexDigit (c.toNat % 16)]
  else [c]

def quote (s : List Char) : List Char := '"' :: s.flatMap escape ++ ['"']

def writeInt (n : Int) : List Char :=
  if n < 0 then '-' :: Nat.toDigits 10 n.natAbs else Nat.toDigits 10 n.natAbs

def writeNumber : JsonNumber → List Char
  | .whole n => writeInt n.val
  | .float x => if x.isFinite then jsonNumberLayout.write x else "null".toList

mutual

def write : Json → List Char
  | .null => "null".toList
  | .bool true => "true".toList
  | .bool false => "false".toList
  | .number n => writeNumber n
  | .string s => quote s.toList
  | .array items => '[' :: writeItems items ++ [']']
  | .object members => '\x7b' :: writeMembers members ++ ['\x7d']

def writeItems : List Json → List Char
  | [] => []
  | [v] => write v
  | v :: w :: more => write v ++ ',' :: writeItems (w :: more)

def writeMembers : List (String × Json) → List Char
  | [] => []
  | [(k, v)] => quote k.toList ++ ':' :: write v
  | (k, v) :: m :: more => quote k.toList ++ ':' :: write v ++ ',' :: writeMembers (m :: more)

end

def render (j : Json) : String := String.ofList (write j)

end SequencerHub.Json
