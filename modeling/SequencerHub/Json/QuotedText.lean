import SequencerHub.Json.NumberText

/-! Quoted strings in JSON text, behind their opening quote. -/
namespace SequencerHub.QuotedText

def hexValue? (c : Char) : Option Nat :=
  if '0' ≤ c ∧ c ≤ '9' then some (c.toNat - 48)
  else if 'a' ≤ c ∧ c ≤ 'f' then some (c.toNat - 87)
  else if 'A' ≤ c ∧ c ≤ 'F' then some (c.toNat - 55)
  else none

def hexDigits : List Char → Option (Nat × List Char)
  | a :: b :: c :: d :: r => do
    let a ← hexValue? a
    let b ← hexValue? b
    let c ← hexValue? c
    let d ← hexValue? d
    some (((a * 16 + b) * 16 + c) * 16 + d, r)
  | _ => none

/-- A numeric escape always takes four bytes, whatever they are. -/
def readHex (cs : List Char) : Except FaultAt (Nat × List Char) :=
  match hexDigits cs with
  | some found => .ok found
  | none => .error (if byteLength cs < 4 then (.endInString, .start []) else (.escapeUnknown, ⟨cs, 4⟩))

def isLeading (n : Nat) : Bool := 0xD800 ≤ n && n ≤ 0xDBFF
def isTrailing (n : Nat) : Bool := 0xDC00 ≤ n && n ≤ 0xDFFF

/-- The character of a numeric escape; two of them make a character beyond sixteen bits. -/
def readUnicode (cs : List Char) : Except FaultAt (Char × List Char) := do
  let (n, r) ← readHex cs
  if isTrailing n then .error (.surrogateAlone, .start r)
  else if !isLeading n then .ok (Char.ofNat n, r)
  else
    match r with
    | [] => .error (.endInString, .start [])
    | ['\\'] => .error (.endInString, .start [])
    | '\\' :: 'u' :: second =>
      let (m, r) ← readHex second
      if isTrailing m then .ok (Char.ofNat (0x10000 + (n - 0xD800) * 0x400 + (m - 0xDC00)), r)
      else .error (.surrogateAlone, .start r)
    | '\\' :: other => .error (.secondSurrogateMissing, .next other)
    | other => .error (.secondSurrogateMissing, .next other)

def unescape? (c : Char) : Option Char :=
  if c = '"' then some '"'
  else if c = '\\' then some '\\'
  else if c = '/' then some '/'
  else if c = 'b' then some '\x08'
  else if c = 'f' then some '\x0c'
  else if c = 'n' then some '\n'
  else if c = 'r' then some '\r'
  else if c = 't' then some '\t'
  else none

def readEscape : List Char → Except FaultAt (Char × List Char)
  | [] => .error (.endInString, .start [])
  | c :: r =>
    if c = 'u' then readUnicode r
    else match unescape? c with
      | some d => .ok (d, r)
      | none => .error (.escapeUnknown, .next (c :: r))

def read : Nat → List Char → Except FaultAt (List Char × List Char)
  | 0, _ => .error (.endInString, .start [])
  | _, [] => .error (.endInString, .start [])
  | fuel + 1, c :: r =>
    if c = '"' then .ok ([], r)
    else if c = '\\' then do
      let (d, r) ← readEscape r
      let (content, r) ← read fuel r
      .ok (d :: content, r)
    else if c.toNat < 0x20 then .error (.controlCharacter, .next (c :: r))
    else do
      let (content, r) ← read fuel r
      .ok (c :: content, r)

/-- Passes over an escape without asking what character it stands for. -/
def skipEscape : List Char → Except FaultAt (List Char)
  | [] => .error (.endInString, .start [])
  | c :: r =>
    if c = 'u' then (readHex r).map (·.2)
    else if (unescape? c).isSome then .ok r
    else .error (.escapeUnknown, .next (c :: r))

def skip : Nat → List Char → Except FaultAt (List Char)
  | 0, _ => .error (.endInString, .start [])
  | _, [] => .error (.endInString, .start [])
  | fuel + 1, c :: r =>
    if c = '"' then .ok r
    else if c = '\\' then skipEscape r >>= skip fuel
    else if c.toNat < 0x20 then .error (.controlCharacter, .start (c :: r))
    else skip fuel r

end SequencerHub.QuotedText
