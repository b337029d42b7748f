import SequencerHub.Json.Basic
import SequencerHub.Json.Fault
import SequencerHub.Text.Position

/-! Numbers in JSON text: first their parts, then their value. An integer keeps its exact value as long as it fits a
64-bit word; any other number takes the digits that fit into a word as its significand and scales it by a power of
ten. -/
namespace SequencerHub

abbrev FaultAt := Fault × Spot

/-- The parts of a number: the exponent comes with its direction, upwards being true. -/
structure NumberText where
  negative : Bool
  digits : List Char
  fraction : Option (List Char)
  exponent : Option (Bool × List Char)

namespace NumberText

def startsWithDigit : List Char → Bool
  | c :: _ => c.isDigit
  | [] => false

def scanExponent (t : NumberText) : List Char → Except FaultAt (NumberText × List Char)
  | [] => .ok (t, [])
  | c :: r =>
    if c = 'e' ∨ c = 'E' then
      let (upwards, r) := match r with
        | '+' :: r => (true, r)
        | '-' :: r => (false, r)
        | r => (true, r)
      match r with
      | [] => .error (.endInValue, .start [])
      | d :: _ =>
        if d.isDigit then
          .ok ({ t with exponent := some (upwards, r.takeWhile Char.isDigit) },
            r.dropWhile Char.isDigit)
        else .error (.numberMalformed, .next r)
    else .ok (t, c :: r)

def scanFraction (t : NumberText) : List Char → Except FaultAt (NumberText × List Char)
  | '.' :: r =>
    match r with
    | [] => .error (.endInValue, .next [])
    | d :: _ =>
      if d.isDigit then
        scanExponent { t with fraction := some (r.takeWhile Char.isDigit) }
          (r.dropWhile Char.isDigit)
      else .error (.numberMalformed, .next r)
  | r => scanExponent t r

/-- The digits before the point; a zero stands alone. -/
def scanDigits (negative : Bool) : List Char → Except FaultAt (NumberText × List Char)
  | [] => .error (.endInValue, .start [])
  | c :: r =>
    if c = '0' then
      if startsWithDigit r then .error (.numberMalformed, .next r)
      else scanFraction ⟨negative, ['0'], none, none⟩ r
    else if c.isDigit then
      scanFraction ⟨negative, (c :: r).takeWhile Char.isDigit, none, none⟩
        ((c :: r).dropWhile Char.isDigit)
    else .error (.numberMalformed, .next (c :: r))

def scan : List Char → Except FaultAt (NumberText × List Char)
  | '-' :: r => scanDigits true r
  | r => scanDigits false r

def digitValue (c : Char) : Nat := c.toNat - 48

/-- Takes digits as long as the number they form with those before stays at or below the bound. -/
def accumulate (bound : Nat) (n : Nat) : List Char → Nat × List Char
  | [] => (n, [])
  | c :: r =>
    if 10 * n + digitValue c ≤ bound then accumulate bound (10 * n + digitValue c) r else (n, c :: r)

def wordBound : Nat := 0xffffffffffffffff
def exponentBound : Nat := 0x7fffffff

def powerOfTen (n : Nat) : Float := Float.ofScientific 1 false n

/-- Divides by a power of ten in steps that binary floating point can hold. -/
def scaleDown : Nat → Float → Nat → Float
  | 0, f, _ => f
  | steps + 1, f, n =>
    if n ≤ 308 then f / powerOfTen n
    else if f == 0 then f
    else scaleDown steps (f / powerOfTen 308) (n - 308)

/-- The magnitude of a significand scaled by a power of ten; nothing when it is too large. Four
steps take any word to zero. -/
def scaled (significand : Nat) (exponent : Int) : Option Float :=
  let f := (UInt64.ofNat significand).toFloat
  if exponent < 0 then some (scaleDown 4 f exponent.natAbs)
  else if exponent ≤ 308 then
    let g := f * powerOfTen exponent.natAbs
    if g.isInf then none else some g
  else if f == 0 then some f
  else none

def signed (negative : Bool) (x : Binary64) : Binary64 := if negative then x.negate else x

/-- An integer; a negative one that does not fit, and a negative zero, are floating point. -/
def integer (negative : Bool) (n : Nat) : JsonNumber :=
  let i : Int := if negative then -n else n
  match Whole.ofInt? i with
  | some w => if negative ∧ n = 0 then .float (.negate (.ofFloat 0)) else .whole w
  | none => .float (signed negative (.ofFloat (UInt64.ofNat n).toFloat))

/-- Significand and decimal exponent of the digits before and behind the point. -/
def parts (t : NumberText) : Nat × Int :=
  let (n, left) := accumulate wordBound 0 t.digits
  match t.fraction with
  | none => (n, left.length)
  | some ds =>
    let (m, excess) := accumulate wordBound n ds
    (m, (left.length : Int) - ((ds.length - excess.length : Nat) : Int))

/-- The value; `rest` is the text behind the number, to tell where it is too large. -/
def value (t : NumberText) (rest : List Char) : Except FaultAt JsonNumber :=
  let (n, e) := t.parts
  let float (e : Int) : Except FaultAt JsonNumber :=
    match scaled n e with
    | some f => .ok (.float (signed t.negative (.ofFloat f)))
    | none => .error (.numberTooLarge, .start rest)
  match t.exponent with
  | some (upwards, ds) =>
    match accumulate exponentBound 0 ds with
    | (k, []) => float (if upwards then e + k else e - k)
    | (_, _ :: excess) =>
      if upwards ∧ n ≠ 0 then .error (.numberTooLarge, .start (excess ++ rest))
      else .ok (.float (signed t.negative (.ofFloat 0)))
  | none =>
    if t.fraction.isNone ∧ e = 0 then .ok (integer t.negative n) else float e

end NumberText
end SequencerHub
