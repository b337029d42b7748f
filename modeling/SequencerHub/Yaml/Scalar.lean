import SequencerHub.Json.NumberText
import SequencerHub.Tree

/-! What unquoted text stands for: nothing, a truth value, a number or itself. -/
namespace SequencerHub.Yaml

def digitBelow (base : Nat) (c : Char) : Option Nat :=
  let v :=
    if '0' ≤ c ∧ c ≤ '9' then some (c.toNat - 48)
    else if 'a' ≤ c ∧ c ≤ 'f' then some (c.toNat - 87)
    else if 'A' ≤ c ∧ c ≤ 'F' then some (c.toNat - 55)
    else none
  v.filter (· < base)

def digits? (base : Nat) (acc : Nat) : List Char → Option Nat
  | [] => some acc
  | c :: cs =>
    match digitBelow base c with
    | some d => digits? base (base * acc + d) cs
    | none => none

def natural? (base : Nat) (cs : List Char) : Option Nat :=
  if cs.isEmpty then none else digits? base 0 cs

/-- Digits behind a leading zero are text. -/
def isPadded (cs : List Char) : Bool :=
  let cs := match cs with
    | '+' :: r => r
    | '-' :: r => r
    | r => r
  match cs with
  | '0' :: r => !r.isEmpty && r.all Char.isDigit
  | _ => false

/-- An unsigned integer in base ten, or behind `0x`, `0o` and `0b` in another. -/
def magnitude? (cs : List Char) : Option Nat :=
  match cs with
  | '0' :: 'x' :: r => natural? 16 r
  | '0' :: 'o' :: r => natural? 8 r
  | '0' :: 'b' :: r => natural? 2 r
  | r => if isPadded r then none else natural? 10 r

def integer? (cs : List Char) : Option Int :=
  match cs with
  | '-' :: r => (magnitude? r).map fun n => -(n : Int)
  | '+' :: r => (magnitude? r).map fun n => (n : Int)
  | r => (magnitude? r).map fun n => (n : Int)

/-- Whether an integer has at most 128 bits. What has more is read as a decimal number, if it can be. -/
def isBounded (n : Int) : Bool :=
  -0x80000000000000000000000000000000 ≤ n && n < 0x100000000000000000000000000000000

/-- A decimal number: digits with or without a point, and an exponent if one follows; the sign is taken
already. -/
def decimal? (cs : List Char) : Option Float :=
  let whole := cs.takeWhile Char.isDigit
  let r := cs.dropWhile Char.isDigit
  let (fraction, r) := match r with
    | '.' :: r => (r.takeWhile Char.isDigit, r.dropWhile Char.isDigit)
    | r => ([], r)
  let digits := whole ++ fraction
  if digits.isEmpty then none
  else
    let mantissa := (digits? 10 0 digits).getD 0
    let value (e : Int) : Float :=
      let e := e - fraction.length
      if e < 0 then Float.ofScientific mantissa true e.natAbs
      else Float.ofScientific mantissa false e.natAbs
    match r with
    | [] => some (value 0)
    | c :: r =>
      if c = 'e' ∨ c = 'E' then
        let (down, r) := match r with
          | '+' :: r => (false, r)
          | '-' :: r => (true, r)
          | r => (false, r)
        -- far beyond the range every exponent means the same
        (natural? 10 r).map fun n =>
          let n := min n 100000
          value (if down then -(n : Int) else n)
      else none

def float? (cs : List Char) : Option Float :=
  match cs with
  | '-' :: r => (decimal? r).map fun f => -f
  | '+' :: r => decimal? r
  | r => decimal? r

def infinity : Float := 1.0 / 0.0

def float : List Char → Option Float := fun cs =>
  let s := String.ofList cs
  if s ∈ [".inf", ".Inf", ".INF", "+.inf", "+.Inf", "+.INF"] then some infinity
  else if s ∈ ["-.inf", "-.Inf", "-.INF"] then some (-infinity)
  else if s ∈ [".nan", ".NaN", ".NAN"] then some (0.0 / 0.0)
  else (float? cs).filter Float.isFinite

def resolve (cs : List Char) : Scalar :=
  let s := String.ofList cs
  if s ∈ ["", "null", "Null", "NULL", "~"] then .null
  else if s ∈ ["true", "True", "TRUE"] then .bool true
  else if s ∈ ["false", "False", "FALSE"] then .bool false
  else
    match (integer? cs).filter isBounded with
    | some n =>
      match Whole.ofInt? n with
      | some w => .number (.whole w)
      | none => .wide n
    | none =>
      if isPadded cs then .string s
      else
        match float cs with
        | some f => .number (.float (.ofFloat f))
        | none => .string s

end SequencerHub.Yaml
