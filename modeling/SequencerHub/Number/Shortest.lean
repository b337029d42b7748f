import SequencerHub.Number.Binary64

/-! The shortest decimal of a finite binary number: of all decimals that round to the number, one with the fewest
digits, and of those the nearest. Everything is exact arithmetic on naturals. -/
namespace SequencerHub

/-- The decimal `digits * 10 ^ exponent`, without trailing zeros unless it is zero. -/
structure Decimal where
  digits : Nat
  exponent : Int
  deriving DecidableEq, Inhabited

namespace Decimal

def digitCount (n : Nat) : Nat := (Nat.toDigits 10 n).length

def trimZeros : Nat → Decimal → Decimal
  | 0, d => d
  | fuel + 1, d =>
    if d.digits ≠ 0 ∧ d.digits % 10 = 0 then trimZeros fuel ⟨d.digits / 10, d.exponent + 1⟩ else d

/-- The decimal on the grid of `10 ^ e` with the given count of steps. -/
def onGrid (steps : Nat) (e : Int) : Decimal := trimZeros 20 ⟨steps, e⟩

end Decimal

namespace Binary64

/-- The reals that round to a number, scaled by `unit`: a point `p / unit` rounds to it exactly
when `low < p < high`, or when `p` is an end and `closed` holds. -/
structure RoundingInterval where
  low : Nat
  middle : Nat
  high : Nat
  unit : Nat
  closed : Bool

/-- The rounding interval of a finite positive number. Below a power of two the next number is only
half as far away. -/
def interval (x : Binary64) : RoundingInterval :=
  let m := x.significand
  let narrow := x.fraction = 0 ∧ 1 < x.exponentField
  let low := if narrow then 4 * m - 1 else 4 * m - 2
  let up := Nat.pow 2 (x.scale - 2).toNat
  let down := Nat.pow 2 (-(x.scale - 2)).toNat
  ⟨low * up, 4 * m * up, (4 * m + 2) * up, down, m % 2 = 0⟩

def RoundingInterval.contains (i : RoundingInterval) (p : Nat) : Bool :=
  (i.low < p && p < i.high) || (i.closed && (p == i.low || p == i.high))

/-- The point nearest to the middle, of the two grid neighbours of the middle with step
`10 ^ e`, that lies in the interval. The answer counts grid steps. -/
def gridHit (i : RoundingInterval) (e : Int) : Option Nat :=
  let step := Nat.pow 10 e.toNat * i.unit
  let stretch := Nat.pow 10 (-e).toNat
  let j : RoundingInterval :=
    ⟨i.low * stretch, i.middle * stretch, i.high * stretch, i.unit, i.closed⟩
  let below := j.middle / step
  let above := below + 1
  let okBelow := below ≠ 0 ∧ j.contains (below * step)
  let okAbove := j.contains (above * step)
  if okBelow ∧ okAbove then
    let gapBelow := j.middle - below * step
    let gapAbove := above * step - j.middle
    if gapBelow < gapAbove ∨ (gapBelow = gapAbove ∧ below % 2 = 0) then some below else some above
  else if okBelow then some below
  else if okAbove then some above
  else none

/-- Tries the grids from the coarsest to the finest. -/
def firstHit (i : RoundingInterval) : List Int → Decimal
  | [] => ⟨0, 0⟩
  | e :: finer =>
    match gridHit i e with
    | some steps => Decimal.onGrid steps e
    | none => firstHit i finer

/-- The shortest decimal of the magnitude of a finite number. Seventeen digits always suffice. -/
def shortest (x : Binary64) : Decimal :=
  if x.magnitude = 0 then ⟨0, 0⟩
  else
    let i := x.interval
    let lead : Int :=
      if i.unit ≤ i.middle then Decimal.digitCount (i.middle / i.unit)
      else 1 - (Decimal.digitCount (i.unit / i.middle) : Int)
    firstHit i ((List.range 19).map fun (n : Nat) => lead + 1 - (n : Int))

end Binary64
end SequencerHub
