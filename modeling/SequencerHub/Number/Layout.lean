import SequencerHub.Number.Shortest

/-! Written forms of floating-point numbers. A layout is one record of decisions; the digits are always the shortest
that read back. -/
namespace SequencerHub

structure NumberLayout where
  /-- Positional notation is used for decimal exponents of the leading digit from here … -/
  leastPositional : Int
  /-- … up to here; beyond them an exponent is written. -/
  greatestPositional : Int
  /-- A whole number keeps one zero after the point. -/
  keepsPoint : Bool
  exponentWidth : Nat

namespace NumberLayout

def zeros (n : Nat) : List Char := List.replicate n '0'

/-- The digits with a point after the first `before` of them. -/
def positional (layout : NumberLayout) (ds : List Char) (lead : Int) : List Char :=
  let before := lead + 1
  if before ≤ 0 then '0' :: '.' :: zeros (-before).toNat ++ ds
  else
    let n := before.toNat
    if ds.length ≤ n then
      ds ++ zeros (n - ds.length) ++ (if layout.keepsPoint then ['.', '0'] else [])
    else ds.take n ++ '.' :: ds.drop n

def scientific (layout : NumberLayout) (ds : List Char) (lead : Int) : List Char :=
  let mantissa := match ds with
    | [] => ['0']
    | [d] => [d]
    | d :: more => d :: '.' :: more
  let size := Nat.toDigits 10 lead.natAbs
  let sign := if lead < 0 then '-' else '+'
  mantissa ++ 'e' :: sign :: zeros (layout.exponentWidth - size.length) ++ size

/-- The text of a finite number; the sign of zero is kept. -/
def write (layout : NumberLayout) (x : Binary64) : List Char :=
  let d := x.shortest
  let ds := Nat.toDigits 10 d.digits
  let lead : Int := d.exponent + ds.length - 1
  let body :=
    if layout.leastPositional ≤ lead ∧ lead ≤ layout.greatestPositional
    then positional layout ds lead else scientific layout ds lead
  if x.isNegative then '-' :: body else body

end NumberLayout

/-- Numbers in JSON text: positional from a ten-thousandth to below ten to the sixteenth, always with
a point or an exponent, so that they are told from integers. -/
def jsonNumberLayout : NumberLayout := ⟨-4, 15, true, 2⟩

/-- Numbers in messages about layered configuration: always positional, whole numbers bare. -/
def plainNumberLayout : NumberLayout := ⟨-400, 400, false, 1⟩

end SequencerHub
