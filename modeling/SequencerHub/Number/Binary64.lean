/-! Floating-point numbers as their 64 bits. Keeping the bits gives equality by value of the representation, so that a
zero and its negative differ and every statement about a number is about its sign, significand and exponent. -/
namespace SequencerHub

structure Binary64 where
  bits : UInt64
  deriving DecidableEq, Inhabited

namespace Binary64

def ofFloat (f : Float) : Binary64 := ⟨f.toBits⟩

def toFloat (x : Binary64) : Float := Float.ofBits x.bits

def isNegative (x : Binary64) : Bool := x.bits >>> 63 != 0

def magnitude (x : Binary64) : Nat := (x.bits &&& 0x7fffffffffffffff).toNat

def negate (x : Binary64) : Binary64 := ⟨x.bits ^^^ 0x8000000000000000⟩

def exponentField (x : Binary64) : Nat := x.magnitude / 0x10000000000000

def fraction (x : Binary64) : Nat := x.magnitude % 0x10000000000000

def isFinite (x : Binary64) : Bool := x.exponentField < 2047

/-- Integer significand `m` of a finite number, whose magnitude is `m * 2 ^ scale`. -/
def significand (x : Binary64) : Nat :=
  if x.exponentField = 0 then x.fraction else x.fraction + 0x10000000000000

def scale (x : Binary64) : Int :=
  if x.exponentField = 0 then -1074 else (x.exponentField : Int) - 1075

end Binary64
end SequencerHub
