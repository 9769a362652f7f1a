/-!
# Double precision numbers

A `Binary64` is a number in the IEEE 754 double format, kept as its bits: two of them are equal
when their bits are, so that zeros of either sign differ and a NaN equals itself. A finite one is
`significand * 2 ^ scale`, up to its sign. `toFloat` hands it to the machine's arithmetic.
-/

namespace ContractHost

/-- A double precision number, given by its bits. -/
structure Binary64 where
  bits : UInt64
deriving DecidableEq, Repr, Inhabited

namespace Binary64

/-- The number as an operand of arithmetic. -/
def toFloat (x : Binary64) : Float := Float.ofBits x.bits

/-- The bits of a result of arithmetic. -/
def ofFloat (x : Float) : Binary64 := ⟨x.toBits⟩

/-- The sign bit is set. -/
def isNegative (x : Binary64) : Bool := 0x8000000000000000 ≤ x.bits.toNat

/-- The eleven bits of the biased exponent. -/
def exponentField (x : Binary64) : Nat := x.bits.toNat / 0x10000000000000 % 0x800

/-- The 52 bits below the exponent. -/
def fractionField (x : Binary64) : Nat := x.bits.toNat % 0x10000000000000

/-- Neither an infinity nor a NaN. -/
def isFinite (x : Binary64) : Bool := x.exponentField ≠ 2047

/-- All exponent bits are set and some bit of the fraction. -/
def isNaN (x : Binary64) : Bool := x.exponentField = 2047 ∧ x.fractionField ≠ 0

/-- A zero of either sign. -/
def isZero (x : Binary64) : Bool := x.exponentField = 0 ∧ x.fractionField = 0

/-- Below zero; a NaN and the negative zero are not. -/
def isBelowZero (x : Binary64) : Bool := x.isNegative && !x.isNaN && !x.isZero

/-- The integer that a finite number is a power of two times of. -/
def significand (x : Binary64) : Nat :=
  if x.exponentField = 0 then x.fractionField else 0x10000000000000 + x.fractionField

/-- The power of two that goes with the significand. -/
def scale (x : Binary64) : Int := max 1 x.exponentField - 1075

end Binary64

end ContractHost
