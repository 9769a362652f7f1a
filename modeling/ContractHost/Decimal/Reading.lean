import ContractHost.Decimal.Binary64
import ContractHost.Decimal.Numeral

/-!
# Reading numerals

A numeral is read as a 64-bit integer when it is a natural number in range, or as a double. The
double is computed, not rounded from the exact value: the leading digits that fit 64 bits make an
integer, which is converted and then multiplied or divided by a power of ten.
-/

namespace ContractHost.Decimal

/-- Appends digits to a number as long as it stays below `2 ^ 64`; the second component is how many
digits were left over. -/
def accumulate (n : Nat) : List Digit → Nat × Nat
  | [] => (n, 0)
  | d :: ds =>
    if n * 10 + d.val < UInt64.size then accumulate (n * 10 + d.val) ds else (n, ds.length + 1)

/-- Ten to a power as a double. -/
def powerOfTen (n : Nat) : Float := Float.ofScientific 1 false n

/-- Multiplies by a power of ten, refusing an infinite result. A power below `10 ^ -308` takes
several divisions; a number below `2 ^ 64` is zero after two of them. -/
def scaleByTen : Nat → Float → Int → Option Float
  | rounds, x, power =>
    if power.natAbs ≤ 308 then
      if 0 ≤ power then
        let y := x * powerOfTen power.natAbs
        if y.isInf then none else some y
      else
        some (x / powerOfTen power.natAbs)
    else if x == 0 then some x
    else if 0 ≤ power then none
    else match rounds with
      | 0 => some 0
      | rounds + 1 => scaleByTen rounds (x / powerOfTen 308) (power + 308)

namespace Numeral

/-- A natural number below `2 ^ 64`, written without sign, point and exponent. -/
def toUInt64? (n : Numeral) : Option UInt64 :=
  let value := ofDigits n.whole
  if n.negative = false ∧ n.fraction = [] ∧ n.exponent = none ∧ value < UInt64.size then
    some (UInt64.ofNat value)
  else none

/-- The double that a numeral is read as, unless it is out of range. -/
def toBinary64? (n : Numeral) : Option Binary64 :=
  let whole := accumulate 0 n.whole
  let all := accumulate whole.1 n.fraction
  let power : Int := whole.2 + all.2 - n.fraction.length + n.exponent.getD 0
  (scaleByTen 3 (UInt64.ofNat all.1).toFloat power).map fun x =>
    .ofFloat (if n.negative then -x else x)

end Numeral

end ContractHost.Decimal
