import ContractHost.Decimal.Binary64
import ContractHost.Decimal.Numeral

/-!
# Shortest decimals

`Binary64.shortest` gives the decimal with the fewest digits among those that are nearer to a
number than to any other double, and of several with that many digits the nearest to the number.
All comparisons are between integers: the number, the two ends of the interval of reals that round
to it, and a point of the grid of multiples of a power of ten are brought to one denominator first.
-/

namespace ContractHost

/-- The number `coefficient * 10 ^ exponent`. -/
structure Decimal where
  coefficient : Nat
  exponent : Int
deriving DecidableEq, Repr, Inhabited

/-- Which of two equally near decimals is taken. -/
inductive TieRule where
  | toEven
  | up
deriving DecidableEq, Repr

namespace Decimal

/-- Moves final zeros of the coefficient into the exponent, at most `count` of them. -/
def trim : Nat → Decimal → Decimal
  | 0, d => d
  | count + 1, d =>
    if d.coefficient % 10 = 0 then trim count ⟨d.coefficient / 10, d.exponent + 1⟩ else d

end Decimal

/-- The reals that round to a double, from `low` to `high`, and the double itself, all in units of
one `unit`-th. The ends belong to the interval when it is `closed`. -/
structure RoundingInterval where
  low : Nat
  value : Nat
  high : Nat
  unit : Nat
  closed : Bool

namespace RoundingInterval

/-- The interval around `significand * 2 ^ scale`. Halfway to a neighbour is two quarters of a unit
of the significand, but one quarter below the smallest significand of a binade. -/
def ofBinary64 (x : Binary64) : RoundingInterval :=
  let m := x.significand
  let below := if m = 0x10000000000000 ∧ 1 < x.exponentField then 1 else 2
  let q := x.scale - 2
  let up := Nat.pow 2 q.toNat
  { low := (4 * m - below) * up
    value := 4 * m * up
    high := (4 * m + 2) * up
    unit := Nat.pow 2 (-q).toNat
    closed := m % 2 = 0 }

/-- The interval with ten to the `exponent` in place of one. -/
def scaled (i : RoundingInterval) (exponent : Int) : RoundingInterval :=
  let up := Nat.pow 10 (-exponent).toNat
  { low := i.low * up
    value := i.value * up
    high := i.high * up
    unit := i.unit * Nat.pow 10 exponent.toNat
    closed := i.closed }

/-- The integer `n` lies in the interval. -/
def contains (i : RoundingInterval) (n : Nat) : Bool :=
  let point := n * i.unit
  if i.closed then i.low ≤ point && point ≤ i.high else i.low < point && point < i.high

/-- The integer nearest to the value among its two neighbours that lie in the interval. -/
def nearest? (tie : TieRule) (i : RoundingInterval) : Option Nat :=
  let floor := i.value / i.unit
  let rest := i.value % i.unit
  let upper :=
    if 2 * rest = i.unit then tie = .up || floor % 2 = 1 else i.unit < 2 * rest
  match i.contains floor, i.contains (floor + 1) with
  | true, true => some (if upper then floor + 1 else floor)
  | true, false => some floor
  | false, true => some (floor + 1)
  | false, false => none

end RoundingInterval

namespace Binary64

/-- The power of ten of the leading digit of a positive number, from the number of digits left of
the point once it is moved 400 places, which is enough for every double. -/
def leadingExponent (x : Binary64) : Int :=
  let i := RoundingInterval.ofBinary64 x
  ((Decimal.digits (i.value * Nat.pow 10 400 / i.unit)).length : Int) - 401

/-- The shortest decimal of a positive finite number; seventeen digits always suffice. -/
def shortest (tie : TieRule) (x : Binary64) : Decimal :=
  let i := RoundingInterval.ofBinary64 x
  let lead := x.leadingExponent
  let onGrid (k : Nat) : Option Decimal :=
    ((i.scaled (lead - k)).nearest? tie).map fun n => Decimal.trim 20 ⟨n, lead - k⟩
  ((List.range 17).findSome? onGrid).getD ⟨0, 0⟩

end Binary64

end ContractHost
