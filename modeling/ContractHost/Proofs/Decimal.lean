import Mathlib
import ContractHost.Decimal.Layout
import ContractHost.Decimal.Reading

/-!
# Written numerals

A numeral is written in a form that can be read: there is a digit before the point, and a zero in front
only if it stands alone (`IsWhole`). The digits of a natural number are of this form and write
the number (`ofDigits_digits`), so that integers of 64 bits read back (`Numeral.toUInt64?_ofNat`). Those
of a double are too, in every layout (`Layout.isWhole_numeral`), because the shortest decimal of a number
that is not zero lies in an interval without zero.
-/

namespace ContractHost

namespace Decimal

/-- Digits with a zero in front only if it stands alone; there is at least one. -/
def IsWhole (ds : List Digit) : Prop := ∃ d rest, ds = d :: rest ∧ (d = .zero → rest = [])

/-- Digits with another one than zero in front. -/
def IsLed (ds : List Digit) : Prop := ∃ d rest, ds = d :: rest ∧ d ≠ .zero

theorem IsLed.isWhole {ds : List Digit} (led : IsLed ds) : IsWhole ds := by
  obtain ⟨d, rest, split, nonzero⟩ := led
  exact ⟨d, rest, split, fun zero => absurd zero nonzero⟩

theorem IsLed.append {ds : List Digit} (led : IsLed ds) (more : List Digit) : IsLed (ds ++ more) := by
  obtain ⟨d, rest, rfl, nonzero⟩ := led
  exact ⟨d, rest ++ more, rfl, nonzero⟩

theorem IsLed.take {ds : List Digit} (led : IsLed ds) {count : Nat} (pos : 0 < count) :
    IsLed (ds.take count) := by
  obtain ⟨d, rest, rfl, nonzero⟩ := led
  obtain ⟨count, rfl⟩ := Nat.exists_eq_add_one.2 pos
  exact ⟨d, rest.take count, rfl, nonzero⟩

theorem isWhole_singleton (d : Digit) : IsWhole [d] := ⟨d, [], rfl, fun _ => rfl⟩

/-! ## The digits of a number -/

theorem ofDigits_concat (ds : List Digit) (d : Digit) :
    ofDigits (ds ++ [d]) = ofDigits ds * 10 + d.val := by
  rw [ofDigits, List.foldl_append]
  rfl

theorem ofDigits_digitsWithin {count n : Nat} (fits : n < 10 ^ (count + 1)) :
    ofDigits (digitsWithin count n) = n := by
  induction count generalizing n with
  | zero => exact (Nat.zero_add _).trans (Nat.mod_eq_of_lt fits)
  | succ count ih =>
    rw [digitsWithin]
    split
    · rename_i small
      exact (Nat.zero_add _).trans (Nat.mod_eq_of_lt small)
    · rw [pow_succ] at fits
      rw [ofDigits_concat, ih (by omega)]
      exact Nat.div_add_mod' n 10

theorem isLed_digitsWithin {count n : Nat} (pos : 0 < n) (fits : n < 10 ^ (count + 1)) :
    IsLed (digitsWithin count n) := by
  have single {n : Nat} (pos : 0 < n) (small : n < 10) : IsLed [Fin.ofNat 10 n] := by
    refine ⟨_, [], rfl, fun zero => ?_⟩
    have value : n % 10 = 0 := congrArg Fin.val zero
    omega
  induction count generalizing n with
  | zero => exact single pos fits
  | succ count ih =>
    rw [digitsWithin]
    split
    · exact single pos ‹_›
    · rw [pow_succ] at fits
      exact (ih (by omega) (by omega)).append _

theorem lt_pow_log2 (n : Nat) : n < 10 ^ (n.log2 + 1) :=
  Nat.lt_log2_self.trans_le (Nat.pow_le_pow_left (by decide) _)

theorem ofDigits_digits (n : Nat) : ofDigits (digits n) = n := ofDigits_digitsWithin (lt_pow_log2 n)

theorem isLed_digits {n : Nat} (nonzero : n ≠ 0) : IsLed (digits n) :=
  isLed_digitsWithin (Nat.pos_of_ne_zero nonzero) (lt_pow_log2 n)

theorem isWhole_digits (n : Nat) : IsWhole (digits n) := by
  rcases eq_or_ne n 0 with rfl | nonzero
  · exact isWhole_singleton 0
  · exact (isLed_digits nonzero).isWhole

theorem Numeral.toUInt64?_ofNat (n : UInt64) : (Numeral.ofNat n.toNat).toUInt64? = some n := by
  have value : ofDigits (Numeral.ofNat n.toNat).whole = n.toNat := ofDigits_digits n.toNat
  rw [Numeral.toUInt64?, value, if_pos ⟨rfl, rfl, rfl, n.toNat_lt⟩, UInt64.ofNat_toNat]

end Decimal

/-! ## The digits of a double -/

namespace RoundingInterval

theorem contains_of_nearest? {i : RoundingInterval} {tie : TieRule} {n : Nat}
    (found : i.nearest? tie = some n) : i.contains n = true := by
  rw [nearest?] at found
  split at found
  · rename_i floor above
    have either (upper : Bool) :
        i.contains (if upper then i.value / i.unit + 1 else i.value / i.unit) = true := by
      cases upper with
      | false => exact floor
      | true => exact above
    exact Option.some.inj found ▸ either _
  · cases found
    assumption
  · cases found
    assumption
  · cases found

/-- Zero is not in an interval that begins above it. -/
theorem contains_zero {i : RoundingInterval} (above : 0 < i.low) : i.contains 0 = false := by
  rw [contains, Nat.zero_mul]
  split
  · rw [decide_eq_false (Nat.not_le.2 above), Bool.false_and]
  · rw [decide_eq_false (Nat.not_lt.2 (Nat.zero_le _)), Bool.false_and]

theorem low_scaled_pos {i : RoundingInterval} (above : 0 < i.low) (exponent : Int) :
    0 < (i.scaled exponent).low :=
  Nat.mul_pos above (Nat.pow_pos (by decide))

end RoundingInterval

namespace Binary64

theorem significand_pos {x : Binary64} (nonzero : x.isZero = false) : 0 < x.significand := by
  rw [significand]
  split
  · rename_i subnormal
    refine Nat.pos_of_ne_zero fun none => ?_
    rw [isZero, subnormal, none] at nonzero
    cases nonzero
  · omega

theorem low_pos {x : Binary64} (nonzero : x.isZero = false) :
    0 < (RoundingInterval.ofBinary64 x).low := by
  have pos := significand_pos nonzero
  refine Nat.mul_pos ?_ (Nat.pow_pos (by decide))
  show 0 < 4 * x.significand - (if _ then 1 else 2)
  split <;> omega

theorem coefficient_trim {d : Decimal} (nonzero : d.coefficient ≠ 0) (count : Nat) :
    (d.trim count).coefficient ≠ 0 := by
  induction count generalizing d with
  | zero => exact nonzero
  | succ count ih =>
    rw [Decimal.trim]
    split
    · refine ih (d := ⟨d.coefficient / 10, d.exponent + 1⟩) ?_
      show d.coefficient / 10 ≠ 0
      omega
    · exact nonzero

/-- The decimal with `k` digits behind the leading one that is nearest, if it is near enough. -/
def onGrid (tie : TieRule) (x : Binary64) (k : Nat) : Option Decimal :=
  (((RoundingInterval.ofBinary64 x).scaled (x.leadingExponent - k)).nearest? tie).map fun n =>
    Decimal.trim 20 ⟨n, x.leadingExponent - k⟩

theorem shortest_eq (tie : TieRule) (x : Binary64) :
    x.shortest tie = ((List.range 17).findSome? (x.onGrid tie)).getD ⟨0, 0⟩ := rfl

theorem coefficient_onGrid {tie : TieRule} {x : Binary64} (nonzero : x.isZero = false) {k : Nat}
    {d : Decimal} (found : x.onGrid tie k = some d) : d.coefficient ≠ 0 := by
  obtain ⟨n, nearest, rfl⟩ := Option.map_eq_some_iff.1 found
  refine coefficient_trim (d := ⟨n, _⟩) (fun zero => ?_) 20
  have inside := RoundingInterval.contains_of_nearest? nearest
  have above := RoundingInterval.low_scaled_pos (low_pos nonzero) (x.leadingExponent - k)
  rw [show n = 0 from zero, RoundingInterval.contains_zero above] at inside
  cases inside

/-- What is found for a number that is not zero is not zero; nothing found is told as zero. -/
theorem shortest_cases {x : Binary64} (nonzero : x.isZero = false) (tie : TieRule) :
    (x.shortest tie).coefficient ≠ 0 ∨ x.shortest tie = ⟨0, 0⟩ := by
  rw [shortest_eq]
  cases found : (List.range 17).findSome? (x.onGrid tie) with
  | none => exact .inr rfl
  | some d =>
    obtain ⟨k, -, here⟩ := List.exists_of_findSome?_eq_some found
    exact .inl (coefficient_onGrid nonzero here)

end Binary64

namespace Decimal

theorem isWhole_positionalNumeral {ds : List Digit} (led : IsLed ds) (pointZero negative : Bool)
    (exponent : Int) : IsWhole (positionalNumeral pointZero negative ds exponent).whole := by
  unfold positionalNumeral
  dsimp only
  split
  · exact (led.append _).isWhole
  · split
    · exact (led.take (by omega)).isWhole
    · exact isWhole_singleton _

theorem isWhole_positional_zero (pointZero negative : Bool) :
    IsWhole (positionalNumeral pointZero negative [.zero] 0).whole :=
  isWhole_singleton _

theorem Layout.isWhole_numeral (layout : Layout) (x : Binary64) :
    IsWhole (layout.numeral x).whole := by
  unfold numeral
  split
  · exact isWhole_positional_zero _ _
  · rename_i nonzero
    rcases Binary64.shortest_cases (Bool.eq_false_iff.2 nonzero) layout.tie with some | none
    · have led := isLed_digits some
      dsimp only
      split
      · exact isWhole_positionalNumeral led _ _ _
      · exact (led.take Nat.one_pos).isWhole
    · rw [none]
      dsimp only
      split
      · exact isWhole_positional_zero _ _
      · exact isWhole_singleton _

end Decimal

end ContractHost
