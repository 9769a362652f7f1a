import Mathlib
import ContractHost.Gas.StorageCosts
import ContractHost.Proofs.Fallible

/-!
# Arithmetic with a bound

Prices and meters are computed in 64 bits and clamped at the largest amount of gas. That loses nothing
but what is beyond the bound: a price is the exact sum of its parts, clamped once
(`Gas.toNat_addClamped_mulClamped`), and a meter goes through any operations as a balance of integers
does of which an uncovered charge takes all (`Meter.remaining_after`).
-/

namespace ContractHost

namespace Gas

theorem toNat_le_largest (a : Gas) : a.toNat ≤ largest.toNat := Nat.le_of_lt_succ a.toNat_lt

/-- Clamping the amount, the product and the sum is the same as clamping the result. -/
theorem toNat_addClamped_mulClamped (flat each : Gas) (count : Nat) :
    (flat.addClamped (each.mulClamped (ofNatClamped count))).toNat =
      min (flat.toNat + each.toNat * count) largest.toNat := by
  rw [toNat_addClamped, toNat_mulClamped, toNat_ofNatClamped]
  rcases Nat.eq_zero_or_pos each.toNat with free | priced
  · rw [free, Nat.zero_mul, Nat.zero_mul, Nat.zero_min]
  · rcases Nat.le_total count largest.toNat with fits | beyond
    · rw [Nat.min_eq_left fits]
      omega
    · -- The count alone reaches the bound, and so does what it costs.
      have exact := Nat.le_mul_of_pos_left count priced
      have clamped := Nat.le_mul_of_pos_left largest.toNat priced
      rw [Nat.min_eq_right beyond]
      omega

theorem addClamped_mulClamped_mono (flat each : Gas) {m n : Nat} (le : m ≤ n) :
    flat.addClamped (each.mulClamped (ofNatClamped m)) ≤
      flat.addClamped (each.mulClamped (ofNatClamped n)) := by
  have more := Nat.mul_le_mul_left each.toNat le
  rw [UInt64.le_iff_toNat_le, toNat_addClamped_mulClamped, toNat_addClamped_mulClamped]
  omega

end Gas

namespace Meter

/-- Something that is done to a meter. -/
inductive Operation where
  | charge (amount : Gas)
  | refund (amount : Gas)
deriving DecidableEq, Repr

namespace Operation

/-- Does it. -/
def run : Operation → RuntimeM Meter Unit
  | charge amount => Meter.charge amount
  | refund amount => modify (Meter.refund amount)

/-- What becomes of a balance: a charge that it covers is subtracted, one that it does not cover takes
all there is, and a refund fills it up to the largest amount of gas. -/
def settle : Operation → ℤ → ℤ
  | charge amount, balance => if amount.toNat ≤ balance then balance - amount.toNat else 0
  | refund amount, balance => min (balance + amount.toNat) (2 ^ 64 - 1)

/-- What an operation gives, the gas that is left being known. -/
def result : Operation → Gas → Except RuntimeError Unit
  | charge amount, left =>
    if amount.toNat ≤ (left.toNat : ℤ) then .ok () else .error (.insufficientGas amount left)
  | refund _, _ => .ok ()

end Operation

/-- A meter after operations, whichever of them failed. -/
def after (meter : Meter) (operations : List Operation) : Meter :=
  operations.foldl (fun meter operation => (Fallible.eval operation.run meter).2) meter

/-- A balance after operations. -/
def settled (operations : List Operation) (balance : ℤ) : ℤ :=
  operations.foldl (fun balance operation => operation.settle balance) balance

theorem eval_charge (amount : Gas) (meter : Meter) :
    Fallible.eval (charge amount) meter =
      if meter.remaining < amount then (.error (.insufficientGas amount meter.remaining), ⟨0⟩)
      else (.ok (), ⟨meter.remaining - amount⟩) :=
  run_charge amount meter

/-- One operation keeps a meter and a balance equal. -/
theorem eval_run (operation : Operation) (meter : Meter) :
    (Fallible.eval operation.run meter).1 = operation.result meter.remaining ∧
      ((Fallible.eval operation.run meter).2.remaining.toNat : ℤ) =
        operation.settle meter.remaining.toNat := by
  cases operation with
  | charge amount =>
    rw [Operation.run, eval_charge, Operation.result, Operation.settle]
    by_cases short : meter.remaining < amount
    · have uncovered := UInt64.lt_iff_toNat_lt.1 short
      rw [if_pos short, if_neg (by omega), if_neg (by omega)]
      exact ⟨rfl, rfl⟩
    · have covered := UInt64.le_iff_toNat_le.1 (UInt64.not_lt.1 short)
      rw [if_neg short, if_pos (by omega), if_pos (by omega), Gas.toNat_sub (UInt64.not_lt.1 short)]
      exact ⟨rfl, Nat.cast_sub covered⟩
  | refund amount =>
    have sum := toNat_remaining_refund amount meter
    rw [Gas.toNat_largest] at sum
    refine ⟨rfl, ?_⟩
    show ((meter.refund amount).remaining.toNat : ℤ) = min _ _
    omega

theorem remaining_after (operations : List Operation) (meter : Meter) :
    ((meter.after operations).remaining.toNat : ℤ) = settled operations meter.remaining.toNat := by
  induction operations generalizing meter with
  | nil => rfl
  | cons operation operations ih =>
    have step := (eval_run operation meter).2
    exact (ih _).trans (congrArg (settled operations) step)

theorem eq_iff_toNat {meter other : Meter} :
    meter = other ↔ (meter.remaining.toNat : ℤ) = other.remaining.toNat := by
  rw [Nat.cast_inj, UInt64.toNat_inj]
  exact ⟨congrArg remaining, congrArg mk⟩

theorem after_charge_refund_iff (amount : Gas) (meter : Meter) :
    meter.after [.charge amount, .refund amount] = meter ↔ amount ≤ meter.remaining := by
  have bound := Gas.toNat_le_largest meter.remaining
  have bound' := Gas.toNat_le_largest amount
  rw [Gas.toNat_largest] at bound bound'
  rw [eq_iff_toNat, remaining_after, UInt64.le_iff_toNat_le]
  simp only [settled, List.foldl_cons, List.foldl_nil, Operation.settle]
  by_cases covered : (amount.toNat : ℤ) ≤ meter.remaining.toNat
  · rw [if_pos covered]
    omega
  · rw [if_neg covered]
    omega

theorem settled_mem_Icc (operations : List Operation) (meter : Meter) :
    settled operations meter.remaining.toNat ∈ Set.Icc 0 (2 ^ 64 - 1) := by
  have bound := Gas.toNat_le_largest (meter.after operations).remaining
  rw [Gas.toNat_largest] at bound
  rw [← remaining_after, Set.mem_Icc]
  omega

end Meter

/-- The price of reading or writing a value is the exact one, clamped, and rises with the length of the
value. A meter and a balance of integers agree after any operations: they hold the same amount, a
charge fails if that does not cover it and reports both, and what is charged and given back is as it
was just if it was covered. -/
theorem metering_exact_up_to_clamping :
    (∀ (costs : StorageCosts) (length : Nat),
      (costs.read length).toNat =
          min (costs.readFlat.toNat + costs.readPerByte.toNat * length) (2 ^ 64 - 1) ∧
        (costs.write length).toNat =
          min (costs.writeFlat.toNat + costs.writePerByte.toNat * length) (2 ^ 64 - 1)) ∧
      (∀ (costs : StorageCosts) {shorter longer : Nat}, shorter ≤ longer →
        costs.read shorter ≤ costs.read longer ∧ costs.write shorter ≤ costs.write longer) ∧
      (∀ (meter : Meter) (operations : List Meter.Operation),
        let left := (meter.after operations).remaining
        let balance := Meter.settled operations meter.remaining.toNat
        (left.toNat : ℤ) = balance ∧ balance ∈ Set.Icc 0 (2 ^ 64 - 1) ∧
          ∀ operation : Meter.Operation,
            (Fallible.eval operation.run (meter.after operations)).1 = operation.result left) ∧
      ∀ (meter : Meter) (amount : Gas),
        meter.after [.charge amount, .refund amount] = meter ↔ amount ≤ meter.remaining := by
  refine ⟨fun costs length => ⟨?_, ?_⟩, fun costs _ _ le => ⟨?_, ?_⟩, fun meter operations => ?_,
    fun meter amount => Meter.after_charge_refund_iff amount meter⟩
  · exact Gas.toNat_addClamped_mulClamped costs.readFlat costs.readPerByte length
  · exact Gas.toNat_addClamped_mulClamped costs.writeFlat costs.writePerByte length
  · exact Gas.addClamped_mulClamped_mono costs.readFlat costs.readPerByte le
  · exact Gas.addClamped_mulClamped_mono costs.writeFlat costs.writePerByte le
  · exact ⟨Meter.remaining_after operations meter, Meter.settled_mem_Icc operations meter,
      fun operation => (Meter.eval_run operation _).1⟩

/-- A price per byte of half the range is clamped from two bytes on. -/
theorem metering_exact_up_to_clamping_steep :
    let costs : StorageCosts := { StorageCosts.standard with writePerByte := 0x8000000000000000 }
    costs.write 1 ≤ costs.write 3 ∧ (costs.write 1).toNat = 2000 + 2 ^ 63 ∧
      (costs.write 3).toNat = 2 ^ 64 - 1 := by
  intro costs
  obtain ⟨exact, rises, -⟩ := metering_exact_up_to_clamping
  exact ⟨(rises costs (by decide)).2, (exact costs 1).2.trans (by decide), (exact costs 3).2.trans (by decide)⟩

/-- A charge that is not covered takes what is left, so that giving it back gives more. -/
example :
    (Meter.mk 500).after [.charge 501, .refund 501] = ⟨501⟩ ∧
      (Meter.mk 501).after [.charge 501, .refund 501] = ⟨501⟩ := by decide

end ContractHost
