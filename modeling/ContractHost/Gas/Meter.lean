import ContractHost.Error

/-!
# The gas meter

A meter holds the gas that is left. A charge that the meter covers is taken from it; one that it
does not cover fails and takes all that is left. A refund is clamped at the largest amount, so an
unmetered run is one that starts with that amount.
-/

namespace ContractHost

/-- The gas that is left. -/
structure Meter where
  remaining : Gas
deriving DecidableEq, Repr, Inhabited

namespace Meter

/-- The meter of a run that is not limited. -/
def unlimited : Meter := ⟨Gas.largest⟩

/-- Takes an amount, or all that is left when that is less. -/
def charge (amount : Gas) : ExceptT RuntimeError (StateM Meter) Unit := do
  let available := (← get).remaining
  if available < amount then
    set (Meter.mk 0)
    throw (.insufficientGas amount available)
  set (Meter.mk (available - amount))

/-- Gives an amount back. -/
def refund (amount : Gas) (meter : Meter) : Meter := ⟨meter.remaining.addClamped amount⟩

theorem run_charge (amount : Gas) (meter : Meter) :
    (charge amount).run.run meter =
      if meter.remaining < amount then (.error (.insufficientGas amount meter.remaining), ⟨0⟩)
      else (.ok (), ⟨meter.remaining - amount⟩) := by
  have unfolded : (charge amount).run.run meter =
      (if meter.remaining < amount then (do
        set (Meter.mk 0)
        throw (.insufficientGas amount meter.remaining))
      else set (Meter.mk (meter.remaining - amount)) :
        ExceptT RuntimeError (StateM Meter) Unit).run.run meter := rfl
  rw [unfolded]
  split <;> rfl

theorem toNat_remaining_refund (amount : Gas) (meter : Meter) :
    (meter.refund amount).remaining.toNat =
      min (meter.remaining.toNat + amount.toNat) Gas.largest.toNat :=
  Gas.toNat_addClamped meter.remaining amount

end Meter

end ContractHost
