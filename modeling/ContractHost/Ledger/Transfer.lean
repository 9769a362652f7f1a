import ContractHost.Ledger

/-!
# Transfers

A transfer takes an amount from one account and adds it to another. The sender needs the funds even
when nothing would move: when the amount is zero, or sender and recipient are the same.
-/

namespace ContractHost.Ledger

variable {σ : Type} [Ledger σ]

/-- Moves funds and says whether any moved. -/
def transfer (sender recipient : Address) (amount : Balance) : RuntimeM σ Bool := do
  let available ← LedgerM.toRuntime (balance sender)
  if available < amount then
    throw (.insufficientBalance amount available)
  if amount = 0 ∨ sender = recipient then
    return false
  if !(← LedgerM.toRuntime (subBalance sender amount)) then
    throw (.insufficientBalance amount available)
  LedgerM.toRuntime (addBalance recipient amount)
  return true

end ContractHost.Ledger
