import ContractHost.Error

/-!
# The ledger

What contracts read and write: accounts, and storage slots that each belong to an address. A
`Ledger` is any state with these four operations, each of which may fail; the balance operations
are built on them. Reading an account that is not there finds none, and its balance is zero.
-/

namespace ContractHost

/-- What is recorded about an address. -/
structure Account where
  nonce : UInt64
  balance : Balance
deriving DecidableEq, Repr

namespace Account

/-- The account that a missing one counts as. -/
def empty : Account := ⟨0, 0⟩

instance : Inhabited Account := ⟨empty⟩

/-- An account with funds and nonce zero. -/
def ofBalance (balance : Balance) : Account := ⟨0, balance⟩

/-- Nonce and balance are zero. -/
def isEmpty (account : Account) : Bool := account.nonce = 0 ∧ account.balance = 0

end Account

/-- A storage slot of an address. -/
structure Cell where
  owner : Address
  slot : Word
deriving DecidableEq, Repr, Inhabited

/-- A step of a state that may fail; what it did to the state before it failed stays done. -/
abbrev Fallible (ε σ : Type) := ExceptT ε (StateM σ)

/-- A step of a ledger. -/
abbrev LedgerM (σ : Type) := Fallible StorageError σ

/-- A step that fails for a reason of the host. -/
abbrev RuntimeM (σ : Type) := Fallible RuntimeError σ

/-- A state that holds accounts and storage. No more than `slotBound` slots of it are not zero. -/
class Ledger (σ : Type) where
  getAccount : Address → LedgerM σ (Option Account)
  setAccount : Address → Account → LedgerM σ Unit
  getStorage : Cell → LedgerM σ Word
  setStorage : Cell → Word → LedgerM σ Unit
  slotBound : σ → Nat

namespace Ledger

variable {σ : Type} [Ledger σ]

/-- Whether an account is there. -/
def accountExists (address : Address) : LedgerM σ Bool := do
  return (← getAccount address).isSome

/-- The balance of an account, zero when it is not there. -/
def balance (address : Address) : LedgerM σ Balance := do
  return ((← getAccount address).getD .empty).balance

/-- Adds to a balance, creating the account when it is not there; refuses a sum that does not
fit. -/
def addBalance (address : Address) (amount : Balance) : LedgerM σ Unit := do
  let account := (← getAccount address).getD .empty
  if account.balance.uaddOverflow amount then
    throw (.invalidFormat "balance overflow")
  setAccount address { account with balance := account.balance + amount }

/-- Takes from a balance and says whether it sufficed; one that does not suffice is left alone. -/
def subBalance (address : Address) (amount : Balance) : LedgerM σ Bool := do
  let account := (← getAccount address).getD .empty
  if account.balance < amount then
    return false
  setAccount address { account with balance := account.balance - amount }
  return true

end Ledger

/-- A ledger step as a step of the host. -/
def LedgerM.toRuntime {σ α : Type} (step : LedgerM σ α) : RuntimeM σ α :=
  ExceptT.adapt RuntimeError.storage step

end ContractHost
