import ContractHost.Ledger

/-!
# Recorded ledgers

A `Recorder` stands before a ledger, keeps a record of every access that reaches it, and makes
chosen accesses fail: a fault names a kind of access and which one of that kind it strikes, counted
from one. An access that is struck never reaches the ledger behind.
-/

namespace ContractHost

/-- An access to a ledger. -/
inductive Access where
  | getAccount (address : Address)
  | setAccount (address : Address) (account : Account)
  | getStorage (cell : Cell)
  | setStorage (cell : Cell) (value : Word)
deriving DecidableEq, Repr

/-- An access in words. -/
def Access.text : Access → String
  | getAccount address => s!"get_account {address}"
  | setAccount address account =>
    s!"set_account {address} {account.nonce} {account.balance.toNat}"
  | getStorage cell => s!"get_storage {cell.owner} {cell.slot}"
  | setStorage cell value => s!"set_storage {cell.owner} {cell.slot} {value}"

/-- The four kinds of access. -/
inductive AccessKind where
  | getAccount
  | setAccount
  | getStorage
  | setStorage
deriving DecidableEq, Repr

/-- The kind of an access. -/
def Access.kind : Access → AccessKind
  | .getAccount _ => .getAccount
  | .setAccount _ _ => .setAccount
  | .getStorage _ => .getStorage
  | .setStorage _ _ => .setStorage

/-- A failure that strikes the `nth` access of a kind. Without a cause it finds no account, which
only an access that looks for one can do. -/
structure Fault where
  kind : AccessKind
  nth : Nat
  cause? : Option StorageError
deriving DecidableEq, Repr

/-- An access and whether the ledger carried it out. -/
structure RecordedAccess where
  access : Access
  done : Bool
deriving DecidableEq, Repr

/-- A ledger with a record of the accesses to it and the faults that strike them. -/
structure Recorder (σ : Type) where
  inner : σ
  faults : List Fault
  accesses : List RecordedAccess

namespace Recorder

variable {σ : Type}

/-- The fault that strikes the next access of a kind. -/
def fault? (recorder : Recorder σ) (kind : AccessKind) : Option Fault :=
  recorder.faults.find? fun fault => fault.kind = kind &&
    fault.nth = (recorder.accesses.countP fun seen => seen.access.kind = kind) + 1

/-- Adds to the record. -/
def record (recorder : Recorder σ) (access : Access) (done : Bool) : Recorder σ :=
  { recorder with accesses := recorder.accesses ++ [⟨access, done⟩] }

/-- Makes a step on the ledger behind. -/
def onInner {α : Type} (step : LedgerM σ α) : LedgerM (Recorder σ) α := fun recorder =>
  let (result, inner) := step.run.run recorder.inner
  (result, { recorder with inner })

/-- Makes an access unless a fault strikes it; `struck` is what a fault without a cause finds. -/
def attempt {α : Type} (access : Access) (struck : LedgerM (Recorder σ) α) (step : LedgerM σ α) :
    LedgerM (Recorder σ) α := do
  match (← get).fault? access.kind with
  | none =>
    modify (·.record access true)
    onInner step
  | some fault =>
    modify (·.record access false)
    match fault.cause? with
    | some cause => throw cause
    | none => struck

instance [Ledger σ] : Ledger (Recorder σ) where
  getAccount address := attempt (.getAccount address) (pure none) (Ledger.getAccount address)
  setAccount address account :=
    attempt (.setAccount address account) (throw .notFound) (Ledger.setAccount address account)
  getStorage cell := attempt (.getStorage cell) (throw .notFound) (Ledger.getStorage cell)
  setStorage cell value :=
    attempt (.setStorage cell value) (throw .notFound) (Ledger.setStorage cell value)
  slotBound recorder := Ledger.slotBound recorder.inner

end Recorder

end ContractHost
