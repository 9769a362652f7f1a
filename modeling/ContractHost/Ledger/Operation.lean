import ContractHost.Ledger

/-!
# Ledger operations as data

The operations that contracts and callers make on a ledger, each with the type of its reply. A
sequence of them can be run on any ledger, which is how two ledgers are compared.
-/

namespace ContractHost.Ledger

/-- An operation on a ledger. -/
inductive Operation where
  | getAccount (address : Address)
  | accountExists (address : Address)
  | balance (address : Address)
  | setAccount (address : Address) (account : Account)
  | addBalance (address : Address) (amount : Balance)
  | subBalance (address : Address) (amount : Balance)
  | getStorage (cell : Cell)
  | setStorage (cell : Cell) (value : Word)
deriving DecidableEq, Repr

namespace Operation

/-- What an operation replies with. -/
@[reducible] def Reply : Operation → Type
  | getAccount _ => Option Account
  | accountExists _ => Bool
  | balance _ => Balance
  | setAccount _ _ => Unit
  | addBalance _ _ => Unit
  | subBalance _ _ => Bool
  | getStorage _ => Word
  | setStorage _ _ => Unit

/-- Makes an operation on a ledger. -/
def run {σ : Type} [Ledger σ] : (operation : Operation) → LedgerM σ operation.Reply
  | getAccount address => Ledger.getAccount address
  | accountExists address => Ledger.accountExists address
  | balance address => Ledger.balance address
  | setAccount address account => Ledger.setAccount address account
  | addBalance address amount => Ledger.addBalance address amount
  | subBalance address amount => Ledger.subBalance address amount
  | getStorage cell => Ledger.getStorage cell
  | setStorage cell value => Ledger.setStorage cell value

end Operation

end ContractHost.Ledger
