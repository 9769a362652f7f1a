import ContractHost.Error

/-!
# Transactions

What is the same for every call of a transaction: who signed it (`origin`), who sends it to the host
(`sender`), its hash, the height of its block, and the gas it may use. Contracts are told all of this
but the last (`TransactionInfo`): of the gas they see what the meter holds.
-/

namespace ContractHost

/-- The transaction that calls are made for. -/
structure Transaction where
  origin : Address
  sender : Address
  hash : Word
  height : UInt64
  gasLimit : Gas
deriving DecidableEq, Repr

/-- What contracts are told about the transaction. -/
structure TransactionInfo where
  origin : Address
  sender : Address
  hash : Word
  height : UInt64
deriving DecidableEq, Repr

namespace Transaction

/-- The transaction in which everything is zero. -/
def empty : Transaction := ⟨.zero, .zero, .zero, 0, 0⟩

instance : Inhabited Transaction := ⟨empty⟩

/-- A transaction that its sender signed. -/
def ofSender (sender : Address) (gasLimit : Gas) : Transaction :=
  { empty with origin := sender, sender, gasLimit }

/-- The transaction without the gas it may use. -/
def info (transaction : Transaction) : TransactionInfo where
  origin := transaction.origin
  sender := transaction.sender
  hash := transaction.hash
  height := transaction.height

end Transaction

namespace TransactionInfo

/-- Refuses any other origin than the expected one. -/
def requireOrigin (info : TransactionInfo) (expected : Address) : Except RuntimeError Unit :=
  if info.origin = expected then .ok ()
  else .error (.unauthorized s!"origin {info.origin} is not {expected}")

/-- Refuses any other sender than the expected one. -/
def requireSender (info : TransactionInfo) (expected : Address) : Except RuntimeError Unit :=
  if info.sender = expected then .ok ()
  else .error (.unauthorized s!"sender {info.sender} is not {expected}")

end TransactionInfo

end ContractHost
