import ContractHost.Address
import ContractHost.Gas
import ContractHost.Selector

/-!
# Errors

What can go wrong below the host, in the ledger (`StorageError`), and in the host itself
(`RuntimeError`). Each constructor is a cause and holds what its text tells; `message` writes it.
-/

namespace ContractHost

/-- A balance or an amount of funds. -/
abbrev Balance := BitVec 128

/-- A failure of the ledger. -/
inductive StorageError where
  | backend (reason : String)
  | notFound
  | invalidFormat (reason : String)
deriving DecidableEq, Repr

/-- The text of a ledger failure. -/
def StorageError.message : StorageError → String
  | backend reason => s!"backend error: {reason}"
  | notFound => "key not found"
  | invalidFormat reason => s!"invalid data format: {reason}"

/-- A failure of a call, of an operation made by a contract, or of a contract. -/
inductive RuntimeError where
  /-- A charge exceeded what the meter held. -/
  | insufficientGas (required available : Gas)
  /-- More frames stand on the call stack than are allowed. -/
  | contextDepthExceeded (depth max : Nat)
  /-- There is no call to dispatch. -/
  | emptyContextStack
  /-- A payload has no selector. -/
  | malformedPayload (length : Nat)
  | unknownContract (address : Address)
  | unknownMethod (contract : Address) (selector : Selector)
  /-- A storage key has nothing behind the address. -/
  | storageKeyTooShort (length : Nat)
  /-- A final chunk claims more bytes than a word holds. -/
  | malformedSlot (slot : Word)
  /-- The chain of words that starts at a slot returns to where it has been. -/
  | endlessChain (head : Word)
  | storage (cause : StorageError)
  | invalidEvent (reason : String)
  | unauthorized (reason : String)
  | insufficientBalance (required available : Balance)
  /-- A failure that the virtual machine reports. -/
  | evm (reason : String)
  | execution (reason : String)
deriving DecidableEq, Repr

/-- The text of a failure. -/
def RuntimeError.message : RuntimeError → String
  | insufficientGas required available =>
    s!"insufficient gas: required {required}, available {available}"
  | contextDepthExceeded depth max => s!"call context depth {depth} exceeds maximum {max}"
  | emptyContextStack => "call context stack is empty"
  | malformedPayload length => s!"malformed payload: {length} bytes, need at least 4"
  | unknownContract address => s!"unknown native contract: {address}"
  | unknownMethod contract selector => s!"unknown method {selector} on contract {contract}"
  | storageKeyTooShort length => s!"storage key too short: {length} bytes, need more than 20"
  | malformedSlot slot => s!"malformed value slot {slot}"
  | endlessChain head => s!"endless chain of value slots from {head}"
  | storage cause => s!"storage error: {cause.message}"
  | invalidEvent reason => s!"invalid event: {reason}"
  | unauthorized reason => s!"unauthorized: {reason}"
  | insufficientBalance required available =>
    s!"insufficient balance: required {required.toNat}, available {available.toNat}"
  | evm reason => s!"evm call failed: {reason}"
  | execution reason => s!"execution failed: {reason}"

end ContractHost
