import ContractHost.Error

/-!
# The log

What the host notes about its work, entry by entry. An entry holds the facts; `LogEntry.text` writes
its level and its message.
-/

namespace ContractHost

/-- How much an entry matters. -/
inductive LogLevel where
  | trace
  | debug
  | error
deriving DecidableEq, Repr

/-- The name of a level. -/
def LogLevel.name : LogLevel → String
  | trace => "TRACE"
  | debug => "DEBUG"
  | error => "ERROR"

/-- What the host notes. -/
inductive LogEntry where
  /-- A method of a contract was given its selector and its price. -/
  | methodBound (contract : String) (selector : Selector) (signature : String) (gas : Gas)
  | registered (contract : String) (address : Address) (methods : Nat)
  /-- A registration took the place of an earlier one. -/
  | replaced (address : Address)
  /-- A method was found, and is paid for and run next. -/
  | dispatched (contract signature : String) (caller : Address) (depth : Nat) (gas : Gas)
  | callFailed (target : Address) (cause : RuntimeError) (transaction : Word) (gasLeft : Gas)
  | evmCalled (caller target : Address) (used allowed : Gas)
  | valueStored (length written : Nat) (owner : Address) (cleared : Nat)
  | valueDeleted (cleared : Nat) (owner : Address)
  | fundsMoved (amount : Balance) (sender recipient : Address)
deriving DecidableEq, Repr

namespace LogEntry

/-- How much an entry matters. -/
def level : LogEntry → LogLevel
  | registered .. | replaced .. | dispatched .. => .debug
  | callFailed .. => .error
  | methodBound .. | evmCalled .. | valueStored .. | valueDeleted .. | fundsMoved .. => .trace

/-- The facts of an entry in words. -/
def message : LogEntry → String
  | methodBound contract selector signature gas =>
    s!"{contract} {selector} -> {signature} (gas {gas})"
  | registered contract address methods =>
    s!"registered native contract {contract} at {address} ({methods} methods)"
  | replaced address => s!"replaced native contract at {address}"
  | dispatched contract signature caller depth gas =>
    s!"dispatch {contract}.{signature} from {caller} (depth {depth}, gas {gas})"
  | callFailed target cause transaction gasLeft =>
    s!"native call to {target} failed: {cause.message} (tx {transaction}, gas left {gasLeft})"
  | evmCalled caller target used allowed =>
    s!"evm call {caller} -> {target} used {used} of {allowed} gas"
  | valueStored length written owner cleared =>
    s!"put {length} bytes in {written} slots for {owner} (cleared {cleared})"
  | valueDeleted cleared owner => s!"deleted {cleared} slots for {owner}"
  | fundsMoved amount sender recipient =>
    s!"transferred {amount.toNat} from {sender} to {recipient}"

/-- The level and the message. -/
def text (entry : LogEntry) : String := s!"{entry.level.name} {entry.message}"

end LogEntry

end ContractHost
