import ContractHost.Program
import ContractHost.Store.Key

/-!
# Contracts

A contract has a name and declares methods, each with a signature, the gas it asks for, and a
handler: a program for every invocation. An invocation knows the frame of its call, so that the
calls and events which a handler makes in its own name carry the address of the contract.
-/

namespace ContractHost

/-- A call that has found its method. -/
structure Invocation where
  contract : String
  frame : Frame
  selector : Selector
deriving DecidableEq, Repr

/-- What a method does with an invocation. -/
abbrev Handler (ω : Type) := Invocation → ContractM ω Bytes

/-- A declared method. -/
structure Method (ω : Type) where
  signature : String
  rawGas : Gas
  handler : Handler ω

/-- A contract as it is handed to the host. -/
structure Contract (ω : Type) where
  name : String
  methods : List (Method ω)

namespace Invocation

variable {ω : Type} (invocation : Invocation)

/-- The contract that runs. -/
def address : Address := invocation.frame.target

/-- Who called it. -/
def caller : Address := invocation.frame.caller

/-- Selector and input. -/
def payload : Bytes := invocation.frame.payload

/-- What follows the selector. -/
def input : Bytes := invocation.payload.drop 4

/-- A key in the contract's own storage. -/
def key (parts : List Bytes) : Bytes := Store.joinKey invocation.address parts

/-- Calls another contract in the contract's name. -/
def call (target : Address) (payload : Bytes) : ContractM ω Bytes :=
  .call ⟨invocation.address, target, payload⟩

/-- Calls the virtual machine in the contract's name. -/
def evmCall (target : Address) (gas : Gas) (input : Bytes) : ContractM ω EvmOutput :=
  .evm ⟨invocation.address, target, gas, input⟩

/-- Announces an event in the contract's name: its topics are the hash of the signature and the
indexed words. -/
def notify (signature : String) (indexed : List Word) (data : Bytes) : ContractM ω Unit :=
  .emit invocation.address (Selector.topicOf signature :: indexed) data

end Invocation

end ContractHost
