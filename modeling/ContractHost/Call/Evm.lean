import ContractHost.Error

/-!
# Calls of the virtual machine

Contracts reach code that is not native through a bridge to a virtual machine. The machine is
outside the host: it is given a call with the gas it may use, may change the outside world `ω`, and
reports what came of it.
-/

namespace ContractHost

/-- A call of the virtual machine with the gas it may use. -/
structure EvmCall where
  caller : Address
  target : Address
  gas : Gas
  input : Bytes
deriving DecidableEq, Repr

/-- What the virtual machine reports: the output, the gas it used, and the failure if it failed. -/
structure EvmOutput where
  output : Bytes
  gasUsed : Gas
  error? : Option RuntimeError
deriving DecidableEq, Repr

namespace EvmOutput

/-- Nothing happened. -/
def empty : EvmOutput := ⟨[], 0, none⟩

instance : Inhabited EvmOutput := ⟨empty⟩

/-- A call that succeeded. -/
def success (output : Bytes) (gasUsed : Gas) : EvmOutput := ⟨output, gasUsed, none⟩

/-- A call that failed; it has no output. -/
def failure (error : RuntimeError) (gasUsed : Gas) : EvmOutput := ⟨[], gasUsed, some error⟩

/-- The call did not fail. -/
def isSuccess (output : EvmOutput) : Bool := output.error?.isNone

/-- The output, or the failure. -/
def result (output : EvmOutput) : Except RuntimeError Bytes :=
  match output.error? with
  | some error => .error error
  | none => .ok output.output

end EvmOutput

/-- A virtual machine in the outside world. -/
abbrev Bridge (ω : Type) := EvmCall → StateM ω EvmOutput

end ContractHost
