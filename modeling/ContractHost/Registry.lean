import Std.Data.ExtTreeMap
import ContractHost.Contract
import ContractHost.Log
import ContractHost.Text.Quoted

/-!
# The registry

Contracts are registered under addresses before any call is made. Registration works out the
selector and the price of every declared method; of declarations with one selector the last counts.
A later contract at an address replaces the earlier one.
-/

namespace ContractHost

/-- A method that can be called: which declaration it is, and its price. -/
structure MethodEntry where
  index : Nat
  signature : String
  gas : Gas
deriving DecidableEq, Repr

/-- A registered contract. -/
structure Descriptor (ω : Type) where
  address : Address
  name : String
  entries : Std.ExtTreeMap Selector MethodEntry
  handlers : List (Handler ω)

namespace Descriptor

variable {ω : Type}

/-- The entry of a declaration under its price. -/
def entryOf (config : Config) (method : Method ω) (index : Nat) : MethodEntry :=
  ⟨index, method.signature, config.methodGas method.rawGas⟩

/-- Works out selectors and prices of a contract's methods. -/
def ofContract (config : Config) (address : Address) (contract : Contract ω) : Descriptor ω where
  address
  name := contract.name
  entries := contract.methods.zipIdx.foldl
    (fun entries (method, index) =>
      entries.insert (Selector.ofSignature method.signature) (entryOf config method index)) ∅
  handlers := contract.methods.map Method.handler

/-- The method that a selector names. -/
def method? (descriptor : Descriptor ω) (selector : Selector) : Option MethodEntry :=
  descriptor.entries[selector]?

/-- How many selectors the contract answers to. -/
def methodCount (descriptor : Descriptor ω) : Nat := descriptor.entries.size

/-- The handler of an entry. -/
def handler (descriptor : Descriptor ω) (entry : MethodEntry) : Except RuntimeError (Handler ω) :=
  match descriptor.handlers[entry.index]? with
  | some handler => .ok handler
  | none => .error (.execution s!"no method at index {entry.index}")

/-- The descriptor in one line. -/
def summary (descriptor : Descriptor ω) : String :=
  s!"ContractDescriptor \x7b address: Address({descriptor.address}), " ++
    s!"name: {Text.quote descriptor.name}, methods: {descriptor.methodCount} \x7d"

end Descriptor

/-- The registered contracts and the settings they were registered under. -/
structure Registry (ω : Type) where
  config : Config
  contracts : Std.ExtTreeMap Address (Descriptor ω)

namespace Registry

variable {ω : Type}

/-- No contract is registered. -/
def empty (config : Config) : Registry ω := ⟨config, ∅⟩

instance : Inhabited (Registry ω) := ⟨empty .standard⟩

/-- Registers a contract in place of any earlier one at the address. -/
def register (registry : Registry ω) (address : Address) (contract : Contract ω) : Registry ω :=
  { registry with contracts :=
      registry.contracts.insert address (.ofContract registry.config address contract) }

/-- The contract at an address. -/
def get? (registry : Registry ω) (address : Address) : Option (Descriptor ω) :=
  registry.contracts[address]?

/-- Whether a contract is registered at an address. -/
def contains (registry : Registry ω) (address : Address) : Bool :=
  registry.contracts.contains address

/-- The addresses of the contracts in increasing order. -/
def addresses (registry : Registry ω) : List Address := registry.contracts.keys

/-- How many contracts there are. -/
def size (registry : Registry ω) : Nat := registry.contracts.size

/-- What is noted when a contract is registered. -/
def registrationLog (registry : Registry ω) (address : Address) (contract : Contract ω) :
    List LogEntry :=
  let descriptor := Descriptor.ofContract registry.config address contract
  let bound := contract.methods.map fun method =>
    .methodBound contract.name (Selector.ofSignature method.signature) method.signature
      (registry.config.methodGas method.rawGas)
  bound ++ .registered contract.name address descriptor.methodCount ::
    (if registry.contains address then [.replaced address] else [])

end Registry

end ContractHost
