import ContractHost.Error

/-!
# Events

What a contract announces: topics, of which there is at least one, and data, under an address and
at the height of the transaction's block.
-/

namespace ContractHost

/-- An announcement of a contract. -/
structure Event where
  address : Address
  height : UInt64
  topics : List Word
  data : Bytes
deriving DecidableEq, Repr

namespace Event

/-- An event, unless it has no topics. -/
def make (address : Address) (height : UInt64) (topics : List Word) (data : Bytes) :
    Except RuntimeError Event :=
  if topics.isEmpty then .error (.invalidEvent s!"event from {address} has no topics")
  else .ok ⟨address, height, topics, data⟩

/-- The first topic, by convention the hash of the event's signature. -/
def signature? (event : Event) : Option Word := event.topics.head?

end Event

end ContractHost
