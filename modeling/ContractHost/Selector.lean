import ContractHost.Keccak

/-!
# Selectors

A call names the method it wants by a selector, the first four bytes of its payload. The selector of
a signature is the front of the signature's hash, and the whole hash is the first topic of the
events declared with that signature.
-/

namespace ContractHost

/-- Four bytes that name a method. -/
abbrev Selector := FixedBytes 4

instance : Std.TransOrd Selector := inferInstance

namespace Selector

/-- The hash of a signature's text. -/
def topicOf (signature : String) : Word := Keccak.hash (Bytes.ofText signature)

/-- The selector of the method with a signature. -/
def ofSignature (signature : String) : Selector :=
  FixedBytes.takeList (topicOf signature).toList

/-- The selector at the front of a payload, unless the payload is too short. -/
def ofPayload? (payload : Bytes) : Option Selector := FixedBytes.ofList? (payload.take 4)

end Selector

end ContractHost
