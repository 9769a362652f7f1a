import ContractHost.Ledger

/-!
# Storage keys

A storage key is an address followed by at least one more byte. The bytes behind the address are
hashed to the slot at which the key's value starts, its head; a value that needs more slots goes on
at the hash of the slot number after the present one.
-/

namespace ContractHost.Store

/-- The slot at which the value of a subkey starts. -/
def headSlot (subkey : Bytes) : Word := Keccak.hash subkey

/-- The slot at which a value goes on. -/
def nextSlot (slot : Word) : Word := Keccak.hash slot.next.toList

/-- The cell at which a value goes on. -/
def nextCell (cell : Cell) : Cell := { cell with slot := nextSlot cell.slot }

/-- A key in the storage of an address. -/
def joinKey (owner : Address) (parts : List Bytes) : Bytes := owner.toList ++ parts.flatten

/-- The head cell of a key. -/
def parseKey (key : Bytes) : Except RuntimeError Cell :=
  if key.length ≤ 20 then .error (.storageKeyTooShort key.length)
  else .ok ⟨FixedBytes.takeList key, headSlot (key.drop 20)⟩

/-- The first cells of the chain that starts at a cell. -/
def orbit : Nat → Cell → List Cell
  | 0, _ => []
  | count + 1, cell => cell :: orbit count (nextCell cell)

end ContractHost.Store
