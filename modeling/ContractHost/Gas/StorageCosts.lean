import ContractHost.Gas

/-!
# What storage costs

The prices of storage operations. Reading and writing cost a flat amount and an amount for each
byte of the value; deleting costs a flat amount whatever is deleted.
-/

namespace ContractHost

/-- The prices of storage operations. -/
structure StorageCosts where
  delete : Gas
  readFlat : Gas
  readPerByte : Gas
  writeFlat : Gas
  writePerByte : Gas
deriving DecidableEq, Repr

namespace StorageCosts

/-- The prices that hold unless configured otherwise. -/
def standard : StorageCosts where
  delete := 1000
  readFlat := 1000
  readPerByte := 3
  writeFlat := 2000
  writePerByte := 30

instance : Inhabited StorageCosts := ⟨standard⟩

/-- What the bytes of a value cost on reading. -/
def readBytes (costs : StorageCosts) (length : Nat) : Gas :=
  costs.readPerByte.mulClamped (Gas.ofNatClamped length)

/-- What reading a value of this length costs. -/
def read (costs : StorageCosts) (length : Nat) : Gas :=
  costs.readFlat.addClamped (costs.readBytes length)

/-- What writing a value of this length costs. -/
def write (costs : StorageCosts) (length : Nat) : Gas :=
  costs.writeFlat.addClamped (costs.writePerByte.mulClamped (Gas.ofNatClamped length))

end StorageCosts

end ContractHost
