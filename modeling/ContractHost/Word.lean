import ContractHost.Bytes.Fixed

/-!
# Words

A word is a string of 32 bytes: the content of a storage slot, the name of a slot, a hash, an
event topic. `toUInt256` and `ofUInt256` read and write it as a 256-bit integer, most significant
byte first, and `next` adds one to that integer by carrying through the bytes.
-/

namespace ContractHost

/-- A string of 32 bytes. -/
abbrev Word := FixedBytes 32

/-- A 256-bit unsigned integer. -/
abbrev UInt256 := BitVec 256

/-- Adds one to a number in base 256 whose least significant byte comes first, dropping the carry
out of the last byte. -/
def Bytes.incrementLE : Bytes → Bytes
  | [] => []
  | b :: bs => if b + 1 = 0 then 0 :: incrementLE bs else (b + 1) :: bs

@[simp] theorem Bytes.length_incrementLE (bs : Bytes) : bs.incrementLE.length = bs.length := by
  induction bs with
  | nil => rfl
  | cons b bs ih =>
    rw [incrementLE]
    split <;> simp [ih]

namespace Word

/-- The word after this one; the last word is followed by the zero word. -/
def next (w : Word) : Word :=
  ⟨(Bytes.incrementLE w.toList.reverse).reverse, by simp [w.length_toList]⟩

/-- The integer that the bytes write, most significant first. -/
def toUInt256 (w : Word) : UInt256 := BitVec.ofNat 256 w.toNat

/-- The 32 bytes of an integer, most significant first. -/
def ofUInt256 (n : UInt256) : Word := FixedBytes.ofNat n.toNat

end Word

end ContractHost
