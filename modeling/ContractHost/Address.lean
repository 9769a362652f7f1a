import ContractHost.Word

/-!
# Addresses

An address is a string of 20 bytes and names an account or a contract. In a word it stands in the
low 20 bytes, behind twelve zeros.
-/

namespace ContractHost

/-- A string of 20 bytes that names an account or a contract. -/
abbrev Address := FixedBytes 20

instance : Std.TransOrd Address := inferInstance

namespace Address

/-- The address whose low eight bytes are a number, most significant byte first. -/
def ofUInt64 (n : UInt64) : Address := FixedBytes.ofNat n.toNat

/-- The word with this address in its low 20 bytes. -/
def toWord (a : Address) : Word :=
  ⟨List.replicate 12 0 ++ a.toList, by simp [a.length_toList]⟩

/-- The low 20 bytes of a word. -/
def ofWord (w : Word) : Address := ⟨w.toList.drop 12, by simp [w.length_toList]⟩

theorem ofWord_toWord (a : Address) : ofWord (toWord a) = a := by
  ext1
  simp [ofWord, toWord]

end Address

end ContractHost
