/-!
# Byte strings

Payloads, storage keys, values and event data are lists of bytes. A byte string also writes a
number in base 256: most significant byte first (`toNatBE`, used by words and addresses) or least
significant first (`toNatLE`, used by the integers that handlers exchange in payloads). The fixed
width writers `ofNatBE` and `ofNatLE` keep the low `len` digits, and
`toNatBE_ofNatBE`/`toNatLE_ofNatLE` say that reading takes the number modulo `Nat.pow 256 len`.
-/

namespace ContractHost

/-- A string of bytes. -/
abbrev Bytes := List UInt8

namespace Bytes

/-- The number that the bytes write in base 256, most significant byte first. -/
def toNatBE (bs : Bytes) : Nat := bs.foldl (fun n b => n * 256 + b.toNat) 0

/-- The `len` low base-256 digits of a number, most significant first. -/
def ofNatBE : Nat → Nat → Bytes
  | 0, _ => []
  | len + 1, n => ofNatBE len (n / 256) ++ [UInt8.ofNat n]

/-- The number that the bytes write in base 256, least significant byte first. -/
def toNatLE : Bytes → Nat
  | [] => 0
  | b :: bs => b.toNat + 256 * toNatLE bs

/-- The `len` low base-256 digits of a number, least significant first. -/
def ofNatLE : Nat → Nat → Bytes
  | 0, _ => []
  | len + 1, n => UInt8.ofNat n :: ofNatLE len (n / 256)

@[simp] theorem length_ofNatBE (len n : Nat) : (ofNatBE len n).length = len := by
  induction len generalizing n with
  | zero => rfl
  | succ len ih => simp [ofNatBE, ih]

@[simp] theorem length_ofNatLE (len n : Nat) : (ofNatLE len n).length = len := by
  induction len generalizing n with
  | zero => rfl
  | succ len ih => simp [ofNatLE, ih]

theorem toNatBE_snoc (bs : Bytes) (b : UInt8) :
    toNatBE (bs ++ [b]) = toNatBE bs * 256 + b.toNat := by
  simp [toNatBE, List.foldl_append]

theorem toNatBE_ofNatBE (len n : Nat) : toNatBE (ofNatBE len n) = n % Nat.pow 256 len := by
  induction len generalizing n with
  | zero => simp [ofNatBE, toNatBE, Nat.mod_one]
  | succ len ih =>
    have pow : Nat.pow 256 (len + 1) = 256 * Nat.pow 256 len := Nat.mul_comm _ _
    rw [ofNatBE, toNatBE_snoc, ih, pow, Nat.mod_mul]
    simp only [UInt8.toNat_ofNat']
    omega

theorem toNatLE_ofNatLE (len n : Nat) : toNatLE (ofNatLE len n) = n % Nat.pow 256 len := by
  induction len generalizing n with
  | zero => simp [ofNatLE, toNatLE, Nat.mod_one]
  | succ len ih =>
    have pow : Nat.pow 256 (len + 1) = 256 * Nat.pow 256 len := Nat.mul_comm _ _
    rw [ofNatLE, toNatLE, ih, pow, Nat.mod_mul]
    simp only [UInt8.toNat_ofNat']

/-- The four bytes of a 32-bit integer in a payload, least significant first. -/
def ofUInt32 (n : UInt32) : Bytes := ofNatLE 4 n.toNat

/-- Reads a 32-bit integer; bytes of any other length than four read as zero. -/
def toUInt32 (bs : Bytes) : UInt32 :=
  if bs.length = 4 then UInt32.ofNat bs.toNatLE else 0

/-- The eight bytes of a 64-bit integer in a payload, least significant first. -/
def ofUInt64 (n : UInt64) : Bytes := ofNatLE 8 n.toNat

/-- Reads a 64-bit integer; bytes of any other length than eight read as zero. -/
def toUInt64 (bs : Bytes) : UInt64 :=
  if bs.length = 8 then UInt64.ofNat bs.toNatLE else 0

/-- The bytes of a text in UTF-8. -/
def ofText (text : String) : Bytes := text.toList.flatMap String.utf8EncodeChar

theorem toUInt32_ofUInt32 (n : UInt32) : toUInt32 (ofUInt32 n) = n := by
  simp [toUInt32, ofUInt32, toNatLE_ofNatLE, Nat.mod_eq_of_lt n.toNat_lt]

theorem toUInt64_ofUInt64 (n : UInt64) : toUInt64 (ofUInt64 n) = n := by
  simp [toUInt64, ofUInt64, toNatLE_ofNatLE, Nat.mod_eq_of_lt n.toNat_lt]

end Bytes

end ContractHost
