import ContractHost.Bytes
import ContractHost.Bytes.Hex

/-!
# Byte strings of a fixed length

`FixedBytes n` is a byte string of exactly `n` bytes: addresses, words and selectors are such
strings. They are ordered byte by byte, and their text is `0x` and two lower-case digits for each
byte. `ofText` reads that text back; the `0x` may be left out, and digits may be of either case.
-/

namespace ContractHost

/-- A byte string of `n` bytes. -/
structure FixedBytes (n : Nat) where
  toList : Bytes
  length_toList : toList.length = n

namespace FixedBytes

variable {n : Nat}

@[ext] theorem ext {a b : FixedBytes n} (h : a.toList = b.toList) : a = b := by
  cases a
  cases b
  simp_all

theorem toList_inj {a b : FixedBytes n} : a.toList = b.toList ↔ a = b :=
  ⟨ext, fun h => h ▸ rfl⟩

instance : DecidableEq (FixedBytes n) := fun _ _ => decidable_of_iff _ toList_inj

/-- Byte by byte, the first difference deciding. -/
instance : Ord (FixedBytes n) := ⟨fun a b => compare a.toList b.toList⟩

theorem compare_def (a b : FixedBytes n) : compare a b = compare a.toList b.toList := rfl

instance : Std.TransOrd (FixedBytes n) where
  eq_swap {a b} := by
    rw [compare_def, compare_def]
    exact Std.OrientedCmp.eq_swap
  isLE_trans {a b c} hab hbc := by
    rw [compare_def] at hab hbc ⊢
    exact Std.TransCmp.isLE_trans hab hbc

instance : Std.LawfulEqOrd (FixedBytes n) where
  compare_self {a} := by
    rw [compare_def]
    exact Std.ReflCmp.compare_self
  eq_of_compare {a b} h := by
    rw [compare_def] at h
    exact ext (Std.LawfulEqCmp.eq_of_compare h)

/-- The string of `n` zero bytes. -/
def zero : FixedBytes n := ⟨List.replicate n 0, List.length_replicate⟩

instance : Inhabited (FixedBytes n) := ⟨zero⟩

/-- Every byte is zero. -/
def isZero (a : FixedBytes n) : Bool := a = zero

/-- Bytes of the right number. -/
def ofList? (bs : Bytes) : Option (FixedBytes n) :=
  if h : bs.length = n then some ⟨bs, h⟩ else none

/-- The first `n` bytes of a string, zeros standing for those it lacks. -/
def takeList (bs : Bytes) : FixedBytes n :=
  ⟨(bs ++ List.replicate n 0).take n, by simp⟩

/-- The low `8 * n` bits of a number, most significant byte first. -/
def ofNat (value : Nat) : FixedBytes n := ⟨Bytes.ofNatBE n value, Bytes.length_ofNatBE n value⟩

/-- The bytes read as one number, most significant byte first. -/
def toNat (a : FixedBytes n) : Nat := a.toList.toNatBE

/-- The text of the bytes: `0x` and two digits each. -/
def hex (a : FixedBytes n) : String := "0x" ++ Hex.encode a.toList

instance : ToString (FixedBytes n) := ⟨hex⟩

instance : Repr (FixedBytes n) := ⟨fun a _ => a.hex⟩

/-- Why a text or a byte string is no fixed string. -/
inductive ReadError where
  | invalidHex (cause : Hex.DecodeError)
  | invalidLength (length : Nat)
deriving DecidableEq, Repr

/-- The complaint about a `noun` of `expected` bytes. -/
def ReadError.message (noun : String) (expected : Nat) : ReadError → String
  | .invalidHex cause => s!"invalid hex string: {cause.message}"
  | .invalidLength length => s!"invalid {noun} length: expected {expected} bytes, got {length}"

/-- Bytes of the right number, or a complaint about their number. -/
def ofList (bs : Bytes) : Except ReadError (FixedBytes n) :=
  match ofList? bs with
  | some a => .ok a
  | none => .error (.invalidLength bs.length)

/-- The characters of a hexadecimal text without one leading `0x`. -/
def bareDigits : List Char → List Char
  | '0' :: 'x' :: rest => rest
  | text => text

/-- Reads hexadecimal text: first its digits, then the number of bytes they make. -/
def ofText (text : String) : Except ReadError (FixedBytes n) :=
  match Hex.decode ((bareDigits text.toList).flatMap String.utf8EncodeChar) with
  | .error cause => .error (.invalidHex cause)
  | .ok bs => ofList bs

end FixedBytes

end ContractHost
