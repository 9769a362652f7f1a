import ContractHost.Bytes
import ContractHost.Text.Quoted

/-!
# Hexadecimal text

`encode` writes each byte as two lower-case digits. `decode` reads digits of either case from the
bytes of a text and refuses two things, in this order: an odd number of bytes, then the first byte
that is no digit, which it names together with its index.
-/

namespace ContractHost.Hex

/-- Why a text is no hexadecimal string. -/
inductive DecodeError where
  | oddLength
  | badDigit (byte : UInt8) (index : Nat)
deriving DecidableEq, Repr

/-- A byte that is no digit is shown as the character with that code. -/
def DecodeError.message : DecodeError → String
  | .oddLength => "Odd number of digits"
  | .badDigit byte index =>
    s!"Invalid character {Text.quoteChar (Char.ofNat byte.toNat)} at position {index}"

/-- The lower-case digit of a value below sixteen. -/
def digit (value : UInt8) : Char :=
  if value < 10 then Char.ofNat (48 + value.toNat) else Char.ofNat (87 + value.toNat)

/-- The value of a digit of either case, given by its ASCII code. -/
def digitValue? (code : UInt8) : Option UInt8 :=
  if 48 ≤ code ∧ code ≤ 57 then some (code - 48)
  else if 97 ≤ code ∧ code ≤ 102 then some (code - 87)
  else if 65 ≤ code ∧ code ≤ 70 then some (code - 55)
  else none

/-- The two digits of a byte, high half first. -/
def digits (byte : UInt8) : List Char := [digit (byte / 16), digit (byte % 16)]

/-- Two lower-case digits for each byte. -/
def encode (bs : Bytes) : String := String.ofList (bs.flatMap digits)

/-- The value of the digit at `index`, or the complaint about it. -/
def digitAt (code : UInt8) (index : Nat) : Except DecodeError UInt8 :=
  match digitValue? code with
  | some value => .ok value
  | none => .error (.badDigit code index)

/-- Reads pairs of digits, the first of them at `index`. -/
def decodePairs (index : Nat) : Bytes → Except DecodeError Bytes
  | high :: low :: rest => do
    let h ← digitAt high index
    let l ← digitAt low (index + 1)
    let bs ← decodePairs (index + 2) rest
    return (h * 16 + l) :: bs
  | _ => .ok []

/-- Reads a text, given by its bytes, as hexadecimal digits. -/
def decode (text : Bytes) : Except DecodeError Bytes :=
  if text.length % 2 = 1 then .error .oddLength else decodePairs 0 text

end ContractHost.Hex
