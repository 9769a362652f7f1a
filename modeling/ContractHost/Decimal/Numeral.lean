/-!
# Decimal numerals

A `Numeral` is a number as it is written: a sign, digits before the point, digits after it, and
possibly an exponent. Reading a number looks at the digits one by one, and writing one fixes each
of them, so both ends meet in this type; `Numeral.text` writes it out.
-/

namespace ContractHost.Decimal

/-- A decimal digit. -/
abbrev Digit := Fin 10

namespace Digit

/-- The digit that stands for nothing. -/
def zero : Digit := ⟨0, by decide⟩

/-- The character of a digit. -/
def char (d : Digit) : Char := Char.ofNat (48 + d.val)

/-- The digit that a character is, if it is one. -/
def ofChar? (c : Char) : Option Digit :=
  if h : 48 ≤ c.toNat ∧ c.toNat ≤ 57 then some ⟨c.toNat - 48, by omega⟩ else none

end Digit

/-- The digits of a number below `10 ^ (count + 1)`, most significant first and at least one. -/
def digitsWithin : Nat → Nat → List Digit
  | 0, n => [Fin.ofNat 10 n]
  | count + 1, n =>
    if n < 10 then [Fin.ofNat 10 n] else digitsWithin count (n / 10) ++ [Fin.ofNat 10 n]

/-- The digits of a number, most significant first; a number has fewer digits than bits. -/
def digits (n : Nat) : List Digit := digitsWithin n.log2 n

/-- The number that digits write. -/
def ofDigits (ds : List Digit) : Nat := ds.foldl (fun n d => n * 10 + d.val) 0

/-- A number as it is written. -/
structure Numeral where
  negative : Bool
  whole : List Digit
  fraction : List Digit
  exponent : Option Int
deriving DecidableEq, Repr, Inhabited

namespace Numeral

/-- A natural number without sign, point and exponent. -/
def ofNat (n : Nat) : Numeral := ⟨false, digits n, [], none⟩

/-- An exponent has a sign, also when it is not below zero. -/
def exponentText (power : Int) : List Char :=
  'e' :: (if power < 0 then '-' else '+') :: (digits power.natAbs).map Digit.char

/-- The characters of a numeral; a point is written only before digits. -/
def text (n : Numeral) : List Char :=
  (if n.negative then ['-'] else []) ++ n.whole.map Digit.char
    ++ (if n.fraction.isEmpty then [] else '.' :: n.fraction.map Digit.char)
    ++ (match n.exponent with
      | none => []
      | some power => exponentText power)

end Numeral

end ContractHost.Decimal
