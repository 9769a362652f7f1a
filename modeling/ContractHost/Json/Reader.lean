import ContractHost.Json

/-!
# Reading JSON

`Json.ofText?` reads a whole text as one JSON value. The readers take what they read off the front
of a list of characters and return the rest. Blanks are the space, tab, line feed and carriage
return; numbers have no leading zeros and need digits on both sides of a point; strings hold no
control characters; a comma stands only between items. Nesting is bounded by the length of the text
alone, which is what the fuel of the mutual readers counts.
-/

namespace ContractHost.Json

open Decimal (Digit Numeral)

/-- Skips blanks. -/
def skipBlanks (cs : List Char) : List Char :=
  cs.dropWhile fun c => c = ' ' || c = '\t' || c = '\n' || c = '\r'

/-- The digits at the front and what follows them. -/
def spanDigits : List Char → List Digit × List Char
  | [] => ([], [])
  | c :: cs =>
    match Digit.ofChar? c with
    | some d => ((d :: (spanDigits cs).1), (spanDigits cs).2)
    | none => ([], c :: cs)

/-- At least one digit. -/
def readDigits? (cs : List Char) : Option (List Digit × List Char) :=
  match spanDigits cs with
  | ([], _) => none
  | found => some found

/-- Digits of which the first is zero only when it stands alone. -/
def readWhole? (cs : List Char) : Option (List Digit × List Char) :=
  match readDigits? cs with
  | some (0 :: _ :: _, _) => none
  | found => found

/-- The digits after a point, if there is one. -/
def readFraction? : List Char → Option (List Digit × List Char)
  | '.' :: cs => readDigits? cs
  | cs => some ([], cs)

/-- The sign of an exponent. -/
def readSign : List Char → Bool × List Char
  | '+' :: cs => (false, cs)
  | '-' :: cs => (true, cs)
  | cs => (false, cs)

/-- The exponent, if there is one. -/
def readExponent? : List Char → Option (Option Int × List Char)
  | [] => some (none, [])
  | c :: cs =>
    if c = 'e' ∨ c = 'E' then
      let (negative, cs) := readSign cs
      (readDigits? cs).map fun (ds, rest) =>
        let power : Int := Decimal.ofDigits ds
        (some (if negative then -power else power), rest)
    else some (none, c :: cs)

/-- A number without a sign. -/
def readMagnitude? (negative : Bool) (cs : List Char) : Option (Numeral × List Char) := do
  let (whole, cs) ← readWhole? cs
  let (fraction, cs) ← readFraction? cs
  let (exponent, cs) ← readExponent? cs
  return (⟨negative, whole, fraction, exponent⟩, cs)

/-- A number; only a minus sign may precede it. -/
def readNumeral? : List Char → Option (Numeral × List Char)
  | '-' :: cs => readMagnitude? true cs
  | cs => readMagnitude? false cs

/-- The value of a hexadecimal digit of either case. -/
def hexValue? (c : Char) : Option Nat :=
  let n := c.toNat
  if 48 ≤ n ∧ n ≤ 57 then some (n - 48)
  else if 97 ≤ n ∧ n ≤ 102 then some (n - 87)
  else if 65 ≤ n ∧ n ≤ 70 then some (n - 55)
  else none

/-- The character that a letter after a backslash stands for. -/
def unescape? : Char → Option Char
  | '"' => some '"'
  | '\\' => some '\\'
  | '/' => some '/'
  | 'b' => some '\x08'
  | 'f' => some '\x0c'
  | 'n' => some '\n'
  | 'r' => some '\r'
  | 't' => some '\t'
  | _ => none

/-- The code unit that four digits write. -/
def codeUnit? (a b c d : Char) : Option Nat := do
  let a ← hexValue? a
  let b ← hexValue? b
  let c ← hexValue? c
  let d ← hexValue? d
  return ((a * 16 + b) * 16 + c) * 16 + d

/-- The parts of a string up to the closing quote, the opening one having been read. -/
def readString? : List Char → Option (List StringPart × List Char)
  | [] => none
  | '"' :: cs => some ([], cs)
  | '\\' :: 'u' :: a :: b :: c :: d :: cs => do
    let code ← codeUnit? a b c d
    let (parts, rest) ← readString? cs
    return (.unit code :: parts, rest)
  | '\\' :: letter :: cs => do
    let c ← unescape? letter
    let (parts, rest) ← readString? cs
    return (.char c :: parts, rest)
  | c :: cs => do
    if c.toNat < 32 ∨ c = '\\' then none
    let (parts, rest) ← readString? cs
    return (.char c :: parts, rest)

mutual

/-- A value, blanks before it skipped. -/
def readValue? : Nat → List Char → Option (Json × List Char)
  | 0, _ => none
  | fuel + 1, cs =>
    match skipBlanks cs with
    | 'n' :: 'u' :: 'l' :: 'l' :: rest => some (null, rest)
    | 't' :: 'r' :: 'u' :: 'e' :: rest => some (bool true, rest)
    | 'f' :: 'a' :: 'l' :: 's' :: 'e' :: rest => some (bool false, rest)
    | '"' :: rest => (readString? rest).map fun (parts, rest) => (string parts, rest)
    | '[' :: rest =>
      match skipBlanks rest with
      | ']' :: rest => some (array [], rest)
      | rest => (readItems? fuel rest).map fun (items, rest) => (array items, rest)
    | '\x7b' :: rest =>
      match skipBlanks rest with
      | '\x7d' :: rest => some (object [], rest)
      | rest => (readMembers? fuel rest).map fun (members, rest) => (object members, rest)
    | rest => (readNumeral? rest).map fun (n, rest) => (number n, rest)

/-- The items of an array up to the closing bracket; there is at least one. -/
def readItems? : Nat → List Char → Option (List Json × List Char)
  | 0, _ => none
  | fuel + 1, cs => do
    let (item, rest) ← readValue? fuel cs
    match skipBlanks rest with
    | ']' :: rest => return ([item], rest)
    | ',' :: rest =>
      let (items, rest) ← readItems? fuel rest
      return (item :: items, rest)
    | _ => none

/-- The members of an object up to the closing brace; there is at least one. -/
def readMembers? : Nat → List Char → Option (List (List StringPart × Json) × List Char)
  | 0, _ => none
  | fuel + 1, cs => do
    let '"' :: rest := skipBlanks cs | none
    let (key, rest) ← readString? rest
    let ':' :: rest := skipBlanks rest | none
    let (value, rest) ← readValue? fuel rest
    match skipBlanks rest with
    | '\x7d' :: rest => return ([(key, value)], rest)
    | ',' :: rest =>
      let (members, rest) ← readMembers? fuel rest
      return ((key, value) :: members, rest)
    | _ => none

end

/-- Reads a whole text as one value; only blanks may follow it. -/
def ofText? (text : String) : Option Json :=
  let cs := text.toList
  match readValue? (2 * cs.length + 2) cs with
  | some (value, rest) => if (skipBlanks rest).isEmpty then some value else none
  | none => none

end ContractHost.Json
