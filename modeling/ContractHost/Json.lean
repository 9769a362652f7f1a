import ContractHost.Decimal.Numeral

/-!
# JSON values

A JSON value keeps its numbers as numerals and its strings as they were escaped, since neither need
have a meaning: a numeral may exceed every number type, and the code units of a string need not
form characters. `Json.text` writes a value without blanks.
-/

namespace ContractHost

/-- A piece of a string: a character, or a code unit given in hexadecimal. -/
inductive StringPart where
  | char (c : Char)
  | unit (code : Nat)
deriving DecidableEq, Repr

/-- A JSON value. -/
inductive Json where
  | null
  | bool (value : Bool)
  | number (value : Decimal.Numeral)
  | string (parts : List StringPart)
  | array (items : List Json)
  | object (members : List (List StringPart × Json))

namespace StringPart

/-- The parts of a string of characters. -/
def ofString (s : String) : List StringPart := s.toList.map .char

/-- The characters of a string, if its code units form characters: a high surrogate is followed by
a low one, and a low one follows a high one. -/
def decode : List StringPart → Option (List Char)
  | [] => some []
  | .char c :: rest => (decode rest).map (c :: ·)
  | .unit high :: .unit low :: rest =>
    if 0xD800 ≤ high ∧ high < 0xDC00 then
      if 0xDC00 ≤ low ∧ low < 0xE000 then
        (decode rest).map (Char.ofNat (0x10000 + (high - 0xD800) * 0x400 + (low - 0xDC00)) :: ·)
      else none
    else if 0xDC00 ≤ high ∧ high < 0xE000 then none
    else (decode (.unit low :: rest)).map (Char.ofNat high :: ·)
  | .unit code :: rest =>
    if 0xD800 ≤ code ∧ code < 0xE000 then none else (decode rest).map (Char.ofNat code :: ·)

/-- Four hexadecimal digits. -/
def unitText (code : Nat) : List Char :=
  [code / 4096 % 16, code / 256 % 16, code / 16 % 16, code % 16].map Nat.digitChar

/-- A part as it is written inside a string. -/
def text : StringPart → List Char
  | .char c =>
    if c = '"' ∨ c = '\\' then ['\\', c]
    else if c.toNat < 32 then '\\' :: 'u' :: unitText c.toNat
    else [c]
  | .unit code => '\\' :: 'u' :: unitText code

/-- A string between quotes. -/
def quoted (parts : List StringPart) : List Char := '"' :: parts.flatMap text ++ ['"']

end StringPart

namespace Json

mutual

/-- A value without blanks. -/
def text : Json → List Char
  | null => ['n', 'u', 'l', 'l']
  | bool true => ['t', 'r', 'u', 'e']
  | bool false => ['f', 'a', 'l', 's', 'e']
  | number n => n.text
  | string parts => StringPart.quoted parts
  | array items => '[' :: itemsText items ++ [']']
  | object members => '\x7b' :: membersText members ++ ['\x7d']

/-- The items of an array, commas between them. -/
def itemsText : List Json → List Char
  | [] => []
  | [item] => text item
  | item :: items => text item ++ ',' :: itemsText items

/-- The members of an object, commas between them. -/
def membersText : List (List StringPart × Json) → List Char
  | [] => []
  | [(key, value)] => StringPart.quoted key ++ ':' :: text value
  | (key, value) :: members =>
    StringPart.quoted key ++ ':' :: text value ++ ',' :: membersText members

end

/-- The values of a record with the given fields. An object names them, may leave fields out and
may have others, but repeats none of the fields; an array lists them in order and may stop early. -/
def fields? (names : List String) : Json → Option (List (String × Json))
  | array items => if items.length ≤ names.length then some (names.zip items) else none
  | object members => do
    let named ← members.mapM fun (key, value) =>
      (StringPart.decode key).map fun cs => (String.ofList cs, value)
    let known := named.filter fun (key, _) => key ∈ names
    if (known.map Prod.fst).Nodup then some known else none
  | _ => none

end Json

end ContractHost
