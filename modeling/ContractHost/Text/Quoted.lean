import ContractHost.Text.Shown

/-!
# Quoted text

A quoted character or string shows printable characters as they are and escapes the rest: the
usual one-letter escapes, then the code point in braces. A character stands between single quotes
and a string between double quotes, and only the quote that delimits is escaped.
-/

namespace ContractHost.Text

/-- A code point in braces, in lower-case hexadecimal without leading zeros. -/
def codePoint (c : Char) : List Char :=
  ['\\', 'u', '\x7b'] ++ Nat.toDigits 16 c.toNat ++ ['\x7d']

/-- One character of a text delimited by `quote`. -/
def escape (quote c : Char) : List Char :=
  if c = '\x00' then ['\\', '0']
  else if c = '\t' then ['\\', 't']
  else if c = '\r' then ['\\', 'r']
  else if c = '\n' then ['\\', 'n']
  else if c = '\\' ∨ c = quote then ['\\', c]
  else if isShown c then [c]
  else codePoint c

/-- A character between single quotes. -/
def quoteChar (c : Char) : String := String.ofList ('\'' :: escape '\'' c ++ ['\''])

/-- A string between double quotes. -/
def quote (s : String) : String := String.ofList ('"' :: s.toList.flatMap (escape '"') ++ ['"'])

end ContractHost.Text
