import ContractHost.Word

/-!
# Values as chains of words

A byte string is cut into chunks of 31 bytes, one to a word. The first byte of a word says what
follows: a one that 31 bytes follow and the value goes on; twice a length that the value ends here,
its last bytes standing at the end of the word behind zeros. `encode` makes the words of a value and
`decode` reads the value off the front of a list of words.
-/

namespace ContractHost.Store

/-- How many bytes of a value a word holds. -/
def chunkLength : Nat := 31

/-- The first byte of a word. -/
def metadata (word : Word) : UInt8 := word.toList.headD 0

/-- The value goes on behind this word. -/
def continues (word : Word) : Bool := metadata word % 2 = 1

/-- A word that holds 31 bytes of a value that goes on. -/
def linkWord (chunk : Bytes) : Word := FixedBytes.takeList (1 :: chunk)

/-- The word in which a value ends. -/
def lastWord (chunk : Bytes) : Word :=
  FixedBytes.takeList
    (UInt8.ofNat (2 * chunk.length) :: List.replicate (chunkLength - chunk.length) 0 ++ chunk)

/-- The words of a value that needs at most `count` words before the last. -/
def encodeWithin : Nat → Bytes → List Word
  | 0, value => [lastWord value]
  | count + 1, value =>
    if value.length ≤ chunkLength then [lastWord value]
    else linkWord (value.take chunkLength) :: encodeWithin count (value.drop chunkLength)

/-- The words of a value. -/
def encode (value : Bytes) : List Word := encodeWithin value.length value

/-- The bytes that a word holds; none when it claims more than there are. -/
def chunk? (word : Word) : Option Bytes :=
  if continues word then some (word.toList.drop 1)
  else
    let length := (metadata word / 2).toNat
    if length ≤ chunkLength then some (word.toList.drop (32 - length)) else none

/-- Reads a value off the front of a list of words. -/
def decode : List Word → Option (Bytes × List Word)
  | [] => none
  | word :: rest => do
    let chunk ← chunk? word
    if continues word then
      let (value, rest) ← decode rest
      return (chunk ++ value, rest)
    return (chunk, rest)

end ContractHost.Store
