import ContractHost.Word

/-!
# Keccak-256

The sponge over Keccak-f[1600] with a rate of 136 bytes. The state is five rows of five lanes of 64
bits, and `permute` is 24 rounds of the step maps `theta`, `rho`, `pi`, `chi` and `iota`, each a
map on whole rows. A message is padded with a one bit, zeros and a final one bit to a multiple of
the rate, absorbed block by block, and its hash is the first 32 bytes of the state.
-/

namespace ContractHost.Keccak

/-- Five values in a circle: the lanes of a row, or the rows of the state. -/
structure Five (α : Type) where
  a : α
  b : α
  c : α
  d : α
  e : α

namespace Five

variable {α β γ : Type}

def map (f : α → β) (v : Five α) : Five β := ⟨f v.a, f v.b, f v.c, f v.d, f v.e⟩

def zipWith (f : α → β → γ) (v : Five α) (w : Five β) : Five γ :=
  ⟨f v.a w.a, f v.b w.b, f v.c w.c, f v.d w.d, f v.e w.e⟩

/-- Each place takes the value of the place after it. -/
def left (v : Five α) : Five α := ⟨v.b, v.c, v.d, v.e, v.a⟩

/-- Each place takes the value of the place before it. -/
def right (v : Five α) : Five α := ⟨v.e, v.a, v.b, v.c, v.d⟩

end Five

/-- Five lanes. -/
abbrev Row := Five UInt64

/-- Five rows. -/
abbrev State := Five Row

/-- Lane by lane exclusive or. -/
def Row.xor (v w : Row) : Row := v.zipWith UInt64.xor w

/-- The state of zeros. -/
def State.zero : State :=
  let row : Row := ⟨0, 0, 0, 0, 0⟩
  ⟨row, row, row, row, row⟩

/-- Rotates a lane to the left by fewer than 64 places. -/
def rotate (lane places : UInt64) : UInt64 :=
  if places = 0 then lane else (lane <<< places) ||| (lane >>> (64 - places))

/-- By how many places each lane is rotated. -/
def rotations : State :=
  ⟨⟨0, 1, 62, 28, 27⟩,
   ⟨36, 44, 6, 55, 20⟩,
   ⟨3, 10, 43, 25, 39⟩,
   ⟨41, 45, 15, 21, 8⟩,
   ⟨18, 2, 61, 56, 14⟩⟩

/-- What distinguishes the rounds, in their order. -/
def roundConstants : List UInt64 :=
  [0x0000000000000001, 0x0000000000008082, 0x800000000000808a, 0x8000000080008000,
   0x000000000000808b, 0x0000000080000001, 0x8000000080008081, 0x8000000000008009,
   0x000000000000008a, 0x0000000000000088, 0x0000000080008009, 0x000000008000000a,
   0x000000008000808b, 0x800000000000008b, 0x8000000000008089, 0x8000000000008003,
   0x8000000000008002, 0x8000000000000080, 0x000000000000800a, 0x800000008000000a,
   0x8000000080008081, 0x8000000000008080, 0x0000000080000001, 0x8000000080008008]

/-- Adds to every lane the parities of the columns beside its own. -/
def theta (s : State) : State :=
  let parity := Row.xor s.a (Row.xor s.b (Row.xor s.c (Row.xor s.d s.e)))
  let change := Row.xor parity.right (parity.left.map (rotate · 1))
  s.map (Row.xor change)

/-- Rotates every lane by its own number of places. -/
def rho (s : State) : State := s.zipWith (Five.zipWith rotate) rotations

/-- The first lane of the first row, the second of the second, and so on. -/
def diagonal (s : State) : Row := ⟨s.a.a, s.b.b, s.c.c, s.d.d, s.e.e⟩

/-- Every row of the result is a diagonal, each starting three columns to the right of the one
before it. -/
def pi (s : State) : State :=
  ⟨diagonal s, diagonal (s.map fun r => r.right.right), diagonal (s.map Five.left),
   diagonal (s.map Five.right), diagonal (s.map fun r => r.left.left)⟩

/-- Combines each lane with the two after it. -/
def chi (s : State) : State :=
  s.map fun r => Row.xor r (r.left.zipWith (fun x y => ~~~ x &&& y) r.left.left)

/-- Adds the round's constant to the first lane. -/
def iota (constant : UInt64) (s : State) : State :=
  ⟨⟨s.a.a ^^^ constant, s.a.b, s.a.c, s.a.d, s.a.e⟩, s.b, s.c, s.d, s.e⟩

/-- One round of the permutation. -/
def round (s : State) (constant : UInt64) : State := iota constant (chi (pi (rho (theta s))))

/-- Keccak-f[1600]. -/
def permute (s : State) : State := roundConstants.foldl round s

/-- How many bytes one block absorbs. -/
def rate : Nat := 136

/-- What follows a message of this length to make whole blocks. -/
def padding (length : Nat) : Bytes :=
  match rate - length % rate with
  | 1 => [0x81]
  | room => 0x01 :: List.replicate (room - 2) 0 ++ [0x80]

/-- Cuts bytes into `count` pieces of `size`, dropping what is left. -/
def cut (size : Nat) : Nat → Bytes → List Bytes
  | 0, _ => []
  | count + 1, bs => bs.take size :: cut size count (bs.drop size)

/-- The blocks of a padded message. -/
def blocks (message : Bytes) : List Bytes :=
  cut rate (message.length / rate + 1) (message ++ padding message.length)

/-- The lane at `index` of a block, least significant byte first; zero beyond the block. -/
def laneAt (block : Bytes) (index : Nat) : UInt64 :=
  UInt64.ofNat (Bytes.toNatLE ((block.drop (8 * index)).take 8))

/-- Five lanes of a block from `index` on. -/
def rowAt (block : Bytes) (index : Nat) : Row :=
  ⟨laneAt block index, laneAt block (index + 1), laneAt block (index + 2),
   laneAt block (index + 3), laneAt block (index + 4)⟩

/-- A block as a state whose remaining lanes are zero. -/
def stateOf (block : Bytes) : State :=
  ⟨rowAt block 0, rowAt block 5, rowAt block 10, rowAt block 15, rowAt block 20⟩

/-- Adds a block to the state and permutes. -/
def absorb (s : State) (block : Bytes) : State := permute (s.zipWith Row.xor (stateOf block))

/-- The first four lanes as bytes. -/
def squeeze (s : State) : Word :=
  FixedBytes.takeList ([s.a.a, s.a.b, s.a.c, s.a.d].flatMap Bytes.ofUInt64)

/-- The Keccak-256 hash of a message. -/
def hash (message : Bytes) : Word := squeeze ((blocks message).foldl absorb State.zero)

end ContractHost.Keccak
