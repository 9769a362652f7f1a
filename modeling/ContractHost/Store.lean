import ContractHost.Gas.Meter
import ContractHost.Gas.StorageCosts
import ContractHost.Store.Chunk
import ContractHost.Store.Key

/-!
# The metered store

Values kept in a ledger under keys, every operation paid for from a meter. Byte strings of any
length stand in chains of cells (`put`, `get`, `delete`); values of 32 bytes or less stand in their
head cell alone (`setWord`, `getWord`, `clear`). The charge of an operation comes first, so that an
operation that cannot be paid for touches nothing; only the bytes of a value that `get` finds are
paid for once they are read.

A chain is followed for no more cells than the ledger has slots that are not zero, and one more: a
longer one would return to a cell it has passed.
-/

namespace ContractHost

/-- A ledger and the meter that pays for access to it. -/
structure Store (σ : Type) where
  ledger : σ
  meter : Meter

/-- A step of the store. -/
abbrev StoreM (σ : Type) := RuntimeM (Store σ)

namespace Store

variable {σ : Type}

/-- Makes a step on the ledger. -/
def onLedger {α : Type} (step : LedgerM σ α) : StoreM σ α := fun store =>
  let (result, ledger) := step.toRuntime.run.run store.ledger
  (result, { store with ledger })

/-- Takes a charge from the meter. -/
def charge (amount : Gas) : StoreM σ Unit := fun store =>
  let (result, meter) := (Meter.charge amount).run.run store.meter
  (result, { store with meter })

/-- A cell and what it holds. -/
structure Link where
  cell : Cell
  word : Word
deriving DecidableEq, Repr

variable [Ledger σ]

/-- How many cells of a chain are followed at most. -/
def reach : StoreM σ Nat := do
  return Ledger.slotBound (← get).ledger + 1

/-- Reads the cells of a chain from one of them up to the first that does not continue. -/
def readLinks (head : Cell) : Nat → Cell → StoreM σ (List Link)
  | 0, _ => throw (.endlessChain head.slot)
  | room + 1, cell => do
    let word ← onLedger (Ledger.getStorage cell)
    if continues word then
      return ⟨cell, word⟩ :: (← readLinks head room (nextCell cell))
    return [⟨cell, word⟩]

/-- Reads the chain that starts at a head; there is none when the head is zero. -/
def readChain (head : Cell) : StoreM σ (List Link) := do
  match ← readLinks head (← reach) head with
  | [link] => return if link.word.isZero then [] else [link]
  | links => return links

/-- Writes words along a chain. -/
def writeWords : Cell → List Word → StoreM σ Unit
  | _, [] => return
  | cell, word :: words => do
    onLedger (Ledger.setStorage cell word)
    writeWords (nextCell cell) words

/-- Clears the cells of a chain from one of them up to the first that does not continue, and counts
them. -/
def eraseLinks (head : Cell) : Nat → Cell → StoreM σ Nat
  | 0, _ => throw (.endlessChain head.slot)
  | room + 1, cell => do
    let word ← onLedger (Ledger.getStorage cell)
    onLedger (Ledger.setStorage cell .zero)
    if continues word then
      return (← eraseLinks head room (nextCell cell)) + 1
    return 1

/-- The value of a chain; only its last word can be malformed. -/
def valueOf (links : List Link) : Except RuntimeError Bytes :=
  match links.getLast?, decode (links.map Link.word) with
  | none, _ => .ok []
  | some _, some (value, _) => .ok value
  | some last, none => .error (.malformedSlot last.cell.slot)

/-- What a `put` did: the cells it wrote, and those of the old value that it cleared behind them. -/
structure PutReceipt where
  owner : Address
  written : Nat
  cleared : Nat
deriving DecidableEq, Repr

/-- What a `delete` did. -/
structure DeleteReceipt where
  owner : Address
  cleared : Nat
deriving DecidableEq, Repr

/-! ## Byte strings -/

/-- Stores a value and clears what is left of a longer old one. -/
def put (costs : StorageCosts) (key value : Bytes) : StoreM σ PutReceipt := do
  let head ← parseKey key
  charge (costs.write value.length)
  let stale := (← readChain head).length
  let words := encode value
  let cleared := stale - words.length
  writeWords head (words ++ List.replicate cleared .zero)
  return ⟨head.owner, words.length, cleared⟩

/-- The value under a key; the empty one counts as none. -/
def get (costs : StorageCosts) (key : Bytes) : StoreM σ (Option Bytes) := do
  let head ← parseKey key
  charge costs.readFlat
  let value ← valueOf (← readChain head)
  charge (costs.readBytes value.length)
  return if value.isEmpty then none else some value

/-- The value under a key, empty when there is none. -/
def getBytes (costs : StorageCosts) (key : Bytes) : StoreM σ Bytes := do
  return (← get costs key).getD []

/-- Whether there is a value under a key; this reads, and pays for, the whole value. -/
def contains (costs : StorageCosts) (key : Bytes) : StoreM σ Bool := do
  return (← get costs key).isSome

/-- Clears the chain of a key. -/
def delete (costs : StorageCosts) (key : Bytes) : StoreM σ DeleteReceipt := do
  let head ← parseKey key
  charge costs.delete
  return ⟨head.owner, ← eraseLinks head (← reach) head⟩

/-! ## Single words -/

/-- Stores a word in the head cell of a key. -/
def setWord (costs : StorageCosts) (key : Bytes) (word : Word) : StoreM σ Unit := do
  let head ← parseKey key
  charge (costs.write 32)
  onLedger (Ledger.setStorage head word)

/-- The word in the head cell of a key. -/
def getWord (costs : StorageCosts) (key : Bytes) : StoreM σ Word := do
  let head ← parseKey key
  charge (costs.read 32)
  onLedger (Ledger.getStorage head)

/-- Clears the head cell of a key. -/
def clear (costs : StorageCosts) (key : Bytes) : StoreM σ Unit := do
  let head ← parseKey key
  charge costs.delete
  onLedger (Ledger.setStorage head .zero)

end Store

end ContractHost
