import Mathlib
import ContractHost.Store.Operation
import ContractHost.Proofs.Store.Walks

/-!
# What store operations come to

Each operation on a change set in one equation: a charge that fails drains the meter and leaves the
ledger alone (`drained`), and what is paid for is told by where the chain of the key ends
(`eval_put_of_ends`, `eval_get_of_ends`, `eval_delete_of_ends`), or that it never does.
-/

namespace ContractHost

/-- The failure of a charge. -/
def RuntimeError.isShort : RuntimeError → Bool
  | insufficientGas _ _ => true
  | _ => false

/-- A step failed because a charge did. -/
def isShort {α : Type} : Except RuntimeError α → Bool
  | .error cause => cause.isShort
  | .ok _ => false

theorem isShort_map {α β : Type} (f : α → β) (result : Except RuntimeError α) :
    isShort (result.map f) = isShort result := by
  rcases result with cause | a
  · rfl
  · rfl

namespace Store

/-- Where the value of a key starts. -/
def headCell (key : Bytes) : Cell := ⟨FixedBytes.takeList key, headSlot (key.drop 20)⟩

theorem parseKey_of_lt {key : Bytes} (long : 20 < key.length) :
    parseKey key = .ok (headCell key) :=
  if_neg (Nat.not_le_of_lt long)

theorem parseKey_of_le {key : Bytes} (short : key.length ≤ 20) :
    parseKey key = .error (.storageKeyTooShort key.length) :=
  if_pos short

section Charges

variable {σ α : Type} (store : Store σ)

/-- What a charge that fails makes of a store. -/
def drained (amount : Gas) : Except RuntimeError α × Store σ :=
  (.error (.insufficientGas amount store.meter.remaining), { store with meter := ⟨0⟩ })

/-- The store once a charge is taken. -/
def paid (amount : Gas) : Store σ :=
  { store with meter := ⟨store.meter.remaining - amount⟩ }

@[simp] theorem ledger_paid (amount : Gas) : (paid store amount).ledger = store.ledger := rfl

theorem eval_charge_bind (amount : Gas) (f : Unit → StoreM σ α) :
    Fallible.eval (charge amount >>= f) store =
      if store.meter.remaining < amount then drained store amount
      else Fallible.eval (f ()) (paid store amount) := by
  rw [Fallible.eval_bind, eval_charge]
  split
  · rfl
  · rfl

theorem eval_parse_bind {key : Bytes} (long : 20 < key.length) (f : Cell → StoreM σ α) :
    Fallible.eval ((liftM (parseKey key) : StoreM σ Cell) >>= f) store =
      Fallible.eval (f (headCell key)) store := by
  rw [Fallible.eval_bind, Fallible.eval_liftM, parseKey_of_lt long]
  rfl

/-- How every operation begins: it works out the head of its key and takes a charge. -/
theorem eval_opening (key : Bytes) (amount : Gas) (f : Cell → StoreM σ α) :
    Fallible.eval ((liftM (parseKey key) : StoreM σ Cell) >>= fun head =>
        charge amount >>= fun _ => f head) store =
      if key.length ≤ 20 then (.error (.storageKeyTooShort key.length), store)
      else if store.meter.remaining < amount then drained store amount
      else Fallible.eval (f (headCell key)) (paid store amount) := by
  split
  case isTrue short =>
    rw [Fallible.eval_bind, Fallible.eval_liftM, parseKey_of_le short]
    rfl
  case isFalse long => rw [eval_parse_bind store (Nat.not_le.1 long), eval_charge_bind]

end Charges

/-- The key of an operation. -/
def Operation.key : Operation → Bytes
  | put key _ => key
  | get key => key
  | getBytes key => key
  | contains key => key
  | delete key => key
  | set _ key _ => key
  | load _ key => key
  | clear key => key

/-- What an operation is charged before it accesses anything. -/
def Operation.firstCharge (costs : StorageCosts) : Operation → Gas
  | put _ value => costs.write value.length
  | get _ => costs.readFlat
  | getBytes _ => costs.readFlat
  | contains _ => costs.readFlat
  | delete _ => costs.delete
  | set _ _ _ => costs.write 32
  | load _ _ => costs.read 32
  | clear _ => costs.delete

/-! ## On any ledger -/

section AnyLedger

variable {σ : Type} [Ledger σ] (store : Store σ) (costs : StorageCosts) {key : Bytes}

theorem eval_put (long : 20 < key.length) (value : Bytes) :
    Fallible.eval (put costs key value) store =
      if store.meter.remaining < costs.write value.length then
        drained store (costs.write value.length)
      else
        Fallible.proceed (fun links : List Link => do
            let cleared := links.length - (encode value).length
            writeWords (headCell key) (encode value ++ List.replicate cleared .zero)
            return ⟨(headCell key).owner, (encode value).length, cleared⟩)
          (Fallible.eval (readChain (headCell key)) (paid store (costs.write value.length))) := by
  rw [put, eval_parse_bind store long, eval_charge_bind]
  split
  · rfl
  · rw [Fallible.eval_bind]

/-- What `get` makes of the links that it has read. -/
def deliver (links : List Link) : StoreM σ (Option Bytes) := do
  let value ← valueOf links
  charge (costs.readBytes value.length)
  return if value.isEmpty then none else some value

theorem get_eq (key : Bytes) :
    (get costs key : StoreM σ (Option Bytes)) =
      (liftM (parseKey key) : StoreM σ Cell) >>= fun head =>
        charge costs.readFlat >>= fun _ => readChain head >>= deliver costs := rfl

theorem eval_get (long : 20 < key.length) :
    Fallible.eval (get costs key) store =
      if store.meter.remaining < costs.readFlat then drained store costs.readFlat
      else
        Fallible.proceed (deliver costs)
          (Fallible.eval (readChain (headCell key)) (paid store costs.readFlat)) := by
  rw [get, eval_parse_bind store long, eval_charge_bind]
  split
  · rfl
  · rw [Fallible.eval_bind]
    rfl

omit [Ledger σ] in
theorem eval_deliver (links : List Link) :
    Fallible.eval (deliver costs links) store =
      match valueOf links with
      | .error cause => (.error cause, store)
      | .ok value =>
        if store.meter.remaining < costs.readBytes value.length then
          drained store (costs.readBytes value.length)
        else
          (.ok (if value.isEmpty then none else some value),
            paid store (costs.readBytes value.length)) := by
  rw [deliver, Fallible.eval_bind, Fallible.eval_liftM]
  cases valueOf links with
  | error cause => rfl
  | ok value =>
    rw [Fallible.proceed_ok, eval_charge_bind]
    rfl

theorem eval_getBytes :
    Fallible.eval (getBytes costs key) store =
      Fallible.proceed (fun found => pure (found.getD [])) (Fallible.eval (get costs key) store) := by
  rw [getBytes, Fallible.eval_bind]

theorem eval_contains :
    Fallible.eval (contains costs key) store =
      Fallible.proceed (fun found => pure found.isSome) (Fallible.eval (get costs key) store) := by
  rw [contains, Fallible.eval_bind]

theorem eval_delete (long : 20 < key.length) :
    Fallible.eval (delete costs key) store =
      if store.meter.remaining < costs.delete then drained store costs.delete
      else
        Fallible.proceed (fun count => pure ⟨(headCell key).owner, count⟩)
          (Fallible.eval
            (eraseLinks (headCell key) (Ledger.slotBound store.ledger + 1) (headCell key))
            (paid store costs.delete)) := by
  rw [delete, eval_parse_bind store long, eval_charge_bind]
  split
  · rfl
  · have reach : Fallible.eval reach (paid store costs.delete) =
        (.ok (Ledger.slotBound store.ledger + 1), paid store costs.delete) := rfl
    rw [Fallible.eval_bind, reach, Fallible.proceed_ok, Fallible.eval_bind]

end AnyLedger

variable (store : Store ChangeSet) (costs : StorageCosts) {key : Bytes}

/-! ## Putting -/

/-- What a `put` writes where the chain of the key had so many links. -/
def putWords (value : Bytes) (links : Nat) : List Word :=
  encode value ++ List.replicate (links - (encode value).length) .zero

@[simp] theorem length_putWords (value : Bytes) (links : Nat) :
    (putWords value links).length = max (encode value).length links := by
  rw [putWords, List.length_append, List.length_replicate]
  omega

theorem eval_put_of_ends (long : 20 < key.length) (value : Bytes) {n : Nat}
    (ends : Ends store.ledger.content (headCell key) n) :
    Fallible.eval (put costs key value) store =
      if store.meter.remaining < costs.write value.length then
        drained store (costs.write value.length)
      else
        (.ok ⟨(headCell key).owner, (encode value).length,
            (chainLinks store.ledger n (headCell key)).length - (encode value).length⟩,
          { paid store (costs.write value.length) with
            ledger := store.ledger.recordWords (headCell key)
              (putWords value (chainLinks store.ledger n (headCell key)).length) }) := by
  rw [eval_put store costs long]
  split
  · rfl
  · rw [eval_readChain_of_ends (paid store _) ends, Fallible.proceed_ok, Fallible.eval_bind,
      eval_writeWords]
    rfl

theorem eval_put_of_goesOn (long : 20 < key.length) (value : Bytes)
    (goesOn : ∀ i < store.ledger.slots.size + 1,
      continues (store.ledger.content (nextCell^[i] (headCell key))) = true) :
    Fallible.eval (put costs key value) store =
      if store.meter.remaining < costs.write value.length then
        drained store (costs.write value.length)
      else (.error (.endlessChain (headCell key).slot), paid store (costs.write value.length)) := by
  rw [eval_put store costs long]
  split
  · rfl
  · rw [eval_readChain_of_goesOn (paid store _) goesOn]
    rfl

/-! ## Getting -/

theorem eval_get_of_ends (long : 20 < key.length) {n : Nat}
    (ends : Ends store.ledger.content (headCell key) n) :
    Fallible.eval (get costs key) store =
      if store.meter.remaining < costs.readFlat then drained store costs.readFlat
      else
        match valueOf (chainLinks store.ledger n (headCell key)) with
        | .error cause => (.error cause, paid store costs.readFlat)
        | .ok value =>
          if store.meter.remaining - costs.readFlat < costs.readBytes value.length then
            drained (paid store costs.readFlat) (costs.readBytes value.length)
          else
            (.ok (if value.isEmpty then none else some value),
              paid (paid store costs.readFlat) (costs.readBytes value.length)) := by
  rw [eval_get store costs long]
  split
  · rfl
  · rw [eval_readChain_of_ends (paid store _) ends, Fallible.proceed_ok, eval_deliver, ledger_paid]
    rfl

theorem eval_get_of_goesOn (long : 20 < key.length)
    (goesOn : ∀ i < store.ledger.slots.size + 1,
      continues (store.ledger.content (nextCell^[i] (headCell key))) = true) :
    Fallible.eval (get costs key) store =
      if store.meter.remaining < costs.readFlat then drained store costs.readFlat
      else (.error (.endlessChain (headCell key).slot), paid store costs.readFlat) := by
  rw [eval_get store costs long]
  split
  · rfl
  · rw [eval_readChain_of_goesOn (paid store _) goesOn]
    rfl

/-- A `get` leaves the ledger alone, whatever it comes to. -/
theorem ledger_get (key : Bytes) :
    (Fallible.eval (get costs key) store).2.ledger = store.ledger := by
  rcases Nat.lt_or_ge 20 key.length with long | short
  · rcases ends_or_goesOn store.ledger.content (headCell key) (store.ledger.slots.size + 1) with
      ⟨n, -, ends⟩ | goesOn
    · rw [eval_get_of_ends store costs long ends]
      split
      · rfl
      · split
        · rfl
        · split
          · rfl
          · rfl
    · rw [eval_get_of_goesOn store costs long goesOn]
      split
      · rfl
      · rfl
  · rw [get, eval_opening, if_pos short]

/-! ## Deleting -/

theorem eval_delete_of_ends (long : 20 < key.length) {n : Nat}
    (ends : Ends store.ledger.content (headCell key) n) :
    Fallible.eval (delete costs key) store =
      if store.meter.remaining < costs.delete then drained store costs.delete
      else
        (.ok ⟨(headCell key).owner, n + 1⟩,
          { paid store costs.delete with
            ledger := store.ledger.recordWords (headCell key) (List.replicate (n + 1) .zero) }) := by
  have inside := Nat.lt_succ_of_le ends.le_size
  rw [eval_delete store costs long, ChangeSet.slotBound_eq]
  split
  · rfl
  · rw [eval_eraseLinks_of_ends (paid store _) (headCell key) ends inside]
    rfl

end Store

end ContractHost
