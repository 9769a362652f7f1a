import Mathlib
import ContractHost.Proofs.Store.Outcomes
import ContractHost.Proofs.Word

/-!
# Keys of one address

Two keys of one address have their heads at the hashes of their subkeys, and their chains go on at
the hashes of incremented slots. Nothing keeps the two kinds of hashed strings apart: a subkey of 32
bytes may be the incremented slot of another key, and then the two chains share a cell although no
two strings collide (`put_reaches_stepped_subkey`). That is the only way. Where neither subkey is
among the strings that the chain of the other hashes, what is done under the one key is not seen
under the other (`get_after_write_to_other_key`), on any ledger.
-/

namespace ContractHost

namespace Store

/-- The string that is hashed to the slot so many steps behind the head of a subkey. -/
def preimage (subkey : Bytes) : Nat → Bytes
  | 0 => subkey
  | n + 1 => (Keccak.hash (preimage subkey n)).next.toList

theorem slot_iterate (key : Bytes) (i : Nat) :
    (nextCell^[i] (headCell key)).slot = Keccak.hash (preimage (key.drop 20) i) := by
  induction i with
  | zero => rfl
  | succ i ih =>
    rw [Function.iterate_succ_apply', preimage, ← ih]
    rfl

/-! ## The cells that are visited -/

/-- How many cells a walk visits that may visit so many. -/
def walkLength (content : Cell → Word) : Nat → Cell → Nat
  | 0, _ => 0
  | room + 1, cell =>
    if continues (content cell) then walkLength content room (nextCell cell) + 1 else 1

theorem walkLength_of_ends {content : Cell → Word} {cell : Cell} {n room : Nat}
    (ends : Ends content cell n) (inside : n < room) : walkLength content room cell = n + 1 := by
  induction n generalizing cell room with
  | zero =>
    obtain ⟨room, rfl⟩ := Nat.exists_eq_add_one.2 inside
    have stop : continues (content cell) = false := ends.ends
    rw [walkLength, if_neg (by rw [stop]; exact Bool.false_ne_true)]
  | succ n ih =>
    obtain ⟨room, rfl⟩ := Nat.exists_eq_add_one.2 (Nat.zero_lt_of_lt inside)
    rw [walkLength, if_pos ends.head_goesOn, ih ends.tail (by omega)]

theorem walkLength_of_goesOn {content : Cell → Word} {cell : Cell} {room : Nat}
    (goesOn : ∀ i < room, continues (content (nextCell^[i] cell)) = true) :
    walkLength content room cell = room := by
  induction room generalizing cell with
  | zero => rfl
  | succ room ih =>
    have here : continues (content cell) = true := goesOn 0 (by omega)
    have later : ∀ i < room, continues (content (nextCell^[i] (nextCell cell))) = true := by
      intro i lt
      rw [← Function.iterate_succ_apply]
      exact goesOn (i + 1) (by omega)
    rw [walkLength, if_pos here, ih later]

/-- How many cells of a key's orbit are read to find its value. -/
def walked (changes : ChangeSet) (key : Bytes) : Nat :=
  walkLength changes.content (changes.slots.size + 1) (headCell key)

namespace Operation

/-- How many cells of its key's orbit an operation visits once it is paid for. -/
def visits (changes : ChangeSet) : Operation → Nat
  | put key value => max (walked changes key) (encode value).length
  | get key => walked changes key
  | getBytes key => walked changes key
  | contains key => walked changes key
  | delete key => walked changes key
  | set _ _ _ => 1
  | load _ _ => 1
  | clear _ => 1

/-- The bytes of the key behind the address. -/
def subkey (operation : Operation) : Bytes := operation.key.drop 20

/-- The incremented slots that an operation hashes on its way along the chain. -/
def stepped (changes : ChangeSet) (operation : Operation) : List Bytes :=
  (List.range (operation.visits changes - 1)).map fun i => preimage operation.subkey (i + 1)

/-- The strings that an operation hashes. -/
def hashed (changes : ChangeSet) (operation : Operation) : List Bytes :=
  operation.subkey :: operation.stepped changes

variable {changes : ChangeSet} (operation : Operation)

theorem preimage_mem_stepped {i : Nat} (visited : i + 1 < operation.visits changes) :
    preimage operation.subkey (i + 1) ∈ operation.stepped changes :=
  List.mem_map.2 ⟨i, List.mem_range.2 (by omega), rfl⟩

theorem preimage_mem_hashed {i : Nat} (visited : i < operation.visits changes) :
    preimage operation.subkey i ∈ operation.hashed changes := by
  cases i with
  | zero => exact List.mem_cons_self
  | succ i => exact List.mem_cons_of_mem _ (preimage_mem_stepped operation visited)

end Operation

/-! ## What an operation leaves alone -/

variable {store : Store ChangeSet} (costs : StorageCosts) {key : Bytes}

theorem walked_of_ends {changes : ChangeSet} {n : Nat}
    (ends : Ends changes.content (headCell key) n) : walked changes key = n + 1 :=
  walkLength_of_ends ends (Nat.lt_succ_of_le ends.le_size)

theorem walked_of_goesOn {changes : ChangeSet}
    (goesOn : ∀ i < changes.slots.size + 1,
      continues (changes.content (nextCell^[i] (headCell key))) = true) :
    walked changes key = changes.slots.size + 1 :=
  walkLength_of_goesOn goesOn

theorem length_chainLinks_le (changes : ChangeSet) (n : Nat) (head : Cell) :
    (chainLinks changes n head).length ≤ n + 1 := by
  rw [chainLinks]
  split
  · exact Nat.zero_le _
  · exact Nat.le_of_eq (length_linksAlong _ _ _)

/-- A `put` writes to cells that it visits only. -/
theorem content_put_of_notMem (long : 20 < key.length) {value : Bytes} {cell : Cell}
    (outside :
      cell ∉ orbit ((Operation.put key value).visits store.ledger) (headCell key)) :
    (Fallible.eval (put costs key value) store).2.ledger.content cell =
      store.ledger.content cell := by
  rcases ends_or_goesOn store.ledger.content (headCell key) (store.ledger.slots.size + 1) with
    ⟨n, -, ends⟩ | goesOn
  · rw [eval_put_of_ends store costs long value ends]
    split
    · rfl
    · refine ChangeSet.content_recordWords_of_notMem fun inside => outside ?_
      have bound := length_chainLinks_le store.ledger n (headCell key)
      refine orbit_subset ?_ _ inside
      rw [length_putWords, Operation.visits, walked_of_ends ends]
      omega
  · rw [eval_put_of_goesOn store costs long value goesOn]
    split
    · rfl
    · rfl

/-- A `delete` writes to cells that it visits only. -/
theorem content_delete_of_notMem (long : 20 < key.length) {cell : Cell}
    (outside : cell ∉ orbit (walked store.ledger key) (headCell key)) :
    (Fallible.eval (delete costs key) store).2.ledger.content cell =
      store.ledger.content cell := by
  rcases ends_or_goesOn store.ledger.content (headCell key) (store.ledger.slots.size + 1) with
    ⟨n, -, ends⟩ | goesOn
  · rw [eval_delete_of_ends store costs long ends]
    split
    · rfl
    · refine ChangeSet.content_recordWords_of_notMem ?_
      rwa [List.length_replicate, ← walked_of_ends ends]
  · rw [walked_of_goesOn goesOn] at outside
    have kept := content_eraseLinks_of_notMem (paid store costs.delete) (headCell key) outside
    rw [eval_delete store costs long]
    split
    · rfl
    · rw [Fallible.snd_proceed_pure]
      exact kept

/-- A `get` sees the cells that it visits only. -/
theorem eval_get_congr (long : 20 < key.length) {changes changes' : ChangeSet}
    (same : ∀ cell ∈ orbit (walked changes key) (headCell key),
      changes'.content cell = changes.content cell) (meter : Meter) :
    (Fallible.eval (get costs key) ⟨changes', meter⟩).1 =
      (Fallible.eval (get costs key) ⟨changes, meter⟩).1 := by
  rcases ends_or_goesOn changes.content (headCell key) (changes.slots.size + 1) with
    ⟨n, -, ends⟩ | goesOn
  · rw [walked_of_ends ends] at same
    have ends' : Ends changes'.content (headCell key) n := ends.congr same
    have links : chainLinks changes' n (headCell key) = chainLinks changes n (headCell key) := by
      have head : changes'.content (headCell key) = changes.content (headCell key) :=
        same _ (iterate_mem_orbit (Nat.succ_pos n) _)
      rw [chainLinks, chainLinks, head]
      congr 1
      exact List.map_congr_left fun cell member => by rw [same cell member]
    rw [eval_get_of_ends ⟨changes', meter⟩ costs long ends',
      eval_get_of_ends ⟨changes, meter⟩ costs long ends, links]
    split
    · rfl
    · cases valueOf (chainLinks changes n (headCell key)) with
      | error cause => rfl
      | ok value =>
        dsimp only
        by_cases short : meter.remaining - costs.readFlat < costs.readBytes value.length
        · rw [if_pos short, if_pos short]
          rfl
        · rw [if_neg short, if_neg short]
  · rw [walked_of_goesOn goesOn] at same
    obtain ⟨i, j, before, inside, back⟩ := exists_return_of_goesOn goesOn
    -- The chain has come back to a cell, so it visits no cells but those it visited before.
    have goesOn' : ∀ k < changes'.slots.size + 1,
        continues (changes'.content (nextCell^[k] (headCell key))) = true := by
      intro k _
      obtain ⟨m, early, eq⟩ := iterate_lt_of_return before back k
      rw [eq, same _ (iterate_mem_orbit (by omega) _)]
      exact goesOn m (by omega)
    rw [eval_get_of_goesOn ⟨changes', meter⟩ costs long goesOn',
      eval_get_of_goesOn ⟨changes, meter⟩ costs long goesOn]
    split
    · rfl
    · rfl

/-! ## Chains apart -/

/-- Chains meet only where two different strings have one hash, or where the one subkey is an
incremented slot of the other chain. -/
theorem hash_preimage_ne {a b : Bytes} {m n : Nat} (different : a ≠ b)
    (collisionFree : ∀ i < m, ∀ j < n,
      Keccak.hash (preimage a i) = Keccak.hash (preimage b j) → preimage a i = preimage b j)
    (apart : ∀ j, j + 1 < n → preimage b (j + 1) ≠ a)
    (apart' : ∀ i, i + 1 < m → preimage a (i + 1) ≠ b) {i j : Nat} (hi : i < m) (hj : j < n) :
    Keccak.hash (preimage a i) ≠ Keccak.hash (preimage b j) := by
  intro meet
  have same := collisionFree i hi j hj meet
  induction i generalizing j with
  | zero =>
    cases j with
    | zero => exact different same
    | succ j => exact apart j hj same.symm
  | succ i ih =>
    cases j with
    | zero => exact apart' i hi same
    | succ j =>
      have slots : Keccak.hash (preimage a i) = Keccak.hash (preimage b j) :=
        Word.bijective_next.injective (FixedBytes.ext same)
      exact ih (by omega) (by omega) slots (collisionFree i (by omega) j (by omega) slots)

theorem drop_joinKey (owner : Address) (subkey : Bytes) :
    (joinKey owner [subkey]).drop 20 = subkey := by
  rw [joinKey, List.flatten_singleton]
  exact List.drop_left' owner.length_toList

theorem length_joinKey (owner : Address) {subkey : Bytes} (some : subkey ≠ []) :
    20 < (joinKey owner [subkey]).length := by
  have pos := List.length_pos_iff.2 some
  rw [joinKey, List.flatten_singleton, List.length_append, owner.length_toList]
  omega

/-- Two cells of the orbits of two keys are apart when their slots are. -/
theorem orbit_disjoint {key other : Bytes} {m n : Nat}
    (slots : ∀ i < m, ∀ j < n, Keccak.hash (preimage (key.drop 20) i) ≠
      Keccak.hash (preimage (other.drop 20) j)) :
    ∀ cell ∈ orbit m (headCell key), cell ∉ orbit n (headCell other) := by
  intro cell inside inside'
  obtain ⟨i, hi, rfl⟩ := mem_orbit.1 inside
  obtain ⟨j, hj, same⟩ := mem_orbit.1 inside'
  refine slots i hi j hj ?_
  rw [← slot_iterate, ← slot_iterate, same]

/-- What is put or deleted under one key of an address is not seen under another, as long as no two
of the strings that are hashed have one hash and neither subkey is an incremented slot that is
hashed for the other. -/
theorem get_after_write_to_other_key {owner : Address} {a b : Bytes} (some_a : a ≠ [])
    (some_b : b ≠ []) (different : a ≠ b) {operation : Operation}
    (writes : (∃ value, operation = .put (joinKey owner [b]) value) ∨
      operation = .delete (joinKey owner [b]))
    {before after : Store ChangeSet} {reply : operation.Reply}
    (success : Fallible.eval (operation.run costs) before = (.ok reply, after))
    (collisionFree :
      ∀ s ∈ (Operation.get (joinKey owner [a])).hashed before.ledger,
        ∀ t ∈ operation.hashed before.ledger, Keccak.hash s = Keccak.hash t → s = t)
    (apart : a ∉ operation.stepped before.ledger)
    (apart' : b ∉ (Operation.get (joinKey owner [a])).stepped before.ledger) (meter : Meter) :
    (Fallible.eval (get costs (joinKey owner [a])) ⟨after.ledger, meter⟩).1 =
      (Fallible.eval (get costs (joinKey owner [a])) ⟨before.ledger, meter⟩).1 := by
  have long_a := length_joinKey owner some_a
  have long_b := length_joinKey owner some_b
  have sub_a : (Operation.get (joinKey owner [a])).subkey = a := drop_joinKey owner a
  obtain ⟨key_b, kept⟩ : operation.key = joinKey owner [b] ∧
      ∀ cell ∉ orbit (operation.visits before.ledger) (headCell (joinKey owner [b])),
        after.ledger.content cell = before.ledger.content cell := by
    rcases writes with ⟨value, rfl⟩ | rfl
    · refine ⟨rfl, ?_⟩
      intro cell outside
      have kept := content_put_of_notMem costs long_b outside
      rwa [← Operation.run, success] at kept
    · refine ⟨rfl, ?_⟩
      intro cell outside
      have kept := content_delete_of_notMem costs long_b outside
      rwa [← Operation.run, success] at kept
  have sub_b : operation.subkey = b := by
    rw [Operation.subkey, key_b, drop_joinKey]
  refine eval_get_congr costs long_a (fun cell visited => kept cell ?_) meter
  refine orbit_disjoint (fun i hi j hj => ?_) cell visited
  rw [drop_joinKey, drop_joinKey]
  refine hash_preimage_ne different (fun i hi j hj => ?_) (fun j hj => ?_) (fun i hi => ?_) hi hj
  · have mem_a := Operation.preimage_mem_hashed (.get (joinKey owner [a])) hi
    have mem_b := Operation.preimage_mem_hashed operation hj
    rw [sub_a] at mem_a
    rw [sub_b] at mem_b
    exact collisionFree _ mem_a _ mem_b
  · have mem_b := Operation.preimage_mem_stepped operation hj
    rw [sub_b] at mem_b
    exact fun same => apart (same ▸ mem_b)
  · have mem_a := Operation.preimage_mem_stepped (.get (joinKey owner [a])) hi
    rw [sub_a] at mem_a
    exact fun same => apart' (same ▸ mem_a)

/-- A value of two words, put under the subkey `b`. -/
def puttingUnderB : Operation := .put (joinKey .zero [[0x62]]) (List.replicate 32 0x2a)

/-- The value under the subkey `b`, deleted. -/
def deletingUnderB : Operation := .delete (joinKey .zero [[0x62]])

/-- A store in which each of the subkeys `a` and `b` holds a value of one word. -/
def bothHeld : Store ChangeSet :=
  let first := Fallible.eval (put .standard (joinKey .zero [[0x61]]) [0x2a])
    ⟨ChangeSet.empty, .unlimited⟩
  (Fallible.eval (put .standard (joinKey .zero [[0x62]]) [0x2b]) first.2).2

/-- What comes of overwriting the value under `b`. -/
def overwrittenUnderB : Except RuntimeError PutReceipt × Store ChangeSet :=
  Fallible.eval (put .standard (joinKey .zero [[0x62]]) (List.replicate 32 0x2a)) bothHeld

/-- What comes of deleting it. -/
def deletedUnderB : Except RuntimeError DeleteReceipt × Store ChangeSet :=
  Fallible.eval (delete .standard (joinKey .zero [[0x62]])) bothHeld

/-- The value under `a` is read as before when the one under `b` has been overwritten, and when it has
been deleted. -/
theorem get_under_a_after_putUnderB :
    let read (store : Store ChangeSet) :=
      (Fallible.eval (get .standard (joinKey .zero [[0x61]])) ⟨store.ledger, .unlimited⟩).1
    overwrittenUnderB.1 = .ok ⟨.zero, 2, 0⟩ ∧ deletedUnderB.1 = .ok ⟨.zero, 1⟩ ∧
      read bothHeld = .ok (some [0x2a]) ∧
      read overwrittenUnderB.2 = .ok (some [0x2a]) ∧
      read deletedUnderB.2 = .ok (some [0x2a]) := by
  intro read
  have overwritten : overwrittenUnderB.1 = .ok ⟨.zero, 2, 0⟩ := by decide +kernel
  have deleted : deletedUnderB.1 = .ok ⟨.zero, 1⟩ := by decide +kernel
  have held : read bothHeld = .ok (some [0x2a]) := by decide +kernel
  have putSuccess : Fallible.eval (puttingUnderB.run .standard) bothHeld =
      (.ok ⟨.zero, 2, 0⟩, overwrittenUnderB.2) := by
    show overwrittenUnderB = (.ok ⟨.zero, 2, 0⟩, overwrittenUnderB.2)
    rw [← overwritten]
  have deleteSuccess : Fallible.eval (deletingUnderB.run .standard) bothHeld =
      (.ok ⟨.zero, 1⟩, deletedUnderB.2) := by
    show deletedUnderB = (.ok ⟨.zero, 1⟩, deletedUnderB.2)
    rw [← deleted]
  have afterPut : read overwrittenUnderB.2 = read bothHeld :=
    get_after_write_to_other_key .standard (by decide) (by decide) (by decide) (.inl ⟨_, rfl⟩)
      putSuccess (by decide +kernel) (by decide +kernel) (by decide +kernel) .unlimited
  have afterDelete : read deletedUnderB.2 = read bothHeld :=
    get_after_write_to_other_key .standard (by decide) (by decide) (by decide) (.inr rfl)
      deleteSuccess (by decide +kernel) (by decide +kernel) (by decide +kernel) .unlimited
  exact ⟨overwritten, deleted, held, afterPut.trans held, afterDelete.trans held⟩

/-- What comes of putting a value under the subkey `b` on an empty store. -/
def putUnderB : Except RuntimeError PutReceipt × Store ChangeSet :=
  Fallible.eval (put .standard (joinKey .zero [[0x62]]) (List.replicate 32 0x2a))
    ⟨.empty, .unlimited⟩

/-- The slot behind the head of the subkey `b`, before it is hashed. -/
def steppedSubkey : Bytes := (headSlot [0x62]).next.toList

/-- A value that is put under one key of an address appears under another, although no two of the
strings that are hashed have one hash. -/
theorem put_reaches_stepped_subkey :
    steppedSubkey ≠ [] ∧ steppedSubkey ≠ [0x62] ∧ putUnderB.1 = .ok ⟨.zero, 2, 0⟩ ∧
      (∀ s ∈ puttingUnderB.hashed .empty ++
          (Operation.get (joinKey .zero [steppedSubkey])).hashed putUnderB.2.ledger,
        ∀ t ∈ puttingUnderB.hashed .empty ++
            (Operation.get (joinKey .zero [steppedSubkey])).hashed putUnderB.2.ledger,
          Keccak.hash s = Keccak.hash t → s = t) ∧
      (Fallible.eval (get .standard (joinKey .zero [steppedSubkey]))
        ⟨ChangeSet.empty, .unlimited⟩).1 = .ok none ∧
      (Fallible.eval (get .standard (joinKey .zero [steppedSubkey]))
        ⟨putUnderB.2.ledger, .unlimited⟩).1 = .ok (some [0x2a]) := by
  decide +kernel

end Store

end ContractHost
