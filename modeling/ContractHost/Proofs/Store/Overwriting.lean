import Mathlib
import ContractHost.Proofs.Store.Contents

/-!
# Putting over anything

A `put` does not ask whether what it finds under its key is a value. It counts the words up to the
first that does not go on (`HasLength`), and clears those cells that its own words do not cover. So
a value reads back whatever was there before: a malformed length, a single word, the remains of a
longer chain (`get_after_put`).
-/

namespace ContractHost

@[simp] theorem ChangeSet.account?_recordWords (changes : ChangeSet) (head : Cell)
    (words : List Word) (address : Address) :
    (changes.recordWords head words).account? address = changes.account? address := by
  induction words generalizing changes head with
  | nil => rfl
  | cons word words ih => rw [recordWords_cons, ih, account?_recordSlot]

namespace Store

/-! ## How long a chain is -/

/-- The number of words of the chain at a head: none when the head is zero, and otherwise those up
to the first that does not go on. -/
inductive HasLength (content : Cell → Word) (head : Cell) : Nat → Prop where
  | vacant (zero : content head = .zero) : HasLength content head 0
  | occupied {n : Nat} (held : content head ≠ .zero) (ends : Ends content head n) :
      HasLength content head (n + 1)

namespace HasLength

variable {content : Cell → Word} {head : Cell} {length : Nat}

theorem ends (has : HasLength content head length) : Ends content head (length - 1) := by
  cases has with
  | vacant zero => exact .zero (zero ▸ continues_zero)
  | occupied held ends => exact ends

theorem exists_iff : (∃ length, HasLength content head length) ↔ ∃ n, Ends content head n := by
  constructor
  · rintro ⟨length, has⟩
    exact ⟨_, has.ends⟩
  · rintro ⟨n, ends⟩
    by_cases zero : content head = .zero
    · exact ⟨0, .vacant zero⟩
    · exact ⟨n + 1, .occupied zero ends⟩

/-- The links that are read are as many as the chain has words. -/
theorem length_chainLinks {changes : ChangeSet} (has : HasLength changes.content head length) :
    (chainLinks changes (length - 1) head).length = length := by
  cases has with
  | vacant zero => rw [chainLinks, if_pos zero, List.length_nil]
  | occupied held ends =>
    rw [chainLinks, if_neg held, length_linksAlong]
    rfl

end HasLength

section

variable (store : Store ChangeSet) (costs : StorageCosts) {key : Bytes}

/-- A `put` goes through if it is paid for and the chain under its key ends. -/
theorem put_succeeds_iff (long : 20 < key.length) (value : Bytes) :
    (∃ receipt, (Fallible.eval (put costs key value) store).1 = .ok receipt) ↔
      costs.write value.length ≤ store.meter.remaining ∧
        ∃ old, HasLength store.ledger.content (headCell key) old := by
  rw [HasLength.exists_iff]
  rcases ends_or_goesOn store.ledger.content (headCell key) (store.ledger.slots.size + 1) with
    ⟨n, -, ends⟩ | goesOn
  · rw [eval_put_of_ends store costs long value ends]
    by_cases short : store.meter.remaining < costs.write value.length
    · rw [if_pos short]
      constructor
      · rintro ⟨receipt, put⟩
        cases put
      · rintro ⟨paid, -⟩
        exact absurd short (UInt64.not_lt.2 paid)
    · rw [if_neg short]
      exact ⟨fun _ => ⟨UInt64.not_lt.1 short, n, ends⟩, fun _ => ⟨_, rfl⟩⟩
  · rw [eval_put_of_goesOn store costs long value goesOn]
    constructor
    · rintro ⟨receipt, put⟩
      split at put
      · cases put
      · cases put
    · rintro ⟨-, n, ends⟩
      have stops := goesOn n (Nat.lt_succ_of_le ends.le_size)
      rw [ends.ends] at stops
      cases stops

theorem eval_put_of_hasLength (long : 20 < key.length) (value : Bytes) {old : Nat}
    (has : HasLength store.ledger.content (headCell key) old) :
    Fallible.eval (put costs key value) store =
      if store.meter.remaining < costs.write value.length then
        drained store (costs.write value.length)
      else
        (.ok ⟨(headCell key).owner, (encode value).length, old - (encode value).length⟩,
          { paid store (costs.write value.length) with
            ledger := store.ledger.recordWords (headCell key) (putWords value old) }) := by
  rw [eval_put_of_ends store costs long value has.ends, has.length_chainLinks]

end

/-! ## Reading back -/

/-- A value whose words stand along a chain is the value of the chain. -/
theorem valueOf_chainLinks_of_along {changes : ChangeSet} {head : Cell} {value : Bytes}
    (along : (orbit (encode value).length head).map changes.content = encode value) :
    valueOf (chainLinks changes ((encode value).length - 1) head) = .ok value := by
  have nonempty := length_encode_pos value
  have first : changes.content head = (encode value).getD 0 .zero := by
    rw [← along, List.getD_eq_getElem _ _ (by rwa [List.length_map, length_orbit])]
    simp [orbit_eq_map]
  by_cases empty : value = []
  · subst empty
    have vacant : changes.content head = .zero := first
    rw [chainLinks, if_pos vacant]
    rfl
  · have live : changes.content head ≠ .zero := by
      rw [first, List.getD_eq_getElem _ _ nonempty]
      exact encode_ne_zero empty _ (List.getElem_mem nonempty)
    rw [chainLinks, if_neg live, Nat.sub_add_cancel nonempty]
    exact Stored.valueOf_encode ((words_linksAlong _ _ _).trans along)

/-- A value whose words stand along the chain of a key is found under it. -/
theorem get_of_along (store : Store ChangeSet) (costs : StorageCosts) {key value : Bytes}
    (long : 20 < key.length)
    (along : (orbit (encode value).length (headCell key)).map store.ledger.content = encode value)
    (enough : costs.readFlat.toNat + (costs.readBytes value.length).toNat ≤
      store.meter.remaining.toNat) :
    (Fallible.eval (get costs key) store).1 = .ok (if value = [] then none else some value) := by
  have flat : costs.readFlat ≤ store.meter.remaining := by
    rw [UInt64.le_iff_toNat_le]
    omega
  have bytes : costs.readBytes value.length ≤ store.meter.remaining - costs.readFlat := by
    rw [UInt64.le_iff_toNat_le, Gas.toNat_sub flat]
    omega
  rw [eval_get_of_ends store costs long ((chain_encode value).ends along),
    if_neg (UInt64.not_lt.2 flat), valueOf_chainLinks_of_along along]
  dsimp only
  rw [if_neg (UInt64.not_lt.2 bytes)]
  simp only [List.isEmpty_iff]

/-! ## Over anything -/

/-- A value has been put under a key over a chain of so many words: it is found there, what it does
not cover of the chain is cleared, and all else is as it was. -/
structure PutOver (before after : ChangeSet) (key value : Bytes) (old : Nat) : Prop where
  found : ∀ (costs : StorageCosts) (meter : Meter),
    costs.readFlat.toNat + (costs.readBytes value.length).toNat ≤ meter.remaining.toNat →
      (Fallible.eval (get costs key) ⟨after, meter⟩).1 =
        .ok (if value = [] then none else some value)
  cleared : ∀ i, (encode value).length ≤ i → i < old →
    after.content (nextCell^[i] (headCell key)) = .zero
  beyond : ∀ cell, cell ∉ orbit (max old (encode value).length) (headCell key) →
    after.content cell = before.content cell
  account? : ∀ address, after.account? address = before.account? address

theorem putOver_recordWords {changes : ChangeSet} {key : Bytes} (long : 20 < key.length)
    (value : Bytes) {old : Nat}
    (distinct : (orbit (max old (encode value).length) (headCell key)).Nodup) :
    PutOver changes (changes.recordWords (headCell key) (putWords value old)) key value old := by
  have length : (putWords value old).length = max old (encode value).length := by
    rw [length_putWords, max_comm]
  have distinct' : (orbit (putWords value old).length (headCell key)).Nodup := by rwa [length]
  have written (i : Nat) (inside : i < (putWords value old).length) :
      (changes.recordWords (headCell key) (putWords value old)).content
        (nextCell^[i] (headCell key)) = (encode value).getD i .zero :=
    (ChangeSet.content_recordWords distinct' inside).trans (getD_append_zeros _ _ _)
  have along : (orbit (encode value).length (headCell key)).map
      (changes.recordWords (headCell key) (putWords value old)).content = encode value := by
    refine List.ext_getElem (by rw [List.length_map, length_orbit]) fun i inside inside' => ?_
    rw [List.getElem_map, ← List.getD_eq_getElem _ FixedBytes.zero inside', ← written i (by omega)]
    simp [orbit_eq_map]
  constructor
  case found =>
    intro costs meter enough
    exact get_of_along _ costs long along enough
  case cleared =>
    intro i behind inside
    rw [written i (by omega), List.getD_eq_default _ _ behind]
  case beyond =>
    intro cell outside
    rw [← length] at outside
    exact ChangeSet.content_recordWords_of_notMem outside
  case account? =>
    intro address
    exact changes.account?_recordWords _ _ address

/-- Whatever the state, a `put` goes through just when it is paid for and the chain that it finds
under its key ends; along cells without repetition it then puts the value over that chain. -/
theorem get_after_put (store : Store ChangeSet) (costs : StorageCosts) {key : Bytes}
    (long : 20 < key.length) (value : Bytes) :
    let outcome := Fallible.eval (put costs key value) store
    ((∃ receipt, outcome.1 = .ok receipt) ↔
        costs.write value.length ≤ store.meter.remaining ∧
          ∃ old, HasLength store.ledger.content (headCell key) old) ∧
      ∀ receipt old, outcome.1 = .ok receipt →
        HasLength store.ledger.content (headCell key) old →
        (orbit (max old (encode value).length) (headCell key)).Nodup →
        PutOver store.ledger outcome.2.ledger key value old := by
  intro outcome
  refine ⟨put_succeeds_iff store costs long value, ?_⟩
  intro receipt old done has distinct
  have written := eval_put_of_hasLength store costs long value has
  have paid := ((put_succeeds_iff store costs long value).1 ⟨receipt, done⟩).1
  rw [if_neg (UInt64.not_lt.2 paid)] at written
  show PutOver store.ledger (Fallible.eval (put costs key value) store).2.ledger key value old
  rw [written]
  exact putOver_recordWords long value distinct

/-- Under the key stand a word that goes on, and one whose length is more than a word can hold. -/
def ruined : ChangeSet :=
  let head := headCell (joinKey .zero [[0x61]])
  (ChangeSet.empty.recordSlot head (linkWord (List.replicate 31 0x2a))).recordSlot (nextCell head)
    (FixedBytes.takeList [0xc0])

/-- A value of one word is put over the two, which could not be read. -/
theorem get_after_put_ruined :
    let key := joinKey .zero [[0x61]]
    let after := (Fallible.eval (put .standard key [0x2b]) ⟨ruined, .unlimited⟩).2.ledger
    (Fallible.eval (get .standard key) ⟨ruined, .unlimited⟩).1 =
        .error (.malformedSlot (nextCell (headCell key)).slot) ∧
      (Fallible.eval (get .standard key) ⟨after, .unlimited⟩).1 = .ok (some [0x2b]) ∧
      after.content (nextCell (headCell key)) = .zero := by
  intro key after
  have long : 20 < key.length := by decide
  have has : HasLength ruined.content (headCell key) 2 := by
    refine .occupied (by decide +kernel) (.succ (by decide +kernel) (.zero ?_))
    decide +kernel
  obtain ⟨succeeds, puts⟩ := get_after_put ⟨ruined, .unlimited⟩ .standard long [0x2b]
  obtain ⟨receipt, done⟩ := succeeds.2 ⟨by decide, 2, has⟩
  have stands : PutOver ruined after key [0x2b] 2 := puts receipt 2 done has (by decide +kernel)
  refine ⟨by decide +kernel, stands.found .standard .unlimited (by decide), ?_⟩
  exact stands.cleared 1 (by decide) (by decide)

end Store

end ContractHost
