import Mathlib
import ContractHost.Proofs.Store.Accesses
import ContractHost.Proofs.Store.Overwriting

/-!
# Walks that end

The store follows a chain through the ledger with nothing that counts its steps; the bound that its
loops are given (`reach`) is never what ends them. Clearing ends whatever the hash function, since a
cell that it returns to has been cleared and does not go on (`exists_clears`). Reading leaves the cells
as they are and ends if enough of them are distinct (`exists_ends_of_nodup`). Either takes one step for
each live slot of the address at most, and a last one (`walks_end_within_live_slots`).
-/

namespace ContractHost.Store

variable {changes after : ChangeSet} {key : Bytes} {count n : Nat}

/-- Clearing the chain of a key ends by itself after so many steps, and a `delete` that is paid for
makes just these. -/
structure ClearingEnds (changes : ChangeSet) (key : Bytes) (count : Nat) (after : ChangeSet) :
    Prop where
  clears : Clears changes (headCell key) count after
  /-- No bound on the steps that allows these makes a difference. -/
  unbounded : ∀ room, count ≤ room → ∀ meter,
    Fallible.eval (eraseLinks (headCell key) room (headCell key)) ⟨changes, meter⟩ =
      (.ok count, ⟨after, meter⟩)
  delete : ∀ costs meter, (Operation.delete key).accesses costs ⟨changes, meter⟩ =
    if key.length ≤ 20 ∨ meter.remaining < costs.delete then []
    else (orbit count (headCell key)).flatMap clearing

/-- Reading the chain of a key ends by itself at the cell with this number, and whatever reads the
chain, once it is paid for, reads each cell up to there once. -/
structure ReadingEnds (changes : ChangeSet) (key : Bytes) (n : Nat) : Prop where
  ends : Ends changes.content (headCell key) n
  /-- No bound on the steps that allows these makes a difference. -/
  unbounded : ∀ room, n < room → ∀ meter,
    Fallible.eval (readLinks (headCell key) room (headCell key)) ⟨changes, meter⟩ =
      (.ok (linksAlong changes (n + 1) (headCell key)), ⟨changes, meter⟩)
  /-- A `put` counts what this returns. -/
  chain : ∀ meter,
    Fallible.eval (readChain (headCell key)) ⟨Recorder.blank changes, meter⟩ =
      (.ok (chainLinks changes n (headCell key)),
        ⟨Recorder.watching changes ((orbit (n + 1) (headCell key)).map .getStorage), meter⟩)
  get : ∀ costs meter, (Operation.get key).reads costs ⟨changes, meter⟩ =
    if key.length ≤ 20 ∨ meter.remaining < costs.readFlat then [] else orbit (n + 1) (headCell key)
  put : ∀ costs meter value, (Operation.put key value).reads costs ⟨changes, meter⟩ =
    if key.length ≤ 20 ∨ meter.remaining < costs.write value.length then []
    else orbit (n + 1) (headCell key)

theorem clearingEnds_of_clears (clears : Clears changes (headCell key) count after)
    (inside : count ≤ changes.slots.size + 1) : ClearingEnds changes key count after where
  clears := clears
  unbounded _ enough meter := eval_eraseLinks_of_clears ⟨changes, meter⟩ _ clears enough
  delete costs _ := accesses_delete costs clears inside

theorem readingEnds_of_ends (ends : Ends changes.content (headCell key) n) :
    ReadingEnds changes key n where
  ends := ends
  unbounded _ enough meter := eval_readLinks_of_ends ⟨changes, meter⟩ _ ends enough
  chain meter := eval_readChain_watching [] meter ends
  get costs meter := by
    rw [Operation.reads, accesses_get costs ends]
    split
    · rfl
    · exact filterMap_read?_map_getStorage _
  put costs meter value := by
    rw [Operation.reads, accesses_put costs value ends]
    split
    · rfl
    · rw [List.filterMap_append, filterMap_read?_map_getStorage, filterMap_read?_writing,
        List.append_nil]

/-- Whatever the contents, following the chain of a key takes no more steps than its address has live
slots, and one: to clear it always, and to read it if as many cells of the chain are distinct. -/
theorem walks_end_within_live_slots (changes : ChangeSet) (key : Bytes) :
    let live := changes.liveSlots (headCell key).owner
    (∃ count ≤ live + 1, ∃ after, ClearingEnds changes key count after) ∧
      ((orbit (live + 1) (headCell key)).Nodup → ∃ n, n + 1 ≤ live + 1 ∧ ReadingEnds changes key n) := by
  intro live
  have bound := liveBound_liveSlots changes (headCell key).owner
  constructor
  · obtain ⟨count, short, after, clears⟩ := exists_clears bound
    have recorded : live ≤ changes.slots.size := changes.liveSlots_le_size _
    exact ⟨count, short, after, clearingEnds_of_clears clears (by omega)⟩
  · intro distinct
    obtain ⟨n, short, ends⟩ := exists_ends_of_nodup bound distinct
    exact ⟨n, Nat.succ_le_succ short, readingEnds_of_ends ends⟩

/-- Two live slots, the second with a word that does not go on. -/
theorem walks_end_within_live_slots_ruined :
    let key := joinKey .zero [[0x61]]
    ruined.liveSlots (headCell key).owner = 2 ∧ (orbit 3 (headCell key)).Nodup ∧
      (∃ count ≤ 3, ∃ after, ClearingEnds ruined key count after) ∧
      ∃ n, n + 1 ≤ 3 ∧ ReadingEnds ruined key n := by
  intro key
  have two : ruined.liveSlots (headCell key).owner = 2 := by decide +kernel
  have distinct : (orbit 3 (headCell key)).Nodup := by decide +kernel
  obtain ⟨clearing, reading⟩ := walks_end_within_live_slots ruined key
  rw [two] at clearing reading
  exact ⟨two, distinct, clearing, reading distinct⟩

end ContractHost.Store
