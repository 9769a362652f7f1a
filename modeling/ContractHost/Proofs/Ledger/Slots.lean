import Mathlib
import ContractHost.Ledger.ChangeSet
import ContractHost.Proofs.Fallible

/-!
# The slots of a change set

A change set is a ledger that never fails: a read gives the content and a write records one cell
(`eval_getStorage`, `eval_setStorage`). Only recorded cells can hold anything but zero, so a list of
cells without repetition that all do is no longer than the record (`length_le_size`), and the live
slots of an address are as many as its cells that do (`liveSlots_eq_card`).
-/

namespace ContractHost.ChangeSet

variable (changes : ChangeSet)

theorem eval_getStorage (cell : Cell) :
    Fallible.eval (Ledger.getStorage cell) changes = (.ok (changes.content cell), changes) := rfl

theorem eval_setStorage (cell : Cell) (value : Word) :
    Fallible.eval (Ledger.setStorage cell value) changes =
      (.ok (), changes.recordSlot cell value) := rfl

theorem slotBound_eq : Ledger.slotBound changes = changes.slots.size := rfl

@[simp] theorem content_empty (cell : Cell) : empty.content cell = .zero := by
  simp [content, slot?, empty]

theorem content_recordSlot (cell other : Cell) (value : Word) :
    (changes.recordSlot cell value).content other =
      if cell = other then value else changes.content other := by
  rw [content, slot?_recordSlot]
  split <;> rfl

theorem content_recordSlot_eq (cell : Cell) (value : Word) :
    (changes.recordSlot cell value).content = Function.update changes.content cell value := by
  funext other
  rw [content_recordSlot, Function.update_apply]
  simp only [eq_comm]

@[simp] theorem content_recordSlot_self (cell : Cell) (value : Word) :
    (changes.recordSlot cell value).content cell = value := by
  rw [content_recordSlot, if_pos rfl]

theorem content_recordSlot_of_ne {cell other : Cell} (h : cell ≠ other) (value : Word) :
    (changes.recordSlot cell value).content other = changes.content other := by
  rw [content_recordSlot, if_neg h]

variable {changes}

theorem slot?_eq_some_of_content_ne_zero {cell : Cell} (h : changes.content cell ≠ .zero) :
    changes.slot? cell = some (changes.content cell) := by
  cases recorded : changes.slot? cell with
  | none =>
    rw [content, recorded] at h
    exact absurd rfl h
  | some word => rw [content, recorded, Option.getD_some]

theorem mem_keys_of_content_ne_zero {cell : Cell} (h : changes.content cell ≠ .zero) :
    cell ∈ changes.slots.keys := by
  rw [Std.ExtTreeMap.mem_keys, Std.ExtTreeMap.mem_iff_isSome_getElem?]
  have recorded : changes.slots[cell]? = some _ := slot?_eq_some_of_content_ne_zero h
  rw [recorded]
  rfl

theorem length_le_size {cells : List Cell} (distinct : cells.Nodup)
    (live : ∀ cell ∈ cells, changes.content cell ≠ .zero) :
    cells.length ≤ changes.slots.size := by
  rw [← Std.ExtTreeMap.length_keys]
  refine (List.subperm_of_subset distinct fun cell member => ?_).length_le
  exact mem_keys_of_content_ne_zero (live cell member)

/-- The record without its zeros and without the slots of other addresses. -/
def liveCells (changes : ChangeSet) (owner : Address) : List Cell :=
  (changes.slots.toList.filter fun (cell, value) => cell.owner = owner && !value.isZero).map Prod.fst

theorem length_liveCells (owner : Address) :
    (changes.liveCells owner).length = changes.liveSlots owner := by
  rw [liveCells, List.length_map, liveSlots, List.countP_eq_length_filter]

theorem mem_liveCells (owner : Address) (cell : Cell) :
    cell ∈ changes.liveCells owner ↔ cell.owner = owner ∧ changes.content cell ≠ .zero := by
  simp only [liveCells, List.mem_map, List.mem_filter, Prod.exists, exists_and_right,
    exists_eq_right, Std.ExtTreeMap.mem_toList_iff_getElem?_eq_some, Bool.and_eq_true,
    decide_eq_true_eq, Bool.not_eq_true', FixedBytes.isZero, decide_eq_false_iff_not]
  constructor
  · rintro ⟨word, recorded, same, live⟩
    have found : changes.content cell = word := by
      rw [content, slot?, recorded, Option.getD_some]
    exact ⟨same, found ▸ live⟩
  · rintro ⟨same, live⟩
    exact ⟨_, slot?_eq_some_of_content_ne_zero live, same, live⟩

theorem nodup_liveCells (owner : Address) : (changes.liveCells owner).Nodup := by
  refine List.Nodup.sublist (List.Sublist.map _ List.filter_sublist) ?_
  rw [Std.ExtTreeMap.map_fst_toList_eq_keys]
  exact Std.ExtTreeMap.nodup_keys

theorem liveSlots_le_size (owner : Address) : changes.liveSlots owner ≤ changes.slots.size := by
  rw [← length_liveCells]
  exact length_le_size (nodup_liveCells owner) fun cell member => ((mem_liveCells owner cell).1 member).2

/-- The set of the cells of an address that are not zero counts its live slots. -/
theorem liveSlots_eq_card {owner : Address} {cells : Finset Cell}
    (exact : ∀ cell, cell ∈ cells ↔ cell.owner = owner ∧ changes.content cell ≠ .zero) :
    changes.liveSlots owner = cells.card := by
  rw [← length_liveCells, ← List.toFinset_card_of_nodup (nodup_liveCells owner)]
  congr 1
  ext cell
  rw [List.mem_toFinset, mem_liveCells, exact]

end ContractHost.ChangeSet
