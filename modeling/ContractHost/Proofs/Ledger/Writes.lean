import Mathlib
import ContractHost.Ledger.Recorder
import ContractHost.Proofs.Ledger.Overlay

/-!
# Writes

The writes that reach a ledger, as a list. On layers they are all made in the top one
(`Layers.write`), and writes to different cells may be made in either order (`write_comm`). A
recorder shows which they are (`Recorder.writes`): every access adds itself to the record
(`accesses_attempt`), and without faults it does what the ledger behind does
(`eval_attempt_of_faultless`).
-/

namespace ContractHost

/-! ## Writes to layers -/

theorem ChangeSet.recordSlot_comm (changes : ChangeSet) {cell other : Cell} (apart : cell ≠ other)
    (word word' : Word) :
    (changes.recordSlot cell word).recordSlot other word' =
      (changes.recordSlot other word').recordSlot cell word := by
  rw [recordSlot, recordSlot, recordSlot, recordSlot]
  congr 1
  ext1 key
  simp only [Std.ExtTreeMap.getElem?_insert, Std.compare_eq_iff_eq]
  grind

namespace Layers

variable {layers layers' : Layers} {writes writes' : List (Cell × Word)} {cell : Cell}

/-- Writes cells in the top layer, the first one first. -/
def write (layers : Layers) (writes : List (Cell × Word)) : Layers :=
  writes.foldl (fun layers write => { layers with top := layers.top.recordSlot write.1 write.2 })
    layers

theorem write_append (layers : Layers) (writes writes' : List (Cell × Word)) :
    layers.write (writes ++ writes') = (layers.write writes).write writes' :=
  List.foldl_append

theorem content_recordSlot (layers : Layers) (cell : Cell) (word : Word) :
    content { layers with top := layers.top.recordSlot cell word } =
      Function.update layers.content cell word := by
  funext other
  rw [content, slot?_eq, ChangeSet.slot?_recordSlot, Function.update_apply]
  by_cases same : cell = other
  · rw [if_pos same, if_pos same.symm]
    rfl
  · rw [if_neg same, if_neg (Ne.symm same), content, slot?_eq]

theorem plain : Ledger.Plain content where
  getStorage _ _ := rfl
  setStorage cell word layers := ⟨_, rfl, layers.content_recordSlot cell word⟩

theorem account?_write (layers : Layers) (writes : List (Cell × Word)) (address : Address) :
    (layers.write writes).account? address = layers.account? address := by
  induction writes generalizing layers with
  | nil => rfl
  | cons write writes ih => exact ih _

theorem content_write_congr (same : layers.content cell = layers'.content cell) :
    (layers.write writes).content cell = (layers'.write writes).content cell := by
  induction writes generalizing layers layers' with
  | nil => exact same
  | cons write writes ih =>
    apply ih
    rw [content_recordSlot, content_recordSlot, Function.update_apply, Function.update_apply, same]

theorem content_write_of_forall_ne (apart : ∀ write ∈ writes, write.1 ≠ cell) :
    (layers.write writes).content cell = layers.content cell := by
  induction writes generalizing layers with
  | nil => rfl
  | cons write writes ih =>
    obtain ⟨here, later⟩ := List.forall_mem_cons.1 apart
    refine (ih later).trans ?_
    rw [content_recordSlot, Function.update_of_ne (Ne.symm here)]

/-- Two writes to different cells may be made in either order. -/
theorem write_swap {write write' : Cell × Word} (apart : write.1 ≠ write'.1) (layers : Layers) :
    (layers.write [write]).write [write'] = (layers.write [write']).write [write] :=
  congrArg (Layers.mk · layers.below) (layers.top.recordSlot_comm apart write.2 write'.2)

theorem write_comm_singleton {write' : Cell × Word} (apart : ∀ write ∈ writes, write.1 ≠ write'.1) :
    (layers.write writes).write [write'] = (layers.write [write']).write writes := by
  induction writes generalizing layers with
  | nil => rfl
  | cons write writes ih =>
    obtain ⟨here, later⟩ := List.forall_mem_cons.1 apart
    calc ((layers.write [write]).write writes).write [write']
        = ((layers.write [write]).write [write']).write writes := ih later
      _ = ((layers.write [write']).write [write]).write writes := by rw [write_swap here]

/-- Writes to different cells may be made in either order. -/
theorem write_comm (apart : ∀ write ∈ writes, ∀ write' ∈ writes', write.1 ≠ write'.1) :
    (layers.write writes).write writes' = (layers.write writes').write writes := by
  induction writes' generalizing layers with
  | nil => rfl
  | cons write' writes' ih =>
    have first : ∀ write ∈ writes, write.1 ≠ write'.1 := fun write member =>
      apart write member write' List.mem_cons_self
    have later : ∀ write ∈ writes, ∀ other ∈ writes', write.1 ≠ other.1 :=
      fun write member other member' => apart write member other (List.mem_cons_of_mem _ member')
    calc ((layers.write writes).write [write']).write writes'
        = ((layers.write [write']).write writes).write writes' := by
          rw [write_comm_singleton first]
      _ = ((layers.write [write']).write writes').write writes := ih later

end Layers

/-! ## Recorded accesses -/

/-- What an access writes. -/
def Access.write? : Access → Option (Cell × Word)
  | getAccount _ => none
  | setAccount _ _ => none
  | getStorage _ => none
  | setStorage cell word => some (cell, word)

/-- The cell that an access reads. -/
def Access.read? : Access → Option Cell
  | getAccount _ => none
  | setAccount _ _ => none
  | getStorage cell => some cell
  | setStorage _ _ => none

/-- The access is one to the storage of an address. -/
def Access.IsUnder (owner : Address) : Access → Prop
  | getAccount _ => False
  | setAccount _ _ => False
  | getStorage cell => cell.owner = owner
  | setStorage cell _ => cell.owner = owner

namespace Recorder

variable {σ α : Type}

/-- A recorder without faults, before the first access. -/
def blank (inner : σ) : Recorder σ := ⟨inner, [], []⟩

/-- The recorded writes, the first one first. -/
def writes (recorder : Recorder σ) : List (Cell × Word) :=
  recorder.accesses.filterMap fun seen => seen.access.write?

theorem writes_record (recorder : Recorder σ) (access : Access) (done : Bool) :
    (recorder.record access done).writes = recorder.writes ++ access.write?.toList := by
  rw [writes, record, List.filterMap_append]
  cases access with
  | _ => rfl

/-- An access adds itself to the record, whether or not a fault strikes it. -/
theorem accesses_attempt (access : Access) {struck : LedgerM (Recorder σ) α}
    (silent : ∀ recorder, (Fallible.eval struck recorder).2 = recorder) (step : LedgerM σ α)
    (recorder : Recorder σ) :
    ∃ done, (Fallible.eval (attempt access struck step) recorder).2.accesses =
      recorder.accesses ++ [⟨access, done⟩] := by
  unfold attempt
  rw [Fallible.eval_bind, Fallible.eval_get, Fallible.proceed_ok]
  cases recorder.fault? access.kind with
  | none => exact ⟨true, rfl⟩
  | some fault =>
    refine ⟨false, ?_⟩
    dsimp only
    rw [Fallible.eval_bind, Fallible.eval_modify, Fallible.proceed_ok]
    cases fault.cause? with
    | some cause => rfl
    | none => exact congrArg accesses (silent _)

/-- Without faults an access does what it does to the ledger behind. -/
theorem eval_attempt_of_faultless {recorder : Recorder σ} (faultless : recorder.faults = [])
    (access : Access) (struck : LedgerM (Recorder σ) α) (step : LedgerM σ α) :
    Fallible.eval (attempt access struck step) recorder =
      ((Fallible.eval step recorder.inner).1,
        { recorder.record access true with inner := (Fallible.eval step recorder.inner).2 }) := by
  unfold attempt
  rw [Fallible.eval_bind, Fallible.eval_get, Fallible.proceed_ok]
  have spared : recorder.fault? access.kind = none := by
    rw [fault?, faultless]
    rfl
  rw [spared]
  rfl

variable [Ledger σ]

theorem accesses_getStorage (cell : Cell) (recorder : Recorder σ) :
    ∃ done, (Fallible.eval (Ledger.getStorage cell) recorder).2.accesses =
      recorder.accesses ++ [⟨.getStorage cell, done⟩] :=
  accesses_attempt _ (fun _ => rfl) _ recorder

theorem accesses_setStorage (cell : Cell) (word : Word) (recorder : Recorder σ) :
    ∃ done, (Fallible.eval (Ledger.setStorage cell word) recorder).2.accesses =
      recorder.accesses ++ [⟨.setStorage cell word, done⟩] :=
  accesses_attempt _ (fun _ => rfl) _ recorder

end Recorder

end ContractHost
