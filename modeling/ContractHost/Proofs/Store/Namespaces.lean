import Mathlib
import ContractHost.Proofs.Ledger.Writes
import ContractHost.Proofs.Store.Prices

/-!
# The storage of an address

An operation of the store stays in the storage of the address that its key begins with: the owner of
a cell is never hashed, so nothing is asked of the hash function. On a recorder, which shows every
access that reaches a ledger and can make any of them fail, it is seen to access nothing else
(`exists_accesses`). On layers its reply, the gas that it takes and its writes are decided by what
the cells of that address hold (`eval_of_recorder`), so that operations under two addresses may be
made in either order (`commute_of_owner_ne`).
-/

namespace ContractHost

open Fallible (Lockstep)

namespace Store

variable {owner : Address} {operation : Operation}

/-- The head of a key belongs to the address that the key begins with. -/
theorem owner_headCell {key : Bytes} (begins : owner.toList <+: key) :
    (headCell key).owner = owner := by
  obtain ⟨rest, rfl⟩ := begins
  have first : ((owner.toList ++ rest) ++ List.replicate 20 0).take 20 = owner.toList := by
    rw [List.append_assoc, List.take_left' owner.length_toList]
  exact FixedBytes.ext first

/-! ## What is accessed -/

/-- Whatever the ledger, and whatever fails, an operation accesses only the storage of the address
of its key. -/
theorem exists_accesses {σ : Type} [Ledger σ] (costs : StorageCosts)
    (owned : (headCell operation.key).owner = owner) (store : Store (Recorder σ)) :
    ∃ accesses, (Fallible.eval (operation.run costs) store).2.ledger.accesses =
        store.ledger.accesses ++ accesses ∧
      ∀ seen ∈ accesses, seen.access.IsUnder owner := by
  let kept (recorder : Recorder σ) : Prop := ∃ accesses,
    recorder.accesses = store.ledger.accesses ++ accesses ∧
      ∀ seen ∈ accesses, seen.access.IsUnder owner
  have extend {recorder recorder' : Recorder σ} {access : Access} (here : kept recorder)
      (inside : access.IsUnder owner)
      (more : ∃ done, recorder'.accesses = recorder.accesses ++ [⟨access, done⟩]) :
      kept recorder' := by
    obtain ⟨accesses, before, under⟩ := here
    obtain ⟨done, after⟩ := more
    refine ⟨accesses ++ [⟨access, done⟩], ?_, ?_⟩
    · rw [after, before, List.append_assoc]
    · exact List.forall_mem_append.2 ⟨under, List.forall_mem_singleton.2 inside⟩
  refine keeps_operation costs owned kept ?_ ?_ ⟨[], by simp, by simp⟩
  · intro cell recorder inside here
    have inside : (Access.getStorage cell).IsUnder owner := inside
    exact extend here inside (recorder.accesses_getStorage cell)
  · intro cell word recorder inside here
    have inside : (Access.setStorage cell word).IsUnder owner := inside
    exact extend here inside (recorder.accesses_setStorage cell word)

/-! ## What is decided by an address -/

/-- A recorder over some layers, without faults, and other layers to which the same was written. -/
structure Replays (owner : Address) (start start' : Layers) (recorder : Recorder Layers)
    (layers : Layers) : Prop where
  faultless : recorder.faults = []
  inner : recorder.inner = start.write recorder.writes
  layers : layers = start'.write recorder.writes
  owned : ∀ write ∈ recorder.writes, write.1.owner = owner

section Replays

variable {start start' : Layers}
  (same : ∀ cell, cell.owner = owner → start'.content cell = start.content cell)
include same

theorem Replays.content_eq {recorder : Recorder Layers} {layers : Layers}
    (replays : Replays owner start start' recorder layers) {cell : Cell}
    (owned : cell.owner = owner) : recorder.inner.content cell = layers.content cell := by
  rw [replays.inner, replays.layers]
  exact Layers.content_write_congr (same cell owned).symm

theorem inStepUnder_replays : InStepUnder owner (Replays owner start start') where
  -- A read adds to the record, but not to its writes.
  getStorage cell owned := by
    intro recorder layers replays
    have read : Fallible.eval (Ledger.getStorage cell) recorder =
        (.ok (recorder.inner.content cell), recorder.record (.getStorage cell) true) :=
      Recorder.eval_attempt_of_faultless replays.faultless _ _ _
    have unwritten : (recorder.record (.getStorage cell) true).writes = recorder.writes :=
      (recorder.writes_record _ _).trans (List.append_nil _)
    rw [read]
    refine ⟨congrArg Except.ok (replays.content_eq same owned), replays.faultless, ?_, ?_, ?_⟩
    · rw [unwritten]
      exact replays.inner
    · rw [unwritten]
      exact replays.layers
    · rw [unwritten]
      exact replays.owned
  setStorage cell word owned := by
    intro recorder layers replays
    let after : Recorder Layers :=
      { recorder.record (.setStorage cell word) true with
        inner := recorder.inner.write [(cell, word)] }
    have wrote : Fallible.eval (Ledger.setStorage cell word) recorder = (.ok (), after) :=
      Recorder.eval_attempt_of_faultless replays.faultless _ _ _
    have more : after.writes = recorder.writes ++ [(cell, word)] :=
      recorder.writes_record (.setStorage cell word) true
    rw [wrote]
    refine ⟨rfl, replays.faultless, ?_, ?_, ?_⟩
    · show recorder.inner.write [(cell, word)] = start.write after.writes
      rw [more, Layers.write_append, ← replays.inner]
    · show layers.write [(cell, word)] = start'.write after.writes
      rw [more, Layers.write_append, ← replays.layers]
    · rw [more]
      exact List.forall_mem_append.2 ⟨replays.owned, List.forall_mem_singleton.2 owned⟩

/-- What the address holds is bounded by the slots of either. -/
theorem reachAlikeUnder_replays : ReachAlikeUnder owner (Replays owner start start') := by
  refine reachAlikeUnder_of_bound Layers.plain (inStepUnder_replays same) ?_
  intro recorder layers replays
  have held : under owner recorder.inner.content = under owner layers.content := by
    funext cell
    by_cases owned : cell.owner = owner
    · rw [under_of_owner owned, under_of_owner owned, replays.content_eq same owned]
    · rw [under, under, if_neg owned, if_neg owned]
  have bound : LiveBound (under owner layers.content) (Ledger.slotBound recorder) := by
    rw [← held]
    exact (Layers.liveBound_layers recorder.inner).under owner
  exact bound.min ((Layers.liveBound_layers layers).under owner)

end Replays

/-- What an operation makes of layers can be seen from a recorder over any others that hold the same
under the address of its key. -/
theorem eval_of_recorder (costs : StorageCosts) (owned : (headCell operation.key).owner = owner)
    {layers layers' : Layers}
    (same : ∀ cell, cell.owner = owner → layers'.content cell = layers.content cell)
    {meter meter' : Meter} {reply : Except RuntimeError operation.Reply} {after : Recorder Layers}
    (recorded : Fallible.eval (operation.run costs) ⟨Recorder.blank layers, meter⟩ =
      (reply, ⟨after, meter'⟩)) :
    Fallible.eval (operation.run costs) ⟨layers', meter⟩ =
        (reply, ⟨layers'.write after.writes, meter'⟩) ∧
      ∀ write ∈ after.writes, write.1.owner = owner := by
  have start : Matches (Replays owner layers layers') ⟨Recorder.blank layers, meter⟩
      ⟨layers', meter⟩ :=
    ⟨⟨rfl, rfl, rfl, by simp [Recorder.blank, Recorder.writes]⟩, rfl⟩
  have agree := lockstep_operation_under costs owned (inStepUnder_replays same)
    (reachAlikeUnder_replays same) _ _ start
  rw [recorded] at agree
  refine ⟨?_, agree.state.ledger.owned⟩
  have left : (Fallible.eval (operation.run costs) ⟨layers', meter⟩).2 =
      ⟨layers'.write after.writes, meter'⟩ :=
    congrArg₂ Store.mk agree.state.ledger.layers agree.state.meter.symm
  exact Prod.ext agree.result.symm left

/-- What the cells of the address hold decides the reply, the writes and the gas. -/
theorem exists_writes (costs : StorageCosts) (owned : (headCell operation.key).owner = owner)
    (layers : Layers) (meter : Meter) :
    ∃ reply writes meter', (∀ write ∈ writes, write.1.owner = owner) ∧
      ∀ layers' : Layers,
        (∀ cell, cell.owner = owner → layers'.content cell = layers.content cell) →
          Fallible.eval (operation.run costs) ⟨layers', meter⟩ =
            (reply, ⟨layers'.write writes, meter'⟩) := by
  rcases recorded : Fallible.eval (operation.run costs) ⟨Recorder.blank layers, meter⟩ with
    ⟨reply, after, meter'⟩
  refine ⟨reply, after.writes, meter',
    (eval_of_recorder costs owned (fun _ _ => rfl) recorded).2, ?_⟩
  intro layers' same
  exact (eval_of_recorder costs owned same recorded).1

/-- An operation that gas suffices for has a price, and does the same with every meter that covers
it. -/
theorem exists_price (costs : StorageCosts) (owned : (headCell operation.key).owner = owner)
    {layers : Layers} {meter : Meter}
    (enough : isShort (Fallible.eval (operation.run costs) ⟨layers, meter⟩).1 = false) :
    ∃ reply writes price, price ≤ meter.remaining ∧ (∀ write ∈ writes, write.1.owner = owner) ∧
      ∀ layers' : Layers,
        (∀ cell, cell.owner = owner → layers'.content cell = layers.content cell) →
          ∀ meter' : Meter, price ≤ meter'.remaining →
            Fallible.eval (operation.run costs) ⟨layers', meter'⟩ =
              (reply, ⟨layers'.write writes, ⟨meter'.remaining - price⟩⟩) := by
  rcases operation.settles costs ⟨Recorder.blank layers, meter⟩ with
    ⟨required, available, after, starved⟩ | ⟨⟨reply, after, -, runs⟩, covered⟩
  · rw [(eval_of_recorder costs owned (fun _ _ => rfl) starved).1] at enough
    cases enough
  · have owned' := (eval_of_recorder costs owned (fun _ _ => rfl) (runs meter covered)).2
    refine ⟨reply, after.writes, _, covered, owned', ?_⟩
    intro layers' same meter' covered'
    exact (eval_of_recorder costs owned same (runs meter' covered')).1

/-- An operation has to do with nothing but the storage of an address. -/
structure Operation.StaysUnder (costs : StorageCosts) (owner : Address) (operation : Operation) :
    Prop where
  /-- Whatever the ledger and whatever fails, nothing else is accessed. -/
  accesses : ∀ {σ : Type} [Ledger σ] (store : Store (Recorder σ)),
    ∃ accesses, (Fallible.eval (operation.run costs) store).2.ledger.accesses =
        store.ledger.accesses ++ accesses ∧
      ∀ seen ∈ accesses, seen.access.IsUnder owner
  /-- The reply, the gas and the writes are the same on all layers that hold the same there. -/
  decided : ∀ (layers : Layers) (meter : Meter),
    ∃ reply writes meter', (∀ write ∈ writes, write.1.owner = owner) ∧
      ∀ layers' : Layers,
        (∀ cell, cell.owner = owner → layers'.content cell = layers.content cell) →
          Fallible.eval (operation.run costs) ⟨layers', meter⟩ =
            (reply, ⟨layers'.write writes, meter'⟩)

theorem staysUnder_of_prefix (costs : StorageCosts) (begins : owner.toList <+: operation.key) :
    operation.StaysUnder costs owner where
  accesses := exists_accesses costs (owner_headCell begins)
  decided := exists_writes costs (owner_headCell begins)

/-! ## Two addresses -/

/-- Two steps reply the same whichever is made first, and leave the same. -/
structure Commute {σ α β : Type} (step : StoreM σ α) (step' : StoreM σ β) (store : Store σ) :
    Prop where
  first : (Fallible.eval step (Fallible.eval step' store).2).1 = (Fallible.eval step store).1
  second : (Fallible.eval step' (Fallible.eval step store).2).1 = (Fallible.eval step' store).1
  after : (Fallible.eval step (Fallible.eval step' store).2).2 =
    (Fallible.eval step' (Fallible.eval step store).2).2

/-- Two prices are paid in either order. -/
theorem pay_comm {price price' gas : Gas} (covered : price ≤ gas)
    (covered' : price' ≤ gas - price) :
    price' ≤ gas ∧ price ≤ gas - price' ∧ gas - price' - price = gas - price - price' := by
  have rest := UInt64.le_iff_toNat_le.1 covered'
  rw [Gas.toNat_sub covered] at rest
  have all := UInt64.le_iff_toNat_le.1 covered
  have early : price' ≤ gas := by
    rw [UInt64.le_iff_toNat_le]
    omega
  have late : price ≤ gas - price' := by
    rw [UInt64.le_iff_toNat_le, Gas.toNat_sub early]
    omega
  refine ⟨early, late, ?_⟩
  rw [← UInt64.toNat_inj, Gas.toNat_sub late, Gas.toNat_sub early, Gas.toNat_sub covered',
    Gas.toNat_sub covered]
  omega

/-- Two operations under different addresses that gas suffices for may be made in either order. -/
theorem commute_of_owner_ne (costs : StorageCosts) {first second : Operation}
    (apart : (headCell first.key).owner ≠ (headCell second.key).owner) {store : Store Layers}
    (enough : isShort (Fallible.eval (first.run costs) store).1 = false)
    (enough' : isShort (Fallible.eval (second.run costs)
      (Fallible.eval (first.run costs) store).2).1 = false) :
    Commute (first.run costs) (second.run costs) store := by
  obtain ⟨layers, meter⟩ := store
  obtain ⟨reply, writes, price, covered, owned, runs⟩ := exists_price costs rfl enough
  have once := runs layers (fun _ _ => rfl) meter covered
  rw [once] at enough'
  obtain ⟨reply', writes', price', covered', owned', runs'⟩ := exists_price costs rfl enough'
  have twice := runs' _ (fun _ _ => rfl) _ covered'
  -- What one writes is nothing that the other looks at.
  have unseen : ∀ cell, cell.owner = (headCell second.key).owner →
      layers.content cell = (layers.write writes).content cell := by
    intro cell inside
    refine (Layers.content_write_of_forall_ne fun write member same => apart ?_).symm
    rw [← owned write member, same, inside]
  have unseen' : ∀ cell, cell.owner = (headCell first.key).owner →
      (layers.write writes').content cell = layers.content cell := by
    intro cell inside
    refine Layers.content_write_of_forall_ne fun write member same => apart ?_
    rw [← owned' write member, same, inside]
  have swapped : (layers.write writes').write writes = (layers.write writes).write writes' := by
    refine Layers.write_comm fun write member write' member' same => apart ?_
    rw [← owned write' member', ← owned' write member, same]
  obtain ⟨early, late, spent⟩ := pay_comm covered covered'
  have once' := runs' layers unseen meter early
  have twice' := runs _ unseen' ⟨meter.remaining - price'⟩ late
  refine ⟨?_, ?_, ?_⟩
  · rw [once', twice', once]
  · rw [once, twice, once']
  · rw [once', twice', once, twice, swapped, spent]

end Store

end ContractHost
