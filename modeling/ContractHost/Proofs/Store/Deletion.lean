import Mathlib
import ContractHost.Proofs.Store.Accesses
import ContractHost.Proofs.Store.Overwriting
import ContractHost.Proofs.Store.Prices

/-!
# Deleting anything

The store follows a chain in three ways: `get` reads it to decode it, `put` to count its words, and
`delete` clears each cell before the word that it held tells whether to go on. A `delete` that is paid
for never fails: where the chain returns to a cell, that cell is cleared by then and the last one
(`exists_clears`). If the walk along the chain passes no cell twice, the chain ends (`walksOnce_iff`),
and the cells up to its end are those that are cleared and those that a `get` would have read
(`delete_clears_what_get_reads`). The cells that are cleared repeat just when the walk does.
-/

namespace ContractHost

namespace Store

/-! ## Deleting -/

section

variable (store : Store ChangeSet) (costs : StorageCosts) {key : Bytes}

/-- What a `delete` clears, whatever is there. -/
theorem exists_delete (long : 20 < key.length) :
    ∃ count after, Clears store.ledger (headCell key) count after ∧
      Fallible.eval (delete costs key) store =
        if store.meter.remaining < costs.delete then drained store costs.delete
        else (.ok ⟨(headCell key).owner, count⟩, { paid store costs.delete with ledger := after }) := by
  obtain ⟨count, short, after, clears⟩ :=
    exists_clears ((liveBound_size store.ledger).under (headCell key).owner)
  refine ⟨count, after, clears, ?_⟩
  rw [eval_delete store costs long, ChangeSet.slotBound_eq]
  split
  · rfl
  · rw [eval_eraseLinks_of_clears (paid store _) (headCell key) clears short]
    rfl

/-- A `delete` goes through if it is paid for, whatever is there. -/
theorem delete_succeeds_iff (long : 20 < key.length) :
    (∃ receipt, (Fallible.eval (delete costs key) store).1 = .ok receipt) ↔
      costs.delete ≤ store.meter.remaining := by
  obtain ⟨count, after, -, deleted⟩ := exists_delete store costs long
  rw [deleted]
  split
  case isTrue short =>
    constructor
    · rintro ⟨receipt, done⟩
      cases done
    · intro covered
      exact absurd short (UInt64.not_lt.2 covered)
  case isFalse covered => exact ⟨fun _ => UInt64.not_lt.1 covered, fun _ => ⟨_, rfl⟩⟩

/-- If the cells that a `delete` has cleared do not repeat, the chain ended with them. -/
theorem ends_of_delete (long : 20 < key.length) {receipt : DeleteReceipt}
    (done : (Fallible.eval (delete costs key) store).1 = .ok receipt)
    (distinct : (orbit receipt.cleared (headCell key)).Nodup) :
    ∃ n, receipt.cleared = n + 1 ∧ Ends store.ledger.content (headCell key) n := by
  have covered := (delete_succeeds_iff store costs long).1 ⟨receipt, done⟩
  obtain ⟨count, after, clears, deleted⟩ := exists_delete store costs long
  rw [deleted, if_neg (UInt64.not_lt.2 covered)] at done
  obtain rfl := Except.ok.inj done
  exact clears.ends distinct

end

/-! ## What is left -/

theorem content_recordWords_zeros (changes : ChangeSet) {head : Cell} {count : Nat}
    (distinct : (orbit count head).Nodup) (cell : Cell) :
    (changes.recordWords head (List.replicate count .zero)).content cell =
      if cell ∈ orbit count head then .zero else changes.content cell := by
  have length : (List.replicate count (FixedBytes.zero : Word)).length = count :=
    List.length_replicate
  split
  case isTrue member =>
    obtain ⟨i, inside, rfl⟩ := mem_orbit.1 member
    rw [ChangeSet.content_recordWords (by rwa [length]) (by rwa [length]),
      List.getD_eq_getElem?_getD, List.getElem?_getD_replicate_default_eq]
  case isFalse outside => exact ChangeSet.content_recordWords_of_notMem (by rwa [length])

section

variable {changes : ChangeSet} {key : Bytes} (long : 20 < key.length)
  (zero : changes.content (headCell key) = .zero) (costs : StorageCosts) (meter : Meter)
include long zero

/-- Under a key whose head is zero nothing is found. -/
theorem get_of_head_zero (enough : costs.readFlat ≤ meter.remaining) :
    (Fallible.eval (get costs key) ⟨changes, meter⟩).1 = .ok none := by
  have along : (orbit (encode []).length (headCell key)).map changes.content = encode [] :=
    congrArg (fun word => [word]) zero
  refine get_of_along ⟨changes, meter⟩ costs long along ?_
  rw [List.length_nil, readBytes_zero]
  exact UInt64.le_iff_toNat_le.1 enough

/-- Deleting under a key whose head is zero changes no read. -/
theorem sameReads_delete_of_head_zero :
    changes.SameReads (Fallible.eval (delete costs key) ⟨changes, meter⟩).2.ledger := by
  have ends : Ends changes.content (headCell key) 0 := .zero (zero ▸ continues_zero)
  rw [eval_delete_of_ends ⟨changes, meter⟩ costs long ends]
  split
  · exact ⟨fun _ => rfl, fun _ => rfl⟩
  · constructor
    case account? => exact fun address => (changes.account?_recordWords _ _ address).symm
    case content =>
      intro cell
      refine Eq.symm ((content_recordWords_zeros changes ends.nodup cell).trans ?_)
      split
      case isTrue member => rw [List.mem_singleton.1 member, zero]
      case isFalse => rfl

end

/-- The chain of a key, which has these cells, has been deleted. -/
structure Deleted (costs : StorageCosts) (key : Bytes) (cells : List Cell)
    (before after : Store ChangeSet) : Prop where
  /-- These are the cells that a `get` reads. -/
  read : ∀ (costs : StorageCosts) (meter : Meter), costs.readFlat ≤ meter.remaining →
    (Operation.get key).accesses costs ⟨before.ledger, meter⟩ = cells.map .getStorage
  /-- A `put` counts them, unless the head is zero. -/
  counted : ∀ meter : Meter,
    (Fallible.eval (readChain (headCell key)) ⟨before.ledger, meter⟩).1 = .ok
      (if before.ledger.content (headCell key) = .zero then []
        else cells.map fun cell => ⟨cell, before.ledger.content cell⟩)
  vacant : before.ledger.content (headCell key) = .zero → cells = [headCell key]
  accesses : (Operation.delete key).accesses costs before = cells.flatMap clearing
  content : ∀ cell, after.ledger.content cell =
    if cell ∈ cells then .zero else before.ledger.content cell
  account? : ∀ address, after.ledger.account? address = before.ledger.account? address
  meter : after.meter.remaining.toNat + costs.delete.toNat = before.meter.remaining.toNat
  gone : ∀ (costs : StorageCosts) (meter : Meter), costs.readFlat ≤ meter.remaining →
    (Fallible.eval (get costs key) ⟨after.ledger, meter⟩).1 = .ok none
  again : ∀ (costs : StorageCosts) (meter : Meter),
    after.ledger.SameReads (Fallible.eval (delete costs key) ⟨after.ledger, meter⟩).2.ledger

theorem deleted_of_ends {store : Store ChangeSet} {costs : StorageCosts} {key : Bytes}
    (long : 20 < key.length) {n : Nat} (ends : Ends store.ledger.content (headCell key) n)
    (covered : costs.delete ≤ store.meter.remaining) :
    Deleted costs key (orbit (n + 1) (headCell key)) store
      (Fallible.eval (delete costs key) store).2 := by
  have content := content_recordWords_zeros store.ledger ends.nodup
  have zero := (content (headCell key)).trans (if_pos List.mem_cons_self)
  rw [eval_delete_of_ends store costs long ends, if_neg (UInt64.not_lt.2 covered)]
  constructor
  case read =>
    intro costs meter enough
    exact (accesses_get costs ends).trans (if_neg (not_or_of_covered long enough))
  case counted =>
    intro meter
    rw [eval_readChain_of_ends ⟨store.ledger, meter⟩ ends]
    rfl
  case vacant =>
    intro vacant
    have last := ends.le (.zero (vacant ▸ continues_zero))
    rw [Nat.le_zero.1 last]
    rfl
  case accesses =>
    exact (accesses_delete costs ends.clears (Nat.succ_le_succ ends.le_size)).trans
      (if_neg (not_or_of_covered long covered))
  case content => exact content
  case account? => exact store.ledger.account?_recordWords _ _
  case meter =>
    show (store.meter.remaining - costs.delete).toNat + costs.delete.toNat = _
    rw [Gas.toNat_sub covered]
    rw [UInt64.le_iff_toNat_le] at covered
    omega
  case gone => exact get_of_head_zero long zero
  case again => exact sameReads_delete_of_head_zero long zero

/-- Whatever the state, a `delete` goes through just when it is paid for. If the walk along the chain
passes no cell twice, the cells that it clears are those that a `get` reads and a `put` counts, up to
where the chain ends, and nothing is left of them. Otherwise it clears some cell twice. -/
theorem delete_clears_what_get_reads (store : Store ChangeSet) (costs : StorageCosts) {key : Bytes}
    (long : 20 < key.length) :
    let outcome := Fallible.eval (delete costs key) store
    ((∃ receipt, outcome.1 = .ok receipt) ↔ costs.delete ≤ store.meter.remaining) ∧
      ∀ receipt, outcome.1 = .ok receipt →
        (WalksOnce store.ledger.content (headCell key) →
          ∃ n, Ends store.ledger.content (headCell key) n ∧
            receipt = ⟨(headCell key).owner, n + 1⟩ ∧
            Deleted costs key (orbit (n + 1) (headCell key)) store outcome.2) ∧
        ((orbit receipt.cleared (headCell key)).Nodup ↔
          WalksOnce store.ledger.content (headCell key)) := by
  intro outcome
  have succeeds := delete_succeeds_iff store costs long
  refine ⟨succeeds, ?_⟩
  intro receipt done
  have done : (Fallible.eval (delete costs key) store).1 = .ok receipt := done
  have covered := succeeds.1 ⟨receipt, done⟩
  have counts {n : Nat} (ends : Ends store.ledger.content (headCell key) n) :
      receipt = ⟨(headCell key).owner, n + 1⟩ := by
    rw [eval_delete_of_ends store costs long ends, if_neg (UInt64.not_lt.2 covered)] at done
    exact (Except.ok.inj done).symm
  refine ⟨fun once => ?_, fun distinct => ?_, fun once => ?_⟩
  · obtain ⟨n, ends⟩ := walksOnce_iff.1 once
    exact ⟨n, ends, counts ends, deleted_of_ends long ends covered⟩
  · obtain ⟨n, -, ends⟩ := ends_of_delete store costs long done distinct
    exact ends.walksOnce
  · obtain ⟨n, ends⟩ := walksOnce_iff.1 once
    rw [counts ends]
    exact ends.nodup

/-- Deleting the two words that cannot be read. -/
theorem delete_clears_what_get_reads_ruined :
    let key := joinKey .zero [[0x61]]
    let after := (Fallible.eval (delete .standard key) ⟨ruined, .unlimited⟩).2.ledger
    (Fallible.eval (get .standard key) ⟨ruined, .unlimited⟩).1 =
        .error (.malformedSlot (nextCell (headCell key)).slot) ∧
      (Operation.delete key).accesses .standard ⟨ruined, .unlimited⟩ =
        (orbit 2 (headCell key)).flatMap clearing ∧
      (Fallible.eval (get .standard key) ⟨after, .unlimited⟩).1 = .ok none := by
  intro key after
  have long : 20 < key.length := by decide
  have once : WalksOnce ruined.content (headCell key) :=
    Ends.walksOnce (n := 1) ⟨by decide +kernel, by decide +kernel⟩
  obtain ⟨clears, -⟩ := (delete_clears_what_get_reads ⟨ruined, .unlimited⟩ .standard long).2
    ⟨(headCell key).owner, 2⟩ (by decide +kernel)
  obtain ⟨n, -, count, deleted⟩ := clears once
  obtain rfl : 1 = n := Nat.succ.inj (congrArg DeleteReceipt.cleared count)
  exact ⟨by decide +kernel, deleted.accesses, deleted.gone .standard .unlimited (by decide)⟩

end Store

end ContractHost
