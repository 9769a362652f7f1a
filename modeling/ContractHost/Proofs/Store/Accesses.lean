import Mathlib
import ContractHost.Proofs.Ledger.Writes
import ContractHost.Proofs.Store.Outcomes

/-!
# What store operations access

A recorder without faults does what the change set behind it does, and shows which cells were read
and written, and in which order (`watching`). Before its charge is taken an operation accesses nothing
(`accesses_opening`). Then a `get` reads the chain of its key, a `put` reads it and writes along it,
and a `delete` reads and clears one cell after the other.
-/

namespace ContractHost

namespace Recorder

/-! ## A recorder without faults -/

/-- A recorder without faults that has seen some accesses. -/
def watching (changes : ChangeSet) (seen : List Access) : Recorder ChangeSet :=
  ⟨changes, [], seen.map fun access => ⟨access, true⟩⟩

theorem map_access_watching (changes : ChangeSet) (seen : List Access) :
    (watching changes seen).accesses.map RecordedAccess.access = seen := by
  rw [watching, List.map_map]
  exact List.map_id seen

theorem record_watching (changes : ChangeSet) (seen : List Access) (access : Access) :
    (watching changes seen).record access true = watching changes (seen ++ [access]) := by
  rw [record, watching, watching, List.map_append]
  rfl

theorem eval_getStorage_watching (changes : ChangeSet) (seen : List Access) (cell : Cell) :
    Fallible.eval (Ledger.getStorage cell) (watching changes seen) =
      (.ok (changes.content cell), watching changes (seen ++ [.getStorage cell])) := by
  rw [← record_watching]
  exact eval_attempt_of_faultless rfl (.getStorage cell) _ _

theorem eval_setStorage_watching (changes : ChangeSet) (seen : List Access) (cell : Cell)
    (word : Word) :
    Fallible.eval (Ledger.setStorage cell word) (watching changes seen) =
      (.ok (), watching (changes.recordSlot cell word) (seen ++ [.setStorage cell word])) := by
  have recorded := record_watching changes seen (.setStorage cell word)
  have moved : watching (changes.recordSlot cell word) (seen ++ [.setStorage cell word]) =
      { watching changes (seen ++ [.setStorage cell word]) with
        inner := changes.recordSlot cell word } := rfl
  rw [moved, ← recorded]
  exact eval_attempt_of_faultless rfl (.setStorage cell word) _ _

end Recorder

namespace Store

open Recorder (watching)

/-- The accesses of an operation to a ledger, the first one first. -/
def Operation.accesses {σ : Type} [Ledger σ] (costs : StorageCosts) (operation : Operation)
    (store : Store σ) : List Access :=
  let after := (Fallible.eval (operation.run costs) ⟨Recorder.blank store.ledger, store.meter⟩).2
  after.ledger.accesses.map RecordedAccess.access

/-- The cells that an operation reads, the first one first. -/
def Operation.reads {σ : Type} [Ledger σ] (costs : StorageCosts) (operation : Operation)
    (store : Store σ) : List Cell :=
  (operation.accesses costs store).filterMap Access.read?

theorem filterMap_read?_map_getStorage (cells : List Cell) :
    (cells.map Access.getStorage).filterMap Access.read? = cells := by
  rw [List.filterMap_map]
  exact List.filterMap_some

/-! ## What the walks access -/

section Walks

variable (first : Cell) {changes : ChangeSet} {cell : Cell} {n room : Nat} (seen : List Access)
  (meter : Meter)

theorem eval_readLinks_watching_succ :
    Fallible.eval (readLinks first (room + 1) cell) ⟨watching changes seen, meter⟩ =
      if continues (changes.content cell) = true then
        Fallible.proceed (fun links => pure (⟨cell, changes.content cell⟩ :: links))
          (Fallible.eval (readLinks first room (nextCell cell))
            ⟨watching changes (seen ++ [.getStorage cell]), meter⟩)
      else (.ok [⟨cell, changes.content cell⟩],
        ⟨watching changes (seen ++ [.getStorage cell]), meter⟩) := by
  rw [readLinks, Fallible.eval_bind,
    eval_onLedger_of_ok (Recorder.eval_getStorage_watching changes seen cell), Fallible.proceed_ok]
  split
  · rw [Fallible.eval_bind]
  · rfl

theorem eval_readLinks_watching (ends : Ends changes.content cell n) (inside : n < room) :
    Fallible.eval (readLinks first room cell) ⟨watching changes seen, meter⟩ =
      (.ok (linksAlong changes (n + 1) cell),
        ⟨watching changes (seen ++ (orbit (n + 1) cell).map .getStorage), meter⟩) := by
  induction n generalizing cell room seen with
  | zero =>
    obtain ⟨room, rfl⟩ := Nat.exists_eq_add_one.2 inside
    have stop : continues (changes.content cell) = false := ends.ends
    rw [eval_readLinks_watching_succ, if_neg (Bool.eq_false_iff.1 stop)]
    rfl
  | succ n ih =>
    obtain ⟨room, rfl⟩ := Nat.exists_eq_add_one.2 (Nat.zero_lt_of_lt inside)
    rw [eval_readLinks_watching_succ, if_pos ends.head_goesOn,
      ih _ ends.tail (Nat.lt_of_succ_lt_succ inside), List.append_assoc]
    rfl

/-- Whether or not the chain ends, reading it reads some cells along it. -/
theorem exists_readLinks_watching (changes : ChangeSet) (cell : Cell) (room : Nat) :
    ∃ count reply,
    Fallible.eval (readLinks first room cell) ⟨watching changes seen, meter⟩ =
      (reply, ⟨watching changes (seen ++ (orbit count cell).map .getStorage), meter⟩) := by
  induction room generalizing cell seen with
  | zero =>
    refine ⟨0, .error (.endlessChain first.slot), ?_⟩
    rw [orbit, List.map_nil, List.append_nil]
    rfl
  | succ room ih =>
    rw [eval_readLinks_watching_succ]
    split
    · obtain ⟨count, reply, read⟩ := ih (seen ++ [.getStorage cell]) (nextCell cell)
      refine ⟨count + 1, reply.map (⟨cell, changes.content cell⟩ :: ·), ?_⟩
      rw [read, List.append_assoc]
      cases reply with
      | _ => rfl
    · exact ⟨1, _, rfl⟩

/-- The bound on a walk is told without an access. -/
theorem eval_reach_watching :
    Fallible.eval reach (⟨watching changes seen, meter⟩ : Store (Recorder ChangeSet)) =
      (.ok (changes.slots.size + 1), ⟨watching changes seen, meter⟩) := rfl

theorem exists_readChain_watching (changes : ChangeSet) (cell : Cell) : ∃ count reply,
    Fallible.eval (readChain cell) ⟨watching changes seen, meter⟩ =
      (reply, ⟨watching changes (seen ++ (orbit count cell).map .getStorage), meter⟩) := by
  obtain ⟨count, reply, read⟩ :=
    exists_readLinks_watching cell seen meter changes cell (changes.slots.size + 1)
  rw [readChain, Fallible.eval_bind, eval_reach_watching, Fallible.proceed_ok, Fallible.eval_bind,
    read]
  cases reply with
  | error cause => exact ⟨count, .error cause, rfl⟩
  | ok links =>
    rw [Fallible.proceed_ok]
    split
    · exact ⟨count, _, rfl⟩
    · exact ⟨count, _, rfl⟩

theorem eval_readChain_watching (ends : Ends changes.content cell n) :
    Fallible.eval (readChain cell) ⟨watching changes seen, meter⟩ =
      (.ok (chainLinks changes n cell),
        ⟨watching changes (seen ++ (orbit (n + 1) cell).map .getStorage), meter⟩) := by
  rw [readChain, Fallible.eval_bind, eval_reach_watching, Fallible.proceed_ok, Fallible.eval_bind,
    eval_readLinks_watching cell seen meter ends (Nat.lt_succ_of_le ends.le_size),
    Fallible.proceed_ok, chainLinks]
  cases n with
  | zero =>
    show (Except.ok (if (changes.content cell).isZero = true then [] else _), _) = _
    simp only [isZero_iff]
    rfl
  | succ n =>
    rw [if_neg (ne_zero_of_continues ends.head_goesOn)]
    rfl

/-- What clearing a cell accesses: the word is read before it is gone. -/
def clearing (cell : Cell) : List Access := [.getStorage cell, .setStorage cell .zero]

theorem eval_eraseLinks_watching_succ :
    Fallible.eval (eraseLinks first (room + 1) cell) ⟨watching changes seen, meter⟩ =
      if continues (changes.content cell) = true then
        Fallible.proceed (fun count => pure (count + 1))
          (Fallible.eval (eraseLinks first room (nextCell cell))
            ⟨watching (changes.recordSlot cell .zero) (seen ++ clearing cell), meter⟩)
      else (.ok 1, ⟨watching (changes.recordSlot cell .zero) (seen ++ clearing cell), meter⟩) := by
  have both : seen ++ clearing cell = (seen ++ [.getStorage cell]) ++ [.setStorage cell .zero] :=
    (List.append_assoc seen [_] [_]).symm
  rw [eraseLinks, Fallible.eval_bind,
    eval_onLedger_of_ok (Recorder.eval_getStorage_watching changes seen cell),
    Fallible.proceed_ok, Fallible.eval_bind,
    eval_onLedger_of_ok (Recorder.eval_setStorage_watching changes _ cell .zero),
    Fallible.proceed_ok, both]
  split
  · rw [Fallible.eval_bind]
  · rfl

theorem eval_eraseLinks_watching {count : Nat} {after : ChangeSet}
    (clears : Clears changes cell count after) (inside : count ≤ room) :
    Fallible.eval (eraseLinks first room cell) ⟨watching changes seen, meter⟩ =
      (.ok count, ⟨watching after (seen ++ (orbit count cell).flatMap clearing), meter⟩) := by
  induction clears generalizing room seen with
  | last ends =>
    obtain ⟨room, rfl⟩ := Nat.exists_eq_add_one.2 inside
    rw [eval_eraseLinks_watching_succ, if_neg (Bool.eq_false_iff.1 ends)]
    rfl
  | link goesOn rest ih =>
    obtain ⟨room, rfl⟩ := Nat.exists_eq_add_one.2 (Nat.zero_lt_of_lt inside)
    rw [eval_eraseLinks_watching_succ, if_pos goesOn, ih _ (Nat.le_of_succ_le_succ inside),
      List.append_assoc]
    rfl

/-- What writing words along a chain accesses. -/
def writing : Cell → List Word → List Access
  | _, [] => []
  | cell, word :: words => .setStorage cell word :: writing (nextCell cell) words

theorem filterMap_read?_writing (cell : Cell) (words : List Word) :
    (writing cell words).filterMap Access.read? = [] := by
  induction words generalizing cell with
  | nil => rfl
  | cons word words ih => exact ih (nextCell cell)

theorem eval_writeWords_watching (words : List Word) :
    Fallible.eval (writeWords cell words) ⟨watching changes seen, meter⟩ =
      (.ok (), ⟨watching (changes.recordWords cell words) (seen ++ writing cell words), meter⟩) := by
  induction words generalizing changes cell seen with
  | nil =>
    rw [writing, List.append_nil]
    rfl
  | cons word words ih =>
    rw [writeWords, Fallible.eval_bind,
      eval_onLedger_of_ok (Recorder.eval_setStorage_watching changes seen cell word),
      Fallible.proceed_ok, ih, List.append_assoc]
    rfl

end Walks

section Operations

variable {changes : ChangeSet} {key : Bytes} {n : Nat} (costs : StorageCosts) {meter : Meter}

theorem ledger_deliver {σ : Type} (store : Store σ) (links : List Link) :
    (Fallible.eval (deliver costs links) store).2.ledger = store.ledger := by
  rw [eval_deliver]
  split
  · rfl
  · split
    · rfl
    · rfl

/-- Neither is the key too short nor the charge too high. -/
theorem not_or_of_covered {amount : Gas} (long : 20 < key.length)
    (covered : amount ≤ meter.remaining) : ¬(key.length ≤ 20 ∨ meter.remaining < amount) :=
  not_or.2 ⟨Nat.not_le.2 long, UInt64.not_lt.2 covered⟩

/-- Before its charge is taken an operation accesses nothing. -/
theorem accesses_opening {α : Type} (key : Bytes) (amount : Gas)
    (f : Cell → StoreM (Recorder ChangeSet) α) :
    (Fallible.eval ((liftM (parseKey key) : StoreM (Recorder ChangeSet) Cell) >>= fun head =>
        charge amount >>= fun _ => f head)
      ⟨Recorder.blank changes, meter⟩).2.ledger.accesses.map RecordedAccess.access =
      if key.length ≤ 20 ∨ meter.remaining < amount then []
      else (Fallible.eval (f (headCell key))
        ⟨watching changes [], ⟨meter.remaining - amount⟩⟩).2.ledger.accesses.map
          RecordedAccess.access := by
  rw [eval_opening]
  by_cases short : key.length ≤ 20
  · rw [if_pos short, if_pos (.inl short)]
    rfl
  · rw [if_neg short]
    by_cases unpaid : meter.remaining < amount
    · rw [if_pos unpaid, if_pos (.inr unpaid)]
      rfl
    · rw [if_neg unpaid, if_neg (not_or.2 ⟨short, unpaid⟩)]
      rfl

/-- A `get` accesses nothing but to read it, whether or not the chain ends. -/
theorem exists_accesses_get (store : Store ChangeSet) (key : Bytes) :
    ∃ cells : List Cell, (Operation.get key).accesses costs store = cells.map .getStorage := by
  obtain ⟨changes, meter⟩ := store
  rw [Operation.accesses, Operation.run, get_eq, accesses_opening]
  split
  · exact ⟨[], rfl⟩
  · obtain ⟨count, reply, read⟩ :=
      exists_readChain_watching [] ⟨meter.remaining - costs.readFlat⟩ changes (headCell key)
    refine ⟨orbit count (headCell key), ?_⟩
    rw [Fallible.eval_bind, read]
    cases reply with
    | error cause => rw [Fallible.proceed_error, Recorder.map_access_watching, List.nil_append]
    | ok links =>
      rw [Fallible.proceed_ok, ledger_deliver, Recorder.map_access_watching, List.nil_append]

/-- A `get` reads every cell of the chain, whatever it makes of them. -/
theorem accesses_get (ends : Ends changes.content (headCell key) n) :
    (Operation.get key).accesses costs ⟨changes, meter⟩ =
      if key.length ≤ 20 ∨ meter.remaining < costs.readFlat then []
      else (orbit (n + 1) (headCell key)).map .getStorage := by
  rw [Operation.accesses, Operation.run, get_eq, accesses_opening, Fallible.eval_bind,
    eval_readChain_watching [] _ ends, Fallible.proceed_ok, ledger_deliver,
    Recorder.map_access_watching, List.nil_append]

/-- A `put` reads every cell of the chain, and then writes. -/
theorem accesses_put (value : Bytes) (ends : Ends changes.content (headCell key) n) :
    (Operation.put key value).accesses costs ⟨changes, meter⟩ =
      if key.length ≤ 20 ∨ meter.remaining < costs.write value.length then []
      else (orbit (n + 1) (headCell key)).map .getStorage ++ writing (headCell key)
        (putWords value (chainLinks changes n (headCell key)).length) := by
  rw [Operation.accesses, Operation.run, put, accesses_opening, Fallible.eval_bind,
    eval_readChain_watching [] _ ends, Fallible.proceed_ok, Fallible.eval_bind,
    eval_writeWords_watching, Fallible.proceed_ok, Fallible.eval_pure,
    Recorder.map_access_watching, List.nil_append]
  rfl

/-- A `delete` clears one cell after the other. -/
theorem accesses_delete {count : Nat} {after : ChangeSet}
    (clears : Clears changes (headCell key) count after) (inside : count ≤ changes.slots.size + 1) :
    (Operation.delete key).accesses costs ⟨changes, meter⟩ =
      if key.length ≤ 20 ∨ meter.remaining < costs.delete then []
      else (orbit count (headCell key)).flatMap clearing := by
  rw [Operation.accesses, Operation.run, delete, accesses_opening, Fallible.eval_bind,
    eval_reach_watching, Fallible.proceed_ok, Fallible.eval_bind,
    eval_eraseLinks_watching _ [] _ clears inside, Fallible.proceed_ok, Fallible.eval_pure, Recorder.map_access_watching, List.nil_append]

end Operations

end Store

end ContractHost
