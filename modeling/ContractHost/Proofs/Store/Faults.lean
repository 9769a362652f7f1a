import Mathlib
import ContractHost.Proofs.Ledger.Faults
import ContractHost.Proofs.Store.Opening
import ContractHost.Proofs.Store.Overwriting

/-!
# Operations on ledgers that fail

What `put` and `delete` leave behind where an access to the ledger fails. A step of the store makes
accesses that are all carried out (`Makes`), or is cut at the first that is not (`IsCut`). `Fares` tells
both of a step at once, with a condition on what a cut leaves, and is put together along `do`
(`Fares.bind`), so that each loop is an induction on its steps. A `put` is cut while it reads the old
chain, when nothing is written yet, or while it writes along it (`PutCut`). A `delete` has zeroed the
cells before the one at which it is cut (`EraseCut`).
-/

namespace ContractHost.Store

open Ledger (CarriesOut FailsAt Flaky)

section

variable {σ α β : Type} [Ledger σ]

/-- A step makes accesses that are all carried out, and comes to a result. -/
structure Makes (step : StoreM σ α) (store : Store σ) (accesses : List Access)
    (result : Except RuntimeError α) (after : σ) : Prop where
  carried : CarriesOut store.ledger accesses after
  outcome : Fallible.eval step store = (result, { store with ledger := after })

/-- A step makes accesses up to one that fails, and fails with it. -/
structure IsCut (step : StoreM σ α) (store : Store σ) (done : List Access) (failed : Access)
    (cause : StorageError) (after : σ) : Prop where
  fails : FailsAt store.ledger done failed cause after
  outcome : Fallible.eval step store = (.error (.storage cause), { store with ledger := after })

variable {step : StoreM σ α} {f : α → StoreM σ β} {store : Store σ} {accesses done : List Access}
  {failed : Access} {cause : StorageError} {a : α} {next after : σ}

theorem Makes.pure (result : Except RuntimeError α) :
    Makes (liftM result : StoreM σ α) store [] result store.ledger :=
  ⟨.nil _, rfl⟩

theorem Makes.bind {later : List Access} {result : Except RuntimeError β}
    (first : Makes step store accesses (.ok a) next)
    (rest : Makes (f a) { store with ledger := next } later result after) :
    Makes (step >>= f) store (accesses ++ later) result after where
  carried := first.carried.append rest.carried
  outcome := by
    rw [Fallible.eval_bind, first.outcome, Fallible.proceed_ok]
    exact rest.outcome

/-- A step that fails of itself is the last one. -/
theorem Makes.bind_error {e : RuntimeError} (first : Makes step store accesses (.error e) after) :
    Makes (step >>= f) store accesses (.error e) after where
  carried := first.carried
  outcome := by
    rw [Fallible.eval_bind, first.outcome]
    rfl

theorem Makes.bind_cut (first : Makes step store accesses (.ok a) next)
    (rest : IsCut (f a) { store with ledger := next } done failed cause after) :
    IsCut (step >>= f) store (accesses ++ done) failed cause after where
  fails := .append first.carried rest.fails
  outcome := by
    rw [Fallible.eval_bind, first.outcome, Fallible.proceed_ok]
    exact rest.outcome

theorem IsCut.bind (first : IsCut step store done failed cause after) :
    IsCut (step >>= f) store done failed cause after where
  fails := first.fails
  outcome := by
    rw [Fallible.eval_bind, first.outcome]
    rfl

/-! ## Crash conditions -/

/-- How a step fares on a ledger that holds a change set: it comes to its end with `post`, it fails of
itself, or it is cut with `cut`. Both are told of the accesses that were made and of what the ledger
holds then. -/
inductive Fares (view : σ → ChangeSet) (step : StoreM σ α) (store : Store σ)
    (post : List Access → α → ChangeSet → Prop) (cut : List Access → Access → ChangeSet → Prop) :
    Prop where
  | ends {accesses : List Access} {a : α} {after : σ} (makes : Makes step store accesses (.ok a) after)
      (holds : post accesses a (view after))
  | refused {accesses : List Access} {e : RuntimeError} {after : σ}
      (makes : Makes step store accesses (.error e) after)
  | struck {done : List Access} {failed : Access} {cause : StorageError} {after : σ}
      (isCut : IsCut step store done failed cause after) (left : cut done failed (view after))

namespace Fares

variable {view : σ → ChangeSet} {mid : List Access → α → ChangeSet → Prop}
  {post : List Access → β → ChangeSet → Prop} {cut cut' : List Access → Access → ChangeSet → Prop}

theorem pure {b : β} (holds : post [] b (view store.ledger)) :
    Fares view (pure b) store post cut :=
  .ends (.pure (.ok b)) holds

theorem throw (e : RuntimeError) : Fares view (MonadExcept.throw e) store post cut :=
  .refused (.pure (.error e))

theorem bind (first : Fares view step store mid cut)
    (later : ∀ accesses a after, mid accesses a (view after) →
      Fares view (f a) { store with ledger := after } (fun more => post (accesses ++ more))
        (fun done => cut (accesses ++ done))) :
    Fares view (step >>= f) store post cut := by
  cases first with
  | ends makes holds =>
    cases later _ _ _ holds with
    | ends makes' holds' => exact .ends (makes.bind makes') holds'
    | refused makes' => exact .refused (makes.bind makes')
    | struck isCut left => exact .struck (makes.bind_cut isCut) left
  | refused makes => exact .refused makes.bind_error
  | struck isCut left => exact .struck isCut.bind left

theorem mono {mid' : List Access → α → ChangeSet → Prop} (fares : Fares view step store mid cut)
    (ends : ∀ accesses a held, mid accesses a held → mid' accesses a held)
    (struck : ∀ done failed held, cut done failed held → cut' done failed held) :
    Fares view step store mid' cut' := by
  cases fares with
  | ends makes holds => exact .ends makes (ends _ _ _ holds)
  | refused makes => exact .refused makes
  | struck isCut left => exact .struck isCut (struck _ _ _ left)

theorem mono_cut (fares : Fares view step store mid cut)
    (struck : ∀ done failed held, cut done failed held → cut' done failed held) :
    Fares view step store mid cut' :=
  fares.mono (fun _ _ _ holds => holds) struck

end Fares

end

/-! ## Walks -/

/-- A chain that is read to its end. -/
def Walked (changes : ChangeSet) (head : Cell) (accesses : List Access) (links : List Link)
    (held : ChangeSet) : Prop :=
  ∃ n, Ends changes.content head n ∧ accesses = (orbit (n + 1) head).map .getStorage ∧
    links = linksAlong changes (n + 1) head ∧ held = changes

/-- A chain is being read, and nothing is written yet. -/
inductive ReadCut (changes : ChangeSet) (head : Cell) : List Access → Access → ChangeSet → Prop where
  | intro {count : Nat}
      (goesOn : ∀ i < count, continues (changes.content (nextCell^[i] head)) = true) :
      ReadCut changes head ((orbit count head).map .getStorage) (.getStorage (nextCell^[count] head))
        changes

/-- Words are being written along an orbit, and the first of them stand there. -/
inductive WriteCut (changes : ChangeSet) (head : Cell) (words : List Word) :
    List Access → Access → ChangeSet → Prop where
  | intro {count : Nat} (inside : count < words.length) :
      WriteCut changes head words (writing head (words.take count))
        (.setStorage (nextCell^[count] head) words[count])
        (changes.recordWords head (words.take count))

/-- The cells of a chain are being cleared one after the other, and the first of them are zero. -/
inductive EraseCut (changes : ChangeSet) (head : Cell) : List Access → Access → ChangeSet → Prop where
  | read {count : Nat}
      (goesOn : ∀ i < count, continues (changes.content (nextCell^[i] head)) = true) :
      EraseCut changes head ((orbit count head).flatMap clearing)
        (.getStorage (nextCell^[count] head))
        (changes.recordWords head (List.replicate count .zero))
  | clear {count : Nat}
      (goesOn : ∀ i < count, continues (changes.content (nextCell^[i] head)) = true) :
      EraseCut changes head
        ((orbit count head).flatMap clearing ++ [.getStorage (nextCell^[count] head)])
        (.setStorage (nextCell^[count] head) .zero)
        (changes.recordWords head (List.replicate count .zero))

section

variable {changes held : ChangeSet} {cell : Cell} {word : Word} {words : List Word}
  {accesses done : List Access} {failed : Access} {links : List Link}

theorem Walked.last (stops : continues (changes.content cell) = false) :
    Walked changes cell [.getStorage cell] [⟨cell, changes.content cell⟩] changes :=
  ⟨0, .zero stops, rfl, rfl, rfl⟩

theorem Walked.link (goesOn : continues (changes.content cell) = true)
    (rest : Walked changes (nextCell cell) accesses links held) :
    Walked changes cell (.getStorage cell :: accesses) (⟨cell, changes.content cell⟩ :: links)
      held := by
  obtain ⟨n, ends, rfl, rfl, rfl⟩ := rest
  exact ⟨n + 1, .succ goesOn ends, rfl, rfl, rfl⟩

theorem ReadCut.head (changes : ChangeSet) (cell : Cell) :
    ReadCut changes cell [] (.getStorage cell) changes :=
  @ReadCut.intro changes cell 0 fun i lt => absurd lt (Nat.not_lt_zero i)

theorem forall_goesOn_succ {content : Cell → Word} {count : Nat}
    (goesOn : continues (content cell) = true)
    (later : ∀ i < count, continues (content (nextCell^[i] (nextCell cell))) = true) :
    ∀ i < count + 1, continues (content (nextCell^[i] cell)) = true := by
  intro i lt
  cases i with
  | zero => exact goesOn
  | succ i => exact later i (Nat.lt_of_succ_lt_succ lt)

theorem ReadCut.link (goesOn : continues (changes.content cell) = true)
    (rest : ReadCut changes (nextCell cell) done failed held) :
    ReadCut changes cell (.getStorage cell :: done) failed held := by
  cases rest with
  | @intro count later =>
    exact @ReadCut.intro changes cell (count + 1) (forall_goesOn_succ goesOn later)

theorem WriteCut.head (changes : ChangeSet) (cell : Cell) (word : Word) (words : List Word) :
    WriteCut changes cell (word :: words) [] (.setStorage cell word) changes :=
  @WriteCut.intro changes cell (word :: words) 0 (Nat.succ_pos words.length)

theorem WriteCut.link
    (rest : WriteCut (changes.recordSlot cell word) (nextCell cell) words done failed held) :
    WriteCut changes cell (word :: words) (.setStorage cell word :: done) failed held := by
  cases rest with
  | @intro count inside =>
    exact @WriteCut.intro changes cell (word :: words) (count + 1) (Nat.succ_lt_succ inside)

theorem EraseCut.head_read (changes : ChangeSet) (cell : Cell) :
    EraseCut changes cell [] (.getStorage cell) changes :=
  @EraseCut.read changes cell 0 fun i lt => absurd lt (Nat.not_lt_zero i)

theorem EraseCut.head_clear (changes : ChangeSet) (cell : Cell) :
    EraseCut changes cell [.getStorage cell] (.setStorage cell .zero) changes :=
  @EraseCut.clear changes cell 0 fun i lt => absurd lt (Nat.not_lt_zero i)

/-- Clearing a cell leaves those behind it as they were, where it is not one of them. -/
theorem forall_goesOn_of_recordSlot {count : Nat} (goesOn : continues (changes.content cell) = true)
    (apart : cell ∉ orbit count (nextCell cell))
    (later : ∀ i < count,
      continues ((changes.recordSlot cell word).content (nextCell^[i] (nextCell cell))) = true) :
    ∀ i < count + 1, continues (changes.content (nextCell^[i] cell)) = true := by
  apply forall_goesOn_succ goesOn
  intro i lt
  have other : cell ≠ nextCell^[i] (nextCell cell) :=
    (ne_of_mem_of_not_mem (iterate_mem_orbit lt (nextCell cell)) apart).symm
  rw [← ChangeSet.content_recordSlot_of_ne changes other word]
  exact later i lt

/-- A cell that is cleared has been read. -/
theorem orbit_subset_reads (count : Nat) (head : Cell) (more : List Access) :
    orbit count head ⊆ ((orbit count head).flatMap clearing ++ more).filterMap Access.read? := by
  intro cell member
  refine List.mem_filterMap.2 ⟨.getStorage cell, List.mem_append_left more ?_, rfl⟩
  exact List.mem_flatMap.2 ⟨cell, member, List.mem_cons_self⟩

theorem EraseCut.link (goesOn : continues (changes.content cell) = true)
    (fresh : cell ∉ (done ++ [failed]).filterMap Access.read?)
    (rest : EraseCut (changes.recordSlot cell .zero) (nextCell cell) done failed held) :
    EraseCut changes cell (clearing cell ++ done) failed held := by
  cases rest with
  | @read count later =>
    have apart : cell ∉ orbit count (nextCell cell) := fun member =>
      fresh (orbit_subset_reads count _ _ member)
    exact @EraseCut.read changes cell (count + 1) (forall_goesOn_of_recordSlot goesOn apart later)
  | @clear count later =>
    rw [List.append_assoc] at fresh
    have apart : cell ∉ orbit count (nextCell cell) := fun member =>
      fresh (orbit_subset_reads count _ _ member)
    exact @EraseCut.clear changes cell (count + 1) (forall_goesOn_of_recordSlot goesOn apart later)

end

section

variable {σ : Type} [Ledger σ] {view : σ → ChangeSet} (flaky : Flaky view) (store : Store σ)

/-- How far a walk may go is told without an access. -/
theorem fares_reach {cut : List Access → Access → ChangeSet → Prop} :
    Fares view reach store (fun accesses _ held => accesses = [] ∧ held = view store.ledger) cut := by
  have told : Makes (reach : StoreM σ Nat) store [] (.ok (Ledger.slotBound store.ledger + 1))
      store.ledger := ⟨.nil _, rfl⟩
  exact .ends told ⟨rfl, rfl⟩

include flaky

theorem fares_getStorage (cell : Cell) :
    Fares view (onLedger (Ledger.getStorage cell)) store
      (fun accesses word held => accesses = [.getStorage cell] ∧
        word = (view store.ledger).content cell ∧ held = view store.ledger)
      (fun done failed held => done = [] ∧ failed = .getStorage cell ∧ held = view store.ledger) := by
  obtain ⟨after, same, read | ⟨cause, failed⟩⟩ := flaky.getStorage cell store.ledger
  · have made : Fallible.eval (Access.getStorage cell).make store.ledger = (.ok (), after) := by
      rw [Access.eval_make_getStorage, read]
      rfl
    exact .ends ⟨.cons made (.nil after), eval_onLedger_of_ok read⟩ ⟨rfl, rfl, same⟩
  · have made : Fallible.eval (Access.getStorage cell).make store.ledger = (.error cause, after) := by
      rw [Access.eval_make_getStorage, failed]
      rfl
    exact .struck ⟨.head made, eval_onLedger_of_error failed⟩ ⟨rfl, rfl, same⟩

theorem fares_setStorage (cell : Cell) (word : Word) :
    Fares view (onLedger (Ledger.setStorage cell word)) store
      (fun accesses _ held => accesses = [.setStorage cell word] ∧
        held = (view store.ledger).recordSlot cell word)
      (fun done failed held => done = [] ∧ failed = .setStorage cell word ∧
        held = view store.ledger) := by
  have make : (Access.setStorage cell word).make = (Ledger.setStorage cell word : LedgerM σ Unit) := rfl
  obtain ⟨after, ⟨wrote, recorded⟩ | ⟨cause, failed, same⟩⟩ :=
    flaky.setStorage cell word store.ledger
  · exact .ends ⟨.cons (make ▸ wrote) (.nil after), eval_onLedger_of_ok wrote⟩ ⟨rfl, recorded⟩
  · exact .struck ⟨.head (make ▸ failed), eval_onLedger_of_error failed⟩ ⟨rfl, rfl, same⟩

theorem fares_readLinks (first : Cell) (room : Nat) (cell : Cell) :
    Fares view (readLinks first room cell) store (Walked (view store.ledger) cell)
      (ReadCut (view store.ledger) cell) := by
  induction room generalizing cell store with
  | zero => exact .throw _
  | succ room ih =>
    refine .bind ((fares_getStorage flaky store cell).mono_cut ?_) ?_
    · rintro _ _ _ ⟨rfl, rfl, rfl⟩
      exact .head _ cell
    rintro _ _ next ⟨rfl, rfl, same⟩
    split
    · rename_i goesOn
      have rest := ih { store with ledger := next } (nextCell cell)
      rw [same] at rest
      refine .bind (rest.mono_cut fun done failed held left => .link goesOn left) ?_
      intro accesses links after walked
      have whole := walked.link goesOn
      rw [← List.append_nil accesses] at whole
      exact .pure whole
    · rename_i stops
      apply Fares.pure
      rw [same]
      exact .last (Bool.eq_false_iff.2 stops)

theorem fares_readChain (head : Cell) :
    Fares view (readChain head) store
      (fun accesses links held => ∃ n, Ends (view store.ledger).content head n ∧
        accesses = (orbit (n + 1) head).map .getStorage ∧
        links = chainLinks (view store.ledger) n head ∧ held = view store.ledger)
      (ReadCut (view store.ledger) head) := by
  refine .bind (fares_reach store) ?_
  rintro _ room next ⟨rfl, same⟩
  have walk := fares_readLinks flaky { store with ledger := next } head room head
  rw [same] at walk
  refine .bind walk ?_
  rintro _ _ after ⟨n, ends, rfl, rfl, unchanged⟩
  cases n with
  | zero =>
    refine .pure ⟨0, ends, rfl, ?_, unchanged⟩
    have here : chainLinks (view store.ledger) 0 head =
        if ((view store.ledger).content head).isZero = true then []
        else linksAlong (view store.ledger) 1 head := by
      simp only [isZero_iff]
      rfl
    exact here.symm
  | succ n =>
    refine .pure ⟨n + 1, ends, List.append_nil _, ?_, unchanged⟩
    rw [chainLinks, if_neg (ne_zero_of_continues ends.head_goesOn)]
    rfl

theorem fares_writeWords (cell : Cell) (words : List Word) :
    Fares view (writeWords cell words) store
      (fun accesses _ held => accesses = writing cell words ∧
        held = (view store.ledger).recordWords cell words)
      (WriteCut (view store.ledger) cell words) := by
  induction words generalizing cell store with
  | nil => exact .pure ⟨rfl, rfl⟩
  | cons word words ih =>
    refine .bind ((fares_setStorage flaky store cell word).mono_cut ?_) ?_
    · rintro _ _ _ ⟨rfl, rfl, rfl⟩
      exact .head _ cell word words
    rintro _ _ next ⟨rfl, recorded⟩
    have rest := ih { store with ledger := next } (nextCell cell)
    rw [recorded] at rest
    refine rest.mono ?_ fun done failed held left => left.link
    rintro _ _ _ ⟨rfl, rfl⟩
    exact ⟨rfl, rfl⟩

/-- The reads that were made tell whether a cell came twice, the one at which it failed among them. -/
theorem fares_eraseLinks (first : Cell) (room : Nat) (cell : Cell) :
    Fares view (eraseLinks first room cell) store (fun _ _ _ => True)
      (fun done failed held => ((done ++ [failed]).filterMap Access.read?).Nodup →
        EraseCut (view store.ledger) cell done failed held) := by
  induction room generalizing cell store with
  | zero => exact .throw _
  | succ room ih =>
    refine .bind ((fares_getStorage flaky store cell).mono_cut ?_) ?_
    · rintro _ _ _ ⟨rfl, rfl, rfl⟩ -
      exact .head_read _ cell
    rintro _ _ read ⟨rfl, rfl, same⟩
    refine .bind ((fares_setStorage flaky _ cell .zero).mono_cut ?_) ?_
    · rintro _ _ _ ⟨rfl, rfl, rfl⟩ -
      rw [same]
      exact .head_clear _ cell
    rintro _ _ next ⟨rfl, recorded⟩
    rw [same] at recorded
    split
    · rename_i goesOn
      have rest := ih { store with ledger := next } (nextCell cell)
      rw [recorded] at rest
      refine .bind (rest.mono_cut ?_) fun _ _ _ _ => .pure trivial
      intro done failed held left distinct
      obtain ⟨fresh, distinct'⟩ := List.nodup_cons.1 distinct
      exact (left distinct').link goesOn fresh
    · exact .pure trivial

end

/-! ## Operations -/

/-- A `put` is cut while it reads the old chain, or while it writes the words of the value and, behind
them, the zeros that clear what is left of a longer chain. -/
inductive PutCut (changes : ChangeSet) (head : Cell) (value : Bytes) :
    List Access → Access → ChangeSet → Prop where
  | reading {done : List Access} {failed : Access} {held : ChangeSet}
      (cut : ReadCut changes head done failed held) : PutCut changes head value done failed held
  | writing {n : Nat} {done : List Access} {failed : Access} {held : ChangeSet}
      (ends : Ends changes.content head n)
      (cut : WriteCut changes head (putWords value (n + 1)) done failed held) :
      PutCut changes head value ((orbit (n + 1) head).map .getStorage ++ done) failed held

/-- The words of a value stand over the head, whether or not there was a chain. -/
theorem putWords_chainLinks (changes : ChangeSet) {head : Cell} {n : Nat}
    (ends : Ends changes.content head n) (value : Bytes) :
    putWords value (chainLinks changes n head).length = putWords value (n + 1) := by
  have nonempty := length_encode_pos value
  rw [putWords, putWords, chainLinks]
  split
  · rename_i zero
    have alone : n = 0 := by
      cases n with
      | zero => rfl
      | succ n => exact absurd zero (ne_zero_of_continues ends.head_goesOn)
    rw [alone, List.length_nil, Nat.zero_sub, Nat.sub_eq_zero_of_le nonempty]
  · rw [length_linksAlong]

section

variable {σ : Type} [Ledger σ] {view : σ → ChangeSet} (flaky : Flaky view) (costs : StorageCosts)
  (store : Store σ)
include flaky

theorem fares_put (key value : Bytes) (head : Cell) :
    Fares view ((Operation.put key value).body costs head) store (fun _ _ _ => True)
      (PutCut (view store.ledger) head value) := by
  refine .bind ((fares_readChain flaky store head).mono_cut fun _ _ _ cut => .reading cut) ?_
  rintro _ _ next ⟨n, ends, rfl, rfl, same⟩
  have written := fares_writeWords flaky { store with ledger := next } head
    (putWords value (chainLinks (view store.ledger) n head).length)
  rw [putWords_chainLinks _ ends, same] at written
  have cut := written.mono_cut fun _ _ _ cut => PutCut.writing ends cut
  rw [← putWords_chainLinks _ ends] at cut
  exact cut.bind fun _ _ _ _ => .pure trivial

theorem fares_delete (key : Bytes) (head : Cell) :
    Fares view ((Operation.delete key).body costs head) store (fun _ _ _ => True)
      (fun done failed held => ((done ++ [failed]).filterMap Access.read?).Nodup →
        EraseCut (view store.ledger) head done failed held) := by
  refine .bind (fares_reach store) ?_
  rintro _ room next ⟨rfl, same⟩
  have erased := fares_eraseLinks flaky { store with ledger := next } head room head
  rw [same] at erased
  exact erased.bind fun _ _ _ _ => .pure trivial

end

namespace Operation

variable {σ : Type} [Ledger σ] {costs : StorageCosts} {operation : Operation} {store : Store σ}

/-- The ledger fails at an access that an operation makes. -/
def Struck (costs : StorageCosts) (operation : Operation) (store : Store σ) : Prop :=
  ¬∃ after, CarriesOut store.ledger (operation.accesses costs store) after

theorem struck_of_error (cause : StorageError)
    (failed : (Fallible.eval (Access.makeAll (operation.accesses costs store)) store.ledger).1 =
      .error cause) : operation.Struck costs store := by
  rintro ⟨after, carried⟩
  rw [carried] at failed
  cases failed

/-- An operation has been charged for, has made its accesses up to one that failed, and ends with the
cause of that. -/
structure CutAt (costs : StorageCosts) (operation : Operation) (store : Store σ)
    (done : List Access) (failed : Access) (cause : StorageError) (after : σ) : Prop where
  /-- The access that failed is the last one made. -/
  accesses : operation.accesses costs store = done ++ [failed]
  fails : FailsAt store.ledger done failed cause after
  covered : operation.firstCharge costs ≤ store.meter.remaining
  outcome : Fallible.eval (operation.run costs) store =
    (.error (.storage cause), ⟨after, ⟨store.meter.remaining - operation.firstCharge costs⟩⟩)

/-- An operation that accesses anything has a key and has been charged for. -/
theorem opened_of_struck (struck : operation.Struck costs store) :
    20 < operation.key.length ∧ operation.firstCharge costs ≤ store.meter.remaining := by
  by_contra stopped
  have untouched : operation.accesses costs store = [] := by
    rcases Nat.lt_or_ge 20 operation.key.length with long | short
    · exact accesses_of_unpaid long (UInt64.not_le.1 fun covered => stopped ⟨long, covered⟩)
    · exact accesses_of_short short
  refine struck ⟨store.ledger, ?_⟩
  rw [untouched]
  exact .nil store.ledger

/-- How an operation fares before a recorder tells how it is cut. -/
theorem exists_cutAt (struck : operation.Struck costs store) {view : σ → ChangeSet}
    {post : List Access → operation.Reply → ChangeSet → Prop}
    {cut : List Access → Access → ChangeSet → Prop}
    (fares : Fares (fun recorder => view recorder.inner)
      (operation.body costs (headCell operation.key))
      (paid ⟨Recorder.blank store.ledger, store.meter⟩ (operation.firstCharge costs)) post cut) :
    ∃ done failed cause after, operation.CutAt costs store done failed cause after ∧
      cut done failed (view after) := by
  obtain ⟨long, covered⟩ := opened_of_struck struck
  obtain ⟨ledger, meter⟩ := store
  have recorded := @eval_run_of_paid _ _ costs operation ⟨Recorder.blank ledger, meter⟩ long covered
  have inStep : InStepUnder (headCell operation.key).owner (Recorder.Shadows (σ := σ)) :=
    inStepUnder_of_inStep Recorder.inStep_shadows _
  have alike := reachAlikeUnder_of_slotBound inStep fun _ _ shadows =>
    congrArg (fun inner : σ => Ledger.slotBound inner) shadows.inner
  have agree := lockstep_operation_under costs rfl inStep alike ⟨Recorder.blank ledger, meter⟩
    ⟨ledger, meter⟩ ⟨Recorder.shadows_blank ledger, rfl⟩
  rw [recorded] at agree
  have seen : operation.accesses costs ⟨ledger, meter⟩ =
      (Fallible.eval (operation.body costs (headCell operation.key))
        (paid ⟨Recorder.blank ledger, meter⟩ (operation.firstCharge costs))).2.ledger.accesses.map
          RecordedAccess.access := by
    rw [accesses, recorded]
  have notMade {made : List Access} {result : Except RuntimeError operation.Reply}
      {after : Recorder σ} :
      ¬Makes (operation.body costs (headCell operation.key))
        (paid ⟨Recorder.blank ledger, meter⟩ (operation.firstCharge costs)) made result after := by
    intro makes
    obtain ⟨-, carried, shown⟩ := Recorder.shown_of_carriesOut rfl makes.carried
    rw [makes.outcome] at seen
    have all : operation.accesses costs ⟨ledger, meter⟩ = made := seen.trans shown
    exact struck ⟨after.inner, all.symm ▸ carried⟩
  rcases fares with ⟨makes, -⟩ | makes | ⟨isCut, left⟩
  · exact absurd makes notMade
  · exact absurd makes notMade
  · obtain ⟨fails, shown⟩ := Recorder.shown_of_failsAt rfl isCut.fails
    rw [isCut.outcome] at seen agree
    refine ⟨_, _, _, _, ⟨seen.trans shown, fails, covered, Prod.ext agree.result.symm ?_⟩, left⟩
    obtain ⟨⟨-, inner⟩, charged⟩ := agree.state
    exact (congrArg₂ Store.mk inner charged).symm

end Operation

/-- A `put` or a `delete` that its ledger fails ends there: it makes no further access, keeps its charge,
and reports the cause. A `put` has then written nothing, or the first of its words; a `delete` that
comes to no cell twice has zeroed the first cells of the chain. -/
theorem fault_leaves_prefix {σ : Type} [Ledger σ] {view : σ → ChangeSet} (flaky : Flaky view)
    (costs : StorageCosts) (key : Bytes) (store : Store σ) :
    (∀ value, (Operation.put key value).Struck costs store →
      ∃ done failed cause after, (Operation.put key value).CutAt costs store done failed cause after ∧
        PutCut (view store.ledger) (headCell key) value done failed (view after)) ∧
    ((Operation.delete key).Struck costs store → ((Operation.delete key).reads costs store).Nodup →
      ∃ done failed cause after, (Operation.delete key).CutAt costs store done failed cause after ∧
        EraseCut (view store.ledger) (headCell key) done failed (view after)) := by
  have before := Recorder.flaky_recorder flaky
  constructor
  · intro value struck
    exact Operation.exists_cutAt struck (fares_put before costs _ key value (headCell key))
  · intro struck distinct
    obtain ⟨done, failed, cause, after, cutAt, left⟩ :=
      Operation.exists_cutAt struck (fares_delete before costs _ key (headCell key))
    rw [Operation.reads, cutAt.accesses] at distinct
    exact ⟨done, failed, cause, after, cutAt, left distinct⟩

/-- A ledger that holds two words and fails at its second write. -/
def jammed : Recorder ChangeSet := ⟨ruined, [⟨.setStorage, 2, some .notFound⟩], []⟩

/-- Of two words that are put over those only the first is written, and of those only the first is
cleared. -/
theorem fault_leaves_prefix_jammed :
    let key := joinKey .zero [[0x61]]
    let value := List.replicate 40 0x2a
    let store : Store (Recorder ChangeSet) := ⟨jammed, ⟨5000⟩⟩
    (∃ done failed cause after,
      (Operation.put key value).CutAt .standard store done failed cause after ∧
        PutCut ruined (headCell key) value done failed after.inner) ∧
    ∃ done failed cause after,
      (Operation.delete key).CutAt .standard store done failed cause after ∧
        EraseCut ruined (headCell key) done failed after.inner := by
  intro key value store
  obtain ⟨puts, deletes⟩ := fault_leaves_prefix (Recorder.flaky_recorder Ledger.flaky_id) .standard
    key store
  have put : (Operation.put key value).Struck .standard store :=
    Operation.struck_of_error .notFound (by decide +kernel)
  have delete : (Operation.delete key).Struck .standard store :=
    Operation.struck_of_error .notFound (by decide +kernel)
  exact ⟨puts value put, deletes delete (by decide +kernel)⟩

end ContractHost.Store
