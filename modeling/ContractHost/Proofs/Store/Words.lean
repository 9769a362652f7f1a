import Mathlib
import ContractHost.Proofs.Store.Exactness
import ContractHost.Proofs.Store.Opening
import ContractHost.Proofs.Word

/-!
# The store as a map to words

An operation on a single word makes one access, to the head cell of its key, or fails and makes none
(`Operation.single_cases`). Keys of different heads therefore stand for different words, and operations
of whatever types refine a map from keys to words: writing replaces the word of one key, and what is
read is the last word written, as its type shows it (`WordType.Shows`). What one type has written
another may read; read as the type that was written it is the value again.
-/

namespace ContractHost

namespace WordType

/-- A value is what a word shows of a type: its low 20 bytes, all of it, or the number that its bytes
write, the most significant first. -/
def Shows : (type : WordType) → Word → type.Value → Prop
  | address, content, value => value.toList = content.toList.drop 12
  | word, content, value => value = content
  | integer, content, value => value.toNat = content.toList.toNatBE

/-- A word shows one value of each type. -/
theorem shows_iff (type : WordType) (content : Word) (value : type.Value) :
    type.Shows content value ↔ value = type.ofWord content := by
  cases type with
  | address =>
    show value.toList = (Address.ofWord content).toList ↔ value = Address.ofWord content
    exact FixedBytes.toList_inj
  | word => exact Iff.rfl
  | integer =>
    have number := content.toNat_toUInt256
    exact ⟨fun shows => BitVec.eq_of_toNat_eq (shows.trans number.symm),
      fun same => (congrArg BitVec.toNat same).trans number⟩

theorem ofWord_toWord (type : WordType) (value : type.Value) :
    type.ofWord (type.toWord value) = value := by
  cases type with
  | address => exact Address.ofWord_toWord value
  | word => rfl
  | integer => exact Word.toUInt256_ofUInt256 value

end WordType

namespace Store

namespace Operation

/-- The operation writes or reads a single word. -/
def isSingle : Operation → Bool
  | set _ _ _ => true
  | load _ _ => true
  | clear _ => true
  | _ => false

/-- The only access that an operation on a single word makes. -/
def access (operation : Operation) : Access :=
  match operation.word? with
  | some word => .setStorage (headCell operation.key) word
  | none => .getStorage (headCell operation.key)

/-- The ledger that an operation on a single word leaves when it succeeds. -/
def written (operation : Operation) (changes : ChangeSet) : ChangeSet :=
  match operation.word? with
  | some word => changes.recordSlot (headCell operation.key) word
  | none => changes

/-- What is read is what a word shows. -/
def Finds (content : Word) : (operation : Operation) → Except RuntimeError operation.Reply → Prop
  | load type _, .ok value => type.Shows content value
  | _, _ => True

theorem finds_error (content : Word) (operation : Operation) (cause : RuntimeError) :
    operation.Finds content (.error cause) := by
  cases operation with
  | _ => trivial

theorem content_written_of_ne {operation : Operation} {cell : Cell}
    (other : cell ≠ headCell operation.key) (changes : ChangeSet) :
    (operation.written changes).content cell = changes.content cell := by
  unfold written
  split
  · exact ChangeSet.content_recordSlot_of_ne changes (Ne.symm other) _
  · rfl

variable {operation : Operation} (single : operation.isSingle = true) (costs : StorageCosts)
include single

theorem eval_body_of_single (store : Store ChangeSet) :
    ∃ reply, operation.Finds (store.ledger.content (headCell operation.key)) (.ok reply) ∧
      Fallible.eval (operation.body costs (headCell operation.key)) store =
        (.ok reply, { store with ledger := operation.written store.ledger }) := by
  cases operation with
  | set type key value => exact ⟨(), trivial, rfl⟩
  | load type key => exact ⟨_, (type.shows_iff _ _).2 rfl, rfl⟩
  | clear key => exact ⟨(), trivial, rfl⟩
  | _ => cases single

theorem accesses_of_single {store : Store ChangeSet} (long : 20 < operation.key.length)
    (covered : operation.firstCharge costs ≤ store.meter.remaining) :
    operation.accesses costs store = [operation.access] := by
  obtain ⟨changes, meter⟩ := store
  have opened := @eval_run_of_paid _ _ costs operation ⟨Recorder.blank changes, meter⟩ long covered
  rw [accesses, opened]
  cases operation with
  | set type key value => rfl
  | load type key => rfl
  | clear key => rfl
  | _ => cases single

/-- All that may come of an operation on a single word: it fails for a key that is too short or for
lack of gas, and else it succeeds. -/
theorem single_cases (store : Store ChangeSet) :
    (¬(20 < operation.key.length ∧ operation.firstCharge costs ≤ store.meter.remaining) ∧
      ∃ cause meter,
        Fallible.eval (operation.run costs) store = (.error cause, ⟨store.ledger, meter⟩) ∧
        operation.accesses costs store = []) ∨
    (20 < operation.key.length ∧ operation.firstCharge costs ≤ store.meter.remaining) ∧
      ∃ reply meter,
        operation.Finds (store.ledger.content (headCell operation.key)) (.ok reply) ∧
        Fallible.eval (operation.run costs) store =
          (.ok reply, ⟨operation.written store.ledger, meter⟩) ∧
        operation.accesses costs store = [operation.access] := by
  rcases Nat.lt_or_ge 20 operation.key.length with long | short
  · by_cases unpaid : store.meter.remaining < operation.firstCharge costs
    · refine .inl ⟨fun granted => UInt64.not_lt.2 granted.2 unpaid, ?_⟩
      exact ⟨_, _, eval_run_of_unpaid long unpaid, accesses_of_unpaid long unpaid⟩
    · have covered := UInt64.not_lt.1 unpaid
      obtain ⟨reply, finds, made⟩ :=
        eval_body_of_single single costs (paid store (operation.firstCharge costs))
      exact .inr ⟨⟨long, covered⟩, reply, _, finds, (eval_run_of_paid long covered).trans made,
        accesses_of_single single costs long covered⟩
  · refine .inl ⟨fun granted => Nat.not_lt.2 short granted.1, ?_⟩
    exact ⟨_, _, eval_run_of_short short, accesses_of_short short⟩

end Operation

/-! ## The words under keys -/

/-- The words under keys after an operation; one that failed, or that only reads, changes none. -/
def Operation.rewrite (operation : Operation) (result : Except RuntimeError operation.Reply)
    (words : Bytes → Word) : Bytes → Word :=
  match operation.word?, result with
  | some word, .ok _ => Function.update words operation.key word
  | _, _ => words

/-- The words under keys after operations, when these are the words before them. -/
def wordsFrom (words : Bytes → Word) (steps : List Performed) : Bytes → Word :=
  steps.foldl (fun words step => step.operation.rewrite step.result words) words

/-- The head cells of the keys hold these words. -/
def Mirrors (keys : Set Bytes) (words : Bytes → Word) (changes : ChangeSet) : Prop :=
  ∀ key ∈ keys, 20 < key.length → changes.content (headCell key) = words key

/-- No two of the keys have the same head. -/
def HeadsApart (keys : Set Bytes) : Prop :=
  ∀ key ∈ keys, ∀ other ∈ keys, 20 < key.length → 20 < other.length →
    headCell key = headCell other → key = other

section

variable {keys : Set Bytes} {words : Bytes → Word} {changes : ChangeSet} {operation : Operation}

theorem rewrite_error (cause : RuntimeError) : operation.rewrite (.error cause) words = words := by
  unfold Operation.rewrite
  split
  · cases ‹Except.error cause = .ok _›
  · rfl

theorem Mirrors.written (mirrors : Mirrors keys words changes) (apart : HeadsApart keys)
    (member : operation.key ∈ keys) (long : 20 < operation.key.length) (reply : operation.Reply) :
    Mirrors keys (operation.rewrite (.ok reply) words) (operation.written changes) := by
  unfold Operation.rewrite Operation.written
  cases operation.word? with
  | none => exact mirrors
  | some word =>
    intro key member' long'
    show (changes.recordSlot (headCell operation.key) word).content (headCell key) =
      Function.update words operation.key word key
    by_cases same : key = operation.key
    · rw [same, ChangeSet.content_recordSlot_self, Function.update_self]
    · have other : headCell operation.key ≠ headCell key := fun heads =>
        same (apart _ member _ member' long long' heads).symm
      rw [ChangeSet.content_recordSlot_of_ne changes other, Function.update_of_ne same]
      exact mirrors key member' long'

theorem Mirrors.step {store : Store ChangeSet} (mirrors : Mirrors keys words store.ledger)
    (apart : HeadsApart keys) (costs : StorageCosts) (single : operation.isSingle = true)
    (member : operation.key ∈ keys) :
    Mirrors keys (operation.rewrite (Fallible.eval (operation.run costs) store).1 words)
      (Fallible.eval (operation.run costs) store).2.ledger := by
  rcases operation.single_cases single costs store with
    ⟨-, cause, meter, failed, -⟩ | ⟨⟨long, -⟩, reply, meter, -, done, -⟩
  · rw [failed, rewrite_error]
    exact mirrors
  · rw [done]
    exact mirrors.written apart member long reply

/-- The words under the keys are what operations have left there, whichever of them failed. -/
theorem Mirrors.leave {operations : List Operation} {store : Store ChangeSet}
    (mirrors : Mirrors keys words store.ledger) (apart : HeadsApart keys) (costs : StorageCosts)
    (on : ∀ operation ∈ operations, operation.isSingle = true ∧ operation.key ∈ keys) :
    Mirrors keys (wordsFrom words (perform costs operations store))
      (Store.leave costs operations store).ledger := by
  induction operations generalizing store words with
  | nil => exact mirrors
  | cons operation operations ih =>
    obtain ⟨⟨single, member⟩, rest⟩ := List.forall_mem_cons.1 on
    exact ih (mirrors.step apart costs single member) rest

theorem mirrors_start (keys : Set Bytes) (changes : ChangeSet) :
    Mirrors keys (fun key => changes.content (headCell key)) changes :=
  fun _ _ _ => rfl

end

/-- What an operation does where these words stand under the keys. -/
structure Operation.Refines (costs : StorageCosts) (operation : Operation) (before : Store ChangeSet)
    (words : Bytes → Word) : Prop where
  finds : operation.Finds (words operation.key) (Fallible.eval (operation.run costs) before).1
  succeeds : (∃ reply, (Fallible.eval (operation.run costs) before).1 = .ok reply) ↔
    20 < operation.key.length ∧ operation.firstCharge costs ≤ before.meter.remaining
  failed : ∀ cause, (Fallible.eval (operation.run costs) before).1 = .error cause →
    (Fallible.eval (operation.run costs) before).2.ledger = before.ledger ∧
      operation.accesses costs before = []
  done : ∀ reply, (Fallible.eval (operation.run costs) before).1 = .ok reply →
    operation.accesses costs before = [operation.access]
  elsewhere : ∀ cell, cell ≠ headCell operation.key →
    (Fallible.eval (operation.run costs) before).2.ledger.content cell = before.ledger.content cell

theorem Mirrors.refines {keys : Set Bytes} {words : Bytes → Word} {before : Store ChangeSet}
    (mirrors : Mirrors keys words before.ledger) (costs : StorageCosts) {operation : Operation}
    (single : operation.isSingle = true) (member : operation.key ∈ keys) :
    operation.Refines costs before words := by
  rcases operation.single_cases single costs before with
    ⟨refused, cause, meter, failed, untouched⟩ | ⟨granted, reply, meter, finds, done, touched⟩
  · constructor
    · rw [failed]
      exact operation.finds_error _ cause
    · refine iff_of_false ?_ refused
      rintro ⟨reply, succeeded⟩
      rw [failed] at succeeded
      cases succeeded
    · intro _ _
      rw [failed]
      exact ⟨rfl, untouched⟩
    · intro reply succeeded
      rw [failed] at succeeded
      cases succeeded
    · intro cell _
      rw [failed]
  · constructor
    · rw [done, ← mirrors _ member granted.1]
      exact finds
    · refine iff_of_true ⟨reply, ?_⟩ granted
      rw [done]
    · intro cause fails
      rw [done] at fails
      cases fails
    · exact fun _ _ => touched
    · intro cell other
      rw [done]
      exact Operation.content_written_of_ne other before.ledger

/-- What is read behind a value of the same type is the value. -/
theorem load_after_set (costs : StorageCosts) (store : Store ChangeSet) {type : WordType} {key : Bytes}
    {value shown : type.Value}
    (set : (Fallible.eval ((Operation.set type key value).run costs) store).1 = .ok ())
    (loaded : (Fallible.eval ((Operation.load type key).run costs)
      (Fallible.eval ((Operation.set type key value).run costs) store).2).1 = .ok shown) :
    shown = value := by
  rcases (Operation.set type key value).single_cases rfl costs store with
    ⟨-, cause, meter, failed, -⟩ | ⟨-, reply, meter, -, done, -⟩
  · rw [failed] at set
    cases set
  · rw [done] at loaded
    dsimp only at loaded
    have stands : ((Operation.set type key value).written store.ledger).content (headCell key) =
        type.toWord value := ChangeSet.content_recordSlot_self store.ledger _ _
    rcases (Operation.load type key).single_cases rfl costs
        ⟨(Operation.set type key value).written store.ledger, meter⟩ with
      ⟨-, cause, meter, failed, -⟩ | ⟨-, reply, meter, finds, read, -⟩
    · rw [failed] at loaded
      cases loaded
    · rw [read] at loaded
      cases loaded
      have same := (type.shows_iff _ _).1 finds
      rw [Operation.key, stands, WordType.ofWord_toWord] at same
      exact same

/-- Operations on single words, whatever their types and whichever of them fail, refine a map from keys
to words: each reads and writes the word of its key, and accesses no other slot. It fails only for a
key that is too short or for lack of gas. -/
theorem words_refine_map {keys : Set Bytes} (apart : HeadsApart keys) (costs : StorageCosts)
    (store : Store ChangeSet) {earlier : List Operation} {operation : Operation}
    (on : ∀ made ∈ operation :: earlier, made.isSingle = true ∧ made.key ∈ keys) :
    let before := leave costs earlier store
    let words := wordsFrom (fun key => store.ledger.content (headCell key))
      (perform costs earlier store)
    Mirrors keys words before.ledger ∧ operation.Refines costs before words ∧
      ∀ (type : WordType) (key : Bytes) (value shown : type.Value),
        let outcome := Fallible.eval ((Operation.set type key value).run costs) before
        outcome.1 = .ok () →
          (Fallible.eval ((Operation.load type key).run costs) outcome.2).1 = .ok shown →
            shown = value := by
  intro before words
  obtain ⟨⟨single, member⟩, rest⟩ := List.forall_mem_cons.1 on
  have mirrors := (mirrors_start keys store.ledger).leave apart costs rest
  exact ⟨mirrors, mirrors.refines costs single member,
    fun _ _ _ _ set loaded => load_after_set costs before set loaded⟩

/-- An integer is set under a key and an address under another, and that is cleared again. -/
def setAndCleared : List Operation :=
  [.set .integer (joinKey .zero [[0x61]]) 0x2a, .set .address (joinKey .zero [[0x62]]) (.ofUInt64 7),
    .clear (joinKey .zero [[0x62]])]

/-- The integer reads as an address, and the word of the other key is zero. -/
theorem words_refine_map_cleared :
    let store : Store ChangeSet := ⟨.empty, ⟨100000⟩⟩
    let before := leave .standard setAndCleared store
    let words := wordsFrom (fun key => store.ledger.content (headCell key))
      (perform .standard setAndCleared store)
    let load := Operation.load .address (joinKey .zero [[0x61]])
    words (joinKey .zero [[0x61]]) = .ofUInt256 0x2a ∧ words (joinKey .zero [[0x62]]) = .zero ∧
      load.Refines .standard before words ∧
      (Fallible.eval (load.run .standard) before).1 = .ok (.ofUInt64 0x2a) := by
  intro store before words load
  have apart : ∀ key ∈ twoKeys, ∀ other ∈ twoKeys, 20 < key.length → 20 < other.length →
      headCell key = headCell other → key = other := by decide +kernel
  have on : ∀ made ∈ load :: setAndCleared, made.isSingle = true ∧ made.key ∈ twoKeys := by
    simp only [setAndCleared, List.forall_mem_cons, List.not_mem_nil, false_implies, implies_true,
      and_true]
    decide
  have separate : HeadsApart {key | key ∈ twoKeys} := apart
  obtain ⟨-, refines, -⟩ := words_refine_map separate .standard store on
  exact ⟨by decide +kernel, by decide +kernel, refines, by decide +kernel⟩

end Store

end ContractHost
