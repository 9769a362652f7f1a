import Mathlib
import ContractHost.Proofs.Store.Contents

/-!
# Byte strings and single words under one key

A key can hold a byte string, whose words stand along a chain, or a word in the head cell alone.
Nothing in the ledger tells which of the two it is. `put` and `delete` replace the chain that they
find (`Replaced`): a word written over the head of a longer value ends the chain there, and what
stood behind the head is no part of it any more.

The chain of the key holds all that its address holds (`Whole`) as long as no word that ends the
chain is written before a cell that holds something (`Uncut`), and an operation that fails writes
nothing. Then a `put` leaves just the words of its value, and a `delete` leaves nothing
(`replaced_after_operations`). Otherwise what was cut off stays (`put_leaves_what_was_cut_off`).
-/

namespace ContractHost.Store

/-! ## What operations write -/

namespace Operation

/-- The words that an operation puts in the place of the chain it finds. -/
def words? : Operation → Option (List Word)
  | put _ value => some (encode value)
  | delete _ => some []
  | _ => none

/-- The word that an operation puts in the head cell alone. -/
def word? : Operation → Option Word
  | set type _ value => some (type.toWord value)
  | clear _ => some .zero
  | _ => none

/-- How many cells an operation visits on a vacant key and makes part of the chain: a single word
that goes on makes the next cell part of it. -/
def span : Operation → Nat
  | put _ value => (encode value).length
  | set type _ value => if continues (type.toWord value) = true then 2 else 1
  | _ => 1

end Operation

/-- Puts words in the place of a chain that ends after so many cells. -/
def overwrite (changes : ChangeSet) (head : Cell) (n : Nat) (words : List Word) : ChangeSet :=
  changes.recordWords head (words ++ List.replicate (n + 1 - words.length) .zero)

section Effects

variable (store : Store ChangeSet) (costs : StorageCosts) {key : Bytes} {n : Nat}

/-- All that an operation can do to a ledger in which the chain of its key ends: nothing, and then
it replaces no chain or has failed, or the chain is replaced, or it succeeds in writing the head
cell. -/
theorem Operation.ledger_cases {operation : Operation} (on : operation.key = key)
    (long : 20 < key.length) (ends : Ends store.ledger.content (headCell key) n) :
    let outcome := Fallible.eval (operation.run costs) store
    (outcome.2.ledger = store.ledger ∧
        (operation.words? = none ∨ ∃ cause, outcome.1 = .error cause)) ∨
      (∃ words, operation.words? = some words ∧
        outcome.2.ledger = overwrite store.ledger (headCell key) n words) ∨
      ∃ word, operation.word? = some word ∧ (∃ reply, outcome.1 = .ok reply) ∧
        outcome.2.ledger = store.ledger.recordSlot (headCell key) word := by
  cases operation with
  | put key' value =>
    obtain rfl : key' = key := on
    have count : (chainLinks store.ledger n (headCell key')).length - (encode value).length =
        n + 1 - (encode value).length := by
      have nonempty := length_encode_pos value
      rw [chainLinks]
      split
      · rename_i zero
        -- A chain whose head is zero ends there.
        obtain _ | n := n
        · rw [List.length_nil]
          omega
        · exact absurd zero (ne_zero_of_continues ends.head_goesOn)
      · rw [length_linksAlong]
    rw [Operation.run, eval_put_of_ends store costs long value ends]
    split
    · exact .inl ⟨rfl, .inr ⟨_, rfl⟩⟩
    · refine .inr (.inl ⟨_, rfl, ?_⟩)
      rw [overwrite, ← count]
      rfl
  | delete key' =>
    obtain rfl : key' = key := on
    rw [Operation.run, eval_delete_of_ends store costs long ends]
    split
    · exact .inl ⟨rfl, .inr ⟨_, rfl⟩⟩
    · exact .inr (.inl ⟨_, rfl, rfl⟩)
  | get key' =>
    obtain rfl : key' = key := on
    exact .inl ⟨ledger_get store costs key', .inl rfl⟩
  | getBytes key' =>
    obtain rfl : key' = key := on
    refine .inl ⟨?_, .inl rfl⟩
    rw [Operation.run, eval_getBytes, Fallible.snd_proceed_pure]
    exact ledger_get store costs key'
  | contains key' =>
    obtain rfl : key' = key := on
    refine .inl ⟨?_, .inl rfl⟩
    rw [Operation.run, eval_contains, Fallible.snd_proceed_pure]
    exact ledger_get store costs key'
  | set type key' value =>
    obtain rfl : key' = key := on
    rw [Operation.run, setWord, eval_parse_bind store long, eval_charge_bind]
    split
    · exact .inl ⟨rfl, .inl rfl⟩
    · exact .inr (.inr ⟨_, rfl, ⟨_, rfl⟩, rfl⟩)
  | load type key' =>
    obtain rfl : key' = key := on
    refine .inl ⟨?_, .inl rfl⟩
    rw [Operation.run, Fallible.eval_bind, Fallible.snd_proceed_pure, getWord,
      eval_parse_bind store long, eval_charge_bind]
    split
    · rfl
    · rfl
  | clear key' =>
    obtain rfl : key' = key := on
    rw [Operation.run, Store.clear, eval_parse_bind store long, eval_charge_bind]
    split
    · exact .inl ⟨rfl, .inl rfl⟩
    · exact .inr (.inr ⟨_, rfl, ⟨_, rfl⟩, rfl⟩)

end Effects

/-! ## Replacing a chain -/

/-- Words have taken the place of a chain that ended after so many cells: what of it they do not
reach is cleared, and everything else is as it was. -/
structure Replaced (before after : Cell → Word) (head : Cell) (n : Nat) (words : List Word) :
    Prop where
  ends : Ends before head n
  along : (orbit words.length head).map after = words
  cleared : ∀ cell ∈ orbit (n + 1) head, cell ∉ orbit words.length head → after cell = .zero
  beyond : ∀ cell, cell ∉ orbit (n + 1) head → cell ∉ orbit words.length head →
    after cell = before cell

theorem replaced_overwrite {changes : ChangeSet} {head : Cell} {n : Nat} {words : List Word}
    (ends : Ends changes.content head n) (distinct : (orbit words.length head).Nodup) :
    Replaced changes.content (overwrite changes head n words).content head n words := by
  let all := words ++ List.replicate (n + 1 - words.length) FixedBytes.zero
  have length : all.length = max words.length (n + 1) := by
    simp only [all, List.length_append, List.length_replicate]
    omega
  have distinct' : (orbit all.length head).Nodup := by
    rw [length]
    rcases le_total words.length (n + 1) with le | le
    · rw [max_eq_right le]
      exact ends.nodup
    · rwa [max_eq_left le]
  have written (i : Nat) (inside : i < all.length) :
      (overwrite changes head n words).content (nextCell^[i] head) = words.getD i .zero :=
    (ChangeSet.content_recordWords distinct' inside).trans (getD_append_zeros _ _ _)
  refine ⟨ends, ?_, ?_, ?_⟩
  · refine List.ext_getElem (by rw [List.length_map, length_orbit]) fun i inside inside' => ?_
    rw [List.getElem_map, ← List.getD_eq_getElem _ FixedBytes.zero inside', ← written i (by omega)]
    simp [orbit_eq_map]
  · intro cell member outside
    obtain ⟨i, lt, rfl⟩ := mem_orbit.1 member
    have behind : words.length ≤ i :=
      Nat.le_of_not_lt fun early => outside (iterate_mem_orbit early head)
    rw [written i (by omega), List.getD_eq_default _ _ behind]
  · intro cell outside outside'
    refine ChangeSet.content_recordWords_of_notMem fun inside => ?_
    obtain ⟨i, lt, rfl⟩ := mem_orbit.1 inside
    have lt : i < max words.length (n + 1) := length ▸ lt
    rcases lt_max_iff.1 lt with early | early
    · exact outside' (iterate_mem_orbit early head)
    · exact outside (iterate_mem_orbit early head)

/-! ## The chain and the rest of the address -/

/-- The chain from a head holds all that the owner of the head holds. -/
def Whole (content : Cell → Word) (head : Cell) : Prop :=
  ∃ n, Ends content head n ∧
    ∀ cell, cell.owner = head.owner → cell ∉ orbit (n + 1) head → content cell = .zero

/-- Words stand along the orbit of a head, and the owner of the head holds nothing else. -/
structure HoldsOnly (content : Cell → Word) (head : Cell) (words : List Word) : Prop where
  along : (orbit words.length head).map content = words
  beyond : ∀ cell, cell.owner = head.owner → cell ∉ orbit words.length head → content cell = .zero

theorem Replaced.holdsOnly {before after : Cell → Word} {head : Cell} {n : Nat} {words : List Word}
    (replaced : Replaced before after head n words) (whole : Whole before head) :
    HoldsOnly after head words where
  along := replaced.along
  beyond cell owned outside := by
    obtain ⟨m, ends, nothing⟩ := whole
    have same : m = n := le_antisymm (ends.le replaced.ends) (replaced.ends.le ends)
    subst same
    by_cases inside : cell ∈ orbit (m + 1) head
    · exact replaced.cleared cell inside outside
    · rw [replaced.beyond cell inside outside, nothing cell owned inside]

/-- A chain of words that is all an address holds is whole, and so is an address without any. -/
theorem HoldsOnly.whole {content : Cell → Word} {head : Cell} {words : List Word}
    (holds : HoldsOnly content head words) (chain : words = [] ∨ Chain words) :
    Whole content head := by
  rcases chain with rfl | chain
  · have zero : content head = .zero := holds.beyond head rfl List.not_mem_nil
    exact ⟨0, .zero (zero ▸ continues_zero), fun cell owned _ =>
      holds.beyond cell owned List.not_mem_nil⟩
  · have some : 0 < words.length := by
      cases chain <;> simp
    refine ⟨words.length - 1, chain.ends holds.along, ?_⟩
    rw [Nat.sub_add_cancel some]
    exact holds.beyond

theorem Operation.chain_of_words? {operation : Operation} {words : List Word}
    (puts : operation.words? = some words) : words = [] ∨ Chain words := by
  cases operation with
  | put key value =>
    cases puts
    exact .inr (chain_encode value)
  | delete key =>
    cases puts
    exact .inl rfl
  | _ => cases puts

/-- A word in the head cell leaves the chain whole when it goes on, or nothing stands behind it. -/
theorem Whole.recordSlot {changes : ChangeSet} {head : Cell} (whole : Whole changes.content head)
    {word : Word} (goesOn : continues word = true → (orbit 2 head).Nodup)
    (stops : continues word = false → changes.content (nextCell head) = .zero) :
    Whole (changes.recordSlot head word).content head := by
  obtain ⟨n, ends, nothing⟩ := whole
  have here : (changes.recordSlot head word).content head = word :=
    changes.content_recordSlot_self head word
  have elsewhere {cell : Cell} (apart : cell ≠ head) :
      (changes.recordSlot head word).content cell = changes.content cell :=
    changes.content_recordSlot_of_ne apart.symm word
  have notHead {count : Nat} {cell : Cell} (outside : cell ∉ orbit (count + 1) head) :
      cell ≠ head := by
    rintro rfl
    exact outside List.mem_cons_self
  cases continuing : continues word with
  | true =>
    have apart : nextCell head ≠ head := by
      intro same
      refine head_notMem_orbit (goesOn continuing) ?_
      rw [same]
      exact List.mem_cons_self
    obtain _ | n := n
    · -- The chain was the head alone, and takes in the next cell, which is zero.
      have next : changes.content (nextCell head) = .zero := by
        refine nothing _ rfl ?_
        rw [orbit, orbit, List.mem_singleton]
        exact apart
      refine ⟨1, .succ (by rwa [here]) (.zero ?_), ?_⟩
      · rw [elsewhere apart, next]
        rfl
      · intro cell owned outside
        rw [elsewhere (notHead outside)]
        exact nothing cell owned fun inside => outside (orbit_subset (by omega) head inside)
    · have tail : Ends (changes.recordSlot head word).content (nextCell head) n := by
        refine ends.tail.congr fun cell member => elsewhere ?_
        rintro rfl
        exact head_notMem_orbit ends.nodup member
      refine ⟨n + 1, .succ (by rwa [here]) tail, ?_⟩
      intro cell owned outside
      rw [elsewhere (notHead outside)]
      exact nothing cell owned outside
  | false =>
    have next := stops continuing
    refine ⟨0, .zero (by rwa [here]), ?_⟩
    intro cell owned outside
    rw [elsewhere (notHead outside)]
    by_cases inside : cell ∈ orbit (n + 1) head
    · -- The chain went no further than to the next cell, which holds nothing.
      obtain ⟨i, lt, rfl⟩ := mem_orbit.1 inside
      obtain _ | _ | i := i
      · exact absurd List.mem_cons_self outside
      · exact next
      · have goesOn := ends.goesOn 1 (by omega)
        rw [show nextCell^[1] head = nextCell head from rfl, next] at goesOn
        cases goesOn
    · exact nothing cell owned inside

theorem Operation.nodup_words {operation : Operation} {words : List Word} {bound : Nat}
    {head : Cell} (puts : operation.words? = some words) (fits : operation.span ≤ bound)
    (distinct : (orbit bound head).Nodup) :
    words.length ≤ bound ∧ (orbit words.length head).Nodup := by
  have inside : words.length ≤ bound := by
    cases operation with
    | put key value =>
      cases puts
      exact fits
    | delete key =>
      cases puts
      exact Nat.zero_le _
    | _ => cases puts
  exact ⟨inside, nodup_orbit_of_le inside distinct⟩

theorem Operation.two_le_of_continues {operation : Operation} {word : Word} {bound : Nat}
    (sets : operation.word? = some word) (fits : operation.span ≤ bound)
    (goesOn : continues word = true) : 2 ≤ bound := by
  cases operation with
  | set type key value =>
    cases sets
    rwa [span, if_pos goesOn] at fits
  | clear key =>
    cases sets
    cases goesOn
  | _ => cases sets

/-- An operation writes a word that ends the chain to a head cell behind which something stands. One
that fails writes nothing. -/
def Operation.Cuts (costs : StorageCosts) (operation : Operation) (store : Store ChangeSet) : Prop :=
  ∃ word reply, operation.word? = some word ∧
    (Fallible.eval (operation.run costs) store).1 = .ok reply ∧ continues word = false ∧
    store.ledger.content (nextCell (headCell operation.key)) ≠ .zero

/-- An operation that does not cut the chain leaves it whole. -/
theorem Whole.step {store : Store ChangeSet} {key : Bytes}
    (whole : Whole store.ledger.content (headCell key)) (costs : StorageCosts)
    {operation : Operation} (on : operation.key = key) (long : 20 < key.length) {bound : Nat}
    (distinct : (orbit bound (headCell key)).Nodup) (fits : operation.span ≤ bound)
    (uncut : ¬ operation.Cuts costs store) :
    Whole (Fallible.eval (operation.run costs) store).2.ledger.content (headCell key) := by
  obtain ⟨n, ends, -⟩ := id whole
  rcases operation.ledger_cases store costs on long ends with
    ⟨same, -⟩ | ⟨words, puts, written⟩ | ⟨word, sets, ⟨reply, succeeds⟩, written⟩
  · rwa [same]
  · have replaced := replaced_overwrite ends (Operation.nodup_words puts fits distinct).2
    rw [written]
    exact (replaced.holdsOnly whole).whole (Operation.chain_of_words? puts)
  · rw [written]
    refine whole.recordSlot (fun goesOn => ?_) fun stops => ?_
    · exact nodup_orbit_of_le (Operation.two_le_of_continues sets fits goesOn) distinct
    · by_contra live
      rw [← on] at live
      exact uncut ⟨word, reply, sets, succeeds, stops, live⟩

/-! ## Where a chain ends at the latest -/

/-- The last cell of those that operations visit does not go on. -/
def StopsBy (bound : Nat) (content : Cell → Word) (head : Cell) : Prop :=
  continues (content (nextCell^[bound - 1] head)) = false

theorem StopsBy.ends {bound : Nat} {content : Cell → Word} {head : Cell}
    (stops : StopsBy bound content head) : ∃ n, Ends content head n := by
  rcases ends_or_goesOn content head (bound - 1 + 1) with ⟨n, -, ends⟩ | goesOn
  · exact ⟨n, ends⟩
  · have last := goesOn (bound - 1) (Nat.lt_succ_self _)
    rw [stops] at last
    cases last

/-- Cut or not, the chain ends within the cells that operations visit. -/
theorem StopsBy.step {store : Store ChangeSet} {key : Bytes} {bound : Nat}
    (stops : StopsBy bound store.ledger.content (headCell key)) (costs : StorageCosts)
    {operation : Operation} (on : operation.key = key) (long : 20 < key.length)
    (distinct : (orbit bound (headCell key)).Nodup) (pos : 0 < bound)
    (fits : operation.span ≤ bound) :
    StopsBy bound (Fallible.eval (operation.run costs) store).2.ledger.content (headCell key) := by
  obtain ⟨n, ends⟩ := stops.ends
  rcases operation.ledger_cases store costs on long ends with
    ⟨same, -⟩ | ⟨words, puts, written⟩ | ⟨word, sets, -, written⟩
  · rwa [same]
  · obtain ⟨inside, distinct'⟩ := Operation.nodup_words puts fits distinct
    have replaced := replaced_overwrite ends distinct'
    rw [written, StopsBy]
    by_cases last : nextCell^[bound - 1] (headCell key) ∈ orbit words.length (headCell key)
    · -- The words reach as far as that, so it holds the last of them.
      obtain ⟨i, lt, same⟩ := mem_orbit.1 last
      have index := iterate_inj distinct (by omega) (by omega) same
      rcases Operation.chain_of_words? puts with rfl | chain
      · cases last
      · rw [show bound - 1 = words.length - 1 by omega]
        exact (chain.ends replaced.along).ends
    · by_cases inside : nextCell^[bound - 1] (headCell key) ∈ orbit (n + 1) (headCell key)
      · rw [replaced.cleared _ inside last]
        rfl
      · rw [replaced.beyond _ inside last]
        exact stops
  · rw [written, StopsBy, ChangeSet.content_recordSlot]
    split
    · rename_i same
      cases goesOn : continues word with
      | false => rfl
      | true =>
        have two := Operation.two_le_of_continues sets fits goesOn
        have index := iterate_inj distinct pos (by omega : bound - 1 < bound) same
        omega
    · exact stops

/-! ## Off the orbit -/

/-- Where the chain of its key ends, an operation writes to no cell off the orbit of the key. -/
theorem Operation.content_off_orbit {store : Store ChangeSet} {key : Bytes} {n : Nat}
    (ends : Ends store.ledger.content (headCell key) n) (costs : StorageCosts)
    {operation : Operation} (on : operation.key = key) (long : 20 < key.length) {cell : Cell}
    (off : ∀ i, nextCell^[i] (headCell key) ≠ cell) :
    (Fallible.eval (operation.run costs) store).2.ledger.content cell =
      store.ledger.content cell := by
  have outside (count : Nat) : cell ∉ orbit count (headCell key) := by
    intro inside
    obtain ⟨i, -, same⟩ := mem_orbit.1 inside
    exact off i same
  rcases operation.ledger_cases store costs on long ends with
    ⟨same, -⟩ | ⟨words, -, written⟩ | ⟨word, -, -, written⟩
  · rw [same]
  · rw [written, overwrite]
    exact ChangeSet.content_recordWords_of_notMem (outside _)
  · rw [written]
    exact ChangeSet.content_recordSlot_of_ne _ (off 0) _

/-! ## Sequences of operations -/

/-- The store that operations leave, whatever comes of them. -/
def leave (costs : StorageCosts) (operations : List Operation) (store : Store ChangeSet) :
    Store ChangeSet :=
  operations.foldl (fun store operation => (Fallible.eval (operation.run costs) store).2) store

/-- No operation cuts the chain, on the store that the ones before it leave. -/
def Uncut (costs : StorageCosts) : List Operation → Store ChangeSet → Prop
  | [], _ => True
  | operation :: operations, store =>
    ¬ operation.Cuts costs store ∧
      Uncut costs operations (Fallible.eval (operation.run costs) store).2

section Sequences

variable {costs : StorageCosts} {key : Bytes} {store : Store ChangeSet}
  {operations : List Operation} {bound : Nat}

theorem Whole.leave (whole : Whole store.ledger.content (headCell key)) (long : 20 < key.length)
    (on : ∀ operation ∈ operations, operation.key = key)
    (distinct : (orbit bound (headCell key)).Nodup)
    (fits : ∀ operation ∈ operations, operation.span ≤ bound)
    (uncut : Uncut costs operations store) :
    Whole (Store.leave costs operations store).ledger.content (headCell key) := by
  induction operations generalizing store with
  | nil => exact whole
  | cons operation operations ih =>
    obtain ⟨here, later⟩ := List.forall_mem_cons.1 on
    obtain ⟨here', later'⟩ := List.forall_mem_cons.1 fits
    obtain ⟨now, rest⟩ := uncut
    exact ih (whole.step costs here long distinct here' now) later later' rest

theorem StopsBy.leave (stops : StopsBy bound store.ledger.content (headCell key))
    (long : 20 < key.length) (on : ∀ operation ∈ operations, operation.key = key)
    (distinct : (orbit bound (headCell key)).Nodup) (pos : 0 < bound)
    (fits : ∀ operation ∈ operations, operation.span ≤ bound) :
    StopsBy bound (Store.leave costs operations store).ledger.content (headCell key) := by
  induction operations generalizing store with
  | nil => exact stops
  | cons operation operations ih =>
    obtain ⟨here, later⟩ := List.forall_mem_cons.1 on
    obtain ⟨here', later'⟩ := List.forall_mem_cons.1 fits
    exact ih (stops.step costs here long distinct pos here') later later'

theorem StopsBy.content_leave (stops : StopsBy bound store.ledger.content (headCell key))
    (long : 20 < key.length) (on : ∀ operation ∈ operations, operation.key = key)
    (distinct : (orbit bound (headCell key)).Nodup) (pos : 0 < bound)
    (fits : ∀ operation ∈ operations, operation.span ≤ bound) {cell : Cell}
    (off : ∀ i, nextCell^[i] (headCell key) ≠ cell) :
    (Store.leave costs operations store).ledger.content cell = store.ledger.content cell := by
  induction operations generalizing store with
  | nil => rfl
  | cons operation operations ih =>
    obtain ⟨here, later⟩ := List.forall_mem_cons.1 on
    obtain ⟨here', later'⟩ := List.forall_mem_cons.1 fits
    obtain ⟨n, ends⟩ := stops.ends
    have kept := Operation.content_off_orbit ends costs here long off
    exact (ih (stops.step costs here long distinct pos here') later later').trans kept

/-- On an address without live slots any operations are made on one key, and last a `put` or a
`delete` that succeeds. Its words take the place of the chain that it finds, and off the orbit of
the key there is nothing. When no chain was cut, the address then holds those words and nothing
else. -/
theorem replaced_after_operations (long : 20 < key.length)
    (vacant : ∀ slot, store.ledger.content ⟨(headCell key).owner, slot⟩ = .zero)
    (distinct : (orbit bound (headCell key)).Nodup)
    (on : ∀ operation ∈ operations, operation.key = key)
    (fits : ∀ operation ∈ operations, operation.span ≤ bound)
    {last : Operation} (onLast : last.key = key) (fitsLast : last.span ≤ bound)
    {words : List Word} (puts : last.words? = some words) {reply : last.Reply}
    (succeeds : (Fallible.eval (last.run costs) (leave costs operations store)).1 = .ok reply) :
    let before := (leave costs operations store).ledger
    let after := (Fallible.eval (last.run costs) (leave costs operations store)).2.ledger
    (∃ n, Replaced before.content after.content (headCell key) n words) ∧
      (∀ cell, cell.owner = (headCell key).owner → after.content cell ≠ .zero →
        ∃ i, nextCell^[i] (headCell key) = cell) ∧
      (Uncut costs operations store → HoldsOnly after.content (headCell key) words) := by
  intro before after
  have nothing {cell : Cell} (owned : cell.owner = (headCell key).owner) :
      store.ledger.content cell = .zero := by
    have here := vacant cell.slot
    rwa [← owned] at here
  have pos : 0 < bound := by
    have some : 0 < last.span := by
      cases last with
      | put key value => exact length_encode_pos value
      | delete key => exact Nat.one_pos
      | _ => cases puts
    omega
  have begins : StopsBy bound store.ledger.content (headCell key) := by
    rw [StopsBy, nothing (owner_iterate _ _)]
    rfl
  have stops : StopsBy bound (leave costs operations store).ledger.content (headCell key) :=
    begins.leave long on distinct pos fits
  obtain ⟨n, ends⟩ := stops.ends
  have replaced : Replaced before.content after.content (headCell key) n words := by
    have written := replaced_overwrite ends (Operation.nodup_words puts fitsLast distinct).2
    rcases last.ledger_cases _ costs onLast long ends with
      ⟨-, none | ⟨cause, failed⟩⟩ | ⟨words', puts', same⟩ | ⟨word, sets, -⟩
    · rw [puts] at none
      cases none
    · rw [succeeds] at failed
      cases failed
    · rw [puts] at puts'
      cases puts'
      rwa [← same] at written
    · cases last <;> cases puts <;> cases sets
  refine ⟨⟨n, replaced⟩, ?_, ?_⟩
  · intro cell owned live
    by_contra off
    have off := not_exists.1 off
    have kept := Operation.content_off_orbit ends costs onLast long off
    rw [begins.content_leave long on distinct pos fits off, nothing owned] at kept
    exact live kept
  · intro uncut
    have whole : Whole store.ledger.content (headCell key) := by
      refine ⟨0, .zero ?_, fun cell owned _ => nothing owned⟩
      rw [nothing rfl]
      rfl
    exact replaced.holdsOnly (whole.leave long on distinct fits uncut)

end Sequences

/-- A key on which the examples below are made. -/
def sharedKey : Bytes := joinKey .zero [[0x61]]

/-- A word whose first byte says that the value goes on. -/
def goingOn : Word := linkWord (List.replicate 31 0x2a)

/-- A value of two words is put and one of one word over it, an integer in its place, and a word
that goes on in place of that. -/
def mixed : List Operation :=
  [.put sharedKey (List.replicate 40 0x2a), .put sharedKey [0x2a], .set .integer sharedKey 5,
    .set .word sharedKey goingOn]

/-- Writing costs by the byte, and deleting nothing. -/
def byteCosts : StorageCosts :=
  { delete := 0, readFlat := 0, readPerByte := 0, writeFlat := 0, writePerByte := 30 }

/-- A value of two words is put, and an integer in its place. -/
def putAndSet : List Operation :=
  [.put sharedKey (List.replicate 40 0x2a), .set .integer sharedKey 5]

/-- A `put` after all that leaves one word, and a `delete` none. Nothing is cut off by an integer that
cannot be paid for: a `delete` after it leaves nothing either. -/
theorem replaced_after_mixed :
    (Fallible.eval ((Operation.put sharedKey [0x2b]).run .standard)
        (leave .standard mixed ⟨.empty, .unlimited⟩)).1 = .ok ⟨.zero, 1, 1⟩ ∧
      HoldsOnly (Fallible.eval ((Operation.put sharedKey [0x2b]).run .standard)
        (leave .standard mixed ⟨.empty, .unlimited⟩)).2.ledger.content (headCell sharedKey)
        (encode [0x2b]) ∧
      (Fallible.eval ((Operation.delete sharedKey).run .standard)
        (leave .standard mixed ⟨.empty, .unlimited⟩)).1 = .ok ⟨.zero, 2⟩ ∧
      HoldsOnly (Fallible.eval ((Operation.delete sharedKey).run .standard)
        (leave .standard mixed ⟨.empty, .unlimited⟩)).2.ledger.content (headCell sharedKey) [] ∧
      (perform byteCosts putAndSet ⟨.empty, ⟨1200⟩⟩).map (·.result.toBool) = [true, false] ∧
      HoldsOnly (Fallible.eval ((Operation.delete sharedKey).run byteCosts)
        (leave byteCosts putAndSet ⟨.empty, ⟨1200⟩⟩)).2.ledger.content (headCell sharedKey) [] := by
  have long : 20 < sharedKey.length := by decide
  have vacant (slot : Word) : ChangeSet.empty.content ⟨(headCell sharedKey).owner, slot⟩ = .zero :=
    ChangeSet.content_empty _
  have distinct : (orbit 2 (headCell sharedKey)).Nodup := by decide +kernel
  have on : ∀ operation ∈ mixed, operation.key = sharedKey := by simp [mixed, Operation.key]
  have on' : ∀ operation ∈ putAndSet, operation.key = sharedKey := by
    simp [putAndSet, Operation.key]
  have fits : ∀ operation ∈ mixed, operation.span ≤ 2 := by
    simp only [mixed, List.forall_mem_cons, List.not_mem_nil, false_implies, implies_true, and_true]
    decide
  have fits' : ∀ operation ∈ putAndSet, operation.span ≤ 2 := by
    simp only [putAndSet, List.forall_mem_cons, List.not_mem_nil, false_implies, implies_true,
      and_true]
    decide
  have uncut : Uncut .standard mixed ⟨.empty, .unlimited⟩ := by
    refine ⟨?_, ?_, ?_, ?_, trivial⟩
    · rintro ⟨word, reply, sets, -⟩
      cases sets
    · rintro ⟨word, reply, sets, -⟩
      cases sets
    · rintro ⟨word, reply, -, -, -, live⟩
      exact live (by decide +kernel)
    · rintro ⟨word, reply, sets, -, stops, -⟩
      cases sets
      exact absurd stops (by decide)
  have results : (perform byteCosts putAndSet ⟨.empty, ⟨1200⟩⟩).map (·.result.toBool) =
      [true, false] := by
    decide +kernel
  have uncut' : Uncut byteCosts putAndSet ⟨.empty, ⟨1200⟩⟩ := by
    refine ⟨?_, ?_, trivial⟩
    · rintro ⟨word, reply, sets, -⟩
      cases sets
    · rintro ⟨word, reply, -, succeeds, -⟩
      simp only [putAndSet, perform, List.map_cons, List.map_nil, succeeds, Except.toBool,
        List.cons.injEq, reduceCtorEq, and_false, false_and] at results
  have putReply : (Fallible.eval ((Operation.put sharedKey [0x2b]).run .standard)
      (leave .standard mixed ⟨.empty, .unlimited⟩)).1 = .ok ⟨.zero, 1, 1⟩ := by
    decide +kernel
  have deleteReply : (Fallible.eval ((Operation.delete sharedKey).run .standard)
      (leave .standard mixed ⟨.empty, .unlimited⟩)).1 = .ok ⟨.zero, 2⟩ := by
    decide +kernel
  have deleteReply' : (Fallible.eval ((Operation.delete sharedKey).run byteCosts)
      (leave byteCosts putAndSet ⟨.empty, ⟨1200⟩⟩)).1 = .ok ⟨.zero, 2⟩ := by
    decide +kernel
  have putOn : (Operation.put sharedKey [0x2b]).key = sharedKey := rfl
  have deleteOn : (Operation.delete sharedKey).key = sharedKey := rfl
  have putFits : (Operation.put sharedKey [0x2b]).span ≤ 2 := by decide
  have deleteFits : (Operation.delete sharedKey).span ≤ 2 := by decide
  have putPuts : (Operation.put sharedKey [0x2b]).words? = some (encode [0x2b]) := rfl
  have deletePuts : (Operation.delete sharedKey).words? = some [] := rfl
  obtain ⟨-, -, putLeaves⟩ :=
    replaced_after_operations long vacant distinct on fits putOn putFits putPuts putReply
  obtain ⟨-, -, deleteLeaves⟩ :=
    replaced_after_operations long vacant distinct on fits deleteOn deleteFits deletePuts
      deleteReply
  obtain ⟨-, -, deleteLeaves'⟩ :=
    replaced_after_operations long vacant distinct on' fits' deleteOn deleteFits deletePuts
      deleteReply'
  exact ⟨putReply, putLeaves uncut, deleteReply, deleteLeaves uncut, results, deleteLeaves' uncut'⟩

/-- A value of two words is put, an integer in its place, and a value of one word. -/
def cutAndPut : List Operation :=
  [.put sharedKey (List.replicate 40 0x2a), .set .integer sharedKey 5, .put sharedKey [0x2b]]

/-- A value of two words is put, its head cell cleared, and the chain deleted. -/
def cutAndDelete : List Operation :=
  [.put sharedKey (List.replicate 40 0x2a), .clear sharedKey, .delete sharedKey]

/-- Everything succeeds, and yet the second word of the first value is left, which stands in a cell
of its own: behind the one word that was put last, or though the chain has been deleted. -/
theorem put_leaves_what_was_cut_off :
    (orbit 2 (headCell sharedKey)).Nodup ∧
      (perform .standard cutAndPut ⟨.empty, .unlimited⟩).all (·.result.toBool) = true ∧
      (leave .standard cutAndPut ⟨.empty, .unlimited⟩).ledger.content
        (nextCell (headCell sharedKey)) ≠ .zero ∧
      (encode [0x2b]).length = 1 ∧
      (perform .standard cutAndDelete ⟨.empty, .unlimited⟩).all (·.result.toBool) = true ∧
      (leave .standard cutAndDelete ⟨.empty, .unlimited⟩).ledger.content
        (nextCell (headCell sharedKey)) ≠ .zero :=
  ⟨by decide +kernel, by decide +kernel, by decide +kernel, by decide, by decide +kernel,
    by decide +kernel⟩

end ContractHost.Store
