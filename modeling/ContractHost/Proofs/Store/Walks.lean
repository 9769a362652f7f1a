import Mathlib
import ContractHost.Proofs.Store.Orbit

/-!
# Walks along a chain

What the loops of the store do to a change set. Where a chain ends after `n` cells, `readLinks`
returns `n + 1` links and `eraseLinks` clears as many cells; where it never ends, reading reports
that. `writeWords` writes along an orbit, and leaves every other cell alone. How many cells a loop
may follow makes no difference, on any storage that never fails (`Ledger.Plain`), once it is more
than can hold something (`eval_readLinks_of_bound`, `eval_eraseLinks_of_bound`).
-/

namespace ContractHost

namespace ChangeSet

/-- Records words along an orbit. -/
def recordWords : ChangeSet → Cell → List Word → ChangeSet
  | changes, _, [] => changes
  | changes, cell, word :: words =>
    recordWords (changes.recordSlot cell word) (Store.nextCell cell) words

@[simp] theorem recordWords_nil (changes : ChangeSet) (head : Cell) :
    changes.recordWords head [] = changes := rfl

theorem recordWords_cons (changes : ChangeSet) (head : Cell) (word : Word) (words : List Word) :
    changes.recordWords head (word :: words) =
      (changes.recordSlot head word).recordWords (Store.nextCell head) words := rfl

theorem content_recordWords_of_notMem {changes : ChangeSet} {head cell : Cell} {words : List Word}
    (outside : cell ∉ Store.orbit words.length head) :
    (changes.recordWords head words).content cell = changes.content cell := by
  induction words generalizing changes head with
  | nil => rfl
  | cons word words ih =>
    have apart := List.ne_and_not_mem_of_not_mem_cons outside
    rw [recordWords_cons, ih apart.2, content_recordSlot_of_ne changes (Ne.symm apart.1)]

/-- Along an orbit without repetition every word stays where it was written. -/
theorem content_recordWords {changes : ChangeSet} {head : Cell} {words : List Word}
    (distinct : (Store.orbit words.length head).Nodup) {i : Nat} (inside : i < words.length) :
    (changes.recordWords head words).content (Store.nextCell^[i] head) = words.getD i .zero := by
  induction words generalizing changes head i with
  | nil => exact absurd inside (Nat.not_lt_zero i)
  | cons word words ih =>
    rw [recordWords_cons]
    cases i with
    | zero =>
      have fresh := Store.head_notMem_orbit distinct
      show ((changes.recordSlot head word).recordWords (Store.nextCell head) words).content head = _
      rw [content_recordWords_of_notMem fresh, content_recordSlot_self, List.getD_cons_zero]
    | succ i =>
      rw [Function.iterate_succ_apply, List.getD_cons_succ]
      exact ih (List.nodup_cons.1 distinct).2 (Nat.lt_of_succ_lt_succ inside)

end ChangeSet

/-- Storage that never fails, and of which `content` tells what each cell holds. -/
structure Ledger.Plain {σ : Type} [Ledger σ] (content : σ → Cell → Word) : Prop where
  getStorage : ∀ cell ledger,
    Fallible.eval (Ledger.getStorage cell) ledger = (.ok (content ledger cell), ledger)
  setStorage : ∀ cell word ledger, ∃ after,
    Fallible.eval (Ledger.setStorage cell word) ledger = (.ok (), after) ∧
      content after = Function.update (content ledger) cell word

theorem ChangeSet.plain : Ledger.Plain ChangeSet.content where
  getStorage cell changes := changes.eval_getStorage cell
  setStorage cell word changes :=
    ⟨_, changes.eval_setStorage cell word, changes.content_recordSlot_eq cell word⟩

namespace Store

theorem eval_charge {σ : Type} (amount : Gas) (store : Store σ) :
    Fallible.eval (charge amount) store =
      if store.meter.remaining < amount then
        (.error (.insufficientGas amount store.meter.remaining), { store with meter := ⟨0⟩ })
      else (.ok (), { store with meter := ⟨store.meter.remaining - amount⟩ }) := by
  have unfolded : Fallible.eval (charge amount) store =
      (((Meter.charge amount).run.run store.meter).1,
        { store with meter := ((Meter.charge amount).run.run store.meter).2 }) := rfl
  rw [unfolded, Meter.run_charge]
  split <;> rfl

theorem eval_onLedger {σ α : Type} (step : LedgerM σ α) (store : Store σ) :
    Fallible.eval (onLedger step) store =
      ((Fallible.eval step store.ledger).1.mapError .storage,
        { store with ledger := (Fallible.eval step store.ledger).2 }) := rfl

theorem eval_onLedger_of_ok {σ α : Type} {step : LedgerM σ α} {store : Store σ} {a : α} {after : σ}
    (done : Fallible.eval step store.ledger = (.ok a, after)) :
    Fallible.eval (onLedger step) store = (.ok a, { store with ledger := after }) := by
  rw [eval_onLedger, done]
  rfl

theorem eval_onLedger_of_error {σ α : Type} {step : LedgerM σ α} {store : Store σ}
    {cause : StorageError} {after : σ}
    (failed : Fallible.eval step store.ledger = (.error cause, after)) :
    Fallible.eval (onLedger step) store = (.error (.storage cause), { store with ledger := after }) := by
  rw [eval_onLedger, failed]
  rfl

/-! ## On plain storage -/

section Plain

variable {σ : Type} [Ledger σ] {content : σ → Cell → Word} (plain : Ledger.Plain content)
  (store : Store σ)
include plain

theorem eval_getStorage (cell : Cell) :
    Fallible.eval (onLedger (Ledger.getStorage cell)) store =
      (.ok (content store.ledger cell), store) :=
  eval_onLedger_of_ok (plain.getStorage cell store.ledger)

theorem eval_readLinks_succ (first : Cell) (room : Nat) (cell : Cell) :
    Fallible.eval (readLinks first (room + 1) cell) store =
      if continues (content store.ledger cell) = true then
        Fallible.proceed (fun links => pure (⟨cell, content store.ledger cell⟩ :: links))
          (Fallible.eval (readLinks first room (nextCell cell)) store)
      else (.ok [⟨cell, content store.ledger cell⟩], store) := by
  rw [readLinks, Fallible.eval_bind, eval_getStorage plain, Fallible.proceed_ok]
  split
  · rw [Fallible.eval_bind]
  · rfl

theorem eval_readLinks_of_goesOn (first : Cell) {room : Nat} {cell : Cell}
    (goesOn : ∀ i < room, continues (content store.ledger (nextCell^[i] cell)) = true) :
    Fallible.eval (readLinks first room cell) store =
      (.error (.endlessChain first.slot), store) := by
  induction room generalizing cell with
  | zero => rfl
  | succ room ih =>
    have later : ∀ i < room,
        continues (content store.ledger (nextCell^[i] (nextCell cell))) = true := by
      intro i lt
      rw [← Function.iterate_succ_apply]
      exact goesOn (i + 1) (by omega)
    have here : continues (content store.ledger cell) = true := goesOn 0 (by omega)
    rw [eval_readLinks_succ plain, if_pos here, ih later]
    rfl

/-- Where a chain ends, reading may go any number of cells farther. -/
theorem eval_readLinks_congr_of_ends (first : Cell) {cell : Cell} {n : Nat}
    (ends : Ends (content store.ledger) cell n) {room room' : Nat} (inside : n < room)
    (inside' : n < room') :
    Fallible.eval (readLinks first room cell) store =
      Fallible.eval (readLinks first room' cell) store := by
  induction n generalizing cell room room' with
  | zero =>
    obtain ⟨room, rfl⟩ := Nat.exists_eq_add_one.2 inside
    obtain ⟨room', rfl⟩ := Nat.exists_eq_add_one.2 inside'
    have stop : ¬ continues (content store.ledger cell) = true :=
      Bool.eq_false_iff.1 ends.ends
    rw [eval_readLinks_succ plain, eval_readLinks_succ plain, if_neg stop, if_neg stop]
  | succ n ih =>
    obtain ⟨room, rfl⟩ := Nat.exists_eq_add_one.2 (Nat.zero_lt_of_lt inside)
    obtain ⟨room', rfl⟩ := Nat.exists_eq_add_one.2 (Nat.zero_lt_of_lt inside')
    rw [eval_readLinks_succ plain, eval_readLinks_succ plain,
      ih ends.tail (Nat.lt_of_succ_lt_succ inside) (Nat.lt_of_succ_lt_succ inside')]

/-- Reading may go any number of cells farther than can hold something under the address. -/
theorem eval_readLinks_of_bound {bound : Nat} (first : Cell) {cell : Cell}
    (live : LiveBound (under cell.owner (content store.ledger)) bound) {room room' : Nat}
    (inside : bound < room) (inside' : bound < room') :
    Fallible.eval (readLinks first room cell) store =
      Fallible.eval (readLinks first room' cell) store := by
  rcases ends_or_goesOn (content store.ledger) cell (max room room') with ⟨n, -, ends⟩ | goesOn
  · have short := ends.le_bound live
    exact eval_readLinks_congr_of_ends plain store first ends (by omega) (by omega)
  · rw [eval_readLinks_of_goesOn plain store first fun i lt => goesOn i (by omega),
      eval_readLinks_of_goesOn plain store first fun i lt => goesOn i (by omega)]

theorem eval_eraseLinks_succ (first : Cell) (room : Nat) (cell : Cell) {after : σ}
    (cleared : Fallible.eval (Ledger.setStorage cell .zero) store.ledger = (.ok (), after)) :
    Fallible.eval (eraseLinks first (room + 1) cell) store =
      if continues (content store.ledger cell) = true then
        Fallible.proceed (fun count => pure (count + 1))
          (Fallible.eval (eraseLinks first room (nextCell cell)) { store with ledger := after })
      else (.ok 1, { store with ledger := after }) := by
  rw [eraseLinks, Fallible.eval_bind, eval_getStorage plain, Fallible.proceed_ok,
    Fallible.eval_bind, eval_onLedger_of_ok cleared, Fallible.proceed_ok]
  split
  · rw [Fallible.eval_bind]
  · rfl

/-- Clearing may go any number of cells farther than can hold something under the address: a cell
that the chain returns to has been cleared, and is the last. -/
theorem eval_eraseLinks_of_bound {bound : Nat} (first : Cell) {cell : Cell}
    (live : LiveBound (under cell.owner (content store.ledger)) bound) {room room' : Nat}
    (inside : bound < room) (inside' : bound < room') :
    Fallible.eval (eraseLinks first room cell) store =
      Fallible.eval (eraseLinks first room' cell) store := by
  obtain ⟨after, cleared, updated⟩ := plain.setStorage cell .zero store.ledger
  induction bound generalizing store cell room room' after with
  | zero =>
    obtain ⟨room, rfl⟩ := Nat.exists_eq_add_one.2 inside
    obtain ⟨room', rfl⟩ := Nat.exists_eq_add_one.2 inside'
    rw [eval_eraseLinks_succ plain store first room cell cleared,
      eval_eraseLinks_succ plain store first room' cell cleared]
    split
    · rename_i goesOn
      have held := ne_zero_of_continues goesOn
      rw [← under_of_owner rfl (content store.ledger)] at held
      exact absurd (live.pos held) (Nat.lt_irrefl 0)
    · rfl
  | succ bound ih =>
    obtain ⟨room, rfl⟩ := Nat.exists_eq_add_one.2 (Nat.zero_lt_of_lt inside)
    obtain ⟨room', rfl⟩ := Nat.exists_eq_add_one.2 (Nat.zero_lt_of_lt inside')
    rw [eval_eraseLinks_succ plain store first room cell cleared,
      eval_eraseLinks_succ plain store first room' cell cleared]
    split
    · rename_i goesOn
      have held := ne_zero_of_continues goesOn
      rw [← under_of_owner rfl (content store.ledger)] at held
      have fewer : LiveBound (under (nextCell cell).owner (content after)) bound := by
        rw [owner_nextCell, updated, under_update rfl]
        exact live.clear held
      obtain ⟨later, cleared', updated'⟩ := plain.setStorage (nextCell cell) .zero after
      rw [ih { store with ledger := after } fewer (Nat.lt_of_succ_lt_succ inside)
        (Nat.lt_of_succ_lt_succ inside') later cleared' updated']
    · rfl

end Plain

variable (store : Store ChangeSet)

/-! ## Single steps -/

theorem eval_setStorage (cell : Cell) (word : Word) :
    Fallible.eval (onLedger (Ledger.setStorage cell word)) store =
      (.ok (), { store with ledger := store.ledger.recordSlot cell word }) := rfl

theorem eval_reach :
    Fallible.eval reach store = (.ok (store.ledger.slots.size + 1), store) := rfl

/-! ## Reading -/

/-- The cells of an orbit with what they hold. -/
def linksAlong (changes : ChangeSet) (count : Nat) (head : Cell) : List Link :=
  (orbit count head).map fun cell => ⟨cell, changes.content cell⟩

@[simp] theorem length_linksAlong (changes : ChangeSet) (count : Nat) (head : Cell) :
    (linksAlong changes count head).length = count := by
  rw [linksAlong, List.length_map, length_orbit]

theorem linksAlong_succ (changes : ChangeSet) (count : Nat) (head : Cell) :
    linksAlong changes (count + 1) head =
      ⟨head, changes.content head⟩ :: linksAlong changes count (nextCell head) := rfl

theorem words_linksAlong (changes : ChangeSet) (count : Nat) (head : Cell) :
    (linksAlong changes count head).map Link.word = (orbit count head).map changes.content := by
  rw [linksAlong, List.map_map]
  rfl

theorem eval_readLinks_of_ends (first : Cell) {room : Nat} {cell : Cell} {n : Nat}
    (ends : Ends store.ledger.content cell n) (inside : n < room) :
    Fallible.eval (readLinks first room cell) store =
      (.ok (linksAlong store.ledger (n + 1) cell), store) := by
  induction n generalizing cell room with
  | zero =>
    obtain ⟨room, rfl⟩ := Nat.exists_eq_add_one.2 inside
    have stop : continues (store.ledger.content cell) = false := ends.ends
    rw [eval_readLinks_succ ChangeSet.plain, if_neg (by rw [stop]; exact Bool.false_ne_true)]
    rfl
  | succ n ih =>
    obtain ⟨room, rfl⟩ := Nat.exists_eq_add_one.2 (Nat.zero_lt_of_lt inside)
    rw [eval_readLinks_succ ChangeSet.plain, if_pos ends.head_goesOn, ih ends.tail (by omega),
      linksAlong_succ _ (n + 1)]
    rfl

/-- The links that are read from a chain that ends after `n` cells; a zero head makes none. -/
def chainLinks (changes : ChangeSet) (n : Nat) (head : Cell) : List Link :=
  if changes.content head = .zero then [] else linksAlong changes (n + 1) head

theorem eval_readChain_of_ends {head : Cell} {n : Nat} (ends : Ends store.ledger.content head n) :
    Fallible.eval (readChain head) store = (.ok (chainLinks store.ledger n head), store) := by
  have read := eval_readLinks_of_ends store head ends (Nat.lt_succ_of_le ends.le_size)
  rw [readChain, Fallible.eval_bind, eval_reach, Fallible.proceed_ok, Fallible.eval_bind, read,
    Fallible.proceed_ok, chainLinks]
  cases n with
  | zero =>
    show (Except.ok (if (store.ledger.content head).isZero = true then [] else _), store) = _
    simp only [isZero_iff]
    rfl
  | succ n =>
    have live := ne_zero_of_continues ends.head_goesOn
    rw [if_neg live]
    rfl

theorem eval_readChain_of_goesOn {head : Cell}
    (goesOn : ∀ i < store.ledger.slots.size + 1,
      continues (store.ledger.content (nextCell^[i] head)) = true) :
    Fallible.eval (readChain head) store = (.error (.endlessChain head.slot), store) := by
  rw [readChain, Fallible.eval_bind, eval_reach, Fallible.proceed_ok, Fallible.eval_bind,
    eval_readLinks_of_goesOn ChangeSet.plain store head goesOn]
  rfl

/-! ## Writing -/

theorem eval_writeWords (head : Cell) (words : List Word) :
    Fallible.eval (writeWords head words) store =
      (.ok (), { store with ledger := store.ledger.recordWords head words }) := by
  induction words generalizing store head with
  | nil => rfl
  | cons word words ih =>
    rw [writeWords, Fallible.eval_bind, eval_setStorage, Fallible.proceed_ok, ih]
    rfl

/-! ## Clearing -/

/-- A write to the head leaves the rest of a chain as it was, where the head does not come again. -/
theorem ends_recordSlot_iff {changes : ChangeSet} {head : Cell} {n : Nat}
    (fresh : head ∉ orbit (n + 1) (nextCell head)) (word : Word) :
    Ends (changes.recordSlot head word).content (nextCell head) n ↔
      Ends changes.content (nextCell head) n := by
  have same : ∀ cell ∈ orbit (n + 1) (nextCell head),
      (changes.recordSlot head word).content cell = changes.content cell := by
    intro cell member
    refine ChangeSet.content_recordSlot_of_ne changes (fun eq => ?_) word
    exact fresh (eq ▸ member)
  exact ⟨fun ends => ends.congr fun cell member => (same cell member).symm,
    fun ends => ends.congr same⟩

/-- Clearing with no bound on the cells that it may follow: from one ledger it clears so many cells
and leaves another. -/
inductive Clears : ChangeSet → Cell → Nat → ChangeSet → Prop where
  | last {changes : ChangeSet} {cell : Cell} (ends : continues (changes.content cell) = false) :
      Clears changes cell 1 (changes.recordSlot cell .zero)
  | link {changes after : ChangeSet} {cell : Cell} {count : Nat}
      (goesOn : continues (changes.content cell) = true)
      (rest : Clears (changes.recordSlot cell .zero) (nextCell cell) count after) :
      Clears changes cell (count + 1) after

theorem eval_eraseLinks_of_clears (first : Cell) {room count : Nat} {cell : Cell} {after : ChangeSet}
    (clears : Clears store.ledger cell count after) (inside : count ≤ room) :
    Fallible.eval (eraseLinks first room cell) store =
      (.ok count, { store with ledger := after }) := by
  obtain ⟨changes, meter⟩ := store
  dsimp only at clears ⊢
  induction clears generalizing room with
  | @last changes cell ends =>
    obtain ⟨room, rfl⟩ := Nat.exists_eq_add_one.2 inside
    have cleared := changes.eval_setStorage cell .zero
    rw [eval_eraseLinks_succ ChangeSet.plain ⟨changes, meter⟩ first room cell cleared,
      if_neg (Bool.eq_false_iff.1 ends)]
  | @link changes after cell count goesOn rest ih =>
    obtain ⟨room, rfl⟩ := Nat.exists_eq_add_one.2 (Nat.zero_lt_of_lt inside)
    have cleared := changes.eval_setStorage cell .zero
    rw [eval_eraseLinks_succ ChangeSet.plain ⟨changes, meter⟩ first room cell cleared,
      if_pos goesOn, ih (Nat.le_of_succ_le_succ inside)]
    rfl

theorem Ends.clears {changes : ChangeSet} {cell : Cell} {n : Nat}
    (ends : Ends changes.content cell n) :
    Clears changes cell (n + 1) (changes.recordWords cell (List.replicate (n + 1) .zero)) := by
  induction n generalizing changes cell with
  | zero => exact .last ends.ends
  | succ n ih =>
    have rest := (ends_recordSlot_iff (head_notMem_orbit ends.nodup) .zero).2 ends.tail
    exact .link ends.head_goesOn (ih rest)

theorem eval_eraseLinks_of_ends (first : Cell) {room : Nat} {cell : Cell} {n : Nat}
    (ends : Ends store.ledger.content cell n) (inside : n < room) :
    Fallible.eval (eraseLinks first room cell) store =
      (.ok (n + 1),
        { store with ledger := store.ledger.recordWords cell (List.replicate (n + 1) .zero) }) :=
  eval_eraseLinks_of_clears store first ends.clears inside

/-- Whatever the hash function, clearing comes to an end: a cell that goes on holds something, and no
longer does once it is cleared. -/
theorem exists_clears {changes : ChangeSet} {cell : Cell} {bound : Nat}
    (live : LiveBound (under cell.owner changes.content) bound) :
    ∃ count ≤ bound + 1, ∃ after, Clears changes cell count after := by
  induction bound generalizing changes cell with
  | zero =>
    refine ⟨1, Nat.le_refl 1, _, .last (Bool.eq_false_iff.2 fun goesOn => ?_)⟩
    have held := ne_zero_of_continues goesOn
    rw [← under_of_owner rfl changes.content] at held
    exact absurd (live.pos held) (Nat.lt_irrefl 0)
  | succ bound ih =>
    cases here : continues (changes.content cell) with
    | false => exact ⟨1, by omega, _, .last here⟩
    | true =>
      have held := ne_zero_of_continues here
      rw [← under_of_owner rfl changes.content] at held
      have fewer : LiveBound
          (under (nextCell cell).owner (changes.recordSlot cell .zero).content) bound := by
        rw [owner_nextCell, ChangeSet.content_recordSlot_eq, under_update rfl]
        exact live.clear held
      obtain ⟨count, short, after, rest⟩ := ih fewer
      exact ⟨count + 1, by omega, after, .link here rest⟩

/-- If the cells that were cleared do not repeat, they are the chain as it was. -/
theorem Clears.ends {changes after : ChangeSet} {cell : Cell} {count : Nat}
    (clears : Clears changes cell count after) (distinct : (orbit count cell).Nodup) :
    ∃ n, count = n + 1 ∧ Ends changes.content cell n := by
  induction clears with
  | last ends => exact ⟨0, rfl, .zero ends⟩
  | link goesOn rest ih =>
    obtain ⟨n, rfl, ends⟩ := ih (List.nodup_cons.1 distinct).2
    have tail := (ends_recordSlot_iff (head_notMem_orbit distinct) .zero).1 ends
    exact ⟨n + 1, rfl, .succ goesOn tail⟩

/-- Clearing touches no cell outside the orbit it may follow. -/
theorem content_eraseLinks_of_notMem (first : Cell) {room : Nat} {cell other : Cell}
    (outside : other ∉ orbit room cell) :
    (Fallible.eval (eraseLinks first room cell) store).2.ledger.content other =
      store.ledger.content other := by
  induction room generalizing store cell with
  | zero => rfl
  | succ room ih =>
    have apart := List.ne_and_not_mem_of_not_mem_cons outside
    have here : (store.ledger.recordSlot cell .zero).content other = store.ledger.content other :=
      ChangeSet.content_recordSlot_of_ne _ (Ne.symm apart.1) _
    have cleared := store.ledger.eval_setStorage cell .zero
    rw [eval_eraseLinks_succ ChangeSet.plain store first room cell cleared]
    split
    · have rest := ih { store with ledger := store.ledger.recordSlot cell .zero } apart.2
      rw [Fallible.snd_proceed_pure, rest, here]
    · exact here

end Store

end ContractHost
