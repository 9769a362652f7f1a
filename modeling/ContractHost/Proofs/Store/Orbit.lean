import Mathlib
import ContractHost.Proofs.Ledger.Slots
import ContractHost.Proofs.Store.Codec

/-!
# Where a chain ends

The cells of a chain are the iterates of `nextCell` from its head. `Ends content head n` says that
the first `n` of them go on and the next one does not. A chain that ends cannot pass a cell twice
(`Ends.nodup`), and as all its cells but the last hold something, it is no longer than the record
of a change set allows (`Ends.le_size`). A chain that goes on beyond that bound has come back to a
cell it passed (`exists_return_of_goesOn`), whatever the hash function, so that the chains that end
are those that pass no cell twice (`walksOnce_iff`).
-/

namespace ContractHost.Store

/-! ## Orbits -/

theorem orbit_eq_map (n : Nat) (head : Cell) :
    orbit n head = (List.range n).map fun i => nextCell^[i] head := by
  induction n generalizing head with
  | zero => rfl
  | succ n ih =>
    rw [orbit, ih, List.range_succ_eq_map, List.map_cons, List.map_map]
    rfl

@[simp] theorem length_orbit (n : Nat) (head : Cell) : (orbit n head).length = n := by
  rw [orbit_eq_map, List.length_map, List.length_range]

theorem mem_orbit {n : Nat} {head cell : Cell} :
    cell ∈ orbit n head ↔ ∃ i < n, nextCell^[i] head = cell := by
  rw [orbit_eq_map, List.mem_map]
  simp only [List.mem_range]

theorem iterate_mem_orbit {i n : Nat} (h : i < n) (head : Cell) :
    nextCell^[i] head ∈ orbit n head :=
  mem_orbit.2 ⟨i, h, rfl⟩

theorem orbit_subset {m n : Nat} (h : m ≤ n) (head : Cell) : orbit m head ⊆ orbit n head := by
  intro cell member
  obtain ⟨i, lt, rfl⟩ := mem_orbit.1 member
  exact iterate_mem_orbit (by omega) head

theorem take_orbit {m n : Nat} (h : m ≤ n) (head : Cell) :
    (orbit n head).take m = orbit m head := by
  rw [orbit_eq_map, orbit_eq_map, ← List.map_take, List.take_range, Nat.min_eq_left h]

theorem nodup_orbit_of_le {m n : Nat} {head : Cell} (h : m ≤ n) (distinct : (orbit n head).Nodup) :
    (orbit m head).Nodup :=
  take_orbit h head ▸ distinct.sublist (List.take_sublist _ _)

theorem iterate_inj {i j n : Nat} {head : Cell} (distinct : (orbit n head).Nodup) (hi : i < n)
    (hj : j < n) (same : nextCell^[i] head = nextCell^[j] head) : i = j := by
  rw [orbit_eq_map] at distinct
  exact (List.nodup_map_iff_inj_on List.nodup_range).1 distinct i (List.mem_range.2 hi) j
    (List.mem_range.2 hj) same

@[simp] theorem owner_nextCell (cell : Cell) : (nextCell cell).owner = cell.owner := rfl

@[simp] theorem owner_iterate (i : Nat) (head : Cell) : (nextCell^[i] head).owner = head.owner := by
  induction i generalizing head with
  | zero => rfl
  | succ i ih =>
    rw [Function.iterate_succ_apply, ih]
    rfl

theorem owner_of_mem_orbit {n : Nat} {head cell : Cell} (h : cell ∈ orbit n head) :
    cell.owner = head.owner := by
  obtain ⟨i, _, rfl⟩ := mem_orbit.1 h
  exact owner_iterate i head

/-- Without repetition the head does not come again. -/
theorem head_notMem_orbit {n : Nat} {head : Cell} (distinct : (orbit (n + 1) head).Nodup) :
    head ∉ orbit n (nextCell head) :=
  (List.nodup_cons.1 distinct).1

/-- An orbit that returns to a cell has no cells but those before the return. -/
theorem iterate_lt_of_return {i j : Nat} {head : Cell} (before : i < j)
    (back : nextCell^[j] head = nextCell^[i] head) (k : Nat) :
    ∃ m < j, nextCell^[k] head = nextCell^[m] head := by
  induction k using Nat.strongRecOn with
  | ind k ih =>
    by_cases early : k < j
    · exact ⟨k, early, rfl⟩
    · have same : nextCell^[k] head = nextCell^[k - j + i] head := by
        rw [show k = (k - j) + j by omega, Function.iterate_add_apply, back,
          ← Function.iterate_add_apply]
        congr 2
        omega
      obtain ⟨m, lt, eq⟩ := ih (k - j + i) (by omega)
      exact ⟨m, lt, same.trans eq⟩

/-- The first return of an orbit that is not without repetition. -/
theorem exists_return_of_not_nodup {n : Nat} {head : Cell} (h : ¬ (orbit n head).Nodup) :
    ∃ i j, i < j ∧ j < n ∧ nextCell^[j] head = nextCell^[i] head := by
  rw [orbit_eq_map] at h
  by_contra none
  refine h (List.Nodup.map_on (fun i hi j hj same => ?_) List.nodup_range)
  rw [List.mem_range] at hi hj
  by_contra ne
  rcases Nat.lt_or_gt_of_ne ne with lt | gt
  · exact none ⟨i, j, lt, hj, same.symm⟩
  · exact none ⟨j, i, gt, hi, same⟩

/-! ## How many cells can hold something -/

/-- Cells without repetition that all hold something are at most `bound`. -/
def LiveBound (content : Cell → Word) (bound : Nat) : Prop :=
  ∀ cells : List Cell, cells.Nodup → (∀ cell ∈ cells, content cell ≠ .zero) →
    cells.length ≤ bound

theorem liveBound_size (changes : ChangeSet) : LiveBound changes.content changes.slots.size :=
  fun _ distinct live => ChangeSet.length_le_size distinct live

namespace LiveBound

variable {content : Cell → Word} {bound : Nat}

theorem min {bound' : Nat} (live : LiveBound content bound) (live' : LiveBound content bound') :
    LiveBound content (Min.min bound bound') := by
  intro cells distinct held
  exact Nat.le_min.2 ⟨live cells distinct held, live' cells distinct held⟩

/-- Where a cell holds something there is room for one. -/
theorem pos (live : LiveBound content bound) {cell : Cell} (held : content cell ≠ .zero) :
    0 < bound := by
  have one := live [cell] (List.nodup_singleton cell) (List.forall_mem_singleton.2 held)
  exact one

/-- Clearing a cell that holds something leaves one less. -/
theorem clear (live : LiveBound content (bound + 1)) {cell : Cell} (held : content cell ≠ .zero) :
    LiveBound (Function.update content cell .zero) bound := by
  intro cells distinct held'
  have fresh : cell ∉ cells := by
    intro member
    exact held' cell member (Function.update_self cell _ content)
  have before : ∀ other ∈ cell :: cells, content other ≠ .zero := by
    refine List.forall_mem_cons.2 ⟨held, fun other member => ?_⟩
    have apart : other ≠ cell := fun same => fresh (same ▸ member)
    rw [← Function.update_of_ne apart .zero content]
    exact held' other member
  have counted := live (cell :: cells) (List.nodup_cons.2 ⟨fresh, distinct⟩) before
  exact Nat.le_of_succ_le_succ counted

end LiveBound

/-- What the cells of an address hold, any other cell counting as zero. -/
def under (owner : Address) (content : Cell → Word) (cell : Cell) : Word :=
  if cell.owner = owner then content cell else .zero

theorem under_of_owner {owner : Address} {cell : Cell} (owned : cell.owner = owner)
    (content : Cell → Word) : under owner content cell = content cell :=
  if_pos owned

theorem under_update {owner : Address} {cell : Cell} (owned : cell.owner = owner)
    (content : Cell → Word) (word : Word) :
    under owner (Function.update content cell word) =
      Function.update (under owner content) cell word := by
  funext other
  by_cases same : other = cell
  · rw [same, under_of_owner owned, Function.update_self, Function.update_self]
  · rw [Function.update_of_ne same, under, under, Function.update_of_ne same]

/-- An address holds no more than there is. -/
theorem LiveBound.under {content : Cell → Word} {bound : Nat} (live : LiveBound content bound)
    (owner : Address) : LiveBound (Store.under owner content) bound := by
  intro cells distinct held
  refine live cells distinct fun cell member zero => held cell member ?_
  rw [Store.under, zero, ite_self]

/-- What an address holds are its live slots. -/
theorem liveBound_liveSlots (changes : ChangeSet) (owner : Address) :
    LiveBound (under owner changes.content) (changes.liveSlots owner) := by
  intro cells distinct held
  rw [← ChangeSet.length_liveCells]
  refine (List.subperm_of_subset distinct fun cell member => ?_).length_le
  have here := held cell member
  rw [under] at here
  split at here
  · rename_i owned
    exact (ChangeSet.mem_liveCells owner cell).2 ⟨owned, here⟩
  · exact absurd rfl here

/-- Cells of an orbit that all go on and do not repeat are no more than can hold something. -/
theorem length_le_of_goesOn {content : Cell → Word} {head : Cell} {bound n : Nat}
    (live : LiveBound (under head.owner content) bound)
    (goesOn : ∀ i < n, continues (content (nextCell^[i] head)) = true)
    (distinct : (orbit n head).Nodup) : n ≤ bound := by
  have held : ∀ cell ∈ orbit n head, under head.owner content cell ≠ .zero := by
    intro cell member
    obtain ⟨i, lt, rfl⟩ := mem_orbit.1 member
    rw [under_of_owner (owner_iterate i head)]
    exact ne_zero_of_continues (goesOn i lt)
  have counted := live _ distinct held
  rwa [length_orbit] at counted

/-! ## Chains that end -/

/-- The first `n` cells from a head go on, and the next one does not. -/
structure Ends (content : Cell → Word) (head : Cell) (n : Nat) : Prop where
  goesOn : ∀ i < n, continues (content (nextCell^[i] head)) = true
  ends : continues (content (nextCell^[n] head)) = false

namespace Ends

variable {content content' : Cell → Word} {head : Cell} {m n : Nat}

theorem le (h : Ends content head m) (h' : Ends content head n) : m ≤ n := by
  by_contra lt
  have goesOn := h.goesOn n (by omega)
  rw [h'.ends] at goesOn
  cases goesOn

theorem zero (ends : continues (content head) = false) : Ends content head 0 :=
  ⟨fun i lt => absurd lt (Nat.not_lt_zero i), ends⟩

theorem succ (goesOn : continues (content head) = true) (h : Ends content (nextCell head) n) :
    Ends content head (n + 1) where
  goesOn i lt := by
    cases i with
    | zero => exact goesOn
    | succ i =>
      rw [Function.iterate_succ_apply]
      exact h.goesOn i (by omega)
  ends := by
    rw [Function.iterate_succ_apply]
    exact h.ends

theorem head_goesOn (h : Ends content head (n + 1)) : continues (content head) = true :=
  h.goesOn 0 (by omega)

theorem tail (h : Ends content head (n + 1)) : Ends content (nextCell head) n where
  goesOn i lt := by
    have goesOn := h.goesOn (i + 1) (by omega)
    rwa [Function.iterate_succ_apply] at goesOn
  ends := by
    have ends := h.ends
    rwa [Function.iterate_succ_apply] at ends

/-- Only what the cells of the chain hold matters. -/
theorem congr (h : Ends content head n)
    (same : ∀ cell ∈ orbit (n + 1) head, content' cell = content cell) :
    Ends content' head n where
  goesOn i lt := by
    rw [same _ (iterate_mem_orbit (by omega) head)]
    exact h.goesOn i lt
  ends := by
    rw [same _ (iterate_mem_orbit (by omega) head)]
    exact h.ends

theorem nodup (h : Ends content head n) : (orbit (n + 1) head).Nodup := by
  by_contra repeats
  obtain ⟨i, j, before, inside, back⟩ := exists_return_of_not_nodup repeats
  obtain ⟨m, early, same⟩ := iterate_lt_of_return before back n
  have goesOn := h.goesOn m (by omega)
  rw [← same, h.ends] at goesOn
  cases goesOn

/-- A chain has no more links before its last than cells of its address can hold something. -/
theorem le_bound (h : Ends content head n) {bound : Nat}
    (live : LiveBound (under head.owner content) bound) : n ≤ bound :=
  length_le_of_goesOn live h.goesOn (nodup_orbit_of_le (Nat.le_succ n) h.nodup)

/-- A chain of a change set has no more links before its last than cells are recorded. -/
theorem le_size {changes : ChangeSet} (h : Ends changes.content head n) :
    n ≤ changes.slots.size :=
  h.le_bound ((liveBound_size changes).under head.owner)

end Ends

/-- The words along an orbit make a chain: it ends where they do. -/
theorem Chain.ends {content : Cell → Word} {words : List Word} (chain : Chain words) {head : Cell}
    (along : (orbit words.length head).map content = words) :
    Ends content head (words.length - 1) := by
  induction chain generalizing head with
  | last ends =>
    have here : content head = _ := (List.cons.inj along).1
    exact .zero (here ▸ ends)
  | @link word words goesOn rest ih =>
    obtain ⟨here, later⟩ := List.cons.inj along
    have some : 0 < words.length := by
      cases rest <;> simp
    have tail := ih later
    rw [List.length_cons, show words.length + 1 - 1 = words.length - 1 + 1 by omega]
    exact .succ (here ▸ goesOn) tail

/-- Either a chain ends within some number of cells, or all these cells go on. -/
theorem ends_or_goesOn (content : Cell → Word) (head : Cell) (room : Nat) :
    (∃ n < room, Ends content head n) ∨
      ∀ i < room, continues (content (nextCell^[i] head)) = true := by
  induction room generalizing head with
  | zero => exact .inr fun i lt => absurd lt (Nat.not_lt_zero i)
  | succ room ih =>
    cases here : continues (content head) with
    | false => exact .inl ⟨0, by omega, .zero here⟩
    | true =>
      rcases ih (nextCell head) with ⟨n, lt, ends⟩ | goesOn
      · exact .inl ⟨n + 1, by omega, .succ here ends⟩
      · right
        intro i lt
        cases i with
        | zero => exact here
        | succ i =>
          rw [Function.iterate_succ_apply]
          exact goesOn i (by omega)

/-- A chain ends within as many cells as can hold something, and one more, if these do not repeat. -/
theorem exists_ends_of_nodup {content : Cell → Word} {head : Cell} {bound : Nat}
    (live : LiveBound (under head.owner content) bound)
    (distinct : (orbit (bound + 1) head).Nodup) : ∃ n ≤ bound, Ends content head n := by
  rcases ends_or_goesOn content head (bound + 1) with ⟨n, lt, ends⟩ | goesOn
  · exact ⟨n, Nat.le_of_lt_succ lt, ends⟩
  · have counted := length_le_of_goesOn live goesOn distinct
    omega

/-- A walk from a head passes no cell twice: as far as the words go on, the cells do not repeat. -/
def WalksOnce (content : Cell → Word) (head : Cell) : Prop :=
  ∀ n, (∀ i < n, continues (content (nextCell^[i] head)) = true) → (orbit (n + 1) head).Nodup

theorem Ends.walksOnce {content : Cell → Word} {head : Cell} {n : Nat}
    (ends : Ends content head n) : WalksOnce content head := by
  intro m goesOn
  refine nodup_orbit_of_le (Nat.succ_le_succ ?_) ends.nodup
  by_contra beyond
  have last := goesOn n (Nat.lt_of_not_le beyond)
  rw [ends.ends] at last
  cases last

/-- On a change set the walks that pass no cell twice are those that come to an end. -/
theorem walksOnce_iff {changes : ChangeSet} {head : Cell} :
    WalksOnce changes.content head ↔ ∃ n, Ends changes.content head n := by
  constructor
  · intro once
    rcases ends_or_goesOn changes.content head (changes.slots.size + 1) with
      ⟨n, -, ends⟩ | goesOn
    · exact ⟨n, ends⟩
    · have distinct := nodup_orbit_of_le (Nat.le_succ _) (once _ goesOn)
      obtain ⟨n, -, ends⟩ :=
        exists_ends_of_nodup ((liveBound_size changes).under head.owner) distinct
      exact ⟨n, ends⟩
  · rintro ⟨n, ends⟩
    exact ends.walksOnce

/-- A chain that goes on for one cell more than are recorded has come back to a cell. -/
theorem exists_return_of_goesOn {changes : ChangeSet} {head : Cell}
    (goesOn : ∀ i < changes.slots.size + 1,
      continues (changes.content (nextCell^[i] head)) = true) :
    ∃ i j, i < j ∧ j < changes.slots.size + 1 ∧ nextCell^[j] head = nextCell^[i] head := by
  apply exists_return_of_not_nodup
  intro distinct
  have counted := length_le_of_goesOn ((liveBound_size changes).under head.owner) goesOn distinct
  omega

end ContractHost.Store
