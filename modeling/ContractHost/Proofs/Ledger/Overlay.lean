import Mathlib
import ContractHost.Ledger.Layers
import ContractHost.Proofs.Execution.Lockstep
import ContractHost.Proofs.Ledger.Apply

/-!
# Layers over a base

A stack of layers shows what the base would, had the changes of the layers been applied to it from
the bottom up (`shows_stack`). An overlay and the state that it shows go in lockstep through every
access (`inStep_mirrors`), and so through whole transactions and through any sequence of tasks in
which later ones depend on what earlier ones replied (`Workload`). What the overlay has recorded in
the end makes, applied to the base in any order, the state that the same tasks leave when they are
done on the base itself, and until then the base is as it was.
-/

namespace ContractHost

open Fallible (Lockstep)

namespace Layers

/-! ## What a stack of layers shows -/

/-- Puts a layer with changes over others. -/
def overlay (layers : Layers) (changes : ChangeSet) : Layers := ⟨changes, layers.toList⟩

/-- A base with layers over it, given from the bottom up. -/
def stack (base : ChangeSet) (caches : List ChangeSet) : Layers := caches.foldl overlay (ofBase base)

/-- The layers answer every read as a base would that holds `changes`. -/
structure Shows (layers : Layers) (changes : ChangeSet) : Prop where
  account? : ∀ address, layers.account? address = changes.account? address
  content : ∀ cell, layers.content cell = changes.content cell

theorem account?_overlay (layers : Layers) (changes : ChangeSet) (address : Address) :
    (layers.overlay changes).account? address =
      (changes.account? address).or (layers.account? address) :=
  account?_eq (layers.overlay changes) address

theorem content_overlay (layers : Layers) (changes : ChangeSet) (cell : Cell) :
    (layers.overlay changes).content cell = (changes.slot? cell).getD (layers.content cell) := by
  rw [content, slot?_eq]
  show ((changes.slot? cell).or (layers.slot? cell)).getD .zero = _
  cases changes.slot? cell with
  | none => rfl
  | some word => rfl

theorem shows_ofBase (base : ChangeSet) : (ofBase base).Shows base where
  account? address := by
    rw [account?, ofBase, toList, List.findSome?_singleton]
  content cell := by
    rw [content, slot?, ofBase, toList, List.findSome?_singleton]
    rfl

/-- A layer shows what applying it would make of what lies below. -/
theorem Shows.overlay {layers : Layers} {held : ChangeSet} (shows : layers.Shows held)
    (changes : ChangeSet) : (layers.overlay changes).Shows (held.apply changes) where
  account? address := by
    rw [account?_overlay, ChangeSet.account?_apply, shows.account?]
  content cell := by
    rw [content_overlay, ChangeSet.content_apply, shows.content]

/-- A read at the top is a read of the base with all layers applied from the bottom up. -/
theorem shows_stack (base : ChangeSet) (caches : List ChangeSet) :
    (stack base caches).Shows (caches.foldl .apply base) := by
  have shows {layers : Layers} {held : ChangeSet} (here : layers.Shows held) :
      (caches.foldl overlay layers).Shows (caches.foldl .apply held) := by
    induction caches generalizing layers held with
    | nil => exact here
    | cons cache caches ih => exact ih (here.overlay cache)
  exact shows (shows_ofBase base)

/-! ## An overlay and the state that it shows -/

/-- Layers over `below` that show what a base holds. -/
structure Mirrors (below : List ChangeSet) (layers : Layers) (changes : ChangeSet) : Prop where
  below : layers.below = below
  shows : layers.Shows changes

variable {below : List ChangeSet}

/-- What is recorded in the top layer is what is read there. -/
theorem Shows.recordAccount {layers : Layers} {changes : ChangeSet} (shows : layers.Shows changes)
    (address : Address) (account : Account) :
    Shows { layers with top := layers.top.recordAccount address account }
      (changes.recordAccount address account) where
  account? other := by
    have read := shows.account? other
    rw [account?_eq] at read ⊢
    rw [ChangeSet.account?_recordAccount, ChangeSet.account?_recordAccount]
    split
    · rfl
    · exact read
  content := shows.content

theorem Shows.recordSlot {layers : Layers} {changes : ChangeSet} (shows : layers.Shows changes)
    (cell : Cell) (value : Word) :
    Shows { layers with top := layers.top.recordSlot cell value }
      (changes.recordSlot cell value) where
  account? := shows.account?
  content other := by
    have read := shows.content other
    rw [Layers.content, slot?_eq] at read ⊢
    rw [ChangeSet.slot?_recordSlot, ChangeSet.content_recordSlot]
    split
    · rfl
    · exact read

theorem inStep_mirrors : Ledger.InStep (Mirrors below) where
  getAccount address := by
    intro layers changes mirrors
    exact ⟨congrArg Except.ok (mirrors.shows.account? address), mirrors⟩
  setAccount address account := by
    intro layers changes mirrors
    exact ⟨rfl, mirrors.below, mirrors.shows.recordAccount address account⟩
  getStorage cell := by
    intro layers changes mirrors
    exact ⟨congrArg Except.ok (mirrors.shows.content cell), mirrors⟩
  setStorage cell value := by
    intro layers changes mirrors
    exact ⟨rfl, mirrors.below, mirrors.shows.recordSlot cell value⟩

/-- No more cells hold something than the layers record between them. -/
theorem liveBound_layers (layers : Layers) :
    Store.LiveBound layers.content (Ledger.slotBound layers) := by
  intro cells distinct live
  have recorded : cells ⊆ layers.toList.flatMap fun changes => changes.slots.keys := by
    intro cell member
    have held := live cell member
    rw [content, slot?] at held
    cases found : layers.toList.findSome? (·.slot? cell) with
    | none =>
      rw [found] at held
      exact absurd rfl held
    | some word =>
      obtain ⟨changes, layer, here⟩ := List.exists_of_findSome?_eq_some found
      refine List.mem_flatMap.2 ⟨changes, layer, ?_⟩
      rw [Std.ExtTreeMap.mem_keys, Std.ExtTreeMap.mem_iff_isSome_getElem?]
      exact Option.isSome_iff_exists.2 ⟨word, here⟩
  have counted := (List.subperm_of_subset distinct recorded).length_le
  have size : (layers.toList.flatMap fun changes => changes.slots.keys).length =
      Ledger.slotBound layers := by
    show _ = layers.toList.foldr (fun changes n => changes.slots.size + n) 0
    induction layers.toList with
    | nil => rfl
    | cons changes rest ih =>
      rw [List.flatMap_cons, List.length_append, ih, Std.ExtTreeMap.length_keys]
      rfl
  rwa [size] at counted

/-- How far either of the two follows a chain, it follows it to its end. -/
theorem reachAlike_mirrors : Store.ReachAlike (Mirrors below) := by
  have live {layers : Layers} {changes : ChangeSet} (mirrors : Mirrors below layers changes) :
      Store.LiveBound changes.content (min (Ledger.slotBound layers) changes.slots.size) := by
    have same : layers.content = changes.content := funext mirrors.shows.content
    have bound := liveBound_layers layers
    rw [same] at bound
    exact bound.min (Store.liveBound_size changes)
  have under (owner : Address) : Store.ReachAlikeUnder owner (Mirrors below) :=
    Store.reachAlikeUnder_of_bound ChangeSet.plain
      (Store.inStepUnder_of_inStep inStep_mirrors owner) fun _ _ mirrors => (live mirrors).under owner
  exact ⟨fun head => (under head.owner).readLinks head rfl,
    fun head => (under head.owner).eraseLinks head rfl⟩

theorem corresponds_mirrors : Ledger.Corresponds (Mirrors below) :=
  inStep_mirrors.corresponds reachAlike_mirrors

end Layers

end ContractHost
