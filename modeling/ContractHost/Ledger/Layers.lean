import ContractHost.Ledger.ChangeSet

/-!
# Layered ledgers

Change sets lying over each other, the lowest being the base. A write is recorded in the top layer
only; a read takes the highest layer that records what is asked for, so a recorded zero hides what
lies below it. `cover` adds a layer, and `uncover?` takes the top one off together with its changes,
which `commit?` applies to the layer below.
-/

namespace ContractHost

/-- A top layer and those below it, from the highest to the base. -/
structure Layers where
  top : ChangeSet
  below : List ChangeSet

namespace Layers

/-- A base without layers over it. -/
def ofBase (base : ChangeSet) : Layers := ⟨base, []⟩

instance : Inhabited Layers := ⟨ofBase .empty⟩

/-- All layers from the top down. -/
def toList (layers : Layers) : List ChangeSet := layers.top :: layers.below

/-- The account in the highest layer that records one. -/
def account? (layers : Layers) (address : Address) : Option Account :=
  layers.toList.findSome? (·.account? address)

/-- The content of a slot in the highest layer that records one. -/
def slot? (layers : Layers) (cell : Cell) : Option Word :=
  layers.toList.findSome? (·.slot? cell)

/-- The content of a slot, zero when no layer records it. -/
def content (layers : Layers) (cell : Cell) : Word := (layers.slot? cell).getD .zero

/-- Adds a layer without changes. -/
def cover (layers : Layers) : Layers := ⟨.empty, layers.toList⟩

/-- The changes of the top layer and the layers below it, unless the top is the base. -/
def uncover? (layers : Layers) : Option (ChangeSet × Layers) :=
  match layers.below with
  | [] => none
  | next :: rest => some (layers.top, ⟨next, rest⟩)

/-- Applies changes to the top layer. -/
def apply (layers : Layers) (changes : ChangeSet) : Layers :=
  { layers with top := layers.top.apply changes }

/-- Takes the top layer off and applies its changes to the layer below. -/
def commit? (layers : Layers) : Option Layers :=
  layers.uncover?.map fun (changes, rest) => rest.apply changes

/-- The top layer answers, or else those below it. -/
theorem account?_eq (layers : Layers) (address : Address) :
    layers.account? address =
      (layers.top.account? address).or (layers.below.findSome? (·.account? address)) := by
  rw [account?, toList, List.findSome?_cons]
  cases layers.top.account? address with
  | none => rfl
  | some account => rfl

theorem slot?_eq (layers : Layers) (cell : Cell) :
    layers.slot? cell = (layers.top.slot? cell).or (layers.below.findSome? (·.slot? cell)) := by
  rw [slot?, toList, List.findSome?_cons]
  cases layers.top.slot? cell with
  | none => rfl
  | some word => rfl

@[simp] theorem account?_cover (layers : Layers) (address : Address) :
    layers.cover.account? address = layers.account? address := by
  simp [account?, toList, cover, ChangeSet.account?, ChangeSet.empty]

@[simp] theorem slot?_cover (layers : Layers) (cell : Cell) :
    layers.cover.slot? cell = layers.slot? cell := by
  simp [slot?, toList, cover, ChangeSet.slot?, ChangeSet.empty]

@[simp] theorem uncover?_cover (layers : Layers) :
    layers.cover.uncover? = some (.empty, layers) := rfl

instance : Ledger Layers where
  getAccount address := do return (← get).account? address
  setAccount address account :=
    modify fun layers => { layers with top := layers.top.recordAccount address account }
  getStorage cell := do return (← get).content cell
  setStorage cell value :=
    modify fun layers => { layers with top := layers.top.recordSlot cell value }
  slotBound layers := layers.toList.foldr (fun changes n => changes.slots.size + n) 0

end Layers

end ContractHost
