import Std.Data.ExtTreeMap
import ContractHost.Ledger

/-!
# Change sets

A change set records accounts and slots. It is a ledger by itself, in which what is not recorded is
missing or zero, and it is what a layer over another ledger has changed. In the second role a
recorded zero clears the slot below, and `apply` carries the changes out.
-/

namespace ContractHost

/-- By owner, then by slot. -/
instance : Ord Cell := ⟨compareLex (compareOn Cell.owner) (compareOn Cell.slot)⟩

theorem Cell.compare_def :
    compare (α := Cell) = compareLex (compareOn Cell.owner) (compareOn Cell.slot) := rfl

instance : Std.TransOrd Cell :=
  inferInstanceAs (Std.TransCmp (compareLex (compareOn Cell.owner) (compareOn Cell.slot)))

instance : Std.LawfulEqOrd Cell where
  eq_of_compare {a b} h := by
    simp only [Cell.compare_def, compareLex_eq_eq, compareOn, Std.compare_eq_iff_eq] at h
    cases a
    cases b
    simp_all

/-- Recorded accounts and slots. -/
structure ChangeSet where
  accounts : Std.ExtTreeMap Address Account
  slots : Std.ExtTreeMap Cell Word

namespace ChangeSet

/-- Nothing is recorded. -/
def empty : ChangeSet := ⟨∅, ∅⟩

instance : Inhabited ChangeSet := ⟨empty⟩

/-- The recorded account of an address. -/
def account? (changes : ChangeSet) (address : Address) : Option Account :=
  changes.accounts[address]?

/-- The recorded content of a slot. -/
def slot? (changes : ChangeSet) (cell : Cell) : Option Word := changes.slots[cell]?

/-- The content of a slot, zero when it is not recorded. -/
def content (changes : ChangeSet) (cell : Cell) : Word := (changes.slot? cell).getD .zero

/-- Records an account. -/
def recordAccount (changes : ChangeSet) (address : Address) (account : Account) : ChangeSet :=
  { changes with accounts := changes.accounts.insert address account }

/-- Records the content of a slot. -/
def recordSlot (changes : ChangeSet) (cell : Cell) (value : Word) : ChangeSet :=
  { changes with slots := changes.slots.insert cell value }

theorem account?_recordAccount (changes : ChangeSet) (address other : Address)
    (account : Account) :
    (changes.recordAccount address account).account? other =
      if address = other then some account else changes.account? other := by
  simp [account?, recordAccount, Std.ExtTreeMap.getElem?_insert]

@[simp] theorem slot?_recordAccount (changes : ChangeSet) (address : Address) (account : Account)
    (cell : Cell) : (changes.recordAccount address account).slot? cell = changes.slot? cell := rfl

theorem slot?_recordSlot (changes : ChangeSet) (cell other : Cell) (value : Word) :
    (changes.recordSlot cell value).slot? other =
      if cell = other then some value else changes.slot? other := by
  simp [slot?, recordSlot, Std.ExtTreeMap.getElem?_insert]

@[simp] theorem account?_recordSlot (changes : ChangeSet) (cell : Cell) (value : Word)
    (address : Address) :
    (changes.recordSlot cell value).account? address = changes.account? address := rfl

/-- Carries out one change of a slot: a zero removes what is recorded. -/
def applySlot (slots : Std.ExtTreeMap Cell Word) (cell : Cell) (value : Word) :
    Std.ExtTreeMap Cell Word :=
  if value.isZero then slots.erase cell else slots.insert cell value

/-- Carries changes out on a base. -/
def apply (base changes : ChangeSet) : ChangeSet where
  accounts := changes.accounts.foldl .insert base.accounts
  slots := changes.slots.foldl applySlot base.slots

/-- How many accounts are recorded. -/
def accountCount (changes : ChangeSet) : Nat := changes.accounts.size

/-- Nothing is recorded, not even a zero. -/
def isEmpty (changes : ChangeSet) : Bool := changes.accounts.isEmpty && changes.slots.isEmpty

/-- How many slots of an address are recorded and not zero. -/
def liveSlots (changes : ChangeSet) (owner : Address) : Nat :=
  changes.slots.toList.countP fun (cell, value) => cell.owner = owner && !value.isZero

instance : Ledger ChangeSet where
  getAccount address := do return (← get).account? address
  setAccount address account := modify (·.recordAccount address account)
  getStorage cell := do return (← get).content cell
  setStorage cell value := modify (·.recordSlot cell value)
  slotBound changes := changes.slots.size

end ChangeSet

end ContractHost
