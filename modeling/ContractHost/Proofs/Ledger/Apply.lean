import Mathlib
import ContractHost.Proofs.Ledger.Slots

/-!
# Applying changes

What a base answers once changes are applied to it. Each change settles its own key and leaves the
others alone (`Overwrites`), and a key is recorded once, so the order in which the changes are carried
out makes no difference (`applyListed_eq_apply`): an account is the recorded one or else the one of
the base, and a slot holds what is recorded or else what it held before, whether the record is a
zero or not (`account?_apply`, `content_apply`).

What is applied may itself have been put together from two sets of changes. That comes to the same as
applying the one after the other, but for the slots that the later set clears: of a cleared slot the
merged set keeps no record, so that it does not clear the slot of a base (`reads_after_merging`).
-/

namespace ContractHost.ChangeSet

/-! ## Carrying changes out one by one -/

section Entries

variable {κ ν : Type} [Ord κ] [Std.TransOrd κ]
  {change : Std.ExtTreeMap κ ν → κ → ν → Std.ExtTreeMap κ ν} {effect : ν → Option ν}

/-- A change gives its key what `effect` says of the value, and leaves every other key alone. -/
def Overwrites [DecidableEq κ] (change : Std.ExtTreeMap κ ν → κ → ν → Std.ExtTreeMap κ ν)
    (effect : ν → Option ν) : Prop :=
  ∀ held key value other,
    (change held key value)[other]? = if key = other then effect value else held[other]?

/-- Carries out a list of changes from the front. -/
def carryOut (change : Std.ExtTreeMap κ ν → κ → ν → Std.ExtTreeMap κ ν)
    (held : Std.ExtTreeMap κ ν) (entries : List (κ × ν)) : Std.ExtTreeMap κ ν :=
  entries.foldl (fun held entry => change held entry.1 entry.2) held

theorem foldl_eq_carryOut (changes held : Std.ExtTreeMap κ ν) :
    changes.foldl change held = carryOut change held changes.toList :=
  Std.ExtTreeMap.foldl_eq_foldl_toList

theorem nodup_keys_of_perm {changes : Std.ExtTreeMap κ ν} {entries : List (κ × ν)}
    (listed : entries.Perm changes.toList) : (entries.map Prod.fst).Nodup := by
  have keys : (entries.map Prod.fst).Perm changes.keys := by
    rw [← Std.ExtTreeMap.map_fst_toList_eq_keys]
    exact listed.map Prod.fst
  exact keys.nodup_iff.2 Std.ExtTreeMap.nodup_keys

variable [DecidableEq κ]

theorem getElem?_carryOut_of_notMem (overwrites : Overwrites change effect) {entries : List (κ × ν)}
    {key : κ} (absent : key ∉ entries.map Prod.fst) (held : Std.ExtTreeMap κ ν) :
    (carryOut change held entries)[key]? = held[key]? := by
  induction entries generalizing held with
  | nil => rfl
  | cons entry entries ih =>
    have apart := List.ne_and_not_mem_of_not_mem_cons absent
    have here := overwrites held entry.1 entry.2 key
    rw [if_neg (Ne.symm apart.1)] at here
    exact (ih apart.2 _).trans here

theorem getElem?_carryOut_of_mem (overwrites : Overwrites change effect) {entries : List (κ × ν)}
    (distinct : (entries.map Prod.fst).Nodup) {key : κ} {value : ν} (listed : (key, value) ∈ entries)
    (held : Std.ExtTreeMap κ ν) : (carryOut change held entries)[key]? = effect value := by
  induction entries generalizing held with
  | nil => cases listed
  | cons entry entries ih =>
    have unique := List.nodup_cons.1 distinct
    rcases List.mem_cons.1 listed with rfl | later
    · have here := overwrites held key value key
      rw [if_pos rfl] at here
      exact (getElem?_carryOut_of_notMem overwrites unique.1 _).trans here
    · exact ih unique.2 later _

variable [Std.LawfulEqOrd κ]

/-- The entries of a map, in whatever order they are carried out. -/
theorem getElem?_carryOut (overwrites : Overwrites change effect) {changes : Std.ExtTreeMap κ ν}
    {entries : List (κ × ν)} (listed : entries.Perm changes.toList) (held : Std.ExtTreeMap κ ν)
    (key : κ) :
    (carryOut change held entries)[key]? = (changes[key]?).elim held[key]? effect := by
  cases recorded : changes[key]? with
  | some value =>
    have member : (key, value) ∈ entries :=
      listed.mem_iff.2 (Std.ExtTreeMap.mem_toList_iff_getElem?_eq_some.2 recorded)
    exact getElem?_carryOut_of_mem overwrites (nodup_keys_of_perm listed) member held
  | none =>
    refine getElem?_carryOut_of_notMem overwrites ?_ held
    intro member
    obtain ⟨⟨_, value⟩, entry, rfl⟩ := List.mem_map.1 member
    have found := Std.ExtTreeMap.mem_toList_iff_getElem?_eq_some.1 (listed.mem_iff.1 entry)
    rw [recorded] at found
    cases found

end Entries

theorem overwrites_insert : Overwrites (κ := Address) (ν := Account) .insert some := by
  intro held key value other
  simp [Std.ExtTreeMap.getElem?_insert]

theorem overwrites_applySlot :
    Overwrites applySlot fun word : Word => if word.isZero then none else some word := by
  intro held key value other
  rw [applySlot]
  cases zero : value.isZero with
  | true => simp [zero, Std.ExtTreeMap.getElem?_erase]
  | false => simp [zero, Std.ExtTreeMap.getElem?_insert]

/-! ## Changes in any order -/

/-- All that a change set records, in some order. -/
structure Lists (changes : ChangeSet) (accounts : List (Address × Account))
    (slots : List (Cell × Word)) : Prop where
  accounts : accounts.Perm changes.accounts.toList
  slots : slots.Perm changes.slots.toList

/-- Carries out listed changes on a base, in the order of the lists. -/
def applyListed (base : ChangeSet) (accounts : List (Address × Account))
    (slots : List (Cell × Word)) : ChangeSet where
  accounts := carryOut .insert base.accounts accounts
  slots := carryOut applySlot base.slots slots

theorem apply_eq_applyListed (base changes : ChangeSet) :
    base.apply changes = base.applyListed changes.accounts.toList changes.slots.toList := by
  rw [apply, applyListed, foldl_eq_carryOut, foldl_eq_carryOut]

variable {changes : ChangeSet} {accounts : List (Address × Account)} {slots : List (Cell × Word)}

/-- The order of the changes makes no difference. -/
theorem applyListed_eq_apply (listed : changes.Lists accounts slots) (base : ChangeSet) :
    base.applyListed accounts slots = base.apply changes := by
  have sameAccounts : carryOut .insert base.accounts accounts =
      carryOut .insert base.accounts changes.accounts.toList := by
    apply Std.ExtTreeMap.ext_getElem?
    intro address
    rw [getElem?_carryOut overwrites_insert listed.accounts,
      getElem?_carryOut overwrites_insert (.refl _)]
  have sameSlots : carryOut applySlot base.slots slots =
      carryOut applySlot base.slots changes.slots.toList := by
    apply Std.ExtTreeMap.ext_getElem?
    intro cell
    rw [getElem?_carryOut overwrites_applySlot listed.slots,
      getElem?_carryOut overwrites_applySlot (.refl _)]
  rw [apply_eq_applyListed, applyListed, applyListed, sameAccounts, sameSlots]

/-! ## What the base answers afterwards -/

theorem account?_apply (base changes : ChangeSet) (address : Address) :
    (base.apply changes).account? address =
      (changes.account? address).or (base.account? address) := by
  rw [apply_eq_applyListed, account?, applyListed, getElem?_carryOut overwrites_insert (.refl _)]
  show (changes.account? address).elim _ some = _
  cases changes.account? address with
  | none => rfl
  | some account => rfl

/-- What was recorded or is changed is recorded afterwards, but of the changes no zero. -/
theorem slot?_apply (base changes : ChangeSet) (cell : Cell) :
    (base.apply changes).slot? cell =
      (changes.slot? cell).elim (base.slot? cell) fun word =>
        if word.isZero then none else some word := by
  rw [apply_eq_applyListed, slot?, applyListed, getElem?_carryOut overwrites_applySlot (.refl _)]
  rfl

/-- A recorded zero answers as it did before it was applied, although it is no longer recorded. -/
theorem content_apply (base changes : ChangeSet) (cell : Cell) :
    (base.apply changes).content cell = (changes.slot? cell).getD (base.content cell) := by
  rw [content, slot?_apply]
  rcases changes.slot? cell with _ | word
  · rfl
  · by_cases zero : word = .zero
    · simp [zero, FixedBytes.isZero]
    · simp [zero, FixedBytes.isZero]

/-! ## Change sets that read alike -/

/-- Two change sets answer every read alike. -/
structure SameReads (changes changes' : ChangeSet) : Prop where
  account? : ∀ address, changes.account? address = changes'.account? address
  content : ∀ cell, changes.content cell = changes'.content cell

namespace SameReads

variable {changes changes' : ChangeSet}

theorem accountCount (same : changes.SameReads changes') :
    changes.accountCount = changes'.accountCount := by
  have accounts : changes.accounts = changes'.accounts :=
    Std.ExtTreeMap.ext_getElem? same.account?
  rw [ChangeSet.accountCount, ChangeSet.accountCount, accounts]

/-- Zeros that only one of the two records do not count. -/
theorem liveSlots (same : changes.SameReads changes') (owner : Address) :
    changes.liveSlots owner = changes'.liveSlots owner := by
  have cells (cell : Cell) : cell ∈ (changes'.liveCells owner).toFinset ↔
      cell.owner = owner ∧ changes.content cell ≠ .zero := by
    rw [List.mem_toFinset, mem_liveCells, same.content]
  rw [liveSlots_eq_card cells, List.toFinset_card_of_nodup (nodup_liveCells owner),
    length_liveCells]

end SameReads

/-! ## Changes applied to changes -/

variable (a b c : ChangeSet)

theorem account?_apply_apply (address : Address) :
    (a.apply (b.apply c)).account? address = ((a.apply b).apply c).account? address := by
  simp [account?_apply, Option.or_assoc]

/-- A slot that is cleared is zero. -/
theorem content_apply_of_cleared {cell : Cell} (cleared : c.slot? cell = some .zero) :
    (a.apply c).content cell = .zero := by
  simp [content_apply, cleared]

/-- Where the later changes clear a slot, the merged ones say nothing of it. -/
theorem content_apply_apply (cell : Cell) :
    (a.apply (b.apply c)).content cell =
      if c.slot? cell = some .zero then a.content cell
      else ((a.apply b).apply c).content cell := by
  rw [content_apply, slot?_apply, content_apply, content_apply]
  rcases c.slot? cell with _ | word
  · simp
  · by_cases zero : word = .zero
    · simp [zero, FixedBytes.isZero]
    · simp [zero, FixedBytes.isZero]

/-- Merged changes and the same changes one after the other read alike, but at the slots that the
later ones clear: there a base is cleared by these alone, and keeps what it holds when they were
applied to the earlier changes first. -/
theorem reads_after_merging (a b c : ChangeSet) :
    (∀ address,
      (a.apply (b.apply c)).account? address = ((a.apply b).apply c).account? address) ∧
    (∀ cell, (a.apply (b.apply c)).content cell =
      if c.slot? cell = some .zero then a.content cell
      else ((a.apply b).apply c).content cell) ∧
    (∀ cell, c.slot? cell = some .zero → ((a.apply b).apply c).content cell = .zero) ∧
    ((a.apply (b.apply c)).SameReads ((a.apply b).apply c) ↔
      ∀ cell, c.slot? cell = some .zero → a.content cell = .zero) := by
  refine ⟨account?_apply_apply a b c, content_apply_apply a b c,
    fun cell cleared => content_apply_of_cleared _ c cleared, ?_⟩
  constructor
  · intro same cell cleared
    have read := same.content cell
    rwa [content_apply_apply, if_pos cleared, content_apply_of_cleared _ c cleared] at read
  · intro vacant
    refine ⟨account?_apply_apply a b c, fun cell => ?_⟩
    rw [content_apply_apply]
    split
    · rename_i cleared
      rw [vacant cell cleared, content_apply_of_cleared _ c cleared]
    · rfl

/-- A slot that holds something, and a clear of it that was applied to nothing first. -/
theorem merged_clear_is_lost :
    let held : Word := .ofUInt256 1
    let base := ChangeSet.empty.recordSlot default held
    let clear := ChangeSet.empty.recordSlot default .zero
    ((base.apply .empty).apply clear).content default = .zero ∧
      (base.apply (ChangeSet.empty.apply clear)).content default = held ∧
      ¬ ∀ a b c : ChangeSet, ((a.apply b).apply c).SameReads (a.apply (b.apply c)) := by
  intro held base clear
  have sequential : ((base.apply .empty).apply clear).content default = .zero := by decide +kernel
  have merged : (base.apply (ChangeSet.empty.apply clear)).content default = held := by
    decide +kernel
  refine ⟨sequential, merged, fun same => ?_⟩
  have read := (same base .empty clear).content default
  rw [sequential, merged] at read
  exact absurd read (by decide)

end ContractHost.ChangeSet
