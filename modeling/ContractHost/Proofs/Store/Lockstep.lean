import Mathlib
import ContractHost.Proofs.Lockstep
import ContractHost.Proofs.Store.Outcomes

/-!
# Stores in lockstep

Two stores whose ledgers are related and whose meters hold the same. A loop of the store goes in
lockstep on them for the same number of cells. How many cells a loop may follow is decided by each
ledger for itself, so that this is asked for (`ReachAlike`); it then makes no difference to any
operation (`lockstep_operation`). An operation accesses nothing but the storage of the address that
its key begins with, so that it is enough if that goes in lockstep (`lockstep_operation_under`).
-/

namespace ContractHost

open Fallible (Lockstep)

namespace Store

variable {σ τ α : Type} {rel : σ → τ → Prop}

/-- The ledgers are related and the meters are the same. -/
structure Matches (rel : σ → τ → Prop) (store : Store σ) (store' : Store τ) : Prop where
  ledger : rel store.ledger store'.ledger
  meter : store.meter = store'.meter

theorem matches_eq {store store' : Store σ} : Matches Eq store store' ↔ store = store' := by
  constructor
  · rintro ⟨ledger, meter⟩
    cases store
    cases store'
    cases ledger
    cases meter
    rfl
  · rintro rfl
    exact ⟨rfl, rfl⟩

theorem lockstep_onLedger {step : LedgerM σ α} {step' : LedgerM τ α}
    (lockstep : Lockstep rel step step') :
    Lockstep (Matches rel) (onLedger step) (onLedger step') := by
  intro store store' same
  have agree := LedgerM.lockstep_toRuntime lockstep _ _ same.ledger
  exact ⟨agree.result, ⟨agree.state, same.meter⟩⟩

theorem lockstep_charge (amount : Gas) :
    Lockstep (Matches rel) (charge amount : StoreM σ Unit) (charge amount) := by
  intro store store' same
  rw [eval_charge, eval_charge, same.meter]
  split
  · exact ⟨rfl, ⟨same.ledger, rfl⟩⟩
  · exact ⟨rfl, ⟨same.ledger, rfl⟩⟩

/-- Every operation begins by working out the head of its key and taking a charge. -/
theorem lockstep_paid (key : Bytes) (amount : Gas) {f : Cell → StoreM σ α} {f' : Cell → StoreM τ α}
    (later : Lockstep (Matches rel) (f (headCell key)) (f' (headCell key))) :
    Lockstep (Matches rel)
      ((liftM (parseKey key) : StoreM σ Cell) >>= fun head => charge amount >>= fun _ => f head)
      ((liftM (parseKey key) : StoreM τ Cell) >>=
        fun head => charge amount >>= fun _ => f' head) := by
  rcases Nat.lt_or_ge 20 key.length with long | short
  · rw [parseKey_of_lt long]
    intro store store' same
    have agree := ((lockstep_charge amount).bind fun _ => later) store store' same
    rw [Fallible.eval_bind, Fallible.eval_bind, Fallible.eval_liftM, Fallible.eval_liftM]
    exact agree
  · rw [parseKey_of_le short]
    intro store store' same
    rw [Fallible.eval_bind, Fallible.eval_bind, Fallible.eval_liftM, Fallible.eval_liftM]
    exact ⟨rfl, same⟩

variable [Ledger σ] [Ledger τ] {owner : Address}

/-- The accesses to the storage of an address go in lockstep. -/
structure InStepUnder (owner : Address) (rel : σ → τ → Prop) : Prop where
  getStorage : ∀ cell, cell.owner = owner →
    Lockstep rel (Ledger.getStorage cell : LedgerM σ _) (Ledger.getStorage cell)
  setStorage : ∀ cell value, cell.owner = owner →
    Lockstep rel (Ledger.setStorage cell value : LedgerM σ _) (Ledger.setStorage cell value)

theorem inStepUnder_of_inStep (inStep : Ledger.InStep rel) (owner : Address) :
    InStepUnder owner rel :=
  ⟨fun cell _ => inStep.getStorage cell, fun cell value _ => inStep.setStorage cell value⟩

/-! ## Loops -/

theorem lockstep_readLinks (inStep : InStepUnder owner rel) (first : Cell) (room : Nat)
    {cell : Cell} (owned : cell.owner = owner) :
    Lockstep (Matches rel) (readLinks first room cell : StoreM σ _)
      (readLinks first room cell) := by
  induction room generalizing cell with
  | zero => exact .throw _
  | succ room ih =>
    apply (lockstep_onLedger (inStep.getStorage cell owned)).bind
    intro word
    split
    · have next : (nextCell cell).owner = owner := owned
      exact (ih next).bind fun links => .pure _
    · exact .pure _

theorem lockstep_writeWords (inStep : InStepUnder owner rel) {cell : Cell}
    (owned : cell.owner = owner) (words : List Word) :
    Lockstep (Matches rel) (writeWords cell words : StoreM σ _) (writeWords cell words) := by
  induction words generalizing cell with
  | nil => exact .pure _
  | cons word words ih =>
    apply (lockstep_onLedger (inStep.setStorage cell word owned)).bind
    intro _
    have next : (nextCell cell).owner = owner := owned
    exact ih next

theorem lockstep_eraseLinks (inStep : InStepUnder owner rel) (first : Cell) (room : Nat)
    {cell : Cell} (owned : cell.owner = owner) :
    Lockstep (Matches rel) (eraseLinks first room cell : StoreM σ _)
      (eraseLinks first room cell) := by
  induction room generalizing cell with
  | zero => exact .throw _
  | succ room ih =>
    apply (lockstep_onLedger (inStep.getStorage cell owned)).bind
    intro word
    apply (lockstep_onLedger (inStep.setStorage cell .zero owned)).bind
    intro _
    split
    · have next : (nextCell cell).owner = owner := owned
      exact (ih next).bind fun count => .pure _
    · exact .pure _

/-! ## Operations -/

/-- Each ledger following the chains of an address as far as it does itself, reading and clearing
them go in lockstep. -/
structure ReachAlikeUnder (owner : Address) (rel : σ → τ → Prop) : Prop where
  readLinks : ∀ head, head.owner = owner → Lockstep (Matches rel)
    (reach >>= fun room => Store.readLinks head room head : StoreM σ _)
    (reach >>= fun room => Store.readLinks head room head)
  eraseLinks : ∀ head, head.owner = owner → Lockstep (Matches rel)
    (reach >>= fun room => Store.eraseLinks head room head : StoreM σ _)
    (reach >>= fun room => Store.eraseLinks head room head)

variable (rel) in
/-- Each ledger following chains as far as it does itself, reading and clearing go in lockstep. -/
structure ReachAlike : Prop where
  readLinks : ∀ head, Lockstep (Matches rel)
    (reach >>= fun room => Store.readLinks head room head : StoreM σ _)
    (reach >>= fun room => Store.readLinks head room head)
  eraseLinks : ∀ head, Lockstep (Matches rel)
    (reach >>= fun room => Store.eraseLinks head room head : StoreM σ _)
    (reach >>= fun room => Store.eraseLinks head room head)

theorem lockstep_readChain (alike : ReachAlikeUnder owner rel) {head : Cell}
    (owned : head.owner = owner) :
    Lockstep (Matches rel) (readChain head : StoreM σ _) (readChain head) := by
  unfold readChain
  rw [← bind_assoc, ← bind_assoc]
  apply (alike.readLinks head owned).bind
  intro links
  split
  · exact .pure _
  · exact .pure _

section

variable (costs : StorageCosts) {key : Bytes} (owned : (headCell key).owner = owner)
  (inStep : InStepUnder owner rel) (alike : ReachAlikeUnder owner rel)
include owned alike

theorem lockstep_get : Lockstep (Matches rel) (get costs key : StoreM σ _) (get costs key) := by
  apply lockstep_paid key
  apply (lockstep_readChain alike owned).bind
  intro links
  apply (Lockstep.liftM _).bind
  intro value
  exact (lockstep_charge _).bind fun _ => .pure _

theorem lockstep_delete :
    Lockstep (Matches rel) (delete costs key : StoreM σ _) (delete costs key) := by
  apply lockstep_paid key
  rw [← bind_assoc, ← bind_assoc]
  exact (alike.eraseLinks _ owned).bind fun count => .pure _

include inStep

theorem lockstep_put (value : Bytes) :
    Lockstep (Matches rel) (put costs key value : StoreM σ _) (put costs key value) := by
  apply lockstep_paid key
  apply (lockstep_readChain alike owned).bind
  intro links
  exact (lockstep_writeWords inStep owned _).bind fun _ => .pure _

end

/-- An operation goes in lockstep when the accesses under the address of its key do. -/
theorem lockstep_operation_under (costs : StorageCosts) {operation : Operation}
    (owned : (headCell operation.key).owner = owner) (inStep : InStepUnder owner rel)
    (alike : ReachAlikeUnder owner rel) :
    Lockstep (Matches rel) (operation.run costs : StoreM σ _) (operation.run costs) := by
  cases operation with
  | put key value => exact lockstep_put costs owned inStep alike value
  | get key => exact lockstep_get costs owned alike
  | getBytes key => exact (lockstep_get costs owned alike).bind fun found => .pure _
  | contains key => exact (lockstep_get costs owned alike).bind fun found => .pure _
  | delete key => exact lockstep_delete costs owned alike
  | set type key value =>
    exact lockstep_paid key _ (lockstep_onLedger (inStep.setStorage _ _ owned))
  | load type key =>
    have word : Lockstep (Matches rel) (getWord costs key : StoreM σ _) (getWord costs key) :=
      lockstep_paid key _ (lockstep_onLedger (inStep.getStorage _ owned))
    exact word.bind fun content => .pure (type.ofWord content)
  | clear key => exact lockstep_paid key _ (lockstep_onLedger (inStep.setStorage _ .zero owned))

/-- How far either of two ledgers follows a chain, it follows it to its end, when both bound what
the address holds in the second. -/
theorem reachAlikeUnder_of_bound {content : τ → Cell → Word} (plain : Ledger.Plain content)
    (inStep : InStepUnder owner rel)
    (live : ∀ ledger ledger', rel ledger ledger' →
      LiveBound (under owner (content ledger'))
        (min (Ledger.slotBound ledger) (Ledger.slotBound ledger'))) :
    ReachAlikeUnder owner rel := by
  constructor
  · rintro head rfl store store' same
    have agree := lockstep_readLinks inStep head (Ledger.slotBound store.ledger + 1) rfl store
      store' same
    have room := eval_readLinks_of_bound plain store' head (live _ _ same.ledger)
      (Nat.lt_succ_of_le (Nat.min_le_left _ _)) (Nat.lt_succ_of_le (Nat.min_le_right _ _))
    rw [room] at agree
    rw [Fallible.eval_bind, Fallible.eval_bind]
    exact agree
  · rintro head rfl store store' same
    have agree := lockstep_eraseLinks inStep head (Ledger.slotBound store.ledger + 1) rfl store
      store' same
    have room := eval_eraseLinks_of_bound plain store' head (live _ _ same.ledger)
      (Nat.lt_succ_of_le (Nat.min_le_left _ _)) (Nat.lt_succ_of_le (Nat.min_le_right _ _))
    rw [room] at agree
    rw [Fallible.eval_bind, Fallible.eval_bind]
    exact agree

/-- Two ledgers that bound their slots alike follow a chain equally far. -/
theorem reachAlikeUnder_of_slotBound (inStep : InStepUnder owner rel)
    (alike : ∀ ledger ledger', rel ledger ledger' →
      Ledger.slotBound ledger = Ledger.slotBound ledger') :
    ReachAlikeUnder owner rel := by
  have reach : Lockstep (Matches rel) (reach : StoreM σ Nat) reach := fun store store' same =>
    ⟨congrArg (fun bound => Except.ok (bound + 1)) (alike _ _ same.ledger), same⟩
  constructor
  · exact fun head owned => reach.bind fun room => lockstep_readLinks inStep head room owned
  · exact fun head owned => reach.bind fun room => lockstep_eraseLinks inStep head room owned

/-- An operation keeps what every access under the address of its key keeps. -/
theorem keeps_operation (costs : StorageCosts) {operation : Operation}
    (owned : (headCell operation.key).owner = owner) (kept : σ → Prop)
    (reads : ∀ cell ledger, cell.owner = owner → kept ledger →
      kept (Fallible.eval (Ledger.getStorage cell) ledger).2)
    (writes : ∀ cell value ledger, cell.owner = owner → kept ledger →
      kept (Fallible.eval (Ledger.setStorage cell value) ledger).2)
    {store : Store σ} (start : kept store.ledger) :
    kept (Fallible.eval (operation.run costs) store).2.ledger := by
  -- What is kept by one ledger is kept in lockstep with itself.
  let rel : σ → σ → Prop := fun ledger ledger' => ledger = ledger' ∧ kept ledger
  have inStep : InStepUnder owner rel := by
    constructor
    · rintro cell owned ledger _ ⟨rfl, here⟩
      exact ⟨rfl, rfl, reads cell ledger owned here⟩
    · rintro cell value owned ledger _ ⟨rfl, here⟩
      exact ⟨rfl, rfl, writes cell value ledger owned here⟩
  have alike : ReachAlikeUnder owner rel :=
    reachAlikeUnder_of_slotBound inStep fun _ _ same => congrArg Ledger.slotBound same.1
  have agree := lockstep_operation_under costs owned inStep alike store store ⟨⟨rfl, start⟩, rfl⟩
  exact agree.state.ledger.2

/-- Every operation of the store goes in lockstep. -/
theorem lockstep_operation (inStep : Ledger.InStep rel) (alike : ReachAlike rel)
    (costs : StorageCosts) (operation : Operation) :
    Lockstep (Matches rel) (operation.run costs : StoreM σ _) (operation.run costs) :=
  lockstep_operation_under costs rfl (inStepUnder_of_inStep inStep _)
    ⟨fun head _ => alike.readLinks head, fun head _ => alike.eraseLinks head⟩

end Store

/-! ## Ledgers that correspond -/

/-- Whatever the host does with two related ledgers goes in lockstep. -/
structure Ledger.Corresponds {σ τ : Type} [Ledger σ] [Ledger τ] (rel : σ → τ → Prop) :
    Prop where
  operation : ∀ operation : Ledger.Operation,
    Lockstep rel (operation.run (σ := σ)) (operation.run (σ := τ))
  transfer : ∀ sender recipient amount,
    Lockstep rel (Ledger.transfer sender recipient amount : RuntimeM σ _)
      (Ledger.transfer sender recipient amount)
  store : ∀ (costs : StorageCosts) (operation : Store.Operation),
    Lockstep (Store.Matches rel) (operation.run costs : StoreM σ _) (operation.run costs)

theorem Ledger.corresponds_eq {σ : Type} [Ledger σ] :
    Ledger.Corresponds (Eq : σ → σ → Prop) where
  operation _ := .refl _
  transfer _ _ _ := .refl _
  store costs operation := by
    intro store store' same
    obtain rfl := Store.matches_eq.1 same
    exact ⟨rfl, Store.matches_eq.2 rfl⟩

theorem Ledger.InStep.corresponds {σ τ : Type} [Ledger σ] [Ledger τ] {rel : σ → τ → Prop}
    (inStep : Ledger.InStep rel) (alike : Store.ReachAlike rel) : Ledger.Corresponds rel where
  operation := inStep.operation
  transfer := inStep.transfer
  store := Store.lockstep_operation inStep alike

end ContractHost
