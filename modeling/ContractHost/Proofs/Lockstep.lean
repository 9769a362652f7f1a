import Mathlib
import ContractHost.Ledger.Operation
import ContractHost.Ledger.Transfer
import ContractHost.Proofs.Fallible

/-!
# Lockstep

The same steps on two states that `rel` relates: they come to the same result and leave states that
are related again (`Agree`). What goes in lockstep one step at a time goes in lockstep when it is put
together (`Lockstep.bind`), so two ledgers whose four accesses do (`Ledger.InStep`) cannot be told
apart by any operation that is built on them.
-/

namespace ContractHost

/-- Two outcomes with the same result and related states. -/
structure Agree {σ τ α : Type} (rel : σ → τ → Prop) (p : α × σ) (q : α × τ) : Prop where
  result : p.1 = q.1
  state : rel p.2 q.2

namespace Fallible

variable {ε δ σ τ α β : Type} {rel : σ → τ → Prop}

/-- From related states two steps come to outcomes that agree. -/
def Lockstep (rel : σ → τ → Prop) (step : Fallible ε σ α) (step' : Fallible ε τ α) : Prop :=
  ∀ s t, rel s t → Agree rel (eval step s) (eval step' t)

namespace Lockstep

theorem refl (step : Fallible ε σ α) : Lockstep Eq step step := by
  intro s t same
  subst same
  exact ⟨rfl, rfl⟩

theorem pure (a : α) : Lockstep rel (Pure.pure a : Fallible ε σ α) (Pure.pure a) :=
  fun _ _ related => ⟨rfl, related⟩

theorem throw (e : ε) :
    Lockstep rel (MonadExcept.throw e : Fallible ε σ α) (MonadExcept.throw e) :=
  fun _ _ related => ⟨rfl, related⟩

/-- Nothing comes after a failure. -/
theorem throw_bind (e : ε) (f : α → Fallible ε σ β) (f' : α → Fallible ε τ β) :
    Lockstep rel (MonadExcept.throw e >>= f) (MonadExcept.throw e >>= f') :=
  fun _ _ related => ⟨rfl, related⟩

theorem liftM (result : Except ε α) :
    Lockstep rel (MonadLiftT.monadLift result : Fallible ε σ α) (MonadLiftT.monadLift result) :=
  fun _ _ related => ⟨rfl, related⟩

end Lockstep

/-- What goes on from outcomes that agree. -/
theorem agree_proceed {f : α → Fallible ε σ β} {f' : α → Fallible ε τ β} {p : Except ε α × σ}
    {q : Except ε α × τ} (agree : Agree rel p q) (later : ∀ a, Lockstep rel (f a) (f' a)) :
    Agree rel (proceed f p) (proceed f' q) := by
  obtain ⟨result, s⟩ := p
  obtain ⟨result', t⟩ := q
  obtain ⟨same, related⟩ := agree
  have here : result = result' := same
  subst here
  cases result with
  | error e => exact ⟨rfl, related⟩
  | ok a => exact later a s t related

theorem Lockstep.bind {step : Fallible ε σ α} {step' : Fallible ε τ α} {f : α → Fallible ε σ β}
    {f' : α → Fallible ε τ β} (first : Lockstep rel step step')
    (later : ∀ a, Lockstep rel (f a) (f' a)) : Lockstep rel (step >>= f) (step' >>= f') := by
  intro s t related
  rw [eval_bind, eval_bind]
  exact agree_proceed (first s t related) later

end Fallible

open Fallible (Lockstep)

theorem LedgerM.lockstep_toRuntime {σ τ α : Type} {rel : σ → τ → Prop} {step : LedgerM σ α}
    {step' : LedgerM τ α} (lockstep : Lockstep rel step step') :
    Lockstep rel step.toRuntime step'.toRuntime := by
  intro s t related
  have agree := lockstep s t related
  rw [LedgerM.eval_toRuntime, LedgerM.eval_toRuntime]
  exact ⟨congrArg (Except.mapError RuntimeError.storage) agree.result, agree.state⟩

namespace Ledger

variable {σ τ : Type} [Ledger σ] [Ledger τ] {rel : σ → τ → Prop}

/-- The four accesses to two ledgers go in lockstep. -/
structure InStep (rel : σ → τ → Prop) : Prop where
  getAccount : ∀ address,
    Lockstep rel (Ledger.getAccount address : LedgerM σ _) (Ledger.getAccount address)
  setAccount : ∀ address account,
    Lockstep rel (Ledger.setAccount address account : LedgerM σ _)
      (Ledger.setAccount address account)
  getStorage : ∀ cell, Lockstep rel (Ledger.getStorage cell : LedgerM σ _) (Ledger.getStorage cell)
  setStorage : ∀ cell value,
    Lockstep rel (Ledger.setStorage cell value : LedgerM σ _) (Ledger.setStorage cell value)

namespace InStep

theorem balance (inStep : InStep rel) (address : Address) :
    Lockstep rel (Ledger.balance address : LedgerM σ _) (Ledger.balance address) :=
  (inStep.getAccount address).bind fun account? => .pure (account?.getD .empty).balance

theorem addBalance (inStep : InStep rel) (address : Address) (amount : Balance) :
    Lockstep rel (Ledger.addBalance address amount : LedgerM σ _)
      (Ledger.addBalance address amount) := by
  apply (inStep.getAccount address).bind
  intro account?
  dsimp only
  split
  · exact .throw_bind _ _ _
  · exact inStep.setAccount address _

theorem subBalance (inStep : InStep rel) (address : Address) (amount : Balance) :
    Lockstep rel (Ledger.subBalance address amount : LedgerM σ _)
      (Ledger.subBalance address amount) := by
  apply (inStep.getAccount address).bind
  intro account?
  dsimp only
  split
  · exact .pure false
  · exact (inStep.setAccount address _).bind fun _ => .pure true

theorem operation (inStep : InStep rel) (operation : Operation) :
    Lockstep rel (operation.run (σ := σ)) (operation.run (σ := τ)) := by
  cases operation with
  | getAccount address => exact inStep.getAccount address
  | accountExists address =>
    exact (inStep.getAccount address).bind fun account? => .pure account?.isSome
  | balance address => exact inStep.balance address
  | setAccount address account => exact inStep.setAccount address account
  | addBalance address amount => exact inStep.addBalance address amount
  | subBalance address amount => exact inStep.subBalance address amount
  | getStorage cell => exact inStep.getStorage cell
  | setStorage cell value => exact inStep.setStorage cell value

theorem transfer (inStep : InStep rel) (sender recipient : Address) (amount : Balance) :
    Lockstep rel (Ledger.transfer sender recipient amount : RuntimeM σ _)
      (Ledger.transfer sender recipient amount) := by
  apply (LedgerM.lockstep_toRuntime (inStep.balance sender)).bind
  intro available
  dsimp only
  split
  · exact .throw_bind _ _ _
  split
  · exact .pure false
  apply (LedgerM.lockstep_toRuntime (inStep.subBalance sender amount)).bind
  intro taken
  split
  · exact .throw_bind _ _ _
  · apply (LedgerM.lockstep_toRuntime (inStep.addBalance recipient amount)).bind
    intro _
    exact .pure true

end InStep

end Ledger

end ContractHost
