import Mathlib
import ContractHost.Store

/-!
# Running steps

`Fallible.eval` is what a step makes of a state: its result and the state it leaves. The steps of
the host are put together by `do`, and the equations here take such a block apart from the front:
`eval_bind` says that a step which fails is the last one and keeps what it did to the state.
-/

namespace ContractHost

namespace Fallible

variable {ε σ α β : Type}

/-- The result of a step from a state, and the state it leaves. -/
def eval (step : Fallible ε σ α) (s : σ) : Except ε α × σ := step.run.run s

/-- Goes on with a result from the state it was left in, unless it is a failure. -/
def proceed (f : α → Fallible ε σ β) : Except ε α × σ → Except ε β × σ
  | (.ok a, s) => (f a).eval s
  | (.error e, s) => (.error e, s)

@[simp] theorem proceed_ok (f : α → Fallible ε σ β) (a : α) (s : σ) :
    proceed f (.ok a, s) = (f a).eval s := rfl

@[simp] theorem proceed_error (f : α → Fallible ε σ β) (e : ε) (s : σ) :
    proceed f (.error e, s) = (.error e, s) := rfl

theorem proceed_pure (r : Except ε α × σ) : proceed (fun a => pure a) r = r := by
  rcases r with ⟨e | a, s⟩
  · rfl
  · rfl

/-- Going on to a plain result changes nothing more. -/
@[simp] theorem snd_proceed_pure (f : α → β) (r : Except ε α × σ) :
    (proceed (fun a => pure (f a)) r).2 = r.2 := by
  rcases r with ⟨e | a, s⟩
  · rfl
  · rfl

theorem eval_bind (step : Fallible ε σ α) (f : α → Fallible ε σ β) (s : σ) :
    eval (step >>= f) s = proceed f (eval step s) := by
  change StateT.bind step.run (ExceptT.bindCont f) s = proceed f (step.run s)
  unfold StateT.bind
  rcases step.run s with ⟨e | a, t⟩
  · rfl
  · rfl

@[simp] theorem eval_pure (a : α) (s : σ) : eval (pure a : Fallible ε σ α) s = (.ok a, s) := rfl

@[simp] theorem eval_throw (e : ε) (s : σ) :
    eval (throw e : Fallible ε σ α) s = (.error e, s) := rfl

@[simp] theorem eval_get (s : σ) : eval (get : Fallible ε σ σ) s = (.ok s, s) := rfl

@[simp] theorem eval_modify (f : σ → σ) (s : σ) :
    eval (modify f : Fallible ε σ PUnit) s = (.ok ⟨⟩, f s) := rfl

@[simp] theorem eval_lift (step : StateM σ α) (s : σ) :
    eval (liftM step : Fallible ε σ α) s = (.ok (step.run s).1, (step.run s).2) := rfl

@[simp] theorem eval_liftM (r : Except ε α) (s : σ) :
    eval (liftM r : Fallible ε σ α) s = (r, s) := rfl

end Fallible

/-- As a step of the host a ledger step does the same, and its failures are named as the ledger's. -/
theorem LedgerM.eval_toRuntime {σ α : Type} (step : LedgerM σ α) (s : σ) :
    Fallible.eval step.toRuntime s =
      ((Fallible.eval step s).1.mapError .storage, (Fallible.eval step s).2) := rfl

end ContractHost
