import Mathlib
import ContractHost.Dispatch
import ContractHost.Proofs.Store.Outcomes

/-!
# Finding and paying for a method

`Environment.lookup` is the part of a dispatch that is about the stack and the registry only.
`eval_resolve` puts it together with the charges: the basic gas first, and, as what is charged ahead
is given back, the larger of basic gas and the price of the method in all.
-/

namespace ContractHost

theorem Meter.refund_of_le {meter : Meter} {amount : Gas} (covered : amount ≤ meter.remaining) :
    (Meter.mk (meter.remaining - amount)).refund amount = meter := by
  have bound := meter.remaining.toNat_lt
  have largest := Gas.toNat_largest
  have back := Meter.toNat_remaining_refund amount ⟨meter.remaining - amount⟩
  rw [UInt64.toNat_sub_of_le _ _ covered] at back
  rw [UInt64.le_iff_toNat_le] at covered
  refine congrArg Meter.mk ?_
  rw [← UInt64.toNat_inj]
  exact back.trans (by omega)

namespace Execution

variable {σ ω α : Type} (x : Execution σ ω)

@[simp] theorem meter_note (entry : LogEntry) : (x.note entry).meter = x.meter := rfl

theorem eval_onMeter (step : RuntimeM Meter α) :
    Fallible.eval (onMeter step) x =
      ((Fallible.eval step x.meter).1, { x with meter := (Fallible.eval step x.meter).2 }) := rfl

theorem eval_onLedger (step : RuntimeM σ α) :
    Fallible.eval (onLedger step) x =
      ((Fallible.eval step x.ledger).1, { x with ledger := (Fallible.eval step x.ledger).2 }) := rfl

theorem eval_onStore (step : StoreM σ α) :
    Fallible.eval (onStore step) x =
      ((Fallible.eval step ⟨x.ledger, x.meter⟩).1,
        { x with
          ledger := (Fallible.eval step ⟨x.ledger, x.meter⟩).2.ledger
          meter := (Fallible.eval step ⟨x.ledger, x.meter⟩).2.meter }) := rfl

theorem eval_charge (amount : Gas) :
    Fallible.eval (onMeter (Meter.charge amount)) x =
      if x.meter.remaining < amount then
        (.error (.insufficientGas amount x.meter.remaining), { x with meter := ⟨0⟩ })
      else (.ok (), { x with meter := ⟨x.meter.remaining - amount⟩ }) := by
  have charged : Fallible.eval (Meter.charge amount) x.meter = _ := Meter.run_charge amount x.meter
  rw [eval_onMeter, charged]
  split
  · rfl
  · rfl

end Execution

/-- The current frame names no method of a registered contract. -/
def RuntimeError.isUnresolved : RuntimeError → Bool
  | emptyContextStack => true
  | malformedPayload _ => true
  | unknownContract _ => true
  | unknownMethod _ _ => true
  | _ => false

/-- A method that was found for the current frame. -/
structure Found (ω : Type) where
  frame : Frame
  selector : Selector
  contract : Descriptor ω
  entry : MethodEntry

namespace Environment

variable {σ ω : Type} (environment : Environment ω)

/-- The method that the current frame of a stack calls. -/
def lookup (stack : CallStack) : Except RuntimeError (Found ω) := do
  stack.validate
  let some frame := stack.current? | throw .emptyContextStack
  let some selector := Selector.ofPayload? frame.payload
    | throw (.malformedPayload frame.payload.length)
  let some contract := environment.registry.get? frame.target
    | throw (.unknownContract frame.target)
  let some entry := contract.method? selector
    | throw (.unknownMethod frame.target selector)
  return ⟨frame, selector, contract, entry⟩

/-- The gas that is charged for every call. -/
def basicGas : Gas := environment.registry.config.basicGas

/-- What calling a method costs. -/
def entryGas (found : Found ω) : Gas := max found.entry.gas environment.basicGas

theorem basicGas_le_entryGas (found : Found ω) :
    environment.basicGas ≤ environment.entryGas found := by
  show environment.basicGas ≤
    if found.entry.gas ≤ environment.basicGas then environment.basicGas else found.entry.gas
  split
  · exact UInt64.le_refl _
  · rename_i more
    exact UInt64.le_of_lt (UInt64.not_le.1 more)

/-- What is noted about a method once it is found. -/
def foundEntry (stack : CallStack) (found : Found ω) : LogEntry :=
  .dispatched found.contract.name found.entry.signature found.frame.caller stack.depth
    found.entry.gas

/-- The invocation of a method that was found, with its handler. -/
def Found.start (found : Found ω) : Except RuntimeError (Invocation × Handler ω) :=
  (found.contract.handler found.entry).map fun handler =>
    (⟨found.contract.name, found.frame, found.selector⟩, handler)

/-- The end of a dispatch whose method is found: the basic gas is given back, and the larger amount
is charged. -/
def payEntry (stack : CallStack) (found : Found ω) :
    RuntimeM (Execution σ ω) (Invocation × Handler ω) := do
  modify (·.note (foundEntry stack found))
  modify fun x => { x with meter := x.meter.refund environment.basicGas }
  Execution.onMeter (Meter.charge (environment.entryGas found))
  let handler ← found.contract.handler found.entry
  return (⟨found.contract.name, found.frame, found.selector⟩, handler)

theorem eval_payEntry (x : Execution σ ω) (enough : environment.basicGas ≤ x.meter.remaining)
    (found : Found ω) :
    Fallible.eval (environment.payEntry x.stack found)
        { x with meter := ⟨x.meter.remaining - environment.basicGas⟩ } =
      if x.meter.remaining < environment.entryGas found then
        (.error (.insufficientGas (environment.entryGas found) x.meter.remaining),
          { x.note (foundEntry x.stack found) with meter := ⟨0⟩ })
      else
        (Found.start found,
          { x.note (foundEntry x.stack found) with
            meter := ⟨x.meter.remaining - environment.entryGas found⟩ }) := by
  have noted : ({ (Execution.note { x with meter := ⟨x.meter.remaining - environment.basicGas⟩ }
      (foundEntry x.stack found)) with
        meter :=
          (Meter.mk (x.meter.remaining - environment.basicGas)).refund environment.basicGas } :
        Execution σ ω) = x.note (foundEntry x.stack found) := by
    rw [Meter.refund_of_le enough]
    rfl
  rw [payEntry, Fallible.eval_bind, Fallible.eval_modify, Fallible.proceed_ok, Fallible.eval_bind,
    Fallible.eval_modify, Fallible.proceed_ok]
  refine (congrArg _ noted).trans ?_
  rw [Fallible.eval_bind, Execution.eval_charge, Execution.meter_note]
  by_cases short : x.meter.remaining < environment.entryGas found
  · rw [if_pos short, if_pos short]
    rfl
  · rw [if_neg short, if_neg short, Fallible.proceed_ok, Fallible.eval_bind, Fallible.eval_liftM,
      Found.start]
    rcases found.contract.handler found.entry with cause | handler
    · rfl
    · rfl

theorem eval_resolve (x : Execution σ ω) :
    Fallible.eval environment.resolve x =
      if x.meter.remaining < environment.basicGas then
        (.error (.insufficientGas environment.basicGas x.meter.remaining), { x with meter := ⟨0⟩ })
      else
        match environment.lookup x.stack with
        | .error cause =>
          (.error cause, { x with meter := ⟨x.meter.remaining - environment.basicGas⟩ })
        | .ok found =>
          if x.meter.remaining < environment.entryGas found then
            (.error (.insufficientGas (environment.entryGas found) x.meter.remaining),
              { x.note (foundEntry x.stack found) with meter := ⟨0⟩ })
          else
            (Found.start found,
              { x.note (foundEntry x.stack found) with
                meter := ⟨x.meter.remaining - environment.entryGas found⟩ }) := by
  by_cases short : x.meter.remaining < environment.basicGas
  · have charged := (Execution.eval_charge x environment.basicGas).trans (if_pos short)
    rw [if_pos short, resolve, Fallible.eval_bind]
    exact congrArg _ charged
  have charged := (Execution.eval_charge x environment.basicGas).trans (if_neg short)
  rw [if_neg short, resolve, Fallible.eval_bind]
  refine (congrArg _ charged).trans ?_
  rw [Fallible.proceed_ok, Fallible.eval_bind, Fallible.eval_get, Fallible.proceed_ok,
    Fallible.eval_bind, Fallible.eval_liftM]
  -- The checks of the two run side by side, and they stop at the same one.
  unfold lookup
  cases x.stack.validate with
  | error cause => rfl
  | ok _ =>
    cases x.stack.current? with
    | none => rfl
    | some frame =>
      cases selected : Selector.ofPayload? frame.payload with
      | none =>
        simp only [selected]
        rfl
      | some selector =>
        cases registered : environment.registry.get? frame.target with
        | none =>
          simp only [selected, registered]
          rfl
        | some contract =>
          cases declared : contract.method? selector with
          | none =>
            simp only [selected, registered, declared]
            rfl
          | some entry =>
            simp only [selected, registered, declared]
            exact environment.eval_payEntry x (UInt64.not_lt.1 short)
              ⟨frame, selector, contract, entry⟩

theorem eval_resolve_of_error {x : Execution σ ω} {cause : RuntimeError}
    (looked : environment.lookup x.stack = .error cause)
    (enough : environment.basicGas ≤ x.meter.remaining) :
    Fallible.eval environment.resolve x =
      (.error cause, { x with meter := ⟨x.meter.remaining - environment.basicGas⟩ }) := by
  rw [eval_resolve, if_neg (UInt64.not_lt.2 enough), looked]

theorem eval_resolve_of_ok {x : Execution σ ω} {found : Found ω}
    (looked : environment.lookup x.stack = .ok found)
    (enough : environment.entryGas found ≤ x.meter.remaining) :
    Fallible.eval environment.resolve x =
      (Found.start found,
        { x.note (foundEntry x.stack found) with
          meter := ⟨x.meter.remaining - environment.entryGas found⟩ }) := by
  -- What is charged ahead is never more than what is charged in the end.
  have ahead : environment.basicGas ≤ x.meter.remaining :=
    UInt64.le_trans (environment.basicGas_le_entryGas found) enough
  rw [eval_resolve, if_neg (UInt64.not_lt.2 ahead), looked]
  dsimp only
  rw [if_neg (UInt64.not_lt.2 enough)]

/-- A dispatch runs out of gas, or the meter covers what it costs. -/
theorem resolve_settles (x : Execution σ ω) :
    (∃ required available log,
      Fallible.eval environment.resolve x =
        (.error (.insufficientGas required available), { x with meter := ⟨0⟩, log })) ∨
      (∃ cause, environment.lookup x.stack = .error cause ∧
        environment.basicGas ≤ x.meter.remaining) ∨
      ∃ found, environment.lookup x.stack = .ok found ∧
        environment.entryGas found ≤ x.meter.remaining := by
  by_cases short : x.meter.remaining < environment.basicGas
  · refine .inl ⟨environment.basicGas, x.meter.remaining, x.log, ?_⟩
    rw [eval_resolve, if_pos short]
  cases looked : environment.lookup x.stack with
  | error cause => exact .inr (.inl ⟨cause, rfl, UInt64.not_lt.1 short⟩)
  | ok found =>
    by_cases short' : x.meter.remaining < environment.entryGas found
    · refine .inl ⟨environment.entryGas found, x.meter.remaining,
        x.log ++ [foundEntry x.stack found], ?_⟩
      rw [eval_resolve, if_neg short, looked]
      dsimp only
      rw [if_pos short']
      rfl
    · exact .inr (.inr ⟨found, rfl, UInt64.not_lt.1 short'⟩)

/-- Whatever comes of a dispatch, it changes nothing but the meter and the log. -/
theorem exists_resolve_eq (x : Execution σ ω) :
    ∃ meter log, (Fallible.eval environment.resolve x).2 = { x with meter, log } := by
  rw [eval_resolve]
  split
  · exact ⟨_, _, rfl⟩
  · split
    · exact ⟨_, _, rfl⟩
    · split
      · exact ⟨_, _, rfl⟩
      · exact ⟨_, _, rfl⟩

theorem stack_resolve (x : Execution σ ω) :
    (Fallible.eval environment.resolve x).2.stack = x.stack := by
  obtain ⟨meter, log, same⟩ := environment.exists_resolve_eq x
  rw [same]

theorem ledger_resolve (x : Execution σ ω) :
    (Fallible.eval environment.resolve x).2.ledger = x.ledger := by
  obtain ⟨meter, log, same⟩ := environment.exists_resolve_eq x
  rw [same]

/-- A stack that is accepted has no more frames than its bound. -/
theorem depth_le_of_validate {stack : CallStack} (valid : stack.validate = .ok ()) :
    stack.depth ≤ stack.maxDepth := by
  unfold CallStack.validate at valid
  split at valid
  · cases valid
  · split at valid
    · cases valid
    · rename_i within
      exact Nat.not_lt.1 within

/-- A method that is found is declared by the contract that is registered at the frame's target. -/
structure Finds (stack : CallStack) (found : Found ω) : Prop where
  valid : stack.validate = .ok ()
  current : stack.current? = some found.frame
  selected : Selector.ofPayload? found.frame.payload = some found.selector
  registered : environment.registry.get? found.frame.target = some found.contract
  declared : found.contract.method? found.selector = some found.entry

variable {environment}

theorem isShort_of_validate {stack : CallStack} {cause : RuntimeError}
    (h : stack.validate = .error cause) : cause.isShort = false := by
  unfold CallStack.validate at h
  split at h
  · cases h
    rfl
  · split at h
    · cases h
      rfl
    · cases h

theorem isShort_of_unresolved {cause : RuntimeError} (h : cause.isUnresolved = true) :
    cause.isShort = false := by
  cases cause with
  | insufficientGas required available => cases h
  | _ => rfl

variable (environment) in
/-- The stack is refused, or its current frame names no method, or a method is found. -/
theorem lookup_cases (stack : CallStack) :
    (∃ cause, stack.validate = .error cause ∧ environment.lookup stack = .error cause) ∨
      (∃ cause, stack.validate = .ok () ∧ environment.lookup stack = .error cause ∧
        cause.isUnresolved = true) ∨
      ∃ found, environment.lookup stack = .ok found ∧ environment.Finds stack found := by
  unfold lookup
  cases valid : stack.validate with
  | error cause => exact .inl ⟨cause, rfl, rfl⟩
  | ok _ =>
    right
    cases current : stack.current? with
    | none => exact .inl ⟨_, rfl, rfl, rfl⟩
    | some frame =>
      cases selected : Selector.ofPayload? frame.payload with
      | none =>
        simp only [selected]
        exact .inl ⟨_, trivial, rfl, rfl⟩
      | some selector =>
        cases registered : environment.registry.get? frame.target with
        | none =>
          simp only [selected, registered]
          exact .inl ⟨_, trivial, rfl, rfl⟩
        | some contract =>
          cases declared : contract.method? selector with
          | none =>
            simp only [selected, registered, declared]
            exact .inl ⟨_, trivial, rfl, rfl⟩
          | some entry =>
            simp only [selected, registered, declared]
            exact .inr ⟨_, rfl, valid, current, selected, registered, declared⟩

theorem finds_of_lookup {stack : CallStack} {found : Found ω}
    (h : environment.lookup stack = .ok found) : environment.Finds stack found := by
  rcases environment.lookup_cases stack with
    ⟨cause, -, failed⟩ | ⟨cause, -, failed, -⟩ | ⟨found', looked, finds⟩
  · rw [failed] at h
    cases h
  · rw [failed] at h
    cases h
  · rw [looked] at h
    cases h
    exact finds

theorem isShort_of_lookup {stack : CallStack} {cause : RuntimeError}
    (h : environment.lookup stack = .error cause) : cause.isShort = false := by
  rcases environment.lookup_cases stack with
    ⟨cause', refused, failed⟩ | ⟨cause', -, failed, unresolved⟩ | ⟨found, looked, -⟩
  · rw [failed] at h
    cases h
    exact isShort_of_validate refused
  · rw [failed] at h
    cases h
    exact isShort_of_unresolved unresolved
  · rw [looked] at h
    cases h

theorem isShort_start (found : Found ω) : isShort (Found.start found) = false := by
  rw [Found.start, isShort_map, Descriptor.handler]
  split
  · rfl
  · rfl

/-- A dispatch that reaches a handler found its method. -/
theorem exists_found_of_resolve {x y : Execution σ ω} {invocation : Invocation}
    {handler : Handler ω}
    (h : Fallible.eval environment.resolve x = (.ok (invocation, handler), y)) :
    ∃ found, environment.lookup x.stack = .ok found ∧
      found.contract.handler found.entry = .ok handler ∧
      invocation = ⟨found.contract.name, found.frame, found.selector⟩ := by
  rw [eval_resolve] at h
  split at h
  · cases h
  · split at h
    · cases h
    · rename_i found looked
      split at h
      · cases h
      · refine ⟨found, looked, ?_⟩
        have started := congrArg Prod.fst h
        rw [Found.start] at started
        cases handled : found.contract.handler found.entry with
        | error cause =>
          rw [handled] at started
          cases started
        | ok handler' =>
          rw [handled] at started
          cases started
          exact ⟨rfl, rfl⟩

end Environment

end ContractHost
