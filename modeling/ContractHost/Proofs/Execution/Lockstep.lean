import Mathlib
import ContractHost.Proofs.Execution.Frames
import ContractHost.Proofs.Store.Lockstep

/-!
# Executions in lockstep

Two executions of one host, side by side, which agree on everything but what lies at the bottom of
their stacks, the events that one of them announced before, and the log (`Execution.Beside`). Programs
that look at neither (`Request.MayLook`) go in lockstep on them, calls and all (`agree_run`), as long
as the check of the stack, which counts all the frames, comes to the same for both: where the two
bottoms are of one height that is always so, and otherwise the calls must stay below the bound
(`CallStack.Fits`).
-/

namespace ContractHost

namespace CallStack

variable {u v : List Frame} {a b : CallStack}

/-- Two stacks have the same frames above `u` and `v`. -/
structure SameAbove (u v : List Frame) (a b : CallStack) : Prop where
  maxDepth : a.maxDepth = b.maxDepth
  frames : ∃ own, (own ≠ [] ∨ u = v) ∧ a.frames = own ++ u ∧ b.frames = own ++ v

/-- One more frame is accepted above `u` just when it is above `v`, or it fits above both. -/
def Fits (u v : List Frame) (stack : CallStack) : Prop :=
  u.length = v.length ∨
    stack.depth < stack.maxDepth ∧ stack.depth + u.length < stack.maxDepth + v.length

namespace SameAbove

theorem refl (a : CallStack) : SameAbove [] [] a a :=
  ⟨rfl, a.frames, .inr rfl, (List.append_nil _).symm, (List.append_nil _).symm⟩

theorem eq (same : SameAbove u v a b) (bottoms : u = v) : a = b := by
  obtain ⟨maxDepth, own, -, frames, frames'⟩ := same
  subst bottoms
  have agree : a.frames = b.frames := frames.trans frames'.symm
  cases a
  cases b
  cases maxDepth
  cases agree
  rfl

theorem push (same : SameAbove u v a b) (frame : Frame) :
    SameAbove u v (a.push frame) (b.push frame) := by
  obtain ⟨maxDepth, own, -, frames, frames'⟩ := same
  exact ⟨maxDepth, frame :: own, .inl (List.cons_ne_nil _ _), congrArg (frame :: ·) frames,
    congrArg (frame :: ·) frames'⟩

/-- A frame that comes and goes leaves two stacks alike. -/
theorem pop_push (same : SameAbove u v a b) (frame : Frame) :
    SameAbove u v (a.push frame).pop (b.push frame).pop := by
  obtain ⟨maxDepth, own, above, frames, frames'⟩ := same
  cases own with
  | cons top own =>
    have some : a.isEmpty = false := by rw [isEmpty, frames]; rfl
    have some' : b.isEmpty = false := by rw [isEmpty, frames']; rfl
    rw [CallStack.pop_push some, CallStack.pop_push some']
    exact ⟨maxDepth, top :: own, above, frames, frames'⟩
  | nil =>
    have bottoms : u = v := above.resolve_left fun ne => ne rfl
    have equal := eq ⟨maxDepth, [], above, frames, frames'⟩ bottoms
    subst equal bottoms
    cases u with
    | nil =>
      have pushed : (a.push frame).pop.frames = [frame] ++ [] := by
        rw [CallStack.push, frames]
        rfl
      exact ⟨rfl, [frame], .inr rfl, pushed, pushed⟩
    | cons bottom rest =>
      have some : a.isEmpty = false := by rw [isEmpty, frames]; rfl
      rw [CallStack.pop_push some]
      exact ⟨rfl, [], .inr rfl, frames, frames⟩

/-- The check of the stack comes to the same for a frame that fits. -/
theorem push_validate {frame : Frame} (same : SameAbove u v (a.push frame) (b.push frame))
    (fits : b.Fits u v) : (a.push frame).validate = (b.push frame).validate := by
  obtain ⟨maxDepth, own, -, frames, frames'⟩ := same
  have depth : a.depth + 1 = own.length + u.length := by
    rw [← List.length_append, ← frames]
    rfl
  have depth' : b.depth + 1 = own.length + v.length := by
    rw [← List.length_append, ← frames']
    rfl
  have bound : a.maxDepth = b.maxDepth := maxDepth
  have nonempty : (a.push frame).isEmpty = false := rfl
  have nonempty' : (b.push frame).isEmpty = false := rfl
  rw [validate, validate, nonempty, nonempty', if_neg Bool.false_ne_true,
    if_neg Bool.false_ne_true, CallStack.maxDepth_push, CallStack.maxDepth_push,
    CallStack.depth_push, CallStack.depth_push, bound, depth, depth']
  rcases fits with equal | ⟨below, below'⟩
  · rw [equal]
  · rw [if_neg (by omega), if_neg (by omega)]

end SameAbove

end CallStack

/-- The request looks at the stack, or at the events announced before, only if that is allowed. -/
def Request.MayLook {ω : Type} (stack events : Prop) : Request ω → Prop
  | .stack => stack
  | .events => events
  | .takeEvents => events
  | _ => True

theorem Request.mayLook {ω : Type} {stack events : Prop} (looksAtStack : stack)
    (looksAtEvents : events) (request : Request ω) : request.MayLook stack events := by
  cases request with
  | stack => exact looksAtStack
  | events => exact looksAtEvents
  | takeEvents => exact looksAtEvents
  | _ => trivial

theorem Request.MayLook.mono {ω : Type} {stack events stack' events' : Prop} {request : Request ω}
    (looks : request.MayLook stack events) (framed : stack → stack')
    (announced : events → events') : request.MayLook stack' events' := by
  cases request with
  | stack => exact framed looks
  | events => exact announced looks
  | takeEvents => exact announced looks
  | _ => trivial

namespace Execution

variable {σ τ ω : Type} {ledgers : σ → τ → Prop} {earlier : List Event} {u v : List Frame}
  {x : Execution σ ω} {y : Execution τ ω}

/-- Two executions agree but for the stack, the first having announced `earlier` before. The logs are
not compared: they are never read. -/
structure Matches (ledgers : σ → τ → Prop) (earlier : List Event) (x : Execution σ ω)
    (y : Execution τ ω) : Prop where
  ledger : ledgers x.ledger y.ledger
  outside : x.outside = y.outside
  meter : x.meter = y.meter
  value : x.value = y.value
  recipient : x.recipient = y.recipient
  events : x.events = earlier ++ y.events

/-- Moreover the stack of the first has `u` at the bottom where that of the second has `v`. -/
structure Beside (ledgers : σ → τ → Prop) (earlier : List Event) (u v : List Frame)
    (x : Execution σ ω) (y : Execution τ ω) : Prop extends Matches ledgers earlier x y where
  stack : CallStack.SameAbove u v x.stack y.stack

theorem Beside.enter (beside : Beside ledgers earlier u v x y) (frame : Frame) :
    Beside ledgers earlier u v (x.enter frame) (y.enter frame) :=
  { beside with stack := beside.stack.push frame }

end Execution

namespace Environment

open Execution (Beside Matches)

variable {σ τ ω α : Type} [Ledger σ] [Ledger τ] {environment : Environment ω}
  {ledgers : σ → τ → Prop} {earlier : List Event} {u v : List Frame} {x : Execution σ ω}
  {y : Execution τ ω}

/-! ## Requests -/

omit [Ledger σ] [Ledger τ] in
theorem report_congr (beside : Beside ledgers earlier u v x y) (call : EvmCall) :
    environment.report call x = environment.report call y := by
  unfold report
  rw [beside.meter, beside.outside]

/-- Every request but a call. -/
theorem agree_answer (corresponds : Ledger.Corresponds ledgers)
    (call : Frame → RuntimeM (Execution σ ω) Bytes)
    (call' : Frame → RuntimeM (Execution τ ω) Bytes) {request : Request ω}
    (other : request.isCall = false) (looks : request.MayLook (u = v) (earlier = []))
    (beside : Beside ledgers earlier u v x y) :
    Agree (Beside ledgers earlier u v) ((environment.answer call request).run x)
      ((environment.answer call' request).run y) := by
  cases request with
  | call frame => cases other
  | evm evmCall =>
    obtain ⟨log, here⟩ := environment.answer_evm call evmCall x
    obtain ⟨log', there⟩ := environment.answer_evm call' evmCall y
    rw [here, there, report_congr beside, beside.meter]
    dsimp only
    split
    · exact ⟨rfl, { beside with outside := rfl, meter := rfl }⟩
    · exact ⟨rfl, { beside with outside := rfl, meter := rfl }⟩
  | store operation =>
    obtain ⟨log, here⟩ := environment.answer_store call operation x
    obtain ⟨log', there⟩ := environment.answer_store call' operation y
    have agree := corresponds.store environment.registry.config.storage operation
      ⟨x.ledger, x.meter⟩ ⟨y.ledger, y.meter⟩ ⟨beside.ledger, beside.meter⟩
    rw [here, there]
    exact ⟨agree.result, { beside with ledger := agree.state.ledger, meter := agree.state.meter }⟩
  | ledger operation =>
    have agree := LedgerM.lockstep_toRuntime (corresponds.operation operation) _ _ beside.ledger
    exact ⟨agree.result, { beside with ledger := agree.state }⟩
  | transfer sender recipient amount =>
    obtain ⟨log, here⟩ := environment.answer_transfer call sender recipient amount x
    obtain ⟨log', there⟩ := environment.answer_transfer call' sender recipient amount y
    have agree := corresponds.transfer sender recipient amount _ _ beside.ledger
    rw [here, there]
    exact ⟨agree.result, { beside with ledger := agree.state }⟩
  | emit address topics data =>
    rw [answer_emit, answer_emit]
    split
    · rename_i event made
      have events : x.events ++ [event] = earlier ++ (y.events ++ [event]) := by
        rw [beside.events, List.append_assoc]
      exact ⟨rfl, { beside with events := events }⟩
    · exact ⟨rfl, beside⟩
  | events =>
    have none : earlier = [] := looks
    subst none
    exact ⟨beside.events, beside⟩
  | takeEvents =>
    have none : earlier = [] := looks
    subst none
    exact ⟨beside.events, { beside with events := rfl }⟩
  | charge amount =>
    rw [answer_charge, answer_charge, beside.meter]
    split
    · exact ⟨rfl, { beside with meter := rfl }⟩
    · exact ⟨rfl, { beside with meter := rfl }⟩
  | refund amount => exact ⟨rfl, { beside with meter := congrArg (Meter.refund amount) beside.meter }⟩
  | gasLeft => exact ⟨congrArg Meter.remaining beside.meter, beside⟩
  | setValue value =>
    refine ⟨rfl, ?_⟩
    show Beside ledgers earlier u v (if value = 0 then x else _) (if value = 0 then y else _)
    split
    · exact beside
    · exact { beside with value := rfl }
  | value => exact ⟨beside.value, beside⟩
  | setRecipient address =>
    refine ⟨rfl, ?_⟩
    show Beside ledgers earlier u v (if address.isZero = true then x else _)
      (if address.isZero = true then y else _)
    split
    · exact beside
    · exact { beside with recipient := rfl }
  | recipient => exact ⟨beside.recipient, beside⟩
  | stack => exact ⟨beside.stack.eq looks, beside⟩
  | outside act => exact ⟨rfl, { beside with outside := congrArg act beside.outside }⟩
  | _ => exact ⟨rfl, beside⟩

/-! ## Dispatches -/

omit [Ledger σ] [Ledger τ] in
theorem lookup_congr {a b : CallStack} (checks : a.validate = b.validate)
    (current : a.current? = b.current?) : environment.lookup a = environment.lookup b := by
  unfold lookup
  rw [checks, current]

variable (environment) in
omit [Ledger σ] [Ledger τ] in
theorem agree_resolve {frame : Frame}
    (entered : Beside ledgers earlier u v (x.enter frame) (y.enter frame))
    (fits : y.stack.Fits u v) :
    Agree (Beside ledgers earlier u v) (Fallible.eval environment.resolve (x.enter frame))
      (Fallible.eval environment.resolve (y.enter frame)) := by
  have looked : environment.lookup (x.enter frame).stack = environment.lookup (y.enter frame).stack :=
    lookup_congr (entered.stack.push_validate fits) rfl
  rw [eval_resolve, eval_resolve, entered.meter, looked]
  split
  · exact ⟨rfl, { entered with meter := rfl }⟩
  split
  · exact ⟨rfl, { entered with meter := rfl }⟩
  split
  · exact ⟨rfl, { entered with meter := rfl }⟩
  · exact ⟨rfl, { entered with meter := rfl }⟩

/-! ## Programs and calls -/

variable (u v) in
/-- Every frame that is put on the stack fits. -/
def DispatchesFit (steps : List (Step τ ω)) : Prop :=
  ∀ step ∈ steps, step.action.isDispatch = true → step.before.stack.Fits u v

theorem agree_runWith (corresponds : Ledger.Corresponds ledgers)
    {call : Frame → RuntimeM (Execution σ ω) Bytes} {call' : Frame → RuntimeM (Execution τ ω) Bytes}
    {callSteps : Frame → Execution τ ω → List (Step τ ω)} (during : Execution τ ω → Prop)
    (kept : ∀ request y, during y → during ((environment.answer call' request).run y).2)
    (calls : ∀ frame x y, during y → Beside ledgers earlier u v x y →
      DispatchesFit u v (callSteps frame y) →
        Agree (Beside ledgers earlier u v) (Fallible.eval (call frame) x)
          (Fallible.eval (call' frame) y))
    {program : Program ω α} (makes : program.Makes (Request.MayLook (u = v) (earlier = [])))
    (beside : Beside ledgers earlier u v x y) (start : during y)
    (fits : DispatchesFit u v (environment.programSteps call' callSteps program y)) :
    Agree (Beside ledgers earlier u v) ((environment.runWith call program).run x)
      ((environment.runWith call' program).run y) := by
  induction makes generalizing x y with
  | done result => exact ⟨rfl, beside⟩
  | @ask request next now _ ih =>
    obtain ⟨fits, fits'⟩ := List.forall_mem_append.1 fits
    have here : Agree (Beside ledgers earlier u v) ((environment.answer call request).run x)
        ((environment.answer call' request).run y) := by
      cases called : request.isCall with
      | true =>
        cases request with
        | call frame => exact calls frame x y start beside fits
        | _ => cases called
      | false => exact agree_answer corresponds call call' called now beside
    have later := ih ((environment.answer call' request).run y).1 here.state
      (kept request y start) fits'
    show Agree _ ((environment.runWith call (next ((environment.answer call request).run x).1)).run
      ((environment.answer call request).run x).2) _
    rw [here.result]
    exact later

omit [Ledger σ] [Ledger τ] in
theorem matches_leave (frame : Frame) (result : Except RuntimeError Bytes)
    (same : Matches ledgers earlier x y) :
    Matches ledgers earlier (environment.leave frame result x) (environment.leave frame result y) := by
  rcases result with cause | value
  · exact { same with }
  · exact { same with }

/-- As frames come off as they went on, the stacks are alike after a call if they were before. -/
theorem agree_beside {room : Nat} (some : 0 < room) {frame : Frame}
    (beside : Beside ledgers earlier u v x y)
    (agree : Agree (Matches ledgers earlier) (Fallible.eval (environment.callWithin room frame) x)
      (Fallible.eval (environment.callWithin room frame) y)) :
    Agree (Beside ledgers earlier u v) (Fallible.eval (environment.callWithin room frame) x)
      (Fallible.eval (environment.callWithin room frame) y) := by
  obtain ⟨room, rfl⟩ := Nat.exists_eq_add_one.2 some
  refine ⟨agree.result, agree.state, ?_⟩
  rw [stack_callWithin_succ, stack_callWithin_succ]
  exact beside.stack.pop_push frame

/-- Once its frame is on both stacks a call goes in lockstep. -/
theorem agree_callWithin (corresponds : Ledger.Corresponds ledgers)
    (handlers : environment.registry.HandlersMake (Request.MayLook (u = v) (earlier = [])))
    (room : Nat) {frame : Frame}
    (entered : Beside ledgers earlier u v (x.enter frame) (y.enter frame))
    (roomy : Roomy room y.stack)
    (fits : DispatchesFit u v (environment.callStepsWithin room frame y)) :
    Agree (Matches ledgers earlier) (Fallible.eval (environment.callWithin room frame) x)
      (Fallible.eval (environment.callWithin room frame) y) := by
  -- The two stacks are alike only from the entered frame on: with nothing of their own above
  -- different bottoms they need not be, so `Beside` is asked of the entered states.
  induction room generalizing frame x y with
  | zero => exact absurd roomy.1 (Nat.lt_irrefl 0)
  | succ room ih =>
    obtain ⟨here, fits⟩ := List.forall_mem_cons.1 fits
    obtain ⟨inside, -⟩ := List.forall_mem_append.1 fits
    have found := environment.agree_resolve entered (here rfl)
    have handled : Agree (Beside ledgers earlier u v)
        (Fallible.eval (environment.dispatch (environment.callWithin room)) (x.enter frame))
        (Fallible.eval (environment.dispatch (environment.callWithin room)) (y.enter frame)) := by
      rw [eval_dispatch, eval_dispatch]
      rcases resolved : Fallible.eval environment.resolve (x.enter frame) with ⟨outcome, x'⟩
      rcases resolved' : Fallible.eval environment.resolve (y.enter frame) with ⟨outcome', y'⟩
      rw [resolved'] at inside
      rw [resolved, resolved'] at found
      have same : outcome = outcome' := found.result
      subst same
      rcases outcome with cause | ⟨invocation, handler⟩
      · exact ⟨rfl, found.state⟩
      · have entered : y'.stack = y.stack.push frame := stack_of_entered resolved'
        have roomy' := roomy.enter resolved'
        -- Throughout the handler the stack is the one it was entered with, which leaves room.
        refine agree_runWith corresponds (fun z => z.stack = y.stack.push frame) ?_ ?_
          (makes_of_resolve handlers resolved') found.state entered inside
        · intro request z same
          rw [← same]
          exact stack_answer_of_calls (fun frame z => stack_callWithin room frame) request
            (same ▸ rfl)
        · intro frame' w z same beside' fits'
          have roomy'' : Roomy room z.stack := same ▸ roomy'
          exact agree_beside roomy''.1 beside' (ih (beside'.enter frame') roomy'' fits')
    rw [eval_callWithin_succ, eval_callWithin_succ]
    refine ⟨handled.result, ?_⟩
    dsimp only
    rw [handled.result]
    exact matches_leave frame _ handled.state.toMatches

theorem agree_call (corresponds : Ledger.Corresponds ledgers)
    (handlers : environment.registry.HandlersMake (Request.MayLook (u = v) (earlier = [])))
    {frame : Frame} (entered : Beside ledgers earlier u v (x.enter frame) (y.enter frame))
    (fits : DispatchesFit u v (environment.callSteps frame y)) :
    Agree (Matches ledgers earlier) (Fallible.eval (environment.call frame) x)
      (Fallible.eval (environment.call frame) y) := by
  have bound : x.stack.maxDepth = y.stack.maxDepth := entered.stack.maxDepth
  rw [eval_call, eval_call, bound]
  exact agree_callWithin corresponds handlers _ entered ⟨Nat.succ_pos _, by omega⟩ fits

theorem agree_run (corresponds : Ledger.Corresponds ledgers)
    (handlers : environment.registry.HandlersMake (Request.MayLook (u = v) (earlier = [])))
    {program : Program ω α} (makes : program.Makes (Request.MayLook (u = v) (earlier = [])))
    (beside : Beside ledgers earlier u v x y)
    (fits : DispatchesFit u v (environment.steps program y)) :
    Agree (Beside ledgers earlier u v) ((environment.run program).run x)
      ((environment.run program).run y) := by
  refine agree_runWith corresponds (fun _ => True) (fun _ _ _ => trivial) ?_ makes beside trivial fits
  intro frame x y _ beside fits
  have called := agree_call corresponds handlers (beside.enter frame) fits
  rw [eval_call, eval_call, beside.stack.maxDepth] at called ⊢
  exact agree_beside (Nat.succ_pos _) beside called

omit [Ledger τ] in
/-- Bottoms of one height make no difference to the check. -/
theorem dispatchesFit_of_length (equal : u.length = v.length) (steps : List (Step τ ω)) :
    DispatchesFit u v steps :=
  fun _ _ _ => .inl equal

variable (environment) in
/-- From one state and two ledgers that correspond every run goes in lockstep. -/
theorem agree_run_of_same (corresponds : Ledger.Corresponds ledgers) (program : Program ω α)
    (beside : Beside ledgers [] [] [] x y) :
    Agree (Beside ledgers [] [] []) ((environment.run program).run x)
      ((environment.run program).run y) := by
  have all (request : Request ω) :
      request.MayLook (([] : List Frame) = []) (([] : List Event) = []) := request.mayLook rfl rfl
  exact agree_run corresponds (Registry.handlersMake_of_forall all _)
    (Program.makes_of_forall all program) beside (dispatchesFit_of_length rfl _)

end Environment

end ContractHost
