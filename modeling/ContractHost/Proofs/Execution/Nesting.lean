import Mathlib
import ContractHost.Proofs.Execution.Actors

/-!
# How deep calls nest

Contracts may call themselves and each other in cycles, and calls may be free. What bounds their
nesting is the stack alone: a frame beyond its bound is refused before a handler runs, so that a
handler always finds between one frame and as many as the bound allows (`Within`).

`Finishes` describes runs without any bound on the calls that may be made: it says of each request
what comes next, and counts how deep handlers nest. Every run of every program finishes, and nests
no deeper than the stack allows (`finishes_run`); there is only one way in which it can
(`Finishes.unique`). The limit by which calls are defined is thus never what stops them.
-/

namespace ContractHost

namespace CallStack

/-- The entry stays, any other frame comes off. -/
theorem depth_pop (stack : CallStack) :
    stack.depth ≤ 1 ∧ stack.pop.depth = stack.depth ∨ stack.pop.depth + 1 = stack.depth := by
  obtain ⟨frames, maxDepth⟩ := stack
  rcases frames with _ | ⟨top, _ | ⟨next, rest⟩⟩
  · simp [pop, depth]
  · simp [pop, depth]
  · simp [pop, depth]

/-- A stack with a frame beyond its bound is refused. -/
theorem validate_push_of_full {stack : CallStack} (full : stack.maxDepth ≤ stack.depth)
    (frame : Frame) :
    (stack.push frame).validate =
      .error (.contextDepthExceeded (stack.depth + 1) stack.maxDepth) := by
  have beyond : (stack.push frame).maxDepth < (stack.push frame).depth := by
    rw [maxDepth_push, depth_push]
    omega
  unfold validate
  rw [if_neg (by simp [isEmpty, push]), if_pos beyond]
  rfl

end CallStack

namespace Environment

variable {σ ω α : Type} [Ledger σ] {environment : Environment ω}

/-! ## Calls beyond the bound -/

omit [Ledger σ] in
/-- A frame beyond the bound is refused for the basic gas, before anything else is looked at. -/
theorem eval_resolve_of_full {x : Execution σ ω} (full : x.stack.maxDepth ≤ x.stack.depth)
    (frame : Frame) :
    Fallible.eval environment.resolve (x.enter frame) =
      if x.meter.remaining < environment.basicGas then
        (.error (.insufficientGas environment.basicGas x.meter.remaining),
          { x.enter frame with meter := ⟨0⟩ })
      else
        (.error (.contextDepthExceeded (x.stack.depth + 1) x.stack.maxDepth),
          { x.enter frame with meter := ⟨x.meter.remaining - environment.basicGas⟩ }) := by
  have looked : environment.lookup (x.enter frame).stack =
      .error (.contextDepthExceeded (x.stack.depth + 1) x.stack.maxDepth) := by
    unfold lookup
    rw [show (x.enter frame).stack = x.stack.push frame from rfl,
      CallStack.validate_push_of_full full]
    rfl
  rw [eval_resolve, looked]
  rfl

variable (environment) in
/-- A call of a frame beyond the bound fails, takes the basic gas and nothing else, and starts no
handler. -/
theorem call_of_full {x : Execution σ ω} (full : x.stack.maxDepth ≤ x.stack.depth)
    (enough : environment.basicGas ≤ x.meter.remaining) (frame : Frame) :
    let cause := RuntimeError.contextDepthExceeded (x.stack.depth + 1) x.stack.maxDepth
    let refused : Execution σ ω :=
      { x.enter frame with meter := ⟨x.meter.remaining - environment.basicGas⟩ }
    let after := environment.leave frame (.error cause) refused
    Fallible.eval (environment.call frame) x = (.error cause, after) ∧
      environment.callSteps frame x =
        [⟨x, .dispatched frame (.error cause), refused⟩,
          ⟨refused, .returned frame (.error cause), after⟩] := by
  intro cause refused after
  have found : Fallible.eval environment.resolve (x.enter frame) = (.error cause, refused) :=
    (eval_resolve_of_full full frame).trans (if_neg (UInt64.not_lt.2 enough))
  constructor
  · rw [eval_call, eval_callWithin_succ, eval_dispatch, found]
  · rw [callSteps, callStepsWithin, eval_dispatch, found]
    rfl

/-! ## The depth at every point of a run -/

/-- How deep the stack is while calls are open, when it started without a frame. It holds at most
the entry besides the frames of the open calls, and while a handler runs no more frames than the
bound allows. -/
structure Within (bound : Nat) (calls : List OpenCall) (x : Execution σ ω) : Prop where
  maxDepth : x.stack.maxDepth = bound
  lower : calls.length ≤ x.stack.depth
  upper : x.stack.depth ≤ calls.length + 1
  frames : x.stack.depth ≤ bound + 1
  handler : ∀ call below invocation, calls = call :: below → call.invocation? = some invocation →
    x.stack.depth ≤ bound

omit [Ledger σ] in
/-- Whoever acts finds the stack within its bound. -/
theorem Within.depth_le {bound : Nat} (pos : 1 ≤ bound) {calls : List OpenCall} {x : Execution σ ω}
    (within : Within bound calls x) {actor : Option Invocation} (acts : Acts actor calls) :
    x.stack.depth ≤ bound := by
  cases acts with
  | program => exact within.upper.trans pos
  | handler invocation calls => exact within.handler _ _ invocation rfl rfl

omit [Ledger σ] in
/-- One more call is open, and one more frame on the stack. -/
theorem Within.push {bound : Nat} {calls : List OpenCall} {x y : Execution σ ω} {frame : Frame}
    (within : Within bound calls x) (below : x.stack.depth ≤ bound)
    (pushed : y.stack = x.stack.push frame) (opened : OpenCall)
    (accepted : ∀ invocation, opened.invocation? = some invocation → y.stack.depth ≤ bound) :
    Within bound (opened :: calls) y := by
  obtain ⟨maxDepth, lower, upper, -, -⟩ := within
  have deeper : y.stack.depth = x.stack.depth + 1 := by rw [pushed, CallStack.depth_push]
  refine ⟨?_, ?_, ?_, ?_, ?_⟩
  · rw [pushed, CallStack.maxDepth_push, maxDepth]
  · rw [List.length_cons]
    omega
  · rw [List.length_cons]
    omega
  · omega
  · intro call below invocation same invoked
    cases same
    exact accepted invocation invoked

omit [Ledger σ] in
/-- The innermost call has returned, and its frame is off the stack unless it was the only one. -/
theorem Within.pop {bound : Nat} (pos : 1 ≤ bound) {call : OpenCall} {calls : List OpenCall}
    {x y : Execution σ ω} (within : Within bound (call :: calls) x)
    (popped : y.stack = x.stack.pop) :
    Within bound calls y := by
  obtain ⟨maxDepth, lower, upper, frames, -⟩ := within
  rw [List.length_cons] at lower upper
  have depth := x.stack.depth_pop
  rw [← popped] at depth
  refine ⟨?_, by omega, by omega, by omega, fun _ _ _ _ _ => by omega⟩
  rw [popped, CallStack.maxDepth_pop, maxDepth]

/-- Every step keeps the stack within its bound. -/
theorem Within.step {allowed : Option Invocation → Request ω → Prop} {bound : Nat}
    (pos : 1 ≤ bound) {calls : List OpenCall} {step : Step σ ω}
    (taken : environment.Taken allowed calls step) (within : Within bound calls step.before) :
    Within bound (step.action.track calls) step.after := by
  have stacked := taken.stackStep.stack
  cases taken with
  | @answered actor calls x y request reply acts other now here =>
    have same : y.stack = x.stack := stacked
    obtain ⟨maxDepth, lower, upper, frames, handler⟩ := within
    rw [← same] at maxDepth lower upper frames handler
    exact ⟨maxDepth, lower, upper, frames, handler⟩
  | refused acts now found =>
    exact within.push (within.depth_le pos acts) stacked _ fun _ invoked => by cases invoked
  | handled acts now found =>
    refine within.push (within.depth_le pos acts) stacked _ fun _ _ => ?_
    -- The check of the stack has accepted the frame.
    obtain ⟨target, looked, -⟩ := exists_found_of_resolve found
    have valid := depth_le_of_validate (finds_of_lookup looked).valid
    rwa [Execution.enter, CallStack.maxDepth_push, within.maxDepth,
      ← stack_of_entered found] at valid
  | returned => exact within.pop pos stacked

/-- A dispatch of a frame beyond the bound finds no handler. It fails for want of the basic gas, or
takes just that and reports how deep the frame would have been and what the bound is. -/
structure RefusesBeyond (environment : Environment ω) (bound : Nat) (step : Step σ ω) : Prop where
  refused : ∀ frame outcome, step.action = .dispatched frame outcome →
    bound ≤ step.before.stack.depth → ∃ cause, outcome = .error cause
  charged : ∀ frame outcome, step.action = .dispatched frame outcome →
    bound ≤ step.before.stack.depth → environment.basicGas ≤ step.before.meter.remaining →
      outcome = .error (.contextDepthExceeded (step.before.stack.depth + 1) bound) ∧
        step.after.meter.remaining = step.before.meter.remaining - environment.basicGas

theorem Taken.refusesBeyond {allowed : Option Invocation → Request ω → Prop}
    {calls : List OpenCall} {step : Step σ ω} (taken : environment.Taken allowed calls step) :
    environment.RefusesBeyond step.before.stack.maxDepth step := by
  cases taken with
  | answered acts other now here => exact ⟨by simp, by simp⟩
  | returned => exact ⟨by simp, by simp⟩
  | @refused actor calls x y frame cause acts now found =>
    refine ⟨?_, ?_⟩
    · intro frame' outcome same _
      cases same
      exact ⟨cause, rfl⟩
    · intro frame' outcome same full enough
      cases same
      dsimp only at full enough
      rw [eval_resolve_of_full full, if_neg (UInt64.not_lt.2 enough)] at found
      cases found
      exact ⟨rfl, rfl⟩
  | @handled actor calls x y frame invocation handler acts now found =>
    -- No handler is found there, whether the basic gas is there or not.
    have none (full : x.stack.maxDepth ≤ x.stack.depth) : False := by
      rw [eval_resolve_of_full full] at found
      split at found
      · cases found
      · cases found
    exact ⟨fun _ _ _ full => (none full).elim, fun _ _ _ full => (none full).elim⟩

/-! ## Runs without a limit -/

variable (environment) in
/-- A program finishes from an execution with a result and leaves an execution. Of a call this says
what its frame resolves to and, when that is a handler, that the handler finishes; nothing limits
how often that may happen. The number counts how deep handlers nest at most. -/
inductive Finishes : Nat → {α : Type} → Program ω α → Execution σ ω → α → Execution σ ω → Prop where
  | done {nesting : Nat} {α : Type} (result : α) (x : Execution σ ω) :
      Finishes nesting (.done result) x result x
  | answered {nesting : Nat} {α : Type} {request : Request ω} {next : request.Reply → Program ω α}
      {x y z : Execution σ ω} {reply : request.Reply} {result : α} (other : request.isCall = false)
      (here : ∀ call, (environment.answer call request).run x = (reply, y))
      (later : Finishes nesting (next reply) y result z) :
      Finishes nesting (.ask request next) x result z
  | refused {nesting : Nat} {α : Type} {frame : Frame}
      {next : Except RuntimeError Bytes → Program ω α} {x y z : Execution σ ω}
      {cause : RuntimeError} {result : α}
      (found : Fallible.eval environment.resolve (x.enter frame) = (.error cause, y))
      (later : Finishes nesting (next (.error cause))
        (environment.leave frame (.error cause) y) result z) :
      Finishes nesting (.ask (.call frame) next) x result z
  | handled {nesting : Nat} {α : Type} {frame : Frame}
      {next : Except RuntimeError Bytes → Program ω α} {x entered y z : Execution σ ω}
      {invocation : Invocation} {handler : Handler ω} {outcome : Except RuntimeError Bytes}
      {result : α}
      (found : Fallible.eval environment.resolve (x.enter frame) =
        (.ok (invocation, handler), entered))
      (inner : Finishes nesting (handler invocation).run entered outcome y)
      (later : Finishes (nesting + 1) (next outcome)
        (environment.leave frame outcome y) result z) :
      Finishes (nesting + 1) (.ask (.call frame) next) x result z

/-- What a request finishes with, the program that made it goes on with. -/
theorem Finishes.ask {nesting : Nat} {request : Request ω} {next : request.Reply → Program ω α}
    {x y z : Execution σ ω} {reply : request.Reply} {result : α}
    (first : environment.Finishes nesting (Program.request request) x reply y)
    (later : environment.Finishes nesting (next reply) y result z) :
    environment.Finishes nesting (.ask request next) x result z := by
  cases first with
  | answered other here done =>
    cases done
    exact .answered other here later
  | refused found done =>
    cases done
    exact .refused found later
  | handled found inner done =>
    cases done
    exact .handled found inner later

/-- There is only one way to finish. -/
theorem Finishes.unique {nesting nesting' : Nat} {program : Program ω α} {x y y' : Execution σ ω}
    {result result' : α} (first : environment.Finishes nesting program x result y)
    (second : environment.Finishes nesting' program x result' y') :
    result = result' ∧ y = y' := by
  induction first generalizing nesting' y' with
  | done result x =>
    cases second
    exact ⟨rfl, rfl⟩
  | answered other here later ih =>
    cases second with
    | answered other' here' later' =>
      have same := (here environment.call).symm.trans (here' environment.call)
      cases same
      exact ih later'
    | refused found' later' => cases other
    | handled found' inner' later' => cases other
  | refused found later ih =>
    cases second with
    | answered other' here' later' => cases other'
    | refused found' later' =>
      have same := found.symm.trans found'
      cases same
      exact ih later'
    | handled found' inner' later' =>
      have same := found.symm.trans found'
      cases same
  | handled found inner later ih ih' =>
    cases second with
    | answered other' here' later' => cases other'
    | refused found' later' =>
      have same := found.symm.trans found'
      cases same
    | handled found' inner' later' =>
      have same := found.symm.trans found'
      cases same
      obtain ⟨rfl, rfl⟩ := ih inner'
      exact ih' later'

theorem finishes_runWith {nesting : Nat} {call : Frame → RuntimeM (Execution σ ω) Bytes}
    (during : Execution σ ω → Prop)
    (kept : ∀ request x, during x → during ((environment.answer call request).run x).2)
    (calls : ∀ frame x, during x →
      environment.Finishes nesting (Program.request (.call frame)) x
        (Fallible.eval (call frame) x).1 (Fallible.eval (call frame) x).2)
    (program : Program ω α) {x : Execution σ ω} (start : during x) :
    environment.Finishes nesting program x ((environment.runWith call program).run x).1
      ((environment.runWith call program).run x).2 := by
  induction program generalizing x with
  | done result => exact .done result x
  | ask request next ih =>
    have rest := ih ((environment.answer call request).run x).1 (kept request x start)
    refine Finishes.ask ?_ rest
    cases called : request.isCall with
    | true =>
      cases request with
      | call frame => exact calls frame x start
      | _ => cases called
    | false =>
      refine .answered called (fun call' => ?_) (.done _ _)
      rw [answer_congr call' call called]
      rfl

/-- A call finishes, and nests no deeper than frames may be put on the stack. -/
theorem finishes_callWithin (room : Nat) {nesting : Nat} (frame : Frame) {x : Execution σ ω}
    (roomy : Roomy room x.stack) (bound : x.stack.maxDepth ≤ x.stack.depth + nesting) :
    environment.Finishes nesting (Program.request (.call frame)) x
      (Fallible.eval (environment.callWithin room frame) x).1
      (Fallible.eval (environment.callWithin room frame) x).2 := by
  induction room generalizing nesting frame x with
  | zero => exact absurd roomy.1 (Nat.lt_irrefl 0)
  | succ room ih =>
    rw [eval_callWithin_succ, eval_dispatch]
    rcases found : Fallible.eval environment.resolve (x.enter frame) with
      ⟨cause | ⟨invocation, handler⟩, y⟩
    · exact .refused found (.done _ _)
    · have entered : y.stack = x.stack.push frame := stack_of_entered found
      have roomy' := roomy.enter found
      obtain ⟨target, looked, -⟩ := exists_found_of_resolve found
      have valid := depth_le_of_validate (finds_of_lookup looked).valid
      rw [Execution.enter, CallStack.maxDepth_push, CallStack.depth_push] at valid
      obtain _ | nesting := nesting
      · omega
      refine .handled found ?_ (.done _ _)
      -- While the handler runs its own frame is on top, and its calls may nest one level less.
      refine finishes_runWith (fun z => z.stack = x.stack.push frame) ?_ ?_ _ entered
      · intro request z same
        rw [← same]
        exact stack_answer_of_calls (fun frame z => stack_callWithin room frame) request
          (same ▸ rfl)
      · intro frame' z same
        refine ih frame' (same ▸ roomy') ?_
        rw [same, CallStack.maxDepth_push, CallStack.depth_push]
        omega

variable (environment) in
/-- Every run finishes, and its handlers nest no deeper than the stack allows. -/
theorem finishes_run (program : Program ω α) (x : Execution σ ω) :
    environment.Finishes x.stack.maxDepth program x ((environment.run program).run x).1
      ((environment.run program).run x).2 := by
  refine finishes_runWith (fun y => y.stack.maxDepth = x.stack.maxDepth) ?_ ?_ program rfl
  · intro request y same
    have nested := environment.nested_run (Program.request request) y
    exact (maxDepth_of_chained nested.chained nested.stackStep).trans same
  · intro frame y same
    rw [eval_call]
    have roomy : Roomy (y.stack.maxDepth + 1) y.stack := ⟨Nat.succ_pos _, by omega⟩
    exact finishes_callWithin _ frame roomy (by omega)

/-! ## Bounded nesting -/

/-- Whatever calls the program and the contracts make, with whatever gas: the stack never holds more
than one frame above its bound, and while a handler runs between one and as many as the bound
allows; a call beyond the bound starts no handler, costs the basic gas, and says how deep it would
have been. So every run finishes, even when nothing but the stack limits the calls. -/
theorem nesting_bounded (environment : Environment ω) (meter : Meter) (ledger : σ) (outside : ω)
    (program : Program ω α) (pos : 1 ≤ environment.registry.config.maxCallDepth.toNat) :
    let bound := environment.registry.config.maxCallDepth.toNat
    let start := Execution.withMeter environment meter ledger outside
    let last := (environment.run program).run start
    (∀ earlier later, environment.steps program start = earlier ++ later →
      ∃ y, Chained start earlier y ∧ Chained y later last.2 ∧ y.stack.depth ≤ bound + 1 ∧
        (∀ call below invocation, openCalls earlier = call :: below →
          call.invocation? = some invocation → 1 ≤ y.stack.depth ∧ y.stack.depth ≤ bound) ∧
        ∀ step rest, later = step :: rest → environment.RefusesBeyond bound step) ∧
      (∀ frame (x : Execution σ ω), x.stack.maxDepth = bound → bound ≤ x.stack.depth →
        environment.basicGas ≤ x.meter.remaining →
          let cause := RuntimeError.contextDepthExceeded (x.stack.depth + 1) bound
          let refused : Execution σ ω :=
            { x.enter frame with meter := ⟨x.meter.remaining - environment.basicGas⟩ }
          let after := environment.leave frame (.error cause) refused
          Fallible.eval (environment.call frame) x = (.error cause, after) ∧
            environment.callSteps frame x =
              [⟨x, .dispatched frame (.error cause), refused⟩,
                ⟨refused, .returned frame (.error cause), after⟩]) ∧
      environment.Finishes bound program start last.1 last.2 ∧
      ∀ nesting result y, environment.Finishes nesting program start result y →
        result = last.1 ∧ y = last.2 := by
  intro bound start last
  refine ⟨?_, ?_, environment.finishes_run program start, ?_⟩
  · intro earlier later parts
    have handlers : environment.registry.HandlersKeepTo fun _ _ => True :=
      Registry.handlersMake_of_forall (fun _ => trivial) _
    have along : Along (environment.Taken fun _ _ => True) [] (environment.steps program start) :=
      along_steps handlers (Program.makes_of_forall (fun _ => trivial) program) start
    have begins : Within bound [] start :=
      ⟨rfl, Nat.zero_le _, Nat.zero_le _, Nat.zero_le _, by simp⟩
    obtain ⟨y, before, after, within, along⟩ :=
      exists_of_along (Within bound) along (fun _ _ taken => .step pos taken) begins parts
    refine ⟨y, before, after, within.frames, ?_, ?_⟩
    · intro call below invocation opened invoked
      have lower := within.lower
      rw [opened, List.length_cons] at lower
      exact ⟨by omega, within.handler call below invocation opened invoked⟩
    · rintro step rest rfl
      have beyond := along.1.refusesBeyond
      rwa [after.1, within.maxDepth] at beyond
  · intro frame x maxDepth full enough
    have refused := environment.call_of_full (maxDepth ▸ full) enough frame
    rwa [maxDepth] at refused
  · intro nesting result y finishes
    exact finishes.unique (environment.finishes_run program start)

/-- A contract that calls itself with what it was called with, and costs nothing. -/
def looper : Descriptor Unit where
  address := .zero
  name := "Looper"
  entries := (∅ : Std.ExtTreeMap Selector MethodEntry).insert ⟨[0x6c, 0x6f, 0x6f, 0x70], rfl⟩
    ⟨0, "loop()", 0⟩
  handlers := [fun invocation => .mk do
    let _ ← (invocation.call invocation.address invocation.payload).run
    return .ok []]

/-- A host with this contract alone, on which calls are free and may nest three deep. -/
def loopingHost : Environment Unit where
  registry := ⟨{ Config.standard with basicGas := 0, maxCallDepth := 3 },
    (∅ : Std.ExtTreeMap Address (Descriptor Unit)).insert .zero looper⟩
  transaction := .empty
  bridge? := none

/-- Two calls of the contract, one after the other. -/
def loopTwice : Program Unit (Except RuntimeError Bytes) :=
  .ask (.call ⟨.zero, .zero, [0x6c, 0x6f, 0x6f, 0x70]⟩) fun _ =>
    .ask (.call ⟨.zero, .zero, [0x6c, 0x6f, 0x6f, 0x70]⟩) .done

/-- The first call nests three deep and the second, above the frame that the first one left, two
deep. The call below is refused each time, with no gas spent at all. -/
theorem nesting_bounded_looping :
    let start : Execution ChangeSet Unit := .withMeter loopingHost .unlimited .empty ()
    let steps := loopingHost.steps loopTwice start
    1 ≤ loopingHost.registry.config.maxCallDepth.toNat ∧
      steps.map (fun step => step.after.stack.depth) = [1, 2, 3, 4, 3, 2, 1, 1, 2, 3, 4, 3, 2, 1] ∧
      ((loopingHost.run loopTwice).run start).2.meter = .unlimited ∧
      (∃ y, Chained start (steps.take 3) y ∧ y.stack.depth ≤ 3) ∧
      ∃ result y, loopingHost.Finishes 3 loopTwice start result y := by
  intro start steps
  have pos : 1 ≤ loopingHost.registry.config.maxCallDepth.toNat := by decide
  obtain ⟨points, -, finishes, -⟩ :=
    nesting_bounded loopingHost .unlimited ChangeSet.empty () loopTwice pos
  have parts : steps = steps.take 3 ++ steps.drop 3 := (List.take_append_drop 3 steps).symm
  obtain ⟨y, before, -, -, within, -⟩ := points _ _ parts
  let frame : Frame := ⟨.zero, .zero, [0x6c, 0x6f, 0x6f, 0x70]⟩
  let opened : OpenCall := ⟨frame, some ⟨"Looper", frame, ⟨[0x6c, 0x6f, 0x6f, 0x70], rfl⟩⟩⟩
  have calls : openCalls (steps.take 3) = [opened, opened, opened] := by decide +kernel
  exact ⟨pos, by decide +kernel, by decide +kernel,
    ⟨y, before, (within opened _ _ calls rfl).2⟩, _, _, finishes⟩

end Environment

end ContractHost
