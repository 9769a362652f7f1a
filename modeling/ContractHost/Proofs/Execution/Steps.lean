import Mathlib
import ContractHost.Proofs.Execution.Requests

/-!
# The steps of a run

A run, taken apart in the order in which things happen: a request is answered, a frame is
dispatched, a call returns. The steps of a call stand between its dispatch and its return, whatever
the depth, so that the list of steps is the whole call tree read from left to right
(`nested_steps`). It is a chain from the state before the run to the state after it
(`chained_steps`), and what holds of each kind of step holds of all steps of every run
(`forall_steps`).
-/

namespace ContractHost

/-- What one step of a run is. A dispatch tells which method was found and paid for, or why none
was. -/
inductive Action (ω : Type) where
  | answered (request : Request ω) (reply : request.Reply)
  | dispatched (frame : Frame) (outcome : Except RuntimeError Invocation)
  | returned (frame : Frame) (result : Except RuntimeError Bytes)

/-- One step of a run, with the execution before and after it. -/
structure Step (σ ω : Type) where
  before : Execution σ ω
  action : Action ω
  after : Execution σ ω

/-- Each step begins where the one before it ended. -/
def Chained {σ ω : Type} : Execution σ ω → List (Step σ ω) → Execution σ ω → Prop
  | first, [], last => first = last
  | first, step :: steps, last => step.before = first ∧ Chained step.after steps last

theorem Chained.append {σ ω : Type} {x y z : Execution σ ω} {steps later : List (Step σ ω)}
    (first : Chained x steps y) (second : Chained y later z) : Chained x (steps ++ later) z := by
  induction steps generalizing x with
  | nil =>
    have same : x = y := first
    exact same ▸ second
  | cons step steps ih => exact ⟨first.1, ih first.2⟩

theorem Chained.split {σ ω : Type} {x z : Execution σ ω} {steps later : List (Step σ ω)}
    (chained : Chained x (steps ++ later) z) : ∃ y, Chained x steps y ∧ Chained y later z := by
  induction steps generalizing x with
  | nil => exact ⟨x, rfl, chained⟩
  | cons step steps ih =>
    obtain ⟨y, first, second⟩ := ih chained.2
    exact ⟨y, ⟨chained.1, first⟩, second⟩

/-- What is not the same at the end as at the beginning was changed by one of the steps. -/
theorem Chained.exists_of_ne {σ ω β : Type} {x z : Execution σ ω} {steps : List (Step σ ω)}
    (chained : Chained x steps z) (view : Execution σ ω → β) (changed : view z ≠ view x) :
    ∃ earlier step later,
      steps = earlier ++ step :: later ∧ view step.after ≠ view step.before := by
  induction steps generalizing x with
  | nil =>
    have same : x = z := chained
    exact absurd (congrArg view same.symm) changed
  | cons step steps ih =>
    obtain ⟨rfl, chained⟩ := chained
    by_cases here : view step.after = view step.before
    · obtain ⟨earlier, changing, later, parts, differs⟩ := ih chained (here ▸ changed)
      exact ⟨step :: earlier, changing, later, congrArg (step :: ·) parts, differs⟩
    · exact ⟨[], step, steps, rfl, here⟩

/-- The request calls a contract. -/
def Request.isCall {ω : Type} : Request ω → Bool
  | .call _ => true
  | _ => false

/-- The request charges the meter or gives gas back. -/
def Request.isMetered {ω : Type} : Request ω → Bool
  | .evm _ => true
  | .store _ => true
  | .charge _ => true
  | .refund _ => true
  | _ => false

/-- The request makes an operation on the ledger, by itself or through the store. -/
def Request.usesLedger {ω : Type} : Request ω → Bool
  | .store _ => true
  | .ledger _ => true
  | .transfer _ _ _ => true
  | _ => false

/-- The handlers of all contracts keep to what they are allowed on each invocation. -/
def Registry.HandlersKeepTo {ω : Type} (registry : Registry ω)
    (allowed : Invocation → Request ω → Prop) : Prop :=
  ∀ target contract, registry.get? target = some contract →
    ∀ handler ∈ contract.handlers, ∀ invocation,
      (handler invocation).run.Makes (allowed invocation)

/-- The handlers of all contracts make only requests of a kind. -/
def Registry.HandlersMake {ω : Type} (registry : Registry ω) (allowed : Request ω → Prop) : Prop :=
  ∀ target contract, registry.get? target = some contract →
    ∀ handler ∈ contract.handlers, ∀ invocation, (handler invocation).run.Makes allowed

theorem Program.makes_of_forall {ω α : Type} {allowed : Request ω → Prop}
    (all : ∀ request, allowed request) (program : Program ω α) : program.Makes allowed := by
  induction program with
  | done result => exact .done result
  | ask request next ih => exact .ask (all request) ih

theorem Registry.handlersMake_of_forall {ω : Type} {allowed : Request ω → Prop}
    (all : ∀ request, allowed request) (registry : Registry ω) : registry.HandlersMake allowed :=
  fun _ _ _ _ _ _ => Program.makes_of_forall all _

/-- What a registry without contracts keeps to. -/
theorem Registry.handlersKeepTo_empty {ω : Type} (config : Config)
    (allowed : Invocation → Request ω → Prop) : (Registry.empty config).HandlersKeepTo allowed := by
  intro target contract registered
  simp [Registry.get?, Registry.empty] at registered

theorem Registry.handlersMake_empty {ω : Type} (config : Config) (allowed : Request ω → Prop) :
    (Registry.empty config).HandlersMake allowed :=
  handlersKeepTo_empty config fun _ => allowed

theorem Registry.HandlersMake.mono {ω : Type} {registry : Registry ω}
    {allowed more : Request ω → Prop} (before : registry.HandlersMake allowed)
    (le : ∀ request, allowed request → more request) : registry.HandlersMake more :=
  fun target contract registered handler member invocation =>
    (before target contract registered handler member invocation).mono le

theorem Registry.HandlersKeepTo.insert {ω : Type} {registry : Registry ω}
    {allowed : Invocation → Request ω → Prop} (before : registry.HandlersKeepTo allowed)
    (address : Address) {descriptor : Descriptor ω}
    (handlers : ∀ handler ∈ descriptor.handlers, ∀ invocation,
      (handler invocation).run.Makes (allowed invocation)) :
    HandlersKeepTo ⟨registry.config, registry.contracts.insert address descriptor⟩ allowed := by
  intro target contract registered handler member invocation
  rw [Registry.get?, Std.ExtTreeMap.getElem?_insert] at registered
  split at registered
  · cases registered
    exact handlers handler member invocation
  · exact before target contract registered handler member invocation

theorem Registry.HandlersMake.insert {ω : Type} {registry : Registry ω}
    {allowed : Request ω → Prop} (before : registry.HandlersMake allowed) (address : Address)
    {descriptor : Descriptor ω}
    (handlers : ∀ handler ∈ descriptor.handlers, ∀ invocation,
      (handler invocation).run.Makes allowed) :
    HandlersMake ⟨registry.config, registry.contracts.insert address descriptor⟩ allowed :=
  HandlersKeepTo.insert before address handlers

/-- Registering a contract adds its handlers. -/
theorem Registry.HandlersKeepTo.register {ω : Type} {registry : Registry ω}
    {allowed : Invocation → Request ω → Prop} (before : registry.HandlersKeepTo allowed)
    (address : Address) {contract : Contract ω}
    (methods : ∀ method ∈ contract.methods, ∀ invocation,
      (method.handler invocation).run.Makes (allowed invocation)) :
    (registry.register address contract).HandlersKeepTo allowed := by
  apply before.insert address
  intro handler member invocation
  obtain ⟨method, declared, rfl⟩ := List.mem_map.1 member
  exact methods method declared invocation

theorem Registry.HandlersMake.register {ω : Type} {registry : Registry ω}
    {allowed : Request ω → Prop} (before : registry.HandlersMake allowed) (address : Address)
    {contract : Contract ω}
    (methods : ∀ method ∈ contract.methods, ∀ invocation,
      (method.handler invocation).run.Makes allowed) :
    (registry.register address contract).HandlersMake allowed :=
  HandlersKeepTo.register before address methods

/-- The execution with a frame put on the stack. -/
def Execution.enter {σ ω : Type} (x : Execution σ ω) (frame : Frame) : Execution σ ω :=
  { x with stack := x.stack.push frame }

namespace Environment

variable {σ ω α : Type} [Ledger σ] (environment : Environment ω)

/-! ## Calls -/

/-- The execution with the current frame taken off the stack again, a failure noted. -/
def leave (frame : Frame) (result : Except RuntimeError Bytes) (x : Execution σ ω) :
    Execution σ ω :=
  match result with
  | .ok _ => { x with stack := x.stack.pop }
  | .error cause =>
    Execution.note { x with stack := x.stack.pop }
      (.callFailed frame.target cause environment.transaction.hash x.meter.remaining)

omit [Ledger σ] in
theorem eval_withFrame (frame : Frame) (step : RuntimeM (Execution σ ω) Bytes)
    (x : Execution σ ω) :
    Fallible.eval (environment.withFrame frame step) x =
      ((Fallible.eval step (x.enter frame)).1,
        environment.leave frame (Fallible.eval step (x.enter frame)).1
          (Fallible.eval step (x.enter frame)).2) := by
  -- Of the step only its outcome on the entered execution counts.
  have constant : Fallible.eval (environment.withFrame frame step) x =
      Fallible.eval (environment.withFrame frame fun _ => Fallible.eval step (x.enter frame)) x :=
    rfl
  rw [constant]
  rcases Fallible.eval step (x.enter frame) with ⟨cause | value, y⟩
  · rfl
  · rfl

theorem eval_dispatch (call : Frame → RuntimeM (Execution σ ω) Bytes) (x : Execution σ ω) :
    Fallible.eval (environment.dispatch call) x =
      match Fallible.eval environment.resolve x with
      | (.error cause, y) => (.error cause, y)
      | (.ok (invocation, handler), y) =>
        (environment.runWith call (handler invocation).run).run y := by
  rw [dispatch, Fallible.eval_bind]
  rcases Fallible.eval environment.resolve x with ⟨cause | ⟨invocation, handler⟩, y⟩
  · rfl
  · rfl

theorem eval_callWithin_succ (room : Nat) (frame : Frame) (x : Execution σ ω) :
    Fallible.eval (environment.callWithin (room + 1) frame) x =
      let outcome :=
        Fallible.eval (environment.dispatch (environment.callWithin room)) (x.enter frame)
      (outcome.1, environment.leave frame outcome.1 outcome.2) :=
  environment.eval_withFrame frame _ x

/-! ## Steps -/

/-- The steps of a request, when the steps of a call are known. -/
def requestSteps (call : Frame → RuntimeM (Execution σ ω) Bytes)
    (callSteps : Frame → Execution σ ω → List (Step σ ω)) :
    Request ω → Execution σ ω → List (Step σ ω)
  | .call frame, x => callSteps frame x
  | request, x =>
    let outcome := (environment.answer call request).run x
    [⟨x, .answered request outcome.1, outcome.2⟩]

/-- The steps of a program, when the steps of a call are known. -/
def programSteps (call : Frame → RuntimeM (Execution σ ω) Bytes)
    (callSteps : Frame → Execution σ ω → List (Step σ ω)) :
    Program ω α → Execution σ ω → List (Step σ ω)
  | .done _, _ => []
  | .ask request next, x =>
    let outcome := (environment.answer call request).run x
    environment.requestSteps call callSteps request x ++
      programSteps call callSteps (next outcome.1) outcome.2

/-- The steps of a handler, none when no method was found. -/
def handlerSteps (call : Frame → RuntimeM (Execution σ ω) Bytes)
    (callSteps : Frame → Execution σ ω → List (Step σ ω)) :
    Except RuntimeError (Invocation × Handler ω) → Execution σ ω → List (Step σ ω)
  | .ok (invocation, handler), x =>
    environment.programSteps call callSteps (handler invocation).run x
  | .error _, _ => []

/-- The steps of a call when `room` more frames may be put on the stack. There is always room for one
(`conducted_callSteps`), as the check of the stack refuses a frame too many first. -/
def callStepsWithin : Nat → Frame → Execution σ ω → List (Step σ ω)
  | 0, _, _ => []
  | room + 1, frame, x =>
    let found := Fallible.eval environment.resolve (x.enter frame)
    let outcome :=
      Fallible.eval (environment.dispatch (environment.callWithin room)) (x.enter frame)
    ⟨x, .dispatched frame (found.1.map Prod.fst), found.2⟩ ::
      (environment.handlerSteps (environment.callWithin room) (callStepsWithin room) found.1
        found.2 ++
      [⟨outcome.2, .returned frame outcome.1, environment.leave frame outcome.1 outcome.2⟩])

/-- The steps of a call. -/
def callSteps (frame : Frame) (x : Execution σ ω) : List (Step σ ω) :=
  environment.callStepsWithin (x.stack.maxDepth + 1) frame x

/-- The steps of a run. -/
def steps (program : Program ω α) (x : Execution σ ω) : List (Step σ ω) :=
  environment.programSteps environment.call environment.callSteps program x

variable {environment}

theorem requestSteps_of_isCall {call : Frame → RuntimeM (Execution σ ω) Bytes}
    {callSteps : Frame → Execution σ ω → List (Step σ ω)} {request : Request ω}
    (other : request.isCall = false) (x : Execution σ ω) :
    environment.requestSteps call callSteps request x =
      [⟨x, .answered request ((environment.answer call request).run x).1,
        ((environment.answer call request).run x).2⟩] := by
  cases request with
  | call frame => cases other
  | _ => rfl

theorem eval_call (frame : Frame) (x : Execution σ ω) :
    Fallible.eval (environment.call frame) x =
      Fallible.eval (environment.callWithin (x.stack.maxDepth + 1) frame) x := rfl

/-! ## The stack during a run -/

/-- A request that is answered in one step leaves the stack alone, the meter too unless it charges
for something or gives back, and the ledger unless it makes an operation on it. -/
theorem answer_leaves (call : Frame → RuntimeM (Execution σ ω) Bytes) {request : Request ω}
    (other : request.isCall = false) (x : Execution σ ω) :
    ((environment.answer call request).run x).2.stack = x.stack ∧
      (request.isMetered = false →
        ((environment.answer call request).run x).2.meter = x.meter) ∧
      (request.usesLedger = false →
        ((environment.answer call request).run x).2.ledger = x.ledger) := by
  cases request with
  | call frame => cases other
  | evm call' =>
    obtain ⟨log, answered⟩ := environment.answer_evm call call' x
    rw [answered]
    refine ⟨?_, fun unmetered => (by cases unmetered), fun _ => ?_⟩
    · dsimp only
      split
      · rfl
      · rfl
    · dsimp only
      split
      · rfl
      · rfl
  | store operation =>
    obtain ⟨log, answered⟩ := environment.answer_store call operation x
    rw [answered]
    exact ⟨rfl, fun unmetered => (by cases unmetered), fun unused => (by cases unused)⟩
  | ledger operation => exact ⟨rfl, fun _ => rfl, fun unused => (by cases unused)⟩
  | transfer sender recipient amount =>
    obtain ⟨log, answered⟩ := environment.answer_transfer call sender recipient amount x
    rw [answered]
    exact ⟨rfl, fun _ => rfl, fun unused => (by cases unused)⟩
  | emit address topics data =>
    rw [answer_emit]
    split
    · exact ⟨rfl, fun _ => rfl, fun _ => rfl⟩
    · exact ⟨rfl, fun _ => rfl, fun _ => rfl⟩
  | charge amount =>
    rw [answer_charge]
    split
    · exact ⟨rfl, fun unmetered => (by cases unmetered), fun _ => rfl⟩
    · exact ⟨rfl, fun unmetered => (by cases unmetered), fun _ => rfl⟩
  | refund amount => exact ⟨rfl, fun unmetered => (by cases unmetered), fun _ => rfl⟩
  | setValue value =>
    have answered : ((environment.answer call (.setValue value)).run x).2 =
        if value = 0 then x else { x with value } := rfl
    rw [answered]
    split
    · exact ⟨rfl, fun _ => rfl, fun _ => rfl⟩
    · exact ⟨rfl, fun _ => rfl, fun _ => rfl⟩
  | setRecipient address =>
    have answered : ((environment.answer call (.setRecipient address)).run x).2 =
        if address.isZero then x else { x with recipient := address } := rfl
    rw [answered]
    split
    · exact ⟨rfl, fun _ => rfl, fun _ => rfl⟩
    · exact ⟨rfl, fun _ => rfl, fun _ => rfl⟩
  | _ => exact ⟨rfl, fun _ => rfl, fun _ => rfl⟩

/-- Only a call depends on how contracts are called. -/
theorem answer_congr (call call' : Frame → RuntimeM (Execution σ ω) Bytes) {request : Request ω}
    (other : request.isCall = false) :
    environment.answer call request = environment.answer call' request := by
  cases request with
  | call frame => cases other
  | _ => rfl

omit [Ledger σ] in
theorem stack_leave (frame : Frame) (result : Except RuntimeError Bytes) (x : Execution σ ω) :
    (environment.leave frame result x).stack = x.stack.pop := by
  rcases result with cause | value
  · rfl
  · rfl

omit [Ledger σ] in
theorem ledger_leave (frame : Frame) (result : Except RuntimeError Bytes) (x : Execution σ ω) :
    (environment.leave frame result x).ledger = x.ledger := by
  rcases result with cause | value
  · rfl
  · rfl

omit [Ledger σ] in
theorem stack_of_entered {frame : Frame} {x y : Execution σ ω}
    {outcome : Except RuntimeError (Invocation × Handler ω)}
    (h : Fallible.eval environment.resolve (x.enter frame) = (outcome, y)) :
    y.stack = x.stack.push frame := by
  have kept := environment.stack_resolve (x.enter frame)
  rw [h] at kept
  exact kept

theorem stack_of_answered {request : Request ω} {reply : request.Reply} {x y : Execution σ ω}
    (other : request.isCall = false)
    (h : (environment.answer environment.call request).run x = (reply, y)) :
    y.stack = x.stack := by
  have kept : ((environment.answer environment.call request).run x).2.stack = x.stack :=
    (answer_leaves environment.call other x).1
  rw [h] at kept
  exact kept

theorem stack_answer_of_calls {call : Frame → RuntimeM (Execution σ ω) Bytes}
    (calls : ∀ frame x, x.stack.isEmpty = false →
      (Fallible.eval (call frame) x).2.stack = x.stack)
    (request : Request ω) {x : Execution σ ω} (some : x.stack.isEmpty = false) :
    ((environment.answer call request).run x).2.stack = x.stack := by
  cases called : request.isCall with
  | true =>
    cases request with
    | call frame => exact calls frame x some
    | _ => cases called
  | false => exact (answer_leaves call called x).1

theorem stack_runWith {call : Frame → RuntimeM (Execution σ ω) Bytes}
    (calls : ∀ frame x, x.stack.isEmpty = false →
      (Fallible.eval (call frame) x).2.stack = x.stack)
    (program : Program ω α) {x : Execution σ ω} (some : x.stack.isEmpty = false) :
    ((environment.runWith call program).run x).2.stack = x.stack := by
  induction program generalizing x with
  | done result => rfl
  | ask request next ih =>
    have kept : ((environment.answer call request).run x).2.stack = x.stack :=
      stack_answer_of_calls calls request some
    have rest := ih ((environment.answer call request).run x).1 (kept ▸ some)
    exact rest.trans kept

/-- A dispatch, and the handler that it finds, leave the frame that was entered on the stack. -/
theorem stack_dispatch {call : Frame → RuntimeM (Execution σ ω) Bytes}
    (calls : ∀ frame x, x.stack.isEmpty = false →
      (Fallible.eval (call frame) x).2.stack = x.stack)
    (frame : Frame) (x : Execution σ ω) :
    (Fallible.eval (environment.dispatch call) (x.enter frame)).2.stack = x.stack.push frame := by
  rw [eval_dispatch]
  rcases found : Fallible.eval environment.resolve (x.enter frame) with
    ⟨cause | ⟨invocation, handler⟩, y⟩
  · exact stack_of_entered found
  · have entered : y.stack = x.stack.push frame := stack_of_entered found
    have above : y.stack.isEmpty = false := by
      rw [entered]
      rfl
    exact (stack_runWith calls _ above).trans entered

/-- Above the entry a call leaves the stack as it found it. -/
theorem stack_callWithin (room : Nat) (frame : Frame) {x : Execution σ ω}
    (some : x.stack.isEmpty = false) :
    (Fallible.eval (environment.callWithin room frame) x).2.stack = x.stack := by
  induction room generalizing frame x with
  | zero => rfl
  | succ room ih =>
    rw [eval_callWithin_succ, stack_leave, stack_dispatch (fun frame x => ih frame)]
    exact CallStack.pop_push some frame

/-- The first call leaves its own frame behind. -/
theorem stack_callWithin_succ (room : Nat) (frame : Frame) (x : Execution σ ω) :
    (Fallible.eval (environment.callWithin (room + 1) frame) x).2.stack =
      (x.stack.push frame).pop := by
  rw [eval_callWithin_succ, stack_leave, stack_dispatch fun frame x => stack_callWithin room frame]

/-! ## Handlers -/

omit [Ledger σ] in
/-- A handler that a dispatch reaches is a handler of a registered contract. -/
theorem keepsTo_of_resolve {allowed : Invocation → Request ω → Prop}
    (handlers : environment.registry.HandlersKeepTo allowed) {x y : Execution σ ω}
    {invocation : Invocation} {handler : Handler ω}
    (h : Fallible.eval environment.resolve x = (.ok (invocation, handler), y)) :
    (handler invocation).run.Makes (allowed invocation) := by
  obtain ⟨found, looked, handled, -⟩ := exists_found_of_resolve h
  have finds := finds_of_lookup looked
  refine handlers _ _ finds.registered handler ?_ invocation
  rw [Descriptor.handler] at handled
  split at handled
  · rename_i handler' here
    cases handled
    exact List.mem_of_getElem? here
  · cases handled

omit [Ledger σ] in
theorem makes_of_resolve {allowed : Request ω → Prop}
    (handlers : environment.registry.HandlersMake allowed) {x y : Execution σ ω}
    {invocation : Invocation} {handler : Handler ω}
    (h : Fallible.eval environment.resolve x = (.ok (invocation, handler), y)) :
    (handler invocation).run.Makes allowed :=
  keepsTo_of_resolve handlers h

/-- A frame may be put on a stack, and the check of the stack refuses one too many before the room
is used up. -/
def Roomy (room : Nat) (stack : CallStack) : Prop :=
  0 < room ∧ stack.maxDepth < stack.depth + room

omit [Ledger σ] in
/-- The check of the stack has accepted the frame of a method that is found, so that there is room
for one more. -/
theorem Roomy.enter {room : Nat} {frame : Frame} {x y : Execution σ ω}
    (roomy : Roomy (room + 1) x.stack) {found : Invocation × Handler ω}
    (h : Fallible.eval environment.resolve (x.enter frame) = (.ok found, y)) :
    Roomy room (x.stack.push frame) := by
  obtain ⟨target, looked, -⟩ := exists_found_of_resolve h
  have bound := depth_le_of_validate (finds_of_lookup looked).valid
  have room := roomy.2
  rw [Roomy, CallStack.maxDepth_push, CallStack.depth_push]
  rw [Execution.enter, CallStack.maxDepth_push, CallStack.depth_push] at bound
  omega

/-! ## Who acts -/

section Conducting

variable {allowed : Option Invocation → Request ω → Prop} {actor : Option Invocation}
  {x y z : Execution σ ω} {steps later : List (Step σ ω)}

variable (environment) in
/-- Who makes the requests of a run: the program of the transaction, or the handler that an
invocation was handed to. Each makes only requests that it is allowed. A call that finds no method
returns at once, and else the steps up to its return are those of the handler found. -/
inductive Conducted (allowed : Option Invocation → Request ω → Prop) :
    Option Invocation → Execution σ ω → List (Step σ ω) → Execution σ ω → Prop where
  | nil {actor : Option Invocation} (x : Execution σ ω) : Conducted allowed actor x [] x
  | answered {actor : Option Invocation} {x y z : Execution σ ω} {request : Request ω}
      {reply : request.Reply} {rest : List (Step σ ω)} (other : request.isCall = false)
      (now : allowed actor request)
      (here : (environment.answer environment.call request).run x = (reply, y))
      (later : Conducted allowed actor y rest z) :
      Conducted allowed actor x (⟨x, .answered request reply, y⟩ :: rest) z
  | refused {actor : Option Invocation} {x y z : Execution σ ω} {frame : Frame}
      {cause : RuntimeError} {rest : List (Step σ ω)} (now : allowed actor (.call frame))
      (found : Fallible.eval environment.resolve (x.enter frame) = (.error cause, y))
      (later : Conducted allowed actor (environment.leave frame (.error cause) y) rest z) :
      Conducted allowed actor x
        (⟨x, .dispatched frame (.error cause), y⟩ ::
          ⟨y, .returned frame (.error cause), environment.leave frame (.error cause) y⟩ :: rest) z
  | handled {actor : Option Invocation} {x entered y z : Execution σ ω} {frame : Frame}
      {invocation : Invocation} {handler : Handler ω} {result : Except RuntimeError Bytes}
      {inside rest : List (Step σ ω)} (now : allowed actor (.call frame))
      (found : Fallible.eval environment.resolve (x.enter frame) =
        (.ok (invocation, handler), entered))
      (inner : Conducted allowed (some invocation) entered inside y)
      (later : Conducted allowed actor (environment.leave frame result y) rest z) :
      Conducted allowed actor x
        (⟨x, .dispatched frame (.ok invocation), entered⟩ ::
          (inside ++ ⟨y, .returned frame result, environment.leave frame result y⟩ :: rest)) z

theorem Conducted.append (first : environment.Conducted allowed actor x steps y)
    (second : environment.Conducted allowed actor y later z) :
    environment.Conducted allowed actor x (steps ++ later) z := by
  induction first with
  | nil x => exact second
  | answered other now here _ ih => exact .answered other now here (ih second)
  | refused now found _ ih => exact .refused now found (ih second)
  | handled now found inner _ _ ih =>
    have conducted := Conducted.handled now found inner (ih second)
    rwa [List.cons_append, List.append_assoc]

theorem conducted_programSteps {call : Frame → RuntimeM (Execution σ ω) Bytes}
    {callSteps : Frame → Execution σ ω → List (Step σ ω)} (during : Execution σ ω → Prop)
    (kept : ∀ request x, during x → during ((environment.answer call request).run x).2)
    (calls : ∀ frame x, during x → allowed actor (.call frame) →
      environment.Conducted allowed actor x (callSteps frame x) (Fallible.eval (call frame) x).2)
    {program : Program ω α} (makes : program.Makes (allowed actor)) (start : during x) :
    environment.Conducted allowed actor x (environment.programSteps call callSteps program x)
      ((environment.runWith call program).run x).2 := by
  induction makes generalizing x with
  | done result => exact .nil x
  | @ask request next now _ ih =>
    have rest := ih ((environment.answer call request).run x).1 (kept request x start)
    refine Conducted.append ?_ rest
    cases called : request.isCall with
    | true =>
      cases request with
      | call frame => exact calls frame x start now
      | _ => cases called
    | false =>
      rw [requestSteps_of_isCall called, answer_congr call environment.call called]
      exact .answered called now rfl (.nil _)

/-- No call is refused for want of room but by the check of the stack, so that every dispatch is one
that the check has seen. -/
theorem conducted_callStepsWithin
    (handlers : environment.registry.HandlersKeepTo fun invocation => allowed (some invocation))
    (room : Nat) (frame : Frame) (now : allowed actor (.call frame)) (roomy : Roomy room x.stack) :
    environment.Conducted allowed actor x (environment.callStepsWithin room frame x)
      (Fallible.eval (environment.callWithin room frame) x).2 := by
  induction room generalizing frame actor x with
  | zero => exact absurd roomy.1 (Nat.lt_irrefl 0)
  | succ room ih =>
    rw [eval_callWithin_succ, callStepsWithin, eval_dispatch]
    rcases found : Fallible.eval environment.resolve (x.enter frame) with
      ⟨cause | ⟨invocation, handler⟩, y⟩
    · exact .refused now found (.nil _)
    · have entered : y.stack = x.stack.push frame := stack_of_entered found
      have roomy' := roomy.enter found
      -- While the handler runs its own frame is on top, so its calls have one less room each time.
      refine .handled now found ?_ (.nil _)
      refine conducted_programSteps (fun z => z.stack = x.stack.push frame) ?_ ?_
        (keepsTo_of_resolve handlers found) entered
      · intro request z same
        rw [← same]
        exact stack_answer_of_calls (fun frame z => stack_callWithin room frame) request
          (same ▸ rfl)
      · intro frame' z same now'
        exact ih frame' now' (same ▸ roomy')

theorem conducted_callSteps
    (handlers : environment.registry.HandlersKeepTo fun invocation => allowed (some invocation))
    (frame : Frame) (now : allowed actor (.call frame)) (x : Execution σ ω) :
    environment.Conducted allowed actor x (environment.callSteps frame x)
      (Fallible.eval (environment.call frame) x).2 := by
  have roomy : Roomy (x.stack.maxDepth + 1) x.stack := ⟨Nat.succ_pos _, by omega⟩
  exact conducted_callStepsWithin handlers _ frame now roomy

/-- In every run the program and the handlers act as they are allowed to. -/
theorem conducted_steps
    (handlers : environment.registry.HandlersKeepTo fun invocation => allowed (some invocation))
    {program : Program ω α} (makes : program.Makes (allowed none)) (x : Execution σ ω) :
    environment.Conducted allowed none x (environment.steps program x)
      ((environment.run program).run x).2 :=
  conducted_programSteps (fun _ => True) (fun _ _ _ => trivial)
    (fun frame y _ now => conducted_callSteps handlers frame now y) makes trivial

end Conducting

/-! ## Nesting -/

section Nesting

variable {allowed : Request ω → Prop} {x y z : Execution σ ω} {steps later : List (Step σ ω)}

variable (environment) in
/-- How the steps of a run lie: requests of the kind that is allowed are answered one after the
other, and between the dispatch of a frame and its return stand the steps of that call. -/
inductive Nested (allowed : Request ω → Prop) :
    Execution σ ω → List (Step σ ω) → Execution σ ω → Prop where
  | nil (x : Execution σ ω) : Nested allowed x [] x
  | answered {x y z : Execution σ ω} {request : Request ω} {reply : request.Reply}
      {rest : List (Step σ ω)} (other : request.isCall = false) (now : allowed request)
      (here : (environment.answer environment.call request).run x = (reply, y))
      (later : Nested allowed y rest z) :
      Nested allowed x (⟨x, .answered request reply, y⟩ :: rest) z
  | call {x entered y z : Execution σ ω} {frame : Frame}
      {outcome : Except RuntimeError (Invocation × Handler ω)}
      {result : Except RuntimeError Bytes} {inside rest : List (Step σ ω)}
      (found : Fallible.eval environment.resolve (x.enter frame) = (outcome, entered))
      (inner : Nested allowed entered inside y)
      (later : Nested allowed (environment.leave frame result y) rest z) :
      Nested allowed x
        (⟨x, .dispatched frame (outcome.map Prod.fst), entered⟩ ::
          (inside ++ ⟨y, .returned frame result, environment.leave frame result y⟩ :: rest)) z

/-- Whoever acts, the steps are nested. -/
theorem Conducted.nested {permitted : Option Invocation → Request ω → Prop}
    {actor : Option Invocation} (conducted : environment.Conducted permitted actor x steps z)
    (le : ∀ actor request, permitted actor request → allowed request) :
    environment.Nested allowed x steps z := by
  induction conducted with
  | nil x => exact .nil x
  | answered other now here _ ih => exact .answered other (le _ _ now) here ih
  | refused now found _ ih => exact .call found (.nil _) ih
  | handled now found _ _ ih ih' => exact .call found ih ih'

/-- The steps of every run are nested. -/
theorem nested_steps (handlers : environment.registry.HandlersMake allowed)
    {program : Program ω α} (makes : program.Makes allowed) (x : Execution σ ω) :
    environment.Nested allowed x (environment.steps program x)
      ((environment.run program).run x).2 := by
  have conducted : environment.Conducted (fun _ => allowed) none x _ _ :=
    conducted_steps (by exact handlers) makes x
  exact conducted.nested fun _ _ now => now

variable (environment) in
/-- Whatever the contracts and the program ask for, the steps are nested. -/
theorem nested_run (program : Program ω α) (x : Execution σ ω) :
    environment.Nested (fun _ => True) x (environment.steps program x)
      ((environment.run program).run x).2 :=
  nested_steps (Registry.handlersMake_of_forall (fun _ => trivial) _)
    (Program.makes_of_forall (fun _ => trivial) program) x

variable (environment) in
theorem nested_call (frame : Frame) (x : Execution σ ω) :
    environment.Nested (fun _ => True) x (environment.callSteps frame x)
      (Fallible.eval (environment.call frame) x).2 := by
  have handlers : environment.registry.HandlersMake fun _ => True :=
    Registry.handlersMake_of_forall (fun _ => trivial) _
  have conducted : environment.Conducted (fun _ _ => True) none x _ _ :=
    conducted_callSteps (by exact handlers) frame trivial x
  exact conducted.nested fun _ _ now => now

/-! ## What holds of every step -/

theorem Nested.chained (nested : environment.Nested allowed x steps z) : Chained x steps z := by
  induction nested with
  | nil x => rfl
  | answered other now here later ih => exact ⟨rfl, ih⟩
  | call found inner later ih ih' => exact ⟨rfl, ih.append ⟨rfl, ih'⟩⟩

/-- The steps of a run lead from its beginning to its end. -/
theorem chained_steps (program : Program ω α) (x : Execution σ ω) :
    Chained x (environment.steps program x) ((environment.run program).run x).2 :=
  (environment.nested_run program x).chained

/-- What holds of each kind of step holds of all that are nested. -/
theorem Nested.forall {property : Step σ ω → Prop}
    (nested : environment.Nested allowed x steps z)
    (answered : ∀ request x, request.isCall = false → allowed request →
      property ⟨x, .answered request ((environment.answer environment.call request).run x).1,
        ((environment.answer environment.call request).run x).2⟩)
    (dispatched : ∀ frame x,
      property ⟨x, .dispatched frame
        ((Fallible.eval environment.resolve (x.enter frame)).1.map Prod.fst),
        (Fallible.eval environment.resolve (x.enter frame)).2⟩)
    (returned : ∀ frame result x,
      property ⟨x, .returned frame result, environment.leave frame result x⟩) :
    ∀ step ∈ steps, property step := by
  induction nested with
  | nil x =>
    intro step member
    cases member
  | @answered x y z request reply rest other now here later ih =>
    have first := answered request x other now
    rw [here] at first
    exact List.forall_mem_cons.2 ⟨first, ih⟩
  | @call x entered y z frame outcome result inside rest found inner later ih ih' =>
    have first := dispatched frame x
    rw [found] at first
    have last := List.forall_mem_cons.2 ⟨returned frame result y, ih'⟩
    exact List.forall_mem_cons.2 ⟨first, List.forall_mem_append.2 ⟨ih, last⟩⟩

/-- What holds of each kind of step holds of every step of a run. -/
theorem forall_steps {property : Step σ ω → Prop}
    (handlers : environment.registry.HandlersMake allowed)
    (answered : ∀ request x, request.isCall = false → allowed request →
      property ⟨x, .answered request ((environment.answer environment.call request).run x).1,
        ((environment.answer environment.call request).run x).2⟩)
    (dispatched : ∀ frame x,
      property ⟨x, .dispatched frame
        ((Fallible.eval environment.resolve (x.enter frame)).1.map Prod.fst),
        (Fallible.eval environment.resolve (x.enter frame)).2⟩)
    (returned : ∀ frame result x,
      property ⟨x, .returned frame result, environment.leave frame result x⟩)
    {program : Program ω α} (makes : program.Makes allowed) (x : Execution σ ω) :
    ∀ step ∈ environment.steps program x, property step :=
  (nested_steps handlers makes x).forall answered dispatched returned

end Nesting

end Environment

end ContractHost
