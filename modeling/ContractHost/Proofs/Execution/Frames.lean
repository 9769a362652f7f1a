import Mathlib
import ContractHost.Proofs.Execution.Steps

/-!
# The stack during a run

The steps of a run are nested: between the dispatch of a frame and its return stand the steps of that
call, and they leave the stack as the dispatch made it (`Nested.stack_eq`). Read from the left they
say which calls are open (`openCalls`). The frames of the open calls are always the topmost ones of the stack
(`openFrames_prefix`), so that a handler finds the frame of its own invocation on top whenever it
looks, whatever became of the calls it made. Below them is what earlier calls left: the entry,
which the first call puts there and nothing takes off again.
-/

namespace ContractHost

/-! ## Single frames -/

namespace CallStack

theorem first?_pop (stack : CallStack) : stack.pop.first? = stack.first? := by
  obtain ⟨frames, maxDepth⟩ := stack
  rcases frames with _ | ⟨top, _ | ⟨next, rest⟩⟩
  · rfl
  · rfl
  · rfl

theorem isEmpty_of_first? {stack : CallStack} {entry : Frame} (h : stack.first? = some entry) :
    stack.isEmpty = false := by
  obtain ⟨frames, maxDepth⟩ := stack
  cases frames with
  | nil => cases h
  | cons top rest => rfl

theorem exists_first? {stack : CallStack} (h : stack.isEmpty = false) :
    ∃ entry, stack.first? = some entry := by
  obtain ⟨frames, maxDepth⟩ := stack
  cases frames with
  | nil => cases h
  | cons top rest => exact ⟨_, List.getLast?_eq_some_getLast (List.cons_ne_nil top rest)⟩

/-- Where a frame lies under the top, the top one comes off. -/
theorem prefix_pop {stack : CallStack} {frame : Frame} {own : List Frame}
    (h : (frame :: own) <+: stack.frames) : own <+: stack.pop.frames := by
  obtain ⟨rest, h⟩ := h
  obtain ⟨frames, maxDepth⟩ := stack
  subst h
  cases own with
  | nil => exact List.nil_prefix
  | cons next own => exact List.prefix_append _ _

end CallStack

/-! ## Open calls -/

/-- A call that has been dispatched and has not returned. There is an invocation when its method was
found and paid for. -/
structure OpenCall where
  frame : Frame
  invocation? : Option Invocation
deriving DecidableEq, Repr

/-- The calls that are open after an action, the innermost first. -/
def Action.track {ω : Type} : Action ω → List OpenCall → List OpenCall
  | .answered _ _, calls => calls
  | .dispatched frame outcome, calls => ⟨frame, outcome.toOption⟩ :: calls
  | .returned _ _, calls => calls.tail

/-- The calls that are open after steps, where some were open before. -/
def trackSteps {σ ω : Type} (steps : List (Step σ ω)) (calls : List OpenCall) : List OpenCall :=
  steps.foldl (fun calls step => step.action.track calls) calls

/-- The calls that steps leave open, the innermost first. -/
def openCalls {σ ω : Type} (steps : List (Step σ ω)) : List OpenCall := trackSteps steps []

theorem trackSteps_append {σ ω : Type} (steps later : List (Step σ ω)) (calls : List OpenCall) :
    trackSteps (steps ++ later) calls = trackSteps later (trackSteps steps calls) :=
  List.foldl_append

/-- What an action does to the stack. -/
def Action.onStack {ω : Type} : Action ω → CallStack → CallStack
  | .answered _ _, stack => stack
  | .dispatched frame _, stack => stack.push frame
  | .returned _ _, stack => stack.pop

/-- The frames of the open calls stay the topmost ones. -/
theorem Action.prefix_track {ω : Type} (action : Action ω) {calls : List OpenCall}
    {stack : CallStack} (before : calls.map OpenCall.frame <+: stack.frames) :
    (action.track calls).map OpenCall.frame <+: (action.onStack stack).frames := by
  cases action with
  | answered request reply => exact before
  | dispatched frame outcome => exact (List.prefix_cons_inj frame).2 before
  | returned frame result =>
    cases calls with
    | nil => exact List.nil_prefix
    | cons call calls => exact CallStack.prefix_pop before

/-- The entry stays the entry. -/
theorem Action.first?_onStack {ω : Type} (action : Action ω) {stack : CallStack} {entry : Frame}
    (set : stack.first? = some entry) : (action.onStack stack).first? = some entry := by
  cases action with
  | answered request reply => exact set
  | dispatched frame outcome =>
    exact (CallStack.first?_push (CallStack.isEmpty_of_first? set) frame).trans set
  | returned frame result => exact (CallStack.first?_pop stack).trans set

theorem Action.maxDepth_onStack {ω : Type} (action : Action ω) (stack : CallStack) :
    (action.onStack stack).maxDepth = stack.maxDepth := by
  cases action with
  | answered request reply => rfl
  | dispatched frame outcome => rfl
  | returned frame result => exact CallStack.maxDepth_pop stack

/-- The frame that an action puts on the stack. -/
def Action.entered? {ω : Type} : Action ω → Option Frame
  | .dispatched frame _ => some frame
  | _ => none

/-- The action puts a frame on the stack. -/
def Action.isDispatch {ω : Type} : Action ω → Bool
  | .dispatched _ _ => true
  | _ => false

theorem Action.isSome_entered? {ω : Type} (action : Action ω) :
    action.entered?.isSome = action.isDispatch := by
  cases action <;> rfl

/-- The frame of the first call that steps make. -/
def firstEntered? {σ ω : Type} (steps : List (Step σ ω)) : Option Frame :=
  steps.findSome? (·.action.entered?)

theorem isSome_firstEntered? {σ ω : Type} (steps : List (Step σ ω)) :
    (firstEntered? steps).isSome = steps.any (·.action.isDispatch) := by
  rw [Bool.eq_iff_iff, firstEntered?, List.findSome?_isSome_iff, List.any_eq_true]
  simp only [Action.isSome_entered?]

namespace Environment

variable {σ ω α : Type} [Ledger σ] {environment : Environment ω}

/-- A step does to the stack what its action says, and a method that is found belongs to the frame
that was dispatched. -/
structure StackStep (step : Step σ ω) : Prop where
  stack : step.after.stack = step.action.onStack step.before.stack
  invocation : ∀ frame invocation, step.action = .dispatched frame (.ok invocation) →
    invocation.frame = frame

omit [Ledger σ] in
theorem frame_of_resolve {frame : Frame} {x y : Execution σ ω} {invocation : Invocation}
    {handler : Handler ω}
    (h : Fallible.eval environment.resolve (x.enter frame) = (.ok (invocation, handler), y)) :
    invocation.frame = frame := by
  obtain ⟨found, looked, -, rfl⟩ := exists_found_of_resolve h
  have current := (finds_of_lookup looked).current
  exact (Option.some.inj current).symm

/-! ## What nesting says of the stack -/

namespace Nested

variable {allowed : Request ω → Prop} {x z : Execution σ ω} {steps : List (Step σ ω)}

theorem stackStep (nested : environment.Nested allowed x steps z) :
    ∀ step ∈ steps, StackStep step := by
  refine nested.forall ?_ ?_ ?_
  · intro request y other _
    refine ⟨stack_of_answered other rfl, ?_⟩
    intro frame invocation same
    cases same
  · intro frame y
    refine ⟨stack_of_entered rfl, ?_⟩
    intro frame' invocation same
    rcases found : Fallible.eval environment.resolve (y.enter frame) with
      ⟨cause | ⟨invocation', handler⟩, z⟩
    · rw [found] at same
      cases same
    · rw [found] at same
      cases same
      exact frame_of_resolve found
  · intro frame result y
    refine ⟨environment.stack_leave frame result y, ?_⟩
    intro frame' invocation same
    cases same

/-- Nested steps leave no call open, and take none off that was open before. -/
theorem trackSteps_eq (nested : environment.Nested allowed x steps z) (calls : List OpenCall) :
    trackSteps steps calls = calls := by
  induction nested generalizing calls with
  | nil x => rfl
  | answered other now here later ih => exact ih calls
  | @call x entered y z frame outcome result inside rest found inner later ih ih' =>
    let opened : OpenCall := ⟨frame, (outcome.map Prod.fst).toOption⟩
    let last : Step σ ω := ⟨y, .returned frame result, environment.leave frame result y⟩
    calc
      trackSteps (inside ++ last :: rest) (opened :: calls)
        = trackSteps (last :: rest) (trackSteps inside (opened :: calls)) := trackSteps_append _ _ _
      _ = trackSteps (last :: rest) (opened :: calls) := by rw [ih]
      _ = calls := ih' calls

/-- Above the entry nested steps leave the stack as they found it. -/
theorem stack_eq (nested : environment.Nested allowed x steps z) (some : x.stack.isEmpty = false) :
    z.stack = x.stack := by
  induction nested with
  | nil x => rfl
  | @answered x y z request reply rest other now here later ih =>
    have same : y.stack = x.stack := stack_of_answered other here
    exact (ih (same ▸ some)).trans same
  | @call x entered y z frame outcome result inside rest found inner later ih ih' =>
    have pushed : entered.stack = x.stack.push frame := stack_of_entered found
    -- The inner steps start above the entry, whatever `x` is, and so give the frame back on top.
    have back : (environment.leave frame result y).stack = x.stack := by
      rw [stack_leave, ih (pushed ▸ rfl), pushed]
      exact CallStack.pop_push some frame
    exact (ih' (back ▸ some)).trans back

/-- From an empty stack the first call leaves its own frame, and the later ones leave it there. -/
theorem frames_of_isEmpty (nested : environment.Nested allowed x steps z)
    (empty : x.stack.isEmpty = true) : z.stack.frames = (firstEntered? steps).toList := by
  induction nested with
  | nil x => exact List.isEmpty_iff.1 empty
  | @answered x y z request reply rest other now here later ih =>
    have same : y.stack = x.stack := stack_of_answered other here
    exact ih (same ▸ empty)
  | @call x entered y z frame outcome result inside rest found inner later ih ih' =>
    have pushed : entered.stack = x.stack.push frame := stack_of_entered found
    have left : (environment.leave frame result y).stack.frames = [frame] := by
      rw [stack_leave, inner.stack_eq (pushed ▸ rfl), pushed, CallStack.push,
        List.isEmpty_iff.1 empty]
      rfl
    have some : (environment.leave frame result y).stack.isEmpty = false := by
      rw [CallStack.isEmpty, left]
      rfl
    rw [later.stack_eq some, left]
    rfl

/-- Whatever stands on the stack before nested steps is there at each of them. -/
theorem suffix (nested : environment.Nested allowed x steps z) :
    ∀ step ∈ steps, x.stack.frames <:+ step.before.stack.frames := by
  induction nested with
  | nil x =>
    intro step member
    cases member
  | @answered x y z request reply rest other now here later ih =>
    have same : y.stack = x.stack := stack_of_answered other here
    rw [same] at ih
    exact List.forall_mem_cons.2 ⟨List.suffix_refl _, ih⟩
  | @call x entered y z frame outcome result inside rest found inner later ih ih' =>
    cases empty : x.stack.isEmpty with
    | true =>
      intro step _
      rw [List.isEmpty_iff.1 empty]
      exact List.nil_suffix
    | false =>
      have pushed : entered.stack = x.stack.push frame := stack_of_entered found
      have above : x.stack.frames <:+ entered.stack.frames := by
        rw [pushed]
        exact List.suffix_cons _ _
      have still : y.stack = entered.stack := inner.stack_eq (pushed ▸ rfl)
      have back : (environment.leave frame result y).stack = x.stack := by
        rw [stack_leave, still, pushed]
        exact CallStack.pop_push empty frame
      rw [back] at ih'
      refine List.forall_mem_cons.2 ⟨List.suffix_refl _, List.forall_mem_append.2 ⟨?_, ?_⟩⟩
      · intro step member
        exact above.trans (ih step member)
      · refine List.forall_mem_cons.2 ⟨?_, ih'⟩
        rw [still]
        exact above

end Nested

/-! ## Between two steps -/

section Chained

variable {x y : Execution σ ω} {steps : List (Step σ ω)} {calls : List OpenCall}

omit [Ledger σ] in
/-- The frames of the open calls are the topmost ones of the stack. -/
theorem openFrames_prefix (chained : Chained x steps y) (stacked : ∀ step ∈ steps, StackStep step)
    (before : calls.map OpenCall.frame <+: x.stack.frames) :
    (trackSteps steps calls).map OpenCall.frame <+: y.stack.frames := by
  induction steps generalizing x calls with
  | nil =>
    have same : x = y := chained
    exact same ▸ before
  | cons step steps ih =>
    obtain ⟨begins, chained⟩ := chained
    obtain ⟨here, later⟩ := List.forall_mem_cons.1 stacked
    have after := step.action.prefix_track before
    rw [← begins, ← here.stack] at after
    exact ih chained later after

omit [Ledger σ] in
/-- An open call with an invocation is the call of the invocation's frame. -/
theorem frame_of_open (stacked : ∀ step ∈ steps, StackStep step)
    (before : ∀ call ∈ calls, ∀ invocation, call.invocation? = some invocation →
      invocation.frame = call.frame) :
    ∀ call ∈ trackSteps steps calls, ∀ invocation, call.invocation? = some invocation →
      invocation.frame = call.frame := by
  induction steps generalizing calls with
  | nil => exact before
  | cons step steps ih =>
    obtain ⟨here, later⟩ := List.forall_mem_cons.1 stacked
    apply ih later
    show ∀ call ∈ step.action.track calls, _
    cases acts : step.action with
    | answered request reply => exact before
    | dispatched frame outcome =>
      refine List.forall_mem_cons.2 ⟨?_, before⟩
      intro invocation found
      rcases outcome with cause | invocation'
      · cases found
      · cases found
        exact here.invocation frame invocation acts
    | returned frame result =>
      intro call member
      -- A return only closes the innermost call.
      exact before call (List.mem_of_mem_tail member)

omit [Ledger σ] in
/-- The entry is never taken off. -/
theorem first?_of_chained (chained : Chained x steps y)
    (stacked : ∀ step ∈ steps, StackStep step) {entry : Frame} (set : x.stack.first? = some entry) :
    y.stack.first? = some entry := by
  induction steps generalizing x with
  | nil =>
    have same : x = y := chained
    exact same ▸ set
  | cons step steps ih =>
    obtain ⟨begins, chained⟩ := chained
    obtain ⟨here, later⟩ := List.forall_mem_cons.1 stacked
    have after := step.action.first?_onStack set
    rw [← begins, ← here.stack] at after
    exact ih chained later after

omit [Ledger σ] in
/-- The bound of the stack stays as it is. -/
theorem maxDepth_of_chained (chained : Chained x steps y)
    (stacked : ∀ step ∈ steps, StackStep step) : y.stack.maxDepth = x.stack.maxDepth := by
  induction steps generalizing x with
  | nil =>
    have same : x = y := chained
    rw [same]
  | cons step steps ih =>
    obtain ⟨begins, chained⟩ := chained
    obtain ⟨here, later⟩ := List.forall_mem_cons.1 stacked
    rw [ih chained later, here.stack, begins, Action.maxDepth_onStack]

theorem Nested.maxDepth_eq {allowed : Request ω → Prop} {z : Execution σ ω}
    (nested : environment.Nested allowed x steps z) :
    ∀ step ∈ steps, step.before.stack.maxDepth = x.stack.maxDepth := by
  intro step member
  have chained := nested.chained
  have stacked := nested.stackStep
  obtain ⟨earlier, later, parts⟩ := List.append_of_mem member
  rw [parts] at chained stacked
  obtain ⟨y, before, begins, -⟩ := chained.split
  rw [begins]
  exact maxDepth_of_chained before fun step member => stacked step (List.mem_append_left _ member)

omit [Ledger σ] in
/-- Once a call has been made the stack is not empty. -/
theorem isEmpty_of_dispatch (chained : Chained x steps y)
    (stacked : ∀ step ∈ steps, StackStep step)
    (called : ∃ step ∈ steps, step.action.isDispatch = true) : y.stack.isEmpty = false := by
  obtain ⟨step, member, dispatch⟩ := called
  obtain ⟨earlier, later, rfl⟩ := List.append_of_mem member
  obtain ⟨-, -, -, onward⟩ := chained.split
  have here := (stacked step member).stack
  have pushed : step.after.stack.isEmpty = false := by
    cases acts : step.action with
    | dispatched frame outcome =>
      rw [here, acts]
      rfl
    | _ =>
      rw [acts] at dispatch
      cases dispatch
  obtain ⟨entry, set⟩ := CallStack.exists_first? pushed
  have still := first?_of_chained onward
    (fun step member => stacked step (List.mem_append_right _ (List.mem_cons_of_mem _ member))) set
  exact CallStack.isEmpty_of_first? still

end Chained

/-! ## The discipline of the stack -/

/-- What two points of a run have in common, `y` after the steps `earlier` and `z` after the steps
`middle` that follow: the entry is the same once it is set, there is one once a call has been made,
and the current frame is the one that the innermost handler was invoked with. -/
structure Disciplined (earlier middle : List (Step σ ω)) (y z : Execution σ ω) : Prop where
  entry : ∀ entry, y.stack.first? = some entry → z.stack.first? = some entry
  called : (∃ step ∈ middle, step.action.isDispatch = true) → z.stack.isEmpty = false
  current : ∀ call rest invocation, openCalls (earlier ++ middle) = call :: rest →
    call.invocation? = some invocation → z.stack.current? = some invocation.frame

/-- Above the entry every call leaves the stack as it found it, and the first one leaves its own
frame. Between any two steps of a run the entry stands, and a handler finds the frame of its
invocation on top. -/
theorem stack_discipline (environment : Environment ω) :
    (∀ room frame (x : Execution σ ω), x.stack.isEmpty = false →
      (Fallible.eval (environment.callWithin room frame) x).2.stack = x.stack) ∧
    (∀ frame (x : Execution σ ω), x.stack.isEmpty = false →
      (Fallible.eval (environment.call frame) x).2.stack = x.stack) ∧
    (∀ frame (x : Execution σ ω), x.stack.isEmpty = true →
      (Fallible.eval (environment.call frame) x).2.stack.frames = [frame]) ∧
    ∀ (program : Program ω α) (x : Execution σ ω),
      openCalls (environment.steps program x) = [] ∧
      ∀ earlier middle later, environment.steps program x = earlier ++ (middle ++ later) →
        ∃ y z, Chained x earlier y ∧ Chained y middle z ∧
          Chained z later ((environment.run program).run x).2 ∧ Disciplined earlier middle y z := by
  refine ⟨fun room frame x => stack_callWithin room frame, ?_, ?_, ?_⟩
  · intro frame x some
    exact stack_callWithin _ frame some
  · intro frame x empty
    rw [eval_call, stack_callWithin_succ, CallStack.push, List.isEmpty_iff.1 empty]
    rfl
  intro program x
  have nested := environment.nested_run program x
  refine ⟨nested.trackSteps_eq [], ?_⟩
  intro earlier middle later parts
  have stacked := nested.stackStep
  have chained := nested.chained
  rw [parts] at stacked chained
  obtain ⟨y, before, onward⟩ := chained.split
  obtain ⟨z, between, after⟩ := onward.split
  -- The steps up to `y` and those from there to `z`; what comes after them says nothing of `z`.
  obtain ⟨stacked, stacked'⟩ := List.forall_mem_append.1 stacked
  have stacked' := (List.forall_mem_append.1 stacked').1
  refine ⟨y, z, before, between, after, ?_, isEmpty_of_dispatch between stacked', ?_⟩
  · intro entry set
    exact first?_of_chained between stacked' set
  · intro call rest invocation opened invoked
    have stacked := List.forall_mem_append.2 ⟨stacked, stacked'⟩
    have nothing : ([] : List OpenCall).map OpenCall.frame <+: x.stack.frames := List.nil_prefix
    have top := openFrames_prefix (before.append between) stacked nothing
    have holds := frame_of_open stacked (fun _ member => absurd member List.not_mem_nil)
    rw [openCalls] at opened
    rw [opened] at top holds
    obtain ⟨below, frames⟩ := top
    rw [holds call List.mem_cons_self invocation invoked, CallStack.current?, ← frames]
    rfl

/-- A contract that calls itself with a payload that has no selector, and goes on whatever comes of
it. -/
def stumbler : Descriptor Unit where
  address := .zero
  name := "Stumbler"
  entries := (∅ : Std.ExtTreeMap Selector MethodEntry).insert ⟨[0x73, 0x74, 0x75, 0x6d], rfl⟩
    ⟨0, "stumble(bytes)", 21500⟩
  handlers := [fun invocation =>
    .mk (.ask (.call ⟨invocation.address, invocation.address, invocation.input⟩) fun _ =>
      .done (.ok []))]

/-- A host with this contract alone. -/
def stumblerHost : Environment Unit where
  registry := ⟨.standard, (∅ : Std.ExtTreeMap Address (Descriptor Unit)).insert .zero stumbler⟩
  transaction := .ofSender .zero 100000
  bridge? := none

/-- The frame of a call of this contract. -/
def stumbling : Frame := ⟨.zero, .zero, [0x73, 0x74, 0x75, 0x6d, 0x2a]⟩

/-- After the inner call has failed and returned, the outer one finds its own frame on top, and the
frame stays there in the end. -/
theorem stack_discipline_stumbling :
    let start : Execution ChangeSet Unit := .start stumblerHost .empty ()
    let steps := stumblerHost.steps (Program.request (.call stumbling)) start
    (Fallible.eval (stumblerHost.call stumbling) start).2.stack.frames = [stumbling] ∧
      (steps.take 3).map (fun step => step.action.isDispatch) = [true, true, false] ∧
      ∃ z, Chained start (steps.take 3) z ∧ z.stack.isEmpty = false ∧
        z.stack.current? = some stumbling := by
  intro start steps
  have discipline := @stack_discipline ChangeSet Unit (Except RuntimeError Bytes) _ stumblerHost
  obtain ⟨-, -, first, runs⟩ := discipline
  have calls : (steps.take 3).map (fun step => step.action.isDispatch) = [true, true, false] := by
    decide +kernel
  have opened : openCalls (steps.take 3) =
      [⟨stumbling, some ⟨"Stumbler", stumbling, ⟨[0x73, 0x74, 0x75, 0x6d], rfl⟩⟩⟩] := by
    decide +kernel
  refine ⟨first stumbling start rfl, calls, ?_⟩
  have parts : steps = [] ++ (steps.take 3 ++ steps.drop 3) := (List.take_append_drop 3 steps).symm
  obtain ⟨-, between⟩ := runs (Program.request (.call stumbling)) start
  obtain ⟨y, z, before, middle, -, disciplined⟩ := between _ _ _ parts
  have same : start = y := before
  refine ⟨z, same ▸ middle, disciplined.called ?_, disciplined.current _ _ _ opened rfl⟩
  have called : true ∈ (steps.take 3).map fun step => step.action.isDispatch := by
    rw [calls]
    exact List.mem_cons_self
  obtain ⟨step, member, dispatch⟩ := List.mem_map.1 called
  exact ⟨step, member, dispatch⟩

end Environment

end ContractHost
