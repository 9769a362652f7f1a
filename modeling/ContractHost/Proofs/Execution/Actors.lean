import Mathlib
import ContractHost.Proofs.Execution.Frames

/-!
# Who takes a step

The calls that are open before a step say who takes it: the program of the transaction when there is
none, else the handler of the innermost one (`Acts`). `Taken` is what a step can be, given the open
calls and what everyone is allowed to ask for, and every step of every run is taken in this way
(`along_steps`). What such steps preserve, of the open calls and the execution together, holds at
every point of a run (`Along.preserves`).
-/

namespace ContractHost

/-! ## Steps along the open calls -/

/-- Something holds of each step and the calls that are open before it. -/
def Along {σ ω : Type} (property : List OpenCall → Step σ ω → Prop) :
    List OpenCall → List (Step σ ω) → Prop
  | _, [] => True
  | calls, step :: steps => property calls step ∧ Along property (step.action.track calls) steps

namespace Along

variable {σ ω : Type} {property : List OpenCall → Step σ ω → Prop} {calls : List OpenCall}
  {steps later : List (Step σ ω)}

theorem append (first : Along property calls steps)
    (second : Along property (trackSteps steps calls) later) :
    Along property calls (steps ++ later) := by
  induction steps generalizing calls with
  | nil => exact second
  | cons step steps ih => exact ⟨first.1, ih first.2 second⟩

theorem split (along : Along property calls (steps ++ later)) :
    Along property calls steps ∧ Along property (trackSteps steps calls) later := by
  induction steps generalizing calls with
  | nil => exact ⟨trivial, along⟩
  | cons step steps ih =>
    obtain ⟨first, second⟩ := ih along.2
    exact ⟨⟨along.1, first⟩, second⟩

/-- What every step preserves holds at the end when it does at the beginning. -/
theorem preserves {invariant : List OpenCall → Execution σ ω → Prop} {x y : Execution σ ω}
    (along : Along property calls steps) (chained : Chained x steps y)
    (kept : ∀ calls step, property calls step → invariant calls step.before →
      invariant (step.action.track calls) step.after)
    (start : invariant calls x) : invariant (trackSteps steps calls) y := by
  induction steps generalizing calls x with
  | nil =>
    have same : x = y := chained
    exact same ▸ start
  | cons step steps ih =>
    obtain ⟨begins, chained⟩ := chained
    exact ih along.2 chained (kept calls step along.1 (begins ▸ start))

end Along

/-- Who acts while calls are open. -/
inductive Acts : Option Invocation → List OpenCall → Prop where
  | program : Acts none []
  | handler (invocation : Invocation) (calls : List OpenCall) :
      Acts (some invocation) (⟨invocation.frame, some invocation⟩ :: calls)

namespace Environment

variable {σ ω α : Type} [Ledger σ] {environment : Environment ω}
  {allowed : Option Invocation → Request ω → Prop}

variable (environment) in
/-- What a step can be. Requests are answered for whoever acts, and allowed. So are calls, which are
refused or reach a handler. What returns is the innermost call. -/
inductive Taken (allowed : Option Invocation → Request ω → Prop) :
    List OpenCall → Step σ ω → Prop where
  | answered {actor : Option Invocation} {calls : List OpenCall} {x y : Execution σ ω}
      {request : Request ω} {reply : request.Reply} (acts : Acts actor calls)
      (other : request.isCall = false) (now : allowed actor request)
      (here : (environment.answer environment.call request).run x = (reply, y)) :
      Taken allowed calls ⟨x, .answered request reply, y⟩
  | refused {actor : Option Invocation} {calls : List OpenCall} {x y : Execution σ ω}
      {frame : Frame} {cause : RuntimeError} (acts : Acts actor calls)
      (now : allowed actor (.call frame))
      (found : Fallible.eval environment.resolve (x.enter frame) = (.error cause, y)) :
      Taken allowed calls ⟨x, .dispatched frame (.error cause), y⟩
  | handled {actor : Option Invocation} {calls : List OpenCall} {x y : Execution σ ω}
      {frame : Frame} {invocation : Invocation} {handler : Handler ω} (acts : Acts actor calls)
      (now : allowed actor (.call frame))
      (found : Fallible.eval environment.resolve (x.enter frame) =
        (.ok (invocation, handler), y)) :
      Taken allowed calls ⟨x, .dispatched frame (.ok invocation), y⟩
  | returned {calls : List OpenCall} {x : Execution σ ω} {frame : Frame}
      {invocation? : Option Invocation} {result : Except RuntimeError Bytes} :
      Taken allowed (⟨frame, invocation?⟩ :: calls)
        ⟨x, .returned frame result, environment.leave frame result x⟩

theorem Taken.stackStep {calls : List OpenCall} {step : Step σ ω}
    (taken : environment.Taken allowed calls step) : StackStep step := by
  cases taken with
  | answered acts other now here =>
    exact ⟨stack_of_answered other here, fun _ _ same => by cases same⟩
  | refused acts now found => exact ⟨stack_of_entered found, fun _ _ same => by cases same⟩
  | handled acts now found =>
    refine ⟨stack_of_entered found, ?_⟩
    intro frame invocation same
    cases same
    exact frame_of_resolve found
  | returned => exact ⟨environment.stack_leave _ _ _, fun _ _ same => by cases same⟩

theorem Conducted.trackSteps_eq {actor : Option Invocation} {x z : Execution σ ω}
    {steps : List (Step σ ω)} (conducted : environment.Conducted allowed actor x steps z)
    (calls : List OpenCall) : trackSteps steps calls = calls := by
  have nested : environment.Nested (fun _ => True) x steps z :=
    conducted.nested fun _ _ _ => trivial
  exact nested.trackSteps_eq calls

/-- Every step is taken by whoever acts. -/
theorem Conducted.along {actor : Option Invocation} {calls : List OpenCall} {x z : Execution σ ω}
    {steps : List (Step σ ω)} (conducted : environment.Conducted allowed actor x steps z)
    (acts : Acts actor calls) : Along (environment.Taken allowed) calls steps := by
  induction conducted generalizing calls with
  | nil x => trivial
  | answered other now here later ih => exact ⟨.answered acts other now here, ih acts⟩
  | @refused actor x y z frame cause rest now found later ih =>
    exact ⟨.refused acts now found, .returned, ih acts⟩
  | @handled actor x entered y z frame invocation handler result inside rest now found inner later
      ih ih' =>
    have same : invocation.frame = frame := frame_of_resolve found
    subst same
    refine ⟨.handled acts now found, Along.append (ih (.handler invocation calls)) ?_⟩
    rw [inner.trackSteps_eq]
    exact ⟨.returned, ih' acts⟩

/-- Every step of every run is taken by whoever acts. -/
theorem along_steps
    (handlers : environment.registry.HandlersKeepTo fun invocation => allowed (some invocation))
    {program : Program ω α} (makes : program.Makes (allowed none)) (x : Execution σ ω) :
    Along (environment.Taken allowed) [] (environment.steps program x) :=
  (conducted_steps handlers makes x).along .program

/-- At a point of a run what the steps preserve holds, and the next step is taken by whoever acts
there. -/
theorem exists_of_along {program : Program ω α} {x : Execution σ ω}
    (invariant : List OpenCall → Execution σ ω → Prop)
    (along : Along (environment.Taken allowed) [] (environment.steps program x))
    (kept : ∀ calls step, environment.Taken allowed calls step → invariant calls step.before →
      invariant (step.action.track calls) step.after)
    (start : invariant [] x) {earlier later : List (Step σ ω)}
    (parts : environment.steps program x = earlier ++ later) :
    ∃ y, Chained x earlier y ∧ Chained y later ((environment.run program).run x).2 ∧
      invariant (openCalls earlier) y ∧
      Along (environment.Taken allowed) (openCalls earlier) later := by
  have chained := environment.chained_steps program x
  rw [parts] at along chained
  obtain ⟨y, before, after⟩ := chained.split
  obtain ⟨first, second⟩ := along.split
  exact ⟨y, before, after, first.preserves before kept start, second⟩

/-- While calls are open the frame of the innermost one is the current frame. -/
theorem current?_of_open {program : Program ω α} {x : Execution σ ω} {step : Step σ ω}
    {earlier later : List (Step σ ω)}
    (parts : environment.steps program x = earlier ++ step :: later) {call : OpenCall}
    {below : List OpenCall} (opened : openCalls earlier = call :: below) :
    step.before.stack.current? = some call.frame := by
  have stacked := (environment.nested_run program x).stackStep
  have chained := environment.chained_steps program x
  rw [parts] at stacked chained
  obtain ⟨y, before, begins, -⟩ := chained.split
  have nothing : ([] : List OpenCall).map OpenCall.frame <+: x.stack.frames := List.nil_prefix
  have top := openFrames_prefix before (List.forall_mem_append.1 stacked).1 nothing
  rw [openCalls] at opened
  rw [opened] at top
  obtain ⟨more, frames⟩ := top
  rw [begins, CallStack.current?, ← frames]
  rfl

end Environment

end ContractHost
