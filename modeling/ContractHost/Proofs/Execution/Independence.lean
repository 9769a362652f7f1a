import Mathlib
import ContractHost.Proofs.Execution.Lockstep

/-!
# Calls after other calls

What an earlier call leaves behind for a later one, apart from what it did to the ledger and the
outside world, is the gas that is left, the value and the recipient of the transaction, the events it
announced, and the entry frame. A contract that looks at neither the events nor the stack runs after
any history as it would on a new execution (`call_after_history`), as long as the entry leaves room:
it is one of the frames that the bound of the stack counts, so that the first call may nest by one
frame more than all later ones.
-/

namespace ContractHost

/-- The failure of the check that bounds the stack. -/
def RuntimeError.isTooDeep : RuntimeError → Bool
  | contextDepthExceeded _ _ => true
  | _ => false

/-- A step failed because the stack held too many frames. -/
def isTooDeep {α : Type} : Except RuntimeError α → Bool
  | .error cause => cause.isTooDeep
  | .ok _ => false

theorem isTooDeep_map {α β : Type} (f : α → β) (result : Except RuntimeError α) :
    isTooDeep (result.map f) = isTooDeep result := by
  rcases result with cause | a
  · rfl
  · rfl

theorem CallStack.isTooDeep_push (stack : CallStack) (frame : Frame) :
    isTooDeep (stack.push frame).validate = decide (stack.maxDepth < stack.depth + 1) := by
  have nonempty : (stack.push frame).isEmpty = false := rfl
  rw [validate, nonempty, if_neg Bool.false_ne_true, maxDepth_push, depth_push]
  split
  · rename_i deep
    exact (decide_eq_true deep).symm
  · rename_i fits
    exact (decide_eq_false fits).symm

/-- A new execution on what another has left, its ledger, its gas and the outside world, in the
transaction as it stands. -/
def Execution.renewed {σ ω : Type} (environment : Environment ω) (x : Execution σ ω) :
    Execution σ ω :=
  { withMeter environment x.meter x.ledger x.outside with value := x.value, recipient := x.recipient }

namespace Environment

open Execution (Beside Matches)

variable {σ ω α : Type} [Ledger σ] {environment : Environment ω}

/-! ## When a call is too deep -/

theorem isTooDeep_of_unresolved {cause : RuntimeError} (h : cause.isUnresolved = true) :
    cause.isTooDeep = false := by
  cases cause with
  | contextDepthExceeded depth max => cases h
  | _ => rfl

theorem isTooDeep_lookup (stack : CallStack) :
    isTooDeep (environment.lookup stack) = isTooDeep stack.validate := by
  rcases environment.lookup_cases stack with
    ⟨cause, refused, failed⟩ | ⟨cause, valid, failed, unresolved⟩ | ⟨found, looked, finds⟩
  · rw [refused, failed]
    rfl
  · rw [valid, failed]
    exact isTooDeep_of_unresolved unresolved
  · rw [finds.valid, looked]
    rfl

theorem isTooDeep_start (found : Found ω) : isTooDeep (Found.start found) = false := by
  rw [Found.start, isTooDeep_map, Descriptor.handler]
  split
  · rfl
  · rfl

omit [Ledger σ] in
/-- A call that can pay the basic gas is too deep just when its frame is one more than the bound. -/
theorem isTooDeep_resolve (x : Execution σ ω) (frame : Frame) :
    isTooDeep (Fallible.eval environment.resolve (x.enter frame)).1 = true ↔
      environment.basicGas ≤ x.meter.remaining ∧ x.stack.maxDepth < x.stack.depth + 1 := by
  have checked : isTooDeep (environment.lookup (x.enter frame).stack) =
      decide (x.stack.maxDepth < x.stack.depth + 1) :=
    (isTooDeep_lookup _).trans (x.stack.isTooDeep_push frame)
  rw [eval_resolve]
  split
  · rename_i short
    constructor
    · intro deep
      cases deep
    · rintro ⟨enough, -⟩
      exact absurd short (UInt64.not_lt.2 enough)
  rename_i enough
  have affordable : environment.basicGas ≤ x.meter.remaining := UInt64.not_lt.1 enough
  split
  · rename_i cause looked
    rw [looked] at checked
    show cause.isTooDeep = true ↔ _
    have decided : cause.isTooDeep = decide (x.stack.maxDepth < x.stack.depth + 1) := checked
    rw [decided, decide_eq_true_iff]
    exact ⟨fun deep => ⟨affordable, deep⟩, And.right⟩
  · rename_i found looked
    rw [looked] at checked
    have fits : ¬ x.stack.maxDepth < x.stack.depth + 1 := of_decide_eq_false checked.symm
    constructor
    · intro deep
      split at deep
      · cases deep
      · rw [isTooDeep_start] at deep
        cases deep
    · rintro ⟨-, more⟩
      exact absurd more fits

/-! ## What dispatches of a call do -/

/-- In nested steps a frame is dispatched on top of those that were there before, and whether it is too
deep is decided by how many there are. -/
theorem Nested.dispatched {allowed : Request ω → Prop} {x z : Execution σ ω}
    {steps : List (Step σ ω)} (nested : environment.Nested allowed x steps z) :
    ∀ step ∈ steps, ∀ target outcome, step.action = .dispatched target outcome →
      (isTooDeep outcome = true ↔ environment.basicGas ≤ step.before.meter.remaining ∧
        step.before.stack.maxDepth < step.before.stack.depth + 1) := by
  refine nested.forall ?_ ?_ ?_
  · intro request x _ _ target outcome acts
    cases acts
  · intro frame x target outcome acts
    cases acts
    rw [isTooDeep_map]
    exact environment.isTooDeep_resolve x frame
  · intro frame result x target outcome acts
    cases acts

/-- The number of frames that earlier calls left, and that of the call's own frames, decide whether one
more is too deep. -/
theorem dispatched_of_call (frame : Frame) (x : Execution σ ω) :
    ∀ step ∈ environment.callSteps frame x, ∀ target outcome,
      step.action = .dispatched target outcome →
        ∃ own, step.before.stack.frames = own ++ x.stack.frames ∧
          (isTooDeep outcome = true ↔ environment.basicGas ≤ step.before.meter.remaining ∧
            x.stack.maxDepth < own.length + 1 + x.stack.depth) := by
  intro step member target outcome acts
  have nested := environment.nested_call frame x
  obtain ⟨own, frames⟩ := nested.suffix step member
  have deep := nested.dispatched step member target outcome acts
  have depth : step.before.stack.depth + 1 = own.length + 1 + x.stack.depth := by
    rw [CallStack.depth, ← frames, List.length_append, CallStack.depth]
    omega
  rw [nested.maxDepth_eq step member, depth] at deep
  exact ⟨own, frames.symm, deep⟩

/-! ## After other calls -/

variable {β : Type}

theorem agree_renewed {x : Execution σ ω}
    (bound : x.stack.maxDepth = environment.registry.config.maxCallDepth.toNat)
    (handlers : environment.registry.HandlersMake (Request.MayLook False (x.events = [])))
    {frame : Frame}
    (fits : ∀ step ∈ environment.callSteps frame (x.renewed environment),
      step.action.isDispatch = true →
        x.stack.depth = 0 ∨ step.before.stack.depth + x.stack.depth < x.stack.maxDepth) :
    Agree (Matches Eq x.events) (Fallible.eval (environment.call frame) x)
      (Fallible.eval (environment.call frame) (x.renewed environment)) := by
  have entered : Beside Eq x.events x.stack.frames [] (x.enter frame)
      ((x.renewed environment).enter frame) := by
    refine ⟨⟨rfl, rfl, rfl, rfl, rfl, (List.append_nil _).symm⟩, bound, [frame], ?_, rfl, rfl⟩
    exact .inl (List.cons_ne_nil _ _)
  refine agree_call Ledger.corresponds_eq (handlers.mono fun request looks => ?_) entered ?_
  · exact looks.mono False.elim id
  · intro step member dispatch
    have nested := environment.nested_call frame (x.renewed environment)
    have bound' : step.before.stack.maxDepth = x.stack.maxDepth :=
      (nested.maxDepth_eq step member).trans bound.symm
    rcases fits step member dispatch with none | below
    · exact .inl none
    · have height : x.stack.frames.length = x.stack.depth := rfl
      refine .inr ⟨?_, ?_⟩
      · omega
      · rw [height, List.length_nil]
        omega

/-- Which frame is the entry makes no difference. -/
theorem agree_entry {x : Execution σ ω} {entry entry' : Frame}
    (left : x.stack.frames = [entry])
    (handlers : environment.registry.HandlersMake (Request.MayLook False True)) (frame : Frame) :
    Agree (Matches Eq []) (Fallible.eval (environment.call frame) x)
      (Fallible.eval (environment.call frame)
        { x with stack := { x.stack with frames := [entry'] } }) := by
  have entered : Beside Eq [] [entry] [entry'] (x.enter frame)
      (Execution.enter { x with stack := { x.stack with frames := [entry'] } } frame) := by
    refine ⟨⟨rfl, rfl, rfl, rfl, rfl, rfl⟩, rfl, [frame], ?_, congrArg (frame :: ·) left, rfl⟩
    exact .inl (List.cons_ne_nil _ _)
  refine agree_call Ledger.corresponds_eq (handlers.mono fun request looks => ?_) entered ?_
  · exact looks.mono False.elim fun _ => rfl
  · exact dispatchesFit_of_length rfl _

/-- After any history there is no frame on the stack but that of its first call, the entry. A call then
comes to the same as on a new execution, as long as it leaves room for the entry; and which frame the
entry is never matters. The first call may have as many frames on the stack as its bound allows, a
later one as many but one. -/
theorem call_after_history (environment : Environment ω) (history : Program ω α) (meter : Meter)
    (ledger : σ) (outside : ω) :
    let start := Execution.withMeter environment meter ledger outside
    let x := ((environment.run history).run start).2
    let bound := environment.registry.config.maxCallDepth.toNat
    x.stack.frames = (firstEntered? (environment.steps history start)).toList ∧
      x.stack.depth =
        (if (environment.steps history start).any (·.action.isDispatch) then 1 else 0) ∧
      (environment.registry.HandlersMake (Request.MayLook False (x.events = [])) → ∀ frame,
        (∀ step ∈ environment.callSteps frame (x.renewed environment),
          step.action.isDispatch = true →
            x.stack.depth = 0 ∨ step.before.stack.depth + 1 < bound) →
        Agree (Matches Eq x.events) (Fallible.eval (environment.call frame) x)
          (Fallible.eval (environment.call frame) (x.renewed environment))) ∧
      (environment.registry.HandlersMake (Request.MayLook False True) → ∀ frame entry entry',
        x.stack.frames = [entry] →
        Agree (Matches Eq []) (Fallible.eval (environment.call frame) x)
          (Fallible.eval (environment.call frame)
            { x with stack := { x.stack with frames := [entry'] } })) ∧
      ∀ frame, ∀ step ∈ environment.callSteps frame x, ∀ target outcome,
        step.action = .dispatched target outcome →
          ∃ own, step.before.stack.frames = own ++ x.stack.frames ∧
            (isTooDeep outcome = true ↔ environment.basicGas ≤ step.before.meter.remaining ∧
              bound < own.length + 1 + x.stack.depth) := by
  intro start x bound
  have nested := environment.nested_run history start
  have frames : x.stack.frames = _ := nested.frames_of_isEmpty rfl
  have depth : x.stack.depth =
      if (environment.steps history start).any (·.action.isDispatch) then 1 else 0 := by
    rw [CallStack.depth, frames, ← isSome_firstEntered?]
    cases firstEntered? (environment.steps history start) with
    | none => rfl
    | some entry => rfl
  have bound_eq : x.stack.maxDepth = bound := maxDepth_of_chained nested.chained nested.stackStep
  refine ⟨frames, depth, ?_, ?_, ?_⟩
  · intro handlers frame fits
    refine agree_renewed bound_eq handlers fun step member dispatch => ?_
    have one : x.stack.depth ≤ 1 := by
      rw [depth]
      split
      · exact Nat.le_refl 1
      · exact Nat.zero_le 1
    rcases fits step member dispatch with none | below
    · exact .inl none
    · right
      omega
  · intro handlers frame entry entry' left
    exact agree_entry left handlers frame
  · intro frame
    rw [← bound_eq]
    exact dispatched_of_call frame x

/-- The execution after one call of the contract that calls itself in vain. -/
def stumbled : Execution ChangeSet Unit :=
  ((stumblerHost.run (Program.request (.call stumbling))).run
    (.withMeter stumblerHost ⟨100000⟩ .empty ())).2

theorem call_after_history_stumbling :
    stumbled.stack.frames = [stumbling] ∧ stumbled.stack.depth = 1 ∧
      (Fallible.eval (stumblerHost.call stumbling) stumbled).1 =
        (Fallible.eval (stumblerHost.call stumbling) (stumbled.renewed stumblerHost)).1 := by
  have after := call_after_history stumblerHost (Program.request (.call stumbling)) ⟨100000⟩
    ChangeSet.empty ()
  have silent : stumbled.events = [] := by decide +kernel
  have handlers : stumblerHost.registry.HandlersMake (Request.MayLook False (stumbled.events = [])) := by
    refine (Registry.handlersMake_empty .standard _).insert .zero ?_
    intro handler member invocation
    rw [List.mem_singleton.1 member]
    exact .ask trivial fun _ => .done _
  have entry : firstEntered? (stumblerHost.steps (Program.request (.call stumbling))
      (.withMeter stumblerHost ⟨100000⟩ ChangeSet.empty ())) = some stumbling := by
    decide +kernel
  have shallow : ∀ step ∈ stumblerHost.callSteps stumbling (stumbled.renewed stumblerHost),
      step.action.isDispatch = true →
        stumbled.stack.depth = 0 ∨ step.before.stack.depth + 1 < 128 := by
    decide +kernel
  obtain ⟨frames, depth, renewed, -, -⟩ := after
  rw [entry] at frames
  rw [← isSome_firstEntered?, entry] at depth
  exact ⟨frames, depth, (renewed handlers stumbling shallow).result⟩

/-- A contract that tells how many events it sees, and announces one. -/
def watcher : Descriptor Unit where
  address := .zero
  name := "Watcher"
  entries := (∅ : Std.ExtTreeMap Selector MethodEntry).insert ⟨[0x77, 0x61, 0x74, 0x63], rfl⟩
    ⟨0, "watch()", 21500⟩
  handlers := [fun invocation =>
    .mk (.ask .events fun seen =>
      .ask (.emit invocation.address [.zero] []) fun _ => .done (.ok [UInt8.ofNat seen.length]))]

/-- A host with this contract alone, on which calls may nest so deep. -/
def watcherHost (maxCallDepth : UInt64) : Environment Unit where
  registry := ⟨{ Config.standard with maxCallDepth },
    (∅ : Std.ExtTreeMap Address (Descriptor Unit)).insert .zero watcher⟩
  transaction := .ofSender .zero 100000
  bridge? := none

/-- The frame of a call of this contract. -/
def watching : Frame := ⟨.zero, .zero, [0x77, 0x61, 0x74, 0x63]⟩

/-- The execution after one call. -/
def watched (maxCallDepth : UInt64) : Execution ChangeSet Unit :=
  (Fallible.eval ((watcherHost maxCallDepth).call watching)
    (.start (watcherHost maxCallDepth) .empty ())).2

/-- Under a bound of one a second call is refused that a new execution accepts, and under a bound of
two it sees the event of the first. -/
theorem call_depends_on_history :
    (watcherHost 1).registry.config.validate = .ok () ∧
      (Fallible.eval ((watcherHost 1).call watching) (watched 1)).1 =
        .error (.contextDepthExceeded 2 1) ∧
      (Fallible.eval ((watcherHost 1).call watching) ((watched 1).renewed (watcherHost 1))).1 =
        .ok [0] ∧
      (watcherHost 2).registry.config.validate = .ok () ∧
      (Fallible.eval ((watcherHost 2).call watching) (watched 2)).1 = .ok [1] ∧
      (Fallible.eval ((watcherHost 2).call watching) ((watched 2).renewed (watcherHost 2))).1 =
        .ok [0] := by
  decide +kernel

end Environment

end ContractHost
