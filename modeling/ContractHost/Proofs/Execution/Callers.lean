import Mathlib
import ContractHost.Proofs.Execution.Actors

/-!
# Who calls

A handler that calls contracts and the virtual machine in its own contract's name cannot make that
contract appear as another caller, nor another one as itself. Three places name the caller: the
invocation that a handler is given, the stack, and the call that the machine is given. At every
point of a run they agree (`callers_authentic`): under an open call lies the call that made it,
whose contract is the caller, and its frame is the one under the current frame.
-/

namespace ContractHost

/-- A contract calls contracts and the virtual machine in its own name. Whom the program of the
transaction calls for is left open. -/
def Request.InNameOf {ω : Type} : Option Invocation → Request ω → Prop
  | some invocation, .call frame => frame.caller = invocation.address
  | some invocation, .evm sent => sent.caller = invocation.address
  | _, _ => True

theorem Invocation.makes_call {ω : Type} (invocation : Invocation) (target : Address)
    (payload : Bytes) :
    Program.Makes (Request.InNameOf (some invocation))
      (invocation.call target payload : ContractM ω Bytes).run :=
  .ask rfl fun _ => .done _

theorem Invocation.makes_evmCall {ω : Type} (invocation : Invocation) (target : Address) (gas : Gas)
    (input : Bytes) :
    Program.Makes (Request.InNameOf (some invocation))
      (invocation.evmCall target gas input : ContractM ω EvmOutput).run :=
  .ask rfl fun _ => .done _

/-- The call was made by the handler of the other one, in its contract's name. -/
def OpenCall.CalledBy (call caller : OpenCall) : Prop :=
  ∃ outer, caller.invocation? = some outer ∧ call.frame.caller = outer.address

namespace Environment

variable {σ ω α : Type} [Ledger σ] {environment : Environment ω}

/-- A step leaves every open call above the one that made it. -/
theorem isChain_track {calls : List OpenCall} {step : Step σ ω}
    (taken : environment.Taken Request.InNameOf calls step)
    (before : calls.IsChain OpenCall.CalledBy) :
    (step.action.track calls).IsChain OpenCall.CalledBy := by
  have onto {actor : Option Invocation} (acts : Acts actor calls) (frame : Frame)
      (now : Request.InNameOf (ω := ω) actor (.call frame)) (invocation? : Option Invocation) :
      (⟨frame, invocation?⟩ :: calls : List OpenCall).IsChain OpenCall.CalledBy := by
    cases acts with
    | program => exact .singleton _
    | handler invocation calls => exact .cons_cons ⟨invocation, rfl, now⟩ before
  cases taken with
  | answered acts other now here => exact before
  | refused acts now found => exact onto acts _ now _
  | handled acts now found => exact onto acts _ now _
  | returned => exact before.tail

/-- What the open calls tell of the callers: under a call lies the one that made it, whose contract
is the caller, and while the call is the innermost one the frames of the two are on top of the
stack. -/
structure Authentic (calls : List OpenCall) (stack : CallStack) : Prop where
  caller : ∀ above call outer below, calls = above ++ call :: outer :: below →
    ∃ invocation, outer.invocation? = some invocation ∧ call.frame.caller = invocation.address ∧
      ∀ inner, call.invocation? = some inner → inner.caller = invocation.address
  calling : ∀ call outer below invocation, calls = call :: outer :: below →
    outer.invocation? = some invocation →
      stack.current? = some call.frame ∧ stack.calling? = some invocation.frame

variable (environment) in
/-- What a step tells of who takes it, when calls are open: contracts are called, and the virtual
machine is run, for the contract whose handler is the innermost. What everyone is told of the
transaction does not depend on the calls. -/
structure TakenInName (calls : List OpenCall) (step : Step σ ω) : Prop where
  called : ∀ frame outcome inner below, step.action = .dispatched frame outcome →
    calls = inner :: below →
      ∃ invocation, inner.invocation? = some invocation ∧ frame.caller = invocation.address
  machine : ∀ call reply inner below, step.action = .answered (.evm call) reply →
    calls = inner :: below →
      ∃ invocation, inner.invocation? = some invocation ∧ call.caller = invocation.address ∧
        step.before.stack.current? = some invocation.frame ∧
        ∀ bridge, environment.bridge? = some bridge →
          step.after.outside =
            ((bridge ⟨invocation.address, call.target,
              min call.gas step.before.meter.remaining, call.input⟩).run step.before.outside).2
  transaction : ∀ reply, step.action = .answered .transaction reply →
    reply = environment.transaction.info
  stack : ∀ reply, step.action = .answered .stack reply → reply = step.before.stack

theorem authentic_of_isChain {calls : List OpenCall} {stack : CallStack}
    (chain : calls.IsChain OpenCall.CalledBy)
    (top : calls.map OpenCall.frame <+: stack.frames)
    (own : ∀ call ∈ calls, ∀ invocation, call.invocation? = some invocation →
      invocation.frame = call.frame) : Authentic calls stack where
  caller := by
    rintro above call outer below rfl
    obtain ⟨invocation, invoked, named⟩ :=
      (List.isChain_cons_cons.1 (List.isChain_append.1 chain).2.1).1
    refine ⟨invocation, invoked, named, ?_⟩
    intro inner invoked'
    rw [Invocation.caller, own call (by simp) inner invoked', named]
  calling := by
    rintro call outer below invocation rfl invoked
    rw [own outer (by simp) invocation invoked, CallStack.current?, CallStack.calling?]
    obtain ⟨rest, frames⟩ := top
    rw [← frames]
    exact ⟨rfl, rfl⟩

theorem outside_of_evm {call : EvmCall} {reply : (Request.evm (ω := ω) call).Reply}
    {x y : Execution σ ω}
    (here : (environment.answer environment.call (.evm call)).run x = (reply, y)) :
    y.outside = (environment.report call x).2 := by
  obtain ⟨log, answered⟩ := environment.answer_evm environment.call call x
  rw [answered] at here
  dsimp only at here
  split at here
  · cases here
    rfl
  · cases here
    rfl

theorem Taken.inName {calls : List OpenCall} {step : Step σ ω}
    (taken : environment.Taken Request.InNameOf calls step)
    (top : ∀ call below, calls = call :: below → step.before.stack.current? = some call.frame) :
    environment.TakenInName calls step := by
  cases taken with
  | @answered actor calls x y request reply acts other now here =>
    refine ⟨by simp, ?_, ?_, ?_⟩
    · rintro call reply' inner below same rfl
      cases same
      cases acts with
      | handler invocation calls =>
        refine ⟨invocation, rfl, now, top _ _ rfl, ?_⟩
        intro bridge connected
        rw [outside_of_evm here, report, connected, now]
    · intro reply' same
      cases same
      exact (Prod.ext_iff.1 here).1.symm
    · intro reply' same
      cases same
      exact (Prod.ext_iff.1 here).1.symm
  | @refused actor calls x y frame cause acts now found =>
    refine ⟨?_, by simp, by simp, by simp⟩
    rintro frame' outcome inner below same rfl
    cases same
    cases acts with
    | handler invocation calls => exact ⟨invocation, rfl, now⟩
  | @handled actor calls x y frame invocation handler acts now found =>
    refine ⟨?_, by simp, by simp, by simp⟩
    rintro frame' outcome inner below same rfl
    cases same
    cases acts with
    | handler invocation calls => exact ⟨invocation, rfl, now⟩
  | returned => exact ⟨by simp, by simp, by simp, by simp⟩

/-- At every point of a run the open calls name their callers truly, and the next step is taken in
the name of the contract whose handler takes it, if any does. -/
theorem callers_authentic (environment : Environment ω)
    (handlers : environment.registry.HandlersKeepTo fun invocation =>
      Request.InNameOf (some invocation))
    (program : Program ω α) (x : Execution σ ω) :
    ∀ earlier later, environment.steps program x = earlier ++ later →
      ∃ y, Chained x earlier y ∧ Chained y later ((environment.run program).run x).2 ∧
        Authentic (openCalls earlier) y.stack ∧
        ∀ step rest, later = step :: rest →
          environment.TakenInName (openCalls earlier) step := by
  intro earlier later parts
  have along := along_steps handlers (Program.makes_of_forall (fun _ => trivial) program) x
  obtain ⟨y, before, after, chain, along⟩ :=
    exists_of_along (fun calls _ => calls.IsChain OpenCall.CalledBy) along
      (fun _ _ => isChain_track) .nil parts
  have stacked := (environment.nested_run program x).stackStep
  rw [parts] at stacked
  have stacked := (List.forall_mem_append.1 stacked).1
  have nothing : ([] : List OpenCall).map OpenCall.frame <+: x.stack.frames := List.nil_prefix
  have top := openFrames_prefix before stacked nothing
  have own := frame_of_open stacked fun _ member => absurd member List.not_mem_nil
  refine ⟨y, before, after, authentic_of_isChain chain top own, ?_⟩
  rintro step rest rfl
  refine along.1.inName ?_
  intro call below opened
  rw [openCalls] at opened
  rw [opened] at top
  obtain ⟨more, frames⟩ := top
  rw [after.1, CallStack.current?, ← frames]
  rfl

/-- A machine that keeps a record of who calls it. -/
def visited : Bridge (List Address) := fun call => do
  modify (call.caller :: ·)
  return .success [] 0

/-- A contract that passes its input on to another one, and whatever comes of that calls the
machine. -/
def forwarder (next : Address) : Descriptor (List Address) where
  address := .zero
  name := "Forwarder"
  entries := (∅ : Std.ExtTreeMap Selector MethodEntry).insert ⟨[0x66, 0x6f, 0x72, 0x77], rfl⟩
    ⟨0, "forward(bytes)", 21500⟩
  handlers := [fun invocation => .mk do
    let _ ← (invocation.call next invocation.input).run
    let _ ← (invocation.evmCall .zero 0 []).run
    return .ok []]

/-- Two contracts that pass their inputs on to each other, and the machine. -/
def forwardingHost : Environment (List Address) where
  registry := ⟨.standard,
    ((∅ : Std.ExtTreeMap Address (Descriptor (List Address))).insert .zero
      (forwarder (.ofUInt64 1))).insert (.ofUInt64 1) (forwarder .zero)⟩
  transaction := .ofSender (.ofUInt64 2) 100000
  bridge? := some visited

/-- A call of the first contract whose input is a call of the second one without an input. -/
def forwarding : Frame :=
  ⟨.ofUInt64 2, .zero, [0x66, 0x6f, 0x72, 0x77, 0x66, 0x6f, 0x72, 0x77]⟩

/-- The second contract's own call has failed and returned. While it goes on, the first one is its
caller, and the machine is run in its name and then in that of the first. -/
theorem callers_authentic_forwarding :
    let start : Execution ChangeSet (List Address) := .start forwardingHost .empty []
    let steps := forwardingHost.steps (Program.request (.call forwarding)) start
    (steps.take 4).map (fun step => step.action.isDispatch) = [true, true, true, false] ∧
      (∃ y, Chained start (steps.take 4) y ∧ y.stack.calling? = some forwarding ∧
        ∀ inner below, openCalls (steps.take 4) = inner :: below → inner.frame.caller = .zero) ∧
      ((forwardingHost.run (Program.request (.call forwarding))).run start).2.outside =
        [.zero, .ofUInt64 1] := by
  intro start steps
  let selector : Selector := ⟨[0x66, 0x6f, 0x72, 0x77], rfl⟩
  let inner : Frame := ⟨.zero, .ofUInt64 1, selector.toList⟩
  have handlers : forwardingHost.registry.HandlersKeepTo fun invocation =>
      Request.InNameOf (some invocation) := by
    have keeps (next : Address) : ∀ handler ∈ (forwarder next).handlers, ∀ invocation,
        (handler invocation).run.Makes (Request.InNameOf (some invocation)) := by
      intro handler member invocation
      rw [List.mem_singleton.1 member]
      exact (invocation.makes_call _ _).bind fun _ =>
        (invocation.makes_evmCall _ _ _).bind fun _ => .done _
    exact ((Registry.handlersKeepTo_empty .standard _).insert .zero (keeps _)).insert _ (keeps _)
  have opened : openCalls (steps.take 4) =
      [⟨inner, some ⟨"Forwarder", inner, selector⟩⟩,
        ⟨forwarding, some ⟨"Forwarder", forwarding, selector⟩⟩] := by
    decide +kernel
  have parts : steps = steps.take 4 ++ steps.drop 4 := (List.take_append_drop 4 steps).symm
  obtain ⟨y, before, -, authentic, -⟩ :=
    callers_authentic forwardingHost handlers (Program.request (.call forwarding)) start _ _ parts
  refine ⟨by decide +kernel, ⟨y, before, ?_, ?_⟩, by decide +kernel⟩
  · exact (authentic.calling _ _ _ _ opened rfl).2
  · intro call below same
    rw [opened] at same
    cases same
    obtain ⟨outer, invoked, named, -⟩ := authentic.caller [] _ _ _ opened
    cases invoked
    exact named

end Environment

end ContractHost
