import Mathlib
import ContractHost.Proofs.Gas.Accounting

/-!
# Runs with more gas, and with less

A run in which no charge fails takes some amount of gas, and any meter that holds this amount will
do: the run is the same, step by step, but for the meter (`Translates`). This needs contracts that
do not look at the meter (`Request.Blind`) and a virtual machine that does not answer by the gas it
is given (`Bridge.Blind`). What the machine keeps of that gas in the outside world is allowed to
differ: `same` is what two worlds have in common as far as any answer goes.
-/

namespace ContractHost

/-- Two executions differ at most in the gas that is left, in the log, which is never read, and in
what `same` does not compare. -/
structure Execution.Alike {σ ω : Type} (same : ω → ω → Prop) (x x' : Execution σ ω) : Prop where
  ledger : x'.ledger = x.ledger
  outside : same x.outside x'.outside
  stack : x'.stack = x.stack
  value : x'.value = x.value
  recipient : x'.recipient = x.recipient
  events : x'.events = x.events

/-- The virtual machine reports the same whatever gas it is given. -/
def Bridge.Blind {ω : Type} (same : ω → ω → Prop) (bridge : Bridge ω) : Prop :=
  ∀ call gas w w', same w w' →
    ((bridge { call with gas }).run w').1 = ((bridge call).run w).1 ∧
      same ((bridge call).run w).2 ((bridge { call with gas }).run w').2

/-- The request neither looks at the meter nor charges or refunds gas of its own, and acts alike on
worlds that are the same. -/
def Request.Blind {ω : Type} (same : ω → ω → Prop) : Request ω → Prop
  | .charge _ => False
  | .refund _ => False
  | .gasLeft => False
  | .outside act => ∀ w w', same w w' → same (act w) (act w')
  | _ => True

namespace Execution.Alike

variable {σ ω : Type} {same : ω → ω → Prop} {x x' : Execution σ ω}

/-- The second of two executions that are alike, made from the first. -/
theorem exists_eq (alike : Alike same x x') :
    ∃ outside meter log, same x.outside outside ∧ x' = { x with outside, meter, log } := by
  obtain ⟨ledger, outside, stack, meter, value, recipient, events, log⟩ := x'
  obtain ⟨rfl, outsides, rfl, rfl, rfl, rfl⟩ := alike
  exact ⟨outside, meter, log, outsides, rfl⟩

theorem flip (alike : Alike same x x') : Alike (flip same) x' x :=
  ⟨alike.ledger.symm, alike.outside, alike.stack.symm, alike.value.symm, alike.recipient.symm,
    alike.events.symm⟩

theorem enter (alike : Alike same x x') (frame : Frame) :
    Alike same (x.enter frame) (x'.enter frame) :=
  ⟨alike.ledger, alike.outside, congrArg (·.push frame) alike.stack, alike.value, alike.recipient,
    alike.events⟩

end Execution.Alike

theorem Bridge.Blind.flip {ω : Type} {same : ω → ω → Prop} {bridge : Bridge ω}
    (blind : bridge.Blind same) : bridge.Blind (flip same) := by
  intro call gas w w' sames
  obtain ⟨report, outside⟩ := blind { call with gas } call.gas w' w sames
  exact ⟨report.symm, outside⟩

theorem Request.Blind.flip {ω : Type} {same : ω → ω → Prop} {request : Request ω}
    (blind : request.Blind same) : request.Blind (flip same) := by
  cases request with
  | outside act => exact fun w w' sames => blind w' w sames
  | charge amount => cases blind
  | refund amount => cases blind
  | gasLeft => cases blind
  | _ => trivial

theorem Request.Blind.isRefund {ω : Type} {same : ω → ω → Prop} {request : Request ω}
    (blind : request.Blind same) : request.isRefund = false := by
  cases request with
  | refund amount => cases blind
  | _ => rfl

namespace Environment

open Execution (Alike)

variable {σ ω α β γ : Type} [Ledger σ] {environment : Environment ω} {same : ω → ω → Prop}

/-! ## Translation -/

/-- The virtual machine, if there is one, does not answer by the gas it is given. -/
def BlindBridge (environment : Environment ω) (same : ω → ω → Prop) : Prop :=
  ∀ bridge, environment.bridge? = some bridge → bridge.Blind same

omit [Ledger σ] in
theorem BlindBridge.flip (bridges : environment.BlindBridge same) :
    environment.BlindBridge (flip same) := by
  intro bridge here
  exact (bridges bridge here).flip

/-- No charge fails. -/
def Paid (environment : Environment ω) (steps : List (Step σ ω)) : Prop :=
  ∀ step ∈ steps, environment.chargeFails step = false

theorem paid_nil : environment.Paid ([] : List (Step σ ω)) := by
  intro step member
  cases member

theorem paid_append {steps later : List (Step σ ω)} :
    environment.Paid (steps ++ later) ↔ environment.Paid steps ∧ environment.Paid later :=
  List.forall_mem_append

theorem paid_singleton {step : Step σ ω} :
    environment.Paid [step] ↔ environment.chargeFails step = false :=
  List.forall_mem_singleton

variable (environment) (same) in
/-- From `x` a computation takes some amount, and from an execution that is alike and holds this
amount it makes the same reply, ends alike, takes the same amount, and no charge fails. -/
def Translates (x : Execution σ ω) (run : Execution σ ω → β × Execution σ ω)
    (steps : Execution σ ω → List (Step σ ω)) : Prop :=
  ∃ used, x.gas = (run x).2.gas + used ∧
    ∀ x', Alike same x x' → used ≤ x'.gas →
      (run x').1 = (run x).1 ∧ Alike same (run x).2 (run x').2 ∧
        x'.gas = (run x').2.gas + used ∧ environment.Paid (steps x')

/-- One computation after another takes what the two take. -/
theorem Translates.andThen {x : Execution σ ω} {first : Execution σ ω → β × Execution σ ω}
    {firstSteps : Execution σ ω → List (Step σ ω)}
    (here : environment.Translates same x first firstSteps)
    (second : β → Execution σ ω → γ × Execution σ ω)
    (secondSteps : β → Execution σ ω → List (Step σ ω))
    (later : environment.Translates same (first x).2 (second (first x).1)
      (secondSteps (first x).1)) :
    environment.Translates same x (fun z => second (first z).1 (first z).2)
      (fun z => firstSteps z ++ secondSteps (first z).1 (first z).2) := by
  obtain ⟨used, taken, runs⟩ := here
  obtain ⟨used', taken', runs'⟩ := later
  have total : x.gas = (second (first x).1 (first x).2).2.gas + (used + used') := by omega
  refine ⟨used + used', total, ?_⟩
  intro x' alike enough
  obtain ⟨reply, alike, gas, paid⟩ := runs x' alike (by omega)
  obtain ⟨reply', alike', gas', paid'⟩ := runs' _ alike (by omega)
  have total' : x'.gas = (second (first x).1 (first x').2).2.gas + (used + used') := by omega
  dsimp only
  rw [reply]
  exact ⟨reply', alike', total', paid_append.2 ⟨paid, paid'⟩⟩

/-! ## Requests -/

/-- The steps of a request that is answered in one step. -/
def answerSteps (environment : Environment ω) (call : Frame → RuntimeM (Execution σ ω) Bytes)
    (request : Request ω) (x : Execution σ ω) : List (Step σ ω) :=
  [⟨x, .answered request ((environment.answer call request).run x).1,
    ((environment.answer call request).run x).2⟩]

/-- With enough gas a store operation makes the same of the same ledger. -/
theorem answer_store_of_le (call : Frame → RuntimeM (Execution σ ω) Bytes)
    (operation : Store.Operation) {price : Gas} {ledger after : σ}
    {reply : Except RuntimeError operation.Reply}
    (runs : ∀ meter : Meter, price ≤ meter.remaining →
      Fallible.eval (operation.run environment.registry.config.storage) ⟨ledger, meter⟩ =
        (reply, ⟨after, ⟨meter.remaining - price⟩⟩))
    (z : Execution σ ω) (held : z.ledger = ledger) (enough : price ≤ z.meter.remaining) :
    ∃ log, (environment.answer call (.store operation)).run z =
      (reply, { z with ledger := after, meter := ⟨z.meter.remaining - price⟩, log }) := by
  obtain ⟨log, answered⟩ := environment.answer_store call operation z
  rw [held, runs z.meter enough] at answered
  exact ⟨log, answered⟩

theorem translates_store (call : Frame → RuntimeM (Execution σ ω) Bytes)
    (operation : Store.Operation) {x : Execution σ ω}
    (paid : environment.Paid (environment.answerSteps call (.store operation) x)) :
    environment.Translates same x (environment.answer call (.store operation)).run
      (environment.answerSteps call (.store operation)) := by
  have enough : operation.need environment.registry.config.storage x.ledger ≤ x.gas :=
    chargeFails_eq_false_iff.1 (paid_singleton.1 paid)
  obtain ⟨⟨reply, after, -, runs⟩, priced⟩ :=
    operation.costs_of_le environment.registry.config.storage ⟨x.ledger, x.meter⟩ enough
  generalize operation.price environment.registry.config.storage ⟨x.ledger, x.meter⟩ = price
    at runs priced
  have covered : price ≤ x.meter.remaining := by
    rw [UInt64.le_iff_toNat_le, priced]
    exact enough
  obtain ⟨log, here⟩ := answer_store_of_le call operation runs x rfl covered
  refine ⟨price.toNat, ?_, ?_⟩
  · rw [here]
    exact gas_of_paid covered
  intro x' alike enough'
  have covered' : price ≤ x'.meter.remaining := UInt64.le_iff_toNat_le.2 enough'
  obtain ⟨log', there⟩ := answer_store_of_le call operation runs x' alike.ledger covered'
  have unfailing : environment.Paid (environment.answerSteps call (.store operation) x') := by
    rw [answerSteps, paid_singleton, chargeFails_eq_false_iff]
    show operation.need _ x'.ledger ≤ x'.gas
    rw [alike.ledger]
    exact priced ▸ enough'
  rw [there, here]
  exact ⟨rfl, { alike with ledger := rfl }, gas_of_paid covered', unfailing⟩

omit [Ledger σ] in
/-- The machine reports the same on worlds that are the same. -/
theorem report_of_alike (bridges : environment.BlindBridge same)
    (call : EvmCall) {x x' : Execution σ ω} (alike : Alike same x x') :
    (environment.report call x').1 = (environment.report call x).1 ∧
      same (environment.report call x).2 (environment.report call x').2 := by
  unfold report
  cases bridged : environment.bridge? with
  | none => exact ⟨rfl, alike.outside⟩
  | some bridge =>
    exact bridges bridge bridged { call with gas := min call.gas x.meter.remaining }
      (min call.gas x'.meter.remaining) _ _ alike.outside

theorem translates_evm (bridges : environment.BlindBridge same)
    (call : Frame → RuntimeM (Execution σ ω) Bytes) (call' : EvmCall) {x : Execution σ ω}
    (paid : environment.Paid (environment.answerSteps call (.evm call') x)) :
    environment.Translates same x (environment.answer call (.evm call')).run
      (environment.answerSteps call (.evm call')) := by
  have answered (z : Execution σ ω)
      (covered : (environment.report call' z).1.gasUsed ≤ z.meter.remaining) :
      ∃ log, (environment.answer call (.evm call')).run z = _ :=
    (environment.answer_evm call call' z).imp fun log here =>
      here.trans (if_neg (UInt64.not_lt.2 covered))
  have covered : (environment.report call' x).1.gasUsed ≤ x.meter.remaining :=
    UInt64.le_iff_toNat_le.2 (chargeFails_eq_false_iff.1 (paid_singleton.1 paid))
  obtain ⟨log, here⟩ := answered x covered
  refine ⟨(environment.report call' x).1.gasUsed.toNat, ?_, ?_⟩
  · rw [here]
    exact gas_of_paid covered
  intro x' alike enough
  obtain ⟨reports, worlds⟩ := report_of_alike bridges call' alike
  have covered' : (environment.report call' x').1.gasUsed ≤ x'.meter.remaining := by
    rw [reports]
    exact UInt64.le_iff_toNat_le.2 enough
  obtain ⟨log', there⟩ := answered x' covered'
  have unfailing : environment.Paid (environment.answerSteps call (.evm call') x') :=
    paid_singleton.2 (chargeFails_eq_false_iff.2 (UInt64.le_iff_toNat_le.1 covered'))
  rw [there, here]
  dsimp only
  rw [reports]
  exact ⟨rfl, { alike with outside := worlds }, gas_of_paid (UInt64.le_iff_toNat_le.2 enough),
    unfailing⟩

/-- What costs nothing does the same in executions that are alike. -/
theorem alike_answer (call : Frame → RuntimeM (Execution σ ω) Bytes) {request : Request ω}
    (other : request.isCall = false) (free : request.isMetered = false)
    (blind : request.Blind same) {x x' : Execution σ ω} (alike : Alike same x x') :
    ((environment.answer call request).run x').1 = ((environment.answer call request).run x).1 ∧
      Alike same ((environment.answer call request).run x).2
        ((environment.answer call request).run x').2 := by
  obtain ⟨outside, meter, log, sames, rfl⟩ := alike.exists_eq
  cases request with
  | call frame => cases other
  | evm call' => cases free
  | store operation => cases free
  | charge amount => cases free
  | refund amount => cases free
  | gasLeft => cases blind
  | transfer sender recipient amount =>
    obtain ⟨noted, here⟩ := environment.answer_transfer call sender recipient amount x
    obtain ⟨noted', there⟩ := environment.answer_transfer call sender recipient amount
      { x with outside, meter, log }
    rw [here, there]
    exact ⟨rfl, { alike with ledger := rfl }⟩
  | emit address topics data =>
    rw [answer_emit, answer_emit]
    split
    · exact ⟨rfl, { alike with events := rfl }⟩
    · exact ⟨rfl, alike⟩
  | setValue value =>
    refine ⟨rfl, ?_⟩
    show Alike same (if value = 0 then x else _) (if value = 0 then _ else _)
    split
    · exact alike
    · exact { alike with value := rfl }
  | setRecipient address =>
    refine ⟨rfl, ?_⟩
    show Alike same (if address.isZero = true then x else _)
      (if address.isZero = true then _ else _)
    split
    · exact alike
    · exact { alike with recipient := rfl }
  | outside act => exact ⟨rfl, { alike with outside := blind _ _ sames }⟩
  | ledger operation => exact ⟨rfl, { alike with ledger := rfl }⟩
  | takeEvents => exact ⟨rfl, { alike with events := rfl }⟩
  | _ => exact ⟨rfl, alike⟩

theorem translates_unmetered (call : Frame → RuntimeM (Execution σ ω) Bytes) {request : Request ω}
    (other : request.isCall = false) (free : request.isMetered = false)
    (blind : request.Blind same) (x : Execution σ ω) :
    environment.Translates same x (environment.answer call request).run
      (environment.answerSteps call request) := by
  have kept (z : Execution σ ω) : ((environment.answer call request).run z).2.gas = z.gas :=
    congrArg (·.remaining.toNat) ((answer_leaves call other z).2.1 free)
  refine ⟨0, (kept x).symm, ?_⟩
  intro x' alike _
  obtain ⟨reply, alike⟩ := alike_answer call other free blind alike
  refine ⟨reply, alike, (kept x').symm, ?_⟩
  exact paid_singleton.2 (chargeFails_of_unmetered free _ _ _)

/-- Every request but a call. -/
theorem translates_answer
    (bridges : environment.BlindBridge same)
    (call : Frame → RuntimeM (Execution σ ω) Bytes) {request : Request ω}
    (other : request.isCall = false) (blind : request.Blind same) {x : Execution σ ω}
    (paid : environment.Paid (environment.answerSteps call request x)) :
    environment.Translates same x (environment.answer call request).run
      (environment.answerSteps call request) := by
  cases metered : request.isMetered with
  | false => exact translates_unmetered call other metered blind x
  | true =>
    cases request with
    | store operation => exact translates_store call operation paid
    | evm call' => exact translates_evm bridges call call' paid
    | charge amount => cases blind
    | refund amount => cases blind
    | _ => cases metered

/-! ## Calls -/

/-- The dispatch of a frame, as a step. -/
def dispatchSteps (environment : Environment ω) (frame : Frame) (x : Execution σ ω) :
    List (Step σ ω) :=
  [⟨x, .dispatched frame ((Fallible.eval environment.resolve (x.enter frame)).1.map Prod.fst),
    (Fallible.eval environment.resolve (x.enter frame)).2⟩]

omit [Ledger σ] in
theorem dispatchPrice_of_alike {x x' : Execution σ ω} (alike : Alike same x x') (frame : Frame) :
    environment.dispatchPrice x' frame = environment.dispatchPrice x frame := by
  rw [dispatchPrice, dispatchPrice, (alike.enter frame).stack]

variable (same) in
theorem translates_resolve (frame : Frame) {x : Execution σ ω}
    (paid : environment.Paid (environment.dispatchSteps frame x)) :
    environment.Translates same x (fun z => Fallible.eval environment.resolve (z.enter frame))
      (environment.dispatchSteps frame) := by
  have covered : environment.dispatchPrice x frame ≤ x.meter.remaining :=
    UInt64.le_iff_toNat_le.2 (chargeFails_eq_false_iff.1 (paid_singleton.1 paid))
  obtain ⟨outcome, -, resolves⟩ := environment.exists_resolves x frame
  obtain ⟨log, here⟩ := resolves (x.enter frame) rfl covered
  refine ⟨(environment.dispatchPrice x frame).toNat, ?_, ?_⟩
  · dsimp only
    rw [here]
    exact gas_of_paid covered
  intro x' alike enough
  have covered' : environment.dispatchPrice x frame ≤ x'.meter.remaining :=
    UInt64.le_iff_toNat_le.2 enough
  obtain ⟨log', there⟩ := resolves (x'.enter frame) (alike.enter frame).stack covered'
  have unfailing : environment.Paid (environment.dispatchSteps frame x') := by
    rw [dispatchSteps, paid_singleton, chargeFails_eq_false_iff]
    show (environment.dispatchPrice x' frame).toNat ≤ x'.gas
    rw [dispatchPrice_of_alike alike]
    exact enough
  dsimp only
  rw [there, here]
  exact ⟨rfl, { alike.enter frame with }, gas_of_paid covered', unfailing⟩

/-- The handler that a dispatch found is run; without one the failure stands. -/
def handle (environment : Environment ω) (call : Frame → RuntimeM (Execution σ ω) Bytes) :
    Except RuntimeError (Invocation × Handler ω) → Execution σ ω →
      Except RuntimeError Bytes × Execution σ ω
  | .ok (invocation, handler), x => (environment.runWith call (handler invocation).run).run x
  | .error cause, x => (.error cause, x)

theorem eval_dispatch_eq_handle (call : Frame → RuntimeM (Execution σ ω) Bytes)
    (x : Execution σ ω) :
    Fallible.eval (environment.dispatch call) x =
      environment.handle call (Fallible.eval environment.resolve x).1
        (Fallible.eval environment.resolve x).2 := by
  rw [eval_dispatch]
  rcases Fallible.eval environment.resolve x with ⟨cause | ⟨invocation, handler⟩, y⟩
  · rfl
  · rfl

/-- The return of a call, as a step. -/
def leaveSteps (environment : Environment ω) (frame : Frame) (result : Except RuntimeError Bytes)
    (x : Execution σ ω) : List (Step σ ω) :=
  [⟨x, .returned frame result, environment.leave frame result x⟩]

theorem translates_programSteps {call : Frame → RuntimeM (Execution σ ω) Bytes}
    {callSteps : Frame → Execution σ ω → List (Step σ ω)}
    (bridges : environment.BlindBridge same)
    (calls : ∀ frame x, environment.Paid (callSteps frame x) →
      environment.Translates same x (Fallible.eval (call frame)) (callSteps frame))
    {program : Program ω α} (makes : program.Makes (Request.Blind same)) {x : Execution σ ω}
    (paid : environment.Paid (environment.programSteps call callSteps program x)) :
    environment.Translates same x (environment.runWith call program).run
      (environment.programSteps call callSteps program) := by
  induction makes generalizing x with
  | done result =>
    exact ⟨0, rfl, fun x' alike _ => ⟨rfl, alike, rfl, paid_nil⟩⟩
  | @ask request next now _ ih =>
    obtain ⟨paid, paid'⟩ := paid_append.1 paid
    have here : environment.Translates same x (environment.answer call request).run
        (environment.requestSteps call callSteps request) := by
      cases called : request.isCall with
      | true =>
        cases request with
        | call frame => exact calls frame x paid
        | _ => cases called
      | false =>
        have single : environment.requestSteps call callSteps request =
            environment.answerSteps call request := funext (requestSteps_of_isCall called)
        rw [single] at paid ⊢
        exact translates_answer bridges call called now paid
    exact here.andThen (fun reply => (environment.runWith call (next reply)).run)
      (fun reply => environment.programSteps call callSteps (next reply)) (ih _ paid')

theorem translates_handle {call : Frame → RuntimeM (Execution σ ω) Bytes}
    {callSteps : Frame → Execution σ ω → List (Step σ ω)}
    (bridges : environment.BlindBridge same)
    (calls : ∀ frame x, environment.Paid (callSteps frame x) →
      environment.Translates same x (Fallible.eval (call frame)) (callSteps frame))
    {found : Except RuntimeError (Invocation × Handler ω)}
    (makes : ∀ invocation handler, found = .ok (invocation, handler) →
      (handler invocation).run.Makes (Request.Blind same))
    {x : Execution σ ω}
    (paid : environment.Paid (environment.handlerSteps call callSteps found x)) :
    environment.Translates same x (environment.handle call found)
      (environment.handlerSteps call callSteps found) := by
  rcases found with cause | ⟨invocation, handler⟩
  · exact ⟨0, rfl, fun x' alike _ => ⟨rfl, alike, rfl, paid_nil⟩⟩
  · exact translates_programSteps bridges calls (makes invocation handler rfl) paid

theorem translates_leave (frame : Frame) (result : Except RuntimeError Bytes)
    (x : Execution σ ω) :
    environment.Translates same x (fun z => (result, environment.leave frame result z))
      (environment.leaveSteps frame result) := by
  have kept (z : Execution σ ω) : (environment.leave frame result z).gas = z.gas := by
    rcases result with cause | value
    · rfl
    · rfl
  refine ⟨0, (kept x).symm, ?_⟩
  intro x' alike _
  refine ⟨rfl, ?_, (kept x').symm, paid_singleton.2 rfl⟩
  have popped : x'.stack.pop = x.stack.pop := congrArg CallStack.pop alike.stack
  rcases result with cause | value
  · exact { alike with stack := popped }
  · exact { alike with stack := popped }

theorem translates_callWithin
    (bridges : environment.BlindBridge same)
    (handlers : environment.registry.HandlersMake (Request.Blind same)) (room : Nat)
    (frame : Frame) {x : Execution σ ω}
    (paid : environment.Paid (environment.callStepsWithin room frame x)) :
    environment.Translates same x (Fallible.eval (environment.callWithin room frame))
      (environment.callStepsWithin room frame) := by
  induction room generalizing frame x with
  | zero =>
    refine ⟨0, rfl, ?_⟩
    intro x' alike _
    refine ⟨?_, alike, rfl, paid_nil⟩
    show Except.error (RuntimeError.contextDepthExceeded (x'.stack.depth + 1) x'.stack.maxDepth) = _
    rw [alike.stack]
    rfl
  | succ room ih =>
    have whole (z : Execution σ ω) :
        Fallible.eval (environment.callWithin (room + 1) frame) z =
          let found := Fallible.eval environment.resolve (z.enter frame)
          let outcome := environment.handle (environment.callWithin room) found.1 found.2
          (outcome.1, environment.leave frame outcome.1 outcome.2) := by
      rw [eval_callWithin_succ, eval_dispatch_eq_handle]
    have parts (z : Execution σ ω) :
        environment.callStepsWithin (room + 1) frame z =
          let found := Fallible.eval environment.resolve (z.enter frame)
          let outcome := environment.handle (environment.callWithin room) found.1 found.2
          environment.dispatchSteps frame z ++
            environment.handlerSteps (environment.callWithin room)
              (environment.callStepsWithin room) found.1 found.2 ++
            environment.leaveSteps frame outcome.1 outcome.2 := by
      rw [callStepsWithin, eval_dispatch_eq_handle]
      rfl
    rw [parts] at paid
    obtain ⟨paid, -⟩ := paid_append.1 paid
    obtain ⟨paid, paid'⟩ := paid_append.1 paid
    have found := translates_resolve same frame paid
    have handled := found.andThen (environment.handle (environment.callWithin room))
      (environment.handlerSteps (environment.callWithin room) (environment.callStepsWithin room))
      (translates_handle bridges ih
        (fun invocation handler found => makes_of_resolve handlers (Prod.ext found rfl)) paid')
    rw [funext whole, funext parts]
    exact handled.andThen (fun reply z => (reply, environment.leave frame reply z))
      (environment.leaveSteps frame) (translates_leave frame _ _)

theorem translates_call (bridges : environment.BlindBridge same)
    (handlers : environment.registry.HandlersMake (Request.Blind same)) (frame : Frame)
    {x : Execution σ ω}
    (paid : environment.Paid (environment.callSteps frame x)) :
    environment.Translates same x (Fallible.eval (environment.call frame))
      (environment.callSteps frame) := by
  obtain ⟨used, taken, runs⟩ := translates_callWithin bridges handlers _ frame paid
  refine ⟨used, taken, ?_⟩
  intro x' alike enough
  have room : x'.stack.maxDepth + 1 = x.stack.maxDepth + 1 := by rw [alike.stack]
  rw [eval_call, eval_call, callSteps, room]
  exact runs x' alike enough

/-- A run in which no charge fails is the same with any meter that holds what it takes. -/
theorem translates_run (bridges : environment.BlindBridge same)
    (handlers : environment.registry.HandlersMake (Request.Blind same)) {program : Program ω α}
    (makes : program.Makes (Request.Blind same)) {x : Execution σ ω}
    (paid : environment.Paid (environment.steps program x)) :
    environment.Translates same x (environment.run program).run (environment.steps program) :=
  translates_programSteps bridges (fun frame _ => translates_call bridges handlers frame) makes paid

/-- With less gas than a run takes some charge fails. -/
theorem exists_short_of_lt (bridges : environment.BlindBridge same)
    (handlers : environment.registry.HandlersMake (Request.Blind same)) {program : Program ω α}
    (makes : program.Makes (Request.Blind same)) {x x' : Execution σ ω} {used : Nat}
    (taken : x.gas = ((environment.run program).run x).2.gas + used)
    (alike : Alike same x x') (less : x'.gas < used) :
    ∃ step ∈ environment.steps program x',
      environment.chargeFails step = true ∧ step.action.isShort = true := by
  have billed := billed_steps (handlers.mono fun _ => Request.Blind.isRefund)
    (makes.mono fun _ => Request.Blind.isRefund) x'
  by_contra none
  have paid : environment.Paid (environment.steps program x') := by
    intro step member
    cases fails : environment.chargeFails step with
    | false => rfl
    | true => exact absurd ⟨step, member, fails, ((billed step member).short fails).2⟩ none
  -- The run with less gas would translate back, and take no more than there is.
  obtain ⟨used', taken', back⟩ := translates_run bridges.flip
    (handlers.mono fun _ => Request.Blind.flip) (makes.mono fun _ => Request.Blind.flip) paid
  obtain ⟨-, -, agree, -⟩ := back x alike.flip (by omega)
  omega

end Environment

end ContractHost
