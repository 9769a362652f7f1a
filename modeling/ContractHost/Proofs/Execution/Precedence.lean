import Mathlib
import ContractHost.Proofs.Registry

/-!
# Which failure comes first

A dispatch can fail in several ways at once. The basic gas is asked for before anything is looked
at; then the stack, the payload, the contract and the method are looked at in this order, and each
of these failures costs the basic gas and nothing more; the price of the method is asked for last.
`Precedence` says it case by case, each with what is left of the gas, and `dispatch_precedence` that
it is so for all that can be registered, at whatever prices. Until a handler starts nothing but the
meter and the log has changed (`FailsEarly`), and what the handler returns is what is returned.
-/

namespace ContractHost

/-- The current frame of a stack that is no deeper than it may be. -/
structure CallStack.Runs (stack : CallStack) (frame : Frame) : Prop where
  current : stack.frames.head? = some frame
  within : stack.frames.length ≤ stack.maxDepth

namespace CallStack

variable {stack : CallStack} {frame : Frame}

theorem validate_of_empty (empty : stack.frames = []) :
    stack.validate = .error .emptyContextStack := by
  rw [validate, isEmpty, empty]
  rfl

theorem validate_of_deep (occupied : stack.frames ≠ [])
    (deep : stack.maxDepth < stack.frames.length) :
    stack.validate = .error (.contextDepthExceeded stack.frames.length stack.maxDepth) := by
  have nonempty : ¬ stack.isEmpty = true := by rwa [isEmpty, List.isEmpty_iff]
  rw [validate, if_neg nonempty, depth, if_pos deep]

theorem Runs.validate (runs : stack.Runs frame) : stack.validate = .ok () := by
  have nonempty : ¬ stack.isEmpty = true := by
    rw [isEmpty, List.isEmpty_iff]
    intro empty
    have current := runs.current
    rw [empty] at current
    cases current
  rw [CallStack.validate, if_neg nonempty, depth, if_neg (Nat.not_lt.2 runs.within)]

theorem Runs.calls (runs : stack.Runs frame) {selector : Selector} {input : Bytes}
    (payload : frame.payload = selector.toList ++ input) : stack.Calls frame selector where
  valid := runs.validate
  current := runs.current
  selected := by rw [payload, Selector.ofPayload?_append]

end CallStack

theorem Selector.ofPayload?_of_lt {payload : Bytes} (short : payload.length < 4) :
    ofPayload? payload = none := by
  have front : ¬ (payload.take 4).length = 4 := by
    rw [List.length_take]
    omega
  rw [ofPayload?, FixedBytes.ofList?, dif_neg front]

namespace Environment

variable {σ ω : Type} [Ledger σ] (environment : Environment ω)

/-- The steps of the handler that is started for the current frame, if one is. -/
def startedSteps (x : Execution σ ω) : List (Step σ ω) :=
  let found := Fallible.eval environment.resolve x
  environment.handlerSteps environment.call environment.callSteps found.1 found.2

/-- Dispatching the current frame fails with this much gas left before a handler makes a step, and
all but the meter and the log is as it was. -/
structure FailsEarly (x : Execution σ ω) (cause : RuntimeError) (left : Gas) : Prop where
  outcome : ∃ log, Fallible.eval environment.invoke x =
    (.error cause, { x with meter := ⟨left⟩, log })
  startedSteps : environment.startedSteps x = []

/-- What a dispatch comes to under contracts that were registered with some settings, from the first
thing that is asked for to the last. -/
structure Precedence (config : Config) (registrations : List (Address × Contract ω))
    (x : Execution σ ω) : Prop where
  basicGas : x.meter.remaining < config.basicGas →
    environment.FailsEarly x (.insufficientGas config.basicGas x.meter.remaining) 0
  emptyStack : config.basicGas ≤ x.meter.remaining → x.stack.frames = [] →
    environment.FailsEarly x .emptyContextStack (x.meter.remaining - config.basicGas)
  deepStack : config.basicGas ≤ x.meter.remaining → x.stack.frames ≠ [] →
    x.stack.maxDepth < x.stack.frames.length →
    environment.FailsEarly x (.contextDepthExceeded x.stack.frames.length x.stack.maxDepth)
      (x.meter.remaining - config.basicGas)
  payload : ∀ frame, config.basicGas ≤ x.meter.remaining → x.stack.Runs frame →
    frame.payload.length < 4 →
    environment.FailsEarly x (.malformedPayload frame.payload.length)
      (x.meter.remaining - config.basicGas)
  contract : ∀ frame, config.basicGas ≤ x.meter.remaining → x.stack.Runs frame →
    4 ≤ frame.payload.length → lastContract? registrations frame.target = none →
    environment.FailsEarly x (.unknownContract frame.target)
      (x.meter.remaining - config.basicGas)
  method : ∀ frame selector input contract, config.basicGas ≤ x.meter.remaining →
    x.stack.Runs frame → frame.payload = selector.toList ++ input →
    lastContract? registrations frame.target = some contract →
    contract.lastMethod? selector = none →
    environment.FailsEarly x (.unknownMethod frame.target selector)
      (x.meter.remaining - config.basicGas)
  price : ∀ frame selector input contract method, config.basicGas ≤ x.meter.remaining →
    x.stack.Runs frame → frame.payload = selector.toList ++ input →
    lastContract? registrations frame.target = some contract →
    contract.lastMethod? selector = some method →
    let price := max (config.methodGas method.rawGas) config.basicGas
    x.meter.remaining < price →
    environment.FailsEarly x (.insufficientGas price x.meter.remaining) 0
  handler : ∀ frame selector input contract method, x.stack.Runs frame →
    frame.payload = selector.toList ++ input →
    lastContract? registrations frame.target = some contract →
    contract.lastMethod? selector = some method →
    let price := max (config.methodGas method.rawGas) config.basicGas
    price ≤ x.meter.remaining →
    ∃ log,
      let handler := (method.handler ⟨contract.name, frame, selector⟩).run
      let started : Execution σ ω := { x with meter := ⟨x.meter.remaining - price⟩, log }
      Fallible.eval environment.invoke x =
          (environment.runWith environment.call handler).run started ∧
        environment.startedSteps x =
          environment.programSteps environment.call environment.callSteps handler started

variable {environment}

/-- A dispatch that finds no handler to start fails as the search does. -/
theorem failsEarly_of_resolve {x : Execution σ ω} {cause : RuntimeError} {left : Gas}
    (log : List LogEntry)
    (failed : Fallible.eval environment.resolve x =
      (.error cause, { x with meter := ⟨left⟩, log })) :
    environment.FailsEarly x cause left where
  outcome := by
    refine ⟨log, ?_⟩
    rw [invoke, eval_dispatch, failed]
  startedSteps := by
    rw [startedSteps, failed]
    rfl

theorem failsEarly_of_lookup {x : Execution σ ω} {cause : RuntimeError}
    (looked : environment.lookup x.stack = .error cause)
    (paid : environment.basicGas ≤ x.meter.remaining) :
    environment.FailsEarly x cause (x.meter.remaining - environment.basicGas) :=
  failsEarly_of_resolve x.log (environment.eval_resolve_of_error looked paid)

theorem lookup_of_validate {stack : CallStack} {cause : RuntimeError}
    (refused : stack.validate = .error cause) : environment.lookup stack = .error cause := by
  rw [lookup, refused]
  rfl

theorem lookup_of_short {stack : CallStack} {frame : Frame} (runs : stack.Runs frame)
    (short : frame.payload.length < 4) :
    environment.lookup stack = .error (.malformedPayload frame.payload.length) := by
  have current : stack.current? = some frame := runs.current
  unfold lookup
  rw [runs.validate, current]
  simp only [Selector.ofPayload?_of_lt short]
  rfl

/-- Every payload that is long enough begins with a selector. -/
theorem exists_selector {payload : Bytes} (long : 4 ≤ payload.length) :
    ∃ (selector : Selector) (input : Bytes), payload = selector.toList ++ input := by
  have front : (payload.take 4).length = 4 := List.length_take_of_le long
  exact ⟨⟨payload.take 4, front⟩, payload.drop 4, (List.take_append_drop 4 payload).symm⟩

variable {config : Config} {registrations : List (Address × Contract ω)}

/-- Whatever is registered, a dispatch fails for the first reason there is, with what that leaves of
the gas, or starts the handler with what is left once its price is paid. -/
theorem dispatch_precedence (registered : environment.registry = .ofList config registrations)
    (x : Execution σ ω) : environment.Precedence config registrations x := by
  have basic : environment.basicGas = config.basicGas := by
    rw [Environment.basicGas, registered, Registry.config_ofList]
  have early {cause : RuntimeError} (paid : config.basicGas ≤ x.meter.remaining)
      (looked : environment.lookup x.stack = .error cause) :
      environment.FailsEarly x cause (x.meter.remaining - config.basicGas) := by
    rw [← basic] at paid ⊢
    exact failsEarly_of_lookup looked paid
  constructor
  case basicGas =>
    intro short
    rw [← basic] at short ⊢
    exact failsEarly_of_resolve x.log (by rw [eval_resolve, if_pos short])
  case emptyStack =>
    intro paid empty
    exact early paid (lookup_of_validate (CallStack.validate_of_empty empty))
  case deepStack =>
    intro paid occupied deep
    exact early paid (lookup_of_validate (CallStack.validate_of_deep occupied deep))
  case payload =>
    intro frame paid runs short
    exact early paid (lookup_of_short runs short)
  case contract =>
    intro frame paid runs long none
    obtain ⟨selector, input, payload⟩ := exists_selector long
    refine early paid ?_
    rw [lookup_of_calls (runs.calls payload), registered, Registry.get?_ofList, none]
    rfl
  case method =>
    intro frame selector input contract paid runs payload last undeclared
    refine early paid ?_
    rw [lookup_of_calls (runs.calls payload), registered, Registry.get?_ofList, last]
    dsimp only [Option.map_some]
    rw [Descriptor.method?_of_none undeclared]
  case price =>
    intro frame selector input contract method paid runs payload last declared price short
    obtain ⟨found, looked, costs, -⟩ :=
      lookup_of_some registered (runs.calls payload) last declared
    have enough : ¬ x.meter.remaining < environment.basicGas := by
      rw [basic]
      exact UInt64.not_lt.2 paid
    have costs : environment.entryGas found = price := costs
    refine failsEarly_of_resolve (x.log ++ [foundEntry x.stack found]) ?_
    rw [eval_resolve, if_neg enough, looked]
    dsimp only
    rw [costs, if_pos short]
    rfl
  case handler =>
    intro frame selector input contract method runs payload last declared price covered
    obtain ⟨log, resolved⟩ := resolve_of_last registered (runs.calls payload) last declared covered
    refine ⟨log, ?_, ?_⟩
    · rw [invoke, eval_dispatch, resolved]
    · rw [startedSteps, resolved]
      rfl

def echoFrame (signature : String) : Frame :=
  ⟨.zero, .zero, (Selector.ofSignature signature).toList ++ [0x2a]⟩

/-- A method is about to be called at address zero with some gas. -/
def echoStart (signature : String) (gas : Gas) : Execution ChangeSet Unit :=
  { Execution.withMeter echoHost ⟨gas⟩ .empty () with stack := ⟨[echoFrame signature], 1⟩ }

/-- Too little gas for anything, a method that is not declared, and one that is. -/
theorem dispatch_precedence_echo :
    let poor := echoStart "mute()" 20999
    let lost := echoStart "hum()" 21001
    let rich := echoStart "echo(bytes)" Gas.largest
    echoHost.FailsEarly poor (.insufficientGas 21000 20999) 0 ∧
      echoHost.FailsEarly lost (.unknownMethod .zero (Selector.ofSignature "hum()")) 1 ∧
      (Fallible.eval echoHost.invoke rich).1 = .ok [0x32] := by
  intro poor lost rich
  have registered : echoHost.registry = .ofList .standard _ := rfl
  have contract : lastContract? [(.zero, ⟨"Mute", []⟩), (.ofUInt64 1, ⟨"Mute", []⟩), (.zero, echo)]
      (.zero : Address) = some echo := by simp [lastContract?]
  have undeclared : echo.lastMethod? (Selector.ofSignature "hum()") = none := by
    decide +kernel
  have declared : echo.lastMethod? (Selector.ofSignature "echo(bytes)") = some echo.methods[2] := by
    simp [Contract.lastMethod?, echo, Method.selector]
  have covered (price : Gas) : price ≤ Gas.largest := by
    have bound := price.toNat_lt
    rw [UInt64.le_iff_toNat_le, Gas.toNat_largest]
    omega
  have unknown := (dispatch_precedence registered lost).method (echoFrame "hum()") _ _ echo
    (by decide) ⟨rfl, by decide⟩ rfl contract undeclared
  have left : lost.meter.remaining - Config.standard.basicGas = 1 := by decide
  rw [left] at unknown
  refine ⟨(dispatch_precedence registered poor).basicGas (by decide), unknown, ?_⟩
  obtain ⟨log, runs, -⟩ := (dispatch_precedence registered rich).handler (echoFrame "echo(bytes)")
    _ _ echo _ ⟨rfl, by decide⟩ rfl contract declared (covered _)
  rw [runs]
  rfl

end Environment

end ContractHost
