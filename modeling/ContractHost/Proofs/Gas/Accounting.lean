import Mathlib
import ContractHost.Proofs.Execution.Steps
import ContractHost.Proofs.Store.Needs

/-!
# Where the gas goes

Every step of a run has a price (`Environment.price`), and it asks for some amount before it takes
anything (`Environment.need`). Whether its charge fails is decided by this amount and by what is left
(`Environment.chargeFails`). A step whose charge does not fail takes its price from the meter, to the
unit, and one whose charge fails empties it and says so (`Billed`). As the steps of a run are a chain,
the prices add up to what the meter has lost (`billed_sum`), and once it is empty nothing that costs
anything succeeds (`billed_empty`). The only way to gain gas is to ask for a refund, which
`HandlersMake` and `Makes` exclude.
-/

namespace ContractHost

/-- The gas that an execution has left. -/
def Execution.gas {σ ω : Type} (x : Execution σ ω) : Nat := x.meter.remaining.toNat

/-- The request gives gas back. -/
def Request.isRefund {ω : Type} : Request ω → Bool
  | .refund _ => true
  | _ => false

/-- The step failed for lack of gas. -/
def Action.isShort {ω : Type} : Action ω → Bool
  | .answered (.store _) reply => ContractHost.isShort reply
  | .answered (.evm _) reply => ContractHost.isShort reply
  | .answered (.charge _) reply => ContractHost.isShort reply
  | .dispatched _ outcome => ContractHost.isShort outcome
  | _ => false

/-- The call of the machine that an action answers. -/
def Action.machineCall? {ω : Type} : Action ω → Option EvmCall
  | .answered (.evm call) _ => some call
  | _ => none

namespace Environment

variable {σ ω α : Type} [Ledger σ] (environment : Environment ω)

/-- What an answered request costs: a store operation its price, a call of the virtual machine what
the machine reports. -/
def requestPrice (x : Execution σ ω) : Request ω → Gas
  | .store operation =>
    operation.price environment.registry.config.storage ⟨x.ledger, x.meter⟩
  | .evm call => (environment.report call x).1.gasUsed
  | .charge amount => amount
  | _ => 0

omit [Ledger σ] in
/-- What a dispatch costs: the basic gas when it finds no method, and otherwise the gas of the
method, but no less than the basic gas. -/
def dispatchPrice (x : Execution σ ω) (frame : Frame) : Gas :=
  match environment.lookup (x.enter frame).stack with
  | .error _ => environment.basicGas
  | .ok found => environment.entryGas found

/-- What a step costs. -/
def price (step : Step σ ω) : Gas :=
  match step.action with
  | .answered request _ => environment.requestPrice step.before request
  | .dispatched frame _ => environment.dispatchPrice step.before frame
  | .returned _ _ => 0

/-- What a step asks of the meter: its price, and for an operation on the store what the ledger says
that it needs. A `get` makes two charges, which together may be more than any price. -/
def need (step : Step σ ω) : Nat :=
  match step.action with
  | .answered (.store operation) _ =>
    operation.need environment.registry.config.storage step.before.ledger
  | _ => (environment.price step).toNat

/-- The charge of a step fails: it asks for more than is left. -/
def chargeFails (step : Step σ ω) : Bool := step.before.gas < environment.need step

/-- A step takes its price from the meter, or empties the meter and fails for that reason. The virtual
machine may report any failure as its own, but nothing else fails for lack of gas as long as there is
enough. -/
structure Billed (step : Step σ ω) : Prop where
  paid : environment.chargeFails step = false →
    step.before.gas = step.after.gas + (environment.price step).toNat
  priced : environment.chargeFails step = false →
    environment.need step = (environment.price step).toNat
  fair : environment.chargeFails step = false → step.action.machineCall? = none →
    step.action.isShort = false
  short : environment.chargeFails step = true →
    step.after.gas = 0 ∧ step.action.isShort = true

variable {environment}

theorem chargeFails_iff {step : Step σ ω} :
    environment.chargeFails step = true ↔ step.before.gas < environment.need step :=
  decide_eq_true_iff

theorem chargeFails_eq_false_iff {step : Step σ ω} :
    environment.chargeFails step = false ↔ environment.need step ≤ step.before.gas :=
  decide_eq_false_iff_not.trans Nat.not_lt

theorem Billed.of_paid {step : Step σ ω}
    (priced : environment.need step = (environment.price step).toNat)
    (taken : step.before.gas = step.after.gas + (environment.price step).toNat)
    (fair : step.action.machineCall? = none → step.action.isShort = false) :
    environment.Billed step := by
  refine ⟨fun _ => taken, fun _ => priced, fun _ => fair, ?_⟩
  intro fails
  rw [chargeFails_iff] at fails
  omega

theorem Billed.of_short {step : Step σ ω} (less : step.before.gas < environment.need step)
    (empty : step.after.gas = 0) (short : step.action.isShort = true) :
    environment.Billed step := by
  have fails : environment.chargeFails step ≠ false := by
    rw [chargeFails_iff.2 less]
    decide
  exact {
    paid := fun paid => absurd paid fails
    priced := fun paid => absurd paid fails
    fair := fun paid => absurd paid fails
    short := fun _ => ⟨empty, short⟩ }

/-- But for the calls of the machine, a step fails for lack of gas just when its charge fails. -/
theorem Billed.chargeFails_eq {step : Step σ ω} (billed : environment.Billed step)
    (other : step.action.machineCall? = none) :
    environment.chargeFails step = step.action.isShort := by
  cases fails : environment.chargeFails step with
  | true => exact (billed.short fails).2.symm
  | false => exact (billed.fair fails other).symm

/-! ## Each kind of step -/

omit [Ledger σ] in
theorem gas_of_paid {x : Execution σ ω} {amount : Gas} (covered : amount ≤ x.meter.remaining) :
    x.gas = (x.meter.remaining - amount).toNat + amount.toNat := by
  rw [Gas.toNat_sub covered]
  rw [UInt64.le_iff_toNat_le] at covered
  rw [Execution.gas]
  omega

theorem billed_store (call : Frame → RuntimeM (Execution σ ω) Bytes)
    (operation : Store.Operation) (x : Execution σ ω) :
    environment.Billed ⟨x, .answered (.store operation)
      ((environment.answer call (.store operation)).run x).1,
      ((environment.answer call (.store operation)).run x).2⟩ := by
  obtain ⟨log, answered⟩ := environment.answer_store call operation x
  let costs := environment.registry.config.storage
  let store : Store σ := ⟨x.ledger, x.meter⟩
  rcases Nat.lt_or_ge x.gas (operation.need costs x.ledger) with less | enough
  · obtain ⟨required, available, after, starved⟩ := operation.starves_of_lt costs store less
    rw [answered, starved]
    exact .of_short less rfl rfl
  · obtain ⟨⟨reply, after, fair, runs⟩, priced⟩ := operation.costs_of_le costs store enough
    have covered : operation.price costs store ≤ x.meter.remaining := by
      rw [UInt64.le_iff_toNat_le, priced]
      exact enough
    rw [answered, runs x.meter covered]
    exact .of_paid priced.symm (gas_of_paid covered) fun _ => fair

theorem billed_evm (call : Frame → RuntimeM (Execution σ ω) Bytes) (call' : EvmCall)
    (x : Execution σ ω) :
    environment.Billed ⟨x, .answered (.evm call')
      ((environment.answer call (.evm call')).run x).1,
      ((environment.answer call (.evm call')).run x).2⟩ := by
  obtain ⟨log, answered⟩ := environment.answer_evm call call' x
  rw [answered]
  dsimp only
  by_cases short : x.meter.remaining < (environment.report call' x).1.gasUsed
  · rw [if_pos short]
    exact .of_short (UInt64.lt_iff_toNat_lt.1 short) rfl rfl
  · rw [if_neg short]
    exact .of_paid rfl (gas_of_paid (UInt64.not_lt.1 short)) nofun

theorem billed_charge (call : Frame → RuntimeM (Execution σ ω) Bytes) (amount : Gas)
    (x : Execution σ ω) :
    environment.Billed ⟨x, .answered (.charge amount)
      ((environment.answer call (.charge amount)).run x).1,
      ((environment.answer call (.charge amount)).run x).2⟩ := by
  rw [answer_charge]
  by_cases short : x.meter.remaining < amount
  · rw [if_pos short]
    exact .of_short (UInt64.lt_iff_toNat_lt.1 short) rfl rfl
  · rw [if_neg short]
    exact .of_paid rfl (gas_of_paid (UInt64.not_lt.1 short)) fun _ => rfl

variable (environment) in
/-- What is not metered costs nothing. -/
theorem free_of_unmetered {request : Request ω} (unmetered : request.isMetered = false)
    (x y : Execution σ ω) (reply : request.Reply) :
    environment.need ⟨x, .answered request reply, y⟩ = 0 ∧
      environment.price (⟨x, .answered request reply, y⟩ : Step σ ω) = 0 ∧
      (Action.answered request reply).isShort = false := by
  cases request with
  | store operation => cases unmetered
  | evm call => cases unmetered
  | charge amount => cases unmetered
  | _ => exact ⟨rfl, rfl, rfl⟩

theorem chargeFails_of_unmetered {request : Request ω} (unmetered : request.isMetered = false)
    (x y : Execution σ ω) (reply : request.Reply) :
    environment.chargeFails ⟨x, .answered request reply, y⟩ = false := by
  rw [chargeFails_eq_false_iff, (environment.free_of_unmetered unmetered x y reply).1]
  exact Nat.zero_le _

theorem billed_answered (call : Frame → RuntimeM (Execution σ ω) Bytes) {request : Request ω}
    (other : request.isCall = false) (plain : request.isRefund = false) (x : Execution σ ω) :
    environment.Billed ⟨x, .answered request ((environment.answer call request).run x).1,
      ((environment.answer call request).run x).2⟩ := by
  cases metered : request.isMetered with
  | true =>
    cases request with
    | store operation => exact billed_store call operation x
    | evm call' => exact billed_evm call call' x
    | charge amount => exact billed_charge call amount x
    | refund amount => cases plain
    | _ => cases metered
  | false =>
    have kept : ((environment.answer call request).run x).2.meter = x.meter :=
      (answer_leaves call other x).2.1 metered
    obtain ⟨nothing, free, fair⟩ := environment.free_of_unmetered metered x
      ((environment.answer call request).run x).2 ((environment.answer call request).run x).1
    refine .of_paid ?_ ?_ fun _ => fair
    · rw [nothing, free]
      rfl
    · rw [free, Execution.gas, Execution.gas, kept]
      rfl

omit [Ledger σ] in
/-- With less gas than its price a dispatch fails, and leaves nothing. -/
theorem resolve_of_lt {x : Execution σ ω} {frame : Frame}
    (less : x.meter.remaining < environment.dispatchPrice x frame) :
    ∃ required available log,
      Fallible.eval environment.resolve (x.enter frame) =
        (.error (.insufficientGas required available),
          { x.enter frame with meter := ⟨0⟩, log }) := by
  rcases environment.resolve_settles (x.enter frame) with
    starved | ⟨cause, looked, enough⟩ | ⟨found, looked, enough⟩
  · exact starved
  · rw [dispatchPrice, looked] at less
    exact absurd less (UInt64.not_lt.2 enough)
  · rw [dispatchPrice, looked] at less
    exact absurd less (UInt64.not_lt.2 enough)

variable (environment) in
omit [Ledger σ] in
/-- What comes of a dispatch that is paid for, and what it costs, is decided by the stack. -/
theorem exists_resolves (x : Execution σ ω) (frame : Frame) :
    ∃ outcome, isShort outcome = false ∧
      ∀ z : Execution σ ω, z.stack = x.stack.push frame →
        environment.dispatchPrice x frame ≤ z.meter.remaining →
          ∃ log, Fallible.eval environment.resolve z = (outcome,
            { z with meter := ⟨z.meter.remaining - environment.dispatchPrice x frame⟩, log }) := by
  unfold dispatchPrice
  cases looked : environment.lookup (x.enter frame).stack with
  | error cause =>
    refine ⟨.error cause, isShort_of_lookup looked, ?_⟩
    intro z entered enough
    exact ⟨z.log, environment.eval_resolve_of_error (entered ▸ looked) enough⟩
  | ok found =>
    refine ⟨Found.start found, isShort_start found, ?_⟩
    intro z entered enough
    exact ⟨_, environment.eval_resolve_of_ok (entered ▸ looked) enough⟩

theorem billed_dispatched (frame : Frame) (x : Execution σ ω) :
    environment.Billed ⟨x, .dispatched frame
      ((Fallible.eval environment.resolve (x.enter frame)).1.map Prod.fst),
      (Fallible.eval environment.resolve (x.enter frame)).2⟩ := by
  by_cases less : x.meter.remaining < environment.dispatchPrice x frame
  · obtain ⟨required, available, log, starved⟩ := resolve_of_lt less
    rw [starved]
    exact .of_short (UInt64.lt_iff_toNat_lt.1 less) rfl rfl
  · have enough := UInt64.not_lt.1 less
    obtain ⟨outcome, fair, resolves⟩ := environment.exists_resolves x frame
    obtain ⟨log, resolved⟩ := resolves (x.enter frame) rfl enough
    rw [resolved]
    exact .of_paid rfl (gas_of_paid enough) fun _ => (isShort_map Prod.fst outcome).trans fair

theorem billed_returned (frame : Frame) (result : Except RuntimeError Bytes) (x : Execution σ ω) :
    environment.Billed ⟨x, .returned frame result, environment.leave frame result x⟩ := by
  refine .of_paid rfl ?_ fun _ => rfl
  rcases result with cause | value
  · rfl
  · rfl

/-- Every step of a run is billed, as long as nothing asks for a refund. -/
theorem billed_steps
    (handlers : environment.registry.HandlersMake fun request => request.isRefund = false)
    {program : Program ω α} (makes : program.Makes fun request => request.isRefund = false)
    (x : Execution σ ω) : ∀ step ∈ environment.steps program x, environment.Billed step :=
  forall_steps handlers (fun _ x other plain => billed_answered environment.call other plain x)
    billed_dispatched billed_returned makes x

/-! ## Whole runs -/

variable {x y : Execution σ ω} {steps : List (Step σ ω)}

/-- As long as no charge fails, the prices add up to what the meter loses. -/
theorem billed_sum (chained : Chained x steps y) (billed : ∀ step ∈ steps, environment.Billed step)
    (paid : ∀ step ∈ steps, environment.chargeFails step = false) :
    x.gas = y.gas + (steps.map fun step => (environment.price step).toNat).sum := by
  induction steps generalizing x with
  | nil =>
    have same : x = y := chained
    rw [same]
    rfl
  | cons step steps ih =>
    obtain ⟨begins, chained⟩ := chained
    have here := (billed step List.mem_cons_self).paid (paid step List.mem_cons_self)
    have later := ih chained (fun step member => billed step (List.mem_cons_of_mem _ member))
      (fun step member => paid step (List.mem_cons_of_mem _ member))
    rw [← begins, here, later, List.map_cons, List.sum_cons]
    omega

/-- On an empty meter a step that costs anything fails, and the meter stays empty. -/
theorem billed_empty (chained : Chained x steps y)
    (billed : ∀ step ∈ steps, environment.Billed step) (empty : x.gas = 0) :
    ∀ step ∈ steps, step.after.gas = 0 ∧
      (environment.price step = 0 ∨
        (environment.chargeFails step = true ∧ step.action.isShort = true)) := by
  induction steps generalizing x with
  | nil =>
    intro step member
    cases member
  | cons first steps ih =>
    obtain ⟨begins, chained⟩ := chained
    have here : first.after.gas = 0 ∧ (environment.price first = 0 ∨
        (environment.chargeFails first = true ∧ first.action.isShort = true)) := by
      rw [← begins] at empty
      cases fails : environment.chargeFails first with
      | true =>
        obtain ⟨drained, short⟩ := (billed first List.mem_cons_self).short fails
        exact ⟨drained, .inr ⟨rfl, short⟩⟩
      | false =>
        have paid := (billed first List.mem_cons_self).paid fails
        refine ⟨by omega, .inl ?_⟩
        rw [← UInt64.toNat_inj]
        exact (by omega : (environment.price first).toNat = 0)
    intro step member
    rcases List.mem_cons.1 member with rfl | later
    · exact here
    · exact ih chained (fun step member => billed step (List.mem_cons_of_mem _ member)) here.1 step
        later

theorem gas_le_of_billed {step : Step σ ω} (billed : environment.Billed step) :
    step.after.gas ≤ step.before.gas := by
  cases fails : environment.chargeFails step with
  | true =>
    have drained := (billed.short fails).1
    omega
  | false =>
    have paid := billed.paid fails
    omega

theorem gas_le_of_chained (chained : Chained x steps y)
    (billed : ∀ step ∈ steps, environment.Billed step) : y.gas ≤ x.gas := by
  induction steps generalizing x with
  | nil =>
    have same : x = y := chained
    rw [same]
  | cons step steps ih =>
    obtain ⟨begins, chained⟩ := chained
    have here := gas_le_of_billed (billed step List.mem_cons_self)
    have later := ih chained fun step member => billed step (List.mem_cons_of_mem _ member)
    rw [begins] at here
    omega

variable (environment) in
/-- Between two steps of a run: the prices so far are what the meter has lost, unless a charge
failed; then the meter is empty, and each later step costs nothing or fails for lack of gas. -/
structure Accounted (start : Execution σ ω) (earlier : List (Step σ ω)) (now : Execution σ ω)
    (later : List (Step σ ω)) : Prop where
  sum : (∀ step ∈ earlier, environment.chargeFails step = false) →
    start.gas = now.gas + (earlier.map fun step => (environment.price step).toNat).sum
  drained : ∀ step ∈ earlier, environment.chargeFails step = true →
    step.after.gas = 0 ∧ step.action.isShort = true ∧ now.gas = 0 ∧
      ∀ next ∈ later, next.after.gas = 0 ∧
        (environment.price next = 0 ∨
          (environment.chargeFails next = true ∧ next.action.isShort = true))

/-- In every run that asks for no refund, the gas that is left never increases, a step fails for lack
of gas just when it asks for more than is left, unless the machine says so of itself, and the gas is
accounted for after any number of steps. -/
theorem gas_accounted
    (handlers : environment.registry.HandlersMake fun request => request.isRefund = false)
    {program : Program ω α} (makes : program.Makes fun request => request.isRefund = false)
    (x : Execution σ ω) :
    (∀ step ∈ environment.steps program x, step.after.gas ≤ step.before.gas) ∧
      (∀ step ∈ environment.steps program x, step.action.machineCall? = none →
        environment.chargeFails step = step.action.isShort) ∧
      ∀ earlier later, environment.steps program x = earlier ++ later →
        ∃ y, Chained x earlier y ∧ Chained y later ((environment.run program).run x).2 ∧
          environment.Accounted x earlier y later := by
  have billed := billed_steps handlers makes x
  have chained : Chained x (environment.steps program x) ((environment.run program).run x).2 :=
    chained_steps program x
  refine ⟨fun step member => gas_le_of_billed (billed step member),
    fun step member => (billed step member).chargeFails_eq, ?_⟩
  intro earlier later parts
  rw [parts] at billed chained
  obtain ⟨y, before, after⟩ := chained.split
  have billed_before (step : Step σ ω) (member : step ∈ earlier) : environment.Billed step :=
    billed step (List.mem_append_left _ member)
  have billed_after (step : Step σ ω) (member : step ∈ later) : environment.Billed step :=
    billed step (List.mem_append_right _ member)
  refine ⟨y, before, after, ⟨billed_sum before billed_before, fun step member fails => ?_⟩⟩
  obtain ⟨empty, short⟩ := (billed_before step member).short fails
  obtain ⟨first, rest, rfl⟩ := List.append_of_mem member
  obtain ⟨_, _, begins, onward⟩ := before.split
  have less := gas_le_of_chained onward fun step member =>
    billed_before step (List.mem_append_right _ (List.mem_cons_of_mem _ member))
  have drained : y.gas = 0 := by omega
  exact ⟨empty, short, drained, billed_empty after billed_after drained⟩

/-- A contract whose one method stores its input under a fixed key, whatever comes of it. -/
def keeper : Contract Unit where
  name := "Keeper"
  methods := [{
    signature := "keep(bytes)"
    rawGas := 500
    handler := fun invocation =>
      .mk (.ask (.store (.put (invocation.key [[0x6b]]) invocation.input)) fun _ =>
        .done (.ok [])) }]

/-- A host on which the contract is registered under the zero address. -/
def keeperHost : Environment Unit where
  registry := (Registry.empty .standard).register .zero keeper
  transaction := .ofSender .zero 100000
  bridge? := none

/-- Two calls of the contract, one after the other. -/
def keepTwice (selector : Selector) : Program Unit Unit :=
  .ask (.call ⟨.zero, .zero, selector.toList ++ [0x2a]⟩) fun _ =>
    .ask (.call ⟨.zero, .zero, selector.toList ++ [0x2b]⟩) fun _ => .done ()

theorem makes_keepTwice {allowed : Request Unit → Prop} (calls : ∀ frame, allowed (.call frame))
    (selector : Selector) : (keepTwice selector).Makes allowed :=
  .ask (calls _) fun _ => .ask (calls _) fun _ => .done ()

theorem makes_keeper {allowed : Request Unit → Prop}
    (stores : ∀ operation, allowed (.store operation)) :
    ∀ method ∈ keeper.methods, ∀ invocation, (method.handler invocation).run.Makes allowed := by
  intro method member invocation
  rw [List.mem_singleton.1 member]
  exact .ask (stores _) fun _ => .done _

/-- Two calls, each for the gas of the method and of a write of one byte. With 24000 units only the
first can be paid for, and then nothing is left. -/
theorem gas_accounted_keepTwice :
    let program := keepTwice (Selector.ofSignature "keep(bytes)")
    let start (gas : Gas) : Execution ChangeSet Unit := .withMeter keeperHost ⟨gas⟩ .empty ()
    let final (gas : Gas) := ((keeperHost.run program).run (start gas)).2
    let prices (gas : Gas) := (keeperHost.steps program (start gas)).map fun step =>
      (keeperHost.price step).toNat
    prices 100000 = [21500, 2030, 0, 21500, 2030, 0] ∧
      (final 100000).gas + 2 * (21500 + 2030) = 100000 ∧
      prices 24000 = [21500, 2030, 0, 21500, 0] ∧ (final 24000).gas = 0 := by
  intro program start final prices
  have handlers : keeperHost.registry.HandlersMake fun request => request.isRefund = false :=
    (Registry.handlersMake_empty .standard _).register .zero (makes_keeper fun _ => rfl)
  have makes : program.Makes fun request => request.isRefund = false :=
    makes_keepTwice (fun _ => rfl) _
  have priced : prices 100000 = [21500, 2030, 0, 21500, 2030, 0] := by decide +kernel
  have account (gas : Gas) :
      ∃ y, Chained y [] (final gas) ∧
        keeperHost.Accounted (start gas) (keeperHost.steps program (start gas)) y [] := by
    obtain ⟨-, -, splits⟩ := gas_accounted handlers makes (start gas)
    obtain ⟨y, -, ends, accounted⟩ := splits _ [] (List.append_nil _).symm
    exact ⟨y, ends, accounted⟩
  refine ⟨priced, ?_, by decide +kernel, ?_⟩
  · obtain ⟨y, ends, accounted⟩ := account 100000
    have ends : y = final 100000 := ends
    have paid : ∀ step ∈ keeperHost.steps program (start 100000),
        keeperHost.chargeFails step = false := by decide +kernel
    have sum : (start 100000).gas = y.gas + (prices 100000).sum := accounted.sum paid
    rw [priced, ends] at sum
    exact sum.symm
  · obtain ⟨y, ends, accounted⟩ := account 24000
    have ends : y = final 24000 := ends
    have refused : ∃ step ∈ keeperHost.steps program (start 24000),
        keeperHost.chargeFails step = true := by decide +kernel
    obtain ⟨step, member, short⟩ := refused
    rw [← ends]
    exact (accounted.drained step member short).2.2.1

end Environment

end ContractHost
