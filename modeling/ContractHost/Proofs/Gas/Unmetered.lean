import Mathlib
import ContractHost.Proofs.Gas.Translation

/-!
# Runs without metering

A run without metering starts with the largest amount of gas, and from there its meter counts down
like any other. What a step asks of the meter does not depend on how much is left
(`Environment.need`), and the charge of a step fails just when it asks for more. So no charge of the
run fails as long as what the steps ask for adds up to no more than the largest amount, and the first
step to take the sum past it fails (`system_charges_covered`). A machine that keeps to the gas it is
given is never refused its charge: it is not given more than is left.
-/

namespace ContractHost

/-- The machine reports no more gas than it is given. -/
def Bridge.Honest {ω : Type} (bridge : Bridge ω) : Prop :=
  ∀ call outside, ((bridge call).run outside).1.gasUsed ≤ call.gas

/-- Why an operation on the store failed. -/
def Action.refusedStore? {ω : Type} : Action ω → Option RuntimeError
  | .answered (.store _) (.error cause) => some cause
  | _ => none

namespace Environment

variable {σ ω α : Type} [Ledger σ] {environment : Environment ω}

/-! ## Calls of the virtual machine -/

/-- A call of the machine is paid for, and fails only as the machine says. -/
def MachineFails (environment : Environment ω) (step : Step σ ω) : Prop :=
  ∀ call reply, step.action = .answered (.evm call) reply →
    environment.chargeFails step = false ∧
      ∀ cause, reply = .error cause → (environment.report call step.before).1.error? = some cause

/-- The virtual machine, if there is one, keeps to the gas that it is given. -/
def HonestBridge (environment : Environment ω) : Prop :=
  ∀ bridge, environment.bridge? = some bridge → bridge.Honest

omit [Ledger σ] in
theorem gasUsed_le_of_honest (bridges : environment.HonestBridge) (call : EvmCall)
    (x : Execution σ ω) : (environment.report call x).1.gasUsed ≤ x.meter.remaining := by
  unfold report
  cases here : environment.bridge? with
  | none => exact UInt64.zero_le
  | some bridge =>
    have given := bridges bridge here { call with gas := min call.gas x.meter.remaining } x.outside
    exact UInt64.le_trans given Std.min_le_right

theorem machineFails_answered (bridges : environment.HonestBridge)
    (call : Frame → RuntimeM (Execution σ ω) Bytes) (request : Request ω) (x : Execution σ ω) :
    environment.MachineFails ⟨x, .answered request ((environment.answer call request).run x).1,
      ((environment.answer call request).run x).2⟩ := by
  intro call' reply acts
  cases acts
  have covered := gasUsed_le_of_honest bridges call' x
  have enough := UInt64.not_lt.2 covered
  refine ⟨chargeFails_eq_false_iff.2 (UInt64.le_iff_toNat_le.1 covered), ?_⟩
  intro cause failed
  obtain ⟨log, answered⟩ := environment.answer_evm call call' x
  rw [answered] at failed
  dsimp only at failed
  rw [if_neg enough] at failed
  cases reported : (environment.report call' x).1.error? with
  | none =>
    rw [reported] at failed
    cases failed
  | some error =>
    rw [reported] at failed
    cases failed
    rfl

theorem machineFails_steps (bridges : environment.HonestBridge) (program : Program ω α)
    (x : Execution σ ω) : ∀ step ∈ environment.steps program x, environment.MachineFails step := by
  refine (environment.nested_run program x).forall ?_ ?_ ?_
  · intro request y _ _
    exact machineFails_answered bridges environment.call request y
  · intro frame y call reply acts
    cases acts
  · intro frame result y call reply acts
    cases acts

/-! ## Whole runs -/

variable {x y : Execution σ ω} {steps : List (Step σ ω)}

/-- What steps ask of the meter, in all. -/
def asked (environment : Environment ω) (steps : List (Step σ ω)) : Nat :=
  (steps.map environment.need).sum

theorem gas_of_billed (chained : Chained x steps y)
    (billed : ∀ step ∈ steps, environment.Billed step) (paid : environment.Paid steps) :
    y.gas + environment.asked steps = x.gas := by
  have priced : steps.map environment.need =
      steps.map fun step => (environment.price step).toNat :=
    List.map_congr_left fun step member => (billed step member).priced (paid step member)
  rw [asked, priced]
  exact (billed_sum chained billed paid).symm

/-- No charge fails just when the meter holds what is asked for in all. -/
theorem paid_iff_of_billed (chained : Chained x steps y)
    (billed : ∀ step ∈ steps, environment.Billed step) :
    environment.Paid steps ↔ environment.asked steps ≤ x.gas := by
  constructor
  · intro paid
    have taken := gas_of_billed chained billed paid
    omega
  · intro enough
    induction steps generalizing x with
    | nil => exact paid_nil
    | cons step steps ih =>
      obtain ⟨rfl, chained⟩ := chained
      obtain ⟨here, later⟩ := List.forall_mem_cons.1 billed
      rw [asked, List.map_cons, List.sum_cons] at enough
      have now : environment.chargeFails step = false := by
        rw [chargeFails_eq_false_iff]
        omega
      have taken := here.paid now
      have priced := here.priced now
      have onward : environment.asked steps ≤ step.after.gas := by
        rw [asked]
        omega
      exact List.forall_mem_cons.2 ⟨now, ih chained later onward⟩

/-- In a run without metering no charge fails if and only if what the steps ask for adds up to no
more than the largest amount of gas. A charge that fails takes the sum past it, and the first one that
takes it past fails. The step then fails for lack of gas, and no other does but a call of the machine,
which may say so of itself. The charge for a call of a machine that keeps to the gas it is given never
fails. -/
theorem system_charges_covered
    (handlers : environment.registry.HandlersMake fun request => request.isRefund = false)
    {program : Program ω α} (makes : program.Makes fun request => request.isRefund = false)
    (ledger : σ) (outside : ω) :
    let steps := environment.steps program (.startSystem environment ledger outside)
    (environment.Paid steps ↔ environment.asked steps ≤ 2 ^ 64 - 1) ∧
      (∀ earlier step later, steps = earlier ++ step :: later →
        (environment.chargeFails step = true →
          2 ^ 64 - 1 < environment.asked earlier + environment.need step) ∧
        (environment.Paid earlier →
          2 ^ 64 - 1 < environment.asked earlier + environment.need step →
            environment.chargeFails step = true)) ∧
      (∀ step ∈ steps, (environment.chargeFails step = true → step.action.isShort = true) ∧
        (step.action.machineCall? = none →
          environment.chargeFails step = step.action.isShort)) ∧
      (environment.HonestBridge → ∀ step ∈ steps, environment.MachineFails step) := by
  intro steps
  have billed : ∀ step ∈ steps, environment.Billed step := billed_steps handlers makes _
  have chained : Chained _ steps _ := environment.chained_steps program _
  have full : (Execution.startSystem environment ledger outside).gas = 2 ^ 64 - 1 :=
    Gas.toNat_largest
  refine ⟨?_, ?_, ?_, fun bridges => machineFails_steps bridges program _⟩
  · rw [paid_iff_of_billed chained billed, full]
  · intro earlier step later parts
    rw [parts, List.append_cons] at chained billed
    obtain ⟨y, upTo, -⟩ := chained.split
    have covered := paid_iff_of_billed upTo (List.forall_mem_append.1 billed).1
    have sum : environment.asked (earlier ++ [step]) =
        environment.asked earlier + environment.need step := by simp [asked]
    rw [paid_append, paid_singleton, sum, full] at covered
    constructor
    · intro fails
      by_contra enough
      have fair := (covered.2 (Nat.not_lt.1 enough)).2
      rw [fails] at fair
      cases fair
    · intro paid more
      by_contra fair
      have enough := covered.1 ⟨paid, Bool.eq_false_iff.2 fair⟩
      omega
  · intro step member
    have here := billed step member
    exact ⟨fun fails => (here.short fails).2, here.chargeFails_eq⟩

/-- A contract that gives the machine some amount of gas and then stores its input. -/
def kindler (cap : Gas) : Descriptor Unit where
  address := .zero
  name := "Kindler"
  entries := (∅ : Std.ExtTreeMap Selector MethodEntry).insert ⟨[0x6b, 0x69, 0x6e, 0x64], rfl⟩
    ⟨0, "kindle(bytes)", 21500⟩
  handlers := [fun invocation =>
    .mk (.ask (.evm ⟨invocation.address, .zero, cap, []⟩) fun _ =>
      .ask (.store (.put (invocation.key [[0x6b]]) invocation.input)) fun stored =>
        .done (stored.map fun _ => []))]

/-- The contract with a machine that burns all the gas that it is given. -/
def kindlerHost (cap : Gas) : Environment Unit where
  registry := ⟨.standard, (∅ : Std.ExtTreeMap Address (Descriptor Unit)).insert .zero (kindler cap)⟩
  transaction := .empty
  bridge? := some fun call => pure (.success [] call.gas)

/-- One call of the contract. -/
def kindling : Program Unit (Except RuntimeError Bytes) :=
  .ask (.call ⟨.zero, .zero, [0x6b, 0x69, 0x6e, 0x64, 0x2a]⟩) .done

theorem honestBridge_kindler (cap : Gas) : (kindlerHost cap).HonestBridge := by
  intro bridge here
  cases here
  intro call outside
  exact UInt64.le_refl call.gas

theorem makes_kindler {allowed : Request Unit → Prop} (evm : ∀ call, allowed (.evm call))
    (store : ∀ operation, allowed (.store operation)) (cap : Gas) :
    (kindlerHost cap).registry.HandlersMake allowed := by
  refine (Registry.handlersMake_empty .standard _).insert .zero ?_
  intro handler member invocation
  rw [List.mem_singleton.1 member]
  exact .ask (evm _) fun _ => .ask (store _) fun _ => .done _

theorem makes_kindling {allowed : Request Unit → Prop} (call : ∀ frame, allowed (.call frame)) :
    kindling.Makes allowed :=
  .ask (call _) fun _ => .done _

/-- A call that burns some gas, all of which is paid for. -/
theorem system_charges_covered_kindling :
    let host := kindlerHost 90000
    let steps := host.steps kindling (.startSystem host ChangeSet.empty ())
    host.asked steps = 21500 + 90000 + 2030 ∧ host.Paid steps ∧
      ∀ step ∈ steps, host.MachineFails step := by
  intro host steps
  have amount : host.asked steps = 21500 + 90000 + 2030 := by decide +kernel
  obtain ⟨paid, -, -, machine⟩ := system_charges_covered
    (makes_kindler (fun _ => rfl) (fun _ => rfl) 90000) (makes_kindling fun _ => rfl)
    ChangeSet.empty ()
  refine ⟨amount, paid.2 ?_, machine (honestBridge_kindler _)⟩
  exact amount.trans_le (by decide)

/-- The machine may be given all the gas that there is, and burn it. Then the contract cannot store
anything any more. -/
theorem system_call_runs_dry :
    let host := kindlerHost Gas.largest
    let steps := host.steps kindling (.startSystem host ChangeSet.empty ())
    host.registry.config.validate = .ok () ∧ host.HonestBridge ∧
      (host.registry.HandlersMake fun request =>
        ∀ amount, request ≠ .charge amount ∧ request ≠ .refund amount) ∧
      (kindling.Makes fun request =>
        ∀ amount, request ≠ .charge amount ∧ request ≠ .refund amount) ∧
      steps.map (fun step => step.action.refusedStore?) =
        [none, none, some (.insufficientGas 2030 0), none] := by
  intro host steps
  exact ⟨by decide +kernel, honestBridge_kindler _, makes_kindler (by simp) (by simp) _,
    makes_kindling (by simp), by decide +kernel⟩

end Environment

end ContractHost
