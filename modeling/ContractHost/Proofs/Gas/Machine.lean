import Mathlib
import ContractHost.Proofs.Gas.Unmetered

/-!
# The account of a machine call

The virtual machine is not trusted. It is asked once, with no more gas than is left, and what it says
it has used is charged before anything else is made of its report: one that says more than there is
empties the meter, and its own failure is then forgotten (`MachineSettled`). A machine that keeps to
what it is given cannot do that, so that a call of it fails only as the machine says, and costs no
more than the caller allowed (`MachineHonored`). As a call of the machine is one step of a run, this
holds at any depth (`machine_calls_settled`).
-/

namespace ContractHost

variable {σ ω α : Type}

/-- A call of the machine with no more gas than is left. -/
def Execution.allow (x : Execution σ ω) (call : EvmCall) : EvmCall :=
  { call with gas := min call.gas x.meter.remaining }

/-- What the machine reports of a call. -/
def Bridge.reported (bridge : Bridge ω) (call : EvmCall) (x : Execution σ ω) : EvmOutput :=
  ((bridge (x.allow call)).run x.outside).1

/-- What comes of a call of the machine, whatever it reports. -/
structure MachineSettled (bridge : Bridge ω) (call : EvmCall) (x : Execution σ ω)
    (reply : Except RuntimeError EvmOutput) (y : Execution σ ω) : Prop where
  /-- The machine has acted on the world outside, and nothing else has. -/
  asked : y.outside = ((bridge (x.allow call)).run x.outside).2
  /-- In any record that the machine keeps of its calls there is one more. -/
  recorded : ∀ record : ω → List EvmCall,
    (∀ call outside, record ((bridge call).run outside).2 = record outside ++ [call]) →
      record y.outside = record x.outside ++ [x.allow call]
  overspent : x.meter.remaining < (bridge.reported call x).gasUsed →
    reply = .error (.insufficientGas (bridge.reported call x).gasUsed x.meter.remaining) ∧
      y.meter = ⟨0⟩
  /-- Its own failure is looked at once the charge is paid. -/
  covered : (bridge.reported call x).gasUsed ≤ x.meter.remaining →
    reply = (match (bridge.reported call x).error? with
      | some cause => .error cause
      | none => .ok (bridge.reported call x)) ∧
    y.meter = ⟨x.meter.remaining - (bridge.reported call x).gasUsed⟩
  kept : y.ledger = x.ledger ∧ y.stack = x.stack ∧ y.events = x.events ∧ y.value = x.value ∧
    y.recipient = x.recipient

/-- What more can be said of a call when the machine keeps to the gas that it is given. -/
structure MachineHonored (bridge : Bridge ω) (call : EvmCall) (x : Execution σ ω)
    (reply : Except RuntimeError EvmOutput) (y : Execution σ ω) : Prop where
  /-- The charge does not fail. -/
  covered : (bridge.reported call x).gasUsed ≤ x.meter.remaining
  /-- Any failure is the machine's own. -/
  own : ∀ cause, reply = .error cause → (bridge.reported call x).error? = some cause
  capped : x.gas ≤ y.gas + call.gas.toNat

namespace MachineSettled

variable {bridge : Bridge ω} {call : EvmCall} {x y : Execution σ ω}
  {reply : Except RuntimeError EvmOutput}

theorem honored (settled : MachineSettled bridge call x reply y) (honest : bridge.Honest) :
    MachineHonored bridge call x reply y := by
  have given : (bridge.reported call x).gasUsed ≤ min call.gas x.meter.remaining :=
    honest (x.allow call) x.outside
  have covered := UInt64.le_trans given Std.min_le_right
  obtain ⟨replied, left⟩ := settled.covered covered
  refine ⟨covered, ?_, ?_⟩
  · intro cause fails
    rw [replied] at fails
    split at fails
    · rename_i error here
      cases fails
      exact here
    · cases fails
  · have taken := Environment.gas_of_paid covered
    have capped := UInt64.le_iff_toNat_le.1 (UInt64.le_trans given Std.min_le_left)
    have gas : y.gas = (x.meter.remaining - (bridge.reported call x).gasUsed).toNat := by
      rw [Execution.gas, left]
    omega

end MachineSettled

theorem Action.exists_reply {action : Action ω} {call : EvmCall}
    (called : action.machineCall? = some call) : ∃ reply, action = .answered (.evm call) reply := by
  unfold machineCall? at called
  split at called
  · cases called
    exact ⟨_, rfl⟩
  · cases called

namespace Environment

variable [Ledger σ] {environment : Environment ω}

omit [Ledger σ] in
theorem report_of_bridge {bridge : Bridge ω} (connected : environment.bridge? = some bridge)
    (call : EvmCall) (x : Execution σ ω) :
    environment.report call x = (bridge (x.allow call)).run x.outside := by
  rw [report, connected]
  rfl

/-- Whatever the machine reports, a call of it is settled. -/
theorem machineSettled {bridge : Bridge ω} (connected : environment.bridge? = some bridge)
    (call : EvmCall) (x : Execution σ ω) :
    MachineSettled bridge call x (Fallible.eval (environment.evmCall call) x).1
      (Fallible.eval (environment.evmCall call) x).2 := by
  obtain ⟨log, answered⟩ := environment.answer_evm environment.call call x
  have outcome : Fallible.eval (environment.evmCall call) x = _ := answered
  rw [report_of_bridge connected] at outcome
  -- One case for each way in which the charge may go.
  by_cases short : x.meter.remaining < (bridge.reported call x).gasUsed
  · have drained : Fallible.eval (environment.evmCall call) x =
        (.error (.insufficientGas (bridge.reported call x).gasUsed x.meter.remaining),
          { x with outside := ((bridge (x.allow call)).run x.outside).2, meter := ⟨0⟩ }) :=
      outcome.trans (if_pos short)
    rw [drained]
    have never : ¬(bridge.reported call x).gasUsed ≤ x.meter.remaining := UInt64.not_le.2 short
    exact {
      asked := rfl
      recorded := fun record keeps => keeps (x.allow call) x.outside
      overspent := fun _ => ⟨rfl, rfl⟩
      covered := fun enough => absurd enough never
      kept := ⟨rfl, rfl, rfl, rfl, rfl⟩ }
  · have charged := outcome.trans (if_neg short)
    rw [charged]
    exact {
      asked := rfl
      recorded := fun record keeps => keeps (x.allow call) x.outside
      overspent := fun less => absurd less short
      covered := fun _ => ⟨rfl, rfl⟩
      kept := ⟨rfl, rfl, rfl, rfl, rfl⟩ }

omit [Ledger σ] in
/-- Without a machine nothing happens. -/
theorem eval_evmCall_of_none (absent : environment.bridge? = none) (call : EvmCall)
    (x : Execution σ ω) : Fallible.eval (environment.evmCall call) x = (.ok .empty, x) := by
  rw [evmCall, absent]
  rfl

/-- The steps of a run at which the machine is called are calls of it. -/
theorem eval_evmCall_of_mem {program : Program ω α} {x : Execution σ ω} {step : Step σ ω}
    (member : step ∈ environment.steps program x) {call : EvmCall}
    {reply : Except RuntimeError EvmOutput} (acts : step.action = .answered (.evm call) reply) :
    Fallible.eval (environment.evmCall call) step.before = (reply, step.after) := by
  have calls : ∀ step ∈ environment.steps program x, ∀ call reply,
      step.action = .answered (.evm call) reply →
        Fallible.eval (environment.evmCall call) step.before = (reply, step.after) := by
    refine (environment.nested_run program x).forall ?_ ?_ ?_
    · intro request y _ _ call reply acts
      cases acts
      rfl
    · intro frame y call reply acts
      cases acts
    · intro frame result y call reply acts
      cases acts
  exact calls step member call reply acts

/-- Whatever the machine, a call of it is charged what it reports, before anything else is made of the
report. In a run, at any depth, a machine that keeps to the gas that it is given is paid for, fails
only as it says, and costs no more than the caller allowed. -/
theorem machine_calls_settled (environment : Environment ω) :
    (∀ bridge, environment.bridge? = some bridge → ∀ call (x : Execution σ ω),
      MachineSettled bridge call x (Fallible.eval (environment.evmCall call) x).1
        (Fallible.eval (environment.evmCall call) x).2) ∧
    (environment.bridge? = none → ∀ call (x : Execution σ ω),
      Fallible.eval (environment.evmCall call) x = (.ok .empty, x)) ∧
    ∀ (program : Program ω α) (x : Execution σ ω), ∀ step ∈ environment.steps program x,
      ∀ call reply, step.action = .answered (.evm call) reply →
        (environment.bridge? = none → reply = .ok .empty ∧ step.after = step.before) ∧
        ∀ bridge, environment.bridge? = some bridge →
          MachineSettled bridge call step.before reply step.after ∧
          (bridge.Honest → MachineHonored bridge call step.before reply step.after) := by
  refine ⟨fun _ connected => machineSettled connected, eval_evmCall_of_none, ?_⟩
  intro program x step member call reply acts
  have called := eval_evmCall_of_mem member acts
  constructor
  · intro absent
    rw [eval_evmCall_of_none absent] at called
    obtain ⟨replied, left⟩ := Prod.mk.inj called
    exact ⟨replied.symm, left.symm⟩
  · intro bridge connected
    have settled := machineSettled connected call step.before
    rw [called] at settled
    exact ⟨settled, settled.honored⟩

/-- A host whose machine always uses one unit more than it is given, and says that it has failed. -/
def overspender : Environment Unit :=
  { kindlerHost 0 with bridge? := some fun call => pure (.failure .emptyContextStack (call.gas + 1)) }

/-- With 500 units left a call that allows 1000 takes them all, and is not told why the machine failed.
A contract that gives an honest machine 90000 units loses no more. -/
theorem machine_calls_settled_kindling :
    let poor : Execution ChangeSet Unit := .withMeter overspender ⟨500⟩ .empty ()
    let spent := Fallible.eval (overspender.evmCall ⟨.zero, .zero, 1000, []⟩) poor
    let host := kindlerHost 90000
    let steps := host.steps kindling (.startSystem host ChangeSet.empty ())
    spent.1 = .error (.insufficientGas 501 500) ∧ spent.2.meter = ⟨0⟩ ∧
      ∃ step ∈ steps, step.action.machineCall? = some ⟨.zero, .zero, 90000, []⟩ ∧
        step.before.gas ≤ step.after.gas + 90000 := by
  intro poor spent host steps
  obtain ⟨settled, -, -⟩ := machine_calls_settled (σ := ChangeSet) (α := Unit) overspender
  obtain ⟨refused, drained⟩ := (settled _ rfl ⟨.zero, .zero, 1000, []⟩ poor).overspent (by decide)
  refine ⟨refused, drained, ?_⟩
  obtain ⟨-, -, run⟩ := machine_calls_settled (σ := ChangeSet) (α := Except RuntimeError Bytes) host
  have listed : steps.map (fun step => step.action.machineCall?) =
      [none, some ⟨.zero, .zero, 90000, []⟩, none, none] := by decide +kernel
  obtain ⟨step, member, called⟩ := List.mem_map.1 (listed ▸ List.mem_cons_of_mem _ List.mem_cons_self)
  obtain ⟨reply, acts⟩ := Action.exists_reply called
  obtain ⟨-, honest⟩ := (run kindling _ step member _ reply acts).2 _ rfl
  exact ⟨step, member, called, (honest fun call outside => UInt64.le_refl call.gas).capped⟩

end Environment

end ContractHost
