import Mathlib
import ContractHost.Proofs.Gas.Translation

/-!
# Gas limits

Of the transaction a run sees everything but the gas limit, which only fills the meter at the start.
So the runs of one transaction under different limits are translations of each other: what a
run takes in which no charge fails is the least limit under which it goes the same way
(`transact_translates`).
-/

namespace ContractHost

namespace Environment

open Execution (Alike)

variable {σ ω α : Type} [Ledger σ] {environment : Environment ω} {same : ω → ω → Prop}

/-- The environment of the same transaction with another gas limit. -/
def withGasLimit (environment : Environment ω) (limit : Gas) : Environment ω :=
  { environment with transaction := { environment.transaction with gasLimit := limit } }

theorem answer_withGasLimit (limit : Gas) (call : Frame → RuntimeM (Execution σ ω) Bytes)
    (request : Request ω) :
    (environment.withGasLimit limit).answer call request = environment.answer call request := rfl

theorem runWith_withGasLimit (limit : Gas) (call : Frame → RuntimeM (Execution σ ω) Bytes)
    (program : Program ω α) :
    (environment.withGasLimit limit).runWith call program = environment.runWith call program := by
  induction program with
  | done result => rfl
  | ask request next ih =>
    rw [runWith, runWith, answer_withGasLimit]
    exact congrArg _ (funext ih)

theorem dispatch_withGasLimit (limit : Gas) (call : Frame → RuntimeM (Execution σ ω) Bytes) :
    (environment.withGasLimit limit).dispatch call = environment.dispatch call := by
  refine congrArg (environment.resolve >>= ·) (funext fun found => ?_)
  exact congrArg ExceptT.mk (runWith_withGasLimit limit _ _)

theorem callWithin_withGasLimit (limit : Gas) (room : Nat) :
    ((environment.withGasLimit limit).callWithin room : Frame → RuntimeM (Execution σ ω) Bytes) =
      environment.callWithin room := by
  induction room with
  | zero => rfl
  | succ room ih =>
    funext frame
    rw [callWithin, callWithin, ih, dispatch_withGasLimit]
    rfl

theorem call_withGasLimit (limit : Gas) :
    ((environment.withGasLimit limit).call : Frame → RuntimeM (Execution σ ω) Bytes) =
      environment.call := by
  funext frame x
  show (environment.withGasLimit limit).callWithin _ frame x = _
  rw [callWithin_withGasLimit]
  rfl

theorem run_withGasLimit (limit : Gas) (program : Program ω α) :
    ((environment.withGasLimit limit).run program : HostM σ ω α) = environment.run program := by
  rw [run, call_withGasLimit, runWith_withGasLimit]
  rfl

theorem programSteps_withGasLimit (limit : Gas) (call : Frame → RuntimeM (Execution σ ω) Bytes)
    (callSteps : Frame → Execution σ ω → List (Step σ ω)) (program : Program ω α) :
    (environment.withGasLimit limit).programSteps call callSteps program =
      environment.programSteps call callSteps program := by
  induction program with
  | done result => rfl
  | ask request next ih =>
    funext x
    have here : (environment.withGasLimit limit).requestSteps call callSteps request x =
        environment.requestSteps call callSteps request x := by
      cases request with
      | _ => rfl
    rw [programSteps, programSteps, here, answer_withGasLimit, ih]

theorem callStepsWithin_withGasLimit (limit : Gas) (room : Nat) :
    ((environment.withGasLimit limit).callStepsWithin room :
      Frame → Execution σ ω → List (Step σ ω)) = environment.callStepsWithin room := by
  induction room with
  | zero => rfl
  | succ room ih =>
    funext frame x
    have inside (found : Except RuntimeError (Invocation × Handler ω)) (y : Execution σ ω) :
        (environment.withGasLimit limit).handlerSteps (environment.callWithin room)
            (environment.callStepsWithin room) found y =
          environment.handlerSteps (environment.callWithin room)
            (environment.callStepsWithin room) found y := by
      rcases found with cause | ⟨invocation, handler⟩
      · rfl
      · exact congrFun (programSteps_withGasLimit limit _ _ _) y
    rw [callStepsWithin, callStepsWithin, ih, callWithin_withGasLimit, dispatch_withGasLimit,
      inside]
    rfl

theorem callSteps_withGasLimit (limit : Gas) :
    ((environment.withGasLimit limit).callSteps : Frame → Execution σ ω → List (Step σ ω)) =
      environment.callSteps := by
  funext frame x
  rw [callSteps, callSteps, callStepsWithin_withGasLimit]

theorem steps_withGasLimit (limit : Gas) (program : Program ω α) :
    ((environment.withGasLimit limit).steps program : Execution σ ω → List (Step σ ω)) =
      environment.steps program := by
  funext x
  rw [steps, steps, call_withGasLimit, callSteps_withGasLimit, programSteps_withGasLimit]

/-! ## A transaction under every limit -/

/-- A run of the transaction under a gas limit, from its start. -/
def transact (environment : Environment ω) (program : Program ω α) (ledger : σ) (outside : ω)
    (limit : Gas) : α × Execution σ ω :=
  ((environment.withGasLimit limit).run program).run
    (.start (environment.withGasLimit limit) ledger outside)

/-- The steps of this run. -/
def transactSteps (environment : Environment ω) (program : Program ω α) (ledger : σ)
    (outside : ω) (limit : Gas) : List (Step σ ω) :=
  (environment.withGasLimit limit).steps program
    (.start (environment.withGasLimit limit) ledger outside)

/-- Without metering a transaction runs as under the largest limit. -/
theorem run_startSystem (program : Program ω α) (ledger : σ) (outside : ω) :
    (environment.run program).run (.startSystem environment ledger outside) =
        environment.transact program ledger outside Gas.largest ∧
      environment.steps program (.startSystem environment ledger outside) =
        environment.transactSteps program ledger outside Gas.largest := by
  rw [transact, transactSteps, run_withGasLimit, steps_withGasLimit]
  exact ⟨rfl, rfl⟩

/-- What a transaction takes in which no charge fails is the least limit under which it runs that
way: under every limit that is no less it comes to the same result, state and events and takes the
same gas, and under every other limit a charge fails. The largest limit is no limit. -/
theorem transact_translates
    (bridges : environment.BlindBridge same)
    (handlers : environment.registry.HandlersMake (Request.Blind same)) {program : Program ω α}
    (makes : program.Makes (Request.Blind same)) {outside : ω} (starts : same outside outside)
    {ledger : σ} {limit : Gas}
    (paid : environment.Paid (environment.transactSteps program ledger outside limit)) :
    ∃ used, limit.toNat = (environment.transact program ledger outside limit).2.gas + used ∧
      (∀ limit' : Gas, used ≤ limit'.toNat →
        (environment.transact program ledger outside limit').1 =
            (environment.transact program ledger outside limit).1 ∧
          Alike same (environment.transact program ledger outside limit).2
            (environment.transact program ledger outside limit').2 ∧
          limit'.toNat = (environment.transact program ledger outside limit').2.gas + used ∧
          environment.Paid (environment.transactSteps program ledger outside limit')) ∧
      (∀ limit' : Gas, limit'.toNat < used →
        ∃ step ∈ environment.transactSteps program ledger outside limit',
          environment.chargeFails step = true ∧ step.action.isShort = true) ∧
      (environment.run program).run (.startSystem environment ledger outside) =
        environment.transact program ledger outside Gas.largest := by
  have alike (limit' : Gas) :
      Alike same (.start (environment.withGasLimit limit) ledger outside)
        (.start (environment.withGasLimit limit') ledger outside) :=
    ⟨rfl, starts, rfl, rfl, rfl, rfl⟩
  have unlimited := (environment.run_startSystem program ledger outside).1
  unfold transactSteps at paid ⊢
  unfold transact at unlimited ⊢
  rw [steps_withGasLimit] at paid
  simp only [run_withGasLimit, steps_withGasLimit] at unlimited ⊢
  obtain ⟨used, taken, runs⟩ := translates_run bridges handlers makes paid
  refine ⟨used, taken, ?_, ?_, unlimited⟩
  · intro limit' enough
    exact runs _ (alike limit') enough
  · intro limit' less
    exact exists_short_of_lt bridges handlers makes taken (alike limit') less

/-- A machine that keeps a record of the gas it is given. -/
def recorder : Bridge (List Gas) := fun call => do
  modify (call.gas :: ·)
  return .success [] 700

/-- A contract that stores its input and calls the machine. -/
def relay : Descriptor (List Gas) where
  address := .zero
  name := "Relay"
  entries := (∅ : Std.ExtTreeMap Selector MethodEntry).insert ⟨[0x72, 0x65, 0x6c, 0x61], rfl⟩
    ⟨0, "relay(bytes)", 21500⟩
  handlers := [fun invocation =>
    .mk (.ask (.store (.put (invocation.key [[0x72]]) invocation.input)) fun _ =>
      .ask (.evm ⟨invocation.address, .zero, 90000, invocation.input⟩) fun _ => .done (.ok []))]

/-- The machine and the contract together. -/
def relayHost : Environment (List Gas) where
  registry := ⟨.standard, (∅ : Std.ExtTreeMap Address (Descriptor (List Gas))).insert .zero relay⟩
  transaction := .empty
  bridge? := some recorder

/-- One call of the contract. -/
def relaying : Program (List Gas) (Except RuntimeError Bytes) :=
  .ask (.call ⟨.zero, .zero, [0x72, 0x65, 0x6c, 0x61, 0x2a]⟩) .done

/-- A call takes the gas of the method, of a write of one byte, and of the machine. -/
theorem transact_translates_relaying :
    (relayHost.transact relaying ChangeSet.empty [] 24230).2.gas = 0 ∧
      ∃ step ∈ relayHost.transactSteps relaying ChangeSet.empty [] 24229,
        relayHost.chargeFails step = true ∧ step.action.isShort = true := by
  have bridges : relayHost.BlindBridge fun _ _ => True := by
    intro bridge here
    cases here
    exact fun _ _ _ _ _ => ⟨rfl, trivial⟩
  have handlers : relayHost.registry.HandlersMake (Request.Blind fun _ _ => True) := by
    refine (Registry.handlersMake_empty .standard _).insert .zero ?_
    intro handler member invocation
    rw [List.mem_singleton.1 member]
    exact .ask trivial fun _ => .ask trivial fun _ => .done _
  have makes : relaying.Makes (Request.Blind fun _ _ => True) := .ask trivial fun _ => .done _
  have paid : relayHost.Paid (relayHost.transactSteps relaying ChangeSet.empty [] 100000) := by
    unfold Paid
    decide +kernel
  have left : (relayHost.transact relaying ChangeSet.empty [] 100000).2.gas = 75770 := by
    decide +kernel
  obtain ⟨used, taken, enough, less, -⟩ :=
    transact_translates bridges handlers makes trivial paid
  have amount : used = 24230 := by
    rw [left, show (100000 : Gas).toNat = 100000 from rfl] at taken
    omega
  subst amount
  have balance := (enough 24230 (Nat.le_refl _)).2.2.1
  rw [show (24230 : Gas).toNat = 24230 from rfl] at balance
  exact ⟨by omega, less 24229 (by decide)⟩

end Environment

end ContractHost
