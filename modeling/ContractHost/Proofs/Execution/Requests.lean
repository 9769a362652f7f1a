import Mathlib
import ContractHost.Proofs.Execution.Dispatch

/-!
# What requests do to an execution

One equation for each request that is more than a look at the execution: what it replies and which
parts of the execution it replaces. The log is written to and never read, so most of the equations
leave open what is noted.
-/

namespace ContractHost

namespace Environment

variable {σ ω : Type} [Ledger σ] (environment : Environment ω)
  (call : Frame → RuntimeM (Execution σ ω) Bytes)

theorem answer_store (operation : Store.Operation) (x : Execution σ ω) :
    ∃ log,
      (environment.answer call (.store operation)).run x =
        let outcome :=
          Fallible.eval (operation.run environment.registry.config.storage) ⟨x.ledger, x.meter⟩
        (outcome.1, { x with ledger := outcome.2.ledger, meter := outcome.2.meter, log }) := by
  show ∃ log, Fallible.eval (environment.runStore operation) x = _
  unfold runStore
  rw [Fallible.eval_bind, Execution.eval_onStore]
  rcases Fallible.eval (operation.run environment.registry.config.storage) ⟨x.ledger, x.meter⟩ with
    ⟨cause | reply, after⟩
  · exact ⟨_, rfl⟩
  · rw [Fallible.proceed_ok]
    rcases operation.noted? reply with _ | entry
    · exact ⟨_, rfl⟩
    · exact ⟨_, rfl⟩

theorem answer_transfer (sender recipient : Address) (amount : Balance) (x : Execution σ ω) :
    ∃ log,
      (environment.answer call (.transfer sender recipient amount)).run x =
        let outcome := Fallible.eval (Ledger.transfer sender recipient amount) x.ledger
        (outcome.1, { x with ledger := outcome.2, log }) := by
  show ∃ log, Fallible.eval (transfer sender recipient amount) x = _
  unfold transfer
  rw [Fallible.eval_bind, Execution.eval_onLedger]
  rcases Fallible.eval (Ledger.transfer sender recipient amount) x.ledger with
    ⟨cause | moved, after⟩
  · exact ⟨_, rfl⟩
  · rw [Fallible.proceed_ok]
    cases moved with
    | false => exact ⟨_, rfl⟩
    | true => exact ⟨_, rfl⟩

theorem answer_emit (address : Address) (topics : List Word) (data : Bytes) (x : Execution σ ω) :
    (environment.answer call (.emit address topics data)).run x =
      match Event.make address environment.transaction.height topics data with
      | .ok event => (.ok (), { x with events := x.events ++ [event] })
      | .error cause => (.error cause, x) := by
  show Fallible.eval (environment.emit address topics data) x = _
  unfold emit
  rw [Fallible.eval_bind, Fallible.eval_liftM]
  rcases Event.make address environment.transaction.height topics data with cause | event
  · rfl
  · rfl

/-- What the virtual machine reports of a call, and the outside world that it leaves. -/
def report (call : EvmCall) (x : Execution σ ω) : EvmOutput × ω :=
  match environment.bridge? with
  | none => (.empty, x.outside)
  | some bridge => (bridge { call with gas := min call.gas x.meter.remaining }).run x.outside

theorem answer_evm (call' : EvmCall) (x : Execution σ ω) :
    ∃ log,
      (environment.answer call (.evm call')).run x =
        let report := environment.report call' x
        if x.meter.remaining < report.1.gasUsed then
          (.error (.insufficientGas report.1.gasUsed x.meter.remaining),
            { x with outside := report.2, meter := ⟨0⟩ })
        else
          (match report.1.error? with
            | some error => .error error
            | none => .ok report.1,
          { x with
            outside := report.2
            meter := ⟨x.meter.remaining - report.1.gasUsed⟩
            log }) := by
  show ∃ log, Fallible.eval (environment.evmCall call') x = _
  unfold evmCall report
  cases environment.bridge? with
  | none =>
    have enough : ¬ x.meter.remaining < EvmOutput.empty.gasUsed :=
      UInt64.not_lt.2 UInt64.zero_le
    have kept : Meter.mk (x.meter.remaining - EvmOutput.empty.gasUsed) = x.meter :=
      congrArg Meter.mk (Gas.sub_zero _)
    refine ⟨x.log, ?_⟩
    dsimp only
    rw [if_neg enough, kept]
    rfl
  | some bridge =>
    dsimp only
    have asked : (Execution.onOutside (bridge { call' with gas := min call'.gas x.meter.remaining }) :
        HostM σ ω EvmOutput).run x =
      (((bridge { call' with gas := min call'.gas x.meter.remaining }).run x.outside).1,
        { x with
          outside := ((bridge { call' with gas := min call'.gas x.meter.remaining }).run
            x.outside).2 }) := rfl
    rw [Fallible.eval_bind, Fallible.eval_get, Fallible.proceed_ok, Fallible.eval_bind,
      Fallible.eval_lift, asked, Fallible.proceed_ok, Fallible.eval_bind, Execution.eval_charge]
    rcases (bridge { call' with gas := min call'.gas x.meter.remaining }).run x.outside with
      ⟨output, outside⟩
    dsimp only
    by_cases short : x.meter.remaining < output.gasUsed
    · refine ⟨x.log, ?_⟩
      rw [if_pos short, if_pos short]
      rfl
    · refine ⟨x.log ++ [.evmCalled call'.caller call'.target output.gasUsed
        (min call'.gas x.meter.remaining)], ?_⟩
      rw [if_neg short, if_neg short, Fallible.proceed_ok]
      rcases output.error? with _ | error
      · rfl
      · rfl

theorem answer_charge (amount : Gas) (x : Execution σ ω) :
    (environment.answer call (.charge amount)).run x =
      if x.meter.remaining < amount then
        (.error (.insufficientGas amount x.meter.remaining), { x with meter := ⟨0⟩ })
      else (.ok (), { x with meter := ⟨x.meter.remaining - amount⟩ }) :=
  Execution.eval_charge x amount

end Environment

end ContractHost
