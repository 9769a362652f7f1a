import Mathlib
import ContractHost.Proofs.Ledger.Writes
import ContractHost.Proofs.Lockstep

/-!
# Ledgers that fail

A ledger may carry an access out or fail at it. `CarriesOut` and `FailsAt` say so of a list of accesses
made one after the other: all of them are carried out, or all up to one. `Flaky` is a ledger that holds
what a change set holds and may fail at any access to its storage, for any cause, leaving then what it
holds as it is: which accesses those are may depend on anything that it knows. A recorder over such a
ledger is one too, and shows the accesses that were made, the one that failed being the last
(`Recorder.shown_of_failsAt`).
-/

namespace ContractHost

/-- Of a step whose result is not used it counts whether it fails. -/
theorem Fallible.eval_discard {ε σ α : Type} (step : Fallible ε σ α) (s : σ) :
    eval (step >>= fun _ => pure ()) s = ((eval step s).1.map fun _ => (), (eval step s).2) := by
  rw [eval_bind]
  rcases eval step s with ⟨e | a, t⟩
  · rfl
  · rfl

namespace Access

variable {σ : Type} [Ledger σ]

/-- Makes an access, whatever it finds. -/
def make : Access → LedgerM σ Unit
  | getAccount address => do
    let _ ← Ledger.getAccount address
  | setAccount address account => Ledger.setAccount address account
  | getStorage cell => do
    let _ ← Ledger.getStorage cell
  | setStorage cell word => Ledger.setStorage cell word

/-- Makes accesses one after the other, up to the first that fails. -/
def makeAll : List Access → LedgerM σ Unit
  | [] => return
  | access :: rest => do
    access.make
    makeAll rest

theorem eval_make_getAccount (address : Address) (ledger : σ) :
    Fallible.eval (getAccount address).make ledger =
      ((Fallible.eval (Ledger.getAccount address) ledger).1.map fun _ => (),
        (Fallible.eval (Ledger.getAccount address) ledger).2) :=
  Fallible.eval_discard _ ledger

theorem eval_make_getStorage (cell : Cell) (ledger : σ) :
    Fallible.eval (getStorage cell).make ledger =
      ((Fallible.eval (Ledger.getStorage cell) ledger).1.map fun _ => (),
        (Fallible.eval (Ledger.getStorage cell) ledger).2) :=
  Fallible.eval_discard _ ledger

end Access

namespace Ledger

variable {σ : Type} [Ledger σ] {ledger next after : σ} {access failed : Access}
  {accesses done : List Access} {cause : StorageError}

/-- A ledger carries accesses out one after the other. -/
def CarriesOut (ledger : σ) (accesses : List Access) (after : σ) : Prop :=
  Fallible.eval (Access.makeAll accesses) ledger = (.ok (), after)

/-- A ledger carries accesses out and fails at the one that follows. -/
def FailsAt (ledger : σ) (done : List Access) (failed : Access) (cause : StorageError) (after : σ) :
    Prop :=
  ∃ before, CarriesOut ledger done before ∧ Fallible.eval failed.make before = (.error cause, after)

theorem CarriesOut.nil (ledger : σ) : CarriesOut ledger [] ledger := rfl

theorem CarriesOut.cons (here : Fallible.eval access.make ledger = (.ok (), next))
    (rest : CarriesOut next accesses after) : CarriesOut ledger (access :: accesses) after := by
  rw [CarriesOut, Access.makeAll, Fallible.eval_bind, here, Fallible.proceed_ok]
  exact rest

theorem carriesOut_cons_iff : CarriesOut ledger (access :: accesses) after ↔
    ∃ next, Fallible.eval access.make ledger = (.ok (), next) ∧ CarriesOut next accesses after := by
  constructor
  · intro carried
    rw [CarriesOut, Access.makeAll, Fallible.eval_bind] at carried
    rcases here : Fallible.eval access.make ledger with ⟨cause | _, next⟩
    · rw [here] at carried
      cases carried
    · rw [here] at carried
      exact ⟨next, rfl, carried⟩
  · rintro ⟨next, here, rest⟩
    exact .cons here rest

theorem CarriesOut.append {later : List Access} (first : CarriesOut ledger accesses next)
    (rest : CarriesOut next later after) : CarriesOut ledger (accesses ++ later) after := by
  induction accesses generalizing ledger with
  | nil =>
    have same : ((.ok (), ledger) : Except StorageError Unit × σ) = (.ok (), next) := first
    cases same
    exact rest
  | cons access accesses ih =>
    obtain ⟨middle, here, first⟩ := carriesOut_cons_iff.1 first
    exact .cons here (ih first)

theorem FailsAt.head (here : Fallible.eval access.make ledger = (.error cause, after)) :
    FailsAt ledger [] access cause after :=
  ⟨ledger, .nil ledger, here⟩

theorem FailsAt.append (first : CarriesOut ledger accesses next)
    (fails : FailsAt next done failed cause after) :
    FailsAt ledger (accesses ++ done) failed cause after := by
  obtain ⟨before, carried, here⟩ := fails
  exact ⟨before, first.append carried, here⟩

/-! ## Ledgers over a change set -/

/-- A ledger that holds what a change set holds. At any access to its storage it may fail, and is then
left holding the same. -/
structure Flaky (view : σ → ChangeSet) : Prop where
  getStorage : ∀ cell ledger, ∃ after, view after = view ledger ∧
    (Fallible.eval (Ledger.getStorage cell) ledger = (.ok ((view ledger).content cell), after) ∨
      ∃ cause, Fallible.eval (Ledger.getStorage cell) ledger = (.error cause, after))
  setStorage : ∀ cell word ledger, ∃ after,
    (Fallible.eval (Ledger.setStorage cell word) ledger = (.ok (), after) ∧
        view after = (view ledger).recordSlot cell word) ∨
      ∃ cause, Fallible.eval (Ledger.setStorage cell word) ledger = (.error cause, after) ∧
        view after = view ledger

/-- A change set carries every access out. -/
theorem flaky_id : Flaky (fun changes : ChangeSet => changes) where
  getStorage _ changes := ⟨changes, rfl, .inl rfl⟩
  setStorage cell word changes := ⟨changes.recordSlot cell word, .inl ⟨rfl, rfl⟩⟩

end Ledger

/-! ## Recorders over such ledgers -/

namespace Recorder

open Ledger (CarriesOut FailsAt Flaky)

variable {σ α : Type}

/-- A recorder without faults over a ledger. -/
structure Shadows (recorder : Recorder σ) (ledger : σ) : Prop where
  faultless : recorder.faults = []
  inner : recorder.inner = ledger

theorem shadows_blank (ledger : σ) : Shadows (blank ledger) ledger := ⟨rfl, rfl⟩

/-- What becomes of an access that a fault strikes, or that the ledger behind answers. -/
theorem eval_attempt (access : Access) (step : LedgerM σ α) (recorder : Recorder σ) :
    ∃ done,
      Fallible.eval (attempt access (throw .notFound) step) recorder =
          ((Fallible.eval step recorder.inner).1,
            { recorder.record access done with inner := (Fallible.eval step recorder.inner).2 }) ∨
        ∃ cause, Fallible.eval (attempt access (throw .notFound) step) recorder =
          (.error cause, recorder.record access done) := by
  unfold attempt
  rw [Fallible.eval_bind, Fallible.eval_get, Fallible.proceed_ok]
  cases recorder.fault? access.kind with
  | none => exact ⟨true, .inl rfl⟩
  | some fault =>
    refine ⟨false, .inr ?_⟩
    dsimp only
    rw [Fallible.eval_bind, Fallible.eval_modify, Fallible.proceed_ok]
    cases fault.cause? with
    | some cause => exact ⟨cause, rfl⟩
    | none => exact ⟨.notFound, rfl⟩

variable [Ledger σ] {view : σ → ChangeSet}

/-- Whatever faults there are, a recorder holds what the ledger behind holds. -/
theorem flaky_recorder (flaky : Flaky view) :
    Flaky fun recorder : Recorder σ => view recorder.inner where
  getStorage cell recorder := by
    obtain ⟨after, same, answer⟩ := flaky.getStorage cell recorder.inner
    obtain ⟨done, passed | ⟨cause, struck⟩⟩ :=
      eval_attempt (.getStorage cell) (Ledger.getStorage cell) recorder
    · refine ⟨{ recorder.record (.getStorage cell) done with inner := after }, same, ?_⟩
      rcases answer with read | ⟨cause, failed⟩
      · rw [read] at passed
        exact .inl passed
      · rw [failed] at passed
        exact .inr ⟨cause, passed⟩
    · exact ⟨recorder.record (.getStorage cell) done, rfl, .inr ⟨cause, struck⟩⟩
  setStorage cell word recorder := by
    obtain ⟨done, passed | ⟨cause, struck⟩⟩ :=
      eval_attempt (.setStorage cell word) (Ledger.setStorage cell word) recorder
    · obtain ⟨after, answer⟩ := flaky.setStorage cell word recorder.inner
      refine ⟨{ recorder.record (.setStorage cell word) done with inner := after }, ?_⟩
      rcases answer with ⟨wrote, recorded⟩ | ⟨cause, failed, same⟩
      · rw [wrote] at passed
        exact .inl ⟨passed, recorded⟩
      · rw [failed] at passed
        exact .inr ⟨cause, passed, same⟩
    · exact ⟨recorder.record (.setStorage cell word) done, .inr ⟨cause, struck, rfl⟩⟩

/-! ## Recorders without faults -/

omit [Ledger σ] in
theorem lockstep_attempt (access : Access) (struck : LedgerM (Recorder σ) α) (step : LedgerM σ α) :
    Fallible.Lockstep Shadows (attempt access struck step) step := by
  rintro recorder _ ⟨faultless, rfl⟩
  rw [eval_attempt_of_faultless faultless]
  exact ⟨rfl, ⟨faultless, rfl⟩⟩

/-- A recorder without faults goes in lockstep with the ledger behind. -/
theorem inStep_shadows : Ledger.InStep (Shadows (σ := σ)) where
  getAccount _ := lockstep_attempt _ _ _
  setAccount _ _ := lockstep_attempt _ _ _
  getStorage _ := lockstep_attempt _ _ _
  setStorage _ _ := lockstep_attempt _ _ _

/-- A recorder without faults makes an access as the ledger behind does, and adds it to the record. -/
theorem eval_make {recorder : Recorder σ} (faultless : recorder.faults = []) (access : Access) :
    Fallible.eval access.make recorder =
      ((Fallible.eval access.make recorder.inner).1,
        { recorder.record access true with
          inner := (Fallible.eval access.make recorder.inner).2 }) := by
  cases access with
  | getAccount address =>
    rw [Access.eval_make_getAccount, Access.eval_make_getAccount]
    have answered := eval_attempt_of_faultless faultless (.getAccount address) (pure none)
      (Ledger.getAccount address)
    exact congrArg (fun outcome => (outcome.1.map fun _ => (), outcome.2)) answered
  | setAccount address account => exact eval_attempt_of_faultless faultless _ _ _
  | getStorage cell =>
    rw [Access.eval_make_getStorage, Access.eval_make_getStorage]
    have answered := eval_attempt_of_faultless faultless (.getStorage cell) (throw .notFound)
      (Ledger.getStorage cell)
    exact congrArg (fun outcome => (outcome.1.map fun _ => (), outcome.2)) answered
  | setStorage cell word => exact eval_attempt_of_faultless faultless _ _ _

variable {recorder after : Recorder σ} {accesses done : List Access} {failed : Access}
  {cause : StorageError}

/-- A recorder without faults shows the accesses that the ledger behind has carried out. -/
theorem shown_of_carriesOut (faultless : recorder.faults = [])
    (carried : CarriesOut recorder accesses after) :
    after.faults = [] ∧ CarriesOut recorder.inner accesses after.inner ∧
      after.accesses.map RecordedAccess.access =
        recorder.accesses.map RecordedAccess.access ++ accesses := by
  induction accesses generalizing recorder with
  | nil =>
    have same : ((.ok (), recorder) : Except StorageError Unit × Recorder σ) = (.ok (), after) :=
      carried
    cases same
    exact ⟨faultless, .nil _, (List.append_nil _).symm⟩
  | cons access accesses ih =>
    obtain ⟨next, here, rest⟩ := Ledger.carriesOut_cons_iff.1 carried
    rw [eval_make faultless] at here
    obtain ⟨made, moved⟩ := Prod.mk.inj here
    have faultless' : next.faults = [] := moved ▸ faultless
    have inner : (Fallible.eval access.make recorder.inner).2 = next.inner := moved ▸ rfl
    have shown : next.accesses.map RecordedAccess.access =
        recorder.accesses.map RecordedAccess.access ++ [access] := by
      rw [← moved]
      exact List.map_append
    obtain ⟨faultless'', carried', shown'⟩ := ih faultless' rest
    refine ⟨faultless'', .cons (Prod.ext made inner) carried', ?_⟩
    rw [shown', shown, List.append_assoc]
    rfl

/-- The access at which the ledger behind has failed is the last one shown. -/
theorem shown_of_failsAt (faultless : recorder.faults = [])
    (fails : FailsAt recorder done failed cause after) :
    FailsAt recorder.inner done failed cause after.inner ∧
      after.accesses.map RecordedAccess.access =
        recorder.accesses.map RecordedAccess.access ++ (done ++ [failed]) := by
  obtain ⟨before, carried, here⟩ := fails
  obtain ⟨faultless', carried', shown⟩ := shown_of_carriesOut faultless carried
  rw [eval_make faultless'] at here
  obtain ⟨made, moved⟩ := Prod.mk.inj here
  have inner : (Fallible.eval failed.make before.inner).2 = after.inner := moved ▸ rfl
  refine ⟨⟨before.inner, carried', Prod.ext made inner⟩, ?_⟩
  rw [← moved, ← List.append_assoc, ← shown]
  exact List.map_append

end Recorder

end ContractHost
