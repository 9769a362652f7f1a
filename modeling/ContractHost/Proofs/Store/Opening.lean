import Mathlib
import ContractHost.Proofs.Store.Accesses
import ContractHost.Proofs.Store.Prices

/-!
# How operations begin

Every operation of the store begins alike, on whatever ledger: it works out the head of its key, takes
a charge, and only then goes on to its accesses (`Operation.eval_run`). A key that is too short is
refused free of charge, a charge that fails drains the meter, and in neither case has the ledger been
asked for anything. Of most operations this charge is the only one (`Operation.isChargedOnce`), so
that no ledger makes them run out of gas which others do not (`charge_before_touch`).
-/

namespace ContractHost.Store

namespace Operation

/-- No charge comes after the first one: the operation writes, or it reads a single word. -/
def isChargedOnce : Operation → Bool
  | get _ => false
  | getBytes _ => false
  | contains _ => false
  | _ => true

variable {σ : Type} [Ledger σ] (costs : StorageCosts)

/-- What an operation does once its first charge is paid. -/
def body : (operation : Operation) → Cell → StoreM σ operation.Reply
  | put _ value, head => do
    let cleared := (← readChain head).length - (encode value).length
    writeWords head (encode value ++ List.replicate cleared .zero)
    return ⟨head.owner, (encode value).length, cleared⟩
  | get _, head => readChain head >>= deliver costs
  | getBytes _, head => do return (← readChain head >>= deliver costs).getD []
  | contains _, head => do return (← readChain head >>= deliver costs).isSome
  | delete _, head => do return ⟨head.owner, ← eraseLinks head (← reach) head⟩
  | set type _ value, head => onLedger (Ledger.setStorage head (type.toWord value))
  | load type _, head => do return type.ofWord (← onLedger (Ledger.getStorage head))
  | clear _, head => onLedger (Ledger.setStorage head .zero)

omit [Ledger σ] in
theorem eval_opening_map {α β : Type} (key : Bytes) (amount : Gas) (step : Cell → StoreM σ α)
    (f : α → β) (store : Store σ) :
    Fallible.eval (((liftM (parseKey key) : StoreM σ Cell) >>= fun head =>
        charge amount >>= fun _ => step head) >>= fun a => pure (f a)) store =
      if key.length ≤ 20 then (.error (.storageKeyTooShort key.length), store)
      else if store.meter.remaining < amount then drained store amount
      else Fallible.eval (step (headCell key) >>= fun a => pure (f a)) (paid store amount) := by
  rw [Fallible.eval_bind, eval_opening]
  split
  · rfl
  · split
    · rfl
    · rw [Fallible.eval_bind]

/-- Every operation, from its beginning. -/
theorem eval_run (operation : Operation) (store : Store σ) :
    Fallible.eval (operation.run costs) store =
      if operation.key.length ≤ 20 then
        (.error (.storageKeyTooShort operation.key.length), store)
      else if store.meter.remaining < operation.firstCharge costs then
        drained store (operation.firstCharge costs)
      else
        Fallible.eval (operation.body costs (headCell operation.key))
          (paid store (operation.firstCharge costs)) := by
  cases operation with
  | put key value => exact eval_opening store key _ _
  | get key => exact eval_opening store key _ _
  | getBytes key => exact eval_opening_map key _ _ _ store
  | contains key => exact eval_opening_map key _ _ _ store
  | delete key => exact eval_opening store key _ _
  | set type key value => exact eval_opening store key _ _
  | load type key => exact eval_opening_map key _ _ _ store
  | clear key => exact eval_opening store key _ _

variable {costs} {operation : Operation} {store : Store σ}

theorem eval_run_of_short (short : operation.key.length ≤ 20) :
    Fallible.eval (operation.run costs) store =
      (.error (.storageKeyTooShort operation.key.length), store) := by
  rw [eval_run, if_pos short]

theorem eval_run_of_unpaid (long : 20 < operation.key.length)
    (unpaid : store.meter.remaining < operation.firstCharge costs) :
    Fallible.eval (operation.run costs) store = drained store (operation.firstCharge costs) := by
  rw [eval_run, if_neg (Nat.not_le.2 long), if_pos unpaid]

theorem eval_run_of_paid (long : 20 < operation.key.length)
    (covered : operation.firstCharge costs ≤ store.meter.remaining) :
    Fallible.eval (operation.run costs) store =
      Fallible.eval (operation.body costs (headCell operation.key))
        (paid store (operation.firstCharge costs)) := by
  rw [eval_run, if_neg (Nat.not_le.2 long), if_neg (UInt64.not_lt.2 covered)]

variable (costs) in
/-- What comes after the only charge costs nothing. -/
theorem free_body (once : operation.isChargedOnce = true) (head : Cell) :
    Free (operation.body costs head : StoreM σ operation.Reply) := by
  cases operation with
  | put key value =>
    exact (Free.readChain head).bind fun links => (Free.writeWords head _).bind fun _ => .pure _
  | delete key => exact Free.reach.bind fun room => (Free.eraseLinks head room head).bind fun _ => .pure _
  | set type key value => exact .onLedger _
  | load type key => exact (Free.onLedger _).bind fun word => .pure _
  | clear key => exact .onLedger _
  | get key => cases once
  | getBytes key => cases once
  | contains key => cases once

theorem accesses_of_short (short : operation.key.length ≤ 20) :
    operation.accesses costs store = [] := by
  rw [accesses, eval_run_of_short short]
  rfl

theorem accesses_of_unpaid (long : 20 < operation.key.length)
    (unpaid : store.meter.remaining < operation.firstCharge costs) :
    operation.accesses costs store = [] := by
  have unpaid' : (⟨Recorder.blank store.ledger, store.meter⟩ : Store (Recorder σ)).meter.remaining <
      operation.firstCharge costs := unpaid
  rw [accesses, eval_run_of_unpaid long unpaid']
  rfl

variable (costs) in
/-- An operation that is charged once takes that charge and no more, whatever the ledger answers. -/
theorem eval_run_of_chargedOnce (once : operation.isChargedOnce = true)
    (long : 20 < operation.key.length) (ledger : σ) :
    ∃ (reply : Except RuntimeError operation.Reply) (after : σ), isShort reply = false ∧
      ∀ meter : Meter, operation.firstCharge costs ≤ meter.remaining →
        Fallible.eval (operation.run costs) ⟨ledger, meter⟩ =
          (reply, ⟨after, ⟨meter.remaining - operation.firstCharge costs⟩⟩) := by
  obtain ⟨reply, after, fair, runs⟩ :=
    costs_zero_iff.1 (free_body costs once (headCell operation.key) ledger)
  refine ⟨reply, after, fair, fun meter covered => ?_⟩
  rw [eval_run_of_paid long covered]
  exact runs ⟨meter.remaining - operation.firstCharge costs⟩

/-- What is decided about an operation before its ledger is asked for anything. -/
structure ChargesFirst (costs : StorageCosts) (operation : Operation) (store : Store σ) : Prop where
  short : operation.key.length ≤ 20 →
    Fallible.eval (operation.run costs) store =
        (.error (.storageKeyTooShort operation.key.length), store) ∧
      operation.accesses costs store = []
  unpaid : 20 < operation.key.length →
    store.meter.remaining < operation.firstCharge costs →
    Fallible.eval (operation.run costs) store =
        (.error (.insufficientGas (operation.firstCharge costs) store.meter.remaining),
          ⟨store.ledger, ⟨0⟩⟩) ∧
      operation.accesses costs store = []
  /-- Nothing more is charged, whatever the ledger replies. -/
  paid : operation.isChargedOnce = true → 20 < operation.key.length →
    operation.firstCharge costs ≤ store.meter.remaining →
    isShort (Fallible.eval (operation.run costs) store).1 = false ∧
      (Fallible.eval (operation.run costs) store).2.meter =
        ⟨store.meter.remaining - operation.firstCharge costs⟩

theorem chargesFirst (costs : StorageCosts) (operation : Operation) (store : Store σ) :
    operation.ChargesFirst costs store where
  short refused := ⟨eval_run_of_short refused, accesses_of_short refused⟩
  unpaid long less := ⟨eval_run_of_unpaid long less, accesses_of_unpaid long less⟩
  paid once long covered := by
    obtain ⟨reply, after, fair, runs⟩ := eval_run_of_chargedOnce costs once long store.ledger
    have paid := runs store.meter covered
    rw [paid]
    exact ⟨fair, rfl⟩

end Operation

/-- An operation that a key or a charge stops has asked its ledger for nothing. Whether it is stopped
so, and what it is charged, is the same on any two ledgers, unless it pays for what it has read. -/
theorem charge_before_touch {σ τ : Type} [Ledger σ] [Ledger τ] (costs : StorageCosts)
    (operation : Operation) (ledger : σ) (ledger' : τ) (meter : Meter) :
    operation.ChargesFirst costs (⟨ledger, meter⟩ : Store σ) ∧
      (operation.isChargedOnce = true →
        let outcome := Fallible.eval (operation.run costs) (⟨ledger, meter⟩ : Store σ)
        let outcome' := Fallible.eval (operation.run costs) (⟨ledger', meter⟩ : Store τ)
        isShort outcome'.1 = isShort outcome.1 ∧ outcome'.2.meter = outcome.2.meter) := by
  have here := operation.chargesFirst costs (⟨ledger, meter⟩ : Store σ)
  have there := operation.chargesFirst costs (⟨ledger', meter⟩ : Store τ)
  refine ⟨here, fun once => ?_⟩
  dsimp only
  rcases Nat.lt_or_ge 20 operation.key.length with long | short
  · by_cases unpaid : meter.remaining < operation.firstCharge costs
    · rw [(here.unpaid long unpaid).1, (there.unpaid long unpaid).1]
      exact ⟨rfl, rfl⟩
    · have covered := UInt64.not_lt.1 unpaid
      obtain ⟨fair, taken⟩ := here.paid once long covered
      obtain ⟨fair', taken'⟩ := there.paid once long covered
      exact ⟨fair'.trans fair.symm, taken'.trans taken.symm⟩
  · rw [(here.short short).1, (there.short short).1]
    exact ⟨rfl, rfl⟩

/-- A ledger whose first read fails. -/
def unreadable : Recorder ChangeSet := ⟨.empty, [⟨.getStorage, 1, some .notFound⟩], []⟩

/-- A value of 40 bytes costs 3200. With a unit less the ledger is left alone, and with enough the
charge is taken even where the ledger fails. -/
theorem charge_before_touch_unreadable :
    let put := Operation.put (joinKey .zero [[0x61]]) (List.replicate 40 0x2a)
    Fallible.eval (put.run .standard) (⟨unreadable, ⟨3199⟩⟩ : Store (Recorder ChangeSet)) =
        (.error (.insufficientGas 3200 3199), ⟨unreadable, ⟨0⟩⟩) ∧
      put.accesses .standard (⟨unreadable, ⟨3199⟩⟩ : Store (Recorder ChangeSet)) = [] ∧
      (Fallible.eval (put.run .standard) (⟨unreadable, ⟨5000⟩⟩ : Store (Recorder ChangeSet))).2.meter =
        ⟨1800⟩ ∧
      (Fallible.eval (put.run .standard) (⟨.empty, ⟨5000⟩⟩ : Store ChangeSet)).2.meter = ⟨1800⟩ := by
  intro put
  have long : 20 < put.key.length := by decide
  have price : put.firstCharge .standard = 3200 := by decide
  obtain ⟨poor, -⟩ := charge_before_touch .standard put unreadable ChangeSet.empty ⟨3199⟩
  obtain ⟨rich, alike⟩ := charge_before_touch .standard put unreadable ChangeSet.empty ⟨5000⟩
  obtain ⟨refused, untouched⟩ := poor.unpaid long (by rw [price]; decide)
  obtain ⟨-, left⟩ := rich.paid rfl long (by rw [price]; decide)
  rw [price] at refused left
  exact ⟨refused, untouched, left, (alike rfl).2.trans left⟩

end ContractHost.Store
