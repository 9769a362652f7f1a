import Mathlib
import ContractHost.Proofs.Store.Prices

/-!
# What store operations need

A price tells what an operation costs that is paid for. What an operation asks of the meter is
known ahead, from the ledger alone (`Operation.need`): with a meter that holds less it runs out of
gas, and from any other it takes just that much (`Operation.needs`), which is then its price
(`Operation.costs_of_le`). Of a `get` this is the sum of its two charges, which may be more than fits
into a meter.
-/

namespace ContractHost.Store

variable {σ α β : Type}

/-- With a meter that holds less than the amount a step runs out of gas, and from any other meter it
takes the amount. -/
structure Needs (step : StoreM σ α) (ledger : σ) (amount : Nat) : Prop where
  short : ∀ meter : Meter, meter.remaining.toNat < amount →
    isShort (Fallible.eval step ⟨ledger, meter⟩).1 = true
  paid : ∀ meter : Meter, amount ≤ meter.remaining.toNat →
    isShort (Fallible.eval step ⟨ledger, meter⟩).1 = false ∧
      (Fallible.eval step ⟨ledger, meter⟩).2.meter.remaining.toNat + amount =
        meter.remaining.toNat

namespace Needs

variable {ledger after : σ} {amount : Nat}

theorem of_costs_zero {step : StoreM σ α} (free : Costs step ledger 0) : Needs step ledger 0 := by
  obtain ⟨reply, after, fair, runs⟩ := costs_zero_iff.1 free
  constructor
  · intro meter less
    exact absurd less (Nat.not_lt_zero _)
  · intro meter _
    rw [runs meter]
    exact ⟨fair, Nat.add_zero _⟩

/-- A step that goes on as another one does from another ledger. -/
theorem congr {step step' : StoreM σ α} (needs : Needs step after amount)
    (same : ∀ meter, Fallible.eval step' ⟨ledger, meter⟩ = Fallible.eval step ⟨after, meter⟩) :
    Needs step' ledger amount := by
  constructor
  · intro meter
    rw [same]
    exact needs.short meter
  · intro meter
    rw [same]
    exact needs.paid meter

/-- A charge adds to what is needed after it. -/
theorem charge {f : Unit → StoreM σ α} (cost : Gas) (needs : Needs (f ()) ledger amount) :
    Needs (Store.charge cost >>= f) ledger (cost.toNat + amount) := by
  constructor
  · intro meter less
    rw [eval_charge_bind]
    by_cases covered : cost ≤ meter.remaining
    · rw [if_neg (UInt64.not_lt.2 covered)]
      refine needs.short ⟨meter.remaining - cost⟩ ?_
      rw [Gas.toNat_sub covered]
      rw [UInt64.le_iff_toNat_le] at covered
      omega
    · rw [if_pos (UInt64.not_le.1 covered)]
      rfl
  · intro meter enough
    have covered : cost ≤ meter.remaining := by
      rw [UInt64.le_iff_toNat_le]
      omega
    have left : (meter.remaining - cost).toNat = meter.remaining.toNat - cost.toNat :=
      Gas.toNat_sub covered
    obtain ⟨fair, taken⟩ := needs.paid ⟨meter.remaining - cost⟩ (by rw [left]; omega)
    rw [eval_charge_bind, if_neg (UInt64.not_lt.2 covered)]
    refine ⟨fair, ?_⟩
    rw [left] at taken
    calc
      _ = (Fallible.eval (f ()) ⟨ledger, ⟨meter.remaining - cost⟩⟩).2.meter.remaining.toNat +
          amount + cost.toNat := by
        rw [Store.paid, Nat.add_assoc, Nat.add_comm cost.toNat]
      _ = meter.remaining.toNat := by omega

/-- A step that costs nothing adds nothing. -/
theorem bind {step : StoreM σ α} {f : α → StoreM σ β} {a : α}
    (runs : ∀ meter, Fallible.eval step ⟨ledger, meter⟩ = (.ok a, ⟨after, meter⟩))
    (needs : Needs (f a) after amount) : Needs (step >>= f) ledger amount := by
  apply needs.congr
  intro meter
  rw [Fallible.eval_bind, runs, Fallible.proceed_ok]

/-- A step that costs nothing and fails is the last one. -/
theorem bind_error {step : StoreM σ α} {f : α → StoreM σ β} {cause : RuntimeError}
    (fair : cause.isShort = false)
    (runs : ∀ meter, Fallible.eval step ⟨ledger, meter⟩ = (.error cause, ⟨after, meter⟩)) :
    Needs (step >>= f) ledger 0 := by
  refine of_costs_zero (costs_zero_iff.2 ⟨.error cause, after, fair, fun meter => ?_⟩)
  rw [Fallible.eval_bind, runs]
  rfl

theorem map {step : StoreM σ α} (needs : Needs step ledger amount) (f : α → β) :
    Needs (step >>= fun a => pure (f a)) ledger amount := by
  have short (meter : Meter) :
      isShort (Fallible.eval (step >>= fun a => pure (f a)) ⟨ledger, meter⟩).1 =
        isShort (Fallible.eval step ⟨ledger, meter⟩).1 := by
    rw [Fallible.eval_bind]
    rcases Fallible.eval step ⟨ledger, meter⟩ with ⟨cause | a, store⟩
    · rfl
    · rfl
  constructor
  · intro meter less
    rw [short]
    exact needs.short meter less
  · intro meter enough
    rw [short, Fallible.eval_bind, Fallible.snd_proceed_pure]
    exact needs.paid meter enough

theorem parse {key : Bytes} (long : 20 < key.length) {f : Cell → StoreM σ α}
    (needs : Needs (f (headCell key)) ledger amount) :
    Needs ((liftM (parseKey key) : StoreM σ Cell) >>= f) ledger amount :=
  needs.congr fun meter => eval_parse_bind ⟨ledger, meter⟩ long f

theorem refuse {key : Bytes} (short : key.length ≤ 20) {f : Cell → StoreM σ α} :
    Needs ((liftM (parseKey key) : StoreM σ Cell) >>= f) ledger 0 := by
  have refused (meter : Meter) :
      Fallible.eval (liftM (parseKey key) : StoreM σ Cell) ⟨ledger, meter⟩ =
        (.error (.storageKeyTooShort key.length), ⟨ledger, meter⟩) := by
    rw [Fallible.eval_liftM, parseKey_of_le short]
  exact bind_error rfl refused

end Needs

/-! ## The need of each operation -/

variable [Ledger σ] (costs : StorageCosts)

/-- The value that a `get` reads, unless it fails before it has it. -/
def valueRead? (ledger : σ) (key : Bytes) : Option Bytes :=
  match (Fallible.eval (readChain (headCell key)) ⟨ledger, .unlimited⟩).1 with
  | .ok links => (valueOf links).toOption
  | .error _ => none

/-- What a `get` needs: the flat amount, and an amount for the bytes of the value that it reads. -/
def readNeed (ledger : σ) (key : Bytes) : Nat :=
  costs.readFlat.toNat +
    (valueRead? ledger key).elim 0 fun value => (costs.readBytes value.length).toNat

/-- What an operation needs. -/
def Operation.need (ledger : σ) (operation : Operation) : Nat :=
  if operation.key.length ≤ 20 then 0
  else
    match operation with
    | put _ value => (costs.write value.length).toNat
    | get key => readNeed costs ledger key
    | getBytes key => readNeed costs ledger key
    | contains key => readNeed costs ledger key
    | delete _ => costs.delete.toNat
    | set _ _ _ => (costs.write 32).toNat
    | load _ _ => (costs.read 32).toNat
    | clear _ => costs.delete.toNat

theorem needs_get {key : Bytes} (long : 20 < key.length) (ledger : σ) :
    Needs (get costs key) ledger (readNeed costs ledger key) := by
  obtain ⟨reply, after, fair, runs⟩ := costs_zero_iff.1 (Free.readChain (headCell key) ledger)
  refine .parse long (.charge costs.readFlat ?_)
  rcases reply with cause | links
  · have nothing : valueRead? ledger key = none := by rw [valueRead?, runs]
    rw [nothing]
    exact .bind_error fair runs
  have fair := isShort_valueOf links
  refine .bind runs ?_
  cases found : valueOf links with
  | error cause =>
    have nothing : valueRead? ledger key = none := by simp [valueRead?, runs, found, Except.toOption]
    rw [found] at fair
    rw [nothing]
    exact .bind_error fair fun _ => Fallible.eval_liftM _ _
  | ok value =>
    have read : valueRead? ledger key = some value := by
      simp [valueRead?, runs, found, Except.toOption]
    rw [read]
    have returned : Needs (pure (if value.isEmpty then none else some value) :
        StoreM σ (Option Bytes)) after 0 := .of_costs_zero (Free.pure _ after)
    have charged := Needs.charge (f := fun _ => pure _) (costs.readBytes value.length) returned
    exact .bind (fun _ => Fallible.eval_liftM _ _) charged

/-- What the ledger says that an operation needs decides whether it runs out of gas. -/
theorem Operation.needs (operation : Operation) (ledger : σ) :
    Needs (operation.run costs) ledger (operation.need costs ledger) := by
  have paid {cost : Gas} {rest : Unit → StoreM σ operation.Reply} (free : Free (rest ())) :
      Needs (Store.charge cost >>= rest) ledger cost.toNat :=
    .charge cost (.of_costs_zero (free ledger))
  unfold Operation.need
  split
  case isTrue short =>
    cases operation with
    | put key value => exact .refuse short
    | get key => exact .refuse short
    | getBytes key => exact (Needs.refuse short).map _
    | contains key => exact (Needs.refuse short).map _
    | delete key => exact .refuse short
    | set type key value => exact .refuse short
    | load type key => exact (Needs.refuse short).map _
    | clear key => exact .refuse short
  case isFalse long =>
    have long := Nat.not_le.1 long
    cases operation with
    | put key value =>
      refine .parse long (paid ?_)
      exact (Free.readChain _).bind fun links => (Free.writeWords _ _).bind fun _ => .pure _
    | get key => exact needs_get costs long ledger
    | getBytes key => exact (needs_get costs long ledger).map _
    | contains key => exact (needs_get costs long ledger).map _
    | delete key =>
      refine .parse long (paid ?_)
      exact Free.reach.bind fun room => (Free.eraseLinks _ _ _).bind fun _ => .pure _
    | set type key value => exact .parse long (paid (.onLedger _))
    | load type key =>
      exact (Needs.parse long (.charge _ (.of_costs_zero (Free.onLedger _ ledger)))).map _
    | clear key => exact .parse long (paid (.onLedger _))

variable (operation : Operation) (store : Store σ)

/-- An operation that needs more than is left runs out of gas. -/
theorem Operation.starves_of_lt
    (less : store.meter.remaining.toNat < operation.need costs store.ledger) :
    Starves (operation.run costs) store := by
  have short := (operation.needs costs store.ledger).short store.meter less
  rcases operation.settles costs store with starved | ⟨⟨reply, after, fair, runs⟩, covered⟩
  · exact starved
  · rw [runs store.meter covered, fair] at short
    cases short

/-- An operation that needs no more than is left costs what it needs. -/
theorem Operation.costs_of_le
    (enough : operation.need costs store.ledger ≤ store.meter.remaining.toNat) :
    Costs (operation.run costs) store.ledger (operation.price costs store) ∧
      (operation.price costs store).toNat = operation.need costs store.ledger := by
  obtain ⟨fair, taken⟩ := (operation.needs costs store.ledger).paid store.meter enough
  rcases operation.settles costs store with
    ⟨required, available, after, starved⟩ | ⟨⟨reply, after, fair', runs⟩, covered⟩
  · have starved : Fallible.eval (operation.run costs) ⟨store.ledger, store.meter⟩ = _ := starved
    rw [starved] at fair
    cases fair
  · refine ⟨⟨reply, after, fair', runs⟩, ?_⟩
    rw [runs store.meter covered, Gas.toNat_sub covered] at taken
    rw [UInt64.le_iff_toNat_le] at covered
    omega

end ContractHost.Store
