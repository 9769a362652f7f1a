import Mathlib
import ContractHost.Proofs.Store.Outcomes

/-!
# What store operations cost

An operation on the store, over any ledger, either runs out of gas or costs a price that the ledger
decides and the meter does not: with any meter that covers the price it makes the same reply, leaves
the same ledger and takes the same amount (`Costs`). `Operation.settles` says this of all
operations, with the price of each (`Operation.price`).
-/

namespace ContractHost

namespace Store

variable {σ α β : Type}

/-- From a ledger a step costs a price, whatever the meter that covers it. -/
def Costs (step : StoreM σ α) (ledger : σ) (price : Gas) : Prop :=
  ∃ (reply : Except RuntimeError α) (after : σ), isShort reply = false ∧
    ∀ meter : Meter, price ≤ meter.remaining →
      Fallible.eval step ⟨ledger, meter⟩ = (reply, ⟨after, ⟨meter.remaining - price⟩⟩)

/-- A step costs nothing. -/
def Free (step : StoreM σ α) : Prop := ∀ ledger, Costs step ledger 0

/-- A step runs out of gas. -/
def Starves (step : StoreM σ α) (store : Store σ) : Prop :=
  ∃ required available after,
    Fallible.eval step store = (.error (.insufficientGas required available), ⟨after, ⟨0⟩⟩)

/-- A step runs out of gas, or is paid for at a price that the meter covers. -/
def Settles (step : StoreM σ α) (store : Store σ) (price : Gas) : Prop :=
  Starves step store ∨ (Costs step store.ledger price ∧ price ≤ store.meter.remaining)

/-! ## Steps that cost nothing -/

/-- What is paid at no price is the same with every meter, which it leaves alone. -/
theorem costs_zero_iff {step : StoreM σ α} {ledger : σ} :
    Costs step ledger 0 ↔ ∃ (reply : Except RuntimeError α) (after : σ), isShort reply = false ∧
      ∀ meter : Meter, Fallible.eval step ⟨ledger, meter⟩ = (reply, ⟨after, meter⟩) := by
  constructor
  · rintro ⟨reply, after, fair, runs⟩
    refine ⟨reply, after, fair, ?_⟩
    intro meter
    rw [runs meter UInt64.zero_le, Gas.sub_zero]
  · rintro ⟨reply, after, fair, runs⟩
    refine ⟨reply, after, fair, ?_⟩
    intro meter _
    rw [runs meter, Gas.sub_zero]

namespace Free

theorem pure (a : α) : Free (Pure.pure a : StoreM σ α) := fun ledger =>
  costs_zero_iff.2 ⟨.ok a, ledger, rfl, fun _ => rfl⟩

theorem throw {cause : RuntimeError} (fair : cause.isShort = false) :
    Free (MonadExcept.throw cause : StoreM σ α) := fun ledger =>
  costs_zero_iff.2 ⟨.error cause, ledger, fair, fun _ => rfl⟩

theorem liftM {result : Except RuntimeError α} (fair : isShort result = false) :
    Free (MonadLiftT.monadLift result : StoreM σ α) := fun ledger =>
  costs_zero_iff.2 ⟨result, ledger, fair, fun _ => rfl⟩

/-- The ledger never sees the meter, and its failures are its own. -/
theorem onLedger (step : LedgerM σ α) : Free (Store.onLedger step) := fun ledger => by
  refine costs_zero_iff.2 ⟨(Fallible.eval step.toRuntime ledger).1,
    (Fallible.eval step.toRuntime ledger).2, ?_, fun _ => rfl⟩
  rw [LedgerM.eval_toRuntime]
  rcases Fallible.eval step ledger with ⟨cause | a, after⟩
  · rfl
  · rfl

theorem bind {step : StoreM σ α} {f : α → StoreM σ β} (first : Free step)
    (rest : ∀ a, Free (f a)) : Free (step >>= f) := by
  intro ledger
  obtain ⟨reply, after, fair, runs⟩ := costs_zero_iff.1 (first ledger)
  rcases reply with cause | a
  · refine costs_zero_iff.2 ⟨.error cause, after, fair, ?_⟩
    intro meter
    rw [Fallible.eval_bind, runs meter]
    rfl
  · obtain ⟨reply, last, fair, later⟩ := costs_zero_iff.1 (rest a after)
    refine costs_zero_iff.2 ⟨reply, last, fair, ?_⟩
    intro meter
    rw [Fallible.eval_bind, runs meter, Fallible.proceed_ok, later meter]

variable [Ledger σ]

theorem reach : Free (Store.reach : StoreM σ Nat) := fun ledger =>
  costs_zero_iff.2 ⟨.ok (Ledger.slotBound ledger + 1), ledger, rfl, fun _ => rfl⟩

theorem readLinks (head : Cell) (room : Nat) (cell : Cell) :
    Free (Store.readLinks head room cell : StoreM σ (List Link)) := by
  induction room generalizing cell with
  | zero => exact throw rfl
  | succ room ih =>
    rw [Store.readLinks]
    apply (onLedger _).bind
    intro word
    split
    · exact (ih _).bind fun links => pure _
    · exact pure _

theorem readChain (head : Cell) : Free (Store.readChain head : StoreM σ (List Link)) := by
  rw [Store.readChain]
  refine reach.bind fun room => (readLinks head room head).bind fun links => ?_
  split
  · exact pure _
  · exact pure _

theorem writeWords (head : Cell) (words : List Word) :
    Free (Store.writeWords head words : StoreM σ Unit) := by
  induction words generalizing head with
  | nil => exact pure ()
  | cons word words ih => exact (onLedger _).bind fun _ => ih _

theorem eraseLinks (head : Cell) (room : Nat) (cell : Cell) :
    Free (Store.eraseLinks head room cell : StoreM σ Nat) := by
  induction room generalizing cell with
  | zero => exact throw rfl
  | succ room ih =>
    rw [Store.eraseLinks]
    refine (onLedger _).bind fun word => (onLedger _).bind fun _ => ?_
    split
    · exact (ih _).bind fun count => pure _
    · exact pure _

end Free

/-! ## Steps that are charged for -/

/-- A charge ahead of a step that costs nothing is the price of both. -/
theorem Settles.charge {rest : Unit → StoreM σ α} (amount : Gas) (store : Store σ)
    (free : Free (rest ())) : Settles (charge amount >>= rest) store amount := by
  by_cases short : store.meter.remaining < amount
  · refine .inl ⟨amount, store.meter.remaining, store.ledger, ?_⟩
    rw [eval_charge_bind, if_pos short]
    rfl
  · obtain ⟨reply, after, fair, runs⟩ := costs_zero_iff.1 (free store.ledger)
    refine .inr ⟨⟨reply, after, fair, fun meter covered => ?_⟩, UInt64.not_lt.1 short⟩
    rw [eval_charge_bind, if_neg (UInt64.not_lt.2 covered)]
    exact runs _

theorem Settles.map {step : StoreM σ α} {store : Store σ} {price : Gas}
    (settles : Settles step store price) (f : α → β) :
    Settles (step >>= fun a => pure (f a)) store price := by
  rcases settles with ⟨required, available, after, starved⟩ | ⟨⟨reply, after, fair, runs⟩, covered⟩
  · refine .inl ⟨required, available, after, ?_⟩
    rw [Fallible.eval_bind, starved]
    rfl
  · refine .inr ⟨⟨reply.map f, after, (isShort_map f reply).trans fair, fun meter enough => ?_⟩,
      covered⟩
    rw [Fallible.eval_bind, runs meter enough]
    rcases reply with cause | a
    · rfl
    · rfl

/-- Reading the key is free. -/
theorem Settles.parse {key : Bytes} (long : 20 < key.length) {f : Cell → StoreM σ α}
    {store : Store σ} {price : Gas} (settles : Settles (f (headCell key)) store price) :
    Settles ((liftM (parseKey key) : StoreM σ Cell) >>= f) store price := by
  rcases settles with ⟨required, available, after, starved⟩ | ⟨⟨reply, after, fair, runs⟩, covered⟩
  · refine .inl ⟨required, available, after, ?_⟩
    rw [eval_parse_bind store long, starved]
  · refine .inr ⟨⟨reply, after, fair, fun meter enough => ?_⟩, covered⟩
    rw [eval_parse_bind _ long, runs meter enough]

/-- A key that is too short is refused before anything is charged. -/
theorem Settles.refuse {key : Bytes} (short : key.length ≤ 20) {f : Cell → StoreM σ α}
    (store : Store σ) : Settles ((liftM (parseKey key) : StoreM σ Cell) >>= f) store 0 := by
  refine .inr ⟨⟨.error (.storageKeyTooShort key.length), store.ledger, rfl, fun meter _ => ?_⟩,
    UInt64.zero_le⟩
  rw [Fallible.eval_bind, Fallible.eval_liftM, parseKey_of_le short, Gas.sub_zero]
  rfl

/-! ## The price of each operation -/

variable [Ledger σ] (costs : StorageCosts)

/-- What a `get` costs: the flat amount, and the bytes of the value that it finds. -/
def readPrice (store : Store σ) (key : Bytes) : Gas :=
  match (Fallible.eval (get costs key) store).1 with
  | .ok (some value) => costs.read value.length
  | _ => costs.readFlat

/-- What an operation costs. -/
def Operation.price (store : Store σ) (operation : Operation) : Gas :=
  if operation.key.length ≤ 20 then 0
  else
    match operation with
    | put _ value => costs.write value.length
    | get key => readPrice costs store key
    | getBytes key => readPrice costs store key
    | contains key => readPrice costs store key
    | delete _ => costs.delete
    | set _ _ _ => costs.write 32
    | load _ _ => costs.read 32
    | clear _ => costs.delete

/-- A read cost that a meter covers is the sum of its two charges. -/
theorem toNat_read {length : Nat} {gas : Gas} (flat : costs.readFlat ≤ gas)
    (bytes : costs.readBytes length ≤ gas - costs.readFlat) :
    (costs.read length).toNat = costs.readFlat.toNat + (costs.readBytes length).toNat := by
  have bound := gas.toNat_lt
  have largest := Gas.toNat_largest
  rw [UInt64.le_iff_toNat_le] at bytes
  rw [Gas.toNat_sub flat] at bytes
  rw [UInt64.le_iff_toNat_le] at flat
  rw [StorageCosts.read, Gas.toNat_addClamped]
  omega

theorem readBytes_zero : costs.readBytes 0 = 0 := by
  rw [StorageCosts.readBytes, ← UInt64.toNat_inj, Gas.toNat_mulClamped, Gas.toNat_ofNatClamped]
  simp

theorem isShort_valueOf (links : List Link) : isShort (valueOf links) = false := by
  rw [valueOf]
  split
  · rfl
  · rfl
  · rfl

/-- An amount that is charged in two parts. -/
theorem sub_of_parts {first second total gas : Gas}
    (sum : total.toNat = first.toNat + second.toNat) (enough : total ≤ gas) :
    first ≤ gas ∧ second ≤ gas - first ∧ gas - first - second = gas - total := by
  have bound : total.toNat ≤ gas.toNat := UInt64.le_iff_toNat_le.1 enough
  have early : first ≤ gas := by
    rw [UInt64.le_iff_toNat_le]
    omega
  have late : second ≤ gas - first := by
    rw [UInt64.le_iff_toNat_le, Gas.toNat_sub early]
    omega
  refine ⟨early, late, ?_⟩
  rw [← UInt64.toNat_inj, Gas.toNat_sub late, Gas.toNat_sub early, Gas.toNat_sub enough]
  omega

/-- Past the flat charge a `get` fails or finds a value, the same with every meter. -/
theorem get_cases {key : Bytes} (long : 20 < key.length) (ledger : σ) :
    (∃ cause after, cause.isShort = false ∧
      ∀ meter : Meter, costs.readFlat ≤ meter.remaining →
        Fallible.eval (get costs key) ⟨ledger, meter⟩ =
          (.error cause, ⟨after, ⟨meter.remaining - costs.readFlat⟩⟩)) ∨
      ∃ (value : Bytes) (after : σ),
        ∀ meter : Meter, costs.readFlat ≤ meter.remaining →
          Fallible.eval (get costs key) ⟨ledger, meter⟩ =
            if meter.remaining - costs.readFlat < costs.readBytes value.length then
              drained ⟨after, ⟨meter.remaining - costs.readFlat⟩⟩ (costs.readBytes value.length)
            else
              (.ok (if value.isEmpty then none else some value),
                ⟨after, ⟨meter.remaining - costs.readFlat - costs.readBytes value.length⟩⟩) := by
  obtain ⟨reply, after, fair, runs⟩ := costs_zero_iff.1 (Free.readChain (headCell key) ledger)
  have flat (meter : Meter) (enough : costs.readFlat ≤ meter.remaining) :
      Fallible.eval (get costs key) ⟨ledger, meter⟩ =
        Fallible.proceed (deliver costs)
          (reply, ⟨after, ⟨meter.remaining - costs.readFlat⟩⟩) := by
    rw [eval_get _ costs long, if_neg (UInt64.not_lt.2 enough), paid, runs]
  rcases reply with cause | links
  · exact .inl ⟨cause, after, fair, flat⟩
  have fair := isShort_valueOf links
  rcases found : valueOf links with cause | value
  · rw [found] at fair
    refine .inl ⟨cause, after, fair, ?_⟩
    intro meter enough
    rw [flat meter enough, Fallible.proceed_ok, eval_deliver, found]
  · refine .inr ⟨value, after, ?_⟩
    intro meter enough
    rw [flat meter enough, Fallible.proceed_ok, eval_deliver, found]
    rfl

theorem settles_get {key : Bytes} (long : 20 < key.length) (store : Store σ) :
    Settles (get costs key) store (readPrice costs store key) := by
  by_cases short : store.meter.remaining < costs.readFlat
  · refine .inl ⟨costs.readFlat, store.meter.remaining, store.ledger, ?_⟩
    rw [eval_get store costs long, if_pos short]
    rfl
  have covered := UInt64.not_lt.1 short
  rcases get_cases costs long store.ledger with ⟨cause, after, fair, stops⟩ | ⟨value, after, finds⟩
  · have price : readPrice costs store key = costs.readFlat := by
      rw [readPrice, stops store.meter covered]
    rw [price]
    exact .inr ⟨⟨.error cause, after, fair, stops⟩, covered⟩
  by_cases short' : store.meter.remaining - costs.readFlat < costs.readBytes value.length
  · refine .inl ⟨costs.readBytes value.length, store.meter.remaining - costs.readFlat, after, ?_⟩
    rw [finds store.meter covered, if_pos short']
    rfl
  have covered' := UInt64.not_lt.1 short'
  have sum : (readPrice costs store key).toNat =
      costs.readFlat.toNat + (costs.readBytes value.length).toNat := by
    rw [readPrice, finds store.meter covered, if_neg short']
    cases value with
    | nil =>
      rw [List.length_nil, readBytes_zero]
      rfl
    | cons byte rest => exact toNat_read costs covered covered'
  refine .inr ⟨⟨.ok (if value.isEmpty then none else some value), after, rfl,
    fun meter enough => ?_⟩, ?_⟩
  · obtain ⟨first, second, both⟩ := sub_of_parts sum enough
    rw [finds meter first, if_neg (UInt64.not_lt.2 second), both]
  · rw [UInt64.le_iff_toNat_le, Gas.toNat_sub covered] at covered'
    rw [UInt64.le_iff_toNat_le] at covered ⊢
    omega

/-- Every operation runs out of gas or costs its price. -/
theorem Operation.settles (operation : Operation) (store : Store σ) :
    Settles (operation.run costs) store (operation.price costs store) := by
  unfold Operation.price
  split
  case isTrue short =>
    cases operation with
    | put key value => exact .refuse short store
    | get key => exact .refuse short store
    | getBytes key => exact (Settles.refuse short store).map _
    | contains key => exact (Settles.refuse short store).map _
    | delete key => exact .refuse short store
    | set type key value => exact .refuse short store
    | load type key => exact (Settles.refuse short store).map _
    | clear key => exact .refuse short store
  case isFalse long =>
    have long := Nat.not_le.1 long
    cases operation with
    | put key value =>
      refine .parse long (.charge _ store ?_)
      exact (Free.readChain _).bind fun links => (Free.writeWords _ _).bind fun _ => .pure _
    | get key => exact settles_get costs long store
    | getBytes key => exact (settles_get costs long store).map _
    | contains key => exact (settles_get costs long store).map _
    | delete key =>
      refine .parse long (.charge _ store ?_)
      exact Free.reach.bind fun room => (Free.eraseLinks _ _ _).bind fun _ => .pure _
    | set type key value => exact .parse long (.charge _ store (.onLedger _))
    | load type key => exact (Settles.parse long (.charge _ store (.onLedger _))).map _
    | clear key => exact .parse long (.charge _ store (.onLedger _))

end Store

end ContractHost
