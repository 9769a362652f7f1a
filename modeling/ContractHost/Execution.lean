import ContractHost.Ledger.Transfer
import ContractHost.Registry

/-!
# Executions

An `Execution` is everything that changes while the calls of one transaction run; an `Environment`
is what stays the same. `Environment.answer` says what each request of a program does to the
execution and what it replies, given how contracts are called.
-/

namespace ContractHost

/-- What stays the same during a transaction. -/
structure Environment (ω : Type) where
  registry : Registry ω
  transaction : Transaction
  bridge? : Option (Bridge ω)

/-- What changes during a transaction. -/
structure Execution (σ ω : Type) where
  ledger : σ
  outside : ω
  stack : CallStack
  meter : Meter
  value : UInt256
  recipient : Address
  events : List Event
  log : List LogEntry

/-- A step of an execution. -/
abbrev HostM (σ ω : Type) := StateM (Execution σ ω)

namespace Execution

variable {σ ω : Type}

/-- The start of a transaction, with a given meter. -/
def withMeter (environment : Environment ω) (meter : Meter) (ledger : σ) (outside : ω) :
    Execution σ ω where
  ledger
  outside
  stack := .empty environment.registry.config.maxCallDepth.toNat
  meter
  value := 0
  recipient := .zero
  events := []
  log := []

/-- The start of a transaction that may use its gas limit. -/
def start (environment : Environment ω) : σ → ω → Execution σ ω :=
  withMeter environment ⟨environment.transaction.gasLimit⟩

/-- The start of a transaction that is not metered. -/
def startSystem (environment : Environment ω) : σ → ω → Execution σ ω :=
  withMeter environment .unlimited

/-- Makes a step on the ledger. -/
def onLedger {α : Type} (step : RuntimeM σ α) : RuntimeM (Execution σ ω) α := fun x =>
  let (result, ledger) := step.run.run x.ledger
  (result, { x with ledger })

/-- Makes a step on the meter. -/
def onMeter {α : Type} (step : RuntimeM Meter α) : RuntimeM (Execution σ ω) α := fun x =>
  let (result, meter) := step.run.run x.meter
  (result, { x with meter })

/-- Makes a step on the ledger and the meter. -/
def onStore {α : Type} (step : StoreM σ α) : RuntimeM (Execution σ ω) α := fun x =>
  let (result, store) := step.run.run ⟨x.ledger, x.meter⟩
  (result, { x with ledger := store.ledger, meter := store.meter })

/-- Makes a step on the outside world. -/
def onOutside {α : Type} (step : StateM ω α) : HostM σ ω α := fun x =>
  let (result, outside) := step.run x.outside
  (result, { x with outside })

/-- Notes an entry in the log. -/
def note (x : Execution σ ω) (entry : LogEntry) : Execution σ ω :=
  { x with log := x.log ++ [entry] }

/-- Sets the value of the transaction, unless it is zero. -/
def setValue (value : UInt256) : HostM σ ω Unit :=
  modify fun x => if value = 0 then x else { x with value }

/-- Sets the recipient of the transaction, unless it is zero. -/
def setRecipient (recipient : Address) : HostM σ ω Unit :=
  modify fun x => if recipient.isZero then x else { x with recipient }

/-- Takes the announced events away. -/
def takeEvents : HostM σ ω (List Event) := fun x => (x.events, { x with events := [] })

end Execution

/-- What is noted about a store operation that succeeded. -/
def Store.Operation.noted? : (operation : Store.Operation) → operation.Reply → Option LogEntry
  | put _ value, receipt =>
    some (.valueStored value.length receipt.written receipt.owner receipt.cleared)
  | delete _, receipt => some (.valueDeleted receipt.cleared receipt.owner)
  | _, _ => none

namespace Environment

variable {σ ω : Type} [Ledger σ]

/-- Makes a store operation and notes it. -/
def runStore (environment : Environment ω) (operation : Store.Operation) :
    RuntimeM (Execution σ ω) operation.Reply := do
  let reply ← Execution.onStore (operation.run environment.registry.config.storage)
  if let some entry := operation.noted? reply then
    modify (·.note entry)
  return reply

/-- Moves funds and notes it. -/
def transfer (sender recipient : Address) (amount : Balance) : RuntimeM (Execution σ ω) Bool := do
  let moved ← Execution.onLedger (Ledger.transfer sender recipient amount)
  if moved then
    modify (·.note (.fundsMoved amount sender recipient))
  return moved

/-- Announces an event at the height of the transaction. -/
def emit (environment : Environment ω) (address : Address) (topics : List Word) (data : Bytes) :
    RuntimeM (Execution σ ω) Unit := do
  let event ← Event.make address environment.transaction.height topics data
  modify fun x => { x with events := x.events ++ [event] }

/-- Calls the virtual machine with no more gas than there is, charges what it used, and only then
looks at whether it failed. Without a bridge nothing happens. -/
def evmCall (environment : Environment ω) (call : EvmCall) :
    RuntimeM (Execution σ ω) EvmOutput := do
  let some bridge := environment.bridge? | return .empty
  let allowed := min call.gas (← get).meter.remaining
  let output ← (Execution.onOutside (bridge { call with gas := allowed }) : HostM σ ω EvmOutput)
  Execution.onMeter (Meter.charge output.gasUsed)
  modify (·.note (.evmCalled call.caller call.target output.gasUsed allowed))
  match output.error? with
  | some error => throw error
  | none => return output

/-- What a request does and what it is replied with, when contracts are called by `call`. -/
def answer (environment : Environment ω) (call : Frame → RuntimeM (Execution σ ω) Bytes) :
    (request : Request ω) → HostM σ ω request.Reply
  | .call frame => (call frame).run
  | .evm call => (environment.evmCall call).run
  | .store operation => (environment.runStore operation).run
  | .ledger operation => (Execution.onLedger operation.run.toRuntime).run
  | .transfer sender recipient amount => (transfer sender recipient amount).run
  | .emit address topics data => (environment.emit address topics data).run
  | .events => do return (← get).events
  | .takeEvents => Execution.takeEvents
  | .charge amount => (Execution.onMeter (Meter.charge amount)).run
  | .refund amount => modify fun x => { x with meter := x.meter.refund amount }
  | .gasLeft => do return (← get).meter.remaining
  | .setValue value => Execution.setValue value
  | .value => do return (← get).value
  | .setRecipient address => Execution.setRecipient address
  | .recipient => do return (← get).recipient
  | .transaction => return environment.transaction.info
  | .stack => do return (← get).stack
  | .config => return environment.registry.config
  | .isNative address => return environment.registry.contains address
  | .nativeCount => return environment.registry.size
  | .outside act => modify fun x => { x with outside := act x.outside }

/-- Runs a program, request by request, when contracts are called by `call`. -/
def runWith {α : Type} (environment : Environment ω)
    (call : Frame → RuntimeM (Execution σ ω) Bytes) : Program ω α → HostM σ ω α
  | .done result => return result
  | .ask request next => do
    let reply ← environment.answer call request
    runWith environment call (next reply)

theorem runWith_bind {α β : Type} (environment : Environment ω)
    (call : Frame → RuntimeM (Execution σ ω) Bytes) (program : Program ω α)
    (f : α → Program ω β) :
    environment.runWith call (program.bind f) =
      environment.runWith call program >>= fun a => environment.runWith call (f a) := by
  induction program with
  | done result => rfl
  | ask request next ih =>
    rw [Program.bind, runWith, runWith, bind_assoc]
    exact congrArg _ (funext ih)

end Environment

end ContractHost
