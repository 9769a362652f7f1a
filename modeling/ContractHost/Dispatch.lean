import ContractHost.Execution

/-!
# Dispatch

A call puts its frame on the stack, finds the method that its payload names, pays for it and runs
its handler, and takes the frame off again whatever came of it. `resolve` holds the checks and the
charges that come before the handler, in their order.

Handlers call contracts again, so calls nest. What bounds the nesting is the stack: a frame beyond
its bound is refused before a handler runs. `callWithin` is defined by recursion on the number of
frames that may still be put on the stack, and `call` starts it with one more than the stack allows,
so that it is always the check in `resolve` that refuses a call that is too deep.
-/

namespace ContractHost.Environment

variable {σ ω : Type} [Ledger σ]

/-- Finds and pays for the method that the current frame calls. The basic gas is charged first,
whatever comes of it; when a method is found, the price of the method is charged in its place, but
no less than the basic gas. -/
def resolve (environment : Environment ω) :
    RuntimeM (Execution σ ω) (Invocation × Handler ω) := do
  let basic := environment.registry.config.basicGas
  Execution.onMeter (Meter.charge basic)
  let stack := (← get).stack
  stack.validate
  let some frame := stack.current? | throw .emptyContextStack
  let some selector := Selector.ofPayload? frame.payload
    | throw (.malformedPayload frame.payload.length)
  let some contract := environment.registry.get? frame.target
    | throw (.unknownContract frame.target)
  let some entry := contract.method? selector
    | throw (.unknownMethod frame.target selector)
  modify (·.note (.dispatched contract.name entry.signature frame.caller stack.depth entry.gas))
  modify fun x => { x with meter := x.meter.refund basic }
  Execution.onMeter (Meter.charge (max entry.gas basic))
  let handler ← contract.handler entry
  return (⟨contract.name, frame, selector⟩, handler)

/-- Runs the method that the current frame calls, when contracts are called by `call`. -/
def dispatch (environment : Environment ω) (call : Frame → RuntimeM (Execution σ ω) Bytes) :
    RuntimeM (Execution σ ω) Bytes := do
  let (invocation, handler) ← environment.resolve
  ExceptT.mk (environment.runWith call (handler invocation).run)

/-- Makes a step with a frame on the stack, and notes a failure once the frame is off it. -/
def withFrame (environment : Environment ω) (frame : Frame)
    (step : RuntimeM (Execution σ ω) Bytes) : RuntimeM (Execution σ ω) Bytes := ExceptT.mk do
  modify fun x => { x with stack := x.stack.push frame }
  let result ← step.run
  modify fun x => { x with stack := x.stack.pop }
  if let .error cause := result then
    modify fun x =>
      x.note (.callFailed frame.target cause environment.transaction.hash x.meter.remaining)
  return result

/-- Calls a contract when `room` more frames may be put on the stack. -/
def callWithin (environment : Environment ω) : Nat → Frame → RuntimeM (Execution σ ω) Bytes
  | 0, _ => do
    let stack := (← get).stack
    throw (.contextDepthExceeded (stack.depth + 1) stack.maxDepth)
  | room + 1, frame =>
    environment.withFrame frame (environment.dispatch (callWithin environment room))

/-- Calls a contract. -/
def call (environment : Environment ω) (frame : Frame) : RuntimeM (Execution σ ω) Bytes := do
  environment.callWithin ((← get).stack.maxDepth + 1) frame

/-- Runs the method that the current frame calls without putting a frame on the stack. -/
def invoke (environment : Environment ω) : RuntimeM (Execution σ ω) Bytes :=
  environment.dispatch environment.call

/-- Runs a program on behalf of the transaction itself. -/
def run {α : Type} (environment : Environment ω) (program : Program ω α) : HostM σ ω α :=
  environment.runWith environment.call program

end ContractHost.Environment
