import ContractHost.Call.Evm
import ContractHost.Call.Stack
import ContractHost.Call.Transaction
import ContractHost.Config
import ContractHost.Event
import ContractHost.Ledger.Operation
import ContractHost.Store.Operation

/-!
# Programs

What a contract does, as data: a program is finished with a result, or makes a request of the host
and goes on with the reply. A program holds no state of its own and cannot act but through requests,
so what it may do is seen from the requests it makes: a statement about contracts of some kind is
one about the programs whose every request is of that kind (`Program.Makes`).

Two things that a contract might do are left out. No request dispatches the current frame once more,
as `Environment.invoke` does for whoever runs the programs: a contract gets to a method, its own or that
of another contract, by a call, which puts a frame on the stack. And a handler carries no state of its
own from one call to the next: it is a function of the invocation that it is handed, and what it is to
remember it puts in the store, in the ledger or in the world outside.

`ω` is the world outside the host, which the virtual machine and the programs share and the host
never looks at.
-/

namespace ContractHost

/-- What a program may ask of the host. -/
inductive Request (ω : Type) where
  /-- Calls a contract. -/
  | call (frame : Frame)
  /-- Calls the virtual machine, with the gas that is to be used at most. -/
  | evm (call : EvmCall)
  /-- Makes an operation on the metered store. -/
  | store (operation : Store.Operation)
  /-- Makes an operation on the ledger, which costs nothing. -/
  | ledger (operation : Ledger.Operation)
  /-- Moves funds. -/
  | transfer (sender recipient : Address) (amount : Balance)
  /-- Announces an event. -/
  | emit (address : Address) (topics : List Word) (data : Bytes)
  /-- Looks at the events announced so far. -/
  | events
  /-- Takes the events announced so far away. -/
  | takeEvents
  /-- Charges the meter. -/
  | charge (amount : Gas)
  /-- Gives gas back. -/
  | refund (amount : Gas)
  /-- Looks at the meter. -/
  | gasLeft
  /-- Sets the value of the transaction; zero leaves it as it is. -/
  | setValue (value : UInt256)
  | value
  /-- Sets the recipient of the transaction; zero leaves it as it is. -/
  | setRecipient (address : Address)
  | recipient
  | transaction
  | stack
  | config
  /-- Whether a contract is registered at an address. -/
  | isNative (address : Address)
  /-- How many contracts are registered. -/
  | nativeCount
  /-- Acts on the world outside the host. -/
  | outside (act : ω → ω)

namespace Request

variable {ω : Type}

/-- What the host replies. -/
@[reducible] def Reply : Request ω → Type
  | call _ => Except RuntimeError Bytes
  | evm _ => Except RuntimeError EvmOutput
  | store operation => Except RuntimeError operation.Reply
  | ledger operation => Except RuntimeError operation.Reply
  | transfer _ _ _ => Except RuntimeError Bool
  | emit _ _ _ => Except RuntimeError Unit
  | events => List Event
  | takeEvents => List Event
  | charge _ => Except RuntimeError Unit
  | refund _ => Unit
  | gasLeft => Gas
  | setValue _ => Unit
  | value => UInt256
  | setRecipient _ => Unit
  | recipient => Address
  | transaction => TransactionInfo
  | stack => CallStack
  | config => Config
  | isNative _ => Bool
  | nativeCount => Nat
  | outside _ => Unit

end Request

/-- A program with a result of type `α`. -/
inductive Program (ω α : Type) where
  | done (result : α)
  | ask (request : Request ω) (next : request.Reply → Program ω α)

namespace Program

variable {ω α β : Type}

/-- Runs a second program on the result of a first. -/
def bind : Program ω α → (α → Program ω β) → Program ω β
  | done result, f => f result
  | ask request next, f => ask request fun reply => bind (next reply) f

instance : Monad (Program ω) where
  pure := done
  bind := bind

instance [Inhabited α] : Inhabited (Program ω α) := ⟨done default⟩

@[simp] theorem bind_done (program : Program ω α) : bind program done = program := by
  induction program with
  | done result => rfl
  | ask request next ih =>
    rw [bind]
    exact congrArg _ (funext ih)

theorem bind_assoc {γ : Type} (program : Program ω α) (f : α → Program ω β)
    (g : β → Program ω γ) : bind (bind program f) g = bind program fun a => bind (f a) g := by
  induction program with
  | done result => rfl
  | ask request next ih =>
    rw [bind, bind, bind]
    exact congrArg _ (funext ih)

instance : LawfulMonad (Program ω) :=
  LawfulMonad.mk' _ bind_done (fun _ _ => rfl) bind_assoc

/-- Makes one request. -/
def request (request : Request ω) : Program ω request.Reply := ask request done

/-- Every request that the program makes, whatever the replies, is one of those allowed. -/
inductive Makes (allowed : Request ω → Prop) : Program ω α → Prop where
  | done (result : α) : Makes allowed (done result)
  | ask {request : Request ω} {next : request.Reply → Program ω α}
      (now : allowed request) (later : ∀ reply, Makes allowed (next reply)) :
      Makes allowed (ask request next)

theorem Makes.mono {allowed more : Request ω → Prop} {program : Program ω α}
    (h : Makes allowed program) (le : ∀ request, allowed request → more request) :
    Makes more program := by
  induction h with
  | done result => exact .done result
  | ask now _ ih => exact .ask (le _ now) ih

theorem Makes.bind {allowed : Request ω → Prop} {program : Program ω α} {f : α → Program ω β}
    (h : Makes allowed program) (hf : ∀ a, Makes allowed (f a)) :
    Makes allowed (program.bind f) := by
  induction h with
  | done result => exact hf result
  | ask now _ ih => exact .ask now ih

end Program

/-- A program that may fail. -/
abbrev ContractM (ω : Type) := ExceptT RuntimeError (Program ω)

namespace ContractM

variable {ω : Type}

/-- Makes a request that cannot fail. -/
def ask (request : Request ω) : ContractM ω request.Reply := ExceptT.lift (.request request)

/-- Goes on with a result, or fails. -/
def ofExcept {α : Type} (result : Except RuntimeError α) : ContractM ω α := ExceptT.mk (pure result)

/-- Calls a contract in the name of the frame's caller. -/
def call (frame : Frame) : ContractM ω Bytes := Program.request (.call frame)

/-- Calls the virtual machine. -/
def evm (call : EvmCall) : ContractM ω EvmOutput := Program.request (.evm call)

/-- Makes an operation on the store. -/
def store (operation : Store.Operation) : ContractM ω operation.Reply :=
  Program.request (.store operation)

/-- Makes an operation on the ledger. -/
def ledger (operation : Ledger.Operation) : ContractM ω operation.Reply :=
  Program.request (.ledger operation)

/-- Moves funds and says whether any moved. -/
def transfer (sender recipient : Address) (amount : Balance) : ContractM ω Bool :=
  Program.request (.transfer sender recipient amount)

/-- Announces an event. -/
def emit (address : Address) (topics : List Word) (data : Bytes) : ContractM ω Unit :=
  Program.request (.emit address topics data)

/-- Charges the meter. -/
def charge (amount : Gas) : ContractM ω Unit := Program.request (.charge amount)

end ContractM

end ContractHost
