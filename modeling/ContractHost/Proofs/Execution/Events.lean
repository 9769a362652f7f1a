import Mathlib
import ContractHost.Proofs.Execution.Actors

/-!
# Events

All calls of a run share one buffer of events, and whoever acts may look at it or take it away at any
moment. A step puts into the buffer what it announces, at the end, and empties it only into what it
hands out (`EventStep`). So after any number of steps what was handed out, followed by what is still
there, is what was announced, in the order of the steps (`events_in_order`): a call that fails, at
whatever depth, takes nothing back.

An event says whom it comes from. A contract that announces events through its invocation alone
announces them under its own address and with the hash of a signature in front (`Notified`).
-/

namespace ContractHost

/-! ## What is announced and what is handed out -/

/-- The request announces an event or takes the events away. -/
def Request.changesEvents {ω : Type} : Request ω → Bool
  | .emit _ _ _ => true
  | .takeEvents => true
  | _ => false

/-- What an action hands out: the events that it takes away. -/
def Action.handedOut {ω : Type} : Action ω → List Event
  | .answered .takeEvents taken => taken
  | _ => []

/-- What an action announces at a height: an event, if that is accepted. -/
def Action.announced {ω : Type} (height : UInt64) : Action ω → List Event
  | .answered (.emit address topics data) (.ok _) => [⟨address, height, topics, data⟩]
  | _ => []

/-- All that steps hand out, in their order. -/
def handedOut {σ ω : Type} (steps : List (Step σ ω)) : List Event :=
  steps.flatMap fun step => step.action.handedOut

/-- All that steps announce, in their order. -/
def announced {σ ω : Type} (height : UInt64) (steps : List (Step σ ω)) : List Event :=
  steps.flatMap fun step => step.action.announced height

/-- A contract announces events through its invocation alone. -/
def Request.Notifies {ω : Type} : Option Invocation → Request ω → Prop
  | some invocation, .emit address topics _ =>
    address = invocation.address ∧
      ∃ signature indexed, topics = Selector.topicOf signature :: indexed
  | _, _ => True

theorem Invocation.makes_notify {ω : Type} (invocation : Invocation) (signature : String)
    (indexed : List Word) (data : Bytes) :
    Program.Makes (Request.Notifies (some invocation))
      (invocation.notify signature indexed data : ContractM ω Unit).run :=
  .ask ⟨rfl, signature, indexed, rfl⟩ fun _ => .done _

namespace Environment

variable {σ ω α : Type} [Ledger σ] {environment : Environment ω}

/-! ## What a step does to the buffer -/

variable (environment) in
/-- A step moves events through the buffer and loses none. An announcement is accepted if it has
topics, and one that is refused leaves no trace. -/
structure EventStep (step : Step σ ω) : Prop where
  moved : step.action.handedOut ++ step.after.events =
    step.before.events ++ step.action.announced environment.transaction.height
  accepted : ∀ address topics data reply,
    step.action = .answered (.emit address topics data) reply → topics ≠ [] → reply = .ok ()
  refused : ∀ address data reply, step.action = .answered (.emit address [] data) reply →
    reply = .error (.invalidEvent s!"event from {address} has no topics") ∧
      step.after = step.before
  looked : ∀ reply, step.action = .answered .events reply → reply = step.before.events
  taken : ∀ reply, step.action = .answered .takeEvents reply → step.after.events = []

variable (environment) in
theorem events_answer (call : Frame → RuntimeM (Execution σ ω) Bytes) {request : Request ω}
    (other : request.isCall = false) (plain : request.changesEvents = false)
    (x : Execution σ ω) :
    ((environment.answer call request).run x).2.events = x.events := by
  cases request with
  | call frame => cases other
  | emit address topics data => cases plain
  | takeEvents => cases plain
  | evm call' =>
    obtain ⟨log, answered⟩ := environment.answer_evm call call' x
    rw [answered]
    dsimp only
    split
    · rfl
    · rfl
  | store operation =>
    obtain ⟨log, answered⟩ := environment.answer_store call operation x
    rw [answered]
  | transfer sender recipient amount =>
    obtain ⟨log, answered⟩ := environment.answer_transfer call sender recipient amount x
    rw [answered]
  | charge amount =>
    rw [answer_charge]
    split
    · rfl
    · rfl
  | setValue value =>
    show (if value = 0 then x else { x with value }).events = x.events
    split
    · rfl
    · rfl
  | setRecipient address =>
    show (if address.isZero then x else { x with recipient := address }).events = x.events
    split
    · rfl
    · rfl
  | _ => rfl

theorem handedOut_of_plain {request : Request ω} (plain : request.changesEvents = false)
    (reply : request.Reply) : (Action.answered request reply).handedOut = [] := by
  cases request with
  | takeEvents => cases plain
  | _ => rfl

theorem announced_of_plain {request : Request ω} (plain : request.changesEvents = false)
    (reply : request.Reply) (height : UInt64) :
    (Action.answered request reply).announced height = [] := by
  cases request with
  | emit address topics data => cases plain
  | _ => rfl

theorem eventStep_emit (call : Frame → RuntimeM (Execution σ ω) Bytes) (address : Address)
    (topics : List Word) (data : Bytes) (x : Execution σ ω) :
    environment.EventStep ⟨x, .answered (.emit address topics data)
      ((environment.answer call (.emit address topics data)).run x).1,
      ((environment.answer call (.emit address topics data)).run x).2⟩ := by
  rw [answer_emit]
  cases topics with
  | nil =>
    refine ⟨(List.append_nil _).symm, ?_, ?_, by simp, by simp⟩
    · intro address' topics data' reply same some
      cases same
      exact absurd rfl some
    · intro address' data' reply same
      cases same
      exact ⟨rfl, rfl⟩
  | cons topic topics =>
    refine ⟨rfl, ?_, ?_, by simp, by simp⟩
    · intro address' topics' data' reply same _
      cases same
      rfl
    · intro address' data' reply same
      cases same

theorem eventStep_answered (call : Frame → RuntimeM (Execution σ ω) Bytes) {request : Request ω}
    (other : request.isCall = false) (x : Execution σ ω) :
    environment.EventStep ⟨x, .answered request ((environment.answer call request).run x).1,
      ((environment.answer call request).run x).2⟩ := by
  cases changes : request.changesEvents with
  | true =>
    cases request with
    | emit address topics data => exact eventStep_emit call address topics data x
    | takeEvents => exact ⟨rfl, by simp, by simp, by simp, fun _ _ => rfl⟩
    | _ => cases changes
  | false =>
    have kept := environment.events_answer call other changes x
    constructor
    · show Action.handedOut _ ++ _ = _
      rw [handedOut_of_plain changes, announced_of_plain changes, kept]
      simp
    · intro address topics data reply same
      cases same
      cases changes
    · intro address data reply same
      cases same
      cases changes
    · intro reply same
      cases same
      rfl
    · intro reply same
      cases same
      cases changes

omit [Ledger σ] in
theorem eventStep_dispatched (frame : Frame) (x : Execution σ ω) :
    environment.EventStep ⟨x, .dispatched frame
      ((Fallible.eval environment.resolve (x.enter frame)).1.map Prod.fst),
      (Fallible.eval environment.resolve (x.enter frame)).2⟩ := by
  obtain ⟨meter, log, same⟩ := environment.exists_resolve_eq (x.enter frame)
  rw [same]
  exact ⟨(List.append_nil _).symm, by simp, by simp, by simp, by simp⟩

omit [Ledger σ] in
theorem eventStep_returned (frame : Frame) (result : Except RuntimeError Bytes)
    (x : Execution σ ω) :
    environment.EventStep ⟨x, .returned frame result, environment.leave frame result x⟩ := by
  have kept : (environment.leave frame result x).events = x.events := by
    rcases result with cause | value
    · rfl
    · rfl
  exact ⟨kept.trans (List.append_nil _).symm, by simp, by simp, by simp, by simp⟩

variable (environment) in
theorem eventStep_steps (program : Program ω α) (x : Execution σ ω) :
    ∀ step ∈ environment.steps program x, environment.EventStep step :=
  (environment.nested_run program x).forall
    (fun _ y other _ => eventStep_answered environment.call other y) eventStep_dispatched
    eventStep_returned

/-! ## Whole runs -/

variable {x y : Execution σ ω} {steps : List (Step σ ω)}

omit [Ledger σ] in
/-- What is handed out, and then what is left, is what was there and then what is announced. -/
theorem events_of_chained (chained : Chained x steps y)
    (each : ∀ step ∈ steps, environment.EventStep step) :
    handedOut steps ++ y.events =
      x.events ++ announced environment.transaction.height steps := by
  induction steps generalizing x with
  | nil =>
    have same : x = y := chained
    simp [handedOut, announced, same]
  | cons step steps ih =>
    obtain ⟨rfl, chained⟩ := chained
    obtain ⟨here, later⟩ := List.forall_mem_cons.1 each
    calc
      handedOut (step :: steps) ++ y.events
        = step.action.handedOut ++ (handedOut steps ++ y.events) := by simp [handedOut]
      _ = (step.action.handedOut ++ step.after.events) ++
          announced environment.transaction.height steps := by
        rw [ih chained later, List.append_assoc]
      _ = step.before.events ++ announced environment.transaction.height (step :: steps) := by
        rw [here.moved, List.append_assoc]
        simp [announced]

omit [Ledger σ] in
/-- What is announced has a topic and the height of the transaction. -/
theorem announced_wellFormed (each : ∀ step ∈ steps, environment.EventStep step) :
    ∀ event ∈ announced environment.transaction.height steps,
      event.topics ≠ [] ∧ event.height = environment.transaction.height := by
  intro event member
  obtain ⟨step, listed, here⟩ := List.mem_flatMap.1 member
  cases acts : step.action with
  | answered request reply =>
    rw [acts] at here
    cases request with
    | emit address topics data =>
      rcases reply with cause | _
      · cases here
      · obtain rfl := List.mem_singleton.1 here
        refine ⟨?_, rfl⟩
        rintro rfl
        cases ((each step listed).refused _ _ _ acts).1
    | _ => cases here
  | dispatched frame outcome =>
    rw [acts] at here
    cases here
  | returned frame result =>
    rw [acts] at here
    cases here

/-! ## Notifying -/

variable (environment) in
theorem run_notify (call : Frame → RuntimeM (Execution σ ω) Bytes) (invocation : Invocation)
    (signature : String) (indexed : List Word) (data : Bytes) (x : Execution σ ω) :
    (environment.runWith call
        (invocation.notify signature indexed data : ContractM ω Unit).run).run x =
      (.ok (), { x with events := x.events ++ [⟨invocation.address,
        environment.transaction.height, Selector.topicOf signature :: indexed, data⟩] }) :=
  environment.answer_emit call invocation.address (Selector.topicOf signature :: indexed) data x

/-- What the innermost of the open calls announces comes from its contract, which is the one that
runs, and begins with the hash of a signature. -/
def Notified (calls : List OpenCall) (step : Step σ ω) : Prop :=
  ∀ address topics data reply call below,
    step.action = .answered (.emit address topics data) reply → calls = call :: below →
      ∃ invocation signature indexed, call = ⟨invocation.frame, some invocation⟩ ∧
        step.before.stack.current? = some invocation.frame ∧
        address = invocation.frame.target ∧
        topics = Keccak.hash (Bytes.ofText signature) :: indexed ∧ reply = .ok ()

theorem Taken.notified {calls : List OpenCall} {step : Step σ ω}
    (taken : environment.Taken Request.Notifies calls step)
    (top : ∀ call below, calls = call :: below → step.before.stack.current? = some call.frame) :
    Notified calls step := by
  intro address topics data reply call below acts opened
  cases taken with
  | @answered actor calls x y request reply' by' other now here =>
    cases acts
    cases by' with
    | program => cases opened
    | handler invocation calls =>
      obtain ⟨own, signature, indexed, rfl⟩ := now
      have current := top _ _ rfl
      cases opened
      rw [answer_emit] at here
      exact ⟨invocation, signature, indexed, rfl, current, own, rfl, (Prod.ext_iff.1 here).1.symm⟩
  | refused by' now found => cases acts
  | handled by' now found => cases acts
  | returned => cases acts

/-- After any number of steps of a run, what was handed out followed by what is in the buffer is what
was in the buffer at the start followed by all that was announced since, in the order of the steps.
Every event has topics and the height of the transaction; one that is announced through an invocation
has the contract's address, and behind the hash of its signature the indexed words. -/
theorem events_in_order (environment : Environment ω) :
    (∀ (program : Program ω α) (x : Execution σ ω),
      (∀ earlier later, environment.steps program x = earlier ++ later →
        ∃ y, Chained x earlier y ∧ Chained y later ((environment.run program).run x).2 ∧
          handedOut earlier ++ y.events =
            x.events ++ announced environment.transaction.height earlier) ∧
      (∀ step ∈ environment.steps program x, environment.EventStep step) ∧
      ∀ event ∈ announced environment.transaction.height (environment.steps program x),
        event.topics ≠ [] ∧ event.height = environment.transaction.height) ∧
    (∀ (call : Frame → RuntimeM (Execution σ ω) Bytes) (invocation : Invocation)
      (signature : String) (indexed : List Word) (data : Bytes) (x : Execution σ ω),
      (environment.runWith call
          (invocation.notify signature indexed data : ContractM ω Unit).run).run x =
        (.ok (), { x with events := x.events ++ [⟨invocation.frame.target,
          environment.transaction.height, Keccak.hash (Bytes.ofText signature) :: indexed,
          data⟩] })) ∧
    ((environment.registry.HandlersKeepTo fun invocation => Request.Notifies (some invocation)) →
      ∀ (program : Program ω α) (x : Execution σ ω) earlier step later,
        environment.steps program x = earlier ++ step :: later →
          Notified (openCalls earlier) step) := by
  refine ⟨?_, environment.run_notify, ?_⟩
  · intro program x
    have each := environment.eventStep_steps program x
    refine ⟨?_, each, announced_wellFormed each⟩
    intro earlier later parts
    have chained := environment.chained_steps program x
    rw [parts] at chained each
    obtain ⟨y, before, after⟩ := chained.split
    exact ⟨y, before, after, events_of_chained before (List.forall_mem_append.1 each).1⟩
  · intro handlers program x earlier step later parts
    have along := along_steps handlers (Program.makes_of_forall (fun _ => trivial) program) x
    rw [parts] at along
    exact along.split.2.1.notified fun call below opened => current?_of_open parts opened

/-- A contract that announces what it was called with and calls itself with the rest, then takes all
events away, announces that it is done, and fails. -/
def herald : Descriptor Unit where
  address := .zero
  name := "Herald"
  entries := (∅ : Std.ExtTreeMap Selector MethodEntry).insert ⟨[0x68, 0x65, 0x72, 0x61], rfl⟩
    ⟨0, "herald(bytes)", 21500⟩
  handlers := [fun invocation => .mk do
    let _ ← (invocation.notify "Heard(bytes)" [] invocation.input).run
    let _ ← (invocation.call invocation.address invocation.input).run
    let _ ← Program.request .takeEvents
    let _ ← (invocation.notify "Done()" [.zero] []).run
    return .error (.execution "done")]

/-- A host with this contract alone. -/
def heraldHost : Environment Unit where
  registry := ⟨.standard, (∅ : Std.ExtTreeMap Address (Descriptor Unit)).insert .zero herald⟩
  transaction := .ofSender (.ofUInt64 2) 100000
  bridge? := none

/-- A call of the contract whose input is another one. -/
def heralding : Frame :=
  ⟨.ofUInt64 2, .zero, [0x68, 0x65, 0x72, 0x61, 0x68, 0x65, 0x72, 0x61]⟩

/-- The inner call, which has called without a selector, takes away what both have announced, and the
outer one what the inner one has announced then. Both fail, and what the outer one announced last is
still there. -/
theorem events_in_order_heralding :
    let start : Execution ChangeSet Unit := .start heraldHost .empty ()
    let program : Program Unit _ := Program.request (.call heralding)
    let last := ((heraldHost.run program).run start).2
    let steps := heraldHost.steps program start
    steps.map (fun step => step.action.handedOut.length) =
        [0, 0, 0, 0, 0, 0, 2, 0, 0, 1, 0, 0] ∧
      last.events.length = 1 ∧
      handedOut steps ++ last.events = announced heraldHost.transaction.height steps ∧
      ∃ step, steps[7]? = some step ∧ Notified (openCalls (steps.take 7)) step := by
  intro start program last steps
  obtain ⟨runs, -, notifies⟩ :=
    @events_in_order ChangeSet Unit (Except RuntimeError Bytes) _ heraldHost
  have handlers : heraldHost.registry.HandlersKeepTo fun invocation =>
      Request.Notifies (some invocation) := by
    refine (Registry.handlersKeepTo_empty .standard _).insert .zero ?_
    intro handler member invocation
    rw [List.mem_singleton.1 member]
    exact (invocation.makes_notify _ _ _).bind fun _ => .ask trivial fun _ => .ask trivial fun _ =>
      (invocation.makes_notify _ _ _).bind fun _ => .done _
  obtain ⟨points, -, -⟩ := runs program start
  obtain ⟨y, before, finished, kept⟩ := points steps [] (List.append_nil _).symm
  have ended : y = last := finished
  rw [ended] at kept
  have handed : steps.map (fun step => step.action.handedOut.length) =
      [0, 0, 0, 0, 0, 0, 2, 0, 0, 1, 0, 0] := by decide +kernel
  have long : 7 < steps.length := by
    rw [← List.length_map, handed]
    decide
  have parts : steps = steps.take 7 ++ steps[7] :: steps.drop 8 := by
    rw [List.getElem_cons_drop, List.take_append_drop]
  refine ⟨handed, by decide +kernel, kept.trans (List.nil_append _), steps[7],
    List.getElem?_eq_getElem long, ?_⟩
  exact notifies handlers program start _ _ _ parts

end Environment

end ContractHost
