import Mathlib
import ContractHost.Proofs.Execution.Actors
import ContractHost.Proofs.Store.Namespaces

/-!
# Who writes where

Contracts that reach the ledger only through the store, each with keys of its own address, keep
their storage apart. An operation of the store stays under the address of its key
(`Store.Operation.StaysUnder`), and whoever makes one during a run is the contract of the current
frame, whatever calls were nested before (`storage_kept_apart`). Only the program of the transaction
itself, which is no contract, can reach the ledger in another way, and only while no call is open.
-/

namespace ContractHost

/-- The contract reaches the ledger only through the store, with keys in its own storage. -/
def Request.InOwnStorage {ω : Type} (invocation : Invocation) : Request ω → Prop
  | .store operation => ∃ parts, operation.key = invocation.key parts
  | .ledger _ => False
  | .transfer _ _ _ => False
  | _ => True

/-- The handlers reach the ledger only through their own storage, and the program of the transaction
makes only requests of its `own` kind. -/
def Request.StorageKept {ω : Type} (own : Request ω → Prop) :
    Option Invocation → Request ω → Prop
  | some invocation, request => request.InOwnStorage invocation
  | none, request => own request

section Steps

variable {σ ω : Type}

/-- The contract at an address makes the step: its frame is the current one, and its handler, which
is the innermost, makes an operation on a key in its own storage. -/
structure Step.ByContract (calls : List OpenCall) (owner : Address) (step : Step σ ω) : Prop where
  current : ∃ frame, step.before.stack.current? = some frame ∧ frame.target = owner
  operation : ∃ invocation below operation reply parts,
    calls = ⟨invocation.frame, some invocation⟩ :: below ∧ invocation.address = owner ∧
      step.action = .answered (.store operation) reply ∧ operation.key = invocation.key parts

/-- The program of the transaction makes the step, an operation on the ledger. No call is open. -/
structure Step.ByProgram (own : Request ω → Prop) (calls : List OpenCall) (step : Step σ ω) :
    Prop where
  calls : calls = []
  exists_request : ∃ request reply,
    step.action = .answered request reply ∧ request.usesLedger = true ∧ own request

/-- Who changed the ledger, if a step did: what a contract holds, that contract or the program, and
an account nobody but the program. -/
structure Step.KeepsApart (own : Request ω → Prop) (calls : List OpenCall) (step : Step Layers ω) :
    Prop where
  content : ∀ cell, step.after.ledger.content cell ≠ step.before.ledger.content cell →
    step.ByContract calls cell.owner ∨ step.ByProgram own calls
  account? : ∀ address,
    step.after.ledger.account? address ≠ step.before.ledger.account? address →
      step.ByProgram own calls

/-- Where the program makes no operation on the ledger itself, the contracts alone change what they
hold. -/
theorem Step.KeepsApart.byContract {own : Request ω → Prop} {calls : List OpenCall}
    {step : Step Layers ω} (keeps : step.KeepsApart own calls)
    (unused : ∀ request, own request → request.usesLedger = false) {cell : Cell}
    (changed : step.after.ledger.content cell ≠ step.before.ledger.content cell) :
    step.ByContract calls cell.owner := by
  rcases keeps.content cell changed with made | ⟨-, request, reply, -, used, now⟩
  · exact made
  · rw [unused request now] at used
    cases used

end Steps

namespace Environment

variable {ω α : Type} {environment : Environment ω} {own : Request ω → Prop}

/-- A step leaves the ledger alone, or the program makes it, or it writes to the storage of the
contract that makes it. -/
theorem Taken.ledger_cases {calls : List OpenCall} {step : Step Layers ω}
    (taken : environment.Taken (Request.StorageKept own) calls step)
    (top : ∀ call below, calls = call :: below → step.before.stack.current? = some call.frame) :
    step.after.ledger = step.before.ledger ∨ step.ByProgram own calls ∨
      ∃ owner writes, step.ByContract calls owner ∧ (∀ write ∈ writes, write.1.owner = owner) ∧
        step.after.ledger = step.before.ledger.write writes := by
  cases taken with
  | @answered actor calls x y request reply acts other now here =>
    have after : y = ((environment.answer environment.call request).run x).2 :=
      (Prod.ext_iff.1 here).2.symm
    cases used : request.usesLedger with
    | false =>
      left
      rw [after]
      exact (answer_leaves environment.call other x).2.2 used
    | true =>
      right
      cases acts with
      | program => exact .inl ⟨rfl, request, reply, rfl, used, now⟩
      | handler invocation calls =>
        right
        -- Of all that reaches the ledger a contract is allowed the store alone.
        cases request with
        | store operation =>
          obtain ⟨parts, key⟩ := now
          have begins : invocation.address.toList <+: operation.key :=
            key ▸ List.prefix_append _ _
          obtain ⟨log, answered⟩ := environment.answer_store environment.call operation x
          obtain ⟨reply', writes, meter', owned, runs⟩ := Store.exists_writes
            environment.registry.config.storage (Store.owner_headCell begins) x.ledger x.meter
          have made : Step.ByContract (⟨invocation.frame, some invocation⟩ :: calls)
              invocation.address ⟨x, .answered (.store operation) reply, y⟩ :=
            ⟨⟨invocation.frame, top _ _ rfl, rfl⟩,
              ⟨invocation, calls, operation, reply, parts, rfl, rfl, rfl, key⟩⟩
          refine ⟨invocation.address, writes, made, owned, ?_⟩
          rw [after, answered, runs x.ledger fun _ _ => rfl]
        | ledger operation => cases now
        | transfer sender recipient amount => cases now
        | _ => cases used
  | @refused actor calls x y frame cause acts now found =>
    have kept := environment.ledger_resolve (x.enter frame)
    rw [found] at kept
    exact .inl kept
  | @handled actor calls x y frame invocation handler acts now found =>
    have kept := environment.ledger_resolve (x.enter frame)
    rw [found] at kept
    exact .inl kept
  | returned => exact .inl (ledger_leave _ _ _)

theorem Taken.keepsApart {calls : List OpenCall} {step : Step Layers ω}
    (taken : environment.Taken (Request.StorageKept own) calls step)
    (top : ∀ call below, calls = call :: below → step.before.stack.current? = some call.frame) :
    step.KeepsApart own calls := by
  rcases taken.ledger_cases top with kept | made | ⟨owner, writes, made, owned, wrote⟩
  · exact ⟨fun cell changed => absurd (congrArg (Layers.content · cell) kept) changed,
      fun address changed => absurd (congrArg (Layers.account? · address) kept) changed⟩
  · exact ⟨fun _ _ => .inr made, fun _ _ => made⟩
  · constructor
    · intro cell changed
      have same : cell.owner = owner := by
        by_contra other
        refine changed ?_
        rw [wrote]
        refine Layers.content_write_of_forall_ne fun write member here => other ?_
        rw [← here, owned write member]
      exact .inl (same ▸ made)
    · intro address changed
      refine absurd ?_ changed
      rw [wrote, Layers.account?_write]

/-- What is stored under an address concerns only the operations under that address. During a run it
changes only by operations of the contract at that address, whose frame is the current one, and of
the program of the transaction, if that makes any itself. -/
theorem storage_kept_apart (environment : Environment ω) :
    (∀ costs (owner : Address) (operation : Store.Operation), owner.toList <+: operation.key →
      operation.StaysUnder costs owner) ∧
    (∀ costs (owner owner' : Address) (first second : Store.Operation) (store : Store Layers),
      owner.toList <+: first.key → owner'.toList <+: second.key → owner ≠ owner' →
      isShort (Fallible.eval (first.run costs) store).1 = false →
      isShort (Fallible.eval (second.run costs)
        (Fallible.eval (first.run costs) store).2).1 = false →
      Store.Commute (first.run costs) (second.run costs) store) ∧
    (environment.registry.HandlersKeepTo Request.InOwnStorage →
      ∀ (own : Request ω → Prop) (program : Program ω α), program.Makes own →
      ∀ x : Execution Layers ω,
        (∀ earlier step later, environment.steps program x = earlier ++ step :: later →
          step.KeepsApart own (openCalls earlier)) ∧
        ((∀ request, own request → request.usesLedger = false) →
          ∀ earlier step later, environment.steps program x = earlier ++ step :: later →
            ∀ cell, step.after.ledger.content cell ≠ step.before.ledger.content cell →
              step.ByContract (openCalls earlier) cell.owner) ∧
        ∀ cell, ((environment.run program).run x).2.ledger.content cell ≠ x.ledger.content cell →
          ∃ earlier step later, environment.steps program x = earlier ++ step :: later ∧
            (step.ByContract (openCalls earlier) cell.owner ∨
              step.ByProgram own (openCalls earlier))) := by
  refine ⟨fun costs owner operation begins => Store.staysUnder_of_prefix costs begins, ?_, ?_⟩
  · intro costs owner owner' first second store begins begins' apart enough enough'
    refine Store.commute_of_owner_ne costs ?_ enough enough'
    rwa [Store.owner_headCell begins, Store.owner_headCell begins']
  · intro handlers own program makes x
    have each : ∀ earlier step later, environment.steps program x = earlier ++ step :: later →
        step.KeepsApart own (openCalls earlier) := by
      intro earlier step later parts
      have along : Along (environment.Taken (Request.StorageKept own)) [] _ :=
        along_steps (by exact handlers) makes x
      rw [parts] at along
      exact along.split.2.1.keepsApart fun call below opened => current?_of_open parts opened
    refine ⟨each, fun unused earlier step later parts cell =>
      (each earlier step later parts).byContract unused, ?_⟩
    intro cell changed
    have chained := environment.chained_steps program x
    obtain ⟨earlier, step, later, parts, differs⟩ :=
      chained.exists_of_ne (fun y => y.ledger.content cell) changed
    exact ⟨earlier, step, later, parts, (each earlier step later parts).content cell differs⟩

/-- A contract that keeps its input, passes it on to another contract, and then marks that it has
done so. -/
def marker (next : Address) : Descriptor Unit where
  address := .zero
  name := "Marker"
  entries := (∅ : Std.ExtTreeMap Selector MethodEntry).insert ⟨[0x6b, 0x65, 0x65, 0x70], rfl⟩
    ⟨0, "keep(bytes)", 21500⟩
  handlers := [fun invocation => .mk do
    let _ ← (ContractM.store (.put (invocation.key [[0x6b]]) invocation.input)).run
    let _ ← (invocation.call next invocation.input).run
    let _ ← (ContractM.store (.set .integer (invocation.key [[0x6d]]) 1)).run
    return .ok []]

/-- Two contracts that keep what they pass on to each other. -/
def markingHost : Environment Unit where
  registry := ⟨.standard,
    ((∅ : Std.ExtTreeMap Address (Descriptor Unit)).insert .zero
      (marker (.ofUInt64 1))).insert (.ofUInt64 1) (marker .zero)⟩
  transaction := .ofSender (.ofUInt64 2) 200000
  bridge? := none

/-- A call of the first contract that comes back to it over the second one. -/
def marking : Frame :=
  ⟨.ofUInt64 2, .zero,
    [0x6b, 0x65, 0x65, 0x70, 0x6b, 0x65, 0x65, 0x70, 0x6b, 0x65, 0x65, 0x70]⟩

theorem markers_inOwnStorage :
    markingHost.registry.HandlersKeepTo Request.InOwnStorage := by
  have keeps (next : Address) : ∀ handler ∈ (marker next).handlers, ∀ invocation,
      (handler invocation).run.Makes (Request.InOwnStorage invocation) := by
    intro handler member invocation
    rw [List.mem_singleton.1 member]
    exact .ask ⟨_, rfl⟩ fun _ => .ask trivial fun _ => .ask ⟨_, rfl⟩ fun _ => .done _
  exact ((Registry.handlersKeepTo_empty .standard _).insert .zero (keeps _)).insert _ (keeps _)

/-- Two addresses on their own, and a run in which the second contract sets its mark once the first
one has been entered again and has returned. -/
theorem storage_kept_apart_markers :
    let start : Execution Layers Unit := .start markingHost (.ofBase .empty) ()
    let steps := markingHost.steps (Program.request (.call marking)) start
    let mark : Cell := ⟨.ofUInt64 1, Store.headSlot [0x6d]⟩
    (Store.Operation.put (Store.joinKey .zero [[0x6b]]) [0x2a]).StaysUnder .standard .zero ∧
      Store.Commute ((Store.Operation.put (Store.joinKey .zero [[0x6b]]) [0x2a]).run .standard)
        ((Store.Operation.put (Store.joinKey (.ofUInt64 1) [[0x6b]]) [0x2b]).run .standard)
        ⟨Layers.ofBase .empty, .unlimited⟩ ∧
      ∃ earlier step later, steps = earlier ++ step :: later ∧ earlier.length = 10 ∧
        step.after.ledger.content mark ≠ step.before.ledger.content mark ∧
        step.ByContract (openCalls earlier) (.ofUInt64 1) := by
  intro start steps mark
  obtain ⟨stays, commutes, run⟩ := @storage_kept_apart Unit (Except RuntimeError Bytes) markingHost
  have makes : (Program.request (.call marking) : Program Unit _).Makes
      fun request => request.isCall = true :=
    .ask rfl fun _ => .done _
  have unused : ∀ request : Request Unit, request.isCall = true → request.usesLedger = false := by
    intro request called
    cases request with
    | call frame => rfl
    | _ => cases called
  obtain ⟨-, each, -⟩ := run markers_inOwnStorage _ _ makes start
  have marks : (steps[10]?.any fun step =>
      step.after.ledger.content mark ≠ step.before.ledger.content mark) = true := by
    decide +kernel
  obtain ⟨step, tenth, differs⟩ := (Option.any_eq_true _ _).1 marks
  have changed : step.after.ledger.content mark ≠ step.before.ledger.content mark :=
    of_decide_eq_true differs
  obtain ⟨long, rfl⟩ := List.getElem?_eq_some_iff.1 tenth
  have parts : steps = steps.take 10 ++ steps[10] :: steps.drop 11 := by
    rw [List.getElem_cons_drop, List.take_append_drop]
  refine ⟨stays _ _ _ ⟨_, rfl⟩, ?_, _, _, _, parts, by decide +kernel, changed, ?_⟩
  · exact commutes _ .zero (.ofUInt64 1) _ _ _ ⟨_, rfl⟩ ⟨_, rfl⟩ (by decide) (by decide +kernel)
      (by decide +kernel)
  · exact each unused _ _ _ parts mark changed

end Environment

end ContractHost
