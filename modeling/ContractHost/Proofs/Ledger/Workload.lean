import Mathlib
import ContractHost.Proofs.Ledger.Overlay

/-!
# Work on an overlay

What is done with a state is a sequence of tasks, operations, transfers and whole transactions, each
of which may depend on what the earlier ones replied (`Workload`). Done on an overlay it comes to the
same as on the state below, where nothing changes until the overlay is committed; then the two
states answer alike (`overlay_commits`).
-/

namespace ContractHost

/-- What is seen of a transaction once it has run. -/
structure Outcome (α : Type) where
  result : α
  gasLeft : Gas
  value : UInt256
  recipient : Address
  events : List Event
  stack : CallStack

/-- What is seen of an execution that has come to a result. -/
def Execution.outcome {σ ω α : Type} (x : Execution σ ω) (result : α) : Outcome α where
  result
  gasLeft := x.meter.remaining
  value := x.value
  recipient := x.recipient
  events := x.events
  stack := x.stack

/-- Something that is done with a state: an operation, a transfer, or a transaction under a meter. -/
inductive Task (ω : Type) : Type 1 where
  | operation (operation : Ledger.Operation)
  | transfer (sender recipient : Address) (amount : Balance)
  | transaction {α : Type} (environment : Environment ω) (meter : Meter) (program : Program ω α)

namespace Task

variable {ω : Type}

/-- What a task replies. -/
@[reducible] def Reply : Task ω → Type
  | .operation request => Except StorageError request.Reply
  | .transfer _ _ _ => Except RuntimeError Bool
  | @transaction _ α _ _ _ => Outcome α

/-- Does a task with a ledger and the outside world. -/
def run {σ : Type} [Ledger σ] : (task : Task ω) → σ → ω → task.Reply × σ × ω
  | .operation request, ledger, outside =>
    let (reply, ledger) := request.run.run.run ledger
    (reply, ledger, outside)
  | .transfer sender recipient amount, ledger, outside =>
    let (reply, ledger) := (Ledger.transfer sender recipient amount).run.run ledger
    (reply, ledger, outside)
  | .transaction environment meter program, ledger, outside =>
    let (result, x) :=
      (environment.run program).run (.withMeter environment meter ledger outside)
    (x.outcome result, x.ledger, x.outside)

end Task

/-- Tasks done one after the other, the next depending on what the last replied. -/
inductive Workload (ω α : Type) : Type 1 where
  | done (result : α)
  | ask (task : Task ω) (next : task.Reply → Workload ω α)

/-- Does all tasks. -/
def Workload.run {σ ω α : Type} [Ledger σ] : Workload ω α → σ → ω → α × σ × ω
  | done result, ledger, outside => (result, ledger, outside)
  | ask task next, ledger, outside =>
    let (reply, ledger, outside) := task.run ledger outside
    (next reply).run ledger outside

section Lockstep

variable {σ τ ω α : Type} [Ledger σ] [Ledger τ] {rel : σ → τ → Prop} {ledger : σ} {ledger' : τ}

/-- The ledgers are related and the outside world is the same. -/
def SameOutside (rel : σ → τ → Prop) (p : σ × ω) (q : τ × ω) : Prop := rel p.1 q.1 ∧ p.2 = q.2

omit [Ledger σ] [Ledger τ] in
theorem Execution.Beside.outcome_eq {x : Execution σ ω} {y : Execution τ ω}
    (beside : Execution.Beside rel [] [] [] x y) (result : α) :
    x.outcome result = y.outcome result := by
  have events : x.events = y.events := beside.events
  rw [outcome, outcome, beside.meter, beside.value, beside.recipient, events, beside.stack.eq rfl]

theorem agree_task (corresponds : Ledger.Corresponds rel) (related : rel ledger ledger')
    (task : Task ω) (outside : ω) :
    Agree (SameOutside rel) (task.run ledger outside) (task.run ledger' outside) := by
  cases task with
  | operation request =>
    have agree := corresponds.operation request ledger ledger' related
    exact ⟨agree.result, agree.state, rfl⟩
  | transfer sender recipient amount =>
    have agree := corresponds.transfer sender recipient amount ledger ledger' related
    exact ⟨agree.result, agree.state, rfl⟩
  | transaction environment meter program =>
    have start : Execution.Beside rel [] [] [] (.withMeter environment meter ledger outside)
        (.withMeter environment meter ledger' outside) :=
      ⟨⟨related, rfl, rfl, rfl, rfl, rfl⟩, .refl _⟩
    have agree := environment.agree_run_of_same corresponds program start
    refine ⟨?_, agree.state.ledger, agree.state.outside⟩
    show Execution.outcome ((environment.run program).run _).2 ((environment.run program).run _).1 =
      Execution.outcome ((environment.run program).run _).2 ((environment.run program).run _).1
    rw [agree.result]
    exact agree.state.outcome_eq _

theorem agree_workload (corresponds : Ledger.Corresponds rel) (related : rel ledger ledger')
    (workload : Workload ω α) (outside : ω) :
    Agree (SameOutside rel) (workload.run ledger outside) (workload.run ledger' outside) := by
  induction workload generalizing ledger ledger' outside with
  | done result => exact ⟨rfl, related, rfl⟩
  | ask task next ih =>
    have here := agree_task corresponds related task outside
    obtain ⟨related', same⟩ := here.state
    have later := ih (task.run ledger' outside).1 related' (task.run ledger' outside).2.2
    show Agree _ ((next (task.run ledger outside).1).run (task.run ledger outside).2.1
      (task.run ledger outside).2.2) _
    rw [here.result, same]
    exact later

end Lockstep

namespace Layers

/-- In whatever order the entries of a change set are carried out, they come to the same. A read at
the top of a stack of layers is a read of the base with the layers applied from the bottom up. Work
on an overlay of the stack comes to the same as on that state, result by result; it leaves the stack
below as it was, and committed, in any order, it makes a state that answers as the other does. -/
theorem overlay_commits {ω α : Type} (base : ChangeSet) (caches : List ChangeSet)
    (workload : Workload ω α) (outside : ω) :
    (∀ (held changes : ChangeSet) accounts slots, changes.Lists accounts slots →
      held.applyListed accounts slots = held.apply changes) ∧
    let below := stack base caches
    let state := caches.foldl .apply base
    let overlaid := workload.run below.cover outside
    let direct := workload.run state outside
    below.Shows state ∧ overlaid.1 = direct.1 ∧ overlaid.2.2 = direct.2.2 ∧
      overlaid.2.1.Shows direct.2.1 ∧
      ∃ changes, overlaid.2.1.uncover? = some (changes, below) ∧
        ∀ accounts slots, changes.Lists accounts slots →
          let committed := state.applyListed accounts slots
          committed.SameReads direct.2.1 ∧ committed.accountCount = direct.2.1.accountCount ∧
            ∀ owner, committed.liveSlots owner = direct.2.1.liveSlots owner := by
  refine ⟨fun held changes accounts slots listed => ChangeSet.applyListed_eq_apply listed held, ?_⟩
  intro below state overlaid direct
  have shows : below.Shows state := shows_stack base caches
  have covered : below.cover.Shows state :=
    ⟨fun address => by rw [account?_cover, shows.account?],
      fun cell => by rw [content, slot?_cover]; exact shows.content cell⟩
  have start : Mirrors below.toList below.cover state := ⟨rfl, covered⟩
  have agree := agree_workload corresponds_mirrors start workload outside
  obtain ⟨mirrors, world⟩ := agree.state
  refine ⟨shows, agree.result, world, mirrors.shows, overlaid.2.1.top, ?_, ?_⟩
  · rw [uncover?, mirrors.below]
    rfl
  intro accounts slots listed committed
  have applied : committed = state.apply overlaid.2.1.top :=
    ChangeSet.applyListed_eq_apply listed state
  have top : overlaid.2.1 = below.overlay overlaid.2.1.top :=
    congrArg (Layers.mk overlaid.2.1.top) mirrors.below
  have written : overlaid.2.1.Shows committed := by
    rw [top, applied]
    exact shows.overlay overlaid.2.1.top
  have same : committed.SameReads direct.2.1 :=
    ⟨fun address => (written.account? address).symm.trans (mirrors.shows.account? address),
      fun cell => (written.content cell).symm.trans (mirrors.shows.content cell)⟩
  exact ⟨same, same.accountCount, same.liveSlots⟩

/-- Clearing a slot on an overlay records a zero, which removes the slot from the base when the
changes are applied, here from the last to the first; the base still had it until then. -/
theorem overlay_commits_clearing :
    let cell : Cell := default
    let base := ChangeSet.empty.recordSlot cell (FixedBytes.takeList [1])
    let clearing : Workload Unit Unit := .ask (.operation (.setStorage cell .zero)) fun _ => .done ()
    base.liveSlots .zero = 1 ∧ ∃ changes,
      (clearing.run (stack base []).cover ()).2.1.uncover? = some (changes, ofBase base) ∧
        (base.applyListed changes.accounts.toList.reverse changes.slots.toList.reverse).liveSlots
          .zero = 0 := by
  intro cell base clearing
  have held : base.liveSlots .zero = 1 := by decide +kernel
  have cleared : (clearing.run base ()).2.1.liveSlots .zero = 0 := by decide +kernel
  obtain ⟨-, -, -, -, -, changes, uncovered, commits⟩ := overlay_commits base [] clearing ()
  have reversed : changes.Lists changes.accounts.toList.reverse changes.slots.toList.reverse :=
    ⟨List.reverse_perm _, List.reverse_perm _⟩
  have live := (commits _ _ reversed).2.2 .zero
  exact ⟨held, changes, uncovered, live.trans cleared⟩

end Layers

end ContractHost
