import Mathlib
import ContractHost.Ledger.Layers
import ContractHost.Ledger.Transfer
import ContractHost.Proofs.Fallible

/-!
# What a transfer comes to

On a ledger whose accesses do not fail a transfer is one equation (`eval_transfer`), with four ends:
the sender lacks the funds, nothing is to move, the recipient's balance does not fit, or the amount
moves. A failure undoes nothing, which matters in the third case, where the debit stands. It stands
in the top layer only, so that whoever ran the transfer on an overlay can drop it
(`transfer_failures`).
-/

namespace ContractHost

namespace Ledger

variable {σ : Type} [Ledger σ]

/-- Accesses to accounts do not fail: `account?` is what is read, and `record` is what a write makes,
which settles one account and leaves the others alone. -/
structure Reliable (account? : σ → Address → Option Account)
    (record : σ → Address → Account → σ) : Prop where
  eval_getAccount : ∀ ledger address,
    Fallible.eval (Ledger.getAccount address) ledger = (.ok (account? ledger address), ledger)
  eval_setAccount : ∀ ledger address account,
    Fallible.eval (Ledger.setAccount address account) ledger =
      (.ok (), record ledger address account)
  account?_record : ∀ ledger address account other,
    account? (record ledger address account) other =
      if address = other then some account else account? ledger other

/-- The account that is read at an address, an empty one when there is none. -/
def accountAt (account? : σ → Address → Option Account) (ledger : σ) (address : Address) : Account :=
  (account? ledger address).getD .empty

/-- An account with an amount taken out. -/
def debited (account : Account) (amount : Balance) : Account :=
  { account with balance := account.balance - amount }

/-- An account with an amount put in. -/
def credited (account : Account) (amount : Balance) : Account :=
  { account with balance := account.balance + amount }

namespace Reliable

variable {account? : σ → Address → Option Account} {record : σ → Address → Account → σ}
  (reliable : Reliable account? record) (ledger : σ)
include reliable

theorem eval_balance (address : Address) :
    Fallible.eval (balance address) ledger =
      (.ok (accountAt account? ledger address).balance, ledger) := by
  rw [balance, Fallible.eval_bind, reliable.eval_getAccount]
  rfl

theorem eval_subBalance (address : Address) (amount : Balance) :
    Fallible.eval (subBalance address amount) ledger =
      if (accountAt account? ledger address).balance < amount then (.ok false, ledger)
      else (.ok true, record ledger address (debited (accountAt account? ledger address) amount)) := by
  rw [subBalance, Fallible.eval_bind, reliable.eval_getAccount, Fallible.proceed_ok]
  show Fallible.eval (if (accountAt account? ledger address).balance < amount then _ else _) _ = _
  split
  · rfl
  · rw [Fallible.eval_bind, reliable.eval_setAccount]
    rfl

theorem eval_addBalance (address : Address) (amount : Balance) :
    Fallible.eval (addBalance address amount) ledger =
      if (accountAt account? ledger address).balance.uaddOverflow amount then
        (.error (.invalidFormat "balance overflow"), ledger)
      else (.ok (), record ledger address (credited (accountAt account? ledger address) amount)) := by
  rw [addBalance, Fallible.eval_bind, reliable.eval_getAccount, Fallible.proceed_ok]
  show Fallible.eval
    (if (accountAt account? ledger address).balance.uaddOverflow amount = true then _ else _) _ = _
  split
  · rfl
  · exact reliable.eval_setAccount ledger address _

/-- A transfer, with all its ends. -/
theorem eval_transfer (sender recipient : Address) (amount : Balance) :
    Fallible.eval (transfer sender recipient amount) ledger =
      let funds := accountAt account? ledger sender
      let held := accountAt account? ledger recipient
      let after := record ledger sender (debited funds amount)
      if funds.balance < amount then (.error (.insufficientBalance amount funds.balance), ledger)
      else if amount = 0 ∨ sender = recipient then (.ok false, ledger)
      else if held.balance.uaddOverflow amount then
        (.error (.storage (.invalidFormat "balance overflow")), after)
      else (.ok true, record after recipient (credited held amount)) := by
  extract_lets funds held after
  have debit := reliable.eval_subBalance ledger sender amount
  have credit := reliable.eval_addBalance after recipient amount
  rw [transfer, Fallible.eval_bind, LedgerM.eval_toRuntime, reliable.eval_balance]
  show Fallible.eval (if funds.balance < amount then _ else _) ledger = _
  by_cases short : funds.balance < amount
  · rw [if_pos short, if_pos short]
    rfl
  rw [if_neg short] at debit ⊢
  rw [if_neg short]
  by_cases still : amount = 0 ∨ sender = recipient
  · rw [if_pos still, if_pos still]
    rfl
  rw [if_neg still, if_neg still, Fallible.eval_bind, LedgerM.eval_toRuntime, debit]
  -- The debit does not touch the recipient.
  have apart : accountAt account? after recipient = held := by
    rw [accountAt, reliable.account?_record, if_neg fun same => still (.inr same)]
    rfl
  rw [apart] at credit
  show Fallible.eval (LedgerM.toRuntime (addBalance recipient amount) >>= fun _ => _) after = _
  rw [Fallible.eval_bind, LedgerM.eval_toRuntime, credit]
  split
  · rfl
  · rfl

end Reliable

end Ledger

namespace Layers

open Ledger (accountAt debited)

theorem reliable : Ledger.Reliable account? fun layers address account =>
    { layers with top := layers.top.recordAccount address account } where
  eval_getAccount _ _ := rfl
  eval_setAccount _ _ _ := rfl
  account?_record layers address account other := by
    rw [account?_eq, ChangeSet.account?_recordAccount]
    split
    · rfl
    · exact (account?_eq layers other).symm

variable {layers after : Layers} {sender recipient : Address} {amount : Balance}
  {cause : RuntimeError}

/-- A transfer fails because the sender lacks the funds, and then nothing has happened, or because
the recipient's balance does not fit, and then the debit of the sender is all that has, written to
the top layer. -/
theorem transfer_failures
    (failed : Fallible.eval (Ledger.transfer sender recipient amount) layers = (.error cause, after)) :
    let funds := accountAt account? layers sender
    let held := accountAt account? layers recipient
    (cause = .insufficientBalance amount funds.balance ∧ funds.balance < amount ∧ after = layers) ∨
      (cause = .storage (.invalidFormat "balance overflow") ∧
        amount ≤ funds.balance ∧ 2 ^ 128 ≤ held.balance.toNat + amount.toNat ∧
        sender ≠ recipient ∧ after.account? sender = some (debited funds amount) ∧
        (∀ other, other ≠ sender → after.account? other = layers.account? other) ∧
        (∀ cell, after.content cell = layers.content cell) ∧ after.below = layers.below) := by
  intro funds held
  rw [reliable.eval_transfer] at failed
  change (if funds.balance < amount then _ else _) = _ at failed
  split at failed
  · rename_i short
    cases failed
    exact .inl ⟨rfl, short, rfl⟩
  rename_i enough
  split at failed
  · cases failed
  rename_i moves
  split at failed
  · rename_i tooMuch
    cases failed
    have written := reliable.account?_record layers sender (debited funds amount)
    refine .inr ⟨rfl, BitVec.not_lt.1 enough, of_decide_eq_true tooMuch, ?_, ?_, ?_, ?_, rfl⟩
    · intro same
      exact moves (.inr same)
    · exact (written sender).trans (if_pos rfl)
    · intro other apart
      exact (written other).trans (if_neg (Ne.symm apart))
    · intro cell
      rfl
  · cases failed

/-- An overlay on a state in which a sender has funds, and a recipient can be given nothing more. -/
def overfull : Layers :=
  (ofBase ((ChangeSet.empty.recordAccount .zero (.ofBalance 5)).recordAccount
    (FixedBytes.takeList [1]) (.ofBalance (BitVec.allOnes 128)))).cover

theorem transfer_failures_overfull :
    let after := (Fallible.eval (Ledger.transfer .zero (FixedBytes.takeList [1]) 5) overfull).2
    after.account? .zero = some (.ofBalance 0) ∧ after.below = overfull.below := by
  intro after
  have ends := @transfer_failures overfull after .zero (FixedBytes.takeList [1]) 5 _ rfl
  rcases ends with ⟨lacks, -, -⟩ | ⟨-, -, -, -, sender, -, -, below⟩
  · cases lacks
  · have empty : debited (accountAt account? overfull .zero) 5 = .ofBalance 0 := by decide +kernel
    rw [empty] at sender
    exact ⟨sender, below⟩

/-- It is not so that after a failed transfer every account reads as it did before. -/
theorem not_transfer_atomic :
    ¬ ∀ (layers : Layers) (sender recipient : Address) (amount : Balance) (cause : RuntimeError)
        (after : Layers),
      Fallible.eval (Ledger.transfer sender recipient amount) layers = (.error cause, after) →
        ∀ address, after.account? address = layers.account? address := by
  intro atomic
  have same := atomic overfull .zero (FixedBytes.takeList [1]) 5 _ _ rfl .zero
  revert same
  decide +kernel

end Layers

end ContractHost
