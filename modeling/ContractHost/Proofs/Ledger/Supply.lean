import Mathlib
import ContractHost.Proofs.Ledger.Slots
import ContractHost.Proofs.Ledger.Transfers

/-!
# The supply

All balances that a change set records, added up. To record an account changes the supply by the
difference between the new balance and the one it replaces (`supply_recordAccount`), and two
accounts never hold more than the supply between them (`balanceAt_add_le_supply`). Hence funds that
move from one account to another leave the supply as it was, and a recipient's balance has room for
them whenever the supply does, whatever the two accounts hold (`settled_make`). So it is after any
history of payments (`supply_conserved`).
-/

namespace ContractHost

open Ledger (accountAt debited credited)

namespace ChangeSet

theorem reliable : Ledger.Reliable account? recordAccount where
  eval_getAccount _ _ := rfl
  eval_setAccount _ _ _ := rfl
  account?_record changes address account other :=
    account?_recordAccount changes address other account

/-! ## Adding balances up -/

/-- The balance that is read at an address, as a number. -/
def balanceAt (changes : ChangeSet) (address : Address) : Nat :=
  (accountAt account? changes address).balance.toNat

/-- The sum of all balances. -/
def supply (changes : ChangeSet) : Nat :=
  (changes.accounts.toList.map fun recorded => recorded.2.balance.toNat).sum

/-- The addresses at which accounts are recorded. -/
def holders (changes : ChangeSet) : Finset Address := changes.accounts.keys.toFinset

theorem mem_holders (changes : ChangeSet) (address : Address) :
    address ∈ changes.holders ↔ (changes.account? address).isSome = true := by
  rw [holders, List.mem_toFinset, Std.ExtTreeMap.mem_keys, Std.ExtTreeMap.mem_iff_isSome_getElem?]
  rfl

theorem balanceAt_of_notMem {changes : ChangeSet} {address : Address}
    (missing : address ∉ changes.holders) : changes.balanceAt address = 0 := by
  rw [mem_holders, Option.not_isSome_iff_eq_none] at missing
  rw [balanceAt, accountAt, missing]
  rfl

theorem balanceAt_of_mem_toList {changes : ChangeSet} {recorded : Address × Account}
    (member : recorded ∈ changes.accounts.toList) :
    changes.balanceAt recorded.1 = recorded.2.balance.toNat := by
  have found : changes.account? recorded.1 = some recorded.2 :=
    Std.ExtTreeMap.mem_toList_iff_getElem?_eq_some.1 member
  rw [balanceAt, accountAt, found, Option.getD_some]

/-- Addresses without accounts may be counted in. -/
theorem supply_eq_sum {changes : ChangeSet} {addresses : Finset Address}
    (all : changes.holders ⊆ addresses) :
    changes.supply = ∑ address ∈ addresses, changes.balanceAt address := by
  have listed : changes.supply = (changes.accounts.keys.map changes.balanceAt).sum := by
    rw [supply, ← Std.ExtTreeMap.map_fst_toList_eq_keys, List.map_map]
    exact congrArg List.sum (List.map_congr_left fun recorded member =>
      (balanceAt_of_mem_toList member).symm)
  rw [listed, ← List.sum_toFinset _ Std.ExtTreeMap.nodup_keys]
  exact Finset.sum_subset all fun address _ missing => balanceAt_of_notMem missing

theorem balanceAt_recordAccount (changes : ChangeSet) (address : Address) (account : Account) :
    (changes.recordAccount address account).balanceAt =
      Function.update changes.balanceAt address account.balance.toNat := by
  funext other
  rw [balanceAt, accountAt, account?_recordAccount, Function.update_apply]
  by_cases same : address = other
  · rw [if_pos same, if_pos same.symm, Option.getD_some]
  · rw [if_neg same, if_neg (Ne.symm same)]
    rfl

/-- What is recorded comes to the supply, and what it replaces goes. -/
theorem supply_recordAccount (changes : ChangeSet) (address : Address) (account : Account) :
    (changes.recordAccount address account).supply + changes.balanceAt address =
      changes.supply + account.balance.toNat := by
  let addresses := insert address changes.holders
  have member : address ∈ addresses := Finset.mem_insert_self _ _
  have before : changes.holders ⊆ addresses := Finset.subset_insert _ _
  have after : (changes.recordAccount address account).holders ⊆ addresses := by
    intro other recorded
    rw [mem_holders, account?_recordAccount] at recorded
    rw [Finset.mem_insert, mem_holders]
    split at recorded
    · rename_i same
      exact .inl same.symm
    · exact .inr recorded
  rw [supply_eq_sum after, supply_eq_sum before, balanceAt_recordAccount,
    Finset.sum_update_of_mem member, ← Finset.add_sum_erase _ _ member,
    Finset.sdiff_singleton_eq_erase]
  omega

theorem balanceAt_add_le_supply (changes : ChangeSet) {address other : Address}
    (apart : address ≠ other) :
    changes.balanceAt address + changes.balanceAt other ≤ changes.supply := by
  have all : changes.holders ⊆ {address, other} ∪ changes.holders := Finset.subset_union_right
  rw [supply_eq_sum all, ← Finset.sum_pair apart]
  exact Finset.sum_le_sum_of_subset Finset.subset_union_left

end ChangeSet

/-! ## Payments -/

/-- Funds that one account is to pay to another. -/
structure Payment where
  sender : Address
  recipient : Address
  amount : Balance
deriving DecidableEq, Repr

namespace Payment

/-- Makes a payment. -/
def make (payment : Payment) (changes : ChangeSet) : Except RuntimeError Bool × ChangeSet :=
  Fallible.eval (Ledger.transfer payment.sender payment.recipient payment.amount) changes

/-- What a payment comes to: it is refused just when the sender's balance is less than the amount,
and fails for no other reason; otherwise the amount moves. All else is as it was. -/
structure Settled (payment : Payment) (before : ChangeSet)
    (outcome : Except RuntimeError Bool × ChangeSet) : Prop where
  fails_iff : (∃ cause, outcome.1 = .error cause) ↔
    before.balanceAt payment.sender < payment.amount.toNat
  refused : ∀ cause, outcome.1 = .error cause →
    cause = .insufficientBalance payment.amount
      (accountAt ChangeSet.account? before payment.sender).balance ∧ outcome.2 = before
  moved : ∀ answer, outcome.1 = .ok answer → payment.sender ≠ payment.recipient →
    outcome.2.balanceAt payment.sender + payment.amount.toNat =
        before.balanceAt payment.sender ∧
      outcome.2.balanceAt payment.recipient =
        before.balanceAt payment.recipient + payment.amount.toNat
  still : payment.amount = 0 ∨ payment.sender = payment.recipient → outcome.2 = before
  supply : outcome.2.supply = before.supply
  nonce : ∀ address account, before.account? address = some account →
    ∃ account', outcome.2.account? address = some account' ∧ account'.nonce = account.nonce
  others : ∀ address, address ≠ payment.sender → address ≠ payment.recipient →
    outcome.2.account? address = before.account? address
  slots : outcome.2.slots = before.slots

variable {payment : Payment} {before : ChangeSet}

/-- A payment that leaves the state as it was is settled when it is refused for want of funds, or
when there was nothing to move. -/
theorem settled_of_unchanged {result : Except RuntimeError Bool}
    (fails_iff : (∃ cause, result = .error cause) ↔
      before.balanceAt payment.sender < payment.amount.toNat)
    (refused : ∀ cause, result = .error cause →
      cause = .insufficientBalance payment.amount
        (accountAt ChangeSet.account? before payment.sender).balance)
    (still : ∀ answer, result = .ok answer →
      payment.amount = 0 ∨ payment.sender = payment.recipient) :
    payment.Settled before (result, before) where
  fails_iff := fails_iff
  refused cause failed := ⟨refused cause failed, rfl⟩
  moved answer answered apart := by
    have zero : payment.amount = 0 := (still answer answered).resolve_right apart
    rw [zero]
    exact ⟨rfl, rfl⟩
  still _ := rfl
  supply := rfl
  nonce address account found := ⟨account, found, rfl⟩
  others _ _ _ := rfl
  slots := rfl

/-- An account keeps its nonce when another balance is recorded. -/
theorem nonce_recordAccount {changes : ChangeSet} {address other : Address}
    {account account' : Account}
    (kept : account'.nonce = (accountAt ChangeSet.account? changes address).nonce)
    (found : changes.account? other = some account) :
    ∃ after, (changes.recordAccount address account').account? other = some after ∧
      after.nonce = account.nonce := by
  rw [ChangeSet.account?_recordAccount]
  split
  · rename_i same
    subst same
    refine ⟨account', rfl, ?_⟩
    rw [kept, accountAt, found, Option.getD_some]
  · exact ⟨account, found, rfl⟩

/-- A payment whose amount is taken from the sender and added to another recipient. -/
theorem settled_of_ne (enough : payment.amount.toNat ≤ before.balanceAt payment.sender)
    (apart : payment.sender ≠ payment.recipient) (moves : payment.amount ≠ 0)
    (room : before.balanceAt payment.recipient + payment.amount.toNat < 2 ^ 128) :
    let funds := accountAt ChangeSet.account? before payment.sender
    let held := accountAt ChangeSet.account? before payment.recipient
    payment.Settled before (.ok true,
      (before.recordAccount payment.sender (debited funds payment.amount)).recordAccount
        payment.recipient (credited held payment.amount)) := by
  intro funds held
  let between := before.recordAccount payment.sender (debited funds payment.amount)
  have less : (debited funds payment.amount).balance.toNat =
      before.balanceAt payment.sender - payment.amount.toNat :=
    BitVec.toNat_sub_of_le enough
  have more : (credited held payment.amount).balance.toNat =
      before.balanceAt payment.recipient + payment.amount.toNat :=
    BitVec.toNat_add_of_lt room
  have debit : between.balanceAt = Function.update before.balanceAt payment.sender
      (before.balanceAt payment.sender - payment.amount.toNat) :=
    (before.balanceAt_recordAccount _ _).trans (congrArg _ less)
  have untouched : between.balanceAt payment.recipient = before.balanceAt payment.recipient := by
    rw [debit, Function.update_of_ne apart.symm]
  have credit : (between.recordAccount payment.recipient (credited held payment.amount)).balanceAt =
      Function.update between.balanceAt payment.recipient
        (before.balanceAt payment.recipient + payment.amount.toNat) :=
    (between.balanceAt_recordAccount _ _).trans (congrArg _ more)
  constructor
  case fails_iff =>
    constructor
    · rintro ⟨cause, failed⟩
      cases failed
    · intro short
      omega
  case refused =>
    intro cause failed
    cases failed
  case moved =>
    intro answer _ _
    constructor
    · rw [credit, Function.update_of_ne apart, debit, Function.update_self]
      omega
    · rw [credit, Function.update_self]
  case still =>
    intro still
    rcases still with zero | same
    · exact absurd zero moves
    · exact absurd same apart
  case supply =>
    have out : between.supply + before.balanceAt payment.sender =
        before.supply + (debited funds payment.amount).balance.toNat :=
      before.supply_recordAccount payment.sender _
    have back := between.supply_recordAccount payment.recipient (credited held payment.amount)
    rw [less] at out
    rw [untouched, more] at back
    show (between.recordAccount payment.recipient _).supply = before.supply
    omega
  case nonce =>
    intro address account found
    have first : (debited funds payment.amount).nonce =
        (accountAt ChangeSet.account? before payment.sender).nonce := rfl
    obtain ⟨once, found', kept⟩ := nonce_recordAccount first found
    have same : (credited held payment.amount).nonce =
        (accountAt ChangeSet.account? between payment.recipient).nonce := by
      rw [accountAt, ChangeSet.account?_recordAccount, if_neg apart]
      rfl
    obtain ⟨twice, found'', kept'⟩ := nonce_recordAccount same found'
    exact ⟨twice, found'', kept'.trans kept⟩
  case others =>
    intro address notSender notRecipient
    rw [ChangeSet.account?_recordAccount, if_neg (Ne.symm notRecipient),
      ChangeSet.account?_recordAccount, if_neg (Ne.symm notSender)]
  case slots => rfl

/-- Where the supply fits in a balance, every payment is settled. -/
theorem settled_make (fits : before.supply < 2 ^ 128) (payment : Payment) :
    payment.Settled before (payment.make before) := by
  rw [make, ChangeSet.reliable.eval_transfer]
  extract_lets funds held after
  by_cases short : funds.balance < payment.amount
  · rw [if_pos short]
    refine settled_of_unchanged ⟨fun _ => BitVec.lt_def.1 short, fun _ => ⟨_, rfl⟩⟩ ?_ ?_
    · intro cause failed
      exact (Except.error.inj failed).symm
    · intro answer answered
      cases answered
  have enough : payment.amount.toNat ≤ before.balanceAt payment.sender :=
    BitVec.le_def.1 (BitVec.not_lt.1 short)
  rw [if_neg short]
  by_cases still : payment.amount = 0 ∨ payment.sender = payment.recipient
  · rw [if_pos still]
    refine settled_of_unchanged ⟨?_, fun less => absurd less (Nat.not_lt.2 enough)⟩ ?_
      fun _ _ => still
    · rintro ⟨cause, failed⟩
      cases failed
    · intro cause failed
      cases failed
  obtain ⟨moves, apart⟩ := not_or.1 still
  have between := before.balanceAt_add_le_supply apart
  have room : before.balanceAt payment.recipient + payment.amount.toNat < 2 ^ 128 := by omega
  have noOverflow : ¬ held.balance.uaddOverflow payment.amount = true := by
    rw [BitVec.uaddOverflow, decide_eq_true_iff]
    exact Nat.not_le.2 room
  rw [if_neg still, if_neg noOverflow]
  exact settled_of_ne enough apart moves room

/-- The state after payments that are made one after the other, whatever comes of them. -/
def settleAll (payments : List Payment) (changes : ChangeSet) : ChangeSet :=
  payments.foldl (fun changes payment => (payment.make changes).2) changes

theorem supply_settleAll {start : ChangeSet} (fits : start.supply < 2 ^ 128)
    (payments : List Payment) : (settleAll payments start).supply = start.supply := by
  induction payments generalizing start with
  | nil => rfl
  | cons payment payments ih =>
    have kept : (payment.make start).2.supply = start.supply := (settled_make fits payment).supply
    exact (ih (kept.symm ▸ fits)).trans kept

/-- Where the balances fit in a balance together, no history of payments changes their sum, and each
payment that follows is settled. -/
theorem supply_conserved {start : ChangeSet} (fits : start.supply < 2 ^ 128)
    (history : List Payment) (payment : Payment) :
    let before := settleAll history start
    before.supply = start.supply ∧ payment.Settled before (payment.make before) := by
  intro before
  have kept : before.supply = start.supply := supply_settleAll fits history
  exact ⟨kept, settled_make (kept.symm ▸ fits) payment⟩

/-- Two accounts with all funds that fit in a balance. -/
def brimful : ChangeSet :=
  (ChangeSet.empty.recordAccount .zero ⟨7, 5⟩).recordAccount (.ofUInt64 1)
    (.ofBalance (BitVec.allOnes 128 - 5))

/-- One pays itself, nothing is paid to an account that is not there, then more than there is, and
then some. -/
def dealings : List Payment :=
  [⟨.zero, .zero, 5⟩, ⟨.zero, .ofUInt64 2, 0⟩, ⟨.zero, .ofUInt64 2, 6⟩, ⟨.zero, .ofUInt64 2, 2⟩]

/-- The rest of the funds moves to an account that then holds almost all there is. -/
theorem supply_conserved_brimful :
    let before := settleAll dealings brimful
    let after := ((Payment.mk .zero (.ofUInt64 1) 3).make before).2
    brimful.supply = 2 ^ 128 - 1 ∧ before.supply = 2 ^ 128 - 1 ∧ after.supply = 2 ^ 128 - 1 ∧
      after.balanceAt .zero = 0 ∧ after.balanceAt (.ofUInt64 1) = 2 ^ 128 - 3 := by
  intro before after
  have full : brimful.supply = 2 ^ 128 - 1 := by decide +kernel
  have fits : brimful.supply < 2 ^ 128 := by omega
  obtain ⟨kept, settled⟩ := supply_conserved fits dealings ⟨.zero, .ofUInt64 1, 3⟩
  have paid : ((Payment.mk .zero (.ofUInt64 1) 3).make before).1 = .ok true := by decide +kernel
  have moved : after.balanceAt .zero + 3 = before.balanceAt .zero ∧
      after.balanceAt (.ofUInt64 1) = before.balanceAt (.ofUInt64 1) + 3 :=
    settled.moved true paid (by decide)
  have left : before.balanceAt .zero = 3 := by decide +kernel
  have held : before.balanceAt (.ofUInt64 1) = 2 ^ 128 - 6 := by decide +kernel
  refine ⟨full, kept.trans full, settled.supply.trans (kept.trans full), ?_, ?_⟩
  · omega
  · omega

end Payment

end ContractHost
