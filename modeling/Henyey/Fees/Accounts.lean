import Henyey.TxQueue.Envelope
import Mathlib.Algebra.BigOperators.Group.Finset.Basic

/-!
# Account balances during a ledger close

The accounts a close has changed, over the snapshot it started from. A fee is
taken from what an account has, and a refund goes only to an account the close
has changed and not deleted. A panic is `none`.
-/

namespace Henyey.Fees

open Henyey.TxQueue
open Function

/-- An account entry, as far as fees read it. -/
structure AccountEntry where
  balance : Int
  buyingLiabilities : Int
  lastModifiedLedgerSeq : Nat
deriving DecidableEq

/-- What a close has done to an account. -/
inductive EntryChange where
  | created (entry : AccountEntry)
  | updated (previous current : AccountEntry)
  | deleted (previous : AccountEntry)
deriving DecidableEq

def EntryChange.currentEntry : EntryChange → Option AccountEntry
  | .created entry => some entry
  | .updated _ current => some current
  | .deleted _ => none

/-- The account changes of the ledger delta. -/
abbrev Changes : Type := AccountKey → Option EntryChange

/-- The accounts at the start of the ledger. -/
abbrev Snapshot : Type := AccountKey → Option AccountEntry

def Changes.getCurrentEntry (changes : Changes) (id : AccountKey) : Option AccountEntry :=
  (changes id).bind EntryChange.currentEntry

/-- The account as the close sees it. -/
def visible (changes : Changes) (snapshot : Snapshot) (id : AccountKey) : Option AccountEntry :=
  match changes id with
  | some change => change.currentEntry
  | none => snapshot id

def balanceOf (changes : Changes) (snapshot : Snapshot) (id : AccountKey) : Int :=
  ((visible changes snapshot id).map AccountEntry.balance).getD 0

/-- Subtract from a balance; the amount and the rest must not be negative. -/
def subAccountBalance (entry : AccountEntry) (amount : Int) : Option AccountEntry :=
  if amount < 0 then none
  else if entry.balance - amount < 0 then none
  else some { entry with balance := entry.balance - amount }

/-- The entries before and after a change, as the meta lists them. -/
abbrev EntryChanges : Type := Option (AccountEntry × AccountEntry)

/-- An account that the delta does not hold yet is recorded as updated. -/
def deductedChange (change : Option EntryChange) (before after : AccountEntry) : EntryChange :=
  match change with
  | some (.created _) => .created after
  | some (.updated previous _) => .updated previous after
  | _ => .updated before after

/-- Take a fee from an account, as much of it as the balance covers. -/
def deductFeeFromAccount (changes : Changes) (snapshot : Snapshot) (ledgerSeq : Nat)
    (id : AccountKey) (fee : Int) : Option (Int × EntryChanges × Changes) :=
  match visible changes snapshot id with
  | none => some (0, none, changes)
  | some before => do
    let chargedFee := min before.balance fee
    let reduced ← subAccountBalance before chargedFee
    let after :=
      if chargedFee > 0 then { reduced with lastModifiedLedgerSeq := ledgerSeq } else reduced
    return (chargedFee, if chargedFee > 0 then some (before, after) else none,
      update changes id (some (deductedChange (changes id) before after)))

/-- Add to a balance, unless it overflows or leaves no room for the buying liabilities.
The source asserts that the balance is not negative. -/
def tryAddAccountBalance (entry : AccountEntry) (amount : Int) : Option AccountEntry :=
  if entry.balance + amount < 0 ∨ entry.balance + amount > i64Max then none
  else if entry.balance + amount > i64Max - entry.buyingLiabilities then none
  else some { entry with balance := entry.balance + amount }

/-- Credit a refund to an account the close has changed; none when it cannot be credited. -/
def applyRefundToAccount (changes : Changes) (id : AccountKey) (refund : Int) : Option Changes :=
  match changes id with
  | some (.created entry) =>
    (tryAddAccountBalance entry refund).map fun credited =>
      update changes id (some (.created credited))
  | some (.updated previous current) =>
    (tryAddAccountBalance current refund).map fun credited =>
      update changes id (some (.updated previous credited))
  | _ => none

/-- The balances of some accounts together. -/
def totalBalance (changes : Changes) (snapshot : Snapshot) (ids : Finset AccountKey) : Int :=
  ∑ id ∈ ids, balanceOf changes snapshot id

variable {snapshot : Snapshot}

theorem balanceOf_update_ne {changes : Changes} {id other : AccountKey}
    {change : Option EntryChange} (hne : other ≠ id) :
    balanceOf (update changes id change) snapshot other = balanceOf changes snapshot other := by
  simp [balanceOf, visible, update_of_ne hne]

variable {id : AccountKey}

theorem totalBalance_update {changes : Changes} {change : EntryChange} {entry : AccountEntry}
    (hentry : change.currentEntry = some entry) {ids : Finset AccountKey} (hid : id ∈ ids) :
    totalBalance (update changes id (some change)) snapshot ids =
      totalBalance changes snapshot ids - balanceOf changes snapshot id + entry.balance := by
  have hself : balanceOf (update changes id (some change)) snapshot id = entry.balance := by
    simp [balanceOf, visible, hentry]
  rw [totalBalance, totalBalance, ← Finset.add_sum_erase ids _ hid, ← Finset.add_sum_erase ids _ hid,
    hself]
  have hrest : ∑ other ∈ ids.erase id,
      balanceOf (update changes id (some change)) snapshot other =
        ∑ other ∈ ids.erase id, balanceOf changes snapshot other :=
    Finset.sum_congr rfl fun other hother => balanceOf_update_ne (Finset.ne_of_mem_erase hother)
  omega

theorem subAccountBalance_eq_some {entry reduced : AccountEntry} {amount : Int}
    (hsub : subAccountBalance entry amount = some reduced) :
    0 ≤ amount ∧ reduced.balance = entry.balance - amount := by
  unfold subAccountBalance at hsub
  split at hsub
  · cases hsub
  next hamount =>
    split at hsub
    · cases hsub
    · cases hsub
      exact ⟨not_lt.mp hamount, rfl⟩

theorem currentEntry_deductedChange (change : Option EntryChange) (before after : AccountEntry) :
    (deductedChange change before after).currentEntry = some after := by
  unfold deductedChange
  split <;> rfl

theorem deductFeeFromAccount_spec {changes after : Changes} {ledgerSeq : Nat} {fee charged : Int}
    {feeChanges : EntryChanges} (hdeduct : deductFeeFromAccount changes snapshot ledgerSeq id fee =
      some (charged, feeChanges, after)) :
    0 ≤ charged ∧ (charged = 0 ∨ charged ≤ fee) ∧
      ∀ ids : Finset AccountKey, id ∈ ids →
        totalBalance after snapshot ids = totalBalance changes snapshot ids - charged := by
  unfold deductFeeFromAccount at hdeduct
  split at hdeduct
  · cases hdeduct
    exact ⟨le_rfl, .inl rfl, fun ids _ => (sub_zero _).symm⟩
  next before hbefore =>
    rw [Option.bind_eq_bind, Option.bind_eq_some_iff] at hdeduct
    obtain ⟨reduced, hreduced, hdeduct⟩ := hdeduct
    obtain ⟨hnonneg, hbalance⟩ := subAccountBalance_eq_some hreduced
    obtain ⟨rfl, hrest⟩ := Prod.mk.inj (Option.some.inj hdeduct)
    obtain ⟨-, rfl⟩ := Prod.mk.inj hrest
    refine ⟨hnonneg, .inr (min_le_right _ _), fun ids hid => ?_⟩
    have hself : balanceOf changes snapshot id = before.balance := by
      simp [balanceOf, hbefore]
    rw [totalBalance_update (currentEntry_deductedChange _ _ _) hid, hself]
    generalize hafter : (if min before.balance fee > 0 then
      { reduced with lastModifiedLedgerSeq := ledgerSeq } else reduced) = last
    have hlast : last.balance = reduced.balance := by
      rw [← hafter]
      split <;> rfl
    omega

theorem tryAddAccountBalance_eq_some {entry credited : AccountEntry} {amount : Int}
    (hadd : tryAddAccountBalance entry amount = some credited) :
    credited.balance = entry.balance + amount := by
  unfold tryAddAccountBalance at hadd
  split at hadd
  · cases hadd
  · split at hadd
    · cases hadd
    · cases hadd
      rfl

theorem applyRefundToAccount_spec {changes after : Changes} {refund : Int}
    (happly : applyRefundToAccount changes id refund = some after) {ids : Finset AccountKey}
    (hid : id ∈ ids) :
    totalBalance after snapshot ids = totalBalance changes snapshot ids + refund := by
  unfold applyRefundToAccount at happly
  split at happly
  next entry hchange =>
    obtain ⟨credited, hcredited, rfl⟩ := Option.map_eq_some_iff.mp happly
    have hself : balanceOf changes snapshot id = entry.balance := by
      simp [balanceOf, visible, hchange, EntryChange.currentEntry]
    rw [totalBalance_update rfl hid, hself, tryAddAccountBalance_eq_some hcredited]
    omega
  next previous current hchange =>
    obtain ⟨credited, hcredited, rfl⟩ := Option.map_eq_some_iff.mp happly
    have hself : balanceOf changes snapshot id = current.balance := by
      simp [balanceOf, visible, hchange, EntryChange.currentEntry]
    rw [totalBalance_update rfl hid, hself, tryAddAccountBalance_eq_some hcredited]
    omega
  · cases happly

end Henyey.Fees
