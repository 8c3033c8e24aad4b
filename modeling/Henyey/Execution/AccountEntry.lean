import Mathlib.Data.List.Basic
import Henyey.Foundation.Failing

/-!
# Accounts during a close

The account entries with what the sequence rules, the merge and the creation of
accounts read of them, and the counts that sponsorship keeps.
-/

namespace Henyey.Execution

open Foundation (Ensures)

variable {α η : Type} [DecidableEq α] [DecidableEq η]

def i64Max : Int := 9223372036854775807

def i32Max : Nat := 2147483647

def u32Max : Nat := 4294967295

inductive TxError where
  | sourceAccountNotFound
  | tooManySponsoring
  | balance
  | internal (message : String)
deriving DecidableEq

inductive SignerKey (η : Type) where
  | preAuthTx (hash : η)
  | other (key : η)
deriving DecidableEq

/-- A signer, with the descriptor of its sponsor. -/
structure Signer (α η : Type) where
  key : SignerKey η
  weight : Nat
  sponsor : Option α
deriving DecidableEq

structure AccountEntry (α η : Type) where
  balance : Int
  seqNum : Int
  numSubEntries : Nat
  flags : Nat
  signers : List (Signer α η)
  buyingLiabilities : Int
  sellingLiabilities : Int
  numSponsored : Nat
  numSponsoring : Nat
  seqLedger : Nat
  seqTime : Nat
  /-- Who sponsors the entry itself. -/
  sponsor : Option α
deriving DecidableEq

/-- The accounts as the executor sees them. -/
abbrev Accounts (α η : Type) : Type := α → Option (AccountEntry α η)

def Accounts.set (accounts : Accounts α η) (id : α) (entry : AccountEntry α η) : Accounts α η :=
  Function.update accounts id (some entry)

def Accounts.delete (accounts : Accounts α η) (id : α) : Accounts α η :=
  Function.update accounts id none

/-- An account with what a creation or an operation of the code assigns, except that its
sequence number stays: no other code assigns one. -/
def Accounts.rewrite (accounts : Accounts α η)
    (entries : α → AccountEntry α η → AccountEntry α η) : Accounts α η :=
  fun id => (accounts id).map fun entry => { entries id entry with seqNum := entry.seqNum }

namespace AccountEntry

variable (entry : AccountEntry α η)

/-- `AUTH_IMMUTABLE_FLAG`. -/
def isImmutable : Bool := entry.flags &&& 4 != 0

def subBalance (amount : Int) : Except TxError (AccountEntry α η) :=
  if amount < 0 then .error .balance
  else if entry.balance - amount < 0 then .error .balance
  else .ok { entry with balance := entry.balance - amount }

def addBalance (delta : Int) : Except TxError (AccountEntry α η) :=
  if delta < 0 then .error .balance
  else if entry.balance + delta > i64Max - entry.buyingLiabilities then .error .balance
  else .ok { entry with balance := entry.balance + delta }

def balanceAfterLiabilities : Int := entry.balance - entry.sellingLiabilities

/-- Record when the sequence number was last written. -/
def updateSeqInfo (ledgerSeq closeTime : Nat) : AccountEntry α η :=
  { entry with seqLedger := ledgerSeq, seqTime := closeTime }

end AccountEntry

def minimumBalanceWithCounts (baseReserve numSubEntries numSponsoring numSponsored : Int) :
    Except TxError Int :=
  let effectiveEntries := 2 + numSubEntries + numSponsoring - numSponsored
  if effectiveEntries < 0 then
    .error (.internal "unexpected account state while computing minimum balance")
  else .ok (effectiveEntries * baseReserve)

def checkNumSponsoringOverflow (entry : AccountEntry α η) (delta : Int) : Except TxError Unit :=
  let updated := (entry.numSponsoring : Int) + delta
  if updated < 0 ∨ updated > u32Max then .error .tooManySponsoring
  else if updated + entry.numSubEntries > u32Max then .error .tooManySponsoring
  else .ok ()

def updateNumSponsoring (accounts : Accounts α η) (id : α) (delta : Int) :
    Except TxError (Accounts α η) :=
  match accounts id with
  | none => .error .sourceAccountNotFound
  | some entry => do
    checkNumSponsoringOverflow entry delta
    return accounts.set id
      { entry with numSponsoring := ((entry.numSponsoring : Int) + delta).toNat }

/-- The sponsor of a signer and the account that holds it each lose one count. -/
def releaseSignerSponsor (accounts : Accounts α η) (id : α) (entry : AccountEntry α η)
    (sponsor : α) : Except TxError (Accounts α η) :=
  match accounts sponsor with
  | none => .error (.internal "sponsor account missing during signer removal")
  | some sponsorEntry =>
    if sponsorEntry.numSponsoring < 1 then
      .error (.internal "invalid sponsoring account state: num_sponsoring < 1")
    else if entry.numSubEntries < 1 then
      .error (.internal "invalid sponsored account state: num_sub_entries < 1")
    else if entry.numSponsored < 1 then
      .error (.internal "invalid sponsored account state: num_sponsored < 1")
    else
      let accounts := accounts.set sponsor
        { sponsorEntry with numSponsoring := sponsorEntry.numSponsoring - 1 }
      .ok (accounts.rewrite fun other entry =>
        if other = id then { entry with numSponsored := entry.numSponsored - 1 } else entry)

/-- The checks before a signer is removed, and the counts of its sponsor. -/
def releaseSigner (accounts : Accounts α η) (id : α) (entry : AccountEntry α η)
    (signer : Signer α η) : Except TxError (Accounts α η) :=
  match signer.sponsor with
  | some sponsor => releaseSignerSponsor accounts id entry sponsor
  | none =>
    if entry.numSubEntries < 1 then
      .error (.internal "invalid account state: num_sub_entries < 1")
    else .ok accounts

def removeAccountSigner (accounts : Accounts α η) (id : α) (signerKey : SignerKey η) :
    Except TxError (Accounts α η) :=
  match accounts id with
  | none => .ok accounts
  | some entry =>
    match entry.signers.find? (·.key = signerKey) with
    | none => .ok accounts
    | some signer => do
      let accounts ← releaseSigner accounts id entry signer
      return accounts.rewrite fun other entry =>
        if other = id then
          { entry with
            signers := entry.signers.eraseP (·.key = signerKey)
            numSubEntries := entry.numSubEntries - 1 }
        else entry

def removeOneTimeSignersFromAllSources (accounts : Accounts α η) (txHash : η)
    (sourceAccounts : List α) : Except TxError (Accounts α η) :=
  sourceAccounts.foldlM (fun accounts id => removeAccountSigner accounts id (.preAuthTx txHash))
    accounts

/-- What holds of every two entries that an update of accounts takes to each other: none
is created or deleted and no sequence number changes. -/
def SameNumbers (before after : Accounts α η) : Prop :=
  ∀ id, (after id).map AccountEntry.seqNum = (before id).map AccountEntry.seqNum

namespace SameNumbers

variable {before mid after accounts accounts' : Accounts α η} {id : α}
  {entry entry' : AccountEntry α η}

section

omit [DecidableEq α] [DecidableEq η]

theorem refl (accounts : Accounts α η) : SameNumbers accounts accounts := fun _ => rfl

theorem trans (h : SameNumbers before mid) (h' : SameNumbers mid after) :
    SameNumbers before after := fun id => (h' id).trans (h id)

end

omit [DecidableEq η] in
theorem set (hentry : accounts id = some entry) (hseq : entry'.seqNum = entry.seqNum) :
    SameNumbers accounts (accounts.set id entry') := by
  intro other
  by_cases hother : other = id
  · subst hother
    simp [Accounts.set, hentry, hseq]
  · simp [Accounts.set, Function.update_of_ne hother]

omit [DecidableEq α] [DecidableEq η] in
theorem rewrite (accounts : Accounts α η) (entries : α → AccountEntry α η → AccountEntry α η) :
    SameNumbers accounts (accounts.rewrite entries) := by
  intro id
  unfold Accounts.rewrite
  cases accounts id <;> rfl

theorem updateNumSponsoring (accounts : Accounts α η) (id : α) (delta : Int) :
    Ensures (SameNumbers accounts) (updateNumSponsoring accounts id delta) := by
  unfold Execution.updateNumSponsoring
  split
  · exact .error
  next entry hentry =>
    exact .skip fun _ => .ok (set hentry rfl)

theorem releaseSignerSponsor (accounts : Accounts α η) (id : α) (entry : AccountEntry α η)
    (sponsor : α) :
    Ensures (SameNumbers accounts) (releaseSignerSponsor accounts id entry sponsor) := by
  unfold Execution.releaseSignerSponsor
  split
  · exact .error
  next sponsorEntry hsponsor =>
    split_ifs
    · exact .error
    · exact .error
    · exact .error
    · have hset : SameNumbers accounts (accounts.set sponsor
          { sponsorEntry with numSponsoring := sponsorEntry.numSponsoring - 1 }) :=
        set hsponsor rfl
      exact .ok (hset.trans (rewrite _ _))

theorem releaseSigner (accounts : Accounts α η) (id : α) (entry : AccountEntry α η)
    (signer : Signer α η) :
    Ensures (SameNumbers accounts) (releaseSigner accounts id entry signer) := by
  unfold Execution.releaseSigner
  split
  · exact releaseSignerSponsor _ _ _ _
  · split_ifs
    · exact .error
    · exact .ok (refl _)

theorem removeAccountSigner (accounts : Accounts α η) (id : α) (signerKey : SignerKey η) :
    Ensures (SameNumbers accounts) (removeAccountSigner accounts id signerKey) := by
  unfold Execution.removeAccountSigner
  split
  · exact .ok (refl _)
  next entry hentry =>
    split
    · exact .ok (refl _)
    next signer _ =>
      exact .bind (releaseSigner accounts id entry signer) fun released hreleased =>
        .ok (hreleased.trans (rewrite released _))

theorem removeOneTimeSigners (accounts : Accounts α η) (txHash : η) (sourceAccounts : List α) :
    Ensures (SameNumbers accounts)
      (removeOneTimeSignersFromAllSources accounts txHash sourceAccounts) := by
  refine Ensures.foldlM ?_ sourceAccounts accounts (refl accounts)
  intro removed source hremoved
  exact (removeAccountSigner removed source _).mono fun _ h => hremoved.trans h

end SameNumbers

end Henyey.Execution
