import Henyey.Foundation.Ratchet
import Henyey.Execution.AccountEntry
import Mathlib.Tactic.Linarith

/-!
# The operations that move a sequence number

Only three operations create or delete an account or assign its sequence number. All
others rewrite the rest of the accounts, as a parameter of the model says.
-/

namespace Henyey.Execution

open SameNumbers

open Foundation (Ensures)
open Foundation.Ratchet (Advances)

variable {α η ω : Type} [DecidableEq α] [DecidableEq η]

/-- What operations read of the ledger that is closing. -/
structure Context (α : Type) where
  ledgerSeq : Nat
  closeTime : Nat
  baseReserve : Int
  maxSeqNumToApply : α → Option Int

/-- The number that accounts created in a ledger start with. -/
def startingSeq (ledgerSeq : Nat) : Int := ledgerSeq * 2 ^ 32

def Context.startingSequenceNumber (ctx : Context α) : Except TxError Int :=
  if ctx.ledgerSeq > i32Max then .error (.internal "overflowed starting sequence number")
  else .ok (startingSeq ctx.ledgerSeq)

structure SponsorshipContext (α : Type) where
  sponsoring : α
  sponsored : α
deriving DecidableEq

/-- The state that the operations of a transaction hand on, with the accounts that they
have created so far. -/
structure LedgerState (α η : Type) where
  accounts : Accounts α η
  sponsorshipStack : List (SponsorshipContext α)
  createdAccounts : List α

namespace LedgerState

def hasPendingSponsorship (state : LedgerState α η) : Bool := !state.sponsorshipStack.isEmpty

def activeSponsorFor (state : LedgerState α η) (sponsored : α) : Option α :=
  (state.sponsorshipStack.reverse.find? (·.sponsored = sponsored)).map (·.sponsoring)

def isSponsoring (state : LedgerState α η) (id : α) : Bool :=
  state.sponsorshipStack.any (·.sponsoring = id)

end LedgerState

inductive Operation (α ω : Type) where
  | createAccount (destination : α) (startingBalance : Int)
  | bumpSequence (bumpTo : Int)
  | accountMerge (destination : α)
  | other (op : ω)

inductive CreateAccountResult where
  | success | malformed | underfunded | lowReserve | alreadyExist
deriving DecidableEq

inductive BumpSequenceResult where
  | success | badSeq
deriving DecidableEq

inductive AccountMergeResult where
  | success (sourceBalance : Int)
  | malformed | noAccount | immutableSet | hasSubEntries | seqnumTooFar | destFull | isSponsor
deriving DecidableEq

inductive OperationResult where
  | createAccount (result : CreateAccountResult)
  | bumpSequence (result : BumpSequenceResult)
  | accountMerge (result : AccountMergeResult)
  | other (succeeded : Bool)
deriving DecidableEq

def OperationResult.isSuccess : OperationResult → Bool
  | .createAccount result => result = .success
  | .bumpSequence result => result = .success
  | .accountMerge (.success _) => true
  | .accountMerge _ => false
  | .other succeeded => succeeded

/-- What an operation leaves, with its result. -/
abbrev Executed (α η : Type) : Type := LedgerState α η × OperationResult

/-! ### CreateAccount -/

/-- Whether the sponsor, or without one the starting balance, misses the reserve. -/
def isLowReserve (ctx : Context α) (state : LedgerState α η) (sponsor : Option α)
    (startingBalance : Int) : Except TxError Bool :=
  match sponsor with
  | some sponsor =>
    match state.accounts sponsor with
    | none => .error .sourceAccountNotFound
    | some entry => do
      let minBalance ← minimumBalanceWithCounts ctx.baseReserve entry.numSubEntries
        (entry.numSponsoring + 2) entry.numSponsored
      return decide (entry.balanceAfterLiabilities < minBalance)
  | none => do
    let minBalance ← minimumBalanceWithCounts ctx.baseReserve 0 0 0
    return decide (startingBalance < minBalance)

/-- Whether the source cannot pay; a source that sponsors counts the new reserve. -/
def isUnderfunded (ctx : Context α) (entry : AccountEntry α η)
    (sponsoringDelta startingBalance : Int) : Except TxError Bool := do
  let minBalance ← minimumBalanceWithCounts ctx.baseReserve entry.numSubEntries
    (entry.numSponsoring + sponsoringDelta) entry.numSponsored
  return decide (entry.balance - minBalance - entry.sellingLiabilities < startingBalance)

def newAccount (startingBalance seqNum : Int) (sponsor : Option α) : AccountEntry α η where
  balance := startingBalance
  seqNum := seqNum
  numSubEntries := 0
  flags := 0
  signers := []
  buyingLiabilities := 0
  sellingLiabilities := 0
  numSponsored := if sponsor.isSome then 2 else 0
  numSponsoring := 0
  seqLedger := 0
  seqTime := 0
  sponsor := sponsor

def sponsorNewAccount (accounts : Accounts α η) (sponsor : Option α) :
    Except TxError (Accounts α η) :=
  match sponsor with
  | some sponsor => updateNumSponsoring accounts sponsor 2
  | none => .ok accounts

def createFunded (ctx : Context α) (state : LedgerState α η) (source destination : α)
    (entry : AccountEntry α η) (startingBalance : Int) (sponsor : Option α) :
    Except TxError (LedgerState α η) := do
  let paid ← entry.subBalance startingBalance
  let seqNum ← ctx.startingSequenceNumber
  let accounts ← sponsorNewAccount (state.accounts.set source paid) sponsor
  return { state with
    accounts := accounts.set destination (newAccount startingBalance seqNum sponsor)
    createdAccounts := destination :: state.createdAccounts }

def executeCreateAccount (ctx : Context α) (state : LedgerState α η) (source destination : α)
    (startingBalance : Int) : Except TxError (Executed α η) :=
  let sponsor := state.activeSponsorFor destination
  if startingBalance < 0 then .ok (state, .createAccount .malformed)
  else if destination = source then .ok (state, .createAccount .malformed)
  else if (state.accounts destination).isSome then .ok (state, .createAccount .alreadyExist)
  else do
    let lowReserve ← isLowReserve ctx state sponsor startingBalance
    if lowReserve then return (state, .createAccount .lowReserve)
    else
      match state.accounts source with
      | none => .error .sourceAccountNotFound
      | some entry => do
        let underfunded ← isUnderfunded ctx entry (if sponsor = some source then 2 else 0)
          startingBalance
        if underfunded then return (state, .createAccount .underfunded)
        else do
          let created ← createFunded ctx state source destination entry startingBalance sponsor
          return (created, .createAccount .success)

/-! ### BumpSequence -/

def executeBumpSequence (ctx : Context α) (state : LedgerState α η) (source : α) (bumpTo : Int) :
    Except TxError (Executed α η) :=
  if bumpTo < 0 then .ok (state, .bumpSequence .badSeq)
  else
    match state.accounts source with
    | none => .error .sourceAccountNotFound
    | some entry =>
      let bumped := if bumpTo > entry.seqNum then { entry with seqNum := bumpTo } else entry
      .ok ({ state with
        accounts := state.accounts.set source
          (bumped.updateSeqInfo ctx.ledgerSeq ctx.closeTime) }, .bumpSequence .success)

/-! ### AccountMerge -/

/-- The sponsor of the merged account gets its two reserves back. -/
def removeAccountMergeSponsorship (accounts : Accounts α η) (source : α)
    (entry : AccountEntry α η) : Except TxError (Accounts α η) :=
  match entry.sponsor with
  | none => .ok accounts
  | some sponsor =>
    if sponsor = source then
      .error (.internal "source account is listed as its own sponsor")
    else
      match accounts sponsor with
      | none => .error (.internal "sponsor account missing for entry")
      | some sponsorEntry =>
        if sponsorEntry.numSponsoring < 2 then
          .error (.internal "invalid sponsoring account state: num_sponsoring < multiplier")
        else if entry.numSponsored < 2 then
          .error (.internal "invalid sponsored account state: num_sponsored < multiplier")
        else
          .ok (accounts.set sponsor
            { sponsorEntry with numSponsoring := sponsorEntry.numSponsoring - 2 })

/-- Pay the balance out, release the sponsors and delete the source. -/
def mergeInto (state : LedgerState α η) (source destination : α) (entry paid : AccountEntry α η) :
    Except TxError (LedgerState α η) := do
  let released ← (entry.signers.filterMap (·.sponsor)).foldlM
    (fun accounts sponsor => updateNumSponsoring accounts sponsor (-1))
    (state.accounts.set destination paid)
  let accounts ← removeAccountMergeSponsorship released source entry
  return { state with accounts := accounts.delete source }

/-- The number is too far when it, or one that the set still has to apply, could come
after the start of an account created again in this ledger. -/
def isSeqnumTooFar (ctx : Context α) (source : α) (entry : AccountEntry α η) (startingSeq : Int) :
    Bool :=
  (ctx.maxSeqNumToApply source).any (· ≥ startingSeq) || entry.seqNum ≥ startingSeq

def executeAccountMerge (ctx : Context α) (state : LedgerState α η) (source destination : α) :
    Except TxError (Executed α η) :=
  match state.accounts destination with
  | none => .ok (state, .accountMerge .noAccount)
  | some destinationEntry =>
    if destination = source then .ok (state, .accountMerge .malformed)
    else
      match state.accounts source with
      | none => .error .sourceAccountNotFound
      | some entry =>
        if entry.isImmutable then .ok (state, .accountMerge .immutableSet)
        else if entry.numSubEntries ≠ entry.signers.length then
          .ok (state, .accountMerge .hasSubEntries)
        else do
          let startingSeq ← ctx.startingSequenceNumber
          if isSeqnumTooFar ctx source entry startingSeq then
            return (state, .accountMerge .seqnumTooFar)
          else if state.isSponsoring source then return (state, .accountMerge .isSponsor)
          else if entry.numSponsoring > 0 then return (state, .accountMerge .isSponsor)
          else
            match destinationEntry.addBalance entry.balance with
            | .error _ => return (state, .accountMerge .destFull)
            | .ok paid => do
              let merged ← mergeInto state source destination entry paid
              return (merged, .accountMerge (.success entry.balance))

/-! ### All operations -/

/-- What an operation that assigns no sequence number does. -/
structure OtherEffect (α η : Type) where
  succeeded : Bool
  sponsorshipStack : List (SponsorshipContext α)
  entries : α → AccountEntry α η → AccountEntry α η

/-- The other operations, whatever they do. -/
abbrev ExecuteOther (α η ω : Type) : Type :=
  Context α → LedgerState α η → α → ω → Except TxError (OtherEffect α η)

def executeOperation (executeOther : ExecuteOther α η ω) (ctx : Context α) (state : LedgerState α η)
    (source : α) : Operation α ω → Except TxError (Executed α η)
  | .createAccount destination startingBalance =>
    executeCreateAccount ctx state source destination startingBalance
  | .bumpSequence bumpTo => executeBumpSequence ctx state source bumpTo
  | .accountMerge destination => executeAccountMerge ctx state source destination
  | .other op => do
    let effect ← executeOther ctx state source op
    return ({ state with
                accounts := state.accounts.rewrite effect.entries
                sponsorshipStack := effect.sponsorshipStack }, .other effect.succeeded)

/-! ### What the operations keep -/

def seqOf (accounts : Accounts α η) (id : α) : Option Int :=
  (accounts id).map AccountEntry.seqNum

/-- No number moves down, and accounts come and go only as the ledger's start allows. -/
def Keeps (ledgerSeq : Nat) (before after : Accounts α η) : Prop :=
  ∀ id, Advances (startingSeq ledgerSeq) (seqOf before id) (seqOf after id) []

namespace Keeps

variable {ledgerSeq : Nat} {before mid after accounts : Accounts α η} {id : α}
  {entry entry' : AccountEntry α η}

section

omit [DecidableEq α] [DecidableEq η]

theorem refl (accounts : Accounts α η) : Keeps ledgerSeq accounts accounts :=
  fun id => Advances.refl _ (seqOf accounts id)

theorem trans (h : Keeps ledgerSeq before mid) (h' : Keeps ledgerSeq mid after) :
    Keeps ledgerSeq before after := fun id => (h id).trans (h' id)

theorem of_sameNumbers (h : SameNumbers before after) : Keeps ledgerSeq before after := by
  intro id
  rw [seqOf, seqOf, h id]
  exact Advances.refl _ _

end

omit [DecidableEq η] in
/-- One account changes as its number may. -/
theorem update {counter : Option (AccountEntry α η)}
    (h : Advances (startingSeq ledgerSeq) (seqOf accounts id) (counter.map AccountEntry.seqNum) []) :
    Keeps ledgerSeq accounts (Function.update accounts id counter) := by
  intro other
  by_cases hother : other = id
  · subst hother
    rwa [seqOf, seqOf, Function.update_self]
  · rw [seqOf, seqOf, Function.update_of_ne hother]
    exact Advances.refl _ _

theorem set (hentry : accounts id = some entry) (hle : entry.seqNum ≤ entry'.seqNum) :
    Keeps ledgerSeq accounts (accounts.set id entry') := by
  apply update
  rw [seqOf, hentry]
  exact Advances.raise hle

theorem create (habsent : accounts id = none) (hle : startingSeq ledgerSeq ≤ entry'.seqNum) :
    Keeps ledgerSeq accounts (accounts.set id entry') := by
  apply update
  rw [seqOf, habsent]
  exact Advances.come_back hle

theorem delete (hentry : accounts id = some entry) (hlt : entry.seqNum < startingSeq ledgerSeq) :
    Keeps ledgerSeq accounts (accounts.delete id) := by
  apply update
  rw [seqOf, hentry]
  exact Advances.drop hlt

end Keeps

section Operations

variable {ctx : Context α} {state : LedgerState α η} {source destination : α}

/-- The postcondition that every operation meets. -/
def KeepsAll (ctx : Context α) (state : LedgerState α η) (executed : Executed α η) : Prop :=
  Keeps ctx.ledgerSeq state.accounts executed.1.accounts

theorem KeepsAll.same (result : OperationResult) : KeepsAll ctx state (state, result) :=
  Keeps.refl _

omit [DecidableEq α] in
theorem Context.startingSequenceNumber_ensures :
    Ensures (· = startingSeq ctx.ledgerSeq) ctx.startingSequenceNumber := by
  unfold startingSequenceNumber
  split
  · exact .error
  · exact .ok rfl

variable {entry : AccountEntry α η}

section

omit [DecidableEq α] [DecidableEq η]

theorem AccountEntry.subBalance_ensures {amount : Int} :
    Ensures (fun paid => paid.seqNum = entry.seqNum) (entry.subBalance amount) := by
  unfold subBalance
  split_ifs
  · exact .error
  · exact .error
  · exact .ok rfl

theorem AccountEntry.addBalance_ensures {delta : Int} :
    Ensures (fun paid => paid.seqNum = entry.seqNum) (entry.addBalance delta) := by
  unfold addBalance
  split_ifs
  · exact .error
  · exact .error
  · exact .ok rfl

theorem SameNumbers.eq_none {before after : Accounts α η} {id : α} (h : SameNumbers before after)
    (hnone : before id = none) : after id = none := by
  have heq := h id
  rw [hnone] at heq
  exact Option.map_eq_none_iff.mp heq

theorem SameNumbers.exists_entry {before after : Accounts α η} {id : α}
    (h : SameNumbers before after) (hentry : before id = some entry) :
    ∃ entry', after id = some entry' ∧ entry'.seqNum = entry.seqNum := by
  have heq := h id
  rw [hentry] at heq
  exact Option.map_eq_some_iff.mp heq

end

theorem createFunded_keeps {startingBalance : Int} {sponsor : Option α}
    (hsource : state.accounts source = some entry) (hne : destination ≠ source)
    (habsent : state.accounts destination = none) :
    Ensures (fun created => Keeps ctx.ledgerSeq state.accounts created.accounts)
      (createFunded ctx state source destination entry startingBalance sponsor) := by
  refine .bind AccountEntry.subBalance_ensures fun paid hpaid => ?_
  refine .bind Context.startingSequenceNumber_ensures fun seqNum hseqNum => ?_
  have hset : SameNumbers state.accounts (state.accounts.set source paid) :=
    set hsource hpaid
  have hsponsored : Ensures (SameNumbers state.accounts)
      (sponsorNewAccount (state.accounts.set source paid) sponsor) := by
    unfold sponsorNewAccount
    split
    · exact (SameNumbers.updateNumSponsoring _ _ _).mono fun _ h => hset.trans h
    · exact .ok hset
  refine .bind hsponsored fun accounts hsame => .ok ?_
  · have hcreate : Keeps ctx.ledgerSeq accounts
        (accounts.set destination (newAccount startingBalance seqNum sponsor)) :=
      Keeps.create (hsame.eq_none habsent) hseqNum.ge
    exact (Keeps.of_sameNumbers hsame).trans hcreate

theorem executeCreateAccount_keeps {startingBalance : Int} :
    Ensures (KeepsAll ctx state)
      (executeCreateAccount ctx state source destination startingBalance) := by
  unfold executeCreateAccount
  split
  · exact .ok (KeepsAll.same _)
  split
  · exact .ok (KeepsAll.same _)
  next hsame =>
  split
  · exact .ok (KeepsAll.same _)
  next hexists =>
  have habsent : state.accounts destination = none := Option.not_isSome_iff_eq_none.mp hexists
  refine .skip fun lowReserve => ?_
  split
  · exact .ok (KeepsAll.same _)
  split
  · exact .error
  next entry hsource =>
    refine .skip fun underfunded => ?_
    split
    · exact .ok (KeepsAll.same _)
    · exact .bind (createFunded_keeps hsource hsame habsent) fun created hcreated => .ok hcreated

theorem executeBumpSequence_keeps {bumpTo : Int} :
    Ensures (KeepsAll ctx state) (executeBumpSequence ctx state source bumpTo) := by
  unfold executeBumpSequence
  split_ifs with hnegative
  · exact .ok (KeepsAll.same _)
  split
  · exact .error
  next entry hsource =>
    refine .ok (Keeps.set hsource ?_)
    split_ifs with hgreater
    · exact hgreater.le
    · exact le_rfl

theorem removeAccountMergeSponsorship_ensures {accounts : Accounts α η} :
    Ensures (SameNumbers accounts) (removeAccountMergeSponsorship accounts source entry) := by
  unfold removeAccountMergeSponsorship
  split
  · exact .ok (refl _)
  next sponsor _ =>
    split
    · exact .error
    split
    · exact .error
    next sponsorEntry hsponsor =>
      split_ifs
      · exact .error
      · exact .error
      · exact .ok (set hsponsor rfl)

theorem mergeInto_keeps {entry destinationEntry paid : AccountEntry α η}
    (hdestination : state.accounts destination = some destinationEntry)
    (hpaid : paid.seqNum = destinationEntry.seqNum) (hsource : state.accounts source = some entry)
    (hlt : entry.seqNum < startingSeq ctx.ledgerSeq) :
    Ensures (fun merged => Keeps ctx.ledgerSeq state.accounts merged.accounts)
      (mergeInto state source destination entry paid) := by
  have hset : SameNumbers state.accounts (state.accounts.set destination paid) :=
    set hdestination hpaid
  have hreleases : Ensures (SameNumbers state.accounts)
      ((entry.signers.filterMap (·.sponsor)).foldlM
        (fun accounts sponsor => updateNumSponsoring accounts sponsor (-1))
        (state.accounts.set destination paid)) := by
    refine Ensures.foldlM ?_ _ _ hset
    intro accounts sponsor haccounts
    exact (SameNumbers.updateNumSponsoring _ _ _).mono fun _ h => haccounts.trans h
  refine .bind hreleases fun released hreleased => ?_
  · refine .bind removeAccountMergeSponsorship_ensures fun accounts haccounts => .ok ?_
    have hsame : SameNumbers state.accounts accounts := hreleased.trans haccounts
    obtain ⟨left, hleft, hseq⟩ := hsame.exists_entry hsource
    have hdelete : Keeps ctx.ledgerSeq accounts (accounts.delete source) :=
      Keeps.delete hleft (hseq ▸ hlt)
    exact (Keeps.of_sameNumbers hsame).trans hdelete

theorem executeAccountMerge_keeps :
    Ensures (KeepsAll ctx state) (executeAccountMerge ctx state source destination) := by
  unfold executeAccountMerge
  split
  · exact .ok (KeepsAll.same _)
  next destinationEntry hdestination =>
    split
    · exact .ok (KeepsAll.same _)
    split
    · exact .error
    next entry hsource =>
      split
      · exact .ok (KeepsAll.same _)
      split
      · exact .ok (KeepsAll.same _)
      refine .bind Context.startingSequenceNumber_ensures fun start hstart => ?_
      split
      · exact .ok (KeepsAll.same _)
      next htooFar =>
      split
      · exact .ok (KeepsAll.same _)
      split
      · exact .ok (KeepsAll.same _)
      split
      · exact .ok (KeepsAll.same _)
      next paid hpaid =>
        have hlt : entry.seqNum < startingSeq ctx.ledgerSeq := by
          subst hstart
          simp only [isSeqnumTooFar, Bool.or_eq_true, decide_eq_true_eq, not_or, not_le] at htooFar
          exact htooFar.2
        have hpaidSeq := AccountEntry.addBalance_ensures paid hpaid
        exact .bind (mergeInto_keeps hdestination hpaidSeq hsource hlt) fun merged hmerged =>
          .ok hmerged

theorem executeOperation_keeps {executeOther : ExecuteOther α η ω} {op : Operation α ω} :
    Ensures (KeepsAll ctx state) (executeOperation executeOther ctx state source op) := by
  cases op with
  | createAccount destination startingBalance => exact executeCreateAccount_keeps
  | bumpSequence bumpTo => exact executeBumpSequence_keeps
  | accountMerge destination => exact executeAccountMerge_keeps
  | other op =>
    refine .skip fun effect => .ok ?_
    exact Keeps.of_sameNumbers (rewrite _ _)

end Operations

end Henyey.Execution
