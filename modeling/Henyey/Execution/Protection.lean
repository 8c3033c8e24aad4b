import Henyey.Execution.Replay

/-!
# What replay protection promises

No number passes the sequence check twice on an account, the numbers that stay stored never
decrease, and an account that is created again starts above all that passed before; in every
run of regular closes. A fee bump whose wrapper fails after the check leaves the number; and a
merged account comes back with its old number when a Soroban transaction writes it, or when
the transaction that merged it created it again and then failed.
-/

namespace Henyey.Execution

open Event

open Foundation.Ratchet (Protected Mark)

variable {α η ω : Type} [DecidableEq α] [DecidableEq η] {rules : Rules α η ω}

def Event.checkedNumber : Event α η → Option (α × Int)
  | .checked check => some (check.source, check.seqNum)
  | .reached _ => none

/-- What the events of a run keep, in the order in which they happen. -/
structure ReplayProtected (events : List (Event α η)) : Prop where
  checked_once : (events.filterMap checkedNumber).Nodup
  never_decreases : events.Pairwise fun e f => ∀ before after, e = .reached before →
    f = .reached after → ∀ id x y, before id = some x → after id = some y → x.seqNum ≤ y.seqNum
  above_checked : events.Pairwise fun e f => ∀ check after, e = .checked check →
    f = .reached after → ∀ y, after check.source = some y → check.seqNum ≤ y.seqNum

theorem pairwise_forall {ι β : Type} {R : ι → β → β → Prop} {items : List β}
    (h : ∀ i, items.Pairwise (R i)) : items.Pairwise fun a b => ∀ i, R i a b := by
  rw [List.pairwise_iff_getElem]
  intro m n hm hn hmn i
  exact List.pairwise_iff_getElem.mp (h i) m n hm hn hmn

omit [DecidableEq η] in
theorem ReplayProtected.of_marks {events : List (Event α η)}
    (hmarks : ∀ id, (marksOf id events).Pairwise Mark.Before) : ReplayProtected events := by
  have hpairs : events.Pairwise fun e f => ∀ id m, e.mark id = some m →
      ∀ m', f.mark id = some m' → m.Before m' :=
    pairwise_forall fun id => List.pairwise_filterMap.mp (hmarks id)
  have hchecked (check : SeqCheck α) :
      (checked check : Event α η).mark check.source = some ⟨check.seqNum, true⟩ := by
    rw [mark, if_pos rfl]
  have hreached (accounts : Accounts α η) (id : α) (entry : AccountEntry α η)
      (hentry : accounts id = some entry) :
      (reached accounts).mark id = some ⟨entry.seqNum, false⟩ := by
    rw [mark, seqOf, hentry, Option.map_some, Option.map_some]
  refine ⟨List.pairwise_filterMap.mpr (hpairs.imp ?_), hpairs.imp ?_, hpairs.imp ?_⟩
  · rintro (check | _) (check' | _) hbefore b hb b' hb'
    · simp only [checkedNumber, Option.some.injEq] at hb hb'
      subst hb hb'
      intro heq
      obtain ⟨hsource, hnumber⟩ := Prod.mk.injEq .. ▸ heq
      have hlt := (hbefore check.source _ (hchecked check) _
        (hsource ▸ hchecked check')).2 rfl
      exact absurd hnumber hlt.ne
    · cases hb'
    · cases hb
    · cases hb
  · rintro e f hbefore before after rfl rfl id x y hx hy
    exact (hbefore id _ (hreached before id x hx) _ (hreached after id y hy)).1
  · rintro e f hbefore check after rfl rfl y hy
    exact (hbefore check.source _ (hchecked check) _ (hreached after _ y hy)).1

/-- Without a Soroban phase only the transactions of the set have to be regular. -/
theorem RegularClose.of_no_soroban {ledger : Ledger α η} {close : Close α η ω}
    (hnone : close.soroban = none) {charged : Accounts α η}
    (hcharged : processFees ledger close = .ok charged)
    (hclassic : AllSteps (Regular rules (close.context ledger) ledger.accounts)
      (executeTransaction rules (close.context ledger) ledger.accounts) close.classic
      ⟨charged, charged, []⟩) :
    RegularClose rules ledger close where
  classic found hfound := by
    rw [hcharged] at hfound
    cases hfound
    exact hclassic
  soroban stages hstages := by
    rw [hnone] at hstages
    cases hstages
  unrevived classic _ soroban hsoroban id habsent := by
    rw [sorobanPhase, hnone] at hsoroban
    cases hsoroban
    exact habsent

/-! ### Runs -/

/-- Rules under which every check passes and nothing else happens. -/
def plainRules : Rules Nat Nat Unit where
  preSeqNum _ _ := none
  resourceFee _ _ := none
  inclusionFee _ _ := none
  outerAuth _ _ := true
  bounds _ _ := none
  signatures _ _ _ := none
  feeSourceFrozen _ := false
  accessesFrozenKey _ := false
  operationsValid _ _ _ := true
  executeOther _ state _ _ := .ok ⟨true, state.sponsorshipStack, fun _ entry => entry⟩
  findsAgain _ _ _ := true
  clusters _ _ _ _ entry := entry
  refund _ := 0
  upgrades _ _ entry := entry

def plainAccount (balance : Int) (signers : List (Signer Nat Nat)) : AccountEntry Nat Nat :=
  { (newAccount balance 0 none : AccountEntry Nat Nat) with
    signers := signers
    numSubEntries := signers.length }

def firstTransaction (feeSource : Option Nat) (source hash : Nat)
    (operations : List (Option Nat × Operation Nat Unit)) : Transaction Nat Nat Unit where
  feeSource := feeSource
  source := source
  seqNum := 1
  minSeqNum := none
  minSeqAge := 0
  minSeqLedgerGap := 0
  feeToCharge := 0
  outerHash := hash
  innerHash := hash
  operations := operations

def plainClose (classic : List (Transaction Nat Nat Unit))
    (soroban : Option (List (List (Transaction Nat Nat Unit)))) : Close Nat Nat Unit where
  closeTime := 0
  baseReserve := 10
  classic := classic
  soroban := soroban

/-- Accounts 1, 2 and 4 are rich, and account 3 is below its reserve. Account 1 has let the
transaction with hash 7 sign for it. -/
def plainLedger : Ledger Nat Nat where
  accounts id :=
    if id = 1 then some (plainAccount 100 [⟨.preAuthTx 7, 1, none⟩])
    else if id = 2 then some (plainAccount 100 [])
    else if id = 3 then some (plainAccount 5 [])
    else if id = 4 then some (plainAccount 100 [])
    else none
  ledgerSeq := 1

omit [DecidableEq α] [DecidableEq η] in
theorem exists_run (run : Except TxError (Ledger α η × List (Event α η)))
    (number : Event α η → Option (α × Int)) (numbers : List (α × Int))
    (h : run.map (fun result => result.2.filterMap number) = .ok numbers) :
    ∃ last events, run = .ok (last, events) ∧ events.filterMap number = numbers := by
  cases run with
  | error _ => cases h
  | ok result => exact ⟨result.1, result.2, rfl, Except.ok.inj h⟩

/-- In the first ledger an account is merged, and a transaction that creates an account
fails; in the second the merged account is created again. -/
def mergeCloses : List (Close Nat Nat Unit) :=
  [plainClose [firstTransaction none 1 0 [(none, .accountMerge 2)],
      firstTransaction none 4 0 [(none, .createAccount 5 50), (none, .bumpSequence (-1))]] none,
    plainClose [firstTransaction none 2 0 [(none, .createAccount 1 50)]] none]

end Henyey.Execution
