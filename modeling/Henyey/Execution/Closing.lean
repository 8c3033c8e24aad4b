import Henyey.Execution.Preconditions

/-!
# Closing ledgers

The transactions of a ledger are applied one after the other, or in two phases: the
classic transactions on the accounts, and then the Soroban transactions on what the delta
holds of them. An account that the delta lacks is read from the start of the ledger, also
when the classic phase deleted it. A failed transaction is rolled back, but for an account
that it merged and created again: that one is removed from the accounts of the executor.
-/

namespace Henyey.Execution

open Foundation (AllRounds Ensures)

variable {α η ω : Type} [DecidableEq α] [DecidableEq η]

/-! ### One transaction -/

/-- Apply the operations in turn; a failed one is undone and fails the transaction, and an
error ends it. The accounts after each operation are kept. A transaction that fails tells
what its operations have created. -/
def runOperations (executeOther : ExecuteOther α η ω) (ctx : Context α) (txSource : α) :
    List (Option α × Operation α ω) → LedgerState α η → List (Accounts α η) → Bool →
      Except (List α) (LedgerState α η × List (Accounts α η))
  | [], state, history, allSuccess =>
    if allSuccess && !state.hasPendingSponsorship then .ok (state, history)
    else .error state.createdAccounts
  | (opSource, op) :: rest, state, history, allSuccess =>
    match executeOperation executeOther ctx state (opSource.getD txSource) op with
    | .error _ => .error state.createdAccounts
    | .ok (next, result) =>
      if result.isSuccess then
        runOperations executeOther ctx txSource rest next (history ++ [next.accounts]) allSuccess
      else runOperations executeOther ctx txSource rest state history false

def applyBody (rules : Rules α η ω) (ctx : Context α) (accounts : Accounts α η)
    (tx : Transaction α η ω) (operationsValid : Bool) :
    Except (List α) (Accounts α η × List (Accounts α η)) :=
  if operationsValid then do
    let (state, history) ←
      runOperations rules.executeOther ctx tx.source tx.operations ⟨accounts, [], []⟩ [] true
    return (state.accounts, history)
  else .error []

/-- An executor writes back the accounts that it changed. -/
def applyToDelta (loaded after delta : Accounts α η) : Accounts α η :=
  fun id => if after id = loaded id then delta id else after id

/-- The accounts as the executor sees them, those of its delta, and the accounts that
rollbacks have removed though the delta or the ledger has them. -/
structure Executor (α η : Type) where
  accounts : Accounts α η
  delta : Accounts α η
  lost : List α

namespace Executor

variable (executor : Executor α η)

/-- An account that is not there is looked up at the start of the ledger. -/
def reload (rules : Rules α η ω) (ctx : Context α) (snapshot : Accounts α η)
    (tx : Transaction α η ω) : Executor α η :=
  let found := executor.lost.filter (rules.findsAgain ctx tx)
  { executor with
    accounts := fun id => (executor.accounts id).or (if id ∈ found then snapshot id else none)
    lost := executor.lost.filter fun id =>
      !rules.findsAgain ctx tx id && (executor.accounts id).isNone }

def write (after : Accounts α η) : Executor α η :=
  { executor with
    accounts := after
    delta := applyToDelta executor.accounts after executor.delta }

/-- Accounts that the failed transaction created are removed, whether or not they were
there before it; all others are as before. -/
def rollback (createdAccounts : List α) : Executor α η :=
  { executor with
    accounts := fun id => if id ∈ createdAccounts then none else executor.accounts id
    lost := executor.lost ++ createdAccounts.filter fun id => (executor.accounts id).isSome }

end Executor

/-- A transaction, with its sequence check and the accounts it goes through. -/
def executeTransaction (rules : Rules α η ω) (ctx : Context α) (snapshot : Accounts α η)
    (executor : Executor α η) (tx : Transaction α η ω) :
    Except TxError (Executor α η × List (Event α η)) := do
  let executor := executor.reload rules ctx snapshot tx
  let (mutated, validated) ← preApply rules ctx snapshot executor.accounts tx
  let checks := checkEvents rules ctx snapshot executor.accounts tx
  let preApplied := executor.write mutated
  match validated with
  | none => return (preApplied, checks ++ [.reached mutated])
  | some operationsValid =>
    match applyBody rules ctx mutated tx operationsValid with
    | .ok (applied, history) =>
      return (preApplied.write applied, checks ++ [.reached mutated] ++ history.map .reached)
    | .error createdAccounts =>
      return (preApplied.rollback createdAccounts, checks ++ [.reached mutated])

section Rounds

variable {σ β : Type}

def eventRound (step : σ → β → Except TxError (σ × List (Event α η)))
    (reached : σ × List (Event α η)) (item : β) : Except TxError (σ × List (Event α η)) := do
  let (next, new) ← step reached.1 item
  return (next, reached.2 ++ new)

def foldEvents (step : σ → β → Except TxError (σ × List (Event α η))) (items : List β)
    (start : σ) : Except TxError (σ × List (Event α η)) :=
  items.foldlM (eventRound step) (start, [])

/-- What is asked of each step of the loop, in the state that it begins with. -/
def AllSteps (safe : σ → β → Prop) (step : σ → β → Except TxError (σ × List (Event α η)))
    (items : List β) (start : σ) : Prop :=
  AllRounds (fun reached item => safe reached.1 item) (eventRound step) items (start, [])

instance (safe : σ → β → Prop) [∀ state item, Decidable (safe state item)]
    (step : σ → β → Except TxError (σ × List (Event α η))) (items : List β) (start : σ) :
    Decidable (AllSteps safe step items start) :=
  inferInstanceAs (Decidable (AllRounds _ _ _ _))

end Rounds

/-! ### Fees -/

/-- Take the fee from an account, as much of it as the balance covers. -/
def deductFeeFromAccount (accounts : Accounts α η) (id : α) (fee : Int) :
    Except TxError (Accounts α η) :=
  match accounts id with
  | none => .ok accounts
  | some entry => do
    let paid ← entry.subBalance (min entry.balance fee)
    return accounts.set id paid

def processFeeOnly (accounts : Accounts α η) (tx : Transaction α η ω) :
    Except TxError (Accounts α η) :=
  if (accounts tx.feeSourceId).isNone then .error (.internal "Fee source account not found")
  else if (accounts tx.source).isNone then .error (.internal "Inner source account not found")
  else if tx.feeToCharge = 0 then .ok accounts
  else deductFeeFromAccount accounts tx.feeSourceId tx.feeToCharge

/-- Pay a refund, unless the account is gone or too full. -/
def applyRefund (accounts : Accounts α η) (id : α) (refund : Int) : Accounts α η :=
  if refund > 0 then
    match accounts id with
    | none => accounts
    | some entry =>
      match entry.addBalance refund with
      | .error _ => accounts
      | .ok paid => accounts.set id paid
  else accounts

def applyRefunds (rules : Rules α η ω) (accounts : Accounts α η)
    (txs : List (Transaction α η ω)) : Accounts α η :=
  txs.foldl (fun accounts tx => applyRefund accounts tx.feeSourceId (rules.refund tx)) accounts

/-! ### A ledger -/

structure Ledger (α η : Type) where
  accounts : Accounts α η
  ledgerSeq : Nat

/-- A ledger to close; `soroban` holds the stages of a parallel phase, where there is one. -/
structure Close (α η ω : Type) where
  closeTime : Nat
  baseReserve : Int
  classic : List (Transaction α η ω)
  soroban : Option (List (List (Transaction α η ω)))

/-- The highest number that the set still has to apply for an account, which the executor
keeps under the source that pays. -/
def maxSeqNumToApply (txs : List (Transaction α η ω)) (id : α) : Option Int :=
  ((txs.filter (·.feeSourceId = id)).map (·.seqNum)).max?

def Close.context (close : Close α η ω) (ledger : Ledger α η) : Context α where
  ledgerSeq := ledger.ledgerSeq + 1
  closeTime := close.closeTime
  baseReserve := close.baseReserve
  maxSeqNumToApply := maxSeqNumToApply close.classic

/-- All fees are taken before the first transaction. -/
def processFees (ledger : Ledger α η) (close : Close α η ω) : Except TxError (Accounts α η) :=
  match close.soroban with
  | none => close.classic.foldlM processFeeOnly ledger.accounts
  | some stages =>
    (close.classic ++ stages.flatten).foldlM
      (fun accounts (tx : Transaction α η ω) =>
        deductFeeFromAccount accounts tx.feeSourceId tx.feeToCharge)
      ledger.accounts

/-- The fees of the ledger and the transactions of its first phase. -/
def classicPhase (rules : Rules α η ω) (ledger : Ledger α η) (close : Close α η ω) :
    Except TxError (Accounts α η × List (Event α η)) := do
  let charged ← processFees ledger close
  let (executor, events) ← foldEvents
    (executeTransaction rules (close.context ledger) ledger.accounts) close.classic
    ⟨charged, charged, []⟩
  let refunded :=
    if close.soroban.isNone then applyRefunds rules executor.delta close.classic
    else executor.delta
  return (refunded, events)

/-- The accounts that a fresh executor sees: those of the delta, else those of the start
of the ledger. Deletions of accounts in the delta are not carried over. -/
def loadFromDelta (delta snapshot : Accounts α η) : Accounts α η :=
  fun id => (delta id).or (snapshot id)

/-- One transaction before the clusters start. -/
def preApplyOne (rules : Rules α η ω) (ctx : Context α) (snapshot accounts : Accounts α η)
    (tx : Transaction α η ω) : Except TxError (Accounts α η × List (Event α η)) := do
  let (mutated, _) ← preApply rules ctx snapshot accounts tx
  return (mutated, checkEvents rules ctx snapshot accounts tx)

/-- Validate all Soroban transactions on one executor, before their clusters start. -/
def preParallelApply (rules : Rules α η ω) (ctx : Context α) (snapshot delta : Accounts α η)
    (txs : List (Transaction α η ω)) : Except TxError (Accounts α η × List (Event α η)) := do
  let loaded := loadFromDelta delta snapshot
  let (after, events) ← foldEvents (preApplyOne rules ctx snapshot) txs loaded
  return (applyToDelta loaded after delta, events)

/-- The clusters of a stage move balances, and no sequence number. -/
def executeStage (rules : Rules α η ω) (ctx : Context α) (snapshot delta : Accounts α η)
    (stage : List (Transaction α η ω)) : Accounts α η :=
  let loaded := loadFromDelta delta snapshot
  applyToDelta loaded (loaded.rewrite (rules.clusters ctx loaded stage)) delta

def executeSorobanParallelPhase (rules : Rules α η ω) (ctx : Context α)
    (snapshot delta : Accounts α η) (stages : List (List (Transaction α η ω))) :
    Except TxError (Accounts α η × List (Event α η)) := do
  let (preApplied, events) ← preParallelApply rules ctx snapshot delta stages.flatten
  let executed := stages.foldl (executeStage rules ctx snapshot) preApplied
  let refunded := applyRefunds rules executed stages.flatten
  return (refunded, events)

/-- The second phase, where there is one. -/
def sorobanPhase (rules : Rules α η ω) (ledger : Ledger α η) (close : Close α η ω)
    (delta : Accounts α η) : Except TxError (Accounts α η × List (Event α η)) :=
  match close.soroban with
  | none => .ok (delta, [])
  | some stages => executeSorobanParallelPhase rules (close.context ledger) ledger.accounts delta
      stages

def closeLedger (rules : Rules α η ω) (ledger : Ledger α η) (close : Close α η ω) :
    Except TxError (Ledger α η × List (Event α η)) := do
  let (classic, classicEvents) ← classicPhase rules ledger close
  let (soroban, sorobanEvents) ← sorobanPhase rules ledger close classic
  let upgraded := soroban.rewrite (rules.upgrades (close.context ledger))
  return (⟨upgraded, ledger.ledgerSeq + 1⟩, classicEvents ++ sorobanEvents ++ [.reached upgraded])

/-- A run of consecutive closes and the events of all of them. -/
def closeLedgers (rules : Rules α η ω) :
    Ledger α η → List (Close α η ω) → Except TxError (Ledger α η × List (Event α η))
  | ledger, [] => .ok (ledger, [])
  | ledger, close :: rest => do
    let (next, events) ← closeLedger rules ledger close
    let (last, later) ← closeLedgers rules next rest
    return (last, events ++ later)

/-! ### Runs that keep their numbers -/

/-- The accounts that were there when the operations of a failed transaction began, and that
it leaves created again. -/
def createdAgain (rules : Rules α η ω) (ctx : Context α) (snapshot accounts : Accounts α η)
    (tx : Transaction α η ω) : List α :=
  match preApply rules ctx snapshot accounts tx with
  | .ok (mutated, some operationsValid) =>
    match applyBody rules ctx mutated tx operationsValid with
    | .ok _ => []
    | .error createdAccounts => createdAccounts.filter fun id => (mutated id).isSome
  | _ => []

/-- A transaction whose wrapper does not fail after the sequence check, and that does not
fail after it has merged an account and created it again. -/
structure Regular (rules : Rules α η ω) (ctx : Context α) (snapshot : Accounts α η)
    (executor : Executor α η) (tx : Transaction α η ω) : Prop where
  wrapper : wrapperFailsLate rules ctx snapshot executor.accounts tx = false
  none_again : createdAgain rules ctx snapshot executor.accounts tx = []

instance (rules : Rules α η ω) (ctx : Context α) (snapshot : Accounts α η)
    (executor : Executor α η) (tx : Transaction α η ω) :
    Decidable (Regular rules ctx snapshot executor tx) :=
  decidable_of_iff (wrapperFailsLate rules ctx snapshot executor.accounts tx = false ∧
      createdAgain rules ctx snapshot executor.accounts tx = [])
    ⟨fun h => ⟨h.1, h.2⟩, fun h => ⟨h.1, h.2⟩⟩

/-- All transactions of the ledger are regular, and no account that the classic phase deleted
is there again after the Soroban phase. -/
structure RegularClose (rules : Rules α η ω) (ledger : Ledger α η) (close : Close α η ω) :
    Prop where
  classic : ∀ charged, processFees ledger close = .ok charged →
    AllSteps (Regular rules (close.context ledger) ledger.accounts)
      (executeTransaction rules (close.context ledger) ledger.accounts) close.classic
      ⟨charged, charged, []⟩
  soroban : ∀ stages, close.soroban = some stages →
    ∀ classic, classicPhase rules ledger close = .ok classic →
      AllSteps
        (fun accounts tx =>
          wrapperFailsLate rules (close.context ledger) ledger.accounts accounts tx = false)
        (preApplyOne rules (close.context ledger) ledger.accounts) stages.flatten
        (loadFromDelta classic.1 ledger.accounts)
  unrevived : ∀ classic, classicPhase rules ledger close = .ok classic →
    ∀ soroban, sorobanPhase rules ledger close classic.1 = .ok soroban →
      ∀ id, classic.1 id = none → soroban.1 id = none

def RegularRun (rules : Rules α η ω) : Ledger α η → List (Close α η ω) → Prop
  | _, [] => True
  | ledger, close :: rest =>
    RegularClose rules ledger close ∧
      ∀ next, closeLedger rules ledger close = .ok next → RegularRun rules next.1 rest

end Henyey.Execution
