import Henyey.Catchup.Archive

/-!
# Replaying ledgers

Each attempt verifies the headers of the whole gap and then downloads, checks and closes
the ledgers one checkpoint at a time. A failed attempt starts again from the ledger that was
reached.
-/

namespace Henyey.Catchup

open History (CheckpointFrequency)

inductive LedgerError where
  | hashMismatch
  | invalidSequence (expected actual : Nat)
  | other
  deriving DecidableEq

structure LedgerCloseData (H T D : Type) where
  ledgerSeq : Nat
  txSet : T
  closeTime : Nat
  prevLedgerHash : H
  stellarValueExt : StellarValueExt
  upgrades : List D
  expectedHeaderHash : Option H

/-- What the execution decides of the next header. -/
structure NextHeaderFields (H X : Type) where
  ledgerVersion : Nat
  upgrades : List (List UInt8)
  txSetResultHash : H
  rest : X

/-- The parts of a ledger close that only change the stores: applying the transactions and
building the bucket lists, what is committed before the header is published, and what
follows. Each may fail with its changes made. -/
structure Execution (H T D X S : Type) where
  applyTransactions : S → LedgerHeader H X → LedgerCloseData H T D →
    S × Except LedgerError (NextHeaderFields H X)
  commitClose : S → LedgerHeader H X → S × Option LedgerError
  finish : S → LedgerHeader H X → S × Option LedgerError

structure ReplayConfig where
  verifyHeaderChain : Bool
  verifyHeaderHash : Bool
  waitForPublish : Bool

/-- A node that catches up. -/
structure CatchupManager (H T R D X S : Type) where
  freq : CheckpointFrequency
  archives : Nat
  answers : Answers H T R X
  format : Format H T R D X
  execution : Execution H T D X S
  replayConfig : ReplayConfig
  trustedScpAnchor : Option (Nat × H)
  maxSupportedVersion : Nat
  minSupportedVersion : Nat

variable {H T R D X S : Type} [DecidableEq H]

def setStores (stores : S) : Catchup H X S Unit :=
  modify fun world => { world with manager := { world.manager with stores } }

def headerSnapshot : Catchup H X S (HeaderSnapshot H X) := do
  let world ← get
  pure { header := world.manager.header, hash := world.manager.headerHash }

def LclContext.ofSnapshot (snapshot : HeaderSnapshot H X) : LclContext H :=
  { lclHash := snapshot.hash, protocolVersion := snapshot.header.ledgerVersion }

namespace CatchupManager

variable (node : CatchupManager H T R D X S)

/-! ### Closing one ledger -/

def replayError (ledger : Nat) : LedgerError → HistoryError
  | .hashMismatch => .replayHashMismatch ledger
  | _ => .catchupFailed

def createNextHeader (manager : LedgerManager H X S) (closeData : LedgerCloseData H T D)
    (fields : NextHeaderFields H X) : LedgerHeader H X where
  ledgerVersion := fields.ledgerVersion
  previousLedgerHash := manager.headerHash
  txSetHash := node.format.computeTxSetHash closeData.txSet
  closeTime := closeData.closeTime
  upgrades := fields.upgrades
  ext := closeData.stellarValueExt
  txSetResultHash := fields.txSetResultHash
  ledgerSeq := manager.header.ledgerSeq + 1
  rest := fields.rest

/-- The new header becomes the last closed ledger. -/
def publish (served newHeader : LedgerHeader H X) : Catchup H X S Unit :=
  modify fun world => { world with
    manager := { world.manager with
      header := newHeader
      headerHash := node.format.computeHeaderHash newHeader }
    closings := { header := newHeader, served, verified := world.verified } :: world.closings }

/-- Raise the error of a step, if there is one. -/
def raise (ledger : Nat) : Option LedgerError → Catchup H X S Unit
  | some error => throw (replayError ledger error)
  | none => pure ()

/-- Commit, publish and finish. -/
def commitClose (served newHeader : LedgerHeader H X) (stores : S) : Catchup H X S Unit := do
  let (stores, error) := node.execution.commitClose stores newHeader
  setStores stores
  raise served.ledgerSeq error
  node.publish served newHeader
  let (stores, error) := node.execution.finish stores newHeader
  setStores stores
  raise served.ledgerSeq error

def closeLedger (served : LedgerHeader H X) (closeData : LedgerCloseData H T D) :
    Catchup H X S Unit := do
  let world ← get
  let manager := world.manager
  let expectedSeq := manager.header.ledgerSeq + 1
  failIf (closeData.ledgerSeq ≠ expectedSeq)
    (replayError served.ledgerSeq (.invalidSequence expectedSeq closeData.ledgerSeq))
  failIf (closeData.prevLedgerHash ≠ manager.headerHash)
    (replayError served.ledgerSeq .hashMismatch)
  let (stores, applied) :=
    node.execution.applyTransactions manager.stores manager.header closeData
  setStores stores
  match applied with
  | .error error => throw (replayError served.ledgerSeq error)
  | .ok fields => do
    let newHeader := node.createNextHeader manager closeData fields
    failIf (closeData.expectedHeaderHash.any (node.format.computeHeaderHash newHeader ≠ ·))
      (replayError served.ledgerSeq .hashMismatch)
    node.commitClose served newHeader stores

/-! ### Replaying a batch -/

def verifyTxSet (data : LedgerData H T R X) : Except HistoryError Unit :=
  if node.format.computeTxSetHash data.txSet ≠ data.header.txSetHash then
    .error (.invalidTxSetHash data.header.ledgerSeq)
  else .ok ()

def verifyTxResultSet (data : LedgerData H T R X) : Except HistoryError Unit :=
  match data.txResultEntry with
  | some entry =>
    let xdr := node.format.resultSetXdr entry.txResultSet
    if data.header.ledgerSeq = 1 ∧ xdr = [] then .ok ()
    else if node.format.hashBytes xdr ≠ data.header.txSetResultHash then
      .error (.verificationHashMismatch .txResultSet data.header.ledgerSeq)
    else .ok ()
  | none => .ok ()

def verifyTxsets (ledgerData : List (LedgerData H T R X)) : Except HistoryError Unit :=
  ledgerData.forM fun data => do
    node.verifyTxSet data
    node.verifyTxResultSet data

def persistLedgerHistory (ledgerData : List (LedgerData H T R X)) : Catchup H X S Unit :=
  if ledgerData.isEmpty then pure ()
  else do
    let persisted ← request node.answers.persists
    failIf (!persisted) .catchupFailed

/-- The queue drains in the end, unless reading its length fails. -/
def waitForPublishQueue : Catchup H X S Unit := do
  let answered ← request node.answers.readsPublishQueue
  failIf (!answered) .catchupFailed

def replayOne (data : LedgerData H T R X) : Catchup H X S Unit := do
  (if node.replayConfig.waitForPublish then node.waitForPublishQueue else pure ())
  let snapshot ← headerSnapshot
  node.closeLedger data.header {
    ledgerSeq := data.header.ledgerSeq
    txSet := data.txSet
    closeTime := data.header.closeTime
    prevLedgerHash := snapshot.hash
    stellarValueExt := data.header.ext
    upgrades := data.header.upgrades.filterMap node.format.decodeUpgrade
    expectedHeaderHash :=
      if node.replayConfig.verifyHeaderHash then some (node.format.computeHeaderHash data.header)
      else none }

def replayViaCloseLedger (ledgerData : List (LedgerData H T R X)) : Catchup H X S Unit := do
  failIf ledgerData.isEmpty .catchupFailed
  ledgerData.forM node.replayOne

/-- Download, check, persist and replay the ledgers of one batch; the ledger reached. -/
def replayOneBatch (gateArchive : Nat) (firstBatchLcl : Option (LclContext H))
    (batchFrom batchTo : Nat) : Catchup H X S Nat := do
  let snapshot ← headerSnapshot
  let lclForBatch := firstBatchLcl.getD (.ofSnapshot snapshot)
  let ledgerData ← downloadLedgerData node.freq node.answers node.format node.archives
    (some gateArchive) batchFrom batchTo lclForBatch
  check (node.verifyTxsets ledgerData)
  node.persistLedgerHistory ledgerData
  node.replayViaCloseLedger ledgerData
  let reached ← headerSnapshot
  pure reached.header.ledgerSeq

/-- Batch by batch up to the target. Every batch advances, so that as many rounds as there
are ledgers suffice. -/
def driveReplayBatches (gateArchive target : Nat) :
    Nat → Option (LclContext H) → Nat → Catchup H X S Nat
  | rounds, firstBatchLcl, batchFrom =>
    if batchFrom < target then
      match rounds with
      | 0 => throw .catchupFailed
      | rounds + 1 => do
        let batchTo := min (node.freq.checkpointLedger (batchFrom + 1)) target
        let newLclSeq ← node.replayOneBatch gateArchive firstBatchLcl batchFrom batchTo
        failIf (newLclSeq ≤ batchFrom) .catchupFailed
        driveReplayBatches gateArchive target rounds none newLclSeq
    else pure batchFrom

/-! ### Attempts -/

def trustSource : TrustSource H :=
  match node.trustedScpAnchor with
  | some (seq, hash) => .scp seq hash
  | none => .none

def verifyHeaderChain (headers : List (LedgerHeader H X)) (lcl : HeaderSnapshot H X) :
    Except HistoryError Unit :=
  if headers.isEmpty then .ok ()
  else if node.replayConfig.verifyHeaderChain then
    verifyReverseWalk node.format node.freq headers {
      trustSource := node.trustSource
      lcl := some (lcl.header.ledgerSeq, lcl.hash)
      maxSupportedVersion := node.maxSupportedVersion
      minSupportedVersion := node.minSupportedVersion }
  else .ok ()

/-- The ledger that is reached, and how many were applied. -/
def downloadVerifyAndReplayOnce (downloadFrom target : Nat) (lcl : LclContext H) :
    Catchup H X S (HeaderSnapshot H X × Nat) := do
  let (currentLedger, gateArchive) ← downloadHas node.answers node.archives
    (node.freq.checkpointLedger target)
  check (checkpointPublicationGate node.freq currentLedger target)
  let (headers, knitEntries) ← downloadLedgerHeaders node.freq node.answers node.format
    node.archives (some gateArchive) downloadFrom target
  let lclSnapshot ← headerSnapshot
  check (verifyKnitToLcl node.format knitEntries headers.head? lclSnapshot)
  check (node.verifyHeaderChain headers lclSnapshot)
  modify fun world => { world with verified := headers }
  let initial ← headerSnapshot
  let _ ← node.driveReplayBatches gateArchive target target (some lcl) initial.header.ledgerSeq
  let snapshot ← headerSnapshot
  pure (snapshot, snapshot.header.ledgerSeq - downloadFrom)

/-- One attempt, from the ledger that was reached. -/
def attempt (target : Nat) : Catchup H X S (HeaderSnapshot H X × Nat) := do
  let snapshot ← headerSnapshot
  let currentLcl := snapshot.header.ledgerSeq
  if currentLcl + 1 > target then pure (snapshot, target - currentLcl)
  else node.downloadVerifyAndReplayOnce currentLcl target (.ofSnapshot snapshot)

def downloadVerifyAndReplayWithRetries (target : Nat) :
    Nat → Catchup H X S (HeaderSnapshot H X × Nat)
  | 0 => node.attempt target
  | retries + 1 =>
    tryCatch (node.attempt target) fun error =>
      if error.isFatalCatchupFailure then throw error
      else downloadVerifyAndReplayWithRetries target retries

def replayRetryCount : Nat := 5

def downloadVerifyAndReplayWithRetry (target : Nat) : Catchup H X S (HeaderSnapshot H X × Nat) :=
  node.downloadVerifyAndReplayWithRetries target replayRetryCount

end CatchupManager

end Henyey.Catchup
