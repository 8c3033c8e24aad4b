import Mathlib.Data.List.SplitBy
import Henyey.History.CheckpointBuilder

/-!
# Verifying ledger headers

Headers that an archive serves are checked against the hashes they come with, against each
other, against the last closed ledger and against the header that consensus has confirmed.
-/

namespace Henyey.Catchup

open History (CheckpointFrequency)

inductive StellarValueExt where
  | basic
  | signed (nodeId signature : List UInt8)
  deriving DecidableEq

/-- `rest` is what only the execution reads. -/
structure LedgerHeader (H X : Type) where
  ledgerVersion : Nat
  previousLedgerHash : H
  txSetHash : H
  closeTime : Nat
  upgrades : List (List UInt8)
  ext : StellarValueExt
  txSetResultHash : H
  ledgerSeq : Nat
  rest : X
  deriving DecidableEq

structure LedgerHeaderHistoryEntry (H X : Type) where
  hash : H
  header : LedgerHeader H X
  deriving DecidableEq

structure HeaderSnapshot (H X : Type) where
  header : LedgerHeader H X
  hash : H
  deriving DecidableEq

/-- What an empty transaction set is made from. -/
structure LclContext (H : Type) where
  lclHash : H
  protocolVersion : Nat
  deriving DecidableEq

inductive VerifyHashKind where
  | ledgerHeaderEntry
  | txResultSet
  | topAnchor
  deriving DecidableEq

inductive HistoryError where
  | verificationFailed
  | verificationHashMismatch (kind : VerifyHashKind) (ledger : Nat)
  | invalidPreviousHash (ledger : Nat)
  | invalidTxSetHash (ledger : Nat)
  | invalidSequence (expected got : Nat)
  | replayHashMismatch (ledger : Nat)
  | knitLclPredecessorHashMismatch (ledger : Nat)
  | knitLclHashMismatch
  | knitCurrentLedgerPrevHashMismatch (ledger : Nat)
  | knitOvershot (entrySeq lclSeq : Nat)
  | fatalChainDisagreement
  | unsupportedLedgerVersion (ledger version : Nat)
  | checkpointNotYetPublished (target hasCurrent : Nat)
  | catchupFailed
  /-- An `expect` that does not hold. -/
  | panicked
  deriving DecidableEq

/-- What is not retried. -/
def HistoryError.isFatalCatchupFailure : HistoryError → Bool
  | .checkpointNotYetPublished _ _ | .catchupFailed => false
  | _ => true

/-- How headers, transaction sets and results are encoded and hashed. -/
structure Format (H T R D X : Type) where
  computeHeaderHash : LedgerHeader H X → H
  computeTxSetHash : T → H
  txCount : T → Nat
  makeEmptyTxSet : LclContext H → T
  resultSetXdr : R → List UInt8
  hashBytes : List UInt8 → H
  resultCount : R → Nat
  zeroHash : H
  decodeUpgrade : List UInt8 → Option D

variable {H T R D X : Type} [DecidableEq H] (format : Format H T R D X)

/-! ### Knitting to the last closed ledger -/

inductive KnitDecision where
  | skip
  | apply
  deriving DecidableEq

def knitToLclDecision (entry : LedgerHeaderHistoryEntry H X) (lcl : HeaderSnapshot H X) :
    Except HistoryError KnitDecision :=
  let entrySeq := entry.header.ledgerSeq
  let lclSeq := lcl.header.ledgerSeq
  if entrySeq + 1 < lclSeq then .ok .skip
  else if entrySeq + 1 = lclSeq then
    if lcl.header.previousLedgerHash ≠ entry.hash then
      .error (.knitLclPredecessorHashMismatch entrySeq)
    else .ok .skip
  else if entrySeq = lclSeq then
    if entry.hash ≠ lcl.hash then .error .knitLclHashMismatch else .ok .skip
  else if entrySeq ≠ lclSeq + 1 then .error (.knitOvershot entrySeq lclSeq)
  else if entry.header.previousLedgerHash ≠ lcl.hash then
    .error (.knitCurrentLedgerPrevHashMismatch entrySeq)
  else .ok .apply

/-- The first entry to apply comes without its hash, which is not looked at. -/
def verifyKnitToLcl (knitEntries : List (LedgerHeaderHistoryEntry H X))
    (applyFirstHeader : Option (LedgerHeader H X)) (lcl : HeaderSnapshot H X) :
    Except HistoryError Unit := do
  knitEntries.forM fun entry => do
    let _ ← knitToLclDecision entry lcl
  match applyFirstHeader with
  | some header =>
    let _ ← knitToLclDecision { hash := format.zeroHash, header } lcl
  | none => pure ()

def checkpointPublicationGate (freq : CheckpointFrequency) (hasCurrentLedger target : Nat) :
    Except HistoryError Unit :=
  if hasCurrentLedger < freq.checkpointLedger target then
    .error (.checkpointNotYetPublished target hasCurrentLedger)
  else .ok ()

/-! ### Chains of headers -/

/-- `seq + 1` and `seq - 1` on 32 bits, without overflow checks. -/
def succ32 (seq : Nat) : Nat := (seq + 1) % 2 ^ 32

def pred32 (seq : Nat) : Nat := (seq + (2 ^ 32 - 1)) % 2 ^ 32

/-- Every header follows on the one before it. -/
def verifyHeaderChainInner : List (LedgerHeader H X) → Except HistoryError Unit
  | prev :: curr :: rest =>
    if curr.ledgerSeq ≠ succ32 prev.ledgerSeq then
      .error (.invalidSequence (succ32 prev.ledgerSeq) curr.ledgerSeq)
    else if format.computeHeaderHash prev ≠ curr.previousLedgerHash then
      .error (.invalidPreviousHash curr.ledgerSeq)
    else verifyHeaderChainInner (curr :: rest)
  | _ => .ok ()

def verifyLedgerHeaderHistoryEntry (entry : LedgerHeaderHistoryEntry H X) : Except HistoryError H :=
  let computedHash := format.computeHeaderHash entry.header
  if computedHash ≠ entry.hash then
    .error (.verificationHashMismatch .ledgerHeaderEntry entry.header.ledgerSeq)
  else .ok computedHash

def verifyHeaderChainFromEntries (entries : List (LedgerHeaderHistoryEntry H X)) :
    Except HistoryError Unit := do
  entries.forM fun entry => do
    let _ ← verifyLedgerHeaderHistoryEntry format entry
  verifyHeaderChainInner format (entries.map LedgerHeaderHistoryEntry.header)

/-! ### The reverse walk -/

inductive TrustSource (H : Type) where
  | scp (seq : Nat) (hash : H)
  | none

structure ReverseWalkConfig (H : Type) where
  trustSource : TrustSource H
  lcl : Option (Nat × H)
  maxSupportedVersion : Nat
  minSupportedVersion : Nat

/-- What the walk carries from one checkpoint to the checkpoint below. -/
structure Walk (H : Type) where
  crossCheckpointLink : Option (Nat × H)
  pendingTrustAnchor : Option (Nat × H)
  localStateDisagrees : Bool

/-- Genesis has version 0. -/
def verifySupportedVersion (config : ReverseWalkConfig H) (header : LedgerHeader H X) :
    Except HistoryError Unit :=
  if header.ledgerVersion ≠ 0 ∧ (header.ledgerVersion > config.maxSupportedVersion ∨
      header.ledgerVersion < config.minSupportedVersion) then
    .error (.unsupportedLedgerVersion header.ledgerSeq header.ledgerVersion)
  else .ok ()

def verifyCrossCheckpointLink (link : Option (Nat × H)) (last : LedgerHeader H X) :
    Except HistoryError Unit :=
  match link with
  | some (_, expectedHash) =>
    if format.computeHeaderHash last ≠ expectedHash then
      .error (.verificationHashMismatch .topAnchor last.ledgerSeq)
    else .ok ()
  | none => .ok ()

/-- Check the trust anchor if it falls into this checkpoint; what is still pending. -/
def verifyTrustAnchor (group : List (LedgerHeader H X)) (first last : LedgerHeader H X) :
    Option (Nat × H) → Except HistoryError (Option (Nat × H))
  | some (anchorSeq, anchorHash) =>
    if anchorSeq > last.ledgerSeq then .error (.invalidSequence anchorSeq last.ledgerSeq)
    else if anchorSeq ≥ first.ledgerSeq then
      match group.find? fun header => header.ledgerSeq == anchorSeq with
      | some target =>
        if format.computeHeaderHash target ≠ anchorHash then
          .error (.verificationHashMismatch .topAnchor target.ledgerSeq)
        else .ok none
      | none => .error .panicked
    else .ok (some (anchorSeq, anchorHash))
  | none => .ok none

def disagreesWithLcl (lcl : Option (Nat × H)) (header : LedgerHeader H X) : Bool :=
  match lcl with
  | some (lclSeq, lclHash) =>
    if header.ledgerSeq = lclSeq then format.computeHeaderHash header ≠ lclHash
    else if header.ledgerSeq = succ32 lclSeq then header.previousLedgerHash ≠ lclHash
    else false
  | none => false

/-- The headers of one checkpoint. -/
def verifyGroup (config : ReverseWalkConfig H) (walk : Walk H) (group : List (LedgerHeader H X)) :
    Except HistoryError (Walk H) := do
  verifyHeaderChainInner format group
  match group.head?, group.getLast? with
  | some first, some last =>
    verifyCrossCheckpointLink format walk.crossCheckpointLink last
    let pendingTrustAnchor ← verifyTrustAnchor format group first last walk.pendingTrustAnchor
    pure {
      crossCheckpointLink := some (pred32 first.ledgerSeq, first.previousLedgerHash)
      pendingTrustAnchor
      localStateDisagrees :=
        walk.localStateDisagrees || group.any (disagreesWithLcl format config.lcl) }
  | _, _ => pure walk

def checkpointGroups (freq : CheckpointFrequency) (headers : List (LedgerHeader H X)) :
    List (List (LedgerHeader H X)) :=
  headers.splitBy fun prev curr =>
    freq.checkpointLedger curr.ledgerSeq == freq.checkpointLedger prev.ledgerSeq

/-- From the highest checkpoint to the lowest. -/
def verifyReverseWalk (freq : CheckpointFrequency) (headers : List (LedgerHeader H X))
    (config : ReverseWalkConfig H) : Except HistoryError Unit := do
  if headers.isEmpty then
    return
  headers.forM (verifySupportedVersion config)
  let start : Walk H := {
    crossCheckpointLink := none
    pendingTrustAnchor :=
      match config.trustSource with
      | .scp seq hash => some (seq, hash)
      | .none => none
    localStateDisagrees := false }
  let walk ← (checkpointGroups freq headers).reverse.foldlM (verifyGroup format config) start
  match walk.pendingTrustAnchor with
  | some (anchorSeq, _) =>
    throw (.invalidSequence anchorSeq ((headers.head?.map LedgerHeader.ledgerSeq).getD 0))
  | none => pure ()
  if walk.localStateDisagrees then
    match config.trustSource with
    | .scp _ _ => throw .fatalChainDisagreement
    | .none => throw (.invalidPreviousHash ((config.lcl.map fun lcl => succ32 lcl.1).getD 0))

end Henyey.Catchup
