import Henyey.Catchup.Headers

/-!
# Downloading from history archives

An archive may answer every request in its own way, the same request differently each time.
-/

namespace Henyey.Catchup

open History (CheckpointFrequency)

structure TransactionHistoryEntry (T : Type) where
  ledgerSeq : Nat
  txSet : T

structure TransactionHistoryResultEntry (R : Type) where
  ledgerSeq : Nat
  txResultSet : R

structure CheckpointLedgerData (H T R X : Type) where
  headers : List (LedgerHeaderHistoryEntry H X)
  txEntries : List (TransactionHistoryEntry T)
  resultEntries : List (TransactionHistoryResultEntry R)

/-- What is answered to the request of a number: by an archive for a checkpoint, or by the
local database. -/
structure Answers (H T R X : Type) where
  /-- The current ledger of the archive state. -/
  fetchCheckpointHas : Nat → Nat → Nat → Option Nat
  fetchLedgerHeaders : Nat → Nat → Nat → Option (List (LedgerHeaderHistoryEntry H X))
  fetchTransactions : Nat → Nat → Nat → Option (List (TransactionHistoryEntry T))
  fetchResults : Nat → Nat → Nat → Option (List (TransactionHistoryResultEntry R))
  persists : Nat → Bool
  readsPublishQueue : Nat → Bool

/-- The ledger manager: its header, and its stores as one. -/
structure LedgerManager (H X S : Type) where
  header : LedgerHeader H X
  headerHash : H
  stores : S

/-- A ledger that was closed: the header that was reached, the header that was served for
it, and the headers that were verified before the replay. -/
structure Closing (H X : Type) where
  header : LedgerHeader H X
  served : LedgerHeader H X
  verified : List (LedgerHeader H X)

/-- `requests`, `verified` and `closings` keep account of the run. -/
structure World (H X S : Type) where
  manager : LedgerManager H X S
  requests : Nat
  verified : List (LedgerHeader H X)
  /-- The last one first. -/
  closings : List (Closing H X)

abbrev Catchup (H X S : Type) := EStateM HistoryError (World H X S)

/-- A check that reads nothing. -/
def check {H X S α : Type} : Except HistoryError α → Catchup H X S α
  | .ok value => pure value
  | .error error => throw error

def failIf {H X S : Type} (condition : Bool) (error : HistoryError) : Catchup H X S Unit :=
  if condition then throw error else pure ()

variable {H T R D X S : Type} [DecidableEq H]

section Requests

variable (answers : Answers H T R X) (format : Format H T R D X)

def request {α : Type} (answer : Nat → α) : Catchup H X S α := do
  let world ← get
  set { world with requests := world.requests + 1 }
  pure (answer world.requests)

/-- The first answer of some archives. -/
def fromArchives {α : Type} (download : Nat → Catchup H X S (Option α)) :
    List Nat → Catchup H X S (α × Nat)
  | [] => throw .catchupFailed
  | archive :: rest => do
    match ← download archive with
    | some value => pure (value, archive)
    | none => fromArchives download rest

/-- The archive state, with the archive that served it. -/
def downloadHas (archives checkpointSeq : Nat) : Catchup H X S (Nat × Nat) :=
  fromArchives (fun archive => request fun number =>
    answers.fetchCheckpointHas number archive checkpointSeq) (List.range archives)

def archivesFor (archives : Nat) (pinned : Option Nat) : List Nat :=
  match pinned with
  | some archive => [archive]
  | none => List.range archives

def tryDownloadCheckpoint (archive checkpoint : Nat) :
    Catchup H X S (Option (CheckpointLedgerData H T R X)) := do
  match ← request fun number => answers.fetchLedgerHeaders number archive checkpoint with
  | none => pure none
  | some headers =>
    match verifyHeaderChainFromEntries format headers with
    | .error _ => pure none
    | .ok () =>
      match ← request fun number => answers.fetchTransactions number archive checkpoint with
      | none => pure none
      | some txEntries =>
        match ← request fun number => answers.fetchResults number archive checkpoint with
        | none => pure none
        | some resultEntries => pure (some { headers, txEntries, resultEntries })

def downloadCheckpointLedgerData (archives : Nat) (pinned : Option Nat) (checkpoint : Nat) :
    Catchup H X S (CheckpointLedgerData H T R X) := do
  let (data, _) ← fromArchives
    (fun archive => tryDownloadCheckpoint answers format archive checkpoint)
    (archivesFor archives pinned)
  pure data

/-- The header of one ledger, with its hash recomputed. -/
def downloadCheckpointHeader (archives : Nat) (pinned : Option Nat) (ledgerSeq : Nat) :
    Catchup H X S (LedgerHeader H X × H) := do
  let (found, _) ← fromArchives (fun archive => do
    match ← request fun number => answers.fetchLedgerHeaders number archive ledgerSeq with
    | none => pure none
    | some headers =>
      match headers.find? fun entry => entry.header.ledgerSeq == ledgerSeq with
      | none => pure none
      | some entry =>
        match verifyLedgerHeaderHistoryEntry format entry with
        | .error _ => pure none
        | .ok hash => pure (some (entry.header, hash))) (archivesFor archives pinned)
  pure found

end Requests

/-! ### Ranges of ledgers -/

/-- The first ledger of the prefix that is knitted to the last closed ledger. -/
def knitStart (freq : CheckpointFrequency) (fromLedger : Nat) : Nat :=
  let applyStart := fromLedger + 1
  if fromLedger = 0 then applyStart
  else max (freq.checkpointStart applyStart) (fromLedger - 1)

def ledgersByCheckpoint (freq : CheckpointFrequency) (first last : Nat) : List (List Nat) :=
  (List.range' first (last + 1 - first)).splitBy fun seq next =>
    freq.checkpointLedger next == freq.checkpointLedger seq

def CheckpointLedgerData.headerOf (data : CheckpointLedgerData H T R X) (seq : Nat) :
    Option (LedgerHeaderHistoryEntry H X) :=
  data.headers.find? fun entry => entry.header.ledgerSeq == seq

section Downloads

variable (freq : CheckpointFrequency) (answers : Answers H T R X) (format : Format H T R D X)
  (archives : Nat) (pinned : Option Nat)

/-- Sort the header of one ledger: it is applied, or it is knitted to the last closed
ledger if it is there. -/
def collectHeader (data : CheckpointLedgerData H T R X) (applyStart : Nat)
    (collected : List (LedgerHeader H X) × List (LedgerHeaderHistoryEntry H X)) (seq : Nat) :
    Catchup H X S (List (LedgerHeader H X) × List (LedgerHeaderHistoryEntry H X)) :=
  let (headers, knitEntries) := collected
  if seq < applyStart then
    pure (headers, knitEntries ++ (data.headerOf seq).toList)
  else
    match data.headerOf seq with
    | some entry => pure (headers ++ [entry.header], knitEntries)
    | none => throw .catchupFailed

/-- Only the headers are kept. -/
def downloadLedgerHeaders (fromLedger toLedger : Nat) :
    Catchup H X S (List (LedgerHeader H X) × List (LedgerHeaderHistoryEntry H X)) := do
  let applyStart := fromLedger + 1
  if applyStart > toLedger then
    return ([], [])
  (ledgersByCheckpoint freq (knitStart freq fromLedger) toLedger).foldlM
    (fun collected group => do
      let data ← downloadCheckpointLedgerData answers format archives pinned
        (freq.checkpointLedger (group.head?.getD 0))
      group.foldlM (collectHeader data applyStart) collected)
    ([], [])

inductive LedgerTxData (T R : Type) where
  | present (txHistoryEntry : TransactionHistoryEntry T)
      (txResultEntry : TransactionHistoryResultEntry R)
  | absent (txSet : T)

structure LedgerData (H T R X : Type) where
  header : LedgerHeader H X
  txData : LedgerTxData T R

namespace LedgerData

def new (header : LedgerHeader H X) (txHistoryEntry : Option (TransactionHistoryEntry T))
    (txResultEntry : Option (TransactionHistoryResultEntry R)) (lcl : LclContext H) :
    Except HistoryError (LedgerData H T R X) :=
  match txHistoryEntry, txResultEntry with
  | some txEntry, some resultEntry =>
    if header.ledgerSeq ≠ txEntry.ledgerSeq then .error .verificationFailed
    else if header.ledgerSeq ≠ resultEntry.ledgerSeq then .error .verificationFailed
    else if format.txCount txEntry.txSet ≠ format.resultCount resultEntry.txResultSet then
      .error .verificationFailed
    else .ok { header, txData := .present txEntry resultEntry }
  | none, none =>
    if header.previousLedgerHash ≠ lcl.lclHash then .error .verificationFailed
    else .ok { header, txData := .absent (format.makeEmptyTxSet lcl) }
  | some _, none => .error .verificationFailed
  | none, some _ => .error .verificationFailed

def txSet (data : LedgerData H T R X) : T :=
  match data.txData with
  | .present txHistoryEntry _ => txHistoryEntry.txSet
  | .absent txSet => txSet

def txResultEntry (data : LedgerData H T R X) : Option (TransactionHistoryResultEntry R) :=
  match data.txData with
  | .present _ txResultEntry => some txResultEntry
  | .absent _ => none

end LedgerData

/-- The data of one ledger, which is the last closed ledger for the next one. -/
def collectLedger (data : CheckpointLedgerData H T R X) (applyStart : Nat)
    (collected : List (LedgerData H T R X) × LclContext H) (seq : Nat) :
    Catchup H X S (List (LedgerData H T R X) × LclContext H) :=
  let (ledgers, currentLcl) := collected
  if seq < applyStart then pure (ledgers, currentLcl)
  else
    match data.headerOf seq with
    | some entry => do
      let ledger ← check (LedgerData.new format entry.header
        (data.txEntries.find? fun tx => tx.ledgerSeq == seq)
        (data.resultEntries.find? fun result => result.ledgerSeq == seq) currentLcl)
      pure (ledgers ++ [ledger],
        { lclHash := entry.hash, protocolVersion := entry.header.ledgerVersion })
    | none => throw .catchupFailed

/-- The headers, transactions and results of a range. -/
def downloadLedgerData (fromLedger toLedger : Nat) (initialLcl : LclContext H) :
    Catchup H X S (List (LedgerData H T R X)) := do
  let applyStart := fromLedger + 1
  if applyStart > toLedger then
    return []
  let currentLcl ←
    if fromLedger > 0 then do
      let (lclHeader, lclHash) ←
        downloadCheckpointHeader answers format archives pinned fromLedger
      pure { lclHash, protocolVersion := lclHeader.ledgerVersion }
    else pure initialLcl
  let (ledgers, _) ← (ledgersByCheckpoint freq (knitStart freq fromLedger) toLedger).foldlM
    (fun collected group => do
      let data ← downloadCheckpointLedgerData answers format archives pinned
        (freq.checkpointLedger (group.head?.getD 0))
      group.foldlM (collectLedger format data applyStart) collected)
    ([], currentLcl)
  pure ledgers

end Downloads

end Henyey.Catchup
