import Mathlib.Data.Finset.Insert

/-!
# Lifetimes of contract entries

The state of a ledger that is being closed, as far as it is about the ledgers until which
entries live, and the transactions that touch it. Bumps of entries that a transaction only
reads are deferred: they are recorded for its metadata and reach the entries later.
-/

namespace Henyey.Ttl

open Function

variable {κ : Type} [DecidableEq κ]

inductive ChangeRef
  | created (index : Nat)
  | updated (index : Nat)
  | deleted (index : Nat)

/-- The recorded changes of lifetimes, in the order of `changeOrder`. -/
structure TxChangeLog (κ : Type) where
  created : List (κ × Nat)
  updated : List (κ × Nat)
  deleted : List κ
  changeOrder : List ChangeRef

structure ChangeLogLengths where
  created : Nat
  updated : Nat
  deleted : Nat
  changeOrder : Nat

namespace TxChangeLog

def empty : TxChangeLog κ where
  created := []
  updated := []
  deleted := []
  changeOrder := []

def recordCreate (log : TxChangeLog κ) (keyHash : κ) (liveUntil : Nat) : TxChangeLog κ :=
  { log with
    created := log.created ++ [(keyHash, liveUntil)]
    changeOrder := log.changeOrder ++ [.created log.created.length] }

def recordUpdate (log : TxChangeLog κ) (keyHash : κ) (liveUntil : Nat) : TxChangeLog κ :=
  { log with
    updated := log.updated ++ [(keyHash, liveUntil)]
    changeOrder := log.changeOrder ++ [.updated log.updated.length] }

def recordDelete (log : TxChangeLog κ) (keyHash : κ) : TxChangeLog κ :=
  { log with
    deleted := log.deleted ++ [keyHash]
    changeOrder := log.changeOrder ++ [.deleted log.deleted.length] }

/-- The first created entry with the key gets the new value. -/
def rewriteFirst (keyHash : κ) (liveUntil : Nat) : List (κ × Nat) → List (κ × Nat)
  | [] => []
  | entry :: rest =>
    if entry.1 = keyHash then (keyHash, liveUntil) :: rest
    else entry :: rewriteFirst keyHash liveUntil rest

def updateCreatedTtl (log : TxChangeLog κ) (keyHash : κ) (liveUntil : Nat) : TxChangeLog κ :=
  { log with created := rewriteFirst keyHash liveUntil log.created }

def snapshotLengths (log : TxChangeLog κ) : ChangeLogLengths where
  created := log.created.length
  updated := log.updated.length
  deleted := log.deleted.length
  changeOrder := log.changeOrder.length

def truncateTo (log : TxChangeLog κ) (lengths : ChangeLogLengths) : TxChangeLog κ where
  created := log.created.take lengths.created
  updated := log.updated.take lengths.updated
  deleted := log.deleted.take lengths.deleted
  changeOrder := log.changeOrder.take lengths.changeOrder

end TxChangeLog

structure LedgerStateManager (κ : Type) where
  ledgerSeq : Nat
  ttlEntries : κ → Option Nat
  /-- The lifetimes at the start of the ledger. -/
  ttlBucketListSnapshot : κ → Option Nat
  modifiedTtl : List κ
  deferredRoTtlBumps : κ → Option Nat
  deferredRoTtlBumpsSnapshot : Option (κ → Option Nat)
  /-- What the entries that the transaction touched were before. -/
  ttlSnapshots : κ → Option (Option Nat)
  createdTtl : Finset κ
  delta : TxChangeLog κ
  deltaSnapshot : Option ChangeLogLengths

namespace LedgerStateManager

def start (ledgerSeq : Nat) (ttls : κ → Option Nat) : LedgerStateManager κ where
  ledgerSeq := ledgerSeq
  ttlEntries := ttls
  ttlBucketListSnapshot := ttls
  modifiedTtl := []
  deferredRoTtlBumps _ := none
  deferredRoTtlBumpsSnapshot := none
  ttlSnapshots _ := none
  createdTtl := ∅
  delta := .empty
  deltaSnapshot := none

def trackModified (keys : List κ) (keyHash : κ) : List κ :=
  if keyHash ∈ keys then keys else keys ++ [keyHash]

/-- A value that is saved already stays. -/
def saveSnapshot (snapshots : κ → Option (Option Nat)) (keyHash : κ) (value : Option Nat) :
    κ → Option (Option Nat) :=
  if (snapshots keyHash).isSome then snapshots else update snapshots keyHash (some value)

def createTtl (state : LedgerStateManager κ) (keyHash : κ) (liveUntil : Nat) :
    LedgerStateManager κ :=
  { state with
    ttlSnapshots := saveSnapshot state.ttlSnapshots keyHash none
    delta := state.delta.recordCreate keyHash liveUntil
    ttlEntries := update state.ttlEntries keyHash (some liveUntil)
    createdTtl := insert keyHash state.createdTtl
    modifiedTtl := trackModified state.modifiedTtl keyHash }

def updateTtl (state : LedgerStateManager κ) (keyHash : κ) (liveUntil : Nat) :
    LedgerStateManager κ :=
  if state.ttlEntries keyHash = some liveUntil then state
  else { state with
    ttlSnapshots := saveSnapshot state.ttlSnapshots keyHash (state.ttlEntries keyHash)
    ttlEntries := update state.ttlEntries keyHash (some liveUntil)
    modifiedTtl := trackModified state.modifiedTtl keyHash }

/-- The snapshot is overwritten, so that no change is recorded later. -/
def updateTtlNoDelta (state : LedgerStateManager κ) (keyHash : κ) (liveUntil : Nat) :
    LedgerStateManager κ :=
  if state.ttlEntries keyHash = some liveUntil then state
  else { state with
    ttlEntries := update state.ttlEntries keyHash (some liveUntil)
    ttlSnapshots := update state.ttlSnapshots keyHash (some (some liveUntil))
    modifiedTtl := trackModified state.modifiedTtl keyHash }

/-- The greatest of the bumps of a key is kept. -/
def keepHighest (bumps : κ → Option Nat) (keyHash : κ) (liveUntil : Nat) : κ → Option Nat :=
  update bumps keyHash (some (max ((bumps keyHash).getD 0) liveUntil))

def recordRoTtlBumpForMeta (state : LedgerStateManager κ) (keyHash : κ) (liveUntil : Nat) :
    LedgerStateManager κ :=
  match state.ttlEntries keyHash with
  | none => state
  | some existing =>
    if existing = liveUntil then state
    else { state with
      delta := state.delta.recordUpdate keyHash liveUntil
      deferredRoTtlBumps := keepHighest state.deferredRoTtlBumps keyHash liveUntil }

/-- A bump that is higher than the entry reaches it. -/
def applyBump (state : LedgerStateManager κ) (keyHash : κ) (liveUntil : Nat) :
    LedgerStateManager κ :=
  match state.ttlEntries keyHash with
  | some existing =>
    if existing < liveUntil then state.updateTtlNoDelta keyHash liveUntil else state
  | none => state

def flushRoTtlBump (state : LedgerStateManager κ) (keyHash : κ) : LedgerStateManager κ :=
  match state.deferredRoTtlBumps keyHash with
  | some bumped =>
    applyBump { state with
      deferredRoTtlBumps := update state.deferredRoTtlBumps keyHash none }
      keyHash bumped
  | none => state

def flushRoTtlBumpsForWriteFootprint (state : LedgerStateManager κ) (writeKeys : List κ) :
    LedgerStateManager κ :=
  writeKeys.foldl flushRoTtlBump state

/-- Bumps reach their entries, those of the given keys. -/
def flushDeferredRoTtlBumps (state : LedgerStateManager κ) (keys : List κ) : LedgerStateManager κ :=
  let bumps := state.deferredRoTtlBumps
  let state := { state with deferredRoTtlBumps := fun _ => none }
  keys.foldl (fun state keyHash =>
    match bumps keyHash with
    | some bumped => state.applyBump keyHash bumped
    | none => state) state

def extendTtl (state : LedgerStateManager κ) (keyHash : κ) (liveUntil : Nat) :
    LedgerStateManager κ :=
  match state.ttlEntries keyHash with
  | none => state
  | some existing =>
    if existing < liveUntil then
      if keyHash ∈ state.createdTtl then
        -- the entry that was recorded as created is rewritten
        { state with
          delta := state.delta.updateCreatedTtl keyHash liveUntil
          ttlEntries := update state.ttlEntries keyHash (some liveUntil) }
      else { state with
        ttlSnapshots := saveSnapshot state.ttlSnapshots keyHash (some existing)
        ttlEntries := update state.ttlEntries keyHash (some liveUntil)
        modifiedTtl := trackModified state.modifiedTtl keyHash }
    else state

def deleteTtl (state : LedgerStateManager κ) (keyHash : κ) : LedgerStateManager κ :=
  let existing := state.ttlEntries keyHash
  let snapshots := saveSnapshot state.ttlSnapshots keyHash existing
  { state with
    ttlSnapshots := snapshots
    delta := if existing.isSome ∨ (snapshots keyHash).join.isSome then
        state.delta.recordDelete keyHash
      else state.delta
    ttlEntries := update state.ttlEntries keyHash none }

/-! ### The end of a transaction -/

/-- Changed entries that were not created are recorded. -/
def recordModified (state : LedgerStateManager κ) (delta : TxChangeLog κ) (keyHash : κ) :
    TxChangeLog κ :=
  if keyHash ∈ state.createdTtl then delta
  else match state.ttlSnapshots keyHash, state.ttlEntries keyHash with
    | some (some before), some entry =>
      if entry = before then delta else delta.recordUpdate keyHash entry
    | _, _ => delta

def flushModifiedEntries (state : LedgerStateManager κ) : LedgerStateManager κ :=
  { state with
    delta := state.modifiedTtl.foldl state.recordModified state.delta
    modifiedTtl := [] }

def snapshotDelta (state : LedgerStateManager κ) : LedgerStateManager κ :=
  { state with
    deltaSnapshot := some state.delta.snapshotLengths
    deferredRoTtlBumpsSnapshot := some state.deferredRoTtlBumps }

def commit (state : LedgerStateManager κ) : LedgerStateManager κ :=
  { state with
    ttlSnapshots := fun _ => none
    modifiedTtl := []
    createdTtl := ∅ }

def rollbackEntries (state : LedgerStateManager κ) : κ → Option Nat := fun keyHash =>
  match state.ttlSnapshots keyHash with
  | none => state.ttlEntries keyHash
  | some snapshot =>
    if keyHash ∈ state.createdTtl then none
    else snapshot.or (state.ttlEntries keyHash)

/-- Without a snapshot bumps and changes are dropped. -/
def rollback (state : LedgerStateManager κ) : LedgerStateManager κ :=
  { state with
    ttlEntries := state.rollbackEntries
    ttlSnapshots := fun _ => none
    createdTtl := ∅
    deferredRoTtlBumps := state.deferredRoTtlBumpsSnapshot.getD fun _ => none
    deferredRoTtlBumpsSnapshot := none
    modifiedTtl := []
    delta := (state.deltaSnapshot.map state.delta.truncateTo).getD .empty
    deltaSnapshot := none }

end LedgerStateManager


/-- What the host reports of an entry of the footprint. -/
structure NormalizedLedgerChange (κ : Type) where
  key : κ
  readOnly : Bool
  hasNewValue : Bool
  ttlNewLiveUntilLedger : Option Nat

inductive StorageChangeKind
  | modified (liveUntil : Option Nat) (ttlExtended : Bool)
  | ttlOnly (liveUntil : Nat) (readOnly : Bool)
  | deleted
deriving DecidableEq

inductive Operation (κ : Type)
  | invokeHostFunction (changes : List (NormalizedLedgerChange κ)) (readWrite : List κ)
      (hotArchiveRestoredKeys : Finset κ)
  | extendFootprintTtl (readOnly : List κ) (newLiveUntil : Nat)
  | restoreFootprint (readWrite : List κ) (hotArchiveRestores : List κ) (newTtl : Nat)

/-- A rejected transaction performs nothing. What a failed one performed is undone. -/
inductive Outcome
  | success
  | failure
  | rejected

def Operation.writeFootprint : Operation κ → List κ
  | .invokeHostFunction _ readWrite _ => readWrite
  | .extendFootprintTtl _ _ => []
  | .restoreFootprint readWrite _ _ => readWrite

namespace LedgerStateManager

/-- A lifetime counts as extended if it is longer than at the start of the ledger. -/
def ttlExtended (state : LedgerStateManager κ) (change : NormalizedLedgerChange κ) : Bool :=
  match change.ttlNewLiveUntilLedger with
  | some liveUntil => decide ((state.ttlBucketListSnapshot change.key).getD 0 < liveUntil)
  | none => false

def mapStorageChange (state : LedgerStateManager κ) (change : NormalizedLedgerChange κ) :
    Option StorageChangeKind :=
  let isDeletion := !change.readOnly && !change.hasNewValue
  if change.hasNewValue || isDeletion || state.ttlExtended change then
    if change.hasNewValue then
      some (.modified change.ttlNewLiveUntilLedger (state.ttlExtended change))
    else match change.ttlNewLiveUntilLedger with
      | some liveUntil =>
        if state.ttlExtended change then some (.ttlOnly liveUntil change.readOnly) else none
      | none => some .deleted
  else none

def createOrUpdateTtl (state : LedgerStateManager κ) (keyHash : κ) (liveUntil : Nat) :
    LedgerStateManager κ :=
  if (state.ttlEntries keyHash).isSome then state.updateTtl keyHash liveUntil
  else state.createTtl keyHash liveUntil

def applySorobanStorageChange (state : LedgerStateManager κ) (hotArchiveRestoredKeys : Finset κ)
    (key : κ) : StorageChangeKind → LedgerStateManager κ
  | .modified none _ => state
  | .modified (some liveUntil) ttlExtended =>
    if liveUntil = 0 then state
    else if key ∈ hotArchiveRestoredKeys then
      if key ∈ state.delta.created.map Prod.fst then state.updateTtl key liveUntil
      else state.createTtl key liveUntil
    else if ttlExtended then state.createOrUpdateTtl key liveUntil
    else if state.ttlEntries key = none then state.createTtl key liveUntil
    else state
  | .ttlOnly liveUntil readOnly =>
    if liveUntil = 0 ∨ key ∈ hotArchiveRestoredKeys then state
    else if readOnly then state.recordRoTtlBumpForMeta key liveUntil
    else state.createOrUpdateTtl key liveUntil
  | .deleted => state.deleteTtl key

/-- An entry and its lifetime exist together. -/
def deleteContractEntry (state : LedgerStateManager κ) (key : κ) : LedgerStateManager κ :=
  if (state.ttlEntries key).isSome then state.deleteTtl key else state

/-- Entries to be written that the host does not return are deleted. -/
def applySorobanStorageChanges (state : LedgerStateManager κ)
    (changes : List (NormalizedLedgerChange κ)) (readWrite : List κ)
    (hotArchiveRestoredKeys : Finset κ) : LedgerStateManager κ :=
  let mapped := changes.filterMap fun change =>
    (state.mapStorageChange change).map fun kind => (change.key, kind)
  let hostReturnedKeys := (mapped.filter fun change => change.2 ≠ .deleted).map Prod.fst
  let applied := mapped.foldl (fun state change =>
    state.applySorobanStorageChange hotArchiveRestoredKeys change.1 change.2) state
  readWrite.foldl (fun state key =>
    if key ∈ hostReturnedKeys ∨ key ∈ hotArchiveRestoredKeys then state
    else state.deleteContractEntry key) applied

def extendEntry (newLiveUntil : Nat) (state : LedgerStateManager κ) (key : κ) :
    LedgerStateManager κ :=
  match state.ttlEntries key with
  | none => state
  | some ttl =>
    if ttl < state.ledgerSeq then state
    else if newLiveUntil ≤ ttl then state
    else state.extendTtl key newLiveUntil

def restoreEntry (newTtl : Nat) (state : LedgerStateManager κ) (key : κ) : LedgerStateManager κ :=
  match state.ttlEntries key with
  | none => state
  | some ttl => if state.ledgerSeq ≤ ttl then state else state.updateTtl key newTtl

def perform (state : LedgerStateManager κ) : Operation κ → LedgerStateManager κ
  | .invokeHostFunction changes readWrite hotArchiveRestoredKeys =>
    state.applySorobanStorageChanges changes readWrite hotArchiveRestoredKeys
  | .extendFootprintTtl readOnly newLiveUntil => readOnly.foldl (extendEntry newLiveUntil) state
  | .restoreFootprint readWrite hotArchiveRestores newTtl =>
    readWrite.foldl (restoreEntry newTtl)
      (hotArchiveRestores.foldl (fun state key => state.createTtl key newTtl) state)

def beginTransaction (state : LedgerStateManager κ) (op : Operation κ) : LedgerStateManager κ :=
  (state.flushRoTtlBumpsForWriteFootprint op.writeFootprint).snapshotDelta

/-- Sequence numbers and signers are written before the operation. -/
def preApply (state : LedgerStateManager κ) : LedgerStateManager κ :=
  state.flushModifiedEntries.commit

def executeTransaction (state : LedgerStateManager κ) (op : Operation κ) :
    Outcome → LedgerStateManager κ
  | .success => ((state.beginTransaction op).preApply.perform op).flushModifiedEntries.commit
  | .failure => ((state.beginTransaction op).preApply.perform op).flushModifiedEntries.rollback
  | .rejected => state.beginTransaction op

def executeCluster (state : LedgerStateManager κ) (txs : List (Operation κ × Outcome)) :
    LedgerStateManager κ :=
  txs.foldl (fun state tx => state.executeTransaction tx.1 tx.2) state

end LedgerStateManager

end Henyey.Ttl
