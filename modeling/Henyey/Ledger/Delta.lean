import Henyey.Ledger.Entry
import Mathlib.Data.List.Nodup
import Mathlib.Data.List.Perm.Basic

/-!
# Ledger deltas

A delta coalesces the changes of one ledger, key by key, and hands them to the
bucket list as created, updated and deleted entries.
-/

namespace Henyey.Ledger

inductive LedgerError where
  | internal (message : String)
  | invalidEntry (message : String)
deriving DecidableEq

inductive EntryChange (I D : Type) where
  | created (entry : LedgerEntry I D)
  | updated (previous current : LedgerEntry I D)
  | deleted (previous : LedgerEntry I D)
deriving DecidableEq

/-- The changes of one ledger by key, the keys in the order of their first
change, and what fees and inflation moved. -/
structure LedgerDelta (I D : Type) where
  ledgerSeq : U32
  changes : LedgerKey I → Option (EntryChange I D)
  changeOrder : List (LedgerKey I)
  feePoolDelta : Int64
  totalCoinsDelta : Int64

structure DeltaCategorization (I D : Type) where
  initEntries : List (LedgerEntry I D)
  liveEntries : List (LedgerEntry I D)
  deadKeys : List (LedgerKey I)
  createdCount : Nat
  updatedCount : Nat
  deletedCount : Nat
  hasOffers : Bool
  hasPoolShareTrustlines : Bool
  offerPoolChanges : List (EntryChange I D)

variable {I D : Type}

namespace EntryChange

def key : EntryChange I D → LedgerKey I
  | created entry => entryToKey entry
  | updated _ current => entryToKey current
  | deleted previous => entryToKey previous

/-- The entry that readers see. -/
def visibleEntry : EntryChange I D → Option (LedgerEntry I D)
  | created entry => some entry
  | updated _ current => some current
  | deleted _ => none

end EntryChange

/-- Two writes of a TTL entry keep the one that lives longer; otherwise the
last write stays. -/
def mergeTtlCurrent (key : LedgerKey I) (existing incoming : LedgerEntry I D) :
    Except LedgerError (LedgerEntry I D) :=
  if key.isTtl = false then .ok incoming
  else
    match existing.data, incoming.data with
    | .ttl _ existingLiveUntil, .ttl _ incomingLiveUntil =>
      if existingLiveUntil < incomingLiveUntil then .ok incoming else .ok existing
    | _, _ => .error (.internal "merge_ttl_current: TTL key with non-TTL entry data")

namespace LedgerDelta

def new (ledgerSeq : U32) : LedgerDelta I D where
  ledgerSeq := ledgerSeq
  changes _ := none
  changeOrder := []
  feePoolDelta := 0
  totalCoinsDelta := 0

variable [DecidableEq I]

/-- Replace what is recorded for a key. -/
def insert (d : LedgerDelta I D) (key : LedgerKey I) (change : EntryChange I D) : LedgerDelta I D :=
  { d with changes := Function.update d.changes key (some change) }

/-- Record the first change of a key. -/
def push (d : LedgerDelta I D) (key : LedgerKey I) (change : EntryChange I D) : LedgerDelta I D :=
  { d.insert key change with changeOrder := d.changeOrder ++ [key] }

/-- Forget a key. -/
def remove (d : LedgerDelta I D) (key : LedgerKey I) : LedgerDelta I D :=
  { d with
    changes := Function.update d.changes key none
    changeOrder := d.changeOrder.filter (· ≠ key) }

def recordCreate (entry : LedgerEntry I D) (d : LedgerDelta I D) :
    Except LedgerError (LedgerDelta I D) :=
  let key := entryToKey entry
  match d.changes key with
  | some (.created _) => .ok (d.insert key (.created entry))
  | some (.updated previous _) => .ok (d.insert key (.updated previous entry))
  | some (.deleted previous) => .ok (d.insert key (.updated previous entry))
  | none => .ok (d.push key (.created entry))

def recordUpdate (previous current : LedgerEntry I D) (d : LedgerDelta I D) :
    Except LedgerError (LedgerDelta I D) :=
  let key := entryToKey current
  match d.changes key with
  | some (.created _) => .ok (d.insert key (.created current))
  | some (.updated orig existingCurrent) => do
    let merged ← mergeTtlCurrent key existingCurrent current
    .ok (d.insert key (.updated orig merged))
  | some (.deleted orig) => .ok (d.insert key (.updated orig current))
  | none => .ok (d.push key (.updated previous current))

def recordDelete (entry : LedgerEntry I D) (d : LedgerDelta I D) :
    Except LedgerError (LedgerDelta I D) :=
  if entry.data.isConfigSetting then
    .error (.invalidEntry "cannot delete ConfigSetting entries")
  else
    let key := entryToKey entry
    match d.changes key with
    | some (.created _) => .ok (d.remove key)
    | some (.updated previous _) => .ok (d.insert key (.deleted previous))
    | some (.deleted _) => .ok d
    | none => .ok (d.push key (.deleted entry))

def recordFeePoolDelta (delta : Int64) (d : LedgerDelta I D) : LedgerDelta I D :=
  { d with feePoolDelta := d.feePoolDelta + delta }

def recordTotalCoinsDelta (delta : Int64) (d : LedgerDelta I D) : LedgerDelta I D :=
  { d with totalCoinsDelta := d.totalCoinsDelta + delta }

/-! ### Handing over to the bucket list -/

/-- Take the changes out in order; a key is taken once. -/
def drainChanges : List (LedgerKey I) → (LedgerKey I → Option (EntryChange I D)) →
    List (EntryChange I D)
  | [], _ => []
  | key :: keys, changes =>
    match changes key with
    | none => drainChanges keys changes
    | some change => change :: drainChanges keys (Function.update changes key none)

end LedgerDelta

def EntryChange.stamp (ledgerSeq : U32) : EntryChange I D → EntryChange I D
  | .created entry => .created (entry.stamp ledgerSeq)
  | .updated previous current => .updated previous (current.stamp ledgerSeq)
  | .deleted previous => .deleted previous

def EntryChange.entryRef : EntryChange I D → LedgerEntry I D
  | .created entry => entry
  | .updated _ current => current
  | .deleted previous => previous

namespace DeltaCategorization

def empty : DeltaCategorization I D where
  initEntries := []
  liveEntries := []
  deadKeys := []
  createdCount := 0
  updatedCount := 0
  deletedCount := 0
  hasOffers := false
  hasPoolShareTrustlines := false
  offerPoolChanges := []

/-- Offers and pool shares are collected for the close, pools on demand. -/
def collectForCommit (collectLiquidityPools : Bool) (change : EntryChange I D)
    (c : DeltaCategorization I D) : DeltaCategorization I D :=
  match change.entryRef.data with
  | .offer _ _ _ =>
    { c with hasOffers := true, offerPoolChanges := c.offerPoolChanges ++ [change] }
  | .trustline _ (.poolShare _) _ =>
    { c with
      hasPoolShareTrustlines := true
      offerPoolChanges := c.offerPoolChanges ++ [change] }
  | .liquidityPool _ _ =>
    if collectLiquidityPools then
      { c with offerPoolChanges := c.offerPoolChanges ++ [change] }
    else c
  | _ => c

/-- Sort one change, already stamped, into its list. -/
def sortChange (c : DeltaCategorization I D) : EntryChange I D → DeltaCategorization I D
  | .created entry =>
    { c with
      createdCount := c.createdCount + 1
      initEntries := c.initEntries ++ [entry] }
  | .updated _ current =>
    { c with
      updatedCount := c.updatedCount + 1
      liveEntries := c.liveEntries ++ [current] }
  | .deleted previous =>
    { c with
      deletedCount := c.deletedCount + 1
      deadKeys := c.deadKeys ++ [entryToKey previous] }

end DeltaCategorization

def categorizeChanges (changes : List (EntryChange I D)) (collectLiquidityPools : Bool)
    (ledgerSeq : U32) : DeltaCategorization I D :=
  changes.foldl
    (fun c change =>
      let change := change.stamp ledgerSeq
      (DeltaCategorization.collectForCommit collectLiquidityPools change c).sortChange change)
    .empty

/-- Hand all changes over; what is left knows only the fee and coin totals. -/
def LedgerDelta.drainCategorizationForBucketUpdate [DecidableEq I] (d : LedgerDelta I D)
    (collectLiquidityPools : Bool) : DeltaCategorization I D × LedgerDelta I D :=
  (categorizeChanges (LedgerDelta.drainChanges d.changeOrder d.changes) collectLiquidityPools
      d.ledgerSeq,
    { d with
      changes := fun key => if key ∈ d.changeOrder then none else d.changes key
      changeOrder := [] })

/-! ### Merging deltas -/

namespace LedgerDelta

variable [DecidableEq I]

/-- Bring one change of another delta in. -/
def mergeChange (key : LedgerKey I) (change : EntryChange I D) (d : LedgerDelta I D) :
    Except LedgerError (LedgerDelta I D) :=
  match change with
  | .created entry =>
    match d.changes key with
    | some (.deleted previous) => .ok (d.insert key (.updated previous entry))
    | some (.created _) => .ok (d.insert key (.created entry))
    | some (.updated _ _) => .error (.internal "invalid merge: create on updated entry")
    | none => .ok (d.push key (.created entry))
  | .updated previous current =>
    match d.changes key with
    | some (.created _) => .ok (d.insert key (.created current))
    | some (.updated orig existingCurrent) => do
      let merged ← mergeTtlCurrent key existingCurrent current
      .ok (d.insert key (.updated orig merged))
    | some (.deleted _) => .error (.internal "invalid merge: update on deleted entry")
    | none => .ok (d.push key (.updated previous current))
  | .deleted previous =>
    match d.changes key with
    | some (.created _) => .ok (d.remove key)
    | some (.updated orig _) => .ok (d.insert key (.deleted orig))
    | some (.deleted _) => .ok d
    | none => .ok (d.push key (.deleted previous))

/-- Bring the changes of another delta in, in their order. -/
def mergeChanges (changes : LedgerKey I → Option (EntryChange I D)) :
    List (LedgerKey I) → LedgerDelta I D → Except LedgerError (LedgerDelta I D)
  | [], d => .ok d
  | key :: keys, d =>
    match changes key with
    | none => mergeChanges changes keys d
    | some change => do
      let d ← mergeChange key change d
      mergeChanges changes keys d

def merge (d other : LedgerDelta I D) : Except LedgerError (LedgerDelta I D) := do
  let d ← mergeChanges other.changes other.changeOrder d
  .ok { d with
    feePoolDelta := d.feePoolDelta + other.feePoolDelta
    totalCoinsDelta := d.totalCoinsDelta + other.totalCoinsDelta }

end LedgerDelta

/-! ### Checkpoints -/

structure ChangeCheckpoint (I D : Type) where
  entries : LedgerKey I → Option (EntryChange I D)
  keyOrder : List (LedgerKey I)

def LedgerDelta.checkpoint (d : LedgerDelta I D) : ChangeCheckpoint I D where
  entries := d.changes
  keyOrder := d.changeOrder

/-- One line of the metadata of an upgrade. -/
inductive LedgerEntryChange (I D : Type) where
  | created (entry : LedgerEntry I D)
  | updated (entry : LedgerEntry I D)
  | removed (key : LedgerKey I)
  | state (entry : LedgerEntry I D)
deriving DecidableEq

variable [DecidableEq I] [DecidableEq D]

def emitDiff (key : LedgerKey I) (before after : Option (LedgerEntry I D)) :
    List (LedgerEntryChange I D) :=
  match before, after with
  | some v1, some v2 => if v1 ≠ v2 then [.state v1, .updated v2] else []
  | some v1, none => [.state v1, .removed key]
  | none, some v2 => [.created v2]
  | none, none => []

omit [DecidableEq I] [DecidableEq D] in
def emitNewEntry : EntryChange I D → List (LedgerEntryChange I D)
  | .created entry => [.created entry]
  | .updated previous current => [.state previous, .updated current]
  | .deleted previous => [.state previous, .removed (entryToKey previous)]

/-- What changed since a checkpoint: first the keys of the delta, then the keys
that have vanished from it. -/
def LedgerDelta.changesSince (d : LedgerDelta I D) (cp : ChangeCheckpoint I D) :
    List (LedgerEntryChange I D) :=
  d.changeOrder.flatMap (fun key =>
      match d.changes key with
      | none => []
      | some currentChange =>
        match cp.entries key with
        | some cpChange => emitDiff key cpChange.visibleEntry currentChange.visibleEntry
        | none => emitNewEntry currentChange) ++
    cp.keyOrder.flatMap (fun key =>
      if (d.changes key).isSome then []
      else
        match (cp.entries key).bind EntryChange.visibleEntry with
        | none => []
        | some v1 => [.state v1, .removed (entryToKey v1)])

end Henyey.Ledger
