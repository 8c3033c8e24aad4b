import Henyey.Buckets.Levels
import Henyey.Buckets.Merge

/-!
# The live bucket list

Eleven levels of buckets hold every ledger entry. A closed ledger goes into
level 0; on their schedule levels spill into the ones above, whose merges run in
the background. When a merge finishes, and whether it fails for want of disk
space, is up to the environment.
-/

namespace Henyey.Buckets

open Foundation Ledger

variable {I D H : Type} [LinearOrder I]

/-- What a merge in the background works on. -/
structure AsyncMergeRequest (I D H : Type) [LinearOrder I] where
  curr : Bucket I D H
  snap : Bucket I D H
  keepDeadEntries : DeadEntryPolicy
  protocolVersion : ℕ

/-- A merge in the background: its request, whether the disk is full for it, and
whether its result was received. -/
structure AsyncMergeHandle (I D H : Type) [LinearOrder I] where
  request : AsyncMergeRequest I D H
  diskFull : Option ℕ
  ready : Bool

inductive PendingMerge (I D H : Type) [LinearOrder I] where
  | inMemory (bucket : Bucket I D H)
  | async (handle : AsyncMergeHandle I D H)

/-- What is persisted of a pending merge: its output, or its inputs. -/
inductive PendingMergeState (H : Type) where
  | output (hash : H)
  | inputs (curr snap : H)
deriving DecidableEq

abbrev LiveLevel (I D H : Type) [LinearOrder I] : Type :=
  BucketLevel (Bucket I D H) (PendingMerge I D H)

abbrev LiveLevels (I D H : Type) [LinearOrder I] : Type :=
  Levels (Bucket I D H) (PendingMerge I D H)

def keepTombstoneEntries (keep : Bool) : DeadEntryPolicy := if keep then .keep else .remove

section Merge

variable [DecidableEq H]

/-- What the merge sends. It fails where the disk is full. -/
def AsyncMergeHandle.result (hasher : Hasher (BucketEntry I D) H)
    (handle : AsyncMergeHandle I D H) : Except (BucketError H) (Bucket I D H) :=
  match handle.diskFull with
  | some errno => .error (.transientIo errno)
  | none =>
    mergeBuckets hasher handle.request.curr handle.request.snap
      { keepDeadEntries := handle.request.keepDeadEntries
        maxProtocolVersion := handle.request.protocolVersion }

def AsyncMergeHandle.startMerge (request : AsyncMergeRequest I D H) (diskFull : Option ℕ) :
    AsyncMergeHandle I D H where
  request := request
  diskFull := diskFull
  ready := false

def PendingMerge.resolve (hasher : Hasher (BucketEntry I D) H) :
    PendingMerge I D H → Except (BucketError H) (Bucket I D H)
  | inMemory bucket => .ok bucket
  | async handle => handle.result hasher

end Merge

def mergeInProgress : BucketError H := .merge "bucket merge already in progress"

/-- What the live list does with its buckets at a ledger. -/
def liveOps [DecidableEq H] (hasher : Hasher (BucketEntry I D) H) (protocolVersion : ℕ)
    (diskFull : ℕ → Option ℕ) : LevelOps (Bucket I D H) (PendingMerge I D H) (BucketError H) where
  empty := .empty hasher
  released level bucket := if level = 0 then bucket.clearInMemoryEntries else bucket
  start level keepTombstones curr incoming :=
    .ok (.async (.startMerge
      { curr := curr, snap := incoming, keepDeadEntries := keepTombstoneEntries keepTombstones
        protocolVersion := protocolVersion } (diskFull level)))
  resolve := PendingMerge.resolve hasher
  inProgress := mergeInProgress

/-! ### One level -/

namespace LiveLevel

def pendingMergeState [DecidableEq H] (hasher : Hasher (BucketEntry I D) H)
    (level : LiveLevel I D H) : Option (PendingMergeState H) :=
  match level.next with
  | none => none
  | some (.inMemory bucket) =>
    if bucket.hash = hasher.zero then none else some (.output bucket.hash)
  | some (.async handle) =>
    match handle.ready, handle.result hasher with
    | true, .ok bucket =>
      if bucket.hash = hasher.zero then none else some (.output bucket.hash)
    | _, _ => some (.inputs handle.request.curr.hash handle.request.snap.hash)

/-- Receive the result of a merge. -/
def received (level : LiveLevel I D H) : LiveLevel I D H :=
  match level.next with
  | some (.async handle) => { level with next := some (.async { handle with ready := true }) }
  | _ => level

def resetFailedMerge (level : LiveLevel I D H) : LiveLevel I D H :=
  { level with next := none }

def hash (hasher : Hasher (BucketEntry I D) H) (level : LiveLevel I D H) : H :=
  hasher.concat [level.curr.hash, level.snap.hash]

/-- Merge a ledger into level 0, in memory if the entries are. -/
def prepareFirstLevel [DecidableEq H] (hasher : Hasher (BucketEntry I D) H) (protocolVersion : ℕ)
    (incoming : Bucket I D H) (level : LiveLevel I D H) :
    Except (BucketError H) (LiveLevel I D H) :=
  if level.next.isSome then .error mergeInProgress
  else do
    let merged ←
      if level.curr.hasInMemoryEntries && incoming.hasInMemoryEntries then
        mergeInMemory hasher level.curr incoming protocolVersion
      else
        mergeBuckets hasher level.curr incoming
          { keepDeadEntries := .keep, maxProtocolVersion := protocolVersion
            metadataPolicy := .currentProtocol }
    let merged ←
      if merged.hasInMemoryEntries then .ok merged
      else Bucket.fromSortedEntriesWithInMemory hasher merged.entries
    .ok { level with next := some (.inMemory merged) }

end LiveLevel

/-! ### The batch of a ledger -/

/-- What a ledger writes, as the lists of a batch. -/
structure LedgerBatch (I D : Type) where
  protocolVersion : ℕ
  bucketListType : BucketListType := .live
  initEntries : List (LedgerEntry I D)
  liveEntries : List (LedgerEntry I D)
  deadEntries : List (LedgerKey I)

/-- Keep the last entry under each key. -/
def deduplicateEntries : List (LedgerEntry I D) → List (LedgerEntry I D)
  | [] => []
  | entry :: entries =>
    if entries.any fun later => entryToKey later = entryToKey entry then
      deduplicateEntries entries
    else entry :: deduplicateEntries entries

def firstOccurrences (seen : List (LedgerKey I)) : List (LedgerKey I) → List (LedgerKey I)
  | [] => []
  | key :: keys =>
    if key ∈ seen then firstOccurrences seen keys
    else key :: firstOccurrences (key :: seen) keys

def LedgerBatch.entries (batch : LedgerBatch I D) (skipDedup : Bool) : List (BucketEntry I D) :=
  let useInit := 11 ≤ batch.protocolVersion
  let dedup := fun entries => if skipDedup then entries else deduplicateEntries entries
  let deadEntries := if skipDedup then batch.deadEntries else firstOccurrences [] batch.deadEntries
  (if useInit then [.metaentry (.ofVersion batch.bucketListType batch.protocolVersion)] else []) ++
    ((dedup batch.initEntries).map (if useInit then .initentry else .liveentry) ++
      ((dedup batch.liveEntries).map .liveentry ++ deadEntries.map .deadentry))

def sortByKey (entries : List (BucketEntry I D)) : List (BucketEntry I D) :=
  entries.insertionSort fun a b => a.key ≤ b.key

/-! ### The list -/

structure BucketList (I D H : Type) [LinearOrder I] where
  levels : LiveLevels I D H
  ledgerSeq : ℕ

namespace BucketList

def new (hasher : Hasher (BucketEntry I D) H) : BucketList I D H where
  levels := fun _ => .new (.empty hasher)
  ledgerSeq := 0

/-- The levels in order. -/
def levelList (list : BucketList I D H) : List (LiveLevel I D H) :=
  (List.range bucketListLevels).map list.levels

def hash (hasher : Hasher (BucketEntry I D) H) (list : BucketList I D H) : H :=
  hasher.concat (list.levelList.map (LiveLevel.hash hasher))

/-- Receive what finished in the background. -/
def pollPendingMerges (finished : ℕ → Bool) (list : BucketList I D H) : BucketList I D H :=
  { list with levels := fun l =>
      if finished l then LiveLevel.received (list.levels l) else list.levels l }

/-- Wait for the merges of some levels. The first failure ends it, and one for
want of disk space resets the level. -/
def resolveLevels [DecidableEq H] (hasher : Hasher (BucketEntry I D) H) :
    List ℕ → LiveLevels I D H → LiveLevels I D H × Except (BucketError H) Unit
  | [], levels => (levels, .ok ())
  | l :: ls, levels =>
    match (levels l).next with
    | some (.async handle) =>
      match handle.result hasher with
      | .ok _ => resolveLevels hasher ls (Function.update levels l (LiveLevel.received (levels l)))
      | .error e =>
        if e.isTransientIo then
          (Function.update levels l (LiveLevel.resetFailedMerge (levels l)), .error e)
        else (Function.update levels l (LiveLevel.received (levels l)), .error e)
    | _ => resolveLevels hasher ls levels

def resolveAllPendingMerges [DecidableEq H] (hasher : Hasher (BucketEntry I D) H)
    (list : BucketList I D H) : BucketList I D H × Except (BucketError H) Unit :=
  let (levels, result) := resolveLevels hasher (List.range bucketListLevels) list.levels
  ({ list with levels := levels }, result)

def addBatchInternal [DecidableEq H] (hasher : Hasher (BucketEntry I D) H) (finished : ℕ → Bool)
    (diskFull : ℕ → Option ℕ) (ledgerSeq protocolVersion : ℕ) (newBucket : Bucket I D H)
    (list : BucketList I D H) : Except (BucketError H) (BucketList I D H) :=
  if ledgerSeq = 0 then .error (.merge "ledger sequence must be > 0")
  else do
    let list := list.pollPendingMerges finished
    let ops := liveOps hasher protocolVersion diskFull
    let levels ← spillLevels ops ledgerSeq (bucketListLevels - 1) list.levels
    let level ← LiveLevel.prepareFirstLevel hasher protocolVersion newBucket (levels 0)
    let level ← BucketLevel.commit ops level
    .ok { list with levels := Function.update levels 0 level }

def addBatch [DecidableEq H] (hasher : Hasher (BucketEntry I D) H) (finished : ℕ → Bool)
    (diskFull : ℕ → Option ℕ) (skipDedup : Bool) (ledgerSeq : ℕ) (batch : LedgerBatch I D)
    (list : BucketList I D H) : Except (BucketError H) (BucketList I D H) := do
  let newBucket ← Bucket.freshInMemoryOnly hasher (sortByKey (batch.entries skipDedup))
  let list ← list.addBatchInternal hasher finished diskFull ledgerSeq batch.protocolVersion newBucket
  .ok { list with ledgerSeq := ledgerSeq }

/-! ### Reading -/

/-- Search levels from the newest to the oldest. -/
def getFrom (key : LedgerKey I) : List (LiveLevel I D H) → Option (LedgerEntry I D)
  | [] => none
  | level :: levels =>
    match level.curr.get key with
    | some (.metaentry _) => getFrom key levels
    | some e => e.asLedgerEntry
    | none =>
      match level.snap.get key with
      | some (.metaentry _) => getFrom key levels
      | some e => e.asLedgerEntry
      | none => getFrom key levels

def get (key : LedgerKey I) (list : BucketList I D H) : Option (LedgerEntry I D) :=
  getFrom key list.levelList

/-- The buckets in order of search. -/
def buckets (list : BucketList I D H) : List (Bucket I D H) :=
  list.levelList.flatMap fun level => [level.curr, level.snap]

def yieldLive (seen : List (LedgerKey I)) : List (BucketEntry I D) → List (LedgerEntry I D)
  | [] => []
  | .liveentry entry :: entries =>
    if entryToKey entry ∈ seen then yieldLive seen entries
    else entry :: yieldLive (entryToKey entry :: seen) entries
  | .initentry entry :: entries =>
    if entryToKey entry ∈ seen then yieldLive seen entries
    else entry :: yieldLive (entryToKey entry :: seen) entries
  | .deadentry key :: entries => yieldLive (key :: seen) entries
  | .metaentry _ :: entries => yieldLive seen entries

/-- Iterate over the live entries, leaving out empty buckets. -/
def liveEntriesIter [DecidableEq H] (hasher : Hasher (BucketEntry I D) H)
    (list : BucketList I D H) : List (LedgerEntry I D) :=
  yieldLive [] ((list.buckets.filter fun bucket => !bucket.isEmpty hasher).flatMap Bucket.entries)

/-- Call back with the live entries of the given types until a call says to stop:
the calls made, and whether the scan was completed. -/
def scanEntries (types : List LedgerEntryType) (callback : BucketEntry I D → Bool)
    (seen : List (LedgerKey I)) : List (BucketEntry I D) → List (BucketEntry I D) × Bool
  | [] => ([], true)
  | e :: entries =>
    match e.key, e.entryType with
    | some key, some entryType =>
      if key ∈ seen then scanEntries types callback seen entries
      else if entryType ∈ types then
        if e.isDead then scanEntries types callback (key :: seen) entries
        else if callback e then
          let (calls, completed) := scanEntries types callback (key :: seen) entries
          (e :: calls, completed)
        else ([e], false)
      else scanEntries types callback seen entries
    | _, _ => scanEntries types callback seen entries

def scanForEntriesOfTypes (types : List LedgerEntryType) (callback : BucketEntry I D → Bool)
    (list : BucketList I D H) : List (BucketEntry I D) × Bool :=
  scanEntries types callback [] (list.buckets.flatMap Bucket.entries)

end BucketList

end Henyey.Buckets
