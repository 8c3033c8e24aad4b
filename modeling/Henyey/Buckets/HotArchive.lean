import Henyey.Buckets.Contents
import Henyey.Buckets.Restart

/-!
# The hot archive bucket list

Archived entries go into a bucket list of their own, and a marker takes them out
again. Its merges are synchronous: the newer entry wins, and the last level drops
the markers.
-/

namespace Henyey.Buckets

open Foundation Ledger

variable {I D H : Type}

def isPersistentEntry (entry : LedgerEntry I D) : Bool :=
  match entry.data with
  | .contractCode _ _ => true
  | .contractData _ _ durability _ => durability = .persistent
  | _ => false

def isPersistentKey : LedgerKey I → Bool
  | .contractCode _ => true
  | .contractData _ _ durability => durability = .persistent
  | _ => false

/-- An archived entry, or a marker that it was restored. -/
inductive HotArchiveBucketEntry (I D : Type) where
  | metaentry (metadata : BucketMetadata)
  | archived (entry : LedgerEntry I D)
  | live (key : LedgerKey I)
deriving DecidableEq

namespace HotArchiveBucketEntry

def key : HotArchiveBucketEntry I D → WithBot (LedgerKey I)
  | metaentry _ => ⊥
  | archived entry => entryToKey entry
  | live key => key

def isMetadata : HotArchiveBucketEntry I D → Bool
  | metaentry _ => true
  | _ => false

def isTombstone : HotArchiveBucketEntry I D → Bool
  | live _ => true
  | _ => false

theorem key_eq_bot_iff {e : HotArchiveBucketEntry I D} : e.key = ⊥ ↔ e.isMetadata = true := by
  cases e <;> simp [key, isMetadata]

end HotArchiveBucketEntry

/-! ### The bucket -/

/-- A bucket keeps its entries sorted. -/
structure HotArchiveBucket (I D H : Type) [LinearOrder I] where
  hash : H
  entries : List (HotArchiveBucketEntry I D)
  sorted : Ascending HotArchiveBucketEntry.key entries

variable [LinearOrder I]

namespace HotArchiveBucket

def empty (hasher : Hasher (HotArchiveBucketEntry I D) H) : HotArchiveBucket I D H where
  hash := hasher.zero
  entries := []
  sorted := .nil

def isEmpty (bucket : HotArchiveBucket I D H) : Bool := bucket.entries.isEmpty

/-- The hash of an empty bucket is the zero hash, and no other hash stands for one. -/
def forSentinelHash [DecidableEq H] (hasher : Hasher (HotArchiveBucketEntry I D) H) (hash : H) :
    Option (HotArchiveBucket I D H) :=
  if hash = hasher.zero then some (empty hasher) else none

/-- What a violated order is reported as. The validator reports corruption only. -/
def sortedUniqueViolated : BucketError H → BucketError H
  | .corruption message =>
    .merge s!"hot archive from_entries: sorted-unique invariant violated: bucket corruption: {message}"
  | e => e

def fromEntries (hasher : Hasher (HotArchiveBucketEntry I D) H)
    (entries : List (HotArchiveBucketEntry I D)) :
    Except (BucketError H) (HotArchiveBucket I D H) :=
  match hcheck : StreamingSortedValidator.validateAll (H := H) {}
      (entries.map HotArchiveBucketEntry.key) with
  | .error e => .error (sortedUniqueViolated e)
  | .ok _ =>
    .ok { hash := fileHash hasher entries, entries := entries
          sorted := (StreamingSortedValidator.validateAll_new_iff entries).mp ⟨_, hcheck⟩ }

/-- Two neighbours under one key. -/
def hasDuplicate : List (HotArchiveBucketEntry I D) → Bool
  | e :: e' :: entries => e.key = e'.key || hasDuplicate (e' :: entries)
  | _ => false

/-- The entries of a ledger in order, with their metadata. -/
def freshEntries (protocolVersion : ℕ) (archivedEntries : List (LedgerEntry I D))
    (restoredKeys : List (LedgerKey I)) : List (HotArchiveBucketEntry I D) :=
  (.metaentry { ledgerVersion := protocolVersion, ext := .v1 .hotArchive } ::
    (archivedEntries.map .archived ++ restoredKeys.map .live)).insertionSort
      fun a b => a.key ≤ b.key

def fresh (hasher : Hasher (HotArchiveBucketEntry I D) H) (protocolVersion : ℕ)
    (archivedEntries : List (LedgerEntry I D)) (restoredKeys : List (LedgerKey I)) :
    Except (BucketError H) (HotArchiveBucket I D H) :=
  if archivedEntries.any fun entry => !isPersistentEntry entry then
    .error (.merge "hot archive fresh: archived entry is not a persistent entry")
  else if restoredKeys.any fun key => !isPersistentKey key then
    .error (.merge "hot archive fresh: restored key is not a persistent key")
  else
    let entries := freshEntries protocolVersion archivedEntries restoredKeys
    if hasDuplicate entries then .error (.merge "hot archive fresh: duplicate key detected")
    else fromEntries hasher entries

/-- The version in the metadata, 0 without any. -/
def getProtocolVersion (bucket : HotArchiveBucket I D H) : ℕ :=
  match lookup HotArchiveBucketEntry.key ⊥ bucket.entries with
  | some (.metaentry metadata) => metadata.ledgerVersion
  | _ => 0

def get (key : LedgerKey I) (bucket : HotArchiveBucket I D H) :
    Option (HotArchiveBucketEntry I D) :=
  lookup HotArchiveBucketEntry.key key bucket.entries

end HotArchiveBucket

/-- The newer entry wins. Markers go where they are not kept. -/
def mergeHotArchiveEntries (keepTombstones : Bool) (curr snap : List (HotArchiveBucketEntry I D)) :
    Except (BucketError H) (List (HotArchiveBucketEntry I D)) :=
  mergeSorted HotArchiveBucketEntry.key (fun e => keepTombstones || !e.isTombstone)
    (fun _ new => .ok (if keepTombstones || !new.isTombstone then some new else none))
    (curr.filter (!·.isMetadata)) (snap.filter (!·.isMetadata))

/-- Merge two buckets. A protocol version of 0 sets no limit. -/
def mergeHotArchiveBuckets (hasher : Hasher (HotArchiveBucketEntry I D) H)
    (curr snap : HotArchiveBucket I D H) (protocolVersion : ℕ) (keepTombstones : Bool) :
    Except (BucketError H) (HotArchiveBucket I D H) :=
  if snap.isEmpty && curr.isEmpty && protocolVersion = 0 then .ok (.empty hasher)
  else
    let outputVersion := max curr.getProtocolVersion snap.getProtocolVersion
    if 0 < protocolVersion && protocolVersion < outputVersion then
      .error (.merge s!"hot archive bucket protocol version {outputVersion} exceeds max {protocolVersion}")
    else do
      let metadata :=
        if 11 ≤ outputVersion then [.metaentry (.ofVersion .hotArchive outputVersion)] else []
      let merged ← mergeHotArchiveEntries keepTombstones curr.entries snap.entries
      let entries := metadata ++ merged
      if entries.isEmpty then .ok (.empty hasher) else HotArchiveBucket.fromEntries hasher entries

/-! ### The list -/

abbrev HotArchiveBucketLevel (I D H : Type) [LinearOrder I] : Type :=
  BucketLevel (HotArchiveBucket I D H) (HotArchiveBucket I D H)

/-- What the hot archive does with its buckets at a ledger: a merge is over when
it is started. -/
def hotOps (hasher : Hasher (HotArchiveBucketEntry I D) H) (protocolVersion : ℕ) :
    LevelOps (HotArchiveBucket I D H) (HotArchiveBucket I D H) (BucketError H) where
  empty := .empty hasher
  released _ bucket := bucket
  start _ keepTombstones curr incoming :=
    mergeHotArchiveBuckets hasher curr incoming protocolVersion keepTombstones
  resolve := .ok
  inProgress := .merge "hot archive bucket merge already in progress"

namespace HotArchiveBucketLevel

def hash (hasher : Hasher (HotArchiveBucketEntry I D) H)
    (level : HotArchiveBucketLevel I D H) : H :=
  hasher.concat [level.curr.hash, level.snap.hash]

def pendingMergeOutputHash [DecidableEq H] (hasher : Hasher (HotArchiveBucketEntry I D) H)
    (level : HotArchiveBucketLevel I D H) : Option H :=
  match level.next with
  | some bucket => if bucket.hash = hasher.zero then none else some bucket.hash
  | none => none

end HotArchiveBucketLevel

structure HotArchiveBucketList (I D H : Type) [LinearOrder I] where
  levels : Levels (HotArchiveBucket I D H) (HotArchiveBucket I D H)
  ledgerSeq : ℕ

/-- What a ledger archives and restores. -/
structure HotArchiveBatch (I D : Type) where
  protocolVersion : ℕ
  archivedEntries : List (LedgerEntry I D)
  restoredKeys : List (LedgerKey I)

namespace HotArchiveBucketList

def new (hasher : Hasher (HotArchiveBucketEntry I D) H) : HotArchiveBucketList I D H where
  levels := fun _ => .new (.empty hasher)
  ledgerSeq := 0

def levelList (list : HotArchiveBucketList I D H) : List (HotArchiveBucketLevel I D H) :=
  (List.range bucketListLevels).map list.levels

def hash (hasher : Hasher (HotArchiveBucketEntry I D) H) (list : HotArchiveBucketList I D H) : H :=
  hasher.concat (list.levelList.map (HotArchiveBucketLevel.hash hasher))

def addBatchInternal (hasher : Hasher (HotArchiveBucketEntry I D) H) (ledgerSeq protocolVersion : ℕ)
    (newBucket : HotArchiveBucket I D H)
    (list : HotArchiveBucketList I D H) : Except (BucketError H) (HotArchiveBucketList I D H) :=
  if ledgerSeq = 0 then .error (.merge "ledger sequence must be > 0")
  else do
    let ops := hotOps hasher protocolVersion
    let levels ← spillLevels ops ledgerSeq (bucketListLevels - 1) list.levels
    let level ← (levels 0).prepare ops 0 (blKeepTombstoneEntries 0) false newBucket
    let level ← BucketLevel.commit ops level
    .ok { list with levels := Function.update levels 0 level }

def addBatch (hasher : Hasher (HotArchiveBucketEntry I D) H) (ledgerSeq : ℕ)
    (batch : HotArchiveBatch I D) (list : HotArchiveBucketList I D H) :
    Except (BucketError H) (HotArchiveBucketList I D H) :=
  if batch.protocolVersion < 23 then
    .error (.merge "hot archive not supported before protocol 23")
  else do
    let newBucket ← HotArchiveBucket.fresh hasher batch.protocolVersion batch.archivedEntries
      batch.restoredKeys
    let list ← list.addBatchInternal hasher ledgerSeq batch.protocolVersion newBucket
    .ok { list with ledgerSeq := ledgerSeq }

/-- Search buckets from the newest to the oldest. -/
def getFrom (key : LedgerKey I) : List (HotArchiveBucket I D H) → Option (LedgerEntry I D)
  | [] => none
  | bucket :: buckets =>
    match bucket.get key with
    | some (.archived entry) => some entry
    | some (.live _) => none
    | _ => getFrom key buckets

/-- Look up an archived entry. -/
def get (key : LedgerKey I) (list : HotArchiveBucketList I D H) : Option (LedgerEntry I D) :=
  getFrom key (list.levelList.flatMap fun level => [level.curr, level.snap])

/-! ### Restarting -/

variable [DecidableEq H]

def loadAndVerify (load : H → Except (BucketError H) (HotArchiveBucket I D H)) (hash : H) :
    Except (BucketError H) (HotArchiveBucket I D H) := do
  let bucket ← load hash
  if bucket.hash = hash then .ok bucket else .error (.hashMismatch hash bucket.hash)

def loadOrSentinel (hasher : Hasher (HotArchiveBucketEntry I D) H)
    (load : H → Except (BucketError H) (HotArchiveBucket I D H)) (hash : H) :
    Except (BucketError H) (HotArchiveBucket I D H) :=
  match HotArchiveBucket.forSentinelHash hasher hash with
  | some bucket => .ok bucket
  | none => loadAndVerify load hash

def restoreLevel (hasher : Hasher (HotArchiveBucketEntry I D) H)
    (load : H → Except (BucketError H) (HotArchiveBucket I D H)) (hashes : H × H)
    (nextState : Option (PendingMergeState H)) :
    Except (BucketError H) (HotArchiveBucketLevel I D H) := do
  let curr ← loadOrSentinel hasher load hashes.1
  let snap ← loadOrSentinel hasher load hashes.2
  let next ← match nextState with
    | some (.output hash) =>
      if hash = hasher.zero then .ok none
      else do
        let bucket ← loadAndVerify load hash
        .ok (some bucket)
    | _ => .ok none
  .ok { curr := curr, snap := snap, next := next }

def restoreFromHas (hasher : Hasher (HotArchiveBucketEntry I D) H)
    (load : H → Except (BucketError H) (HotArchiveBucket I D H)) (hashes : List (H × H))
    (nextStates : List (Option (PendingMergeState H))) :
    Except (BucketError H) (HotArchiveBucketList I D H) :=
  if hashes.length ≠ bucketListLevels then
    .error (.serialization
      s!"Expected {bucketListLevels} hot archive bucket level hashes, got {hashes.length}")
  else if nextStates.length ≠ bucketListLevels then
    .error (BucketList.unexpectedStates nextStates.length)
  else do
    let levels ← (hashes.zip nextStates).mapM fun (hashes, nextState) =>
      restoreLevel hasher load hashes nextState
    .ok { levels := fun l => levels.getD l (.new (.empty hasher)), ledgerSeq := 0 }

/-- Run the merges whose inputs were persisted. -/
def restartInputs (hasher : Hasher (HotArchiveBucketEntry I D) H)
    (load : H → Except (BucketError H) (HotArchiveBucket I D H)) (protocolVersion : ℕ)
    (nextStates : List (Option (PendingMergeState H))) :
    List ℕ → Levels (HotArchiveBucket I D H) (HotArchiveBucket I D H) →
      Except (BucketError H) (Levels (HotArchiveBucket I D H) (HotArchiveBucket I D H))
  | [], levels => .ok levels
  | i :: is, levels =>
    if (levels i).next.isSome then
      restartInputs hasher load protocolVersion nextStates is levels
    else
      match nextStates.getD i none with
      | some (.inputs currHash snapHash) => do
        let inputCurr ← loadOrSentinel hasher load currHash
        let inputSnap ← loadOrSentinel hasher load snapHash
        let merged ← mergeHotArchiveBuckets hasher inputCurr inputSnap protocolVersion
          (blKeepTombstoneEntries i)
        restartInputs hasher load protocolVersion nextStates is
          (Function.update levels i { levels i with next := some merged })
      | _ => restartInputs hasher load protocolVersion nextStates is levels

/-- Start the merges of the levels that have none, from the buckets there. -/
def restartLevels (hasher : Hasher (HotArchiveBucketEntry I D) H) (ledger protocolVersion : ℕ) :
    List ℕ → Levels (HotArchiveBucket I D H) (HotArchiveBucket I D H) →
      Except (BucketError H) (Levels (HotArchiveBucket I D H) (HotArchiveBucket I D H))
  | [], levels => .ok levels
  | i :: is, levels =>
    if (levels i).next.isSome then restartLevels hasher ledger protocolVersion is levels
    else
      let prevSnap := (levels (i - 1)).snap
      if prevSnap.isEmpty then .ok levels
      else do
        let mergeStartLedger := blRoundDown ledger (blLevelHalf (i - 1))
        let mergeProtocolVersion :=
          if prevSnap.getProtocolVersion = 0 then protocolVersion
          else prevSnap.getProtocolVersion
        let level ← (levels i).prepare (hotOps hasher mergeProtocolVersion) i
          (blKeepTombstoneEntries i) (blShouldMergeWithEmptyCurr mergeStartLedger i) prevSnap
        restartLevels hasher ledger protocolVersion is (Function.update levels i level)

def restartMerges (hasher : Hasher (HotArchiveBucketEntry I D) H) (ledger protocolVersion : ℕ)
    (list : HotArchiveBucketList I D H) : Except (BucketError H) (HotArchiveBucketList I D H) := do
  let levels ← restartLevels hasher ledger protocolVersion (List.range' 1 (bucketListLevels - 1))
    list.levels
  .ok { levels := levels, ledgerSeq := ledger }

def restartMergesFromHas (hasher : Hasher (HotArchiveBucketEntry I D) H)
    (ledger protocolVersion : ℕ) (nextStates : List (Option (PendingMergeState H)))
    (load : H → Except (BucketError H) (HotArchiveBucket I D H)) (restartStructureBased : Bool)
    (list : HotArchiveBucketList I D H) : Except (BucketError H) (HotArchiveBucketList I D H) :=
  if nextStates.length ≠ bucketListLevels then
    .error (BucketList.unexpectedStates nextStates.length)
  else do
    let levels ← restartInputs hasher load protocolVersion nextStates
      (List.range' 1 (bucketListLevels - 1)) list.levels
    if restartStructureBased then
      restartMerges hasher ledger protocolVersion { list with levels := levels }
    else .ok { levels := levels, ledgerSeq := ledger }

end HotArchiveBucketList

/-! ### Buckets that are built -/

section Build

variable {hasher : Hasher (HotArchiveBucketEntry I D) H}
  {entries : List (HotArchiveBucketEntry I D)}

section

variable (hsorted : Ascending HotArchiveBucketEntry.key entries)
include hsorted

theorem HotArchiveBucket.fromEntries_of_ascending :
    fromEntries hasher entries = .ok ⟨fileHash hasher entries, entries, hsorted⟩ := by
  obtain ⟨v, hcheck⟩ := (StreamingSortedValidator.validateAll_new_iff (H := H) entries).mpr hsorted
  unfold fromEntries
  split
  next h => cases hcheck.symm.trans h
  · rfl

theorem HotArchiveBucket.hasDuplicate_of_ascending : hasDuplicate entries = false := by
  induction entries with
  | nil => rfl
  | cons e entries ih =>
    obtain ⟨hlt, hrest⟩ := List.pairwise_cons.mp hsorted
    cases entries with
    | nil => rfl
    | cons e' entries =>
      unfold hasDuplicate
      rw [ih hrest, Bool.or_false]
      exact decide_eq_false (hlt e' List.mem_cons_self).ne

end

end Build

end Henyey.Buckets
