import Henyey.Buckets.Entry

/-!
# Merging two buckets

The newer entry shadows the older one under its key. An init entry marks a
creation, so what is created and deleted between two merges leaves no trace.
-/

namespace Henyey.Buckets

open Foundation Ledger

inductive DeadEntryPolicy where
  | keep
  | remove
deriving DecidableEq

def DeadEntryPolicy.shouldKeep (policy : DeadEntryPolicy) : Bool := policy = keep

/-- Where the version of the output comes from: from the inputs, or from the
current protocol at level 0. -/
inductive MetadataPolicy where
  | inputDerived
  | currentProtocol
deriving DecidableEq

structure MergeOptions where
  keepDeadEntries : DeadEntryPolicy
  maxProtocolVersion : ℕ
  metadataPolicy : MetadataPolicy := .inputDerived

variable {I D H : Type}

def shouldKeepEntry (policy : DeadEntryPolicy) : BucketEntry I D → Bool
  | .deadentry _ => policy.shouldKeep
  | _ => true

/-- The panic of a merge that meets an init entry over a live one. -/
def malformed : BucketError H := .panicked "Malformed bucket: old non-DEAD + new INIT."

def mergeEntries (policy : DeadEntryPolicy) :
    BucketEntry I D → BucketEntry I D → Except (BucketError H) (Option (BucketEntry I D))
  | .initentry _, .deadentry _ => .ok none
  | .deadentry _, .initentry entry => .ok (some (.liveentry entry))
  | .initentry _, .liveentry entry => .ok (some (.initentry entry))
  | .liveentry _, .liveentry entry => .ok (some (.liveentry entry))
  | .deadentry _, .liveentry entry => .ok (some (.liveentry entry))
  | _, .initentry _ => .error malformed
  | .liveentry _, .deadentry key => .ok (if policy.shouldKeep then some (.deadentry key) else none)
  | .deadentry _, .deadentry key => .ok (if policy.shouldKeep then some (.deadentry key) else none)
  | .metaentry _, _ => .ok none
  | _, .metaentry _ => .ok none

/-- Read the metadata at the front of a bucket. -/
def advanceSkipMetadata (found : Option BucketMetadata) :
    List (BucketEntry I D) → Option BucketMetadata × List (BucketEntry I D)
  | .metaentry metadata :: entries => advanceSkipMetadata (some metadata) entries
  | entries => (found, entries)

def buildOutputMetadata (oldMeta newMeta : Option BucketMetadata) (maxProtocolVersion : ℕ)
    (policy : MetadataPolicy) : Except (BucketError H) (Option BucketMetadata) := do
  let protocolVersion ← match policy with
    | .inputDerived =>
      let version := max (oldMeta.elim 0 (·.ledgerVersion)) (newMeta.elim 0 (·.ledgerVersion))
      if 0 < maxProtocolVersion && maxProtocolVersion < version then
        .error (.merge s!"bucket protocol version {version} exceeds max_protocol_version {maxProtocolVersion}")
      else .ok version
    | .currentProtocol => .ok maxProtocolVersion
  if protocolVersion < 11 then .ok none
  else .ok (some (.ofVersion .live protocolVersion))

variable [LinearOrder I]

/-- The merge loop, over entries other than metadata. -/
def twoPointerMerge (policy : DeadEntryPolicy) (olds news : List (BucketEntry I D)) :
    Except (BucketError H) (List (BucketEntry I D)) :=
  mergeSorted BucketEntry.key (shouldKeepEntry policy) (mergeEntries policy)
    (olds.filter (!·.isMetadata)) (news.filter (!·.isMetadata))

/-- Merge two buckets, from protocol 12 on. -/
def mergeBuckets [DecidableEq H] (hasher : Hasher (BucketEntry I D) H)
    (oldBucket newBucket : Bucket I D H) (opts : MergeOptions) :
    Except (BucketError H) (Bucket I D H) :=
  if newBucket.isEmpty hasher && oldBucket.isEmpty hasher then .ok (.empty hasher)
  else do
    let (oldMeta, oldEntries) := advanceSkipMetadata none oldBucket.entries
    let (newMeta, newEntries) := advanceSkipMetadata none newBucket.entries
    let outputMeta ← buildOutputMetadata oldMeta newMeta opts.maxProtocolVersion opts.metadataPolicy
    let merged ← twoPointerMerge opts.keepDeadEntries oldEntries newEntries
    let entries := (outputMeta.map .metaentry).toList ++ merged
    if entries.isEmpty then .ok (.empty hasher) else Bucket.fromSortedEntries hasher entries

def mergeInMemory (hasher : Hasher (BucketEntry I D) H) (oldBucket newBucket : Bucket I D H)
    (maxProtocolVersion : ℕ) : Except (BucketError H) (Bucket I D H) := do
  let outputMeta : Option BucketMetadata :=
    if maxProtocolVersion < 11 then none else some (.ofVersion .live maxProtocolVersion)
  let merged ← twoPointerMerge .keep oldBucket.entries newBucket.entries
  let entries := (outputMeta.map .metaentry).toList ++ merged
  if entries.isEmpty then .ok (.empty hasher) else Bucket.fromParts (hasher.file entries) entries

end Henyey.Buckets
