import Henyey.Buckets.RestartEquivalence

/-!
# Merge paths

Level 0 merges in memory if it can, and else like the other levels; other merges can write
their output to a file. The paths agree, except where a bucket without entries is met.
-/

namespace Henyey.Buckets

open Foundation Ledger BucketEntry
open Bucket

inductive InitEntryPolicy where
  | preserve
  | normalizeToLive
deriving DecidableEq

variable {I D H : Type}

def InitEntryPolicy.shouldNormalize (policy : InitEntryPolicy) : Bool := policy = normalizeToLive

def normalizeEntry : BucketEntry I D → BucketEntry I D
  | .initentry entry => .liveentry entry
  | other => other

def maybeNormalizeEntry (policy : InitEntryPolicy) (e : BucketEntry I D) : BucketEntry I D :=
  if policy.shouldNormalize then normalizeEntry e else e

variable [LinearOrder I]

def mergeHeadNormalizing (policy : DeadEntryPolicy) (normalize : InitEntryPolicy)
    (old : BucketEntry I D)
    (rest : List (BucketEntry I D) → Except (BucketError H) (List (BucketEntry I D))) :
    List (BucketEntry I D) → Except (BucketError H) (List (BucketEntry I D))
  | [] => do
    let merged ← rest []
    .ok (emit (shouldKeepEntry policy) old merged)
  | new :: news =>
    if old.key < new.key then do
      let merged ← rest (new :: news)
      .ok (emit (shouldKeepEntry policy) old merged)
    else if new.key < old.key then do
      let merged ← mergeHeadNormalizing policy normalize old rest news
      .ok (if shouldKeepEntry policy new then maybeNormalizeEntry normalize new :: merged
        else merged)
    else do
      let both ← mergeEntries policy old new
      let merged ← rest news
      .ok (both.toList ++ merged)

/-- The merge loop. Entries that only the newer bucket has can be normalized. -/
def mergeNormalizing (policy : DeadEntryPolicy) (normalize : InitEntryPolicy) :
    List (BucketEntry I D) → List (BucketEntry I D) →
      Except (BucketError H) (List (BucketEntry I D))
  | [], news => .ok ((news.filter (shouldKeepEntry policy)).map (maybeNormalizeEntry normalize))
  | old :: olds, news =>
    mergeHeadNormalizing policy normalize old (mergeNormalizing policy normalize olds) news

def twoPointerMergeNormalizing (policy : DeadEntryPolicy) (normalize : InitEntryPolicy)
    (olds news : List (BucketEntry I D)) : Except (BucketError H) (List (BucketEntry I D)) :=
  mergeNormalizing policy normalize (olds.filter (!·.isMetadata)) (news.filter (!·.isMetadata))

def mergeBucketsNormalizing [DecidableEq H] (hasher : Hasher (BucketEntry I D) H)
    (oldBucket newBucket : Bucket I D H) (opts : MergeOptions) (normalize : InitEntryPolicy) :
    Except (BucketError H) (Bucket I D H) :=
  if newBucket.isEmpty hasher && oldBucket.isEmpty hasher then .ok (.empty hasher)
  else do
    let (oldMeta, oldEntries) := advanceSkipMetadata none oldBucket.entries
    let (newMeta, newEntries) := advanceSkipMetadata none newBucket.entries
    let outputMeta ← buildOutputMetadata oldMeta newMeta opts.maxProtocolVersion opts.metadataPolicy
    let merged ←
      twoPointerMergeNormalizing opts.keepDeadEntries normalize oldEntries newEntries
    let entries := (outputMeta.map .metaentry).toList ++ merged
    if entries.isEmpty then .ok (.empty hasher) else fromSortedEntries hasher entries

def mergeBucketsToFile [DecidableEq H] (hasher : Hasher (BucketEntry I D) H)
    (oldBucket newBucket : Bucket I D H) (opts : MergeOptions) (normalize : InitEntryPolicy) :
    Except (BucketError H) (H × List (BucketEntry I D)) :=
  if newBucket.isEmpty hasher && oldBucket.isEmpty hasher then .ok (hasher.zero, [])
  else do
    let (oldMeta, oldEntries) := advanceSkipMetadata none oldBucket.entries
    let (newMeta, newEntries) := advanceSkipMetadata none newBucket.entries
    let outputMeta ← buildOutputMetadata oldMeta newMeta opts.maxProtocolVersion opts.metadataPolicy
    let merged ←
      twoPointerMergeNormalizing opts.keepDeadEntries normalize oldEntries newEntries
    let entries := (outputMeta.map .metaentry).toList ++ merged
    .ok (hasher.file entries, entries)

/-! ### The merge loop with normalized entries -/

omit [LinearOrder I] in
theorem key_maybeNormalizeEntry (normalize : InitEntryPolicy) (e : BucketEntry I D) :
    (maybeNormalizeEntry normalize e).key = e.key := by
  unfold maybeNormalizeEntry
  split
  · cases e <;> rfl
  · rfl

omit [LinearOrder I] in
theorem maybeNormalizeEntry_preserve (e : BucketEntry I D) :
    maybeNormalizeEntry .preserve e = e := rfl

/-- Without normalization it is the plain loop. -/
theorem mergeNormalizing_preserve (policy : DeadEntryPolicy) (olds news : List (BucketEntry I D)) :
    mergeNormalizing (H := H) policy .preserve olds news =
      mergeSorted BucketEntry.key (shouldKeepEntry policy) (mergeEntries policy) olds news := by
  induction olds generalizing news with
  | nil =>
    unfold mergeNormalizing mergeSorted
    rw [List.map_congr_left fun e _ => maybeNormalizeEntry_preserve e, List.map_id']
  | cons old olds ih =>
    unfold mergeNormalizing mergeSorted
    have hrest : mergeNormalizing (H := H) policy .preserve olds =
        mergeSorted BucketEntry.key (shouldKeepEntry policy) (mergeEntries policy) olds :=
      funext ih
    rw [hrest]
    -- inner induction: the new entries before the old head
    induction news with
    | nil => rfl
    | cons new news ihnews =>
      unfold mergeHeadNormalizing mergeHead
      rw [ihnews]
      rfl

theorem keys_mergeNormalizing (policy : DeadEntryPolicy) (normalize : InitEntryPolicy)
    (olds news : List (BucketEntry I D)) :
    (mergeNormalizing (H := H) policy normalize olds news).map (List.map BucketEntry.key) =
      (mergeNormalizing (H := H) policy .preserve olds news).map (List.map BucketEntry.key) := by
  have hfilter (entries : List (BucketEntry I D)) :
      (entries.map (maybeNormalizeEntry normalize)).map BucketEntry.key =
        (entries.map (maybeNormalizeEntry .preserve)).map BucketEntry.key := by
    rw [List.map_map, List.map_map]
    apply List.map_congr_left
    intro e _
    exact (key_maybeNormalizeEntry normalize e).trans (key_maybeNormalizeEntry .preserve e).symm
  induction olds generalizing news with
  | nil =>
    unfold mergeNormalizing
    exact congrArg Except.ok (hfilter _)
  | cons old olds ih =>
    unfold mergeNormalizing
    -- two lists with the same keys, and what is put in front of either
    have hput {merged merged' : Except (BucketError H) (List (BucketEntry I D))}
        (heq : merged.map (List.map BucketEntry.key) = merged'.map (List.map BucketEntry.key))
        {put put' : List (BucketEntry I D) → List (BucketEntry I D)}
        (hput : ∀ entries entries',
          entries.map BucketEntry.key = entries'.map BucketEntry.key →
            (put entries).map BucketEntry.key = (put' entries').map BucketEntry.key) :
        (merged.bind fun entries => .ok (put entries)).map (List.map BucketEntry.key) =
          (merged'.bind fun entries => .ok (put' entries)).map (List.map BucketEntry.key) := by
      cases merged with
      | error e =>
        cases merged' with
        | error e' => exact heq
        | ok _ => cases heq
      | ok entries =>
        cases merged' with
        | error _ => cases heq
        | ok entries' => exact congrArg Except.ok (hput _ _ (Except.ok.inj heq))
    have hemit (entries entries' : List (BucketEntry I D))
        (hsame : entries.map BucketEntry.key = entries'.map BucketEntry.key) :
        (emit (shouldKeepEntry policy) old entries).map BucketEntry.key =
          (emit (shouldKeepEntry policy) old entries').map BucketEntry.key := by
      unfold emit
      split
      · exact congrArg (old.key :: ·) hsame
      · exact hsame
    induction news with
    | nil =>
      unfold mergeHeadNormalizing
      exact hput (ih []) hemit
    | cons new news ihnews =>
      unfold mergeHeadNormalizing
      split
      · exact hput (ih (new :: news)) hemit
      · split
        · refine hput ihnews fun entries entries' hsame => ?_
          split
          · rw [List.map_cons, List.map_cons, hsame, key_maybeNormalizeEntry,
              key_maybeNormalizeEntry]
          · exact hsame
        · cases (mergeEntries policy old new : Except (BucketError H) _) with
          | error e => rfl
          | ok both =>
            refine hput (ih news) fun entries entries' hsame => ?_
            rw [List.map_append, List.map_append, hsame]

/-! ### What a merge that does not fail gives -/

theorem ok_of_bind {α β ε : Type} {result : Except ε α} {next : α → Except ε β} {value : β}
    (hok : (result >>= next) = .ok value) :
    ∃ first, result = .ok first ∧ next first = .ok value := by
  cases result with
  | error e => cases hok
  | ok first => exact ⟨first, rfl, hok⟩

theorem combine_of_mergeSorted {α κ ε : Type} [LinearOrder κ] {key : α → κ} {keep : α → Bool}
    {combine : α → α → Except ε (Option α)} {olds news merged : List α} (holds : Ascending key olds)
    (hnews : Ascending key news) (hmerged : mergeSorted key keep combine olds news = .ok merged) :
    ∀ old ∈ olds, ∀ new ∈ news, key old = key new → ∃ both, combine old new = .ok both := by
  induction olds generalizing news merged with
  | nil =>
    intro old hold
    cases hold
  | cons head olds ih =>
    obtain ⟨hhead, holds⟩ := List.pairwise_cons.mp holds
    unfold mergeSorted at hmerged
    -- inner induction: the new entries before the old head
    induction news generalizing merged with
    | nil =>
      intro _ _ new hnew
      cases hnew
    | cons new news ihnews =>
      have hall := hnews
      obtain ⟨hnew, hnews⟩ := List.pairwise_cons.mp hnews
      unfold mergeHead at hmerged
      intro old hold other hother heq
      split at hmerged
      next hlt =>
        obtain ⟨rest, hrest, -⟩ := ok_of_bind hmerged
        rcases List.mem_cons.mp hold with rfl | hold
        · rcases List.mem_cons.mp hother with rfl | hother
          · exact absurd heq hlt.ne
          · exact absurd heq (hlt.trans (hnew other hother)).ne
        · exact ih holds hall hrest old hold other hother heq
      next hle =>
        split at hmerged
        next hgt =>
          obtain ⟨rest, hrest, -⟩ := ok_of_bind hmerged
          rcases List.mem_cons.mp hother with rfl | hother
          · rcases List.mem_cons.mp hold with rfl | hold
            · exact absurd heq hgt.ne'
            · exact absurd heq (hgt.trans (hhead old hold)).ne'
          · exact ihnews hnews hrest old hold other hother heq
        next hge =>
          have hsame : key head = key new := le_antisymm (not_lt.mp hge) (not_lt.mp hle)
          obtain ⟨both, hboth, hmerged⟩ := ok_of_bind hmerged
          obtain ⟨rest, hrest, -⟩ := ok_of_bind hmerged
          rcases List.mem_cons.mp hold with rfl | hold
          · rcases List.mem_cons.mp hother with rfl | hother
            · exact ⟨both, hboth⟩
            · exact absurd (hsame.symm.trans heq) (hnew other hother).ne
          · rcases List.mem_cons.mp hother with rfl | hother
            · exact absurd (hsame.trans heq.symm) (hhead old hold).ne
            · exact ih holds hnews hrest old hold other hother heq

/-- The entries of a bucket beside its metadata. -/
def bodyOf (bucket : Bucket I D H) : List (BucketEntry I D) :=
  bucket.entries.filter (!·.isMetadata)

theorem ascending_bodyOf (bucket : Bucket I D H) : Ascending BucketEntry.key (bodyOf bucket) :=
  bucket.sorted.filter _

variable {policy : DeadEntryPolicy} {old new : Bucket I D H}

theorem mergeSorted_bodyOf (hok : ∀ o ∈ bodyOf old, ∀ n ∈ bodyOf new, o.key = n.key →
      ∃ both, mergeEntries (H := H) policy o n = .ok both) :
    ∃ merged, mergeSorted BucketEntry.key (shouldKeepEntry policy) (mergeEntries (H := H) policy)
        (bodyOf old) (bodyOf new) = .ok merged ∧
      Merges BucketEntry.key (shouldKeepEntry policy) (mergeEntries (H := H) policy) (bodyOf old)
        (bodyOf new) merged :=
  mergeSorted_spec (fun _ _ _ _ hboth => key_mergeEntries hboth) (ascending_bodyOf old)
    (ascending_bodyOf new) hok

variable {merged : List (BucketEntry I D)}

theorem merges_bodyOf
    (hmerged : mergeSorted BucketEntry.key (shouldKeepEntry policy) (mergeEntries (H := H) policy)
      (bodyOf old) (bodyOf new) = .ok merged) :
    Merges BucketEntry.key (shouldKeepEntry policy) (mergeEntries (H := H) policy) (bodyOf old)
      (bodyOf new) merged := by
  obtain ⟨merged', hmerged', hmerges⟩ := mergeSorted_bodyOf
    (combine_of_mergeSorted (ascending_bodyOf old) (ascending_bodyOf new) hmerged)
  rw [hmerged, Except.ok.injEq] at hmerged'
  rw [hmerged']
  exact hmerges

theorem ascending_output {normalize : InitEntryPolicy}
    (hmerged : mergeNormalizing (H := H) policy normalize (bodyOf old) (bodyOf new) = .ok merged)
    (outputMeta : Option BucketMetadata) :
    Ascending BucketEntry.key ((outputMeta.map .metaentry).toList ++ merged) := by
  have hkeys := keys_mergeNormalizing (H := H) policy normalize (bodyOf old) (bodyOf new)
  rw [hmerged, mergeNormalizing_preserve] at hkeys
  obtain ⟨plain, hplain⟩ : ∃ plain, mergeSorted BucketEntry.key (shouldKeepEntry policy)
      (mergeEntries (H := H) policy) (bodyOf old) (bodyOf new) = .ok plain := by
    cases hplain : mergeSorted BucketEntry.key (shouldKeepEntry policy)
        (mergeEntries (H := H) policy) (bodyOf old) (bodyOf new) with
    | error e =>
      rw [hplain] at hkeys
      cases hkeys
    | ok plain => exact ⟨plain, rfl⟩
  rw [hplain] at hkeys
  have hsame : merged.map BucketEntry.key = plain.map BucketEntry.key := Except.ok.inj hkeys
  have hmerges := merges_bodyOf hplain
  have hascending : Ascending BucketEntry.key merged := by
    have hsorted := hmerges.ascending
    unfold Ascending at hsorted ⊢
    exact List.pairwise_map.mp (hsame ▸ List.pairwise_map.mpr hsorted)
  cases outputMeta with
  | none => exact hascending
  | some metadata =>
    refine List.pairwise_cons.mpr ⟨fun e he => ?_, hascending⟩
    -- no entry of the bodies is metadata
    have hkey : e.key ∈ merged.map BucketEntry.key := List.mem_map_of_mem he
    rw [hsame] at hkey
    obtain ⟨e', he', heq⟩ := List.mem_map.mp hkey
    obtain ⟨source, hsource, hsourceKey⟩ := hmerges.source e' he'
    have hbody : source.isMetadata = false := by
      rcases List.mem_append.mp hsource with h | h
      · simpa using (List.mem_filter.mp h).2
      · simpa using (List.mem_filter.mp h).2
    change ⊥ < e.key
    rw [bot_lt_iff_ne_bot, ← heq, ← hsourceKey, ne_eq, key_eq_bot_iff, hbody]
    exact Bool.false_ne_true

/-! ### Writing to a file -/

section Paths

variable [DecidableEq H] {hasher : Hasher (BucketEntry I D) H}

/-- What a merge gives: its hash and its entries. -/
def hashAndEntries (result : Except (BucketError H) (Bucket I D H)) :
    Except (BucketError H) (H × List (BucketEntry I D)) :=
  result.map fun bucket => (bucket.hash, bucket.entries)

theorem mergeBucketsNormalizing_cases (old new : Bucket I D H) (opts : MergeOptions)
    (normalize : InitEntryPolicy) :
    (new.isEmpty hasher = true ∧ old.isEmpty hasher = true ∧
        mergeBucketsNormalizing hasher old new opts normalize = .ok (.empty hasher) ∧
        mergeBucketsToFile hasher old new opts normalize = .ok (hasher.zero, [])) ∨
      (∃ e, hashAndEntries (mergeBucketsNormalizing hasher old new opts normalize) = .error e ∧
        mergeBucketsToFile hasher old new opts normalize = .error e ∧
        (buildOutputMetadata (H := H) (advanceSkipMetadata none old.entries).1
            (advanceSkipMetadata none new.entries).1 opts.maxProtocolVersion opts.metadataPolicy =
              .error e ∨
          mergeNormalizing (H := H) opts.keepDeadEntries normalize (bodyOf old) (bodyOf new) =
            .error e)) ∨
      ∃ outputMeta merged,
        ¬ (new.isEmpty hasher = true ∧ old.isEmpty hasher = true) ∧
        buildOutputMetadata (H := H) (advanceSkipMetadata none old.entries).1
          (advanceSkipMetadata none new.entries).1 opts.maxProtocolVersion opts.metadataPolicy =
            .ok outputMeta ∧
        mergeNormalizing (H := H) opts.keepDeadEntries normalize (bodyOf old) (bodyOf new) =
          .ok merged ∧
        hashAndEntries (mergeBucketsNormalizing hasher old new opts normalize) =
          (if outputMeta = none ∧ merged = [] then .ok (hasher.zero, [])
          else .ok (hasher.file ((outputMeta.map .metaentry).toList ++ merged),
            (outputMeta.map .metaentry).toList ++ merged)) ∧
        mergeBucketsToFile hasher old new opts normalize =
          .ok (hasher.file ((outputMeta.map .metaentry).toList ++ merged),
            (outputMeta.map .metaentry).toList ++ merged) := by
  unfold mergeBucketsNormalizing mergeBucketsToFile twoPointerMergeNormalizing
  by_cases hempty : (new.isEmpty hasher && old.isEmpty hasher) = true
  · rw [if_pos hempty, if_pos hempty]
    rw [Bool.and_eq_true] at hempty
    exact .inl ⟨hempty.1, hempty.2, rfl, rfl⟩
  · rw [if_neg hempty, if_neg hempty]
    rw [Bool.and_eq_true] at hempty
    right
    dsimp only
    rw [filter_advanceSkipMetadata, filter_advanceSkipMetadata]
    cases hmeta : buildOutputMetadata (H := H) (advanceSkipMetadata none old.entries).1
        (advanceSkipMetadata none new.entries).1 opts.maxProtocolVersion opts.metadataPolicy with
    | error e => exact .inl ⟨e, rfl, rfl, .inl rfl⟩
    | ok outputMeta =>
      cases hmerged : mergeNormalizing (H := H) opts.keepDeadEntries normalize (bodyOf old)
          (bodyOf new) with
      | error e =>
        unfold bodyOf at hmerged
        rw [hmerged]
        exact .inl ⟨e, rfl, rfl, .inr rfl⟩
      | ok merged =>
        have hascending := ascending_output hmerged outputMeta
        unfold bodyOf at hmerged
        rw [hmerged]
        refine .inr ⟨outputMeta, merged, hempty, rfl, rfl, ?_, rfl⟩
        have hnil : ((outputMeta.map metaentry).toList ++ merged).isEmpty = true ↔
            outputMeta = none ∧ merged = [] := by
          rw [List.isEmpty_iff, List.append_eq_nil_iff]
          cases outputMeta <;> simp
        change hashAndEntries
          (if ((outputMeta.map metaentry).toList ++ merged).isEmpty then _
          else _) = _
        by_cases hnone : outputMeta = none ∧ merged = []
        · rw [if_pos hnone, if_pos (hnil.mpr hnone)]
          rfl
        · rw [if_neg hnone, if_neg (mt hnil.mp hnone)]
          unfold fromSortedEntries
          rw [ofSorted_of_ascending hascending]
          rfl

theorem mergeBucketsNormalizing_preserve (old new : Bucket I D H) (opts : MergeOptions) :
    mergeBucketsNormalizing hasher old new opts .preserve = mergeBuckets hasher old new opts := by
  unfold mergeBucketsNormalizing mergeBuckets twoPointerMergeNormalizing twoPointerMerge
  simp only [mergeNormalizing_preserve]

/-- What the two buckets say of a key combines to nothing. -/
def Vanishes (policy : DeadEntryPolicy) (old new : Bucket I D H) (key : WithBot (LedgerKey I)) :
    Prop :=
  mergedAt (shouldKeepEntry policy) (mergeEntries (H := H) policy)
    (lookup BucketEntry.key key (bodyOf old)) (lookup BucketEntry.key key (bodyOf new)) = .ok none

omit [DecidableEq H] in
/-- A merge gives nothing exactly when every key vanishes. -/
theorem mergeNormalizing_nil_iff {policy : DeadEntryPolicy} {normalize : InitEntryPolicy}
    {old new : Bucket I D H} :
    mergeNormalizing (H := H) policy normalize (bodyOf old) (bodyOf new) = .ok [] ↔
      ∀ key, Vanishes policy old new key := by
  have hkeys := keys_mergeNormalizing (H := H) policy normalize (bodyOf old) (bodyOf new)
  rw [mergeNormalizing_preserve] at hkeys
  constructor
  · intro hnil key
    rw [hnil] at hkeys
    cases hplain : mergeSorted BucketEntry.key (shouldKeepEntry policy)
        (mergeEntries (H := H) policy) (bodyOf old) (bodyOf new) with
    | error e =>
      rw [hplain] at hkeys
      cases hkeys
    | ok plain =>
      rw [hplain] at hkeys
      have hempty : plain = [] := List.map_eq_nil_iff.mp (Except.ok.inj hkeys).symm
      have houtcome := (merges_bodyOf hplain).outcome key
      rw [hempty] at houtcome
      exact houtcome
  · intro hvanishes
    have hok : ∀ o ∈ bodyOf old, ∀ n ∈ bodyOf new, o.key = n.key →
        ∃ both, mergeEntries (H := H) policy o n = .ok both := by
      intro o ho n hn heq
      have hat := hvanishes o.key
      unfold Vanishes at hat
      rw [(ascending_bodyOf old).lookup_of_mem ho, heq, (ascending_bodyOf new).lookup_of_mem hn]
        at hat
      exact ⟨none, hat⟩
    obtain ⟨plain, hplain, hmerges⟩ := mergeSorted_bodyOf hok
    have hempty : plain = [] := by
      rw [List.eq_nil_iff_forall_not_mem]
      intro e he
      have houtcome := hmerges.outcome e.key
      have hat := hvanishes e.key
      unfold Vanishes at hat
      rw [hat, hmerges.ascending.lookup_of_mem he] at houtcome
      cases houtcome
    rw [hplain, hempty] at hkeys
    cases hmerged : mergeNormalizing (H := H) policy normalize (bodyOf old) (bodyOf new) with
    | error e =>
      rw [hmerged] at hkeys
      cases hkeys
    | ok merged =>
      rw [hmerged] at hkeys
      rw [List.map_eq_nil_iff.mp (Except.ok.inj hkeys)]

/-- A merge with output, or with nothing to merge. -/
def Fills (hasher : Hasher (BucketEntry I D) H) (old new : Bucket I D H) (opts : MergeOptions) :
    Prop :=
  (new.isEmpty hasher = true ∧ old.isEmpty hasher = true) ∨
    buildOutputMetadata (H := H) (advanceSkipMetadata none old.entries).1
        (advanceSkipMetadata none new.entries).1 opts.maxProtocolVersion opts.metadataPolicy ≠
      .ok none ∨
    ∃ key, ¬ Vanishes opts.keepDeadEntries old new key

/-- The file has the hash and the entries of the bucket, unless the output is empty and an
input is not. -/
theorem toFile_agrees_iff (hfile : ∀ entries, hasher.file entries ≠ hasher.zero)
    (old new : Bucket I D H) (opts : MergeOptions) (normalize : InitEntryPolicy) :
    mergeBucketsToFile hasher old new opts normalize =
        hashAndEntries (mergeBucketsNormalizing hasher old new opts normalize) ↔
      Fills hasher old new opts := by
  rcases @mergeBucketsNormalizing_cases I D H _ _ hasher old new opts normalize with
    ⟨hnew, hold, hmemory, hwritten⟩ | ⟨e, hmemory, hwritten, herror⟩ |
      ⟨outputMeta, merged, hfull, hmeta, hmerged, hmemory, hwritten⟩
  · rw [hmemory, hwritten]
    exact ⟨fun _ => .inl ⟨hnew, hold⟩, fun _ => rfl⟩
  · rw [hmemory, hwritten]
    refine ⟨fun _ => .inr ?_, fun _ => rfl⟩
    rcases herror with hmeta | hmerged
    · left
      rw [hmeta]
      exact nofun
    · right
      by_contra hnone
      have hvanishes : ∀ key, Vanishes opts.keepDeadEntries old new key := fun key =>
        by_contra fun hkey => hnone ⟨key, hkey⟩
      rw [mergeNormalizing_nil_iff.mpr hvanishes] at hmerged
      cases hmerged
  · rw [hmemory, hwritten]
    by_cases hnone : outputMeta = none ∧ merged = []
    · rw [if_pos hnone]
      obtain ⟨rfl, rfl⟩ := hnone
      constructor
      · intro heq
        exact absurd (congrArg Prod.fst (Except.ok.inj heq)) (hfile _)
      · rintro (hempty | hmeta' | ⟨key, hkey⟩)
        · exact absurd hempty hfull
        · exact absurd hmeta hmeta'
        · exact absurd (mergeNormalizing_nil_iff.mp hmerged key) hkey
    · rw [if_neg hnone]
      refine ⟨fun _ => .inr ?_, fun _ => rfl⟩
      by_cases hmeta' : outputMeta = none
      · right
        by_contra hnone'
        have hvanishes : ∀ key, Vanishes opts.keepDeadEntries old new key := fun key =>
          by_contra fun hkey => hnone' ⟨key, hkey⟩
        rw [mergeNormalizing_nil_iff.mpr hvanishes, Except.ok.injEq] at hmerged
        exact hnone ⟨hmeta', hmerged.symm⟩
      · left
        rw [hmeta]
        exact fun heq => hmeta' (Except.ok.inj heq)

/-! ### Level 0 -/

variable {v : ℕ}

/-- Level 0 after a ledger, by the way that the state of the current bucket leads to. -/
def firstLevel (hasher : Hasher (BucketEntry I D) H) (diskFull : ℕ → Option ℕ) (v : ℕ)
    (curr snap batch : Bucket I D H) (inMemory : Bool) :
    Except (BucketError H) (LiveLevel I D H) := do
  let level ← LiveLevel.prepareFirstLevel hasher v batch
    { curr := { curr with hasInMemoryEntries := inMemory }, snap := snap, next := none }
  BucketLevel.commit (liveOps hasher v diskFull) level

/-- A bucket that was written has the hash of its entries. An empty one may have none. -/
def Bucket.WellFormed (hasher : Hasher (BucketEntry I D) H) (bucket : Bucket I D H) : Prop :=
  bucket.hash = hasher.file bucket.entries ∨ bucket.entries = [] ∧ bucket.hash = hasher.zero

variable {curr snap batch : Bucket I D H}

theorem firstLevel_ok_iff {diskFull : ℕ → Option ℕ} {inMemory : Bool}
    (hbatch : batch.hasInMemoryEntries = true) {level : LiveLevel I D H} :
    firstLevel hasher diskFull v curr snap batch inMemory = .ok level ↔
      ∃ merged, ((if inMemory then
          mergeInMemory hasher { curr with hasInMemoryEntries := inMemory } batch v
        else mergeBuckets hasher { curr with hasInMemoryEntries := inMemory } batch
          { keepDeadEntries := .keep, maxProtocolVersion := v
            metadataPolicy := .currentProtocol }) >>= withInMemoryEntries hasher) =
          .ok merged ∧ level = { curr := merged, snap := snap, next := none } := by
  unfold firstLevel LiveLevel.prepareFirstLevel
  have hresolve (merged : Bucket I D H) :
      (liveOps hasher v diskFull).resolve (.inMemory merged) = .ok merged := rfl
  -- the result of either merge is taken into memory, and then becomes the current bucket
  have hfinish (result : Except (BucketError H) (Bucket I D H)) :
      ((do
          let merged ← result
          let merged ← if merged.hasInMemoryEntries then .ok merged
            else fromSortedEntriesWithInMemory hasher merged.entries
          Except.ok ({ curr := { curr with hasInMemoryEntries := inMemory }, snap := snap,
                       next := some (.inMemory merged) } : LiveLevel I D H)) >>=
        BucketLevel.commit (liveOps hasher v diskFull)) = .ok level ↔
        ∃ merged, (result >>= withInMemoryEntries hasher) = .ok merged ∧
          level = { curr := merged, snap := snap, next := none } := by
    cases result with
    | error e => exact ⟨nofun, fun ⟨_, h, _⟩ => nomatch h⟩
    | ok first =>
      cases hflag : first.hasInMemoryEntries with
      | true =>
        simp [bind, Except.bind, withInMemoryEntries, hflag, BucketLevel.commit, hresolve, eq_comm]
      | false =>
        cases hmemory : fromSortedEntriesWithInMemory hasher first.entries with
        | error e =>
          simp [bind, Except.bind, withInMemoryEntries, hflag, hmemory]
        | ok merged =>
          simp [bind, Except.bind, withInMemoryEntries, hflag, hmemory,
            BucketLevel.commit, hresolve, eq_comm]
  rw [← hfinish]
  simp only [Option.isSome_none, Bool.false_eq_true, if_false, hbatch, Bool.and_true]
  cases inMemory with
  | true => simp only [if_true]
  | false => simp only [Bool.false_eq_true, if_false]

theorem firstLevel_agrees_iff (hfile : ∀ entries, hasher.file entries ≠ hasher.zero)
    {diskFull : ℕ → Option ℕ} (hcurr : curr.WellFormed hasher) {entries : List (BucketEntry I D)}
    (hbatch : freshInMemoryOnly hasher entries = .ok batch) :
    (∀ level, firstLevel hasher diskFull v curr snap batch true = .ok level ↔
        firstLevel hasher diskFull v curr snap batch false = .ok level) ↔
      curr.entries ≠ [] ∨ v < 11 ∧ ∀ e ∈ entries, e.isMetadata = true := by
  obtain ⟨hzeroHash, hentries, hmemory⟩ := ofSorted_ok hbatch
  have hzero : hasher.NonZero := fun entries _ => hfile entries
  have hinMemory {bucket : Bucket I D H} {old : Bucket I D H} :
      (mergeInMemory hasher old batch v >>= withInMemoryEntries hasher) = .ok bucket ↔
        ∃ es, firstLevelEntries (H := H) v old.entries batch.entries = .ok es ∧
          bucket.IsFirstLevel hasher es := by
    rw [← mergeInMemory_iff]
    constructor
    · intro hok
      obtain ⟨merged, hmerged, hsame⟩ := ok_of_bind hok
      obtain ⟨es, -, -, -, hflag⟩ := mergeInMemory_iff.mp hmerged
      unfold withInMemoryEntries at hsame
      rw [if_pos hflag, Except.ok.injEq] at hsame
      rw [← hsame]
      exact hmerged
    · intro hok
      obtain ⟨es, -, -, -, hflag⟩ := mergeInMemory_iff.mp hok
      rw [hok]
      change withInMemoryEntries hasher bucket = _
      unfold withInMemoryEntries
      rw [if_pos hflag]
  simp only [firstLevel_ok_iff hmemory, if_true, Bool.false_eq_true, if_false, hinMemory]
  by_cases hnil : curr.entries = []
  · -- the fallback takes the batch for an empty bucket, as its hash is zero
    have hempty : mergeBuckets hasher { curr with hasInMemoryEntries := false } batch
        { keepDeadEntries := .keep, maxProtocolVersion := v, metadataPolicy := .currentProtocol } =
          .ok (.empty hasher) := by
      unfold mergeBuckets isEmpty
      simp [hzeroHash, hnil]
    have hfallback : (mergeBuckets hasher { curr with hasInMemoryEntries := false } batch
        { keepDeadEntries := .keep, maxProtocolVersion := v
          metadataPolicy := .currentProtocol } >>= withInMemoryEntries hasher) =
          .ok (.empty hasher) := by
      rw [hempty]
      rfl
    have hfirst : firstLevelEntries (H := H) v curr.entries batch.entries =
        .ok (((currentMetadata v).map .metaentry).toList ++
          (batch.entries.filter (!·.isMetadata)).filter (shouldKeepEntry .keep)) := by
      rw [hnil]
      rfl
    have hkept : (batch.entries.filter (!·.isMetadata)).filter (shouldKeepEntry .keep) =
        batch.entries.filter (!·.isMetadata) := by
      apply List.filter_eq_self.mpr
      intro e _
      cases e <;> rfl
    have hvoid : ((currentMetadata v).map metaentry).toList ++
        batch.entries.filter (!·.isMetadata) = [] ↔
          v < 11 ∧ ∀ e ∈ entries, e.isMetadata = true := by
      rw [List.append_eq_nil_iff, List.filter_eq_nil_iff, hentries]
      unfold currentMetadata
      by_cases hv : v < 11
      · simp [hv]
      · simp [hv]
    rw [hkept] at hfirst
    simp only [hfallback, hfirst, Except.ok.injEq, exists_eq_left']
    rw [or_iff_right fun hne => hne hnil, ← hvoid]
    generalize ((currentMetadata v).map metaentry).toList ++
      batch.entries.filter (!·.isMetadata) = es at *
    constructor
    · intro hagree
      obtain ⟨bucket, ⟨-, hes, -⟩, hlevel⟩ := (hagree _).mpr rfl
      have hcurrent : empty hasher = bucket := congrArg BucketLevel.curr hlevel
      rw [← hes, ← hcurrent]
      rfl
    · rintro rfl level
      constructor
      · rintro ⟨bucket, ⟨hhash, hes, hflag⟩, rfl⟩
        have hcurrent : bucket = .empty hasher := eq_of_parts hhash hes hflag
        rw [hcurrent]
      · rintro rfl
        exact ⟨.empty hasher, ⟨rfl, rfl, rfl⟩, rfl⟩
  · have hhash : curr.hash = fileHash hasher curr.entries := by
      unfold fileHash
      rw [if_neg (by rwa [List.isEmpty_iff])]
      rcases hcurr with hfull | ⟨hempty, -⟩
      · exact hfull
      · exact absurd hempty hnil
    have hfallback {bucket : Bucket I D H} :
        (mergeBuckets hasher { curr with hasInMemoryEntries := false } batch
            { keepDeadEntries := .keep, maxProtocolVersion := v
              metadataPolicy := .currentProtocol } >>= withInMemoryEntries hasher) =
            .ok bucket ↔
          ∃ es, firstLevelEntries (H := H) v curr.entries batch.entries = .ok es ∧
            bucket.IsFirstLevel hasher es :=
      mergeBuckets_first_iff hzero hhash hnil
    simp only [hfallback, hnil, ne_eq, not_false_eq_true, true_or, implies_true]

/-- All merge paths agree exactly where no bucket without entries stands in the way. -/
theorem mergePaths_agree_iff (hfile : ∀ entries, hasher.file entries ≠ hasher.zero) :
    (∀ (diskFull : ℕ → Option ℕ) (v : ℕ) (curr snap batch : Bucket I D H)
        (entries : List (BucketEntry I D)), curr.WellFormed hasher →
        freshInMemoryOnly hasher entries = .ok batch →
        ((∀ level, firstLevel hasher diskFull v curr snap batch true = .ok level ↔
            firstLevel hasher diskFull v curr snap batch false = .ok level) ↔
          curr.entries ≠ [] ∨ v < 11 ∧ ∀ e ∈ entries, e.isMetadata = true)) ∧
      ∀ (old new : Bucket I D H) (opts : MergeOptions) (normalize : InitEntryPolicy),
        mergeBucketsToFile hasher old new opts normalize =
            hashAndEntries (mergeBucketsNormalizing hasher old new opts normalize) ↔
          Fills hasher old new opts :=
  ⟨fun _ _ _ _ _ _ hcurr hbatch => firstLevel_agrees_iff hfile hcurr hbatch,
    fun old new opts normalize => toFile_agrees_iff hfile old new opts normalize⟩

end Paths

section Example

def diskBucket (e : BucketEntry ℕ ℕ) : Bucket ℕ ℕ (Option (List (BucketEntry ℕ ℕ))) where
  hash := some [e]
  entries := [e]
  hasInMemoryEntries := false
  sorted := List.pairwise_singleton _ _

def ledgerBucket (e : BucketEntry ℕ ℕ) : Bucket ℕ ℕ (Option (List (BucketEntry ℕ ℕ))) where
  hash := none
  entries := [e]
  hasInMemoryEntries := true
  sorted := List.pairwise_singleton _ _

def writtenEntry : BucketEntry ℕ ℕ := .liveentry ⟨6, .contractCode 8 100, none⟩

def deletedEntry : BucketEntry ℕ ℕ := .deadentry (.contractCode 7)

theorem mergePaths_agree_iff_single :
    (∀ level,
      firstLevel recordingHasher (fun _ => none) 23 (diskBucket deletedEntry)
          (.empty recordingHasher) (ledgerBucket writtenEntry) true = .ok level ↔
        firstLevel recordingHasher (fun _ => none) 23 (diskBucket deletedEntry)
          (.empty recordingHasher) (ledgerBucket writtenEntry) false = .ok level) ∧
      mergeBucketsToFile recordingHasher (diskBucket deletedEntry) (diskBucket writtenEntry)
          { keepDeadEntries := .remove, maxProtocolVersion := 23 } .preserve =
        hashAndEntries (mergeBucketsNormalizing recordingHasher (diskBucket deletedEntry)
          (diskBucket writtenEntry) { keepDeadEntries := .remove, maxProtocolVersion := 23 }
          .preserve) :=
  have hpaths := @mergePaths_agree_iff ℕ ℕ _ _ _ recordingHasher fun _ => nofun
  ⟨(hpaths.1 (fun _ => none) 23 _ _ _ [writtenEntry] (.inl rfl) rfl).mpr
      (.inl (List.cons_ne_nil _ _)),
    (hpaths.2 _ _ _ _).mpr (.inr (.inr ⟨writtenEntry.key, nofun⟩))⟩

/-- With nothing in level 0 the fallback drops what the ledger writes, and a file without entries
has another hash than a bucket. -/
theorem mergePaths_differ_of_empty :
    freshInMemoryOnly recordingHasher [writtenEntry] = .ok (ledgerBucket writtenEntry) ∧
      (firstLevel recordingHasher (fun _ => none) 23 (.empty recordingHasher)
        (.empty recordingHasher) (ledgerBucket writtenEntry) true).map (·.curr.entries) =
          .ok [.metaentry (.ofVersion .live 23), writtenEntry] ∧
      (firstLevel recordingHasher (fun _ => none) 23 (.empty recordingHasher)
        (.empty recordingHasher) (ledgerBucket writtenEntry) false).map (·.curr.entries) = .ok [] ∧
      mergeBucketsToFile recordingHasher (diskBucket deletedEntry) (.empty recordingHasher)
        { keepDeadEntries := .remove, maxProtocolVersion := 23 } .preserve = .ok (some [], []) ∧
      hashAndEntries (mergeBuckets recordingHasher (diskBucket deletedEntry)
        (.empty recordingHasher) { keepDeadEntries := .remove, maxProtocolVersion := 23 }) =
          .ok (none, []) :=
  ⟨rfl, rfl, rfl, rfl, rfl⟩

end Example

end Henyey.Buckets
