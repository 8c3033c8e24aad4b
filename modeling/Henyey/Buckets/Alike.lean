import Henyey.Buckets.LiveMerge
import Henyey.Buckets.Simulation
import Henyey.Buckets.Waiting

/-!
# Live lists that are alike

Two buckets with one hash and the same entries cannot be told apart, whether
their entries are in memory or not. A list follows another if its buckets are
the same and its merges succeed wherever those of the other do.
-/

namespace Henyey.Buckets

open Foundation Ledger Bucket BucketList

variable {I D H : Type} [LinearOrder I]

/-- The same hash and the same entries. -/
def Bucket.Same (bucket bucket' : Bucket I D H) : Prop :=
  bucket.hash = bucket'.hash ∧ bucket.entries = bucket'.entries

theorem Bucket.Same.symm {a b : Bucket I D H} (hsame : a.Same b) : b.Same a :=
  ⟨hsame.1.symm, hsame.2.symm⟩

theorem Bucket.Same.trans {a b c : Bucket I D H} (hfirst : a.Same b)
    (hsecond : b.Same c) : a.Same c :=
  ⟨hfirst.1.trans hsecond.1, hfirst.2.trans hsecond.2⟩

variable [DecidableEq H] {hasher : Hasher (BucketEntry I D) H}
  {old old' new new' bucket : Bucket I D H} {n v : ℕ} {levels levels' : LiveLevels I D H}
  {list list' next : BucketList I D H}

theorem mergeBuckets_congr (hold : old.Same old') (hnew : new.Same new') (opts : MergeOptions) :
    mergeBuckets hasher old new opts = mergeBuckets hasher old' new' opts := by
  unfold mergeBuckets isEmpty
  rw [hold.1, hold.2, hnew.1, hnew.2]

/-- A merge that follows another: it succeeds, with the same bucket, if the other
does so with enough disk space. -/
def PendingFollows (hasher : Hasher (BucketEntry I D) H) (pending pending' : PendingMerge I D H) :
    Prop :=
  ∀ bucket, pending.undisturbed.resolve hasher = .ok bucket →
    ∃ bucket', pending'.resolve hasher = .ok bucket' ∧ bucket.Same bucket'

/-- A merge that succeeded had enough disk space. -/
theorem PendingMerge.resolve_undisturbed {pending : PendingMerge I D H}
    (hok : pending.resolve hasher = .ok bucket) :
    pending.undisturbed.resolve hasher = .ok bucket := by
  cases pending with
  | inMemory bucket => exact hok
  | async handle =>
    obtain ⟨request, diskFull, ready⟩ := handle
    cases diskFull with
    | none => exact hok
    | some errno => cases hok

/-- Only the merges of the first list can run out of disk space. -/
theorem live_likeness (diskFull : ℕ → Option ℕ) :
    Likeness (liveOps hasher v diskFull) (liveOps hasher v fun _ => none) Bucket.Same
      (PendingFollows hasher) where
  empty := ⟨rfl, rfl⟩
  released l a b hsame := by
    change Bucket.Same (if l = 0 then a.clearInMemoryEntries else a)
      (if l = 0 then b.clearInMemoryEntries else b)
    split
    · exact hsame
    · exact hsame
  start l keep x x' y y' pending hx hy hstart := by
    cases hstart
    refine ⟨_, rfl, fun bucket hok => ⟨bucket, ?_, rfl, rfl⟩⟩
    rw [← hok]
    exact (mergeBuckets_congr hx hy _).symm
  resolve pending pending' bucket hpending hok :=
    hpending bucket (PendingMerge.resolve_undisturbed hok)

/-- Level 0 has its entries in memory or is not empty, and no sham hash. -/
def Bucket.Ready (hasher : Hasher (BucketEntry I D) H) (bucket : Bucket I D H) : Prop :=
  bucket.hash = fileHash hasher bucket.entries ∧
    (bucket.hasInMemoryEntries = true ∨ bucket.entries ≠ [])

/-- Levels that follow others, whatever the protocol. -/
abbrev LiveFollows (hasher : Hasher (BucketEntry I D) H) (n : ℕ)
    (levels levels' : LiveLevels I D H) : Prop :=
  Follows (liveOps hasher 0 fun _ => none) (liveOps hasher 0 fun _ => none) Bucket.Same
    (PendingFollows hasher) n levels levels'

theorem liveFollows_iff {diskFull diskFull' : ℕ → Option ℕ} :
    Follows (liveOps hasher v diskFull) (liveOps hasher v diskFull') Bucket.Same
      (PendingFollows hasher) n levels levels' ↔ LiveFollows hasher n levels levels' :=
  ⟨fun h => h.congr rfl rfl rfl rfl, fun h => h.congr rfl rfl rfl rfl⟩

/-- A list that follows another after a ledger. -/
structure ListFollows (hasher : Hasher (BucketEntry I D) H) (n : ℕ)
    (list list' : BucketList I D H) : Prop where
  levels : LiveFollows hasher n list.levels list'.levels
  idle : (list.levels 0).next = none
  idle' : (list'.levels 0).next = none
  ready : (list.levels 0).curr.Ready hasher
  ready' : (list'.levels 0).curr.Ready hasher

/-! ### What is read -/

omit [DecidableEq H] in
theorem getFrom_congr (key : LedgerKey I) (ls : List ℕ)
    (hsame : ∀ l ∈ ls, (levels l).curr.Same (levels' l).curr ∧ (levels l).snap.Same (levels' l).snap) :
    getFrom key (ls.map levels) = getFrom key (ls.map levels') := by
  induction ls with
  | nil => rfl
  | cons l ls ih =>
    obtain ⟨hcurr, hsnap⟩ := hsame l List.mem_cons_self
    have hrest := ih fun j hj => hsame j (List.mem_cons_of_mem _ hj)
    rw [List.map_cons, List.map_cons]
    unfold getFrom Bucket.get
    rw [hcurr.2, hsnap.2, hrest]

theorem ListFollows.read (hfollows : ListFollows hasher n list list') :
    list.hash hasher = list'.hash hasher ∧ ∀ key, list.get key = list'.get key := by
  have hsame : ∀ l ∈ List.range bucketListLevels,
      (list.levels l).curr.Same (list'.levels l).curr ∧
        (list.levels l).snap.Same (list'.levels l).snap := by
    intro l hl
    have hle : l ≤ 10 := Nat.le_of_lt_succ (List.mem_range.mp hl)
    exact ⟨hfollows.levels.curr l hle, hfollows.levels.snap l hle⟩
  refine ⟨?_, fun key => getFrom_congr key _ hsame⟩
  unfold BucketList.hash BucketList.levelList
  rw [List.map_map, List.map_map]
  refine congrArg _ (List.map_congr_left fun l hl => ?_)
  obtain ⟨hcurr, hsnap⟩ := hsame l hl
  change hasher.concat [_, _] = hasher.concat [_, _]
  rw [hcurr.1, hsnap.1]

/-! ### Level 0 -/

def currentMetadata (protocolVersion : ℕ) : Option BucketMetadata :=
  if protocolVersion < 11 then none else some (.ofVersion .live protocolVersion)

/-- What level 0 is to hold after a ledger. -/
def firstLevelEntries (protocolVersion : ℕ) (olds news : List (BucketEntry I D)) :
    Except (BucketError H) (List (BucketEntry I D)) := do
  let merged ← twoPointerMerge .keep olds news
  .ok (((currentMetadata protocolVersion).map .metaentry).toList ++ merged)

omit [LinearOrder I] [DecidableEq H] in
theorem filter_advanceSkipMetadata (found : Option BucketMetadata)
    (entries : List (BucketEntry I D)) :
    (advanceSkipMetadata found entries).2.filter (!·.isMetadata) =
      entries.filter (!·.isMetadata) := by
  induction entries generalizing found with
  | nil => rfl
  | cons e entries ih =>
    cases e with
    | metaentry metadata => exact ih (some metadata)
    | _ => rfl

section

omit [DecidableEq H]

variable {entries : List (BucketEntry I D)}

theorem ofSorted_ok {hash : H} {inMemory : Bool}
    (hok : ofSorted hash inMemory entries = .ok bucket) :
    bucket.hash = hash ∧ bucket.entries = entries ∧ bucket.hasInMemoryEntries = inMemory := by
  unfold ofSorted at hok
  split at hok
  · cases hok
  · cases hok
    exact ⟨rfl, rfl, rfl⟩

theorem fromParts_ok {hash : H} (hok : fromParts hash entries = .ok bucket) :
    bucket.hash = hash ∧ bucket.entries = entries ∧ bucket.hasInMemoryEntries = true := by
  unfold fromParts at hok
  split at hok
  · cases hok
  · cases hok
    exact ⟨rfl, rfl, rfl⟩

theorem Bucket.eq_of_parts (hhash : old.hash = new.hash) (hentries : old.entries = new.entries)
    (hmemory : old.hasInMemoryEntries = new.hasInMemoryEntries) : old = new := by
  cases old
  cases new
  cases hhash
  cases hentries
  cases hmemory
  rfl

end

/-- What a merge into level 0 leaves there, with its entries in memory. -/
def Bucket.IsFirstLevel (hasher : Hasher (BucketEntry I D) H) (entries : List (BucketEntry I D))
    (bucket : Bucket I D H) : Prop :=
  bucket.hash = fileHash hasher entries ∧ bucket.entries = entries ∧
    bucket.hasInMemoryEntries = true

omit [DecidableEq H] in
theorem build_iff (entries : List (BucketEntry I D))
    (build : List (BucketEntry I D) → Except (BucketError H) (Bucket I D H))
    (hbuild : ∀ entries bucket, build entries = .ok bucket → bucket.hash = hasher.file entries ∧
      bucket.entries = entries ∧ bucket.hasInMemoryEntries = true)
    (hsorted : ∀ entries, Ascending BucketEntry.key entries → ∃ bucket, build entries = .ok bucket) :
    (if entries.isEmpty then .ok (.empty hasher) else build entries) = .ok bucket ↔
      bucket.IsFirstLevel hasher entries := by
  unfold Bucket.IsFirstLevel fileHash
  split
  next hnil =>
    obtain rfl := List.isEmpty_iff.mp hnil
    constructor
    · intro h
      cases h
      exact ⟨rfl, rfl, rfl⟩
    · rintro ⟨hhash, hentries, hmemory⟩
      have hempty : empty hasher = bucket :=
        eq_of_parts hhash.symm hentries.symm hmemory.symm
      rw [hempty]
  · constructor
    · exact hbuild entries bucket
    · rintro ⟨hhash, hentries, hmemory⟩
      obtain ⟨bucket', hok⟩ := hsorted entries (hentries ▸ bucket.sorted)
      obtain ⟨hhash', hentries', hmemory'⟩ := hbuild entries bucket' hok
      rw [hok, eq_of_parts (hhash'.trans hhash.symm) (hentries'.trans hentries.symm)
        (hmemory'.trans hmemory.symm)]

omit [DecidableEq H] in
theorem mergeInMemory_iff : mergeInMemory hasher old new v = .ok bucket ↔ ∃ entries,
    firstLevelEntries (H := H) v old.entries new.entries = .ok entries ∧
      bucket.IsFirstLevel hasher entries := by
  unfold mergeInMemory firstLevelEntries
  cases twoPointerMerge (H := H) .keep old.entries new.entries with
  | error e => exact ⟨nofun, fun ⟨_, h, _⟩ => nomatch h⟩
  | ok merged =>
    simp only [bind, Except.bind, Except.ok.injEq, exists_eq_left']
    exact build_iff _ (fun entries => fromParts (hasher.file entries) entries)
      (fun _ _ h => fromParts_ok h) fun _ hsorted => ⟨_, fromParts_of_ascending hsorted⟩

def Bucket.withInMemoryEntries (hasher : Hasher (BucketEntry I D) H) (bucket : Bucket I D H) :
    Except (BucketError H) (Bucket I D H) :=
  if bucket.hasInMemoryEntries then .ok bucket
  else fromSortedEntriesWithInMemory hasher bucket.entries

omit [DecidableEq H] in
theorem buildOutputMetadata_current (oldMeta newMeta : Option BucketMetadata) :
    buildOutputMetadata (H := H) oldMeta newMeta v .currentProtocol = .ok (currentMetadata v) := by
  unfold buildOutputMetadata currentMetadata
  simp only [bind, Except.bind]
  split <;> rfl

/-- The other merge of level 0 gives the same. -/
theorem mergeBuckets_first_iff (hzero : hasher.NonZero)
    (hhash : old.hash = fileHash hasher old.entries) (hne : old.entries ≠ []) :
    (mergeBuckets hasher old new { keepDeadEntries := .keep, maxProtocolVersion := v
                                   metadataPolicy := .currentProtocol } >>=
      withInMemoryEntries hasher) = .ok bucket ↔
    ∃ entries, firstLevelEntries (H := H) v old.entries new.entries = .ok entries ∧
      bucket.IsFirstLevel hasher entries := by
  have hfull : old.isEmpty hasher = false := by
    unfold isEmpty
    rw [hhash]
    unfold fileHash
    rw [if_neg (by rwa [List.isEmpty_iff])]
    simpa using ⟨hzero _ hne, hne⟩
  have hmerge : twoPointerMerge (H := H) .keep (advanceSkipMetadata none old.entries).2
      (advanceSkipMetadata none new.entries).2 = twoPointerMerge .keep old.entries new.entries := by
    unfold twoPointerMerge
    rw [filter_advanceSkipMetadata, filter_advanceSkipMetadata]
  unfold mergeBuckets firstLevelEntries
  rw [hfull, Bool.and_false]
  simp only [Bool.false_eq_true, if_false, buildOutputMetadata_current, hmerge]
  cases twoPointerMerge (H := H) .keep old.entries new.entries with
  | error e => exact ⟨nofun, fun ⟨_, h, _⟩ => nomatch h⟩
  | ok merged =>
    simp only [bind, Except.bind, Except.ok.injEq, exists_eq_left']
    generalize ((currentMetadata v).map BucketEntry.metaentry).toList ++ merged = entries
    rw [← build_iff entries (fromSortedEntriesWithInMemory hasher)
      (fun _ _ h => ofSorted_ok h) fun _ hsorted => ⟨_, ofSorted_of_ascending hsorted⟩]
    by_cases hnil : entries.isEmpty = true
    · rw [if_pos hnil, if_pos hnil]
      rfl
    · rw [if_neg hnil, if_neg hnil]
      cases hsorted : fromSortedEntries hasher entries with
      | error e =>
        refine ⟨nofun, fun hok => ?_⟩
        obtain ⟨-, hentries, -⟩ := ofSorted_ok hok
        have hasc := bucket.sorted
        rw [hentries] at hasc
        cases hsorted.symm.trans (ofSorted_of_ascending hasc)
      | ok cold =>
        obtain ⟨-, hentries, hcold⟩ := ofSorted_ok hsorted
        simp only [withInMemoryEntries, hentries, hcold, Bool.false_eq_true, if_false]

/-- The merge of level 0, whichever it is. -/
def firstMerge (hasher : Hasher (BucketEntry I D) H) (protocolVersion : ℕ)
    (curr incoming : Bucket I D H) : Except (BucketError H) (Bucket I D H) :=
  if curr.hasInMemoryEntries then mergeInMemory hasher curr incoming protocolVersion
  else mergeBuckets hasher curr incoming
    { keepDeadEntries := .keep, maxProtocolVersion := protocolVersion
      metadataPolicy := .currentProtocol } >>= withInMemoryEntries hasher

theorem firstMerge_iff (hzero : hasher.NonZero) (hready : old.Ready hasher) :
    firstMerge hasher v old new = .ok bucket ↔ ∃ entries,
      firstLevelEntries (H := H) v old.entries new.entries = .ok entries ∧
        bucket.IsFirstLevel hasher entries := by
  unfold firstMerge
  split
  · exact mergeInMemory_iff
  next hcold =>
    exact mergeBuckets_first_iff hzero hready.1 (hready.2.resolve_left hcold)

theorem prepareFirstLevel_eq {level : LiveLevel I D H} (hnext : level.next = none)
    (hfresh : new.hasInMemoryEntries = true) :
    LiveLevel.prepareFirstLevel hasher v new level =
      (firstMerge hasher v level.curr new).map fun merged =>
        { level with next := some (.inMemory merged) } := by
  unfold LiveLevel.prepareFirstLevel firstMerge
  rw [hnext, hfresh, Bool.and_true]
  simp only [Option.isSome_none, Bool.false_eq_true, if_false]
  split
  · cases hin : mergeInMemory hasher level.curr new v with
    | error e => rfl
    | ok merged =>
      obtain ⟨entries, -, -, -, hmemory⟩ := mergeInMemory_iff.mp hin
      simp only [bind, Except.bind, hmemory, if_true]
      rfl
  · cases mergeBuckets hasher level.curr new
        { keepDeadEntries := .keep, maxProtocolVersion := v, metadataPolicy := .currentProtocol } with
    | error e => rfl
    | ok merged =>
      simp only [bind, Except.bind, withInMemoryEntries]
      split
      · rfl
      · cases fromSortedEntriesWithInMemory hasher merged.entries <;> rfl

/-! ### Following through a run -/

/-- Receiving results on either side. -/
theorem ListFollows.received (hfollows : ListFollows hasher n list list')
    {received received' : LiveLevels I D H} (hreceived : Received list.levels received)
    (hreceived' : Received list'.levels received') :
    ListFollows hasher n { list with levels := received } { list' with levels := received' } := by
  obtain ⟨⟨hcurr, hsnap, hnext⟩, hidle, hidle', hready, hready'⟩ := hfollows
  refine ⟨⟨fun l hl => ?_, fun l hl => ?_, fun l hl => ?_⟩, ?_, ?_, ?_, ?_⟩
  · change Bucket.Same (received l).curr (received' l).curr
    rw [(hreceived.at hasher l).1, (hreceived'.at hasher l).1]
    exact hcurr l hl
  · change Bucket.Same (received l).snap (received' l).snap
    rw [(hreceived.at hasher l).2.1, (hreceived'.at hasher l).2.1]
    exact hsnap l hl
  · obtain ⟨hcurr, -, hnone, hsome⟩ := hreceived.at hasher (l + 1)
    obtain ⟨hcurr', -, hnone', hsome'⟩ := hreceived'.at hasher (l + 1)
    have hstanding : standing (empty hasher) n l (received (l + 1)) =
        standing (empty hasher) n l (list.levels (l + 1)) := by
      unfold standing
      rw [hcurr]
    have hstanding' : standing (empty hasher) n l (received' (l + 1)) =
        standing (empty hasher) n l (list'.levels (l + 1)) := by
      unfold standing
      rw [hcurr']
    cases hnext l hl with
    | neither h h' => exact .neither (hnone.mpr h) (hnone'.mpr h')
    | both pending pending' h h' hpending =>
      obtain ⟨next, hnext, -, hsame⟩ := hsome pending h
      obtain ⟨next', hnext', hsame', -⟩ := hsome' pending' h'
      refine .both next next' hnext hnext' fun bucket hok => ?_
      rw [hsame] at hok
      rw [hsame']
      exact hpending bucket hok
    | first pending h h' hstands =>
      obtain ⟨next, hnext, hsame, -⟩ := hsome pending h
      refine .first next hnext (hnone'.mpr h') fun bucket hok => ?_
      change Bucket.Same bucket (standing (empty hasher) n l (received' (l + 1)))
      rw [hstanding']
      exact hstands bucket (hsame.symm.trans hok)
    | second pending' bucket' h h' hresolve hstands =>
      obtain ⟨next', hnext', hsame', -⟩ := hsome' pending' h'
      refine .second next' bucket' (hnone.mpr h) hnext' (hsame'.trans hresolve) ?_
      change Bucket.Same (standing (empty hasher) n l (received (l + 1))) bucket'
      rw [hstanding]
      exact hstands
  · exact (hreceived.at hasher 0).2.2.1.mpr hidle
  · exact (hreceived'.at hasher 0).2.2.1.mpr hidle'
  · change Bucket.Ready hasher (received 0).curr
    rw [(hreceived.at hasher 0).1]
    exact hready
  · change Bucket.Ready hasher (received' 0).curr
    rw [(hreceived'.at hasher 0).1]
    exact hready'

omit [DecidableEq H] in
theorem received_poll (finished : ℕ → Bool) (list : BucketList I D H) :
    Received list.levels (list.pollPendingMerges finished).levels := by
  intro l
  cases hfinished : finished l with
  | false =>
    left
    simp [pollPendingMerges, hfinished]
  | true =>
    right
    simp [pollPendingMerges, hfinished]

variable {diskFull : ℕ → Option ℕ}

theorem ready_lowered {level : LiveLevel I D H} (hready : level.curr.Ready hasher) :
    (lowered (liveOps hasher v diskFull) n 0 level).curr.Ready hasher := by
  unfold lowered
  split
  · exact ⟨rfl, .inl rfl⟩
  · exact hready

/-- What the first list takes in, the second takes in. -/
theorem ListFollows.addBatchInternal (hzero : hasher.NonZero)
    (hfollows : ListFollows hasher n list list') {incoming : Bucket I D H}
    (hfresh : incoming.hasInMemoryEntries = true) {finished : ℕ → Bool}
    (hadd : list.addBatchInternal hasher finished diskFull (n + 1) v incoming = .ok next)
    (finished' : ℕ → Bool) :
    ∃ next', list'.addBatchInternal hasher finished' (fun _ => none) (n + 1) v incoming =
        .ok next' ∧ ListFollows hasher (n + 1) next next' := by
  have hpoll := hfollows.received (received_poll finished list) (received_poll finished' list')
  unfold BucketList.addBatchInternal at hadd ⊢
  rw [if_neg (Nat.succ_ne_zero n)] at hadd ⊢
  cases hspill : spillLevels (liveOps hasher v diskFull) (n + 1) (bucketListLevels - 1)
      (list.pollPendingMerges finished).levels with
  | error e =>
    simp only [hspill, bind, Except.bind] at hadd
    cases hadd
  | ok levels =>
    obtain ⟨levels', hspill', hlevels, hbottom, hbottom'⟩ :=
      (liveFollows_iff.mpr hpoll.levels).spill (live_likeness diskFull) hspill
    have hnext : (levels 0).next = none := by
      rw [hbottom, lowered_next]
      exact hpoll.idle
    have hnext' : (levels' 0).next = none := by
      rw [hbottom', lowered_next]
      exact hpoll.idle'
    have hready : (levels 0).curr.Ready hasher := hbottom ▸ ready_lowered hpoll.ready
    have hready' : (levels' 0).curr.Ready hasher := hbottom' ▸ ready_lowered hpoll.ready'
    have hspill'' : spillLevels (liveOps hasher v fun _ => none) (n + 1) (bucketListLevels - 1)
        (list'.pollPendingMerges finished').levels = .ok levels' := hspill'
    simp only [hspill, bind, Except.bind, prepareFirstLevel_eq hnext hfresh] at hadd
    simp only [hspill'', bind, Except.bind, prepareFirstLevel_eq hnext' hfresh]
    cases hmerge : firstMerge hasher v (levels 0).curr incoming with
    | error e =>
      rw [hmerge] at hadd
      cases hadd
    | ok merged =>
      rw [hmerge] at hadd
      cases hadd
      obtain ⟨entries, hentries, hfirst⟩ := (firstMerge_iff hzero hready).mp hmerge
      rw [(hlevels.curr 0 (by omega)).2] at hentries
      rw [(firstMerge_iff hzero hready').mpr ⟨entries, hentries, hfirst⟩]
      have hmerged : merged.Ready hasher := ⟨hfirst.2.1 ▸ hfirst.1, .inl hfirst.2.2⟩
      refine ⟨_, rfl, ⟨⟨fun l hl => ?_, fun l hl => ?_, fun l hl => ?_⟩, rfl, rfl, hmerged,
        hmerged⟩⟩
      · cases l with
        | zero => exact ⟨rfl, rfl⟩
        | succ l => exact hlevels.curr (l + 1) hl
      · cases l with
        | zero => exact hlevels.snap 0 hl
        | succ l => exact hlevels.snap (l + 1) hl
      · exact (liveFollows_iff.mp hlevels).next l hl

/-- What the first list closes, the second closes. -/
theorem ListFollows.addBatch (hzero : hasher.NonZero) (hfollows : ListFollows hasher n list list')
    {finished : ℕ → Bool} {skipDedup : Bool} {batch : LedgerBatch I D}
    (hadd : list.addBatch hasher finished diskFull skipDedup (n + 1) batch = .ok next)
    (finished' : ℕ → Bool) :
    ∃ next', list'.addBatch hasher finished' (fun _ => none) skipDedup (n + 1) batch = .ok next' ∧
      ListFollows hasher (n + 1) next next' := by
  unfold BucketList.addBatch at hadd ⊢
  obtain ⟨incoming, hfresh, hadd⟩ := bind_ok_iff.mp hadd
  rw [hfresh]
  simp only [bind, Except.bind] at hadd ⊢
  obtain ⟨added, hinternal, hadd⟩ := bind_ok_iff.mp hadd
  cases hadd
  obtain ⟨added', hok, hfollows'⟩ :=
    hfollows.addBatchInternal hzero (ofSorted_ok hfresh).2.2 hinternal finished'
  rw [hok]
  exact ⟨_, rfl, hfollows'.levels, hfollows'.idle, hfollows'.idle', hfollows'.ready,
    hfollows'.ready'⟩

end Henyey.Buckets
