import Henyey.Buckets.LiveBatch
import Henyey.Buckets.Waiting
import Henyey.Buckets.Reading

/-!
# The live bucket list refines a map

After each ledger the buckets of the list represent all ledgers so far, however
its merges were waited for.
-/

namespace Henyey.Buckets

open Foundation Ledger BucketList

variable {I D H : Type} [LinearOrder I] [DecidableEq H]
  {hasher : Hasher (BucketEntry I D) H} {h : LiveHistory I D}
  {n N : ℕ} {levels : LiveLevels I D H} {list list' : BucketList I D H}

def LivePends (hasher : Hasher (BucketEntry I D) H) (h : LiveHistory I D)
    (pending : PendingMerge I D H) (a c : ℕ) : Prop :=
  ∃ bucket, pending.resolve hasher = .ok bucket ∧ LiveRepresents hasher h bucket a c

/-- Levels whose buckets and pending merges represent their ledgers. The ledger
whose protocol starts merges does not matter here. -/
abbrev LiveCovered (hasher : Hasher (BucketEntry I D) H) (h : LiveHistory I D) (n : ℕ)
    (levels : LiveLevels I D H) : Prop :=
  Covered (liveOps hasher 0 fun _ => none) (LiveRepresents hasher h) (LivePends hasher h) h.first n
    levels

/-- A list on its schedule after a ledger. Level 0 either has its entries in
memory or is not empty. -/
structure Tracks (hasher : Hasher (BucketEntry I D) H) (h : LiveHistory I D) (n : ℕ)
    (list : BucketList I D H) : Prop where
  covered : LiveCovered hasher h n list.levels
  curr : LiveRepresents hasher h (list.levels 0).curr (cut 0 n) (n + 1)
  memory : (list.levels 0).curr.hasInMemoryEntries = true ∨ (list.levels 0).curr.entries ≠ []

/-- What coverage needs holds of the live list, if no merge fails. -/
theorem live_coverage (hzero : hasher.NonZero) (hup : h.Upgrading n) :
    Coverage (liveOps hasher (h.version n) fun _ => none) (LiveRepresents hasher h)
      (LivePends hasher h) h.first n where
  empty a c hidle := represents_empty liveEntryAt_none (by omega)
  released l b a c hrep := by
    change LiveRepresents hasher h (if l = 0 then b.clearInMemoryEntries else b) a c
    split
    · exact hrep
    · exact hrep
  start l x y a b c hl hx hy hab hbc hc hlast := by
    have hpolicy : keepTombstoneEntries (blKeepTombstoneEntries (l + 1)) = .keep ∨ a = 0 := by
      by_cases hnine : l = 9
      · exact .inr (hlast hnine)
      · refine .inl (if_pos (decide_eq_true ?_))
        unfold bucketListLevels
        omega
    obtain ⟨bucket, hok, hrep⟩ := mergeBuckets_spec hzero hup hx hy hab hbc (by omega) hpolicy
    exact ⟨_, rfl, bucket, hok, hrep⟩
  resolve pending bucket a c := by
    rintro ⟨bucket', hresolve, hrep⟩ hok
    rw [Except.ok.inj (hok.symm.trans hresolve)]
    exact hrep

theorem liveCovered_iff {version : ℕ} {diskFull : ℕ → Option ℕ} :
    Covered (liveOps hasher version diskFull) (LiveRepresents hasher h) (LivePends hasher h) h.first
      n levels ↔
      LiveCovered hasher h n levels :=
  ⟨fun h => ⟨h.curr, h.snap, h.next, h.idle⟩, fun h => ⟨h.curr, h.snap, h.next, h.idle⟩⟩

/-! ### Waiting for merges -/

theorem LiveCovered.received {levels' : LiveLevels I D H} (hcovered : LiveCovered hasher h n levels)
    (hreceived : Received levels levels') : LiveCovered hasher h n levels' where
  curr l hl := by
    rw [(hreceived.at hasher (l + 1)).1]
    exact hcovered.curr l hl
  snap l hl := by
    rw [(hreceived.at hasher l).2.1]
    exact hcovered.snap l hl
  next l hl := by
    obtain ⟨hcurr, -, hnone, hsome⟩ := hreceived.at hasher (l + 1)
    rw [hnone, hcurr]
    refine (hcovered.next l hl).imp_right ?_
    rintro ⟨pending, hnext, bucket, hresolve, hrep⟩
    obtain ⟨pending', hnext', hsame, -⟩ := hsome pending hnext
    exact ⟨pending', hnext', bucket, hsame.trans hresolve, hrep⟩
  idle := (hreceived.at hasher 0).2.2.1.mpr hcovered.idle

theorem Tracks.received {levels' : LiveLevels I D H} (htracks : Tracks hasher h n list)
    (hreceived : Received list.levels levels') :
    Tracks hasher h n { list with levels := levels' } := by
  have hcurr := (hreceived.at hasher 0).1
  refine ⟨LiveCovered.received htracks.covered hreceived, ?_, ?_⟩
  · change LiveRepresents hasher h (levels' 0).curr (cut 0 n) (n + 1)
    rw [hcurr]
    exact htracks.curr
  · change (levels' 0).curr.hasInMemoryEntries = true ∨ (levels' 0).curr.entries ≠ []
    rw [hcurr]
    exact htracks.memory

theorem Tracks.poll (htracks : Tracks hasher h n list) (finished : ℕ → Bool) :
    Tracks hasher h n (list.pollPendingMerges finished) := by
  refine htracks.received fun l => ?_
  cases finished l with
  | false => exact .inl rfl
  | true => exact .inr rfl

theorem LiveCovered.resolves (hcovered : LiveCovered hasher h n levels) {l : ℕ} (hl : l ≤ 10) :
    Resolves hasher (levels l) := by
  intro pending hnext
  cases l with
  | zero =>
    rw [hcovered.idle] at hnext
    cases hnext
  | succ l =>
    obtain ⟨hnone, -⟩ | ⟨pending', hsome, bucket, hresolve, -⟩ := hcovered.next l hl
    · rw [hnone] at hnext
      cases hnext
    · obtain rfl := Option.some.inj (hsome.symm.trans hnext)
      exact ⟨bucket, hresolve⟩

theorem Tracks.resolveAll (htracks : Tracks hasher h n list) :
    (list.resolveAllPendingMerges hasher).2 = .ok () ∧
      Tracks hasher h n (list.resolveAllPendingMerges hasher).1 := by
  obtain ⟨hok, hreceived⟩ := resolveLevels_ok (List.range bucketListLevels) list.levels
    fun l hl => LiveCovered.resolves htracks.covered (Nat.le_of_lt_succ (List.mem_range.mp hl))
  exact ⟨hok, htracks.received hreceived⟩

/-! ### One ledger -/

theorem prepareFirstLevel_spec (hzero : hasher.NonZero) (hup : h.Upgrading n) (hfirst : h.first ≤ n)
    {level : LiveLevel I D H} {a : ℕ} (hnext : level.next = none)
    (hcurr : LiveRepresents hasher h level.curr a n) (ha : a ≤ n)
    (hmemory : level.curr.hasInMemoryEntries = true ∨ level.curr.entries ≠ [])
    {incoming : Bucket I D H} {metadata : BucketMetadata} {news : List (BucketEntry I D)}
    (hnews : Holds BucketEntry.key liveEntryAt h.toTimeline n (n + 1) news)
    (hincoming : incoming.entries = .metaentry metadata :: news)
    (hfresh : incoming.hasInMemoryEntries = true) :
    ∃ merged, LiveLevel.prepareFirstLevel hasher (h.version n) incoming level =
        .ok { level with next := some (.inMemory merged) } ∧
      LiveRepresents hasher h merged a (n + 1) ∧ merged.hasInMemoryEntries = true := by
  unfold LiveLevel.prepareFirstLevel
  rw [hnext, hfresh, Bool.and_true]
  simp only [Option.isSome_none, Bool.false_eq_true, if_false]
  split
  · obtain ⟨merged, hok, hrep, hin⟩ := mergeInMemory_spec hup hfirst hcurr hnews hincoming ha
    refine ⟨merged, ?_, hrep, hin⟩
    simp only [hok, bind, Except.bind, hin, if_true]
  next hcold =>
    obtain ⟨merged, hok, hrep⟩ := mergeBuckets_current hzero hup hfirst hcurr
      (hmemory.resolve_left hcold) hnews hincoming ha
    simp only [hok, bind, Except.bind]
    split
    next hin => exact ⟨merged, rfl, hrep, hin⟩
    · have hne : merged.entries ≠ [] := fun hnil => by
        have hidle := (Represents.isEmpty_iff liveEntryAt_none hrep).mp hnil
        omega
      refine ⟨⟨hasher.file merged.entries, merged.entries, true, merged.sorted⟩, ?_, ?_, rfl⟩
      · unfold Bucket.fromSortedEntriesWithInMemory
        rw [Bucket.ofSorted_of_ascending merged.sorted]
      · obtain ⟨body, hbody, hentries, -⟩ := hrep
        refine ⟨body, hbody, hentries, ?_⟩
        change hasher.file merged.entries = fileHash hasher merged.entries
        unfold fileHash
        rw [if_neg (by rwa [List.isEmpty_iff])]

/-- A ledger keeps the list on its schedule. -/
theorem Tracks.addBatchInternal (hzero : hasher.NonZero) (hup : h.Upgrading (n + 1))
    (hfirst : h.first ≤ n + 1) (htracks : Tracks hasher h n list) {incoming : Bucket I D H}
    {metadata : BucketMetadata} {news : List (BucketEntry I D)}
    (hnews : Holds BucketEntry.key liveEntryAt h.toTimeline (n + 1) (n + 2) news)
    (hincoming : incoming.entries = .metaentry metadata :: news)
    (hfresh : incoming.hasInMemoryEntries = true) (finished : ℕ → Bool) :
    ∃ list', list.addBatchInternal hasher finished (fun _ => none) (n + 1) (h.version (n + 1))
        incoming = .ok list' ∧ Tracks hasher h (n + 1) list' := by
  have hpoll := htracks.poll finished
  have hbefore : Covered (liveOps hasher (h.version (n + 1)) fun _ => none)
      (LiveRepresents hasher h) (LivePends hasher h) h.first n
      (list.pollPendingMerges finished).levels := liveCovered_iff.mpr hpoll.covered
  obtain ⟨levels, hspill⟩ := hbefore.spills hpoll.curr (live_coverage hzero hup)
    fun pending a c ⟨bucket, hok, _⟩ => ⟨bucket, hok⟩
  obtain ⟨hcovered, hcurr, hlevel⟩ := hbefore.spill hpoll.curr (live_coverage hzero hup) hspill
  have hmemory : (levels 0).curr.hasInMemoryEntries = true ∨ (levels 0).curr.entries ≠ [] := by
    rw [hlevel]
    unfold lowered
    split
    · exact .inl rfl
    · exact hpoll.memory
  obtain ⟨merged, hprepare, hmerged, hin⟩ := prepareFirstLevel_spec hzero hup hfirst hcovered.idle
    hcurr (cut_le 0 (n + 1)) hmemory hnews hincoming hfresh
  let level : LiveLevel I D H := { levels 0 with curr := merged, next := none }
  refine ⟨{ list with levels := Function.update levels 0 level }, ?_, ⟨?_, ?_, ?_, ?_⟩, ?_, ?_⟩
  · unfold BucketList.addBatchInternal
    rw [if_neg (Nat.succ_ne_zero n)]
    have hspill' : spillLevels (liveOps hasher (h.version (n + 1)) fun _ => none) (n + 1)
        (bucketListLevels - 1) (list.pollPendingMerges finished).levels = .ok levels := hspill
    simp only [hspill', hprepare, bind, Except.bind]
    rfl
  · intro l hl
    exact hcovered.curr l hl
  · intro l hl
    cases l with
    | zero => exact hcovered.snap 0 hl
    | succ l => exact hcovered.snap (l + 1) hl
  · intro l hl
    exact hcovered.next l hl
  · rfl
  · exact hmerged
  · exact .inl hin

/-! ### Runs -/

/-- What can be done to a list in any order: to poll it, to wait for its merges,
and to add the next ledger, while merges finish at any time. -/
inductive Runs (hasher : Hasher (BucketEntry I D) H) (batches : ℕ → LedgerBatch I D) :
    ℕ → BucketList I D H → Prop where
  | new : Runs hasher batches 0 (.new hasher)
  | poll {n : ℕ} {list : BucketList I D H} (finished : ℕ → Bool) (hrun : Runs hasher batches n list) :
      Runs hasher batches n (list.pollPendingMerges finished)
  | resolve {n : ℕ} {list : BucketList I D H} (hrun : Runs hasher batches n list) :
      Runs hasher batches n (list.resolveAllPendingMerges hasher).1
  | addBatch {n : ℕ} {list list' : BucketList I D H} (finished : ℕ → Bool) (skipDedup : Bool)
      (hrun : Runs hasher batches n list)
      (hadd : list.addBatch hasher finished (fun _ => none) skipDedup (n + 1) (batches (n + 1)) =
        .ok list') : Runs hasher batches (n + 1) list'

/-- Batches up to a ledger that are legal one after the other, under protocols
that support archival and only go up. -/
structure LegalBatches (batches : ℕ → LedgerBatch I D) (n : ℕ) : Prop where
  legal : ∀ m, m < n → (batches (m + 1)).Legal (referenceMap batches m)
  supported : ∀ m, 1 ≤ m → m ≤ n → 23 ≤ (batches m).protocolVersion
  upgrading : ∀ m m', 1 ≤ m → m ≤ m' → m' ≤ n →
    (batches m).protocolVersion ≤ (batches m').protocolVersion

variable {batches : ℕ → LedgerBatch I D}

theorem LegalBatches.of_le (hlegal : LegalBatches batches N) (hle : n ≤ N) :
    LegalBatches batches n where
  legal m hm := hlegal.legal m (by omega)
  supported m h1 hm := hlegal.supported m h1 (by omega)
  upgrading m m' h1 hm hm' := hlegal.upgrading m m' h1 hm (by omega)

theorem LegalBatches.history (hlegal : LegalBatches batches n) :
    (liveHistory batches).Upgrading n where
  mono := hlegal.upgrading
  supported m h1 hm := le_trans (by decide) (hlegal.supported m h1 hm)

theorem tracks_new : Tracks hasher (liveHistory batches) 0 (.new hasher) where
  covered := covered_new Nat.zero_lt_one fun _ _ hidle =>
    represents_empty liveEntryAt_none (le_max_iff.mpr hidle.symm)
  curr := represents_empty liveEntryAt_none (Nat.le_max_right _ _)
  memory := .inl rfl

theorem Tracks.addBatch (hzero : hasher.NonZero) (hlegal : LegalBatches batches (n + 1))
    (htracks : Tracks hasher (liveHistory batches) n list) (finished : ℕ → Bool) (skipDedup : Bool) :
    ∃ list', list.addBatch hasher finished (fun _ => none) skipDedup (n + 1) (batches (n + 1)) =
        .ok list' ∧ Tracks hasher (liveHistory batches) (n + 1) list' := by
  have hsupported := hlegal.supported (n + 1) (by omega) le_rfl
  have hlegal' := hlegal.legal n (Nat.lt_succ_self n)
  obtain ⟨bucket, metadata, hfresh, hentries, hin⟩ :=
    freshInMemoryOnly_batch hasher hlegal' (by omega) skipDedup
  obtain ⟨list', hadd, htracks'⟩ := htracks.addBatchInternal hzero hlegal.history
    (Nat.le_add_left 1 n) (holds_batch hlegal') hentries hin finished
  refine ⟨{ list' with ledgerSeq := n + 1 }, ?_, htracks'.covered, htracks'.curr, htracks'.memory⟩
  have hadd' : list.addBatchInternal hasher finished (fun _ => none) (n + 1)
      (batches (n + 1)).protocolVersion bucket = .ok list' := hadd
  unfold BucketList.addBatch
  simp only [hfresh, hadd', bind, Except.bind]

theorem Runs.tracks (hzero : hasher.NonZero) (hlegal : LegalBatches batches n)
    (hrun : Runs hasher batches n list) : Tracks hasher (liveHistory batches) n list := by
  induction hrun with
  | new => exact tracks_new
  | poll finished _ ih => exact (ih hlegal).poll finished
  | resolve _ ih => exact (ih hlegal).resolveAll.2
  | addBatch finished skipDedup _ hadd ih =>
    obtain ⟨list', hok, htracks⟩ :=
      (ih (hlegal.of_le (Nat.le_succ _))).addBatch hzero hlegal finished skipDedup
    rw [Except.ok.inj (hadd.symm.trans hok)]
    exact htracks

/-! ### What is read -/

/-- The buckets of the levels from one on, the newest first. -/
theorem Tracks.chain_levels (htracks : Tracks hasher h n list) (k l : ℕ) (hl : l + k = 11) :
    Chain hasher h (((List.range' l k).map list.levels).flatMap fun level =>
      [level.curr, level.snap]) (currEnd l n) := by
  induction k generalizing l with
  | zero =>
    obtain rfl : l = 11 := by omega
    exact .nil
  | succ k ih =>
    have hrest := ih (l + 1) (by omega)
    have hsnap := htracks.covered.snap l (by omega)
    rw [List.range'_succ, List.map_cons, List.flatMap_cons]
    refine .cons ?_ (cut_le_currEnd l n (by omega)) (.cons hsnap (tail_le_cut l n) hrest)
    cases l with
    | zero => exact htracks.curr
    | succ l => exact htracks.covered.curr l (by omega)

theorem Tracks.chain (htracks : Tracks hasher h n list) : Chain hasher h list.buckets (n + 1) := by
  have hchain := htracks.chain_levels 11 0 rfl
  rwa [← List.range_eq_range'] at hchain

/-- The list answers as the map after the last ledger does, to every question,
and takes in the next legal batch. -/
theorem bucketList_refines_map (hzero : hasher.NonZero) (hlegal : LegalBatches batches n)
    (hrun : Runs hasher batches n list) :
    (∀ key, list.get key = referenceMap batches n key) ∧
    BucketList.Enumerates (list.liveEntriesIter hasher) (referenceMap batches n) ∧
    (∀ types, (list.scanForEntriesOfTypes types fun _ => true).2 = true ∧ ∃ entries,
      (list.scanForEntriesOfTypes types fun _ => true).1.map BucketEntry.asLedgerEntry =
        entries.map some ∧
      BucketList.Enumerates entries (ofTypes types (referenceMap batches n))) ∧
    (list.resolveAllPendingMerges hasher).2 = .ok () ∧
    (LegalBatches batches (n + 1) → ∀ finished skipDedup, ∃ list',
      list.addBatch hasher finished (fun _ => none) skipDedup (n + 1) (batches (n + 1)) =
        .ok list') := by
  have htracks := hrun.tracks hzero hlegal
  have hchain := htracks.chain
  have hhit : firstHit (list.buckets.flatMap Bucket.entries) = referenceMap batches n := by
    funext key
    rw [hchain.firstHit, referenceMap_eq]
  have hyield : BucketList.Enumerates
      (yieldLive [] (list.buckets.flatMap Bucket.entries)) (referenceMap batches n) := by
    rw [← hhit]
    exact enumerates_yieldLive
  refine ⟨fun key => ?_, ?_, fun types => ?_, htracks.resolveAll.1, ?_⟩
  · rw [get_eq, hhit]
  · unfold liveEntriesIter
    rwa [hchain.flatMap_filter hzero]
  · obtain ⟨hdone, hcalls⟩ : _ ∧ (list.scanForEntriesOfTypes types fun _ => true).1.map
        BucketEntry.asLedgerEntry = ((yieldLive [] (list.buckets.flatMap
          Bucket.entries)).filter fun entry => ledgerKeyType (entryToKey entry) ∈ types).map some :=
      scanEntries_eq fun _ _ => .rfl
    exact ⟨hdone, _, hcalls, hyield.filter types⟩
  · intro hnext finished skipDedup
    obtain ⟨list', hadd, -⟩ := htracks.addBatch hzero hnext finished skipDedup
    exact ⟨list', hadd⟩

/-! ### Concrete runs -/

section Example

/-- Add ledgers one by one, with every merge waited for when it is needed. -/
def addLedgers (hasher : Hasher (BucketEntry I D) H) (batches : ℕ → LedgerBatch I D) :
    ℕ → Except (BucketError H) (BucketList I D H)
  | 0 => .ok (.new hasher)
  | n + 1 => do
    let list ← addLedgers hasher batches n
    list.addBatch hasher (fun _ => false) (fun _ => none) false (n + 1) (batches (n + 1))

theorem addLedgers_runs (hadd : addLedgers hasher batches n = .ok list) :
    Runs hasher batches n list := by
  induction n generalizing list with
  | zero =>
    cases hadd
    exact .new
  | succ n ih =>
    unfold addLedgers at hadd
    obtain ⟨before, hbefore, hadd⟩ := bind_ok_iff.mp hadd
    exact .addBatch _ _ (ih hbefore) hadd

/-- A hash for examples: how many entries a file has. -/
def countingHasher : Hasher (BucketEntry ℕ ℕ) ℕ where
  zero := 0
  file := List.length
  concat := List.sum

theorem countingHasher_nonZero : countingHasher.NonZero :=
  fun _ hne => mt List.eq_nil_of_length_eq_zero hne

def sampleEntry : LedgerEntry ℕ ℕ where
  lastModifiedLedgerSeq := 1
  data := .account 7 100
  sponsoringId := none

def createDelete : ℕ → LedgerBatch ℕ ℕ
  | 1 => { protocolVersion := 24, initEntries := [sampleEntry], liveEntries := [], deadEntries := [] }
  | 2 => { protocolVersion := 25, initEntries := [], liveEntries := []
           deadEntries := [.account 7] }
  | _ => { protocolVersion := 25, initEntries := [], liveEntries := [], deadEntries := [] }

theorem createDelete_legal : LegalBatches createDelete 2 where
  legal m hm := by
    obtain rfl | rfl : m = 0 ∨ m = 1 := by omega
    · exact ⟨by decide, by simp [createDelete, referenceMap], by simp [createDelete],
        by simp [createDelete]⟩
    · refine ⟨by decide, by simp [createDelete], by simp [createDelete], fun key hkey => ?_⟩
      obtain rfl : key = .account 7 := by simpa [createDelete] using hkey
      decide
  supported m h1 hm := by
    obtain rfl | rfl : m = 1 ∨ m = 2 := by omega
    · decide
    · decide
  upgrading m m' h1 hm hm' := by
    obtain ⟨rfl, rfl⟩ | ⟨rfl, rfl⟩ | ⟨rfl, rfl⟩ :
        (m = 1 ∧ m' = 1) ∨ (m = 1 ∧ m' = 2) ∨ (m = 2 ∧ m' = 2) := by omega
    · decide
    · decide
    · decide

theorem bucketList_refines_map_createDelete : ∃ list,
    Runs countingHasher createDelete 2 list ∧ list.get (.account 7) = none ∧
      (list.resolveAllPendingMerges countingHasher).2 = .ok () := by
  have hok : (addLedgers countingHasher createDelete 2).toOption.isSome = true := by decide
  cases hadd : addLedgers countingHasher createDelete 2 with
  | error e =>
    rw [hadd] at hok
    cases hok
  | ok list =>
    have hrun := addLedgers_runs hadd
    obtain ⟨hget, -, -, hresolve, -⟩ :=
      bucketList_refines_map countingHasher_nonZero createDelete_legal hrun
    exact ⟨list, hrun, (hget _).trans (by decide), hresolve⟩

/-- Empty ledgers, the first under a later protocol than the others. -/
def downgrade (m : ℕ) : LedgerBatch ℕ ℕ where
  protocolVersion := if m = 1 then 24 else 23
  initEntries := []
  liveEntries := []
  deadEntries := []

/-- When the protocol goes down, a merge fails, and with it a later ledger. -/
theorem bucketList_downgrade_fails :
    (∀ m, (downgrade (m + 1)).Legal (referenceMap downgrade m)) ∧
    (∀ m, 23 ≤ (downgrade m).protocolVersion) ∧
    ∃ list, Runs countingHasher downgrade 3 list ∧ ∃ e,
      list.addBatch countingHasher (fun _ => false) (fun _ => none) false 4 (downgrade 4) =
        .error e := by
  refine ⟨fun m => ⟨List.nodup_nil, nofun, nofun, nofun⟩, fun m => ?_, ?_⟩
  · unfold downgrade
    split <;> decide
  · have hthree : (addLedgers countingHasher downgrade 3).toOption.isSome = true := by decide
    have hfour : (addLedgers countingHasher downgrade 4).toOption.isSome = false := by decide
    cases hadd : addLedgers countingHasher downgrade 3 with
    | error e =>
      rw [hadd] at hthree
      cases hthree
    | ok list =>
      refine ⟨list, addLedgers_runs hadd, ?_⟩
      unfold addLedgers at hfour
      rw [hadd] at hfour
      have hlast : (list.addBatch countingHasher (fun _ => false) (fun _ => none) false 4
        (downgrade 4)).toOption.isSome = false := hfour
      cases hnext : list.addBatch countingHasher (fun _ => false) (fun _ => none) false 4
          (downgrade 4) with
      | error e => exact ⟨e, rfl⟩
      | ok list' =>
        rw [hnext] at hlast
        cases hlast

end Example

end Henyey.Buckets
