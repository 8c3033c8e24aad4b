import Henyey.Buckets.HotArchiveRefinement
import Henyey.Buckets.RestartEquivalence

/-!
# The hot archive survives a restart

A level is rebuilt as it was, or without its merge. Without it only where
nothing has been received yet, and there the merge yields what the level stands
for.
-/

namespace Henyey.Buckets

open Foundation Ledger HotArchiveBucketList List
open Function

variable {I D H : Type} [LinearOrder I] [DecidableEq H]
  {hasher : Hasher (HotArchiveBucketEntry I D) H} {h : LiveHistory I D}
  {load : H → Except (BucketError H) (HotArchiveBucket I D H)}
  {batches : ℕ → HotArchiveBatch I D} {start count l n protocolVersion : ℕ}
  {bucket : HotArchiveBucket I D H} {list rebuilt : HotArchiveBucketList I D H}
  {level level' : HotArchiveBucketLevel I D H}
  {levels target : Levels (HotArchiveBucket I D H) (HotArchiveBucket I D H)}

namespace HotArchiveBucketList

def hashes (list : HotArchiveBucketList I D H) : List (H × H) :=
  (range bucketListLevels).map fun l => ((list.levels l).curr.hash, (list.levels l).snap.hash)

/-- A loader that has the buckets of a list and the outputs of its merges. -/
def Loads (load : H → Except (BucketError H) (HotArchiveBucket I D H))
    (list : HotArchiveBucketList I D H) : Prop :=
  ∀ l bucket, l ≤ 10 → bucket.entries ≠ [] →
    (bucket = (list.levels l).curr ∨ bucket = (list.levels l).snap ∨
      (list.levels l).next = some bucket) → load bucket.hash = .ok bucket

/-- What can be persisted of the merge of a level after ledger `n`: nothing, its
output, or its inputs. -/
inductive Persists (hasher : Hasher (HotArchiveBucketEntry I D) H) (n : ℕ)
    (list : HotArchiveBucketList I D H) : ℕ → Option (PendingMergeState H) → Prop where
  | nothing (l : ℕ) : Persists hasher n list l none
  | output {l : ℕ} {hash : H}
      (hhash : HotArchiveBucketLevel.pendingMergeOutputHash hasher (list.levels l) = some hash) :
      Persists hasher n list l (some (.output hash))
  | inputs {l : ℕ} {bucket : HotArchiveBucket I D H} (hl : l < 10)
      (hnext : (list.levels (l + 1)).next = some bucket) :
      Persists hasher n list (l + 1) (some (.inputs
        (standing (.empty hasher) n l (list.levels (l + 1))).hash (list.levels l).snap.hash))

end HotArchiveBucketList

open HotArchiveBucketList

/-- A level as it was, or without its merge. -/
def Resumed (level level' : HotArchiveBucketLevel I D H) : Prop :=
  level' = level ∨ level' = { level with next := none }

section

omit [DecidableEq H]

section

variable (hresumed : Resumed level level')
include hresumed

theorem Resumed.buckets : level'.curr = level.curr ∧ level'.snap = level.snap := by
  obtain rfl | rfl := hresumed
  · exact ⟨rfl, rfl⟩
  · exact ⟨rfl, rfl⟩

theorem Resumed.of_isSome (hnext : level'.next.isSome = true) : level' = level := by
  obtain rfl | rfl := hresumed
  · rfl
  · cases hnext

theorem Resumed.complete (hnext : level.next = some bucket) :
    { level' with next := some bucket } = level := by
  obtain ⟨hcurr, hsnap⟩ := hresumed.buckets
  rw [hcurr, hsnap, ← hnext]

end

end

/-! ### Loading -/

theorem hotLoadAndVerify_ok (hload : load bucket.hash = .ok bucket) :
    HotArchiveBucketList.loadAndVerify load bucket.hash = .ok bucket := by
  unfold HotArchiveBucketList.loadAndVerify
  rw [hload]
  exact if_pos rfl

/-- An empty bucket needs no loader. -/
theorem hotLoadOrSentinel_ok (hzero : hasher.NonZero)
    (hhash : bucket.hash = fileHash hasher bucket.entries)
    (hload : bucket.entries ≠ [] → load bucket.hash = .ok bucket) :
    HotArchiveBucketList.loadOrSentinel hasher load bucket.hash = .ok bucket := by
  unfold HotArchiveBucketList.loadOrSentinel HotArchiveBucket.forSentinelHash
  by_cases hnil : bucket.entries = []
  · have hempty : bucket.hash = hasher.zero := by
      rw [hhash, hnil]
      rfl
    rw [if_pos hempty]
    cases bucket with
    | mk hash entries sorted =>
      obtain rfl : hash = hasher.zero := hempty
      obtain rfl : entries = [] := hnil
      rfl
  · have hfile : bucket.hash ≠ hasher.zero := by
      rw [hhash, fileHash, if_neg (by rwa [List.isEmpty_iff])]
      exact hzero _ hnil
    rw [if_neg hfile]
    exact hotLoadAndVerify_ok (hload hnil)

/-! ### The merges of the list -/

section

omit [DecidableEq H]

theorem HotRepresents.eq_empty {a c : ℕ} (hrep : HotRepresents hasher h bucket a c)
    (hidle : c ≤ max a h.first) : bucket = .empty hasher := by
  obtain ⟨dropped, -, hrep⟩ := hrep
  have hsame := hrep.unique (represents_empty (hotEntryAt_none dropped) hidle)
  cases bucket with
  | mk hash entries sorted =>
    obtain ⟨rfl, rfl⟩ : hash = hasher.zero ∧ entries = [] := hsame
    rfl

theorem HotTracks.standing (htracks : HotTracks hasher h n list) (hl : l < 10) :
    HotRepresents hasher h (Buckets.standing (.empty hasher) n l (list.levels (l + 1)))
      (nextStart l n) (tail l n) := by
  unfold Buckets.standing nextStart
  split
  · exact hotRepresents_empty (le_max_left _ _)
  · exact htracks.covered.curr l hl

theorem HotTracks.hashed (htracks : HotTracks hasher h n list) (hl : l ≤ 10) :
    (list.levels l).curr.hash = fileHash hasher (list.levels l).curr.entries ∧
    (list.levels l).snap.hash = fileHash hasher (list.levels l).snap.entries ∧
    ∀ bucket, (list.levels l).next = some bucket →
      bucket.hash = fileHash hasher bucket.entries := by
  refine ⟨?_, (htracks.covered.snap l hl).hashed, fun bucket hnext => ?_⟩
  · cases l with
    | zero => exact htracks.curr.hashed
    | succ l => exact (htracks.covered.curr l hl).hashed
  · cases l with
    | zero => cases htracks.covered.idle.symm.trans hnext
    | succ l =>
      obtain ⟨hnone, -⟩ | ⟨pending, hsome, hrep⟩ := htracks.covered.next l hl
      · cases hnone.symm.trans hnext
      · obtain rfl := Option.some.inj (hsome.symm.trans hnext)
        exact hrep.hashed

/-- What is pending is the merge of what the level stands for and the snap below,
under any protocol that is not too early. -/
theorem HotTracks.merges (hup : h.Upgrading n) (htracks : HotTracks hasher h n list) (hl : l < 10)
    (hnext : (list.levels (l + 1)).next = some bucket) :
    HotRepresents hasher h bucket (nextStart l n) (cut l n) ∧
    ∀ w, (h.headerVersion (nextStart l n) (cut l n)).getD 0 ≤ w →
      mergeHotArchiveBuckets hasher (Buckets.standing (.empty hasher) n l (list.levels (l + 1)))
        (list.levels l).snap w (blKeepTombstoneEntries (l + 1)) = .ok bucket := by
  have hspill : cut l n ≤ lastSpill l n := by
    unfold cut
    rw [if_pos hl]
    exact Nat.sub_le _ _
  have hbottom : l = 9 → nextStart l n = 0 := by
    rintro rfl
    rfl
  obtain ⟨merged, hrep, hmerge⟩ := mergeHotArchiveBuckets_spec hup (htracks.standing hl)
    (htracks.covered.snap l hl.le) (nextStart_le_tail hl) (tail_le_cut l n)
    ((cut_le l n).trans (Nat.le_succ n)) _ (keeps_or_bottom hl hbottom)
  have hstarted := htracks.origin l bucket hl hnext
  have hversion := History.headerVersion_le (a := nextStart l n) (hup.of_le (lastSpill_le l n))
    (hspill.trans (Nat.le_succ _))
  obtain rfl := Except.ok.inj (hstarted.symm.trans (hmerge _ hversion))
  exact ⟨hrep, hmerge⟩

/-- Above a snap that is not empty a merge is pending, and it is started again with
the same outcome. -/
theorem HotTracks.restarts (hup : h.Upgrading n) (htracks : HotTracks hasher h n list)
    (protocolVersion : ℕ) (hl : l < 10) (hfull : (list.levels l).snap.isEmpty = false) :
    ∃ bucket, (list.levels (l + 1)).next = some bucket ∧
      mergeHotArchiveBuckets hasher (Buckets.standing (.empty hasher) n l (list.levels (l + 1)))
        (list.levels l).snap
        (if (list.levels l).snap.getProtocolVersion = 0 then protocolVersion
          else (list.levels l).snap.getProtocolVersion) (blKeepTombstoneEntries (l + 1)) =
        .ok bucket := by
  have hsnap := htracks.covered.snap l hl.le
  have hbusy : max (tail l n) h.first < cut l n := by
    by_contra hidle
    rw [hsnap.isEmpty_iff.mpr (not_lt.mp hidle)] at hfull
    cases hfull
  obtain ⟨-, hfirst, -⟩ | ⟨bucket, hnext, -⟩ := htracks.covered.next l hl
  · omega
  · refine ⟨bucket, hnext, (htracks.merges hup hl hnext).2 _ ?_⟩
    have hstart := nextStart_le_tail (n := n) hl
    have hsupported := hup.supported (cut l n - 1) (by omega) (by have := cut_le l n; omega)
    rw [hsnap.getProtocolVersion_eq, History.headerVersion_busy hbusy,
      History.headerVersion_busy (by omega)]
    simp only [Option.getD_some]
    rw [if_neg (by omega)]

end

/-! ### The rebuilt levels -/

theorem HotTracks.restored (hzero : hasher.NonZero) (htracks : HotTracks hasher h n list)
    (hload : list.Loads load) (hl : l ≤ 10) {state : Option (PendingMergeState H)}
    (hstate : Persists hasher n list l state) :
    ∃ restored, HotArchiveBucketList.restoreLevel hasher load
        ((list.levels l).curr.hash, (list.levels l).snap.hash) state = .ok restored ∧
      Resumed (list.levels l) restored := by
  obtain ⟨hcurrHash, hsnapHash, hnextHash⟩ := htracks.hashed hl
  have hcurr := hotLoadOrSentinel_ok hzero hcurrHash fun hne => hload l _ hl hne (.inl rfl)
  have hsnap := hotLoadOrSentinel_ok hzero hsnapHash fun hne => hload l _ hl hne (.inr (.inl rfl))
  unfold HotArchiveBucketList.restoreLevel
  simp only [hcurr, hsnap, bind, Except.bind]
  cases hstate with
  | nothing => exact ⟨_, rfl, .inr rfl⟩
  | inputs => exact ⟨_, rfl, .inr rfl⟩
  | @output _ hash hhash =>
    unfold HotArchiveBucketLevel.pendingMergeOutputHash at hhash
    cases hnext : (list.levels l).next with
    | none =>
      rw [hnext] at hhash
      cases hhash
    | some bucket =>
      rw [hnext] at hhash
      by_cases hzeroHash : bucket.hash = hasher.zero
      · simp [hzeroHash] at hhash
      · simp only [if_neg hzeroHash] at hhash
        obtain rfl := Option.some.inj hhash
        have hne : bucket.entries ≠ [] := by
          intro hnil
          apply hzeroHash
          rw [hnextHash bucket hnext, hnil]
          rfl
        have hloaded := hotLoadAndVerify_ok (hload l bucket hl hne (.inr (.inr hnext)))
        simp only [if_neg hzeroHash, hloaded]
        refine ⟨_, rfl, .inl ?_⟩
        rw [← hnext]

theorem restartInputs_ok {nextStates : List (Option (PendingMergeState H))} (is : List ℕ)
    (hinputs : ∀ i ∈ is, ∀ currHash snapHash,
      nextStates.getD i none = some (.inputs currHash snapHash) → ∃ curr snap bucket,
        HotArchiveBucketList.loadOrSentinel hasher load currHash = .ok curr ∧
        HotArchiveBucketList.loadOrSentinel hasher load snapHash = .ok snap ∧
        mergeHotArchiveBuckets hasher curr snap protocolVersion (blKeepTombstoneEntries i) =
          .ok bucket ∧ (target i).next = some bucket)
    (his : ∀ i ∈ is, i ≤ 10) (hresumed : ∀ i, i ≤ 10 → Resumed (target i) (levels i)) :
    ∃ final, restartInputs hasher load protocolVersion nextStates is levels =
        .ok final ∧ ∀ i, i ≤ 10 → Resumed (target i) (final i) := by
  induction is generalizing levels with
  | nil => exact ⟨levels, rfl, hresumed⟩
  | cons i is ih =>
    have hrest : ∀ levels : Levels (HotArchiveBucket I D H) (HotArchiveBucket I D H),
        (∀ i, i ≤ 10 → Resumed (target i) (levels i)) → ∃ final,
          restartInputs hasher load protocolVersion nextStates is levels =
            .ok final ∧ ∀ i, i ≤ 10 → Resumed (target i) (final i) := fun _ =>
      ih (fun j hj => hinputs j (mem_cons_of_mem _ hj)) fun j hj =>
        his j (mem_cons_of_mem _ hj)
    unfold restartInputs
    split
    · exact hrest levels hresumed
    · split
      next currHash snapHash hstate =>
        obtain ⟨curr, snap, bucket, hcurr, hsnap, hmerge, hnext⟩ :=
          hinputs i mem_cons_self currHash snapHash hstate
        rw [hcurr, hsnap]
        simp only [bind, Except.bind, hmerge]
        apply hrest
        intro j hj
        by_cases hji : j = i
        · subst hji
          rw [update_self]
          exact .inl ((hresumed j hj).complete hnext)
        · rw [update_of_ne hji]
          exact hresumed j hj
      · exact hrest levels hresumed

omit [DecidableEq H] in
/-- After the merges were started again, each level is as it was, unless it is
above an empty snap. -/
theorem restartHotLevels_ok (hmerges : ∀ l, l < 10 → (target l).snap.isEmpty = false →
      ∃ bucket, (target (l + 1)).next = some bucket ∧
        mergeHotArchiveBuckets hasher (standing (.empty hasher) n l (target (l + 1))) (target l).snap
          (if (target l).snap.getProtocolVersion = 0 then protocolVersion
            else (target l).snap.getProtocolVersion) (blKeepTombstoneEntries (l + 1)) = .ok bucket)
    (k s : ℕ) (hs : 1 ≤ s) (hk : s + k ≤ 11) (hresumed : ∀ i, i ≤ 10 → Resumed (target i) (levels i)) :
    ∃ final, restartLevels hasher n protocolVersion (range' s k) levels = .ok final ∧
      (∀ i, i ≤ 10 → Resumed (target i) (final i)) ∧
      (∀ i, i ≤ 10 → levels i = target i → final i = target i) ∧
      ∀ i, s ≤ i → i < s + k → final i = target i ∨ ∃ j, j < i ∧ (target j).snap.isEmpty = true := by
  induction k generalizing s levels with
  | zero =>
    exact ⟨levels, rfl, hresumed, fun _ _ h => h, fun i hsi hi => absurd hi (by omega)⟩
  | succ k ih =>
    obtain ⟨l, rfl⟩ := Nat.exists_eq_add_of_le' hs
    have hcurr : (levels (l + 1)).curr = (target (l + 1)).curr :=
      (hresumed (l + 1) (by omega)).buckets.1
    have hsnap : (levels l).snap = (target l).snap := (hresumed l (by omega)).buckets.2
    rw [range'_succ]
    unfold restartLevels
    rw [Nat.add_sub_cancel, hsnap]
    split
    next hsome =>
      have hsame := (hresumed (l + 1) (by omega)).of_isSome hsome
      obtain ⟨final, hfinal, hall, hkept, hrest⟩ := ih (l + 2) (by omega) (by omega) hresumed
      refine ⟨final, hfinal, hall, hkept, fun i hsi hi => ?_⟩
      by_cases hil : i = l + 1
      · subst hil
        exact .inl (hkept (l + 1) (by omega) hsame)
      · exact hrest i (by omega) (by omega)
    next hnone =>
      simp only
      split
      next hempty =>
        exact ⟨levels, rfl, hresumed, fun _ _ h => h, fun i hsi _ => .inr ⟨l, by omega, hempty⟩⟩
      next hfull =>
        obtain ⟨bucket, hnext, hmerge⟩ := hmerges l (by omega) (Bool.eq_false_of_not_eq_true hfull)
        have hcomplete := (hresumed (l + 1) (by omega)).complete hnext
        have hprepare : (levels (l + 1)).prepare (hotOps hasher
            (if (target l).snap.getProtocolVersion = 0 then protocolVersion
              else (target l).snap.getProtocolVersion)) (l + 1) (blKeepTombstoneEntries (l + 1))
            (blShouldMergeWithEmptyCurr (blRoundDown n (blLevelHalf l)) (l + 1)) (target l).snap =
            .ok (target (l + 1)) := by
          have hsame : blShouldMergeWithEmptyCurr (blRoundDown n (blLevelHalf l)) (l + 1) =
              blShouldMergeWithEmptyCurr n (l + 1) :=
            blShouldMergeWithEmptyCurr_lastSpill (by omega)
          unfold standing at hmerge
          unfold BucketLevel.prepare
          rw [if_neg hnone, hsame, hcurr]
          change (mergeHotArchiveBuckets hasher _ _ _ _ >>= _) = _
          simp only [hotOps, hmerge, bind, Except.bind]
          rw [← hcomplete, hcurr]
        have hupdated : ∀ i, i ≤ 10 →
            Resumed (target i) (update levels (l + 1) (target (l + 1)) i) := by
          intro i hi
          by_cases hil : i = l + 1
          · subst hil
            rw [update_self]
            exact .inl rfl
          · rw [update_of_ne hil]
            exact hresumed i hi
        obtain ⟨final, hfinal, hall, hkept, hrest⟩ := ih (l + 2) (by omega) (by omega) hupdated
        refine ⟨final, ?_, hall, fun i hi hsame => hkept i hi ?_, fun i hsi hi => ?_⟩
        · simp only [hprepare, bind, Except.bind]
          exact hfinal
        · by_cases hil : i = l + 1
          · subst hil
            rw [update_self]
          · rw [update_of_ne hil, hsame]
        · by_cases hil : i = l + 1
          · subst hil
            refine .inl (hkept (l + 1) (by omega) ?_)
            rw [update_self]
          · exact hrest i (by omega) (by omega)

/-! ### Lists that go on alike -/

/-- A list that follows another, with the same level 0. -/
structure HotFollows (hasher : Hasher (HotArchiveBucketEntry I D) H) (n : ℕ)
    (list rebuilt : HotArchiveBucketList I D H) : Prop where
  levels : Follows (hotOps hasher 0) (hotOps hasher 0) Eq Eq n list.levels rebuilt.levels
  bottom : list.levels 0 = rebuilt.levels 0

section

omit [DecidableEq H]

theorem hot_likeness (hasher : Hasher (HotArchiveBucketEntry I D) H) (version : ℕ) :
    Likeness (hotOps hasher version) (hotOps hasher version) Eq Eq where
  empty := rfl
  released _ _ _ h := h
  start := by
    rintro l keep x _ y _ pending rfl rfl hstart
    exact ⟨pending, hstart, rfl⟩
  resolve := by
    rintro pending _ bucket rfl hresolve
    exact ⟨bucket, hresolve, rfl⟩

theorem hotFollows_iff (version : ℕ)
    {levels levels' : Levels (HotArchiveBucket I D H) (HotArchiveBucket I D H)} :
    Follows (hotOps hasher version) (hotOps hasher version) Eq Eq n levels levels' ↔
      Follows (hotOps hasher 0) (hotOps hasher 0) Eq Eq n levels levels' :=
  ⟨fun h => h.congr rfl rfl rfl rfl, fun h => h.congr rfl rfl rfl rfl⟩

/-- A ledger that the first list takes in, the other takes in as well. -/
theorem HotFollows.addBatch (hfollows : HotFollows hasher n list rebuilt)
    {batch : HotArchiveBatch I D} {next : HotArchiveBucketList I D H}
    (hadd : list.addBatch hasher (n + 1) batch = .ok next) :
    ∃ next', rebuilt.addBatch hasher (n + 1) batch = .ok next' ∧
      HotFollows hasher (n + 1) next next' := by
  unfold HotArchiveBucketList.addBatch at hadd ⊢
  split at hadd
  · cases hadd
  next hprotocol =>
    rw [if_neg hprotocol]
    obtain ⟨incoming, hfresh, hadd⟩ := bind_ok_iff.mp hadd
    unfold addBatchInternal at hadd ⊢
    rw [hfresh]
    simp only [bind, Except.bind]
    rw [if_neg (Nat.succ_ne_zero n)] at hadd ⊢
    obtain ⟨added, hadded, hadd⟩ := bind_ok_iff.mp hadd
    obtain ⟨final, hspill, hadded⟩ := bind_ok_iff.mp hadded
    obtain ⟨prepared, hprepare, hadded⟩ := bind_ok_iff.mp hadded
    obtain ⟨level, hcommit, hadded⟩ := bind_ok_iff.mp hadded
    cases hadded
    cases hadd
    have hbefore := (hotFollows_iff batch.protocolVersion).mpr hfollows.levels
    obtain ⟨final', hspill', hfinal, hbottom, hbottom'⟩ :=
      hbefore.spill (hot_likeness hasher batch.protocolVersion) hspill
    have hafter := (hotFollows_iff batch.protocolVersion).mp hfinal
    have hsame : final 0 = final' 0 := by
      rw [hbottom, hbottom', hfollows.bottom]
    have hspill'' : spillLevels (hotOps hasher batch.protocolVersion) (n + 1)
        (bucketListLevels - 1) rebuilt.levels = .ok final' := hspill'
    rw [hsame] at hprepare
    simp only [hspill'', hprepare, hcommit]
    refine ⟨_, rfl, ⟨fun l hl => ?_, fun l hl => ?_, fun l hl => ?_⟩, rfl⟩
    · cases l with
      | zero => rfl
      | succ l => exact hafter.curr (l + 1) hl
    · cases l with
      | zero => rfl
      | succ l => exact hafter.snap (l + 1) hl
    · exact hafter.next l hl

theorem HotFollows.read (hfollows : HotFollows hasher n list rebuilt) :
    list.hash hasher = rebuilt.hash hasher ∧ ∀ key, list.get key = rebuilt.get key := by
  have hlevel : ∀ l ∈ range bucketListLevels,
      (list.levels l).curr = (rebuilt.levels l).curr ∧
        (list.levels l).snap = (rebuilt.levels l).snap := by
    intro l hl
    have hle : l ≤ 10 := Nat.le_of_lt_succ (mem_range.mp hl)
    exact ⟨hfollows.levels.curr l hle, hfollows.levels.snap l hle⟩
  constructor
  · unfold HotArchiveBucketList.hash HotArchiveBucketList.levelList
    rw [map_map, map_map]
    refine congrArg hasher.concat (map_congr_left fun l hl => ?_)
    obtain ⟨hcurr, hsnap⟩ := hlevel l hl
    change hasher.concat _ = hasher.concat _
    rw [hcurr, hsnap]
  · intro key
    unfold HotArchiveBucketList.get HotArchiveBucketList.levelList
    rw [flatMap_map, flatMap_map]
    refine congrArg (HotArchiveBucketList.getFrom key) ?_
    rw [flatMap_def, flatMap_def, map_congr_left fun l hl => ?_]
    obtain ⟨hcurr, hsnap⟩ := hlevel l hl
    rw [hcurr, hsnap]

end

/-- Add ledgers one after the other, whatever they archive and restore. -/
def addBatches (hasher : Hasher (HotArchiveBucketEntry I D) H) (n : ℕ) :
    List (HotArchiveBatch I D) → HotArchiveBucketList I D H →
      Except (BucketError H) (HotArchiveBucketList I D H)
  | [], list => .ok list
  | batch :: rest, list => do
    let list ← list.addBatch hasher (n + 1) batch
    addBatches hasher (n + 1) rest list

/-- Two outcomes that cannot be told apart. -/
def SameArchive (hasher : Hasher (HotArchiveBucketEntry I D) H) :
    Except (BucketError H) (HotArchiveBucketList I D H) →
      Except (BucketError H) (HotArchiveBucketList I D H) → Prop
  | .ok list, .ok rebuilt =>
    list.hash hasher = rebuilt.hash hasher ∧ ∀ key, list.get key = rebuilt.get key
  | .error _, .error _ => True
  | _, _ => False

omit [DecidableEq H] in
theorem addBatches_same (hfollows : HotFollows hasher n list rebuilt)
    (hback : HotFollows hasher n rebuilt list) (rest : List (HotArchiveBatch I D)) :
    SameArchive hasher (addBatches hasher n rest list) (addBatches hasher n rest rebuilt) := by
  induction rest generalizing n list rebuilt with
  | nil => exact hfollows.read
  | cons batch rest ih =>
    unfold addBatches
    cases hadd : list.addBatch hasher (n + 1) batch with
    | ok next =>
      obtain ⟨next', hadd', hfollows'⟩ := hfollows.addBatch hadd
      obtain ⟨next'', hadd'', hback'⟩ := hback.addBatch hadd'
      obtain rfl := Except.ok.inj (hadd.symm.trans hadd'')
      rw [hadd']
      exact ih hfollows' hback'
    | error e =>
      cases hadd' : rebuilt.addBatch hasher (n + 1) batch with
      | error e' => trivial
      | ok next' =>
        obtain ⟨next, hadd'', -⟩ := hback.addBatch hadd'
        cases hadd.symm.trans hadd''

omit [DecidableEq H] in
/-- A level as it was, or without a merge of nothing, follows the level and is
followed by it. -/
theorem hotFollows_of_resumed (htracks : HotTracks hasher h n list)
    (hbottom : rebuilt.levels 0 = list.levels 0)
    (hresumed : ∀ l, l ≤ 10 → Resumed (list.levels l) (rebuilt.levels l))
    (hcomplete : ∀ l, l < 10 → rebuilt.levels (l + 1) = list.levels (l + 1) ∨
      ∃ j, j ≤ l ∧ (list.levels j).snap.isEmpty = true) (hup : h.Upgrading n) :
    HotFollows hasher n list rebuilt ∧ HotFollows hasher n rebuilt list := by
  have hbuckets := fun l hl => (hresumed l hl).buckets
  -- a merge that was not started again is one of two empty buckets
  have hvoid : ∀ l, l < 10 → rebuilt.levels (l + 1) ≠ list.levels (l + 1) →
      rebuilt.levels (l + 1) = { list.levels (l + 1) with next := none } ∧
      ∀ bucket, (list.levels (l + 1)).next = some bucket →
        bucket = standing (.empty hasher) n l (rebuilt.levels (l + 1)) := by
    intro l hl hne
    have hcleared := (hresumed (l + 1) hl).resolve_left hne
    refine ⟨hcleared, fun bucket hnext => ?_⟩
    obtain ⟨j, hjl, hempty⟩ := (hcomplete l hl).resolve_left hne
    have hidle := (htracks.covered.snap j (by omega)).isEmpty_iff.mp hempty
    have hfirst : cut l n ≤ h.first := (cut_anti hjl hl.le).trans (cut_le_of_idle hidle)
    have hstanding := htracks.standing hl
    have hsame : standing (.empty hasher) n l (rebuilt.levels (l + 1)) =
        standing (.empty hasher) n l (list.levels (l + 1)) := by
      unfold standing
      rw [hcleared]
    rw [hsame, hstanding.eq_empty (((tail_le_cut l n).trans hfirst).trans (le_max_right _ _))]
    exact (htracks.merges hup hl hnext).1.eq_empty (hfirst.trans (le_max_right _ _))
  refine ⟨⟨⟨fun l hl => (hbuckets l hl).1.symm, fun l hl => (hbuckets l hl).2.symm, fun l hl => ?_⟩,
    hbottom.symm⟩, ⟨⟨fun l hl => (hbuckets l hl).1, fun l hl => (hbuckets l hl).2, fun l hl => ?_⟩,
    hbottom⟩⟩
  · by_cases hsame : rebuilt.levels (l + 1) = list.levels (l + 1)
    · cases hnext : (list.levels (l + 1)).next with
      | none => exact .neither hnext (hsame ▸ hnext)
      | some pending => exact .both pending pending hnext (hsame ▸ hnext) rfl
    · obtain ⟨hcleared, hstands⟩ := hvoid l hl hsame
      have hnone : (rebuilt.levels (l + 1)).next = none := by rw [hcleared]
      cases hnext : (list.levels (l + 1)).next with
      | none => exact .neither hnext hnone
      | some pending =>
        refine .first pending hnext hnone fun bucket hresolve => ?_
        cases hresolve
        exact hstands pending hnext
  · by_cases hsame : rebuilt.levels (l + 1) = list.levels (l + 1)
    · cases hnext : (list.levels (l + 1)).next with
      | none => exact .neither (hsame ▸ hnext) hnext
      | some pending => exact .both pending pending (hsame ▸ hnext) hnext rfl
    · obtain ⟨hcleared, hstands⟩ := hvoid l hl hsame
      have hnone : (rebuilt.levels (l + 1)).next = none := by rw [hcleared]
      cases hnext : (list.levels (l + 1)).next with
      | none => exact .neither hnone hnext
      | some pending => exact .second pending pending hnone hnext rfl (hstands pending hnext).symm

/-! ### The restart -/

theorem hotRestoreFromHas_ok {hashes : ℕ → H × H} {nextStates : ℕ → Option (PendingMergeState H)}
    {restored : ℕ → HotArchiveBucketLevel I D H} (hlevel : ∀ l, l < bucketListLevels →
      HotArchiveBucketList.restoreLevel hasher load (hashes l) (nextStates l) = .ok (restored l)) :
    ∃ list, HotArchiveBucketList.restoreFromHas hasher load
        ((range bucketListLevels).map hashes) ((range bucketListLevels).map nextStates) = .ok list ∧
      ∀ l, l < bucketListLevels → list.levels l = restored l := by
  obtain ⟨hrestored, hlevels⟩ := BucketList.restoreLevels_ok hlevel (.new (.empty hasher))
  refine ⟨{ levels := _, ledgerSeq := 0 }, ?_, hlevels⟩
  unfold HotArchiveBucketList.restoreFromHas
  rw [if_neg (by simp), if_neg (by simp), zip_map', mapM_map]
  change ((range bucketListLevels).mapM (fun l =>
    HotArchiveBucketList.restoreLevel hasher load (hashes l) (nextStates l)) >>= _) = _
  rw [hrestored]
  rfl

theorem HotTracks.restart (hzero : hasher.NonZero) (hup : h.Upgrading n)
    (htracks : HotTracks hasher h n list) (hload : list.Loads load)
    (hprotocol : h.version n ≤ protocolVersion) {state : ℕ → Option (PendingMergeState H)}
    (hstate : ∀ l, l ≤ 10 → Persists hasher n list l (state l)) :
    ∃ restored rebuilt, HotArchiveBucketList.restoreFromHas hasher load list.hashes
        ((range bucketListLevels).map state) = .ok restored ∧
      restored.restartMergesFromHas hasher n protocolVersion
        ((range bucketListLevels).map state) load true = .ok rebuilt ∧
      HotFollows hasher n list rebuilt ∧ HotFollows hasher n rebuilt list := by
  have hlevels : ∀ l, l < bucketListLevels → ∃ restored,
      HotArchiveBucketList.restoreLevel hasher load
        ((list.levels l).curr.hash, (list.levels l).snap.hash) (state l) = .ok restored ∧
      Resumed (list.levels l) restored := fun l hl =>
    htracks.restored hzero hload (Nat.le_of_lt_succ hl) (hstate l (Nat.le_of_lt_succ hl))
  have : Nonempty (HotArchiveBucketLevel I D H) := ⟨list.levels 0⟩
  choose! level hlevel hresumed using hlevels
  obtain ⟨restored, hrestore, hplaces⟩ := hotRestoreFromHas_ok hlevel
  have hrestored : ∀ l, l ≤ 10 → Resumed (list.levels l) (restored.levels l) := fun l hl =>
    hplaces l (Nat.lt_succ_of_le hl) ▸ hresumed l (Nat.lt_succ_of_le hl)
  have hinputs : ∀ i ∈ range' 1 10, ∀ currHash snapHash,
      ((range bucketListLevels).map state).getD i none = some (.inputs currHash snapHash) →
      ∃ curr snap bucket,
        HotArchiveBucketList.loadOrSentinel hasher load currHash = .ok curr ∧
        HotArchiveBucketList.loadOrSentinel hasher load snapHash = .ok snap ∧
        mergeHotArchiveBuckets hasher curr snap protocolVersion (blKeepTombstoneEntries i) =
          .ok bucket ∧ (list.levels i).next = some bucket := by
    intro i hi currHash snapHash hpersisted
    obtain ⟨-, hto⟩ := mem_range'_1.mp hi
    have hgetD : ((range bucketListLevels).map state).getD i none = state i := by
      rw [getD_eq_getElem?_getD, getElem?_map, getElem?_range (show i < bucketListLevels from hto)]
      rfl
    have hpersists := hstate i (by omega)
    rw [← hgetD, hpersisted] at hpersists
    cases hpersists with
    | @inputs l bucket hl hnext =>
      have hstanding := htracks.standing hl
      refine ⟨_, _, bucket, hotLoadOrSentinel_ok hzero hstanding.hashed fun hne => ?_,
        hotLoadOrSentinel_ok hzero (htracks.covered.snap l hl.le).hashed fun hne =>
          hload l _ hl.le hne (.inr (.inl rfl)),
        (htracks.merges hup hl hnext).2 _ ?_, hnext⟩
      · unfold Buckets.standing at hne ⊢
        split at hne
        · exact absurd rfl hne
        next hkeep =>
          rw [if_neg hkeep]
          exact hload (l + 1) _ hl hne (.inl rfl)
      · exact (History.headerVersion_le hup ((cut_le l n).trans (Nat.le_succ n))).trans hprotocol
  obtain ⟨installed, hinstalled, hinstalledResumed⟩ :=
    restartInputs_ok (range' 1 10) hinputs
      (fun i hi => by have := (mem_range'_1.mp hi).2; omega) hrestored
  obtain ⟨final, hfinal, hall, hkept, hrest⟩ := restartHotLevels_ok
    (fun l hl hfull => htracks.restarts hup protocolVersion hl hfull) 10 1 le_rfl
    le_rfl hinstalledResumed
  refine ⟨restored, { levels := final, ledgerSeq := n }, hrestore, ?_, ?_⟩
  · unfold restartMergesFromHas restartMerges
    rw [if_neg (by simp)]
    have hinstalled' : restartInputs hasher load protocolVersion
        ((range bucketListLevels).map state) (range' 1 (bucketListLevels - 1))
          restored.levels = .ok installed := hinstalled
    have hfinal' : restartLevels hasher n protocolVersion
        (range' 1 (bucketListLevels - 1)) installed = .ok final := hfinal
    simp only [hinstalled', bind, Except.bind, if_true, hfinal']
  · refine hotFollows_of_resumed htracks ?_ hall (fun l hl => ?_) hup
    · -- level 0 has no merge to lose
      obtain hsame | hsame := hall 0 (Nat.zero_le _)
      · exact hsame
      · refine hsame.trans ?_
        rw [← htracks.covered.idle]
    · obtain hsame | ⟨j, hj, hempty⟩ := hrest (l + 1) (by omega) (by omega)
      · exact .inl hsame
      · exact .inr ⟨j, by omega, hempty⟩

/-- Legal batches are added without an error, and the list then answers as the map
of what was archived and not restored. A list that is rebuilt from it goes on as it
does. -/
theorem hotArchive_refines_map (hzero : hasher.NonZero)
    (hlegal : LegalArchival start batches count) :
    ∃ list, closeArchiveLedgers hasher start batches count = .ok list ∧
      (∀ key, list.get key = archivedMap start batches count key) ∧
      ∀ (load : H → Except (BucketError H) (HotArchiveBucket I D H))
        (state : ℕ → Option (PendingMergeState H)) (protocolVersion : ℕ), list.Loads load →
        (∀ l, l ≤ 10 → Persists hasher (start + count) list l (state l)) →
        (batches (start + count)).protocolVersion ≤ protocolVersion →
        ∃ restored rebuilt, HotArchiveBucketList.restoreFromHas hasher load list.hashes
            ((range bucketListLevels).map state) = .ok restored ∧
          restored.restartMergesFromHas hasher (start + count) protocolVersion
            ((range bucketListLevels).map state) load true = .ok rebuilt ∧
          ∀ rest, SameArchive hasher (addBatches hasher (start + count) rest list)
            (addBatches hasher (start + count) rest rebuilt) := by
  obtain ⟨list, hclose, htracks⟩ := closeArchiveLedgers_tracks hasher hlegal
  refine ⟨list, hclose, fun key => ?_, fun load state protocolVersion hload hstate hprotocol => ?_⟩
  · rw [htracks.get_eq, archivedMap_eq]
  · obtain ⟨restored, rebuilt, hrestore, hrestart, hfollows, hback⟩ :=
      htracks.restart hzero hlegal.history hload hprotocol hstate
    exact ⟨restored, rebuilt, hrestore, hrestart, addBatches_same hfollows hback⟩

/-! ### A concrete archive -/

section Example

/-- A hash for examples: the file itself. -/
def recordingHotHasher :
    Hasher (HotArchiveBucketEntry ℕ ℕ) (Option (List (HotArchiveBucketEntry ℕ ℕ))) where
  zero := none
  file := some
  concat hashes := some (hashes.filterMap id).flatten

theorem recordingHotHasher_nonZero : recordingHotHasher.NonZero := fun _ _ => nofun

def loadHotFile (hash : Option (List (HotArchiveBucketEntry ℕ ℕ))) :
    Except (BucketError (Option (List (HotArchiveBucketEntry ℕ ℕ))))
      (HotArchiveBucket ℕ ℕ (Option (List (HotArchiveBucketEntry ℕ ℕ)))) :=
  match hash with
  | some entries => HotArchiveBucket.fromEntries recordingHotHasher entries
  | none => .error (.serialization "missing")

theorem loadHotFile_loads {h : LiveHistory ℕ ℕ}
    {list : HotArchiveBucketList ℕ ℕ (Option (List (HotArchiveBucketEntry ℕ ℕ)))}
    (htracks : HotTracks recordingHotHasher h n list) : list.Loads loadHotFile := by
  intro l bucket hl hne hbucket
  obtain ⟨hcurr, hsnap, hnext⟩ := htracks.hashed hl
  have hhash : bucket.hash = fileHash recordingHotHasher bucket.entries := by
    obtain rfl | rfl | hsome := hbucket
    · exact hcurr
    · exact hsnap
    · exact hnext bucket hsome
  have hfile : bucket.hash = some bucket.entries := by
    rw [hhash, fileHash, if_neg (by rwa [List.isEmpty_iff])]
    rfl
  have hload : loadHotFile (some bucket.entries) =
      .ok ⟨fileHash recordingHotHasher bucket.entries, bucket.entries, bucket.sorted⟩ :=
    HotArchiveBucket.fromEntries_of_ascending bucket.sorted
  rw [hfile, hload, ← hhash]

/-- Contract code is archived, and restored one ledger later. -/
def archiveRestore : ℕ → HotArchiveBatch ℕ ℕ
  | 6 => { protocolVersion := 23
           archivedEntries := [⟨6, .contractCode 7 100, none⟩]
           restoredKeys := [] }
  | 7 => { protocolVersion := 24, archivedEntries := [], restoredKeys := [.contractCode 7] }
  | _ => { protocolVersion := 24, archivedEntries := [], restoredKeys := [] }

theorem archiveRestore_legal : LegalArchival 5 archiveRestore 2 where
  legal m hm := by
    obtain rfl | rfl : m = 0 ∨ m = 1 := by omega
    · exact ⟨by decide, by decide, by decide, by decide, by decide⟩
    · exact ⟨by decide, by decide, by decide, by decide, by decide⟩
  supported m h1 hm := by
    obtain rfl | rfl : m = 6 ∨ m = 7 := by omega
    · decide
    · decide
  upgrading m m' h1 hm hm' := by
    obtain ⟨rfl, rfl⟩ | ⟨rfl, rfl⟩ | ⟨rfl, rfl⟩ :
        (m = 6 ∧ m' = 6) ∨ (m = 6 ∧ m' = 7) ∨ (m = 7 ∧ m' = 7) := by omega
    · decide
    · decide
    · decide

theorem hotArchive_refines_map_archiveRestore : ∃ list restored rebuilt,
    closeArchiveLedgers recordingHotHasher 5 archiveRestore 2 = .ok list ∧
    list.get (.contractCode 7) = none ∧
    HotArchiveBucketList.restoreFromHas recordingHotHasher loadHotFile list.hashes
      ((range bucketListLevels).map fun _ => none) = .ok restored ∧
    restored.restartMergesFromHas recordingHotHasher 7 24
      ((range bucketListLevels).map fun _ => none) loadHotFile true = .ok rebuilt ∧
    SameArchive recordingHotHasher
      (addBatches recordingHotHasher 7 [archiveRestore 6, archiveRestore 8] list)
      (addBatches recordingHotHasher 7 [archiveRestore 6, archiveRestore 8] rebuilt) := by
  obtain ⟨list, hclose, hget, hrestart⟩ :=
    hotArchive_refines_map recordingHotHasher_nonZero archiveRestore_legal
  obtain ⟨list', hclose', htracks⟩ :=
    closeArchiveLedgers_tracks recordingHotHasher archiveRestore_legal
  obtain rfl := Except.ok.inj (hclose.symm.trans hclose')
  obtain ⟨restored, rebuilt, hrestore, hmerges, hsame⟩ := hrestart loadHotFile (fun _ => none) 24
    (loadHotFile_loads htracks) (fun l _ => .nothing l) (by decide)
  exact ⟨list, restored, rebuilt, hclose, (hget _).trans (by decide), hrestore, hmerges, hsame _⟩

/-- An account is not a persistent entry, and cannot be archived. -/
theorem hotArchive_rejects_account :
    (new recordingHotHasher).addBatch recordingHotHasher 1
      { protocolVersion := 24, archivedEntries := [⟨1, .account 7 100, none⟩], restoredKeys := [] } =
      .error (.merge "hot archive fresh: archived entry is not a persistent entry") :=
  rfl

end Example

end Henyey.Buckets
