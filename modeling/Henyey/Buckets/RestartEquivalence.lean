import Henyey.Buckets.Restart
import Henyey.Buckets.Scheduled

/-!
# A restart cannot be noticed

What a pending merge works on is what its level stands for and the snap below.
Both are still there at a restart, so a merge can be loaded, run again or started
again, with the same outcome.
-/

namespace Henyey.Buckets

open Foundation Ledger List
open BucketList

variable {I D H : Type} [LinearOrder I] [DecidableEq H]
  {hasher : Hasher (BucketEntry I D) H} {h : LiveHistory I D}
  {load : H → Except (BucketError H) (Bucket I D H)}
  {skipDedup : ℕ → Bool} {batches : ℕ → LedgerBatch I D} {l n protocolVersion : ℕ}
  {bucket : Bucket I D H} {level level' : LiveLevel I D H} {list rebuilt : BucketList I D H}

/-- A file with entries has neither the zero hash nor that of the empty file. -/
def Hasher.TellsEmpty {E : Type} (hasher : Hasher E H) : Prop :=
  ∀ entries, entries ≠ [] → hasher.file entries ≠ hasher.zero ∧ hasher.file entries ≠ hasher.file []

omit [DecidableEq H] in
theorem Hasher.TellsEmpty.nonZero {E : Type} {hasher : Hasher E H} (htells : hasher.TellsEmpty) :
    hasher.NonZero :=
  fun entries hne => (htells entries hne).1

namespace BucketList

def hashes (list : BucketList I D H) : List (H × H) :=
  (range bucketListLevels).map fun l => ((list.levels l).curr.hash, (list.levels l).snap.hash)

def nextState (hasher : Hasher (BucketEntry I D) H) (kept : ℕ → Bool) (list : BucketList I D H)
    (l : ℕ) : Option (PendingMergeState H) :=
  if kept l then LiveLevel.pendingMergeState hasher (list.levels l) else none

def nextStates (hasher : Hasher (BucketEntry I D) H) (kept : ℕ → Bool) (list : BucketList I D H) :
    List (Option (PendingMergeState H)) :=
  (range bucketListLevels).map (list.nextState hasher kept)

/-- A loader that has the buckets of a list and the outputs of its merges. -/
def Loads (hasher : Hasher (BucketEntry I D) H) (load : H → Except (BucketError H) (Bucket I D H))
    (list : BucketList I D H) : Prop :=
  ∀ l bucket, l ≤ 10 → bucket.entries ≠ [] →
    (bucket = (list.levels l).curr ∨ bucket = (list.levels l).snap ∨
      ∃ pending, (list.levels l).next = some pending ∧ pending.resolve hasher = .ok bucket) →
    ∃ loaded, load bucket.hash = .ok loaded ∧ loaded.Same bucket

end BucketList

/-! ### Loading -/

theorem loadAndVerify_ok {loaded : Bucket I D H} (hload : load bucket.hash = .ok loaded)
    (hsame : loaded.Same bucket) : loadAndVerify load bucket.hash = .ok loaded := by
  unfold loadAndVerify
  simp only [hload, bind, Except.bind]
  exact if_pos hsame.1

theorem loadOrSentinel_ok (htells : hasher.TellsEmpty)
    (hhash : bucket.hash = fileHash hasher bucket.entries)
    (hload : bucket.entries ≠ [] → ∃ loaded, load bucket.hash = .ok loaded ∧ loaded.Same bucket) :
    ∃ loaded, loadOrSentinel hasher load bucket.hash = .ok loaded ∧ loaded.Same bucket ∧
      (loaded.hasInMemoryEntries = true ∨ loaded.entries ≠ []) := by
  unfold loadOrSentinel Bucket.forSentinelHash
  by_cases hnil : bucket.entries = []
  · have hzero : bucket.hash = hasher.zero := by
      rw [hhash, hnil]
      rfl
    rw [if_pos hzero]
    exact ⟨_, rfl, ⟨hzero.symm, hnil.symm⟩, .inl rfl⟩
  · obtain ⟨loaded, hok, hsame⟩ := hload hnil
    have hfile : bucket.hash = hasher.file bucket.entries := by
      rw [hhash, fileHash, if_neg (by rwa [List.isEmpty_iff])]
    obtain ⟨hzero, hempty⟩ := htells _ hnil
    rw [if_neg (hfile ▸ hzero), if_neg (hfile ▸ hempty)]
    exact ⟨loaded, loadAndVerify_ok hok hsame, hsame, .inr (hsame.2 ▸ hnil)⟩

/-! ### The pending merges of the list -/

theorem Scheduled.stamped_standing (hscheduled : Scheduled hasher h n list) (hl : l < 10) :
    Stamped hasher h (standing (.empty hasher) n l (list.levels (l + 1))) (nextStart l n)
      (tail l n) := by
  unfold standing nextStart
  split
  · exact stamped_empty (le_max_left _ _)
  · exact hscheduled.covered.curr l hl

theorem nextStart_le_tail (hl : l < 10) : nextStart l n ≤ tail l n := by
  unfold nextStart
  split
  · exact le_rfl
  · exact cut_succ_le_tail hl

/-- A pending merge that succeeds is one of what the level stands for and the snap
below, under any protocol that is not too early. -/
theorem Scheduled.pending (hzero : hasher.NonZero) (hup : h.Upgrading n)
    (hscheduled : Scheduled hasher h n list) (hresolve : AllResolve hasher list) (hl : l < 10)
    {pending : PendingMerge I D H} (hnext : (list.levels (l + 1)).next = some pending) :
    ∃ (handle : AsyncMergeHandle I D H) (bucket : Bucket I D H), pending = .async handle ∧
      handle.request.curr = standing (.empty hasher) n l (list.levels (l + 1)) ∧
      handle.request.snap = (list.levels l).snap ∧ handle.result hasher = .ok bucket ∧
      Stamped hasher h bucket (nextStart l n) (cut l n) ∧
      ∀ w, (h.headerVersion (nextStart l n) (cut l n)).getD 0 ≤ w →
        mergeBuckets hasher (standing (.empty hasher) n l (list.levels (l + 1))) (list.levels l).snap
          { keepDeadEntries := keepTombstoneEntries (blKeepTombstoneEntries (l + 1))
            maxProtocolVersion := w } = .ok bucket := by
  obtain ⟨⟨request, diskFull, ready⟩, rfl, rfl⟩ := hscheduled.origin l pending hl hnext
  obtain ⟨bucket, hbucket⟩ := hresolve (l + 1) (by omega) _ hnext
  have hsnap := hscheduled.covered.snap l hl.le
  have hstanding := hscheduled.stamped_standing hl
  have hcut : cut l n ≤ n + 1 := (cut_le l n).trans (Nat.le_succ n)
  cases diskFull with
  | some errno => cases hbucket
  | none =>
    have hmerge := hbucket
    change mergeBuckets hasher _ _ _ = _ at hmerge
    refine ⟨_, bucket, rfl, rfl, rfl, hbucket, ?_, fun w hw => ?_⟩
    · exact hstanding.merge hzero hup hsnap (nextStart_le_tail hl) (tail_le_cut l n) hcut hmerge
    · exact hstanding.merge_cap hzero hup hsnap (nextStart_le_tail hl) (tail_le_cut l n) hcut hw
        hmerge

variable {kept : ℕ → Bool}

theorem nextState_none (hnext : (list.levels l).next = none) :
    list.nextState hasher kept l = none := by
  unfold BucketList.nextState LiveLevel.pendingMergeState
  rw [hnext]
  exact ite_self _

theorem nextState_cases (kept : ℕ → Bool) {handle : AsyncMergeHandle I D H}
    (hnext : (list.levels l).next = some (.async handle)) (hok : handle.result hasher = .ok bucket) :
    list.nextState hasher kept l = none ∨
    (list.nextState hasher kept l = some (.output bucket.hash) ∧ bucket.hash ≠ hasher.zero) ∨
    list.nextState hasher kept l =
      some (.inputs handle.request.curr.hash handle.request.snap.hash) := by
  unfold BucketList.nextState LiveLevel.pendingMergeState
  rw [hnext]
  simp only [hok]
  cases kept l with
  | false => exact .inl rfl
  | true =>
    cases handle.ready with
    | false => exact .inr (.inr rfl)
    | true =>
      by_cases hzero : bucket.hash = hasher.zero
      · left
        simp [hzero]
      · right
        left
        simp [hzero]

/-! ### The restored levels -/

/-- A level as it is restored. -/
structure Restored (hasher : Hasher (BucketEntry I D) H) (state : Option (PendingMergeState H))
    (level restored : LiveLevel I D H) : Prop where
  curr : level.curr.Same restored.curr
  snap : level.snap.Same restored.snap
  memory : restored.curr.hasInMemoryEntries = true ∨ restored.curr.entries ≠ []
  output : ∀ hash, state = some (.output hash) → ∃ loaded pending bucket,
    restored.next = some (.inMemory loaded) ∧ level.next = some pending ∧
      pending.resolve hasher = .ok bucket ∧ bucket.Same loaded
  idle : (∀ hash, state ≠ some (.output hash)) → restored.next = none

theorem Scheduled.restored (htells : hasher.TellsEmpty) (hup : h.Upgrading n)
    (hscheduled : Scheduled hasher h n list) (hresolve : AllResolve hasher list)
    (hload : list.Loads hasher load) (kept : ℕ → Bool) (hl : l ≤ 10) :
    ∃ restored, restoreLevel hasher load
        ((list.levels l).curr.hash, (list.levels l).snap.hash) (list.nextState hasher kept l) =
          .ok restored ∧
      Restored hasher (list.nextState hasher kept l) (list.levels l) restored := by
  have hcurrHash : (list.levels l).curr.hash = fileHash hasher (list.levels l).curr.entries := by
    cases l with
    | zero => exact hscheduled.curr.hashed
    | succ l => exact (hscheduled.covered.curr l hl).hashed
  obtain ⟨curr, hcurr, hsameCurr, hmemory⟩ := loadOrSentinel_ok htells hcurrHash
    fun hne => hload l _ hl hne (.inl rfl)
  obtain ⟨snap, hsnap, hsameSnap, -⟩ := loadOrSentinel_ok htells (hscheduled.covered.snap l hl).hashed
    fun hne => hload l _ hl hne (.inr (.inl rfl))
  unfold restoreLevel
  simp only [hcurr, hsnap, bind, Except.bind]
  -- the level is restored without a merge unless its output was persisted
  have hnone : (∀ hash, list.nextState hasher kept l ≠ some (.output hash)) →
      Restored hasher (list.nextState hasher kept l) (list.levels l) ⟨curr, snap, none⟩ := fun hnot =>
    ⟨hsameCurr.symm, hsameSnap.symm, hmemory, fun hash hstate => absurd hstate (hnot hash),
      fun _ => rfl⟩
  cases hnext : (list.levels l).next with
  | none =>
    have hstate : list.nextState hasher kept l = none := nextState_none hnext
    rw [hstate] at hnone ⊢
    exact ⟨_, rfl, hnone nofun⟩
  | some pending =>
    cases l with
    | zero => cases hscheduled.covered.idle.symm.trans hnext
    | succ l =>
      obtain ⟨handle, bucket, rfl, -, -, hbucket, hstamped, -⟩ :=
        hscheduled.pending htells.nonZero hup hresolve hl hnext
      obtain hstate | ⟨hstate, hzero⟩ | hstate := nextState_cases kept hnext hbucket
      · rw [hstate] at hnone ⊢
        exact ⟨_, rfl, hnone nofun⟩
      · rw [hstate]
        have hne : bucket.entries ≠ [] := by
          intro hnil
          apply hzero
          rw [hstamped.hashed, hnil]
          rfl
        obtain ⟨loaded, hloaded, hsame⟩ :=
          hload (l + 1) bucket hl hne (.inr (.inr ⟨_, hnext, hbucket⟩))
        simp only [if_neg hzero, loadAndVerify_ok hloaded hsame]
        refine ⟨_, rfl, hsameCurr.symm, hsameSnap.symm, hmemory, fun _ _ => ?_, fun hnot => ?_⟩
        · exact ⟨loaded, _, bucket, rfl, hnext, hbucket, hsame.symm⟩
        · exact absurd rfl (hnot _)
      · rw [hstate] at hnone ⊢
        exact ⟨_, rfl, hnone nofun⟩

/-! ### Levels that resume -/

/-- How the level above `l` can go on after a restart. -/
inductive Resumes (hasher : Hasher (BucketEntry I D) H) (n l : ℕ) (level level' : LiveLevel I D H) :
    Prop where
  | idle (hnext : level.next = none) (hnext' : level'.next = none)
  | resumed (pending pending' : PendingMerge I D H) (bucket bucket' : Bucket I D H)
      (hnext : level.next = some pending) (hnext' : level'.next = some pending')
      (hresolve : pending.resolve hasher = .ok bucket)
      (hresolve' : pending'.resolve hasher = .ok bucket') (hsame : bucket.Same bucket')
  | void (pending : PendingMerge I D H) (bucket : Bucket I D H) (hnext : level.next = some pending)
      (hnext' : level'.next = none) (hresolve : pending.resolve hasher = .ok bucket)
      (hsame : bucket.Same (standing (.empty hasher) n l level'))

theorem pendingFollows_of_same {pending pending' : PendingMerge I D H}
    {bucket bucket' : Bucket I D H}
    (hresolve : pending.resolve hasher = .ok bucket) (hresolve' : pending'.resolve hasher = .ok bucket')
    (hsame : bucket.Same bucket') : PendingFollows hasher pending pending' := by
  intro other hother
  rw [PendingMerge.resolve_undisturbed hresolve] at hother
  obtain rfl := Except.ok.inj hother
  exact ⟨bucket', hresolve', hsame⟩

theorem follows_of_resumes (hcurr : ∀ l, l ≤ 10 → (list.levels l).curr.Same (rebuilt.levels l).curr)
    (hsnap : ∀ l, l ≤ 10 → (list.levels l).snap.Same (rebuilt.levels l).snap)
    (hresumes : ∀ l, l < 10 → Resumes hasher n l (list.levels (l + 1)) (rebuilt.levels (l + 1)))
    (hidle : (list.levels 0).next = none) (hidle' : (rebuilt.levels 0).next = none)
    (hready : (list.levels 0).curr.Ready hasher) (hready' : (rebuilt.levels 0).curr.Ready hasher) :
    ListFollows hasher n list rebuilt ∧ ListFollows hasher n rebuilt list := by
  refine ⟨⟨⟨hcurr, hsnap, fun l hl => ?_⟩, hidle, hidle', hready, hready'⟩,
    ⟨⟨fun l hl => (hcurr l hl).symm, fun l hl => (hsnap l hl).symm, fun l hl => ?_⟩, hidle', hidle,
      hready', hready⟩⟩
  · cases hresumes l hl with
    | idle hnext hnext' => exact .neither hnext hnext'
    | resumed pending pending' bucket bucket' hnext hnext' hresolve hresolve' hsame =>
      exact .both pending pending' hnext hnext' (pendingFollows_of_same hresolve hresolve' hsame)
    | void pending bucket hnext hnext' hresolve hsame =>
      refine .first pending hnext hnext' fun other hother => ?_
      obtain rfl := Except.ok.inj (hresolve.symm.trans hother)
      exact hsame
  · cases hresumes l hl with
    | idle hnext hnext' => exact .neither hnext' hnext
    | resumed pending pending' bucket bucket' hnext hnext' hresolve hresolve' hsame =>
      exact .both pending' pending hnext' hnext
        (pendingFollows_of_same hresolve' hresolve hsame.symm)
    | void pending bucket hnext hnext' hresolve hsame =>
      exact .second pending bucket hnext' hnext hresolve hsame.symm

/-! ### The restart -/

theorem Stamped.protocolVersion_eq {a c : ℕ} (hzero : hasher.NonZero)
    (hstamped : Stamped hasher h bucket a c) (hbusy : max a h.first < c) :
    bucket.protocolVersion hasher = some (h.version (c - 1)) := by
  obtain ⟨body, hentries, -⟩ := hstamped.body
  have hfull : ¬bucket.isEmpty hasher = true := by
    rw [hstamped.isEmpty_iff hzero]
    omega
  unfold Bucket.protocolVersion
  rw [if_neg hfull, hentries, liveHeader, History.headerVersion_busy hbusy]
  rfl

theorem protocolVersion_congr {other : Bucket I D H} (hsame : bucket.Same other) :
    bucket.protocolVersion hasher = other.protocolVersion hasher := by
  unfold Bucket.protocolVersion Bucket.isEmpty
  rw [hsame.1, hsame.2]

theorem Scheduled.restartedMerge (hzero : hasher.NonZero) (hscheduled : Scheduled hasher h n list)
    (hl : l < 10) {levels : LiveLevels I D H}
    (hcurr : (list.levels (l + 1)).curr.Same (levels (l + 1)).curr)
    (hsnap : (list.levels l).snap.Same (levels l).snap)
    (hfull : (levels l).snap.isEmpty hasher = false)
    (hmerge : ∀ w, (h.headerVersion (nextStart l n) (cut l n)).getD 0 ≤ w →
      mergeBuckets hasher (standing (.empty hasher) n l (list.levels (l + 1))) (list.levels l).snap
        { keepDeadEntries := keepTombstoneEntries (blKeepTombstoneEntries (l + 1))
          maxProtocolVersion := w } = .ok bucket) :
    (restartedMerge hasher (fun _ => none) n protocolVersion levels (l + 1)).resolve
      hasher = .ok bucket := by
  have hstamped := hscheduled.covered.snap l hl.le
  have hbusy : max (tail l n) h.first < cut l n := by
    by_contra hidle
    have hempty := (hstamped.isEmpty_iff hzero).mpr (not_lt.mp hidle)
    unfold Bucket.isEmpty at hempty hfull
    rw [hsnap.1, hsnap.2, hfull] at hempty
    cases hempty
  have hversion : (levels l).snap.protocolVersion hasher = some (h.version (cut l n - 1)) := by
    rw [← protocolVersion_congr hsnap]
    exact hstamped.protocolVersion_eq hzero hbusy
  have hheader : (h.headerVersion (nextStart l n) (cut l n)).getD 0 = h.version (cut l n - 1) := by
    have hstart := nextStart_le_tail (n := n) hl
    rw [History.headerVersion_busy (by omega)]
    rfl
  have hstanding : Bucket.Same (standing (.empty hasher) n l (list.levels (l + 1)))
      (if blShouldMergeWithEmptyCurr (blRoundDown n (blLevelHalf l)) (l + 1) then .empty hasher
        else (levels (l + 1)).curr) := by
    have hsame : blShouldMergeWithEmptyCurr (blRoundDown n (blLevelHalf l)) (l + 1) =
        blShouldMergeWithEmptyCurr n (l + 1) := blShouldMergeWithEmptyCurr_lastSpill hl
    unfold standing
    rw [hsame]
    split
    · exact ⟨rfl, rfl⟩
    · exact hcurr
  have hlater := hmerge (((levels l).snap.protocolVersion hasher).getD protocolVersion) (by
    rw [hversion, hheader]
    exact le_rfl)
  rwa [mergeBuckets_congr hstanding hsnap] at hlater

/-- Each level resumes after a restart, whatever was persisted of its merge. -/
theorem Scheduled.resumes (htells : hasher.TellsEmpty) (hup : h.Upgrading n)
    (hscheduled : Scheduled hasher h n list) (hresolve : AllResolve hasher list)
    {restored installed : LiveLevels I D H} (hrestored : ∀ l, l ≤ 10 →
      Restored hasher (list.nextState hasher kept l) (list.levels l) (restored l))
    (hagain : ∀ l pending bucket, l < 10 → (list.levels (l + 1)).next = some pending →
      pending.resolve hasher = .ok bucket →
      (∃ curr snap, list.nextState hasher kept (l + 1) = some (.inputs curr snap)) →
      installed (l + 1) =
        ⟨(restored (l + 1)).curr, (restored (l + 1)).snap, some (.inMemory bucket)⟩)
    (hsame : ∀ l, l ≤ 10 → (∀ curr snap, list.nextState hasher kept l ≠ some (.inputs curr snap)) →
      installed l = restored l)
    (hbuckets : ∀ l, l ≤ 10 → (installed l).curr = (restored l).curr ∧
      (installed l).snap = (restored l).snap) (hl : l < 10) {final : LiveLevel I D H}
    (hfinal : BucketList.Restarted hasher (fun _ => none) n protocolVersion 1 installed (l + 1)
      final) :
    Resumes hasher n l (list.levels (l + 1)) final := by
  have hzero := htells.nonZero
  have hsnap : ∀ j, j ≤ 10 → (list.levels j).snap.Same (installed j).snap := fun j hj =>
    (hbuckets j hj).2 ▸ (hrestored j hj).snap
  have hcurr : (list.levels (l + 1)).curr.Same (installed (l + 1)).curr :=
    (hbuckets (l + 1) hl).1 ▸ (hrestored (l + 1) hl).curr
  -- an empty snap was never spilled into, and neither was any above
  have hcut : ∀ j, j ≤ l → (installed j).snap.isEmpty hasher = true → cut l n ≤ h.first := by
    intro j hj hempty
    have hstamped := hscheduled.covered.snap j (by omega)
    have hempty' : (list.levels j).snap.isEmpty hasher = true := by
      have hsame := hsnap j (by omega)
      unfold Bucket.isEmpty at hempty ⊢
      rwa [hsame.1, hsame.2]
    exact (cut_anti hj hl.le).trans (cut_le_of_idle ((hstamped.isEmpty_iff hzero).mp hempty'))
  cases hnext : (list.levels (l + 1)).next with
  | none =>
    have hstate : list.nextState hasher kept (l + 1) = none := nextState_none hnext
    have hidle : (installed (l + 1)).next = none := by
      rw [hsame (l + 1) hl (by simp [hstate])]
      exact (hrestored (l + 1) hl).idle (by simp [hstate])
    cases hfinal with
    | kept pending hsome hfinal => cases hidle.symm.trans hsome
    | started hnone hfull hfinal =>
      obtain ⟨-, hfirst, -⟩ | ⟨pending, hpending, -⟩ := hscheduled.covered.next l hl
      · have hempty : (installed l).snap.isEmpty hasher = true := by
          have hstamped := hscheduled.covered.snap l hl.le
          have hempty := (hstamped.isEmpty_iff hzero).mpr (hfirst.trans (le_max_right _ _))
          have hsame := hsnap l hl.le
          unfold Bucket.isEmpty at hempty ⊢
          rwa [← hsame.1, ← hsame.2]
        cases hempty.symm.trans hfull
      · cases hnext.symm.trans hpending
    | ended j hnone hsj hji hempty hfinal => exact .idle hnext (hfinal ▸ hidle)
  | some pending =>
    obtain ⟨handle, bucket, rfl, hreqCurr, hreqSnap, hbucket, hstamped, hmerge⟩ :=
      hscheduled.pending hzero hup hresolve hl hnext
    obtain hstate | ⟨hstate, -⟩ | hstate := nextState_cases kept hnext hbucket
    · have hidle : (installed (l + 1)).next = none := by
        rw [hsame (l + 1) hl (by simp [hstate])]
        exact (hrestored (l + 1) hl).idle (by simp [hstate])
      cases hfinal with
      | kept pending hsome hfinal => cases hidle.symm.trans hsome
      | started hnone hfull hfinal =>
        rw [hfinal]
        exact .resumed _ _ bucket bucket hnext rfl hbucket
          (hscheduled.restartedMerge hzero hl hcurr (hsnap l hl.le) hfull hmerge) ⟨rfl, rfl⟩
      | ended j hnone hsj hji hempty hfinal =>
        -- the merge was one of two empty buckets
        have hfirst := hcut (j - 1) (by omega) hempty
        have hvoid : bucket.entries = [] := by
          rw [hstamped.entries_eq_nil_iff]
          exact hfirst.trans (le_max_right _ _)
        have hstanding : Stamped hasher h
            (standing (.empty hasher) n l (list.levels (l + 1))) (nextStart l n) (tail l n) :=
          hscheduled.stamped_standing hl
        have hnothing : (standing (.empty hasher) n l (list.levels (l + 1))).entries = [] := by
          rw [hstanding.entries_eq_nil_iff]
          exact ((tail_le_cut l n).trans hfirst).trans (le_max_right _ _)
        have hvoidStanding : bucket.Same (standing (.empty hasher) n l (list.levels (l + 1))) :=
          ⟨by rw [hstamped.hashed, hstanding.hashed, hvoid, hnothing], hvoid.trans hnothing.symm⟩
        refine .void _ bucket hnext (hfinal ▸ hidle) hbucket (hvoidStanding.trans ?_)
        rw [hfinal]
        unfold standing
        split
        · exact ⟨rfl, rfl⟩
        · exact hcurr
    · obtain ⟨loaded, pending, bucket', hloaded, hpending, hbucket', hsameLoaded⟩ :=
        (hrestored (l + 1) hl).output _ hstate
      have hinstalled : (installed (l + 1)).next = some (.inMemory loaded) := by
        rw [hsame (l + 1) hl (by simp [hstate])]
        exact hloaded
      cases hfinal with
      | kept pending' hsome hfinal =>
        rw [hfinal]
        exact .resumed _ _ bucket' loaded (hnext ▸ hpending) hinstalled hbucket' rfl hsameLoaded
      | started hnone hfull hfinal => cases hinstalled.symm.trans hnone
      | ended j hnone hsj hji hempty hfinal => cases hinstalled.symm.trans hnone
    · have hinstalled := hagain l _ bucket hl hnext hbucket ⟨_, _, hstate⟩
      have hmerged : (installed (l + 1)).next = some (.inMemory bucket) := by
        rw [hinstalled]
      cases hfinal with
      | kept pending' hsome hfinal =>
        rw [hfinal]
        exact .resumed _ _ bucket bucket hnext hmerged hbucket rfl ⟨rfl, rfl⟩
      | started hnone hfull hfinal => cases hmerged.symm.trans hnone
      | ended j hnone hsj hji hempty hfinal => cases hmerged.symm.trans hnone

/-- The output of a level's merge. -/
def outcome (hasher : Hasher (BucketEntry I D) H) (level : LiveLevel I D H) : Bucket I D H :=
  match level.next with
  | some pending => (pending.resolve hasher).toOption.getD (.empty hasher)
  | none => .empty hasher

theorem outcome_eq {pending : PendingMerge I D H} (hnext : level.next = some pending)
    (hresolve : pending.resolve hasher = .ok bucket) : outcome hasher level = bucket := by
  unfold outcome
  rw [hnext]
  change (pending.resolve hasher).toOption.getD (.empty hasher) = bucket
  rw [hresolve]
  rfl

theorem getD_nextStates (kept : ℕ → Bool) (hl : l ≤ 10) :
    (list.nextStates hasher kept).getD l none = list.nextState hasher kept l := by
  have hlt : l < bucketListLevels := Nat.lt_succ_of_le hl
  unfold BucketList.nextStates
  rw [getD_eq_getElem?_getD, getElem?_map, getElem?_range hlt]
  rfl

theorem Scheduled.runAgain (htells : hasher.TellsEmpty) (hup : h.Upgrading n)
    (hscheduled : Scheduled hasher h n list) (hresolve : AllResolve hasher list)
    (hload : list.Loads hasher load) (hprotocol : h.version n ≤ protocolVersion) (hl : l < 10)
    {currHash snapHash : H}
    (hstate : list.nextState hasher kept (l + 1) = some (.inputs currHash snapHash)) :
    ∃ curr snap, loadOrSentinel hasher load currHash = .ok curr ∧
      loadOrSentinel hasher load snapHash = .ok snap ∧
      (AsyncMergeHandle.startMerge
        { curr := curr, snap := snap
          keepDeadEntries := keepTombstoneEntries (blKeepTombstoneEntries (l + 1))
          protocolVersion := protocolVersion } none).result hasher =
        .ok (outcome hasher (list.levels (l + 1))) := by
  cases hnext : (list.levels (l + 1)).next with
  | none => cases (nextState_none hnext).symm.trans hstate
  | some pending =>
    obtain ⟨handle, bucket, rfl, hreqCurr, hreqSnap, hbucket, -, hmerge⟩ :=
      hscheduled.pending htells.nonZero hup hresolve hl hnext
    obtain ⟨rfl, rfl⟩ : currHash = handle.request.curr.hash ∧ snapHash = handle.request.snap.hash := by
      obtain hother | ⟨hother, -⟩ | hother := nextState_cases kept hnext hbucket
      · cases hother.symm.trans hstate
      · cases hother.symm.trans hstate
      · cases hother.symm.trans hstate
        exact ⟨rfl, rfl⟩
    rw [hreqCurr, hreqSnap]
    obtain ⟨curr, hcurr, hsameCurr, -⟩ := loadOrSentinel_ok htells
      (hscheduled.stamped_standing hl).hashed fun hne => by
        unfold standing at hne ⊢
        split at hne
        · exact absurd rfl hne
        next hkeep =>
          rw [if_neg hkeep]
          exact hload (l + 1) _ hl hne (.inl rfl)
    obtain ⟨snap, hsnap, hsameSnap, -⟩ := loadOrSentinel_ok htells
      (hscheduled.covered.snap l hl.le).hashed fun hne => hload l _ hl.le hne (.inr (.inl rfl))
    have hlater := hmerge protocolVersion
      ((History.headerVersion_le hup ((cut_le l n).trans (Nat.le_succ n))).trans hprotocol)
    rw [mergeBuckets_congr hsameCurr.symm hsameSnap.symm] at hlater
    refine ⟨curr, snap, hcurr, hsnap, ?_⟩
    rw [outcome_eq hnext hbucket]
    exact hlater

theorem Scheduled.restart (htells : hasher.TellsEmpty) (hup : h.Upgrading n)
    (hscheduled : Scheduled hasher h n list) (hresolve : AllResolve hasher list)
    (hload : list.Loads hasher load) (hprotocol : h.version n ≤ protocolVersion) (kept : ℕ → Bool) :
    ∃ restored rebuilt, restoreFromHas hasher load list.hashes
        (list.nextStates hasher kept) = .ok restored ∧
      restored.restartMergesFromHas hasher (fun _ => none) n protocolVersion
        (list.nextStates hasher kept) load true = .ok rebuilt ∧
      ListFollows hasher n list rebuilt ∧ ListFollows hasher n rebuilt list := by
  have hlevels : ∀ l, l < bucketListLevels → ∃ restored, restoreLevel hasher load
      ((list.levels l).curr.hash, (list.levels l).snap.hash) (list.nextState hasher kept l) =
        .ok restored ∧ Restored hasher (list.nextState hasher kept l) (list.levels l) restored :=
    fun l hl => hscheduled.restored htells hup hresolve hload kept (Nat.le_of_lt_succ hl)
  have : Nonempty (LiveLevel I D H) := ⟨list.levels 0⟩
  choose! level hlevel hrestoredLevel using hlevels
  obtain ⟨restored, hrestore, hplaces⟩ := restoreFromHas_ok hlevel
  have hrestored : ∀ l, l ≤ 10 →
      Restored hasher (list.nextState hasher kept l) (list.levels l) (restored.levels l) :=
    fun l hl => hplaces l (Nat.lt_succ_of_le hl) ▸ hrestoredLevel l (Nat.lt_succ_of_le hl)
  -- the merges whose inputs were persisted
  have hmerged : ∀ i ∈ range' 1 10, (restored.levels i).next = none → ∀ currHash snapHash,
      (list.nextStates hasher kept).getD i none = some (.inputs currHash snapHash) →
      ∃ curr snap, loadOrSentinel hasher load currHash = .ok curr ∧
        loadOrSentinel hasher load snapHash = .ok snap ∧
        (AsyncMergeHandle.startMerge
          { curr := curr, snap := snap
            keepDeadEntries := keepTombstoneEntries (blKeepTombstoneEntries i)
            protocolVersion := protocolVersion } ((fun _ => none : ℕ → Option ℕ) i)).result hasher =
          .ok (outcome hasher (list.levels i)) := by
    intro i hi _ currHash snapHash hstate
    obtain ⟨hfrom, hto⟩ := mem_range'_1.mp hi
    obtain ⟨l, rfl⟩ := Nat.exists_eq_add_of_le' hfrom
    rw [getD_nextStates kept (by omega)] at hstate
    exact hscheduled.runAgain htells hup hresolve hload hprotocol (by omega) hstate
  obtain ⟨work, hwork, hinstall⟩ :=
    installMerges_ok (range' 1 10) nodup_range' hmerged
  obtain ⟨installed, hinstalled, hagain, hsame⟩ := hinstall restored.levels
  obtain ⟨final, hfinal, hbelow, hrestarted⟩ : ∃ final,
      restartLevels hasher (fun _ => none) n protocolVersion (range' 1 10) installed = .ok final ∧
      (∀ i, i < 1 → final i = installed i) ∧
      ∀ i, 1 ≤ i → i < 1 + 10 →
        BucketList.Restarted hasher (fun _ => none) n protocolVersion 1 installed i (final i) :=
    restartLevels_ok 10 1 le_rfl installed
  refine ⟨restored, { levels := final, ledgerSeq := n }, hrestore, ?_, ?_⟩
  · unfold restartMergesFromHas restartMerges
    rw [if_neg (by simp [BucketList.nextStates])]
    have hwork' : collectMerges hasher load protocolVersion (list.nextStates hasher kept)
        restored.levels (range' 1 (bucketListLevels - 1)) = .ok work := hwork
    have hfinal' : restartLevels hasher (fun _ => none) n protocolVersion
        (range' 1 (bucketListLevels - 1)) installed = .ok final := hfinal
    simp only [hwork', hinstalled, bind, Except.bind, if_true, hfinal']
  · have hrunsAgain : ∀ l, l ≤ 10 →
        (∀ curr snap, list.nextState hasher kept l ≠ some (.inputs curr snap)) →
        installed l = restored.levels l := by
      intro l hl hnot
      refine hsame l ?_
      rintro ⟨-, -, curr, snap, hstate⟩
      rw [getD_nextStates kept hl] at hstate
      exact hnot curr snap hstate
    have hinstalledBuckets : ∀ l, l ≤ 10 → (installed l).curr = (restored.levels l).curr ∧
        (installed l).snap = (restored.levels l).snap := by
      intro l hl
      by_cases hneeds : l ∈ range' 1 10 ∧
          BucketList.RunsAgain (list.nextStates hasher kept) restored.levels l
      · rw [hagain l hneeds.1 hneeds.2]
        exact ⟨rfl, rfl⟩
      · rw [hsame l hneeds]
        exact ⟨rfl, rfl⟩
    have hbuckets : ∀ l, l ≤ 10 → (final l).curr = (restored.levels l).curr ∧
        (final l).snap = (restored.levels l).snap := by
      intro l hl
      rw [← (hinstalledBuckets l hl).1, ← (hinstalledBuckets l hl).2]
      cases l with
      | zero =>
        rw [hbelow 0 Nat.zero_lt_one]
        exact ⟨rfl, rfl⟩
      | succ l =>
        cases hrestarted (l + 1) (by omega) (by omega) with
        | kept pending hnext hfinal =>
          rw [hfinal]
          exact ⟨rfl, rfl⟩
        | started hnext hfull hfinal =>
          rw [hfinal]
          exact ⟨rfl, rfl⟩
        | ended j hnext hsj hji hempty hfinal =>
          rw [hfinal]
          exact ⟨rfl, rfl⟩
    have hbottom : (restored.levels 0).next = none := by
      have hstate : list.nextState hasher kept 0 = none := nextState_none hscheduled.covered.idle
      exact (hrestored 0 (by omega)).idle (by simp [hstate])
    have hzeroth : final 0 = restored.levels 0 := by
      have hstate : list.nextState hasher kept 0 = none := nextState_none hscheduled.covered.idle
      rw [hbelow 0 Nat.zero_lt_one, hrunsAgain 0 (by omega) (by simp [hstate])]
    refine follows_of_resumes (fun l hl => ?_) (fun l hl => ?_) (fun l hl => ?_)
      hscheduled.covered.idle ?_ ⟨hscheduled.curr.hashed, hscheduled.memory⟩ ?_
    · exact (hbuckets l hl).1 ▸ (hrestored l hl).curr
    · exact (hbuckets l hl).2 ▸ (hrestored l hl).snap
    · refine hscheduled.resumes htells hup hresolve hrestored ?_ hrunsAgain hinstalledBuckets hl
        (hrestarted (l + 1) (by omega) (by omega))
      rintro j pending bucket hj hnext hbucket ⟨curr, snap, hstate⟩
      rw [hagain (j + 1) (mem_range'_1.mpr ⟨by omega, by omega⟩), outcome_eq hnext hbucket]
      refine ⟨(hrestored (j + 1) hj).idle (by simp [hstate]), curr, snap, ?_⟩
      rw [getD_nextStates kept hj, hstate]
    · change (final 0).next = none
      rw [hzeroth]
      exact hbottom
    · change Bucket.Ready hasher (final 0).curr
      have hcurr := (hrestored 0 (by omega)).curr
      rw [hzeroth]
      refine ⟨?_, (hrestored 0 (by omega)).memory⟩
      rw [← hcurr.1, ← hcurr.2]
      exact hscheduled.curr.hashed

/-! ### What comes after -/

def closeAll (hasher : Hasher (BucketEntry I D) H) (finished : ℕ → ℕ → Bool) (n : ℕ) :
    List (Bool × LedgerBatch I D) → BucketList I D H → Except (BucketError H) (BucketList I D H)
  | [], list => .ok list
  | (skipDedup, batch) :: closes, list => do
    let list ← list.addBatch hasher (finished (n + 1)) (fun _ => none) skipDedup (n + 1) batch
    closeAll hasher finished (n + 1) closes list

/-- Two outcomes that cannot be told apart. -/
def SameReads (hasher : Hasher (BucketEntry I D) H) :
    Except (BucketError H) (BucketList I D H) → Except (BucketError H) (BucketList I D H) → Prop
  | .ok list, .ok rebuilt =>
    list.hash hasher = rebuilt.hash hasher ∧ ∀ key, list.get key = rebuilt.get key
  | .error _, .error _ => True
  | _, _ => False

theorem closeAll_sameReads (hzero : hasher.NonZero) (hfollows : ListFollows hasher n list rebuilt)
    (hback : ListFollows hasher n rebuilt list) (closes : List (Bool × LedgerBatch I D))
    (finished finished' : ℕ → ℕ → Bool) :
    SameReads hasher (closeAll hasher finished n closes list)
      (closeAll hasher finished' n closes rebuilt) := by
  induction closes generalizing n list rebuilt with
  | nil => exact hfollows.read
  | cons close closes ih =>
    obtain ⟨skip, batch⟩ := close
    unfold closeAll
    cases hadd : list.addBatch hasher (finished (n + 1)) (fun _ => none) skip (n + 1) batch with
    | ok next =>
      obtain ⟨next', hadd', hfollows'⟩ := hfollows.addBatch hzero hadd (finished' (n + 1))
      obtain ⟨next'', hadd'', hback'⟩ := hback.addBatch hzero hadd' (finished (n + 1))
      obtain rfl := Except.ok.inj (hadd.symm.trans hadd'')
      rw [hadd']
      exact ih hfollows' hback'
    | error e =>
      cases hadd' : rebuilt.addBatch hasher (finished' (n + 1)) (fun _ => none) skip (n + 1)
          batch with
      | error e' => trivial
      | ok next' =>
        obtain ⟨next, hadd'', -⟩ := hback.addBatch hzero hadd' (finished (n + 1))
        cases hadd.symm.trans hadd''

/-- A list that is rebuilt from what was persisted of it, even if nothing was of
some merges, goes on as the original does. -/
theorem restart_equivalent (htells : hasher.TellsEmpty) (hup : (liveHistory batches).Upgrading n)
    (hrun : Reaches hasher skipDedup batches (fun _ => AllResolve hasher) n list)
    (hresolve : AllResolve hasher list) (hload : list.Loads hasher load)
    (hprotocol : (batches n).protocolVersion ≤ protocolVersion) (kept : ℕ → Bool) :
    ∃ restored rebuilt, restoreFromHas hasher load list.hashes
        (list.nextStates hasher kept) = .ok restored ∧
      restored.restartMergesFromHas hasher (fun _ => none) n protocolVersion
        (list.nextStates hasher kept) load true = .ok rebuilt ∧
      ∀ (closes : List (Bool × LedgerBatch I D)) (finished finished' : ℕ → ℕ → Bool),
        SameReads hasher (closeAll hasher finished n closes list)
          (closeAll hasher finished' n closes rebuilt) := by
  have hscheduled := hrun.scheduled htells.nonZero hup
  obtain ⟨restored, rebuilt, hrestore, hrestart, hfollows, hback⟩ :=
    hscheduled.restart htells hup hresolve hload hprotocol kept
  exact ⟨restored, rebuilt, hrestore, hrestart, closeAll_sameReads htells.nonZero hfollows hback⟩

/-! ### Concrete restarts -/

section Example

/-- A hash for examples: the file itself. -/
def recordingHasher : Hasher (BucketEntry ℕ ℕ) (Option (List (BucketEntry ℕ ℕ))) where
  zero := none
  file := some
  concat hashes := some (hashes.filterMap id).flatten

theorem recordingHasher_tellsEmpty : recordingHasher.TellsEmpty := fun _ hne =>
  ⟨nofun, fun h => hne (Option.some.inj h)⟩

def loadFile (hash : Option (List (BucketEntry ℕ ℕ))) :
    Except (BucketError (Option (List (BucketEntry ℕ ℕ))))
      (Bucket ℕ ℕ (Option (List (BucketEntry ℕ ℕ)))) :=
  match hash with
  | some entries => Bucket.fromSortedEntries recordingHasher entries
  | none => .error (.serialization "missing")

abbrev RecordedList : Type := BucketList ℕ ℕ (Option (List (BucketEntry ℕ ℕ)))

theorem loadFile_loads {batches : ℕ → LedgerBatch ℕ ℕ} {list : RecordedList}
    (hup : (liveHistory batches).Upgrading n)
    (hscheduled : Scheduled recordingHasher (liveHistory batches) n list)
    (hresolve : AllResolve recordingHasher list) : list.Loads recordingHasher loadFile := by
  intro l bucket hl hne hbucket
  have hhash : bucket.hash = fileHash recordingHasher bucket.entries := by
    obtain rfl | rfl | ⟨pending, hnext, hok⟩ := hbucket
    · cases l with
      | zero => exact hscheduled.curr.hashed
      | succ l => exact (hscheduled.covered.curr l hl).hashed
    · exact (hscheduled.covered.snap l hl).hashed
    · cases l with
      | zero => cases hscheduled.covered.idle.symm.trans hnext
      | succ l =>
        obtain ⟨handle, bucket', rfl, -, -, hbucket', hstamped, -⟩ := hscheduled.pending
          recordingHasher_tellsEmpty.nonZero hup hresolve hl hnext
        obtain rfl := Except.ok.inj (hbucket'.symm.trans hok)
        exact hstamped.hashed
  have hfile : bucket.hash = some bucket.entries := by
    rw [hhash, fileHash, if_neg (by rwa [List.isEmpty_iff])]
    rfl
  refine ⟨⟨some bucket.entries, bucket.entries, false, bucket.sorted⟩, ?_, hfile.symm, rfl⟩
  rw [hfile]
  exact Bucket.ofSorted_of_ascending bucket.sorted

theorem closeLedgers_runs (hclose : closeLedgers hasher skipDedup batches n = .ok list) :
    Runs hasher batches n list := by
  induction n generalizing list with
  | zero =>
    cases hclose
    exact .new
  | succ n ih =>
    unfold closeLedgers at hclose
    obtain ⟨before, hbefore, hclose⟩ := bind_ok_iff.mp hclose
    exact .addBatch _ _ (ih hbefore) hclose

/-- Nothing is persisted of the merge of the second ledger, and it is started again. -/
theorem restart_equivalent_createDelete : ∃ list restored rebuilt : RecordedList,
    closeLedgers recordingHasher (fun _ => false) createDelete 2 = .ok list ∧
    restoreFromHas recordingHasher loadFile list.hashes
      (list.nextStates recordingHasher fun _ => false) = .ok restored ∧
    restored.restartMergesFromHas recordingHasher (fun _ => none) 2 25
      (list.nextStates recordingHasher fun _ => false) loadFile true = .ok rebuilt ∧
    SameReads recordingHasher
      (closeAll recordingHasher (fun _ _ => false) 2
        [(false, createDelete 3), (false, createDelete 4)] list)
      (closeAll recordingHasher (fun _ _ => true) 2
        [(false, createDelete 3), (false, createDelete 4)] rebuilt) := by
  have hok : (closeLedgers recordingHasher (fun _ => false) createDelete 2).toOption.isSome = true := by
    decide
  cases hclose : closeLedgers recordingHasher (fun _ => false) createDelete 2 with
  | error e =>
    rw [hclose] at hok
    cases hok
  | ok list =>
    have hzero := recordingHasher_tellsEmpty.nonZero
    have hup := createDelete_legal.history
    have htracks := (closeLedgers_runs hclose).tracks hzero createDelete_legal
    have hresolve : AllResolve recordingHasher list := fun l hl =>
      LiveCovered.resolves htracks.covered hl
    have hrun : Reaches recordingHasher (fun _ => false) createDelete
        (fun _ => AllResolve recordingHasher) 2 list := closeLedgers_reaches hclose
    have hprotocol : (createDelete 2).protocolVersion ≤ 25 := by decide
    obtain ⟨restored, rebuilt, hrestore, hrestart, hreads⟩ := restart_equivalent
      recordingHasher_tellsEmpty hup hrun hresolve
      (loadFile_loads hup (hrun.scheduled hzero hup) hresolve) hprotocol fun _ => false
    exact ⟨list, restored, rebuilt, rfl, hrestore, hrestart, hreads _ _ _⟩

/-- Empty ledgers, the third under an earlier protocol than the others. -/
def dip (m : ℕ) : LedgerBatch ℕ ℕ where
  protocolVersion := if m = 3 then 23 else 24
  initEntries := []
  liveEntries := []
  deadEntries := []

/-- The list after four such ledgers, and the list rebuilt from it. -/
def rebuildDip : Except (BucketError (Option (List (BucketEntry ℕ ℕ))))
    (RecordedList × RecordedList) := do
  let list ← closeLedgers recordingHasher (fun _ => false) dip 4
  let restored ← restoreFromHas recordingHasher loadFile list.hashes
    (list.nextStates recordingHasher fun _ => false)
  let rebuilt ← restored.restartMergesFromHas recordingHasher (fun _ => none) 4 24
    (list.nextStates recordingHasher fun _ => false) loadFile true
  .ok (list, rebuilt)

/-- The merge is started again under the protocol of the snap, too early for what
the level holds. -/
theorem restart_dip_differs : ∃ list rebuilt : RecordedList, rebuildDip = .ok (list, rebuilt) ∧
    ¬SameReads recordingHasher
      (closeAll recordingHasher (fun _ _ => false) 4 [(false, dip 5), (false, dip 6)] list)
      (closeAll recordingHasher (fun _ _ => false) 4 [(false, dip 5), (false, dip 6)] rebuilt) := by
  have hsplit : rebuildDip.toOption.map (fun lists =>
      ((closeAll recordingHasher (fun _ _ => false) 4 [(false, dip 5), (false, dip 6)]
          lists.1).toOption.isSome,
        (closeAll recordingHasher (fun _ _ => false) 4 [(false, dip 5), (false, dip 6)]
          lists.2).toOption.isSome)) = some (true, false) := by
    decide
  cases hrebuild : rebuildDip with
  | error e =>
    rw [hrebuild] at hsplit
    cases hsplit
  | ok lists =>
    obtain ⟨list, rebuilt⟩ := lists
    refine ⟨list, rebuilt, rfl, ?_⟩
    rw [hrebuild] at hsplit
    obtain ⟨hlist, hrebuilt⟩ := Prod.mk.inj (Option.some.inj hsplit)
    cases hleft : closeAll recordingHasher (fun _ _ => false) 4 [(false, dip 5), (false, dip 6)]
        list with
    | error e =>
      rw [hleft] at hlist
      cases hlist
    | ok left =>
      cases hright : closeAll recordingHasher (fun _ _ => false) 4
          [(false, dip 5), (false, dip 6)] rebuilt with
      | error e => exact id
      | ok right =>
        rw [hright] at hrebuilt
        cases hrebuilt

end Example

end Henyey.Buckets
