import Henyey.Buckets.Recovery
import Henyey.Buckets.Stamped

/-!
# Where pending merges come from

In every run in which no merge fails, each bucket bears the metadata of its
ledgers, and each pending merge works on what its level stands for and on the
snap below.
-/

namespace Henyey.Buckets

open Foundation Ledger

variable {I D H : Type} [LinearOrder I] [DecidableEq H]
  {hasher : Hasher (BucketEntry I D) H} {h : LiveHistory I D}
  {skipDedup : ℕ → Bool} {batches : ℕ → LedgerBatch I D} {n v : ℕ}
  {levels : LiveLevels I D H} {list next : BucketList I D H}

def LiveStarted (h : LiveHistory I D) (ledgerSeq l : ℕ) (curr snap : Bucket I D H)
    (pending : PendingMerge I D H) : Prop :=
  ∃ handle : AsyncMergeHandle I D H, pending = .async handle ∧ handle.request =
    { curr := curr, snap := snap
      keepDeadEntries := keepTombstoneEntries (blKeepTombstoneEntries (l + 1))
      protocolVersion := h.version ledgerSeq }

/-- A list on its schedule after a ledger, with metadata and merges as they are
to be. -/
structure Scheduled (hasher : Hasher (BucketEntry I D) H) (h : LiveHistory I D) (n : ℕ)
    (list : BucketList I D H) : Prop where
  covered : Covered (liveOps hasher 0 fun _ => none) (Stamped hasher h) (StampedPends hasher h)
    h.first n list.levels
  curr : Stamped hasher h (list.levels 0).curr (cut 0 n) (n + 1)
  memory : (list.levels 0).curr.hasInMemoryEntries = true ∨ (list.levels 0).curr.entries ≠ []
  origin : Origin (LiveStarted h) (.empty hasher) n list.levels

variable {diskFull : ℕ → Option ℕ}

theorem stampedCovered_iff :
    Covered (liveOps hasher v diskFull) (Stamped hasher h) (StampedPends hasher h) h.first n levels ↔
      Covered (liveOps hasher 0 fun _ => none) (Stamped hasher h) (StampedPends hasher h) h.first n
        levels :=
  ⟨fun h => ⟨h.curr, h.snap, h.next, h.idle⟩, fun h => ⟨h.curr, h.snap, h.next, h.idle⟩⟩

theorem scheduled_new (hfirst : 0 < h.first) : Scheduled hasher h 0 (.new hasher) where
  covered := covered_new hfirst fun _ _ hidle => stamped_empty (by omega)
  curr := stamped_empty (by omega)
  memory := .inl rfl
  origin _ _ _ hnext := nomatch hnext

/-- Receiving results changes nothing of this. -/
theorem Scheduled.received (hscheduled : Scheduled hasher h n list) {received : LiveLevels I D H}
    (hreceived : Received list.levels received) :
    Scheduled hasher h n { list with levels := received } := by
  obtain ⟨⟨hcurr, hsnap, hnext, hidle⟩, hbottom, hmemory, horigin⟩ := hscheduled
  refine ⟨⟨fun l hl => ?_, fun l hl => ?_, fun l hl => ?_, ?_⟩, ?_, ?_, fun l pending hl hpending => ?_⟩
  · rw [(hreceived.at hasher (l + 1)).1]
    exact hcurr l hl
  · rw [(hreceived.at hasher l).2.1]
    exact hsnap l hl
  · obtain ⟨hcurr', -, hnone, hsome⟩ := hreceived.at hasher (l + 1)
    rw [hnone, hcurr']
    refine (hnext l hl).imp_right ?_
    rintro ⟨pending, hpending, hstamped⟩
    obtain ⟨pending', hpending', hsame, -⟩ := hsome pending hpending
    exact ⟨pending', hpending', fun bucket hok => hstamped bucket (hsame ▸ hok)⟩
  · exact (hreceived.at hasher 0).2.2.1.mpr hidle
  · change Stamped hasher h (received 0).curr _ _
    rw [(hreceived.at hasher 0).1]
    exact hbottom
  · change (received 0).curr.hasInMemoryEntries = true ∨ (received 0).curr.entries ≠ []
    rw [(hreceived.at hasher 0).1]
    exact hmemory
  · change LiveStarted h _ l (standing _ n l (received (l + 1))) (received l).snap pending
    have hpending : (received (l + 1)).next = some pending := hpending
    obtain ⟨hcurr', -, hnone, hsome⟩ := hreceived.at hasher (l + 1)
    have hstanding : standing (Bucket.empty hasher) n l (received (l + 1)) =
        standing (Bucket.empty hasher) n l (list.levels (l + 1)) := by
      unfold standing
      rw [hcurr']
    rw [hstanding, (hreceived.at hasher l).2.1]
    cases hbefore : (list.levels (l + 1)).next with
    | none => cases (hnone.mpr hbefore).symm.trans hpending
    | some before =>
      obtain ⟨handle, rfl, hrequest⟩ := horigin l before hl hbefore
      rcases hreceived (l + 1) with hsame | hsame
      · obtain rfl := Option.some.inj (hbefore.symm.trans (hsame ▸ hpending))
        exact ⟨handle, rfl, hrequest⟩
      · unfold LiveLevel.received at hsame
        rw [hbefore] at hsame
        rw [hsame] at hpending
        obtain rfl := Option.some.inj hpending
        exact ⟨_, rfl, hrequest⟩

theorem Scheduled.addBatchInternal (hzero : hasher.NonZero) (hup : h.Upgrading (n + 1))
    (hfirst : h.first ≤ n + 1) (hscheduled : Scheduled hasher h n list) {incoming : Bucket I D H}
    (hfresh : incoming.hasInMemoryEntries = true) {finished : ℕ → Bool}
    (hadd : list.addBatchInternal hasher finished diskFull (n + 1) (h.version (n + 1)) incoming =
      .ok next) : Scheduled hasher h (n + 1) next := by
  have hpoll := hscheduled.received (received_poll finished list)
  unfold BucketList.addBatchInternal at hadd
  rw [if_neg (Nat.succ_ne_zero n)] at hadd
  cases hspill : spillLevels (liveOps hasher (h.version (n + 1)) diskFull) (n + 1)
      (bucketListLevels - 1) (list.pollPendingMerges finished).levels with
  | error e =>
    simp only [hspill, bind, Except.bind] at hadd
    cases hadd
  | ok levels =>
    have hcoverage := stamped_coverage hzero hup diskFull
    obtain ⟨hcovered, hcurr, hbottom⟩ :=
      (stampedCovered_iff.mpr hpoll.covered).spill hpoll.curr hcoverage hspill
    have horigin : Origin (LiveStarted h) (.empty hasher) (n + 1) levels := by
      have hbefore : Origin (LiveStarted h) (liveOps hasher (h.version (n + 1)) diskFull).empty n
          (list.pollPendingMerges finished).levels := hpoll.origin
      refine hbefore.spill ?_ hspill
      intro l x y pending hstart
      cases hstart
      exact ⟨_, rfl, rfl⟩
    have hnext : (levels 0).next = none := hcovered.idle
    have hready : (levels 0).curr.Ready hasher := by
      refine ⟨hcurr.hashed, ?_⟩
      rw [hbottom]
      unfold lowered
      split
      · exact .inl rfl
      · exact hpoll.memory
    simp only [hspill, bind, Except.bind, prepareFirstLevel_eq hnext hfresh] at hadd
    cases hmerge : firstMerge hasher (h.version (n + 1)) (levels 0).curr incoming with
    | error e =>
      rw [hmerge] at hadd
      cases hadd
    | ok merged =>
      rw [hmerge] at hadd
      cases hadd
      obtain ⟨entries, hentries, hhash, hsame, hmemory⟩ := (firstMerge_iff hzero hready).mp hmerge
      have hstamped : Stamped hasher h merged (cut 0 (n + 1)) (n + 1 + 1) := by
        have hcut := cut_le 0 (n + 1)
        have hsupported := hup.supported (n + 1) hfirst le_rfl
        unfold firstLevelEntries at hentries
        obtain ⟨body, htwo, hentries⟩ := bind_ok_iff.mp hentries
        refine ⟨⟨body, ?_, fun hle => by omega⟩, hsame ▸ hhash⟩
        rw [hsame, ← Except.ok.inj hentries, liveHeader,
          History.headerVersion_busy (by omega), currentMetadata, if_neg (by omega)]
        rfl
      refine ⟨⟨fun l hl => hcovered.curr l hl, fun l hl => ?_, fun l hl => hcovered.next l hl,
        rfl⟩, hstamped, .inl hmemory, fun l pending hl hpending => ?_⟩
      · cases l with
        | zero => exact hcovered.snap 0 hl
        | succ l => exact hcovered.snap (l + 1) hl
      · have hstarted := horigin l pending hl hpending
        cases l with
        | zero => exact hstarted
        | succ l => exact hstarted

theorem Scheduled.addBatch (hzero : hasher.NonZero) (hup : h.Upgrading (n + 1))
    (hfirst : h.first ≤ n + 1) (hscheduled : Scheduled hasher h n list) {finished : ℕ → Bool}
    {skip : Bool} {batch : LedgerBatch I D} (hversion : batch.protocolVersion = h.version (n + 1))
    (hadd : list.addBatch hasher finished diskFull skip (n + 1) batch = .ok next) :
    Scheduled hasher h (n + 1) next := by
  unfold BucketList.addBatch at hadd
  obtain ⟨incoming, hfresh, hadd⟩ := bind_ok_iff.mp hadd
  simp only [bind, Except.bind] at hadd
  obtain ⟨added, hinternal, hadd⟩ := bind_ok_iff.mp hadd
  cases hadd
  rw [hversion] at hinternal
  obtain ⟨hcovered, hcurr, hmemory, horigin⟩ :=
    hscheduled.addBatchInternal hzero hup hfirst (ofSorted_ok hfresh).2.2 hinternal
  exact ⟨hcovered, hcurr, hmemory, horigin⟩

/-- The pending merges of a list all succeed. -/
def AllResolve (hasher : Hasher (BucketEntry I D) H) (list : BucketList I D H) : Prop :=
  ∀ l, l ≤ 10 → Resolves hasher (list.levels l)

theorem Reaches.scheduled (hzero : hasher.NonZero) (hup : (liveHistory batches).Upgrading n)
    (hrun : Reaches hasher skipDedup batches (fun _ => AllResolve hasher) n list) :
    Scheduled hasher (liveHistory batches) n list := by
  induction hrun with
  | new => exact scheduled_new Nat.zero_lt_one
  | poll finished _ ih => exact (ih hup).received (received_poll finished _)
  | @resolve n list hallowed _ ih =>
    obtain ⟨-, hreceived⟩ := resolveLevels_ok (List.range bucketListLevels) list.levels
      fun l hl => hallowed l (Nat.le_of_lt_succ (List.mem_range.mp hl))
    exact (ih hup).received hreceived
  | addBatch finished diskFull _ hadd ih =>
    exact (ih (hup.of_le (Nat.le_succ _))).addBatch hzero hup (Nat.le_add_left 1 _) rfl hadd

end Henyey.Buckets
