import Henyey.Buckets.Waiting

/-!
# Restarting a bucket list

A list is rebuilt from the hashes of its buckets and what was persisted of its
pending merges. Merges whose inputs were persisted run at once. Those of which
nothing was are started again from what the levels hold.
-/

namespace Henyey.Buckets

open Foundation Ledger List
open Function

variable {I D H : Type} [LinearOrder I] [DecidableEq H]

/-- Load a bucket and check that it is the one asked for. -/
def loadAndVerify (load : H → Except (BucketError H) (Bucket I D H)) (hash : H) :
    Except (BucketError H) (Bucket I D H) := do
  let bucket ← load hash
  if bucket.hash = hash then .ok bucket else .error (.hashMismatch hash bucket.hash)

def loadOrSentinel (hasher : Hasher (BucketEntry I D) H)
    (load : H → Except (BucketError H) (Bucket I D H)) (hash : H) :
    Except (BucketError H) (Bucket I D H) :=
  match Bucket.forSentinelHash hasher hash with
  | some bucket => .ok bucket
  | none => loadAndVerify load hash

def restoreLevel (hasher : Hasher (BucketEntry I D) H)
    (load : H → Except (BucketError H) (Bucket I D H)) (hashes : H × H)
    (nextState : Option (PendingMergeState H)) : Except (BucketError H) (LiveLevel I D H) := do
  let curr ← loadOrSentinel hasher load hashes.1
  let snap ← loadOrSentinel hasher load hashes.2
  let next ← match nextState with
    | some (.output hash) =>
      if hash = hasher.zero then .ok none
      else do
        let bucket ← loadAndVerify load hash
        .ok (some (.inMemory bucket))
    | _ => .ok none
  .ok { curr := curr, snap := snap, next := next }

namespace BucketList

def unexpectedHashes (actual : ℕ) : BucketError H :=
  .serialization s!"Expected {bucketListLevels} bucket level hashes, got {actual}"

def unexpectedStates (actual : ℕ) : BucketError H :=
  .serialization s!"Expected {bucketListLevels} next states, got {actual}"

def restoreFromHas (hasher : Hasher (BucketEntry I D) H)
    (load : H → Except (BucketError H) (Bucket I D H)) (hashes : List (H × H))
    (nextStates : List (Option (PendingMergeState H))) :
    Except (BucketError H) (BucketList I D H) :=
  if hashes.length ≠ bucketListLevels then .error (unexpectedHashes hashes.length)
  else if nextStates.length ≠ bucketListLevels then .error (unexpectedStates nextStates.length)
  else do
    let levels ← (hashes.zip nextStates).mapM fun (hashes, nextState) =>
      restoreLevel hasher load hashes nextState
    .ok { levels := fun l => levels.getD l (.new (.empty hasher)), ledgerSeq := 0 }

def collectMerges (hasher : Hasher (BucketEntry I D) H)
    (load : H → Except (BucketError H) (Bucket I D H)) (protocolVersion : ℕ)
    (nextStates : List (Option (PendingMergeState H))) (levels : LiveLevels I D H) :
    List ℕ → Except (BucketError H) (List (ℕ × AsyncMergeRequest I D H))
  | [] => .ok []
  | i :: is =>
    if (levels i).next.isSome then
      collectMerges hasher load protocolVersion nextStates levels is
    else
      match nextStates.getD i none with
      | some (.inputs currHash snapHash) => do
        let curr ← loadOrSentinel hasher load currHash
        let snap ← loadOrSentinel hasher load snapHash
        let rest ← collectMerges hasher load protocolVersion nextStates levels is
        let request : AsyncMergeRequest I D H :=
          { curr := curr, snap := snap
            keepDeadEntries := keepTombstoneEntries (blKeepTombstoneEntries i)
            protocolVersion := protocolVersion }
        .ok ((i, request) :: rest)
      | _ => collectMerges hasher load protocolVersion nextStates levels is

/-- Wait for the collected merges, in order. -/
def installMerges (hasher : Hasher (BucketEntry I D) H) (diskFull : ℕ → Option ℕ) :
    List (ℕ × AsyncMergeRequest I D H) → LiveLevels I D H →
      Except (BucketError H) (LiveLevels I D H)
  | [], levels => .ok levels
  | (i, request) :: work, levels => do
    let merged ← (AsyncMergeHandle.startMerge request (diskFull i)).result hasher
    installMerges hasher diskFull work
      (update levels i { levels i with next := some (.inMemory merged) })

/-- Start the merges of the levels that have none, from the buckets there. An
empty snap below means that no level from there on has received anything. -/
def restartLevels (hasher : Hasher (BucketEntry I D) H) (diskFull : ℕ → Option ℕ)
    (ledger protocolVersion : ℕ) :
    List ℕ → LiveLevels I D H → Except (BucketError H) (LiveLevels I D H)
  | [], levels => .ok levels
  | i :: is, levels =>
    if (levels i).next.isSome then restartLevels hasher diskFull ledger protocolVersion is levels
    else
      let prevSnap := (levels (i - 1)).snap
      if prevSnap.isEmpty hasher then .ok levels
      else do
        let mergeStartLedger := blRoundDown ledger (blLevelHalf (i - 1))
        let mergeProtocolVersion := (prevSnap.protocolVersion hasher).getD protocolVersion
        let level ← (levels i).prepare (liveOps hasher mergeProtocolVersion diskFull) i
          (blKeepTombstoneEntries i) (blShouldMergeWithEmptyCurr mergeStartLedger i) prevSnap
        restartLevels hasher diskFull ledger protocolVersion is (update levels i level)

def restartMerges (hasher : Hasher (BucketEntry I D) H) (diskFull : ℕ → Option ℕ)
    (ledger protocolVersion : ℕ) (list : BucketList I D H) :
    Except (BucketError H) (BucketList I D H) := do
  let levels ← restartLevels hasher diskFull ledger protocolVersion
    (range' 1 (bucketListLevels - 1)) list.levels
  .ok { levels := levels, ledgerSeq := ledger }

def restartMergesFromHas (hasher : Hasher (BucketEntry I D) H) (diskFull : ℕ → Option ℕ)
    (ledger protocolVersion : ℕ) (nextStates : List (Option (PendingMergeState H)))
    (load : H → Except (BucketError H) (Bucket I D H)) (restartStructureBased : Bool)
    (list : BucketList I D H) : Except (BucketError H) (BucketList I D H) :=
  if nextStates.length ≠ bucketListLevels then .error (unexpectedStates nextStates.length)
  else do
    let work ← collectMerges hasher load protocolVersion nextStates list.levels
      (range' 1 (bucketListLevels - 1))
    let levels ← installMerges hasher diskFull work list.levels
    if restartStructureBased then
      restartMerges hasher diskFull ledger protocolVersion { list with levels := levels }
    else .ok { levels := levels, ledgerSeq := ledger }

/-! ### What the steps do -/

variable {hasher : Hasher (BucketEntry I D) H} {load : H → Except (BucketError H) (Bucket I D H)}
  {diskFull : ℕ → Option ℕ} {ledger protocolVersion : ℕ}

omit [LinearOrder I] [DecidableEq H] in
theorem mapM_eq_ok {α β ε : Type} {f : α → Except ε β} {g : α → β} {as : List α}
    (hok : ∀ a ∈ as, f a = .ok (g a)) : as.mapM f = .ok (as.map g) := by
  induction as with
  | nil => rfl
  | cons a as ih =>
    rw [mapM_cons, hok a mem_cons_self, ih fun b hb => hok b (mem_cons_of_mem _ hb)]
    rfl

/-- Restoring the levels one by one restores all of them. -/
theorem restoreLevels_ok {ε ρ σ ν : Type} {restore : ρ → σ → Except ε ν} {hashes : ℕ → ρ}
    {nextStates : ℕ → σ} {restored : ℕ → ν}
    (hlevel : ∀ l, l < bucketListLevels → restore (hashes l) (nextStates l) = .ok (restored l))
    (fresh : ν) :
    (range bucketListLevels).mapM (fun l => restore (hashes l) (nextStates l)) =
        .ok ((range bucketListLevels).map restored) ∧
      ∀ l, l < bucketListLevels → ((range bucketListLevels).map restored).getD l fresh =
        restored l := by
  refine ⟨mapM_eq_ok fun l hl => hlevel l (mem_range.mp hl), fun l hl => ?_⟩
  rw [getD_eq_getElem?_getD, getElem?_map, getElem?_range hl]
  rfl

theorem restoreFromHas_ok {hashes : ℕ → H × H} {nextStates : ℕ → Option (PendingMergeState H)}
    {restored : ℕ → LiveLevel I D H} (hlevel : ∀ l, l < bucketListLevels →
      restoreLevel hasher load (hashes l) (nextStates l) = .ok (restored l)) :
    ∃ list, restoreFromHas hasher load ((range bucketListLevels).map hashes)
        ((range bucketListLevels).map nextStates) = .ok list ∧
      ∀ l, l < bucketListLevels → list.levels l = restored l := by
  obtain ⟨hrestored, hlevels⟩ := restoreLevels_ok hlevel (.new (.empty hasher))
  refine ⟨{ levels := _, ledgerSeq := 0 }, ?_, hlevels⟩
  unfold restoreFromHas
  rw [if_neg (by simp), if_neg (by simp), zip_map', mapM_map]
  change ((range bucketListLevels).mapM (fun l =>
    restoreLevel hasher load (hashes l) (nextStates l)) >>= _) = _
  rw [hrestored]
  rfl

def RunsAgain (nextStates : List (Option (PendingMergeState H))) (levels : LiveLevels I D H)
    (i : ℕ) : Prop :=
  (levels i).next = none ∧ ∃ curr snap, nextStates.getD i none = some (.inputs curr snap)

theorem installMerges_ok {nextStates : List (Option (PendingMergeState H))}
    {levels : LiveLevels I D H}
    {merged : ℕ → Bucket I D H} (is : List ℕ) (hnodup : is.Nodup)
    (hmerged : ∀ i ∈ is, (levels i).next = none → ∀ currHash snapHash,
      nextStates.getD i none = some (.inputs currHash snapHash) → ∃ curr snap,
        loadOrSentinel hasher load currHash = .ok curr ∧
        loadOrSentinel hasher load snapHash = .ok snap ∧
        (AsyncMergeHandle.startMerge
          { curr := curr, snap := snap
            keepDeadEntries := keepTombstoneEntries (blKeepTombstoneEntries i)
            protocolVersion := protocolVersion } (diskFull i)).result hasher = .ok (merged i)) :
    ∃ work, collectMerges hasher load protocolVersion nextStates levels is = .ok work ∧
      ∀ start, ∃ final, installMerges hasher diskFull work start = .ok final ∧
        (∀ i ∈ is, RunsAgain nextStates levels i →
          final i = ⟨(start i).curr, (start i).snap, some (.inMemory (merged i))⟩) ∧
        ∀ i, ¬(i ∈ is ∧ RunsAgain nextStates levels i) → final i = start i := by
  induction is with
  | nil => exact ⟨[], rfl, fun start => ⟨start, rfl, nofun, fun _ _ => rfl⟩⟩
  | cons i is ih =>
    obtain ⟨hnotmem, hnodup⟩ := nodup_cons.mp hnodup
    obtain ⟨work, hwork, hinstall⟩ := ih hnodup fun j hj => hmerged j (mem_cons_of_mem _ hj)
    -- a level that needs nothing leaves the work as it is
    have hskip : ¬RunsAgain nextStates levels i → ∀ start, ∃ final,
        installMerges hasher diskFull work start = .ok final ∧
        (∀ j ∈ i :: is, RunsAgain nextStates levels j →
          final j = ⟨(start j).curr, (start j).snap, some (.inMemory (merged j))⟩) ∧
        ∀ j, ¬(j ∈ i :: is ∧ RunsAgain nextStates levels j) → final j = start j := by
      intro hnot start
      obtain ⟨final, hfinal, hagain, hsame⟩ := hinstall start
      refine ⟨final, hfinal, fun j hj hneeds => ?_, fun j hj => hsame j fun h => hj ?_⟩
      · rcases mem_cons.mp hj with rfl | hj
        · exact absurd hneeds hnot
        · exact hagain j hj hneeds
      · exact ⟨mem_cons_of_mem _ h.1, h.2⟩
    unfold collectMerges
    cases hnext : (levels i).next with
    | some pending =>
      refine ⟨work, ?_, hskip fun h => nomatch hnext.symm.trans h.1⟩
      rw [Option.isSome_some, if_pos rfl]
      exact hwork
    | none =>
      rw [Option.isSome_none, if_neg Bool.false_ne_true]
      split
      next currHash snapHash hstate =>
        obtain ⟨curr, snap, hcurr, hsnap, hresult⟩ :=
          hmerged i mem_cons_self hnext currHash snapHash hstate
        let request : AsyncMergeRequest I D H :=
          { curr := curr, snap := snap
            keepDeadEntries := keepTombstoneEntries (blKeepTombstoneEntries i)
            protocolVersion := protocolVersion }
        refine ⟨(i, request) :: work, ?_, fun start => ?_⟩
        · rw [hcurr, hsnap, hwork]
          rfl
        · obtain ⟨final, hfinal, hagain, hsame⟩ := hinstall
            (update start i { start i with next := some (.inMemory (merged i)) })
          refine ⟨final, ?_, fun j hj hneeds => ?_, fun j hj => ?_⟩
          · unfold installMerges
            rw [hresult]
            exact hfinal
          · rcases mem_cons.mp hj with rfl | hj
            · rw [hsame j fun h => hnotmem h.1, update_self]
            · have hne : j ≠ i := fun h => hnotmem (h ▸ hj)
              rw [hagain j hj hneeds, update_of_ne hne]
          · have hne : j ≠ i := by
              rintro rfl
              exact hj ⟨mem_cons_self, hnext, currHash, snapHash, hstate⟩
            rw [hsame j fun h => hj ⟨mem_cons_of_mem _ h.1, h.2⟩, update_of_ne hne]
      next hstate =>
        exact ⟨work, hwork, hskip fun ⟨_, curr, snap, h⟩ => hstate curr snap h⟩

/-- The merge that is started again for a level. -/
def restartedMerge (hasher : Hasher (BucketEntry I D) H) (diskFull : ℕ → Option ℕ)
    (ledger protocolVersion : ℕ) (levels : LiveLevels I D H) (i : ℕ) : PendingMerge I D H :=
  .async (.startMerge
    { curr := if blShouldMergeWithEmptyCurr (blRoundDown ledger (blLevelHalf (i - 1))) i then
        .empty hasher else (levels i).curr
      snap := (levels (i - 1)).snap
      keepDeadEntries := keepTombstoneEntries (blKeepTombstoneEntries i)
      protocolVersion := ((levels (i - 1)).snap.protocolVersion hasher).getD protocolVersion }
    (diskFull i))

/-- A level after the merges were started again: it has the merge, or there was no
need, or an empty snap ended it. -/
inductive Restarted (hasher : Hasher (BucketEntry I D) H) (diskFull : ℕ → Option ℕ)
    (ledger protocolVersion s : ℕ) (levels : LiveLevels I D H) (i : ℕ) (final : LiveLevel I D H) :
    Prop where
  | kept (pending : PendingMerge I D H) (hnext : (levels i).next = some pending)
      (hfinal : final = levels i)
  | started (hnext : (levels i).next = none)
      (hfull : (levels (i - 1)).snap.isEmpty hasher = false)
      (hfinal : final = { levels i with
        next := some (restartedMerge hasher diskFull ledger protocolVersion levels i) })
  | ended (j : ℕ) (hnext : (levels i).next = none) (hsj : s ≤ j) (hji : j ≤ i)
      (hempty : (levels (j - 1)).snap.isEmpty hasher = true) (hfinal : final = levels i)

theorem restartLevels_ok (k s : ℕ) (hs : 1 ≤ s) (levels : LiveLevels I D H) :
    ∃ final, restartLevels hasher diskFull ledger protocolVersion (range' s k) levels = .ok final ∧
      (∀ i, i < s → final i = levels i) ∧
      ∀ i, s ≤ i → i < s + k →
        Restarted hasher diskFull ledger protocolVersion s levels i (final i) := by
  induction k generalizing s levels with
  | zero => exact ⟨levels, rfl, fun _ _ => rfl, fun i hsi hi => absurd hi (by omega)⟩
  | succ k ih =>
    rw [range'_succ]
    unfold restartLevels
    cases hnext : (levels s).next with
    | some pending =>
      rw [Option.isSome_some, if_pos rfl]
      obtain ⟨final, hfinal, hbelow, hlevels⟩ := ih (s + 1) (by omega) levels
      refine ⟨final, hfinal, fun i hi => hbelow i (by omega), fun i hsi hi => ?_⟩
      by_cases his : i = s
      · subst his
        exact .kept pending hnext (hbelow i (by omega))
      · cases hlevels i (by omega) (by omega) with
        | kept pending h hfinal => exact .kept pending h hfinal
        | started h hfull hfinal => exact .started h hfull hfinal
        | ended j h hsj hji hempty hfinal => exact .ended j h (by omega) hji hempty hfinal
    | none =>
      rw [Option.isSome_none, if_neg Bool.false_ne_true]
      simp only
      cases hempty : (levels (s - 1)).snap.isEmpty hasher with
      | true =>
        refine ⟨levels, rfl, fun _ _ => rfl, fun i hsi hi => ?_⟩
        cases hi' : (levels i).next with
        | some pending => exact .kept pending hi' rfl
        | none => exact .ended s hi' le_rfl hsi hempty rfl
      | false =>
        let level : LiveLevel I D H := { levels s with
          next := some (restartedMerge hasher diskFull ledger protocolVersion levels s) }
        have hprepare : (levels s).prepare (liveOps hasher
            (((levels (s - 1)).snap.protocolVersion hasher).getD protocolVersion) diskFull) s
            (blKeepTombstoneEntries s) (blShouldMergeWithEmptyCurr
              (blRoundDown ledger (blLevelHalf (s - 1))) s) (levels (s - 1)).snap =
            .ok level := by
          unfold BucketLevel.prepare
          rw [hnext]
          rfl
        obtain ⟨final, hfinal, hbelow, hlevels⟩ :=
          ih (s + 1) (by omega) (update levels s level)
        have hself : update levels s level s = level := update_self _ _ _
        have hother : ∀ i, i ≠ s → update levels s level i = levels i :=
          fun i hi => update_of_ne hi _ _
        -- the loop changes no snap
        have hsnap : ∀ i, (update levels s level i).snap = (levels i).snap := by
          intro i
          by_cases his : i = s
          · rw [his, hself]
          · rw [hother i his]
        refine ⟨final, ?_, fun i hi => ?_, fun i hsi hi => ?_⟩
        · rw [hprepare]
          exact hfinal
        · rw [hbelow i (by omega), hother i (by omega)]
        · by_cases his : i = s
          · subst his
            exact .started hnext hempty ((hbelow i (by omega)).trans hself)
          · have hi' := hother i his
            cases hlevels i (by omega) (by omega) with
            | kept pending h hfinal => exact .kept pending (hi' ▸ h) (hfinal.trans hi')
            | started h hfull hfinal =>
              refine .started (hi' ▸ h) (hsnap (i - 1) ▸ hfull) ?_
              unfold restartedMerge at hfinal ⊢
              rwa [hi', hsnap] at hfinal
            | ended j h hsj hji hempty hfinal =>
              exact .ended j (hi' ▸ h) (by omega) hji (hsnap (j - 1) ▸ hempty)
                (hfinal.trans hi')

end BucketList

end Henyey.Buckets
