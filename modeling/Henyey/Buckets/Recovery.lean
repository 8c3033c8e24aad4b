import Henyey.Buckets.Alike
import Henyey.Buckets.Refinement

/-!
# Recovery from a failed merge

A merge that ran out of disk space is reset when the list waits for it, and no
later ledger starts it again. What it was to merge is lost, unless the level
holds without it what it would have given.
-/

namespace Henyey.Buckets

open Foundation Ledger List LiveLevel
open BucketList

variable {I D H : Type} [LinearOrder I] [DecidableEq H]
  {hasher : Hasher (BucketEntry I D) H} {skipDedup : ℕ → Bool} {batches : ℕ → LedgerBatch I D}
  {allowed : ℕ → BucketList I D H → Prop} {n : ℕ} {levels : LiveLevels I D H}
  {list good : BucketList I D H}

/-- What can be done to a list in any order, while merges finish at any time and
the disk fills up for any of them. What is allowed limits when to wait. -/
inductive Reaches (hasher : Hasher (BucketEntry I D) H) (skipDedup : ℕ → Bool)
    (batches : ℕ → LedgerBatch I D) (allowed : ℕ → BucketList I D H → Prop) :
    ℕ → BucketList I D H → Prop where
  | new : Reaches hasher skipDedup batches allowed 0 (.new hasher)
  | poll {n : ℕ} {list : BucketList I D H} (finished : ℕ → Bool)
      (hrun : Reaches hasher skipDedup batches allowed n list) :
      Reaches hasher skipDedup batches allowed n (list.pollPendingMerges finished)
  | resolve {n : ℕ} {list : BucketList I D H} (hallowed : allowed n list)
      (hrun : Reaches hasher skipDedup batches allowed n list) :
      Reaches hasher skipDedup batches allowed n (list.resolveAllPendingMerges hasher).1
  | addBatch {n : ℕ} {list list' : BucketList I D H} (finished : ℕ → Bool) (diskFull : ℕ → Option ℕ)
      (hrun : Reaches hasher skipDedup batches allowed n list)
      (hadd : list.addBatch hasher finished diskFull (skipDedup (n + 1)) (n + 1) (batches (n + 1)) =
        .ok list') : Reaches hasher skipDedup batches allowed (n + 1) list'

/-- The run in which no merge runs out of disk space. -/
def closeLedgers (hasher : Hasher (BucketEntry I D) H) (skipDedup : ℕ → Bool)
    (batches : ℕ → LedgerBatch I D) : ℕ → Except (BucketError H) (BucketList I D H)
  | 0 => .ok (.new hasher)
  | n + 1 => do
    let list ← closeLedgers hasher skipDedup batches n
    list.addBatch hasher (fun _ => false) (fun _ => none) (skipDedup (n + 1)) (n + 1)
      (batches (n + 1))

theorem closeLedgers_reaches (hclose : closeLedgers hasher skipDedup batches n = .ok list) :
    Reaches hasher skipDedup batches allowed n list := by
  induction n generalizing list with
  | zero =>
    cases hclose
    exact .new
  | succ n ih =>
    unfold closeLedgers at hclose
    obtain ⟨before, hbefore, hclose⟩ := bind_ok_iff.mp hclose
    exact .addBatch _ _ (ih hbefore) hclose

/-- To wait now resets no merge, or one that would have given what its level
stands for without it. -/
def HarmlessReset (hasher : Hasher (BucketEntry I D) H) (n : ℕ) (list : BucketList I D H) : Prop :=
  ∀ l pending e, l < 10 → (list.levels (l + 1)).next = some pending →
    pending.resolve hasher = .error e → e.isTransientIo = true →
    (∀ j, j ≤ l → Resolves hasher (list.levels j)) →
    ∃ bucket, pending.undisturbed.resolve hasher = .ok bucket ∧
      bucket.Same (standing (.empty hasher) n l (list.levels (l + 1)))

/-! ### What waiting does -/

/-- A level is reset if its merge is the first to fail, for want of disk space. -/
structure ResetAt (hasher : Hasher (BucketEntry I D) H) (s : ℕ) (levels : LiveLevels I D H)
    (l : ℕ) : Prop where
  from_start : s ≤ l
  failed : ∃ pending e, (levels l).next = some pending ∧ pending.resolve hasher = .error e ∧
    e.isTransientIo = true
  before : ∀ j, s ≤ j → j < l → Resolves hasher (levels j)

omit [DecidableEq H] in
theorem received_update (levels : LiveLevels I D H) (l : ℕ) :
    Received levels (Function.update levels l (LiveLevel.received (levels l))) := by
  intro j
  by_cases hj : j = l
  · subst hj
    exact .inr (Function.update_self _ _ _)
  · exact .inl (Function.update_of_ne hj _ _)

theorem resolveLevels_spec (k s : ℕ) (levels : LiveLevels I D H) :
    ∃ received, Received levels received ∧
      ((resolveLevels hasher (range' s k) levels).1 = received ∨
        ∃ l, ResetAt hasher s levels l ∧ l < s + k ∧
          (resolveLevels hasher (range' s k) levels).1 =
            Function.update received l (resetFailedMerge (levels l))) := by
  induction k generalizing s levels with
  | zero => exact ⟨levels, fun _ => .inl rfl, .inl rfl⟩
  | succ k ih =>
    -- the first level, unless its merge fails, leaves the others to the induction
    have hlater : ∀ levels', Received levels levels' → Resolves hasher (levels s) →
        (∀ j, s < j → levels' j = levels j) → ∃ received, Received levels received ∧
          ((resolveLevels hasher (range' (s + 1) k) levels').1 = received ∨
            ∃ l, ResetAt hasher s levels l ∧ l < s + (k + 1) ∧
              (resolveLevels hasher (range' (s + 1) k) levels').1 =
                Function.update received l (resetFailedMerge (levels l))) := by
      intro levels' hfirst hok hsame
      obtain ⟨received, hreceived, hresult⟩ := ih (s + 1) levels'
      refine ⟨received, hfirst.trans hreceived, hresult.imp_right ?_⟩
      rintro ⟨l, ⟨hstart, ⟨pending, e, hnext, hfailed⟩, hbefore⟩, hl, hresult⟩
      have hl' := hsame l hstart
      refine ⟨l, ⟨by omega, ⟨pending, e, hl' ▸ hnext, hfailed⟩, fun j hsj hjl => ?_⟩, by omega, ?_⟩
      · by_cases hj : j = s
        · exact hj ▸ hok
        · have hj' := hbefore j (by omega) hjl
          rwa [hsame j (by omega)] at hj'
      · rw [hresult, hl']
    rw [range'_succ]
    unfold resolveLevels
    split
    next handle hnext =>
      cases hresult : handle.result hasher with
      | ok bucket =>
        refine hlater _ (received_update levels s) (fun pending hpending => ?_) fun j hj => ?_
        · obtain rfl := Option.some.inj (hnext.symm.trans hpending)
          exact ⟨bucket, hresult⟩
        · exact Function.update_of_ne (by omega) _ _
      | error e =>
        cases htransient : e.isTransientIo with
        | false =>
          refine ⟨_, received_update levels s, .inl ?_⟩
          simp only [htransient, Bool.false_eq_true, if_false]
        | true =>
          refine ⟨levels, fun _ => .inl rfl, .inr ⟨s, ⟨le_rfl, ?_, fun j hs hj => ?_⟩, ?_, ?_⟩⟩
          · exact ⟨.async handle, e, hnext, hresult, htransient⟩
          · omega
          · omega
          · simp only [htransient, if_true]
    next hnext =>
      refine hlater levels (fun _ => .inl rfl) (fun pending hpending => ?_) fun _ _ => rfl
      cases pending with
      | inMemory bucket => exact ⟨bucket, rfl⟩
      | async handle => exact absurd hpending (hnext handle)

/-! ### Runs -/

theorem closeLedgers_new : ListFollows hasher 0 (.new hasher) (.new hasher) where
  levels := ⟨fun _ _ => ⟨rfl, rfl⟩, fun _ _ => ⟨rfl, rfl⟩, fun _ _ => .neither rfl rfl⟩
  idle := rfl
  idle' := rfl
  ready := ⟨rfl, .inl rfl⟩
  ready' := ⟨rfl, .inl rfl⟩

theorem ListFollows.reset (hfollows : ListFollows hasher n list good)
    (hharmless : HarmlessReset hasher n list) {l : ℕ} (hl : l ≤ 10)
    (hreset : ResetAt hasher 0 list.levels l) :
    ListFollows hasher n
      { list with levels :=
          Function.update list.levels l (resetFailedMerge (list.levels l)) } good := by
  obtain ⟨-, ⟨pending, e, hpending, hfailed, htransient⟩, hbefore⟩ := hreset
  cases l with
  | zero => cases hfollows.idle.symm.trans hpending
  | succ l =>
    obtain ⟨bucket, hbucket, hsame⟩ := hharmless l pending e hl hpending hfailed htransient
      fun j hj => hbefore j (Nat.zero_le j) (Nat.lt_succ_of_le hj)
    let reset := Function.update list.levels (l + 1)
      (resetFailedMerge (list.levels (l + 1)))
    have hself : reset (l + 1) = resetFailedMerge (list.levels (l + 1)) :=
      Function.update_self _ _ _
    have hother : ∀ j, j ≠ l + 1 → reset j = list.levels j := fun j hj =>
      Function.update_of_ne hj _ _
    have hbuckets : ∀ j, (reset j).curr = (list.levels j).curr ∧
        (reset j).snap = (list.levels j).snap := by
      intro j
      by_cases hj : j = l + 1
      · rw [hj, hself]
        exact ⟨rfl, rfl⟩
      · rw [hother j hj]
        exact ⟨rfl, rfl⟩
    refine ⟨⟨fun j hj => ?_, fun j hj => ?_, fun j hj => ?_⟩, hfollows.idle, hfollows.idle',
      hfollows.ready, hfollows.ready'⟩
    · change Bucket.Same (reset j).curr _
      rw [(hbuckets j).1]
      exact hfollows.levels.curr j hj
    · change Bucket.Same (reset j).snap _
      rw [(hbuckets j).2]
      exact hfollows.levels.snap j hj
    · change NextFollows _ _ _ _ n j (reset (j + 1)) _
      by_cases hjl : j = l
      · subst hjl
        rw [hself]
        cases hfollows.levels.next j hj with
        | neither hnone hnone' => cases hnone.symm.trans hpending
        | both p p' hp hp' hfollow =>
          -- the other list still commits the merge
          obtain rfl := Option.some.inj (hp.symm.trans hpending)
          obtain ⟨bucket', hbucket', hsame'⟩ := hfollow bucket hbucket
          exact .second p' bucket' rfl hp' hbucket'
            (hsame.symm.trans hsame')
        | first p hp hnone' hstands => exact .neither rfl hnone'
        | second p' bucket' hnone hp' hresolve hstands => cases hnone.symm.trans hpending
      · rw [hother (j + 1) (by omega)]
        exact hfollows.levels.next j hj

theorem Reaches.follows (hzero : hasher.NonZero)
    (hrun : Reaches hasher skipDedup batches (HarmlessReset hasher) n list) :
    ∃ good, closeLedgers hasher skipDedup batches n = .ok good ∧ ListFollows hasher n list good := by
  induction hrun with
  | new => exact ⟨_, rfl, closeLedgers_new⟩
  | @poll n list finished _ ih =>
    obtain ⟨good, hgood, hfollows⟩ := ih
    exact ⟨good, hgood, hfollows.received (received_poll finished list) fun _ => .inl rfl⟩
  | @resolve n list hharmless _ ih =>
    obtain ⟨good, hgood, hfollows⟩ := ih
    refine ⟨good, hgood, ?_⟩
    have hrange : range bucketListLevels = range' 0 11 := range_eq_range'
    obtain ⟨received, hreceived, hresult⟩ : ∃ received, Received list.levels received ∧
        ((resolveLevels hasher (range' 0 11) list.levels).1 = received ∨
          ∃ l, ResetAt hasher 0 list.levels l ∧ l < 0 + 11 ∧
            (resolveLevels hasher (range' 0 11) list.levels).1 =
              Function.update received l (resetFailedMerge (list.levels l))) :=
      resolveLevels_spec 11 0 list.levels
    change ListFollows hasher n { list with levels :=
      (resolveLevels hasher (range bucketListLevels) list.levels).1 } good
    rw [hrange]
    obtain hresult | ⟨l, hreset, hl, hresult⟩ := hresult
    · rw [hresult]
      exact hfollows.received hreceived fun _ => .inl rfl
    · rw [hresult]
      have hfollows' := hfollows.reset hharmless (by omega) hreset
      refine hfollows'.received (fun j => ?_) fun _ => .inl rfl
      by_cases hj : j = l
      · subst hj
        have hself : Function.update list.levels j (resetFailedMerge (list.levels j)) j =
          resetFailedMerge (list.levels j) := Function.update_self _ _ _
        exact .inl ((Function.update_self _ _ _).trans hself.symm)
      · rw [Function.update_of_ne hj]
        change received j = Function.update list.levels l _ j ∨
          received j = LiveLevel.received (Function.update list.levels l _ j)
        rw [Function.update_of_ne hj]
        exact hreceived j
  | addBatch finished diskFull _ hadd ih =>
    obtain ⟨good, hgood, hfollows⟩ := ih
    obtain ⟨good', hadd', hfollows'⟩ := hfollows.addBatch hzero hadd fun _ => false
    refine ⟨good', ?_, hfollows'⟩
    unfold closeLedgers
    rw [hgood]
    exact hadd'

/-- If no reset drops what its level needs, a run with failed merges reads and
hashes as the run in which they succeed. -/
theorem recovery_loses_nothing (hzero : hasher.NonZero)
    (hrun : Reaches hasher skipDedup batches (HarmlessReset hasher) n list) :
    ∃ good, closeLedgers hasher skipDedup batches n = .ok good ∧
      list.hash hasher = good.hash hasher ∧ ∀ key, list.get key = good.get key := by
  obtain ⟨good, hgood, hfollows⟩ := hrun.follows hzero
  exact ⟨good, hgood, hfollows.read⟩

/-! ### Concrete runs -/

section Example

/-- The disk is full for the merge into level 1 at one ledger, and the list is
waited for after it. -/
def failAt (batches : ℕ → LedgerBatch ℕ ℕ) (failing : ℕ) :
    ℕ → Except (BucketError ℕ) (BucketList ℕ ℕ ℕ)
  | 0 => .ok (.new countingHasher)
  | n + 1 => do
    let list ← failAt batches failing n
    let list := if n = failing then (list.resolveAllPendingMerges countingHasher).1 else list
    list.addBatch countingHasher (fun _ => false)
      (fun l => if n + 1 = failing && l = 1 then some 28 else none) false (n + 1) (batches (n + 1))

theorem failAt_reaches {batches : ℕ → LedgerBatch ℕ ℕ} {allowed : ℕ → BucketList ℕ ℕ ℕ → Prop}
    {failing n : ℕ} {list : BucketList ℕ ℕ ℕ}
    (hallowed : ∀ list, failAt batches failing failing = .ok list → allowed failing list)
    (hlist : failAt batches failing n = .ok list) :
    Reaches countingHasher (fun _ => false) batches allowed n list := by
  induction n generalizing list with
  | zero =>
    cases hlist
    exact .new
  | succ n ih =>
    unfold failAt at hlist
    obtain ⟨before, hbefore, hlist⟩ := bind_ok_iff.mp hlist
    refine .addBatch _ _ ?_ hlist
    split
    next hn =>
      subst hn
      exact .resolve (hallowed before hbefore) (ih hbefore)
    · exact ih hbefore

/-- An account is created in the first ledger, and nothing happens later. -/
def createOnly (m : ℕ) : LedgerBatch ℕ ℕ where
  protocolVersion := 24
  initEntries := if m = 1 then [sampleEntry] else []
  liveEntries := []
  deadEntries := []

/-- The account of the first ledger is lost with the merge of the second. -/
theorem reset_loses_account : ∃ list good,
    Reaches countingHasher (fun _ => false) createOnly (fun _ list =>
      (list.resolveAllPendingMerges countingHasher).2 = .error (.transientIo 28)) 4 list ∧
    closeLedgers countingHasher (fun _ => false) createOnly 4 = .ok good ∧
    list.get (.account 7) = none ∧ good.get (.account 7) = some sampleEntry := by
  have hlost : (failAt createOnly 2 4).toOption.map (·.get (.account 7)) = some none := by decide
  have hgood : (closeLedgers countingHasher (fun _ => false) createOnly 4).toOption.map
    (·.get (.account 7)) = some (some sampleEntry) := by decide
  have hfails : (failAt createOnly 2 2).toOption.map (fun list =>
    decide ((list.resolveAllPendingMerges countingHasher).2 = .error (.transientIo 28))) =
      some true := by decide
  cases hlist : failAt createOnly 2 4 with
  | error e =>
    rw [hlist] at hlost
    cases hlost
  | ok list =>
    cases hclose : closeLedgers countingHasher (fun _ => false) createOnly 4 with
    | error e =>
      rw [hclose] at hgood
      cases hgood
    | ok good =>
      rw [hlist] at hlost
      rw [hclose] at hgood
      refine ⟨list, good, failAt_reaches (fun before hbefore => ?_) hlist, rfl,
        Option.some.inj hlost, Option.some.inj hgood⟩
      rw [hbefore] at hfails
      exact of_decide_eq_true (Option.some.inj hfails)

theorem createOnly_harmless (before : BucketList ℕ ℕ ℕ)
    (hbefore : failAt createOnly 4 4 = .ok before) : HarmlessReset countingHasher 4 before := by
  have hone : ((failAt createOnly 4 4).toOption.bind fun list => (list.levels 1).next.map fun pending =>
      (pending.undisturbed.resolve countingHasher).toOption.any fun bucket =>
        let curr := standing (.empty countingHasher) 4 0 (list.levels 1)
        bucket.hash = curr.hash && bucket.entries = curr.entries) = some true := by decide
  have hothers : (failAt createOnly 4 4).toOption.map (fun list =>
    (range' 1 9).all fun l => (list.levels (l + 1)).next.isNone) = some true := by decide
  rw [hbefore] at hone hothers
  intro l pending e hl hnext hfailed htransient hearlier
  by_cases hzero : l = 0
  · subst hzero
    have hsame := Option.some.inj ((congrArg (Option.map _) hnext).symm.trans hone)
    cases hresolve : pending.undisturbed.resolve countingHasher with
    | error e =>
      rw [hresolve] at hsame
      cases hsame
    | ok bucket =>
      rw [hresolve] at hsame
      exact ⟨bucket, rfl, by simpa [Bucket.Same, Except.toOption] using hsame⟩
  · have hall := all_eq_true.mp (Option.some.inj hothers) l
      (mem_range'_1.mpr ⟨by omega, by omega⟩)
    rw [hnext] at hall
    cases hall

/-- At the fourth ledger level 1 would merge nothing but metadata it has. -/
theorem recovery_loses_nothing_createOnly : ∃ list good,
    failAt createOnly 4 6 = .ok list ∧
    closeLedgers countingHasher (fun _ => false) createOnly 6 = .ok good ∧
    list.hash countingHasher = good.hash countingHasher ∧
    list.get (.account 7) = good.get (.account 7) := by
  have hok : (failAt createOnly 4 6).toOption.isSome = true := by decide
  cases hlist : failAt createOnly 4 6 with
  | error e =>
    rw [hlist] at hok
    cases hok
  | ok list =>
    obtain ⟨good, hgood, hhash, hget⟩ := recovery_loses_nothing countingHasher_nonZero
      (failAt_reaches createOnly_harmless hlist)
    exact ⟨list, good, rfl, hgood, hhash, hget _⟩

end Example

end Henyey.Buckets
