import Henyey.Buckets.Levels

/-!
# One list follows another

Two lists of levels with buckets that are alike. Where one has a pending merge
and the other has none, the merge yields what the level without it will hold at
the next spill. If the first list can spill, so can the second, and they stay
alike.
-/

namespace Henyey.Buckets

open Foundation

variable {B N ε : Type}

/-- What a level without a pending merge will hold when the level below spills. -/
def standing (empty : B) (n l : ℕ) (level : BucketLevel B N) : B :=
  if blShouldMergeWithEmptyCurr n (l + 1) then empty else level.curr

/-- Each pending merge was started, at the last spill of the level below, with what
the level stands for and with the snap below. -/
def Origin (started : ℕ → ℕ → B → B → N → Prop) (empty : B) (n : ℕ) (levels : Levels B N) : Prop :=
  ∀ l pending, l < 10 → (levels (l + 1)).next = some pending →
    started (lastSpill l n) l (standing empty n l (levels (l + 1))) (levels l).snap pending

/-- What alike means: for buckets, and for pending merges of two lists. -/
structure Likeness (ops ops' : LevelOps B N ε) (R : B → B → Prop) (P : N → N → Prop) : Prop where
  empty : R ops.empty ops'.empty
  released : ∀ l a b, R a b → R (ops.released l a) (ops'.released l b)
  start : ∀ l keep x x' y y' pending, R x x' → R y y' → ops.start l keep x y = .ok pending →
    ∃ pending', ops'.start l keep x' y' = .ok pending' ∧ P pending pending'
  resolve : ∀ pending pending' bucket, P pending pending' → ops.resolve pending = .ok bucket →
    ∃ bucket', ops'.resolve pending' = .ok bucket' ∧ R bucket bucket'

variable {ops ops' : LevelOps B N ε} {R : B → B → Prop} {P : N → N → Prop}
  {n l : ℕ} {levels levels' final : Levels B N}

/-- How the pending merges of one level can relate. -/
inductive NextFollows (ops ops' : LevelOps B N ε) (R : B → B → Prop) (P : N → N → Prop) (n l : ℕ)
    (level level' : BucketLevel B N) : Prop where
  | neither (hnext : level.next = none) (hnext' : level'.next = none)
  | both (pending pending' : N) (hnext : level.next = some pending)
      (hnext' : level'.next = some pending') (hpending : P pending pending')
  | first (pending : N) (hnext : level.next = some pending) (hnext' : level'.next = none)
      (hstands : ∀ bucket, ops.resolve pending = .ok bucket →
        R bucket (standing ops'.empty n l level'))
  | second (pending' : N) (bucket' : B) (hnext : level.next = none)
      (hnext' : level'.next = some pending') (hresolve : ops'.resolve pending' = .ok bucket')
      (hstands : R (standing ops.empty n l level) bucket')

/-- The second list follows the first. -/
structure Follows (ops ops' : LevelOps B N ε) (R : B → B → Prop) (P : N → N → Prop) (n : ℕ)
    (levels levels' : Levels B N) : Prop where
  curr : ∀ l, l ≤ 10 → R (levels l).curr (levels' l).curr
  snap : ∀ l, l ≤ 10 → R (levels l).snap (levels' l).snap
  next : ∀ l, l < 10 → NextFollows ops ops' R P n l (levels (l + 1)) (levels' (l + 1))

theorem Follows.congr {o o' : LevelOps B N ε} (hfollows : Follows ops ops' R P n levels levels')
    (hempty : o.empty = ops.empty) (hempty' : o'.empty = ops'.empty)
    (hresolve : o.resolve = ops.resolve) (hresolve' : o'.resolve = ops'.resolve) :
    Follows o o' R P n levels levels' := by
  refine ⟨hfollows.curr, hfollows.snap, fun l hl => ?_⟩
  cases hfollows.next l hl with
  | neither h h' => exact .neither h h'
  | both p p' h h' hp => exact .both p p' h h' hp
  | first p h h' hstands => exact .first p h h' (by rwa [hresolve, hempty'])
  | second p' b' h h' hres hstands =>
    exact .second p' b' h h' (by rwa [hresolve']) (by rwa [hempty])

theorem lowered_alike (hlike : Likeness ops ops' R P) {level level' : BucketLevel B N}
    (hcurr : R level.curr level'.curr) (hsnap : R level.snap level'.snap) :
    R (lowered ops n l level).curr (lowered ops' n l level').curr ∧
      R (lowered ops n l level).snap (lowered ops' n l level').snap := by
  unfold lowered
  split
  · exact ⟨hlike.empty, hlike.released l _ _ hcurr⟩
  · exact ⟨hcurr, hsnap⟩

theorem lowered_curr_eq_standing (hl : l < 10) (hspill : blLevelShouldSpill (n + 1) l = true)
    (level : BucketLevel B N) :
    (lowered ops (n + 1) (l + 1) level).curr = standing ops.empty n l level := by
  have hdvd := (blLevelShouldSpill_iff hl).mp hspill
  unfold lowered standing
  rw [blShouldMergeWithEmptyCurr_before_spill hl hdvd]
  split <;> rfl

theorem standing_of_not_spill (hl : l < 10) (hspill : blLevelShouldSpill (n + 1) l = false)
    (empty : B) (level : BucketLevel B N) :
    standing empty (n + 1) l level = standing empty n l level := by
  unfold standing
  rw [blShouldMergeWithEmptyCurr_of_not_spill hl hspill]

theorem lowered_of_not_spill (hl : l < 10) (hspill : ¬blLevelShouldSpill (n + 1) l = true)
    (ops : LevelOps B N ε) (level : BucketLevel B N) : lowered ops (n + 1) (l + 1) level = level := by
  have habove : blLevelShouldSpill (n + 1) (l + 1) = false := by
    by_contra h
    exact hspill (blLevelShouldSpill_of_succ (Bool.eq_true_of_not_eq_false h) hl)
  unfold lowered
  rw [habove]
  rfl

theorem commit_ok {level committed : BucketLevel B N} (hcommit : level.commit ops = .ok committed) :
    committed.next = none ∧ committed.snap = level.snap := by
  cases hnext : level.next with
  | none =>
    rw [commit_none hnext] at hcommit
    cases hcommit
    exact ⟨hnext, rfl⟩
  | some pending =>
    rw [commit_some hnext] at hcommit
    obtain ⟨bucket, hresolve, hcommit⟩ := bind_ok_iff.mp hcommit
    cases hcommit
    exact ⟨rfl, rfl⟩

theorem fed_ok {level upper : BucketLevel B N} {below : B} (hspill : blLevelShouldSpill n l = true)
    (hfed : fed ops n l level below = .ok upper) :
    ∃ (committed : BucketLevel B N) (pending : N), ops.start (l + 1) (blKeepTombstoneEntries (l + 1))
        (standing ops.empty n l committed) (ops.released l below) = .ok pending ∧
      committed.snap = level.snap ∧ upper = { committed with next := some pending } := by
  unfold fed at hfed
  rw [if_pos hspill] at hfed
  obtain ⟨committed, hcommit, hfed⟩ := bind_ok_iff.mp hfed
  obtain ⟨hnext, hkept⟩ := commit_ok hcommit
  change committed.prepare ops (l + 1) _ _ _ = _ at hfed
  unfold BucketLevel.prepare at hfed
  simp only [hnext, Option.isSome_none, Bool.false_eq_true, if_false] at hfed
  obtain ⟨pending, hstart, hfed⟩ := bind_ok_iff.mp hfed
  exact ⟨committed, pending, hstart, hkept, (Except.ok.inj hfed).symm⟩

theorem snap_of_spillLevels (hspill : spillLevels ops (n + 1) 10 levels = .ok final) (hl : l ≤ 10) :
    (final l).snap = (lowered ops (n + 1) l (levels l)).snap := by
  obtain ⟨hfed, hbottom⟩ := fed_of_spillLevels hspill
  cases l with
  | zero => rw [hbottom]
  | succ l =>
    have hok := hfed l hl
    by_cases hspills : blLevelShouldSpill (n + 1) l = true
    · obtain ⟨committed, pending, -, hsnap, hfinal⟩ := fed_ok hspills hok
      rw [hfinal]
      exact hsnap
    · unfold fed at hok
      rw [if_neg hspills] at hok
      rw [Except.ok.inj hok]

theorem Origin.spill {started : ℕ → ℕ → B → B → N → Prop}
    (horigin : Origin started ops.empty n levels)
    (hstart : ∀ l x y pending, ops.start (l + 1) (blKeepTombstoneEntries (l + 1)) x y = .ok pending →
      started (n + 1) l x y pending)
    (hspill : spillLevels ops (n + 1) 10 levels = .ok final) :
    Origin started ops.empty (n + 1) final := by
  obtain ⟨hfed, -⟩ := fed_of_spillLevels hspill
  intro l pending hl hpending
  rw [snap_of_spillLevels hspill hl.le]
  have hok := hfed l hl
  by_cases hspills : blLevelShouldSpill (n + 1) l = true
  · obtain ⟨committed, pending', hstarted, -, hfinal⟩ := fed_ok hspills hok
    rw [hfinal] at hpending ⊢
    obtain rfl := Option.some.inj hpending
    have hlow : (lowered ops (n + 1) l (levels l)).snap = ops.released l (levels l).curr := by
      unfold lowered
      rw [if_pos hspills]
      rfl
    rw [hlow, lastSpill_of_dvd ((blLevelShouldSpill_iff hl).mp hspills)]
    exact hstart l _ _ _ hstarted
  · unfold fed at hok
    rw [if_neg hspills, lowered_of_not_spill hl hspills] at hok
    have hlow : lowered ops (n + 1) l (levels l) = levels l := by
      unfold lowered
      rw [if_neg hspills]
    have hkept : lastSpill l (n + 1) = lastSpill l n := by
      refine lastSpill_succ_of_not_dvd fun hdvd => hspills ?_
      exact (blLevelShouldSpill_iff hl).mpr hdvd
    rw [← Except.ok.inj hok] at hpending ⊢
    rw [hlow, hkept, standing_of_not_spill hl (Bool.eq_false_of_not_eq_true hspills)]
    exact horigin l pending hl hpending

section

variable (hlike : Likeness ops ops' R P)
include hlike

theorem NextFollows.commit (hl : l < 10) (hspill : blLevelShouldSpill (n + 1) l = true)
    {level level' committed : BucketLevel B N} (hnext : NextFollows ops ops' R P n l level level')
    (hcurr : R level.curr level'.curr) (hsnap : R level.snap level'.snap)
    (hcommit : (lowered ops (n + 1) (l + 1) level).commit ops = .ok committed) :
    ∃ committed', (lowered ops' (n + 1) (l + 1) level').commit ops' = .ok committed' ∧
      R committed.curr committed'.curr ∧ R committed.snap committed'.snap ∧
        committed.next = none ∧ committed'.next = none := by
  have hlow : R (lowered ops (n + 1) (l + 1) level).curr (lowered ops' (n + 1) (l + 1) level').curr ∧
      R (lowered ops (n + 1) (l + 1) level).snap (lowered ops' (n + 1) (l + 1) level').snap :=
    lowered_alike hlike hcurr hsnap
  have hcurrent : (lowered ops (n + 1) (l + 1) level).curr = standing ops.empty n l level :=
    lowered_curr_eq_standing hl hspill level
  have hcurrent' : (lowered ops' (n + 1) (l + 1) level').curr = standing ops'.empty n l level' :=
    lowered_curr_eq_standing hl hspill level'
  have hkeep : (lowered ops (n + 1) (l + 1) level).next = level.next := lowered_next (l + 1) level
  have hkeep' : (lowered ops' (n + 1) (l + 1) level').next = level'.next :=
    lowered_next (l + 1) level'
  cases hnext with
  | neither hnone hnone' =>
    rw [commit_none (hkeep.trans hnone)] at hcommit
    cases hcommit
    exact ⟨_, commit_none (hkeep'.trans hnone'), hlow.1, hlow.2, hkeep.trans hnone,
      hkeep'.trans hnone'⟩
  | both pending pending' hsome hsome' hpending =>
    rw [commit_some (hkeep.trans hsome)] at hcommit
    rw [commit_some (hkeep'.trans hsome')]
    obtain ⟨bucket, hresolve, hcommit⟩ := bind_ok_iff.mp hcommit
    cases hcommit
    obtain ⟨bucket', hresolve', hbucket⟩ := hlike.resolve _ _ _ hpending hresolve
    rw [hresolve']
    exact ⟨_, rfl, hbucket, hlow.2, rfl, rfl⟩
  | first pending hsome hnone' hstands =>
    rw [commit_some (hkeep.trans hsome)] at hcommit
    obtain ⟨bucket, hresolve, hcommit⟩ := bind_ok_iff.mp hcommit
    cases hcommit
    refine ⟨_, commit_none (hkeep'.trans hnone'), ?_, hlow.2, rfl, hkeep'.trans hnone'⟩
    rw [hcurrent']
    exact hstands bucket hresolve
  | second pending' bucket' hnone hsome' hresolve hstands =>
    rw [commit_none (hkeep.trans hnone)] at hcommit
    cases hcommit
    rw [commit_some (hkeep'.trans hsome'), hresolve]
    refine ⟨_, rfl, ?_, hlow.2, hkeep.trans hnone, rfl⟩
    rw [hcurrent]
    exact hstands

theorem prepare_alike {level level' prepared : BucketLevel B N} {keep useEmptyCurr : Bool}
    {incoming incoming' : B} (hcurr : R level.curr level'.curr) (hnext : level.next = none)
    (hnext' : level'.next = none) (hincoming : R incoming incoming')
    (hprepare : level.prepare ops l keep useEmptyCurr incoming = .ok prepared) :
    ∃ pending pending', prepared = { level with next := some pending } ∧
      level'.prepare ops' l keep useEmptyCurr incoming' =
        .ok { level' with next := some pending' } ∧ P pending pending' := by
  have hmerged : R (if useEmptyCurr then ops.empty else level.curr)
      (if useEmptyCurr then ops'.empty else level'.curr) := by
    split
    · exact hlike.empty
    · exact hcurr
  unfold BucketLevel.prepare at hprepare ⊢
  simp only [hnext, hnext', Option.isSome_none, Bool.false_eq_true, if_false] at hprepare ⊢
  obtain ⟨pending, hstart, hprepare⟩ := bind_ok_iff.mp hprepare
  cases hprepare
  obtain ⟨pending', hstart', hpending⟩ :=
    hlike.start _ _ _ _ _ _ _ hmerged hincoming hstart
  refine ⟨pending, pending', rfl, ?_, hpending⟩
  rw [hstart']
  rfl

theorem Follows.fed (hfollows : Follows ops ops' R P n levels levels') (hl : l < 10)
    {level : BucketLevel B N}
    (hfed : Buckets.fed ops (n + 1) l (lowered ops (n + 1) (l + 1) (levels (l + 1)))
      (levels l).curr = .ok level) :
    ∃ level', Buckets.fed ops' (n + 1) l (lowered ops' (n + 1) (l + 1) (levels' (l + 1)))
        (levels' l).curr = .ok level' ∧
      R level.curr level'.curr ∧ R level.snap level'.snap ∧
        NextFollows ops ops' R P (n + 1) l level level' := by
  unfold Buckets.fed at hfed ⊢
  split at hfed
  next hspill =>
    rw [if_pos hspill]
    obtain ⟨committed, hcommit, hfed⟩ := bind_ok_iff.mp hfed
    obtain ⟨committed', hcommit', hcurr, hsnap, hnext, hnext'⟩ :=
      (hfollows.next l hl).commit hlike hl hspill (hfollows.curr (l + 1) (by omega))
        (hfollows.snap (l + 1) (by omega)) hcommit
    obtain ⟨pending, pending', rfl, hprepare, hpending⟩ := prepare_alike hlike hcurr hnext hnext'
      (hlike.released l _ _ (hfollows.curr l (by omega))) hfed
    rw [hcommit']
    exact ⟨_, hprepare, hcurr, hsnap, .both pending pending' rfl rfl hpending⟩
  next hspill =>
    -- the level does not spill either, and what it stands for stays
    cases hfed
    rw [if_neg hspill]
    have hnot := Bool.eq_false_of_not_eq_true hspill
    rw [lowered_of_not_spill hl hspill, lowered_of_not_spill hl hspill]
    refine ⟨_, rfl, hfollows.curr (l + 1) (by omega), hfollows.snap (l + 1) (by omega), ?_⟩
    cases hfollows.next l hl with
    | neither hnext hnext' => exact .neither hnext hnext'
    | both pending pending' hnext hnext' hpending =>
      exact .both pending pending' hnext hnext' hpending
    | first pending hnext hnext' hstands =>
      exact .first pending hnext hnext' (by rwa [standing_of_not_spill hl hnot])
    | second pending' bucket' hnext hnext' hresolve hstands =>
      exact .second pending' bucket' hnext hnext' hresolve (by rwa [standing_of_not_spill hl hnot])

theorem Follows.spill (hfollows : Follows ops ops' R P n levels levels')
    (hspill : spillLevels ops (n + 1) 10 levels = .ok final) :
    ∃ final', spillLevels ops' (n + 1) 10 levels' = .ok final' ∧
      Follows ops ops' R P (n + 1) final final' ∧
      final 0 = lowered ops (n + 1) 0 (levels 0) ∧
      final' 0 = lowered ops' (n + 1) 0 (levels' 0) := by
  obtain ⟨hfed, hbottom⟩ := fed_of_spillLevels hspill
  have hlevel := fun l hl => hfollows.fed hlike hl (hfed l hl)
  obtain ⟨final', hspill'⟩ : ∃ final', spillLevels ops' (n + 1) 10 levels' = .ok final' :=
    spillLevels_of_fed fun l hl => (hlevel l hl).imp fun _ h => h.1
  obtain ⟨hfed', hbottom'⟩ := fed_of_spillLevels hspill'
  have hlow : R (lowered ops (n + 1) 0 (levels 0)).curr (lowered ops' (n + 1) 0 (levels' 0)).curr ∧
      R (lowered ops (n + 1) 0 (levels 0)).snap (lowered ops' (n + 1) 0 (levels' 0)).snap :=
    lowered_alike hlike (hfollows.curr 0 (by omega)) (hfollows.snap 0 (by omega))
  have hupper : ∀ l, l < 10 → R (final (l + 1)).curr (final' (l + 1)).curr ∧
      R (final (l + 1)).snap (final' (l + 1)).snap ∧
        NextFollows ops ops' R P (n + 1) l (final (l + 1)) (final' (l + 1)) := by
    intro l hl
    obtain ⟨level', hok, hall⟩ := hlevel l hl
    rwa [Except.ok.inj (hok.symm.trans (hfed' l hl))] at hall
  refine ⟨final', hspill', ⟨fun l hl => ?_, fun l hl => ?_, fun l hl => (hupper l hl).2.2⟩,
    hbottom, hbottom'⟩
  · cases l with
    | zero =>
      rw [hbottom, hbottom']
      exact hlow.1
    | succ l => exact (hupper l hl).1
  · cases l with
    | zero =>
      rw [hbottom, hbottom']
      exact hlow.2
    | succ l => exact (hupper l hl).2.1

end

end Henyey.Buckets
