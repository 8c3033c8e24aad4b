import Henyey.Foundation.Failing
import Henyey.Buckets.Schedule

/-!
# Levels that spill

Both bucket lists keep levels of a `curr`, a `snap` and a pending merge. On its
schedule a level snaps its `curr`, and the level above commits its pending merge
and starts one with the snapped bucket. The buckets and the merge are
parameters.
-/

namespace Henyey.Buckets

open Foundation Function

/-- A level with its pending merge. -/
structure BucketLevel (B N : Type) where
  curr : B
  snap : B
  next : Option N

/-- What a list does with its buckets: `start` begins a merge into a level,
`resolve` waits for it, and `released` is what a level keeps of a bucket it
snaps. -/
structure LevelOps (B N ε : Type) where
  empty : B
  released : ℕ → B → B
  start : (level : ℕ) → (keepTombstones : Bool) → (curr incoming : B) → Except ε N
  resolve : N → Except ε B
  inProgress : ε

variable {B N ε : Type}

namespace BucketLevel

def new (empty : B) : BucketLevel B N where
  curr := empty
  snap := empty
  next := none

/-- Promote the pending merge into `curr`, if there is one. -/
def commit (ops : LevelOps B N ε) (level : BucketLevel B N) : Except ε (BucketLevel B N) :=
  match level.next with
  | none => .ok level
  | some pending => do
    let bucket ← ops.resolve pending
    .ok { level with curr := bucket, next := none }

def snapCurr (ops : LevelOps B N ε) (l : ℕ) (level : BucketLevel B N) : BucketLevel B N :=
  { level with snap := ops.released l level.curr, curr := ops.empty }

/-- Start a merge with an incoming bucket. -/
def prepare (ops : LevelOps B N ε) (l : ℕ) (keepTombstones useEmptyCurr : Bool) (incoming : B)
    (level : BucketLevel B N) : Except ε (BucketLevel B N) :=
  if level.next.isSome then .error ops.inProgress
  else do
    let currForMerge := if useEmptyCurr then ops.empty else level.curr
    let pending ← ops.start l keepTombstones currForMerge incoming
    .ok { level with next := some pending }

end BucketLevel

abbrev Levels (B N : Type) : Type := ℕ → BucketLevel B N

def spillLevel (ops : LevelOps B N ε) (ledgerSeq i : ℕ) (levels : Levels B N) :
    Except ε (Levels B N) :=
  if blLevelShouldSpill ledgerSeq i then do
    let lower := (levels i).snapCurr ops i
    let upper ← (levels (i + 1)).commit ops
    let upper ← upper.prepare ops (i + 1) (blKeepTombstoneEntries (i + 1))
      (blShouldMergeWithEmptyCurr ledgerSeq (i + 1)) lower.snap
    .ok (update (update levels i lower) (i + 1) upper)
  else .ok levels

/-- Spill the levels below level `i`, the highest first. -/
def spillLevels (ops : LevelOps B N ε) (ledgerSeq : ℕ) : ℕ → Levels B N → Except ε (Levels B N)
  | 0, levels => .ok levels
  | i + 1, levels => do
    let levels ← spillLevel ops ledgerSeq i levels
    spillLevels ops ledgerSeq i levels

/-! ### What the loop does to one level -/

variable {ops : LevelOps B N ε} {n : ℕ} {levels final : Levels B N}

/-- A level after its own spill. -/
def lowered (ops : LevelOps B N ε) (ledgerSeq l : ℕ) (level : BucketLevel B N) : BucketLevel B N :=
  if blLevelShouldSpill ledgerSeq l then level.snapCurr ops l else level

def fed (ops : LevelOps B N ε) (ledgerSeq i : ℕ) (level : BucketLevel B N) (below : B) :
    Except ε (BucketLevel B N) :=
  if blLevelShouldSpill ledgerSeq i then do
    let level ← level.commit ops
    level.prepare ops (i + 1) (blKeepTombstoneEntries (i + 1))
      (blShouldMergeWithEmptyCurr ledgerSeq (i + 1)) (ops.released i below)
  else .ok level

theorem spillLevel_eq (i : ℕ) :
    spillLevel ops n i levels = (fed ops n i (levels (i + 1)) (levels i).curr).map fun upper =>
      update (update levels i (lowered ops n i (levels i))) (i + 1) upper := by
  unfold spillLevel fed lowered
  split
  · cases (levels (i + 1)).commit ops with
    | error e => rfl
    | ok upper =>
      change (do
        let upper ← upper.prepare ops (i + 1) _ _ (ops.released i (levels i).curr)
        Except.ok _) = Except.map _ (upper.prepare ops (i + 1) _ _ _)
      cases upper.prepare ops (i + 1) (blKeepTombstoneEntries (i + 1))
          (blShouldMergeWithEmptyCurr n (i + 1)) (ops.released i (levels i).curr) <;> rfl
  · simp [Except.map]

/-- The loop works level by level: each is lowered in its own spill, then fed by
the level below, which still has its old `curr`. -/
theorem spillLevels_eq (k : ℕ) (habove : ∀ j, k < j → final j = levels j)
    (hfed : ∀ j, j < k → fed ops n j
      (if j + 1 = k then levels k else lowered ops n (j + 1) (levels (j + 1))) (levels j).curr =
        .ok (final (j + 1)))
    (hbottom : final 0 = if k = 0 then levels 0 else lowered ops n 0 (levels 0)) :
    spillLevels ops n k levels = .ok final := by
  induction k generalizing levels with
  | zero =>
    have hsame : final = levels := by
      funext j
      cases j with
      | zero => exact hbottom
      | succ j => exact habove _ (Nat.succ_pos j)
    rw [hsame]
    rfl
  | succ k ih =>
    have htop := hfed k (Nat.lt_succ_self k)
    rw [if_pos rfl] at htop
    have hspill : spillLevel ops n k levels = .ok (update
        (update levels k (lowered ops n k (levels k))) (k + 1) (final (k + 1))) := by
      rw [spillLevel_eq, htop]
      rfl
    unfold spillLevels
    rw [hspill]
    apply ih
    · intro j hj
      by_cases hsucc : j = k + 1
      · rw [hsucc, update_self]
      · rw [update_of_ne hsucc, update_of_ne (by omega)]
        exact habove j (by omega)
    · intro j hj
      have hcurr := hfed j (by omega)
      rw [if_neg (by omega)] at hcurr
      rw [update_of_ne (show j ≠ k + 1 by omega), update_of_ne hj.ne]
      by_cases hlast : j + 1 = k
      · subst hlast
        rwa [if_pos rfl, update_of_ne (by omega), update_self]
      · rwa [if_neg hlast, update_of_ne (by omega), update_of_ne (by omega)]
    · rw [hbottom, if_neg (Nat.succ_ne_zero k)]
      by_cases hzero : k = 0
      · subst hzero
        simp
      · rw [if_neg hzero, update_of_ne (by omega), update_of_ne (by omega)]

theorem spillLevels_succ {k : ℕ} (hspill : spillLevels ops n (k + 1) levels = .ok final) :
    ∃ upper, fed ops n k (levels (k + 1)) (levels k).curr = .ok upper ∧
      spillLevels ops n k (update
        (update levels k (lowered ops n k (levels k))) (k + 1) upper) = .ok final := by
  unfold spillLevels at hspill
  rw [spillLevel_eq] at hspill
  obtain ⟨_, hmap, hspill⟩ := bind_ok_iff.mp hspill
  obtain ⟨upper, hfed, hupper⟩ := bind_ok_iff.mp hmap
  cases hupper
  exact ⟨upper, hfed, hspill⟩

/-- What the loop does, once it has succeeded. -/
theorem spillLevels_ok {k : ℕ} (hspill : spillLevels ops n k levels = .ok final) :
    (∀ j, k < j → final j = levels j) ∧ (∀ j, j < k → fed ops n j
      (if j + 1 = k then levels k else lowered ops n (j + 1) (levels (j + 1))) (levels j).curr =
        .ok (final (j + 1))) ∧
    final 0 = if k = 0 then levels 0 else lowered ops n 0 (levels 0) := by
  induction k generalizing levels with
  | zero =>
    cases hspill
    exact ⟨fun _ _ => rfl, fun _ hj => absurd hj (Nat.not_lt_zero _), rfl⟩
  | succ k ih =>
    obtain ⟨upper, hfed, hrest⟩ := spillLevels_succ hspill
    obtain ⟨habove, hlower, hbottom⟩ := ih hrest
    have htop : final (k + 1) = upper :=
      (habove (k + 1) (Nat.lt_succ_self k)).trans (update_self _ _ _)
    refine ⟨fun j hj => ?_, fun j hj => ?_, ?_⟩
    · rw [habove j (by omega), update_of_ne (by omega), update_of_ne (by omega)]
    · by_cases hlast : j = k
      · subst hlast
        rw [if_pos rfl, htop]
        exact hfed
      · rw [if_neg (by omega), ← hlower j (by omega)]
        rw [update_of_ne (show j ≠ k + 1 by omega), update_of_ne hlast]
        by_cases hnext : j + 1 = k
        · subst hnext
          rw [if_pos rfl, update_of_ne (by omega), update_self]
        · rw [if_neg hnext, update_of_ne (by omega), update_of_ne hnext]
    · rw [hbottom, if_neg (Nat.succ_ne_zero k)]
      by_cases hzero : k = 0
      · subst hzero
        simp
      · rw [if_neg hzero, update_of_ne (by omega), update_of_ne (Ne.symm hzero)]

theorem spillLevels_of_fed (hfeeds : ∀ l, l < 10 → ∃ level,
      fed ops (n + 1) l (lowered ops (n + 1) (l + 1) (levels (l + 1))) (levels l).curr = .ok level) :
    ∃ final, spillLevels ops (n + 1) 10 levels = .ok final := by
  have : Nonempty (BucketLevel B N) := ⟨levels 0⟩
  choose! upper hfed using hfeeds
  let final : Levels B N := fun l =>
    if l = 0 then lowered ops (n + 1) 0 (levels 0)
    else if l - 1 < 10 then upper (l - 1) else levels l
  have hfinal : ∀ l, l < 10 → final (l + 1) = upper l := fun l hl => if_pos hl
  refine ⟨final, spillLevels_eq 10 (fun j hj => ?_) (fun j hj => ?_) rfl⟩
  · cases j with
    | zero => omega
    | succ j => exact (if_neg j.succ_ne_zero).trans (if_neg (by omega))
  · rw [hfinal j hj, ← hfed j hj]
    split
    next hlast =>
      -- the last level never spills
      rw [hlast]
      rfl
    · rfl

theorem fed_of_spillLevels (hspill : spillLevels ops (n + 1) 10 levels = .ok final) :
    (∀ l, l < 10 → fed ops (n + 1) l (lowered ops (n + 1) (l + 1) (levels (l + 1)))
      (levels l).curr = .ok (final (l + 1))) ∧
    final 0 = lowered ops (n + 1) 0 (levels 0) := by
  obtain ⟨-, hfed, hbottom⟩ := spillLevels_ok hspill
  refine ⟨fun l hl => ?_, hbottom⟩
  rw [← hfed l hl]
  split
  next hlast =>
    rw [hlast]
    rfl
  · rfl

/-! ### What the levels cover -/

/-- Each bucket covers its ledgers, and so does each pending merge in its way. A
level without one has seen nothing yet. -/
structure Covered (ops : LevelOps B N ε) (covers : B → ℕ → ℕ → Prop) (pends : N → ℕ → ℕ → Prop)
    (first n : ℕ) (levels : Levels B N) : Prop where
  curr : ∀ l, l < 10 → covers (levels (l + 1)).curr (cut (l + 1) n) (tail l n)
  snap : ∀ l, l ≤ 10 → covers (levels l).snap (tail l n) (cut l n)
  next : ∀ l, l < 10 →
    ((levels (l + 1)).next = none ∧ cut l n ≤ first ∧ (levels (l + 1)).curr = ops.empty) ∨
    ∃ pending, (levels (l + 1)).next = some pending ∧ pends pending (nextStart l n) (cut l n)
  idle : (levels 0).next = none

/-- What coverage needs of the buckets and of merges started at a ledger. -/
structure Coverage (ops : LevelOps B N ε) (covers : B → ℕ → ℕ → Prop) (pends : N → ℕ → ℕ → Prop)
    (first ledgerSeq : ℕ) : Prop where
  empty : ∀ a c, c ≤ first ∨ c ≤ a → covers ops.empty a c
  released : ∀ l b a c, covers b a c → covers (ops.released l b) a c
  start : ∀ l x y a b c, l < 10 → covers x a b → covers y b c → a ≤ b → b ≤ c → c ≤ ledgerSeq →
    (l = 9 → a = 0) → ∃ pending,
      ops.start (l + 1) (blKeepTombstoneEntries (l + 1)) x y = .ok pending ∧ pends pending a c
  resolve : ∀ pending bucket a c, pends pending a c → ops.resolve pending = .ok bucket →
    covers bucket a c

variable {covers : B → ℕ → ℕ → Prop} {pends : N → ℕ → ℕ → Prop} {first : ℕ}

theorem cut_le (l n : ℕ) : cut l n ≤ n := by
  have hle := lastSpill_le l n
  unfold cut
  split <;> omega

/-- A new list has seen nothing. -/
theorem covered_new (hfirst : n < first)
    (hempty : ∀ a c, c ≤ first ∨ c ≤ a → covers ops.empty a c) :
    Covered ops covers pends first n fun _ => .new ops.empty where
  curr := fun l _ => hempty _ _ (.inl (((tail_le_cut l n).trans (cut_le l n)).trans hfirst.le))
  snap := fun l _ => hempty _ _ (.inl ((cut_le l n).trans hfirst.le))
  next := fun l _ => .inl ⟨rfl, (cut_le l n).trans hfirst.le, rfl⟩
  idle := rfl

variable {l : ℕ}

theorem blLevelShouldSpill_lt (hspill : blLevelShouldSpill n l = true) (hl : l ≤ 10) : l < 10 := by
  by_contra hlast
  rw [show l = 10 by omega, blLevelShouldSpill_last] at hspill
  cases hspill

theorem lowered_next (l : ℕ) (level : BucketLevel B N) :
    (lowered ops n l level).next = level.next := by
  unfold lowered BucketLevel.snapCurr
  split <;> rfl

variable {level : BucketLevel B N}

theorem commit_none (hnext : level.next = none) : level.commit ops = .ok level := by
  unfold BucketLevel.commit
  rw [hnext]

theorem commit_some {pending : N} (hnext : level.next = some pending) :
    level.commit ops = (ops.resolve pending).map fun bucket =>
      { curr := bucket, snap := level.snap, next := none } := by
  unfold BucketLevel.commit
  rw [hnext]
  rfl

section

variable (hcovered : Covered ops covers pends first n levels)
include hcovered

theorem Covered.lowered_snap (hcurr : covers (levels 0).curr (cut 0 n) (n + 1))
    (hops : Coverage ops covers pends first (n + 1)) (hl : l ≤ 10) :
    covers (lowered ops (n + 1) l (levels l)).snap (tail l (n + 1)) (cut l (n + 1)) := by
  unfold lowered
  split
  next hspill =>
    have hlt := blLevelShouldSpill_lt hspill hl
    have hdvd := (blLevelShouldSpill_iff hlt).mp hspill
    rw [tail_spill hlt hdvd, ← currEnd_before_spill hlt hdvd]
    apply hops.released
    cases l with
    | zero => exact hcurr
    | succ l => exact hcovered.curr l (by omega)
  next hspill =>
    have hnot := Bool.eq_false_of_not_eq_true hspill
    rw [tail_succ_of_not_spill hnot, cut_succ_of_not_spill hnot]
    exact hcovered.snap l hl

theorem Covered.handed (hcurr : covers (levels 0).curr (cut 0 n) (n + 1))
    (hops : Coverage ops covers pends first (n + 1)) (hl : l < 10)
    (hspill : blLevelShouldSpill (n + 1) l = true) :
    covers (ops.released l (levels l).curr) (tail l (n + 1)) (cut l (n + 1)) := by
  have hsnap := hcovered.lowered_snap hcurr hops hl.le
  unfold lowered at hsnap
  rwa [if_pos hspill] at hsnap

theorem Covered.committed (hops : Coverage ops covers pends first (n + 1)) (hl : l < 10)
    (hspill : blLevelShouldSpill (n + 1) l = true)
    (hcommit : (lowered ops (n + 1) (l + 1) (levels (l + 1))).commit ops = .ok level) :
    covers level.curr (cut (l + 1) (n + 1)) (tail l (n + 1)) ∧ level.next = none ∧
      level.snap = (lowered ops (n + 1) (l + 1) (levels (l + 1))).snap := by
  have hdvd := (blLevelShouldSpill_iff hl).mp hspill
  have hnext : (lowered ops (n + 1) (l + 1) (levels (l + 1))).next = (levels (l + 1)).next :=
    lowered_next (l + 1) (levels (l + 1))
  rw [tail_spill hl hdvd]
  obtain ⟨hnone, hfirst, hempty⟩ | ⟨pending, hsome, hpends⟩ := hcovered.next l hl
  · -- nothing was pending, and the level holds nothing
    have hcurr : (lowered ops (n + 1) (l + 1) (levels (l + 1))).curr = ops.empty := by
      unfold lowered BucketLevel.snapCurr
      split
      · rfl
      · exact hempty
    rw [commit_none (hnext.trans hnone)] at hcommit
    cases hcommit
    exact ⟨hcurr ▸ hops.empty _ _ (.inl hfirst), hnext.trans hnone, rfl⟩
  · rw [commit_some (hnext.trans hsome)] at hcommit
    obtain ⟨bucket, hresolve, hcommit⟩ := bind_ok_iff.mp hcommit
    cases hcommit
    refine ⟨?_, rfl, rfl⟩
    rw [← nextStart_before_spill hl hdvd]
    exact hops.resolve pending bucket _ _ hpends hresolve

section

variable (hcurr : covers (levels 0).curr (cut 0 n) (n + 1))
  (hops : Coverage ops covers pends first (n + 1))
include hcurr hops

/-- A merge is started with what a level holds and what the one below hands over. -/
theorem Covered.prepared (hl : l < 10) (hspill : blLevelShouldSpill (n + 1) l = true)
    (hlevel : covers level.curr (cut (l + 1) (n + 1)) (tail l (n + 1))) (hnext : level.next = none) :
    ∃ pending, level.prepare ops (l + 1) (blKeepTombstoneEntries (l + 1))
        (blShouldMergeWithEmptyCurr (n + 1) (l + 1)) (ops.released l (levels l).curr) =
          .ok { level with next := some pending } ∧
      pends pending (nextStart l (n + 1)) (cut l (n + 1)) := by
  have hmerged : covers
      (if blShouldMergeWithEmptyCurr (n + 1) (l + 1) then ops.empty else level.curr)
      (nextStart l (n + 1)) (tail l (n + 1)) := by
    unfold nextStart
    split
    · exact hops.empty _ _ (.inr le_rfl)
    · exact hlevel
  have hstart : nextStart l (n + 1) ≤ tail l (n + 1) := by
    unfold nextStart
    split
    · exact le_rfl
    · exact cut_succ_le_tail hl
  have hlast : l = 9 → nextStart l (n + 1) = 0 := by
    rintro rfl
    rfl
  obtain ⟨pending, hok, hpends⟩ := hops.start l _ _ _ _ _ hl hmerged
    (hcovered.handed hcurr hops hl hspill) hstart (tail_le_cut l (n + 1)) (cut_le l (n + 1)) hlast
  refine ⟨pending, ?_, hpends⟩
  unfold BucketLevel.prepare
  simp only [hnext, Option.isSome_none, Bool.false_eq_true, if_false, hok, bind, Except.bind]

theorem Covered.fed (hl : l < 10)
    (hfed : Buckets.fed ops (n + 1) l (lowered ops (n + 1) (l + 1) (levels (l + 1)))
      (levels l).curr = .ok level) :
    covers level.curr (cut (l + 1) (n + 1)) (tail l (n + 1)) ∧
      level.snap = (lowered ops (n + 1) (l + 1) (levels (l + 1))).snap ∧
      ((level.next = none ∧ cut l (n + 1) ≤ first ∧ level.curr = ops.empty) ∨
        ∃ pending, level.next = some pending ∧
          pends pending (nextStart l (n + 1)) (cut l (n + 1))) := by
  unfold Buckets.fed at hfed
  split at hfed
  next hspill =>
    obtain ⟨committed, hcommit, hfed⟩ := bind_ok_iff.mp hfed
    obtain ⟨hcommitted, hnext, hsnap⟩ := hcovered.committed hops hl hspill hcommit
    obtain ⟨pending, hprepare, hpends⟩ := hcovered.prepared hcurr hops hl hspill hcommitted hnext
    obtain rfl := Except.ok.inj (hprepare.symm.trans hfed)
    exact ⟨hcommitted, hsnap, .inr ⟨pending, rfl, hpends⟩⟩
  next hspill =>
    -- then the level itself does not spill either, and no mark moves
    cases hfed
    have hnot := Bool.eq_false_of_not_eq_true hspill
    have habove : blLevelShouldSpill (n + 1) (l + 1) = false := by
      by_contra h
      exact hspill (blLevelShouldSpill_of_succ (Bool.eq_true_of_not_eq_false h) hl)
    have hsame : lowered ops (n + 1) (l + 1) (levels (l + 1)) = levels (l + 1) := by
      unfold lowered
      rw [habove]
      rfl
    rw [hsame, cut_succ_of_not_spill habove, tail_succ_of_not_spill hnot,
      cut_succ_of_not_spill hnot, nextStart_succ_of_not_spill hl hnot]
    exact ⟨hcovered.curr l hl, rfl, hcovered.next l hl⟩

/-- A spill keeps every bucket on its schedule. -/
theorem Covered.spill {levels' : Levels B N}
    (hspill : spillLevels ops (n + 1) 10 levels = .ok levels') :
    Covered ops covers pends first (n + 1) levels' ∧
      covers (levels' 0).curr (cut 0 (n + 1)) (n + 1) ∧
      levels' 0 = lowered ops (n + 1) 0 (levels 0) := by
  obtain ⟨hfed, hbottom⟩ := fed_of_spillLevels hspill
  have hlevel := fun l hl => hcovered.fed hcurr hops hl (hfed l hl)
  refine ⟨⟨fun l hl => (hlevel l hl).1, fun l hl => ?_, fun l hl => (hlevel l hl).2.2, ?_⟩, ?_,
    hbottom⟩
  · cases l with
    | zero =>
      rw [hbottom]
      exact hcovered.lowered_snap hcurr hops hl
    | succ l =>
      rw [(hlevel l hl).2.1]
      exact hcovered.lowered_snap hcurr hops hl
  · rw [hbottom, lowered_next]
    exact hcovered.idle
  · rw [hbottom]
    unfold lowered
    split
    next hspill =>
      have hdvd := (blLevelShouldSpill_iff (by omega)).mp hspill
      exact hops.empty _ _ (.inr (currEnd_before_spill (by omega) hdvd).le)
    next hspill =>
      rw [cut_succ_of_not_spill (Bool.eq_false_of_not_eq_true hspill)]
      exact hcurr

theorem Covered.spills
    (hresolve : ∀ pending a c, pends pending a c → ∃ bucket, ops.resolve pending = .ok bucket) :
    ∃ levels', spillLevels ops (n + 1) 10 levels = .ok levels' := by
  have hfeeds : ∀ l, l < 10 → ∃ level, Buckets.fed ops (n + 1) l
      (lowered ops (n + 1) (l + 1) (levels (l + 1))) (levels l).curr = .ok level := by
    intro l hl
    unfold Buckets.fed
    split
    next hspill =>
      have hcommits : ∃ level, (lowered ops (n + 1) (l + 1) (levels (l + 1))).commit ops =
          .ok level := by
        obtain ⟨hnone, -⟩ | ⟨pending, hsome, hpends⟩ := hcovered.next l hl
        · exact ⟨_, commit_none ((lowered_next _ _).trans hnone)⟩
        · obtain ⟨bucket, hbucket⟩ := hresolve pending _ _ hpends
          rw [commit_some ((lowered_next _ _).trans hsome), hbucket]
          exact ⟨_, rfl⟩
      obtain ⟨level, hcommit⟩ := hcommits
      obtain ⟨hcommitted, hnext, -⟩ := hcovered.committed hops hl hspill hcommit
      obtain ⟨pending, hprepare, -⟩ := hcovered.prepared hcurr hops hl hspill hcommitted hnext
      rw [hcommit]
      exact ⟨_, hprepare⟩
    · exact ⟨_, rfl⟩
  exact spillLevels_of_fed hfeeds

end

end

end Henyey.Buckets
