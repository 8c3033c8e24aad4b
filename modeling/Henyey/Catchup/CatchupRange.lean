import Mathlib.Order.Interval.Set.Basic
import Henyey.History.CheckpointBuilder

/-!
# Planning a catchup

From the last closed ledger, the target and the requested depth follows what is replayed,
and whether buckets are applied before the replay.
-/

namespace Henyey.History.CheckpointFrequency

variable (freq : CheckpointFrequency)

/-- Nothing comes before the first checkpoint, which starts at ledger 1. -/
def lastLedgerBeforeCheckpointContaining (seq : Nat) : Option Nat :=
  let start := freq.checkpointStart seq
  if start ≤ 1 then none else some (start - 1)

variable {seq : Nat}

theorem checkpointStart_le_self (hseq : 0 < seq) : freq.checkpointStart seq ≤ seq := by
  unfold checkpointStart
  split
  · exact hseq
  · exact Nat.div_mul_le_self seq freq.value

theorem lt_checkpointStart_add (hlarge : freq.value ≤ seq) :
    seq < freq.checkpointStart seq + freq.value := by
  rw [checkpointStart, if_neg (Nat.not_lt.mpr hlarge)]
  have hdiv := Nat.div_add_mod' seq freq.value
  have hmod := Nat.mod_lt seq freq.pos
  omega

theorem checkpointStart_of_lt (hsmall : seq < freq.value) : freq.checkpointStart seq = 1 :=
  if_pos hsmall

section

variable (hlarge : freq.value ≤ seq)
include hlarge

theorem le_checkpointStart : freq.value ≤ freq.checkpointStart seq := by
  rw [checkpointStart, if_neg (Nat.not_lt.mpr hlarge)]
  have hquotient : 1 ≤ seq / freq.value := (Nat.one_le_div_iff freq.pos).mpr hlarge
  calc freq.value = 1 * freq.value := (Nat.one_mul _).symm
    _ ≤ seq / freq.value * freq.value := Nat.mul_le_mul_right _ hquotient

theorem isCheckpointLedger_pred :
    freq.isCheckpointLedger (freq.checkpointStart seq - 1) = true := by
  have hstart := freq.le_checkpointStart hlarge
  have hpos := freq.pos
  rw [isCheckpointLedger, Nat.sub_add_cancel (hpos.trans_le hstart), checkpointStart,
    if_neg (Nat.not_lt.mpr hlarge), Nat.mul_mod_left, beq_self_eq_true]

theorem checkpointStart_eq_self
    (hstart : freq.checkpointStart seq = seq) : seq % freq.value = 0 := by
  rw [← hstart, checkpointStart, if_neg (Nat.not_lt.mpr hlarge), Nat.mul_mod_left]

end

end Henyey.History.CheckpointFrequency

namespace Henyey.Catchup

open History (CheckpointFrequency)

def genesisLedgerSeq : Nat := 1

/-- From `first`, `count` many ledgers. -/
structure LedgerRange where
  first : Nat
  count : Nat
  deriving DecidableEq

inductive CatchupMode where
  | minimal
  | complete
  | recent (n : Nat)
  deriving DecidableEq

/-- How many ledgers are to be replayed. -/
def CatchupMode.count : CatchupMode → Nat
  | .minimal => 0
  | .complete => 2 ^ 32 - 1
  | .recent n => n

inductive CatchupRange where
  | replayOnly (replay : LedgerRange)
  | bucketApplyAndReplay (checkpoint : Nat) (replay : LedgerRange)
  | bucketsOnly (checkpoint : Nat)
  deriving DecidableEq

inductive CatchupRangeError where
  | lclBeforeGenesis (lcl : Nat)
  | targetNotAfterLcl (target lcl : Nat)
  | targetNotAfterGenesis (target : Nat)
  /-- A failed assertion, or arithmetic beyond 32 bits. -/
  | panicked
  deriving DecidableEq

def plusOne (seq : Nat) : Except CatchupRangeError Nat :=
  if seq + 1 < 2 ^ 32 then .ok (seq + 1) else .error .panicked

def minus (total part : Nat) : Except CatchupRangeError Nat :=
  if part ≤ total then .ok (total - part) else .error .panicked

/-- `is_checkpoint_ledger`, which adds before it divides. -/
def isCheckpointLedgerChecked (freq : CheckpointFrequency) (seq : Nat) :
    Except CatchupRangeError Bool := do
  let next ← plusOne seq
  pure (next % freq.value == 0)

namespace CatchupRange

/-- `buckets_only`, with its assertion. -/
def newBucketsOnly (checkpoint : Nat) : Except CatchupRangeError CatchupRange :=
  if checkpoint > 0 then .ok (.bucketsOnly checkpoint) else .error .panicked

def newReplayOnly (replay : LedgerRange) : Except CatchupRangeError CatchupRange :=
  if replay.count > 0 ∧ replay.first > 0 then .ok (.replayOnly replay) else .error .panicked

def newBucketsAndReplay (checkpoint : Nat) (replay : LedgerRange) :
    Except CatchupRangeError CatchupRange := do
  if checkpoint > 0 ∧ replay.count > 0 then
    let next ← plusOne checkpoint
    if next = replay.first then .ok (.bucketApplyAndReplay checkpoint replay)
    else .error .panicked
  else .error .panicked

variable (freq : CheckpointFrequency)

/-- `count == 0 && is_checkpoint_ledger(target)` -/
def stopsAtBuckets (target count : Nat) : Except CatchupRangeError Bool :=
  if count = 0 then isCheckpointLedgerChecked freq target else .ok false

/-- The cases 3 to 5, where the replay does not cover everything since genesis. -/
def calculatePartial (lcl target count : Nat) (fullReplay : LedgerRange) :
    Except CatchupRangeError CatchupRange := do
  let bucketsOnlyAtTarget ← stopsAtBuckets freq target count
  if bucketsOnlyAtTarget then newBucketsOnly target
  else
    let targetStart ← plusOne (target - count)
    let firstInCheckpoint := freq.checkpointStart targetStart
    if firstInCheckpoint ≤ genesisLedgerSeq ∧ lcl > genesisLedgerSeq then newReplayOnly fullReplay
    else if firstInCheckpoint ≤ genesisLedgerSeq ∧ lcl = genesisLedgerSeq then
      let targetIsCheckpoint ← isCheckpointLedgerChecked freq target
      if targetIsCheckpoint then newBucketsOnly target else newReplayOnly fullReplay
    else
      match freq.lastLedgerBeforeCheckpointContaining targetStart with
      | some applyBucketsAt =>
        let replayCount ← minus target applyBucketsAt
        newBucketsAndReplay applyBucketsAt { first := firstInCheckpoint, count := replayCount }
      | none => .error .panicked

def calculate (lcl target : Nat) (mode : CatchupMode) : Except CatchupRangeError CatchupRange :=
  if lcl < genesisLedgerSeq then .error (.lclBeforeGenesis lcl)
  else if target ≤ lcl then .error (.targetNotAfterLcl target lcl)
  else if target ≤ genesisLedgerSeq then .error (.targetNotAfterGenesis target)
  else do
    let count := mode.count
    let fullReplayCount ← minus target lcl
    let first ← plusOne lcl
    let fullReplay : LedgerRange := { first, count := fullReplayCount }
    if mode = .complete ∧ lcl = genesisLedgerSeq then newReplayOnly fullReplay
    else if lcl > genesisLedgerSeq then newReplayOnly fullReplay
    else if count ≥ fullReplayCount then newReplayOnly fullReplay
    else calculatePartial freq lcl target count fullReplay

/-! ### What a plan does -/

def replayed : CatchupRange → Set Nat
  | .replayOnly replay | .bucketApplyAndReplay _ replay =>
    Set.Ico replay.first (replay.first + replay.count)
  | .bucketsOnly _ => ∅

/-- Where buckets are applied. -/
def bucketsAt : CatchupRange → Option Nat
  | .replayOnly _ => none
  | .bucketApplyAndReplay checkpoint _ | .bucketsOnly checkpoint => some checkpoint

/-- The ledger whose state the replay starts from. -/
def base (lcl : Nat) (range : CatchupRange) : Nat :=
  range.bucketsAt.getD lcl

end CatchupRange

/-- The target is a checkpoint ledger, and the requested ledgers are not all since genesis but
start inside the first checkpoint, of which there are no buckets. -/
def StartsInFirstCheckpoint (freq : CheckpointFrequency) (lcl target count : Nat) : Prop :=
  lcl = genesisLedgerSeq ∧ count < target - lcl ∧ freq.isCheckpointLedger target = true ∧
    target - count + 1 < freq.value

def TestsLastLedger (freq : CheckpointFrequency) (lcl target count : Nat) : Prop :=
  lcl = genesisLedgerSeq ∧ target + 1 = 2 ^ 32 ∧ count < target - lcl ∧
    (count = 0 ∨ target - count + 1 < freq.value)

/-- What a plan promises. -/
structure Planned (freq : CheckpointFrequency) (lcl target count : Nat) (range : CatchupRange) :
    Prop where
  /-- Without a gap, up to the target. -/
  gapless : range.replayed = Set.Ioc (range.base lcl) target
  base_le : range.base lcl ≤ target
  buckets : ∀ checkpoint ∈ range.bucketsAt, lcl = genesisLedgerSeq ∧
    freq.isCheckpointLedger checkpoint = true ∧ checkpoint ≤ target
  covers : ¬ StartsInFirstCheckpoint freq lcl target count →
    Set.Ioc (target - min count (target - lcl)) target ⊆ range.replayed
  frugal : range.base lcl = lcl ∨ target - range.base lcl < min count (target - lcl) + freq.value

/-! ### Every plan keeps its promises -/

section Planning

variable {freq : CheckpointFrequency} {lcl target count : Nat}

theorem plusOne_eq {seq : Nat} (hseq : seq + 1 < 2 ^ 32) : plusOne seq = .ok (seq + 1) :=
  if_pos hseq

theorem isCheckpointLedgerChecked_eq {seq : Nat} (hseq : seq + 1 < 2 ^ 32) :
    isCheckpointLedgerChecked freq seq = .ok (freq.isCheckpointLedger seq) := by
  rw [isCheckpointLedgerChecked, plusOne_eq hseq]
  rfl

theorem ioc_eq_ico {base : Nat} (hbase : base ≤ target) :
    Set.Ico (base + 1) (base + 1 + (target - base)) = Set.Ioc base target := by
  ext seq
  simp only [Set.mem_Ico, Set.mem_Ioc]
  omega

theorem planned_fullReplay (hafter : lcl < target) :
    Planned freq lcl target count
      (.replayOnly { first := lcl + 1, count := target - lcl }) where
  gapless := ioc_eq_ico hafter.le
  base_le := hafter.le
  buckets := nofun
  covers _ := by
    rw [CatchupRange.replayed, ioc_eq_ico hafter.le]
    exact Set.Ioc_subset_Ioc_left (by omega)
  frugal := Or.inl rfl

/-- Nothing is replayed, because nothing is asked for or no buckets precede what is. -/
theorem planned_bucketsOnly (hlcl : lcl = genesisLedgerSeq) (hcount : count < target - lcl)
    (hcheckpoint : freq.isCheckpointLedger target = true)
    (hnothing : count = 0 ∨ target - count + 1 < freq.value) :
    Planned freq lcl target count (.bucketsOnly target) where
  gapless := (Set.Ioc_self target).symm
  base_le := le_rfl
  buckets := by
    rintro _ ⟨⟩
    exact ⟨hlcl, hcheckpoint, le_rfl⟩
  covers hstarts := by
    rcases hnothing with rfl | hfirst
    · simp
    · exact absurd ⟨hlcl, hcount, hcheckpoint, hfirst⟩ hstarts
  frugal := by
    have hpos := freq.pos
    refine Or.inr ?_
    change target - target < _
    omega

theorem planned_bucketsAndReplay {start : Nat} (hlcl : lcl = genesisLedgerSeq)
    (hstart : start = freq.checkpointStart (target - count + 1)) (hcount : count < target - lcl)
    (hlarge : freq.value ≤ target - count + 1) (hpos : 1 < start) (hle : start ≤ target) :
    Planned freq lcl target count
      (.bucketApplyAndReplay (start - 1) { first := start, count := target - (start - 1) }) := by
  have hself := freq.checkpointStart_le_self (Nat.succ_pos (target - count))
  have hnear := freq.lt_checkpointStart_add hlarge
  rw [← hstart] at hself hnear
  have hreplayed : CatchupRange.replayed (.bucketApplyAndReplay (start - 1)
      { first := start, count := target - (start - 1) }) = Set.Ioc (start - 1) target := by
    have hbefore : start - 1 ≤ target := by omega
    rw [← ioc_eq_ico hbefore, Nat.sub_add_cancel hpos.le]
    rfl
  exact {
    gapless := hreplayed
    base_le := by
      change start - 1 ≤ target
      omega
    buckets := by
      rintro _ ⟨⟩
      refine ⟨hlcl, ?_, by omega⟩
      rw [hstart]
      exact freq.isCheckpointLedger_pred hlarge
    covers := by
      intro _
      rw [hreplayed]
      exact Set.Ioc_subset_Ioc_left (by omega)
    frugal := by
      refine Or.inr ?_
      change target - (start - 1) < _
      omega }

theorem calculatePartial_planned (hfreq : 2 ≤ freq.value) (hlcl : lcl = genesisLedgerSeq)
    (htarget : target < 2 ^ 32) (hcount : count < target - lcl)
    (htests : ¬ TestsLastLedger freq lcl target count) :
    ∃ range, CatchupRange.calculatePartial freq lcl target count
        { first := lcl + 1, count := target - lcl } = .ok range ∧
      Planned freq lcl target count range := by
  have hafter : lcl < target := by omega
  have hfull : CatchupRange.newReplayOnly { first := lcl + 1, count := target - lcl } =
      .ok (.replayOnly { first := lcl + 1, count := target - lcl }) :=
    if_pos ⟨by simp only [gt_iff_lt]; omega, Nat.succ_pos lcl⟩
  have hbuckets : CatchupRange.newBucketsOnly target = .ok (.bucketsOnly target) :=
    if_pos (Nat.zero_lt_of_lt hafter)
  -- Whether the target is a checkpoint ledger is asked only where the answer fits.
  have hfits : count = 0 ∨ target - count + 1 < freq.value → target + 1 < 2 ^ 32 := by
    intro hasked
    by_contra hlast
    exact htests ⟨hlcl, by omega, hcount, hasked⟩
  have hstartFits : target - count + 1 < 2 ^ 32 := by
    rcases Nat.eq_zero_or_pos count with hzero | hpos
    · have hroom := hfits (Or.inl hzero)
      omega
    · omega
  unfold CatchupRange.calculatePartial
  by_cases hnone : count = 0 ∧ freq.isCheckpointLedger target = true
  · refine ⟨_, ?_, planned_bucketsOnly hlcl hcount hnone.2 (Or.inl hnone.1)⟩
    rw [CatchupRange.stopsAtBuckets, if_pos hnone.1,
      isCheckpointLedgerChecked_eq (hfits (Or.inl hnone.1)), hnone.2]
    exact hbuckets
  · have hcase3 : CatchupRange.stopsAtBuckets freq target count = .ok false := by
      unfold CatchupRange.stopsAtBuckets
      split
      next hzero =>
        rw [isCheckpointLedgerChecked_eq (hfits (Or.inl hzero))]
        exact congrArg _ (Bool.eq_false_iff.mpr fun hcheckpoint => hnone ⟨hzero, hcheckpoint⟩)
      · rfl
    rw [hcase3, plusOne_eq hstartFits]
    simp only [bind, Except.bind, Bool.false_eq_true, if_false]
    rw [if_neg (by omega)]
    by_cases hfirst : target - count + 1 < freq.value
    · -- The requested ledgers start inside the first checkpoint.
      rw [if_pos ⟨(freq.checkpointStart_of_lt hfirst).le, hlcl⟩,
        isCheckpointLedgerChecked_eq (hfits (Or.inr hfirst))]
      cases hcheckpoint : freq.isCheckpointLedger target with
      | true => exact ⟨_, hbuckets, planned_bucketsOnly hlcl hcount hcheckpoint (Or.inr hfirst)⟩
      | false => exact ⟨_, hfull, planned_fullReplay hafter⟩
    · have hlarge := Nat.not_lt.mp hfirst
      have hstart := freq.le_checkpointStart hlarge
      have hself : freq.checkpointStart (target - count + 1) ≤ target - count + 1 :=
        freq.checkpointStart_le_self (Nat.succ_pos (target - count))
      have hpos : 1 < freq.checkpointStart (target - count + 1) := by omega
      have hle : freq.checkpointStart (target - count + 1) ≤ target := by
        rcases Nat.eq_zero_or_pos count with hzero | hcountPos
        · -- Otherwise the target would be a checkpoint ledger.
          by_contra hbeyond
          have hsame : freq.checkpointStart (target - count + 1) = target - count + 1 := by omega
          have hmod := freq.checkpointStart_eq_self hlarge hsame
          rw [hzero, Nat.sub_zero] at hmod
          exact hnone ⟨hzero, by rw [CheckpointFrequency.isCheckpointLedger, hmod]; rfl⟩
        · omega
      refine ⟨_, ?_, planned_bucketsAndReplay hlcl rfl hcount hlarge hpos hle⟩
      have hsome : freq.lastLedgerBeforeCheckpointContaining (target - count + 1) =
          some (freq.checkpointStart (target - count + 1) - 1) :=
        if_neg (Nat.not_le.mpr hpos)
      have hminus : minus target (freq.checkpointStart (target - count + 1) - 1) =
          .ok (target - (freq.checkpointStart (target - count + 1) - 1)) :=
        if_pos (by omega)
      have hnext : plusOne (freq.checkpointStart (target - count + 1) - 1) =
          .ok (freq.checkpointStart (target - count + 1)) := by
        rw [plusOne_eq (by omega), Nat.sub_add_cancel hpos.le]
      rw [if_neg (by unfold genesisLedgerSeq; omega), hsome]
      simp only [hminus, CatchupRange.newBucketsAndReplay, hnext, bind, Except.bind, if_true]
      exact if_pos ⟨by omega, by omega⟩

/-- Unless the very last ledger is tested for being a checkpoint ledger, there is a plan. It
replays without a gap up to the target, and with it the requested ledgers, unless they are not
all since genesis, start inside the first checkpoint and end on a checkpoint ledger. -/
theorem calculate_planned (hfreq : 2 ≤ freq.value) (mode : CatchupMode)
    (hlcl : genesisLedgerSeq ≤ lcl) (hafter : lcl < target) (htarget : target < 2 ^ 32)
    (htests : ¬ TestsLastLedger freq lcl target mode.count) :
    ∃ range, CatchupRange.calculate freq lcl target mode = .ok range ∧
      Planned freq lcl target mode.count range := by
  have hfull : CatchupRange.newReplayOnly { first := lcl + 1, count := target - lcl } =
      .ok (.replayOnly { first := lcl + 1, count := target - lcl }) :=
    if_pos ⟨by simp only [gt_iff_lt]; omega, Nat.succ_pos lcl⟩
  have hminus : minus target lcl = .ok (target - lcl) := if_pos hafter.le
  have hplus : plusOne lcl = .ok (lcl + 1) := plusOne_eq (by omega)
  unfold CatchupRange.calculate
  rw [if_neg (Nat.not_lt.mpr hlcl), if_neg (Nat.not_le.mpr hafter), if_neg (by omega), hminus,
    hplus]
  simp only [bind, Except.bind]
  by_cases hall : (mode = .complete ∧ lcl = genesisLedgerSeq) ∨ lcl > genesisLedgerSeq ∨
      mode.count ≥ target - lcl
  · refine ⟨_, ?_, planned_fullReplay hafter⟩
    rcases hall with hcomplete | hpast | hcount
    · rw [if_pos hcomplete, hfull]
    · rw [if_pos hpast, hfull, ite_self]
    · rw [if_pos hcount, hfull, ite_self, ite_self]
  · rw [not_or, not_or] at hall
    obtain ⟨hcomplete, hpast, hcount⟩ := hall
    rw [if_neg hcomplete, if_neg hpast, if_neg hcount]
    exact calculatePartial_planned hfreq (by omega) htarget (Nat.not_le.mp hcount) htests

theorem calculate_planned_recent : ∃ range,
    CatchupRange.calculate History.defaultCheckpointFrequency 1 200 (.recent 50) = .ok range ∧
      Planned History.defaultCheckpointFrequency 1 200 50 range :=
  calculate_planned (by decide) (.recent 50) (by decide) (by decide) (by decide)
    fun htests => absurd htests.2.1 (by decide)

/-- Behind genesis everything is replayed, whatever was asked for. -/
theorem calculate_replays_unrequested : ∃ range,
    CatchupRange.calculate History.defaultCheckpointFrequency 100 1000 .minimal = .ok range ∧
      range.replayed = Set.Ioc 100 1000 ∧
      ¬ (1000 - range.base 100 < min CatchupMode.minimal.count (1000 - 100) +
          History.defaultCheckpointFrequency.value ∨ range.base 100 = genesisLedgerSeq) :=
  ⟨.replayOnly { first := 101, count := 900 }, rfl,
    ioc_eq_ico (show 100 ≤ 1000 by decide), by decide⟩

end Planning

end Henyey.Catchup
