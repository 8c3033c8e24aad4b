import Mathlib.Data.Nat.ModEq
import Mathlib.Tactic.Ring

/-!
# When levels spill

Level `l` spills at each multiple of its half size. Which ledgers a bucket covers
is a function of the ledger alone: the marks `cut` and `tail` bound what the
buckets of a level hold.
-/

namespace Henyey.Buckets

def bucketListLevels : ℕ := 11

/-- Round down to a multiple of a power of two. -/
def blRoundDown (value modulus : ℕ) : ℕ :=
  if modulus = 0 then 0 else value - value % modulus

def blLevelHalf (level : ℕ) : ℕ := 2 ^ (2 * level + 1)

def blLevelSize (level : ℕ) : ℕ := 2 ^ (2 * (level + 1))

def blLevelShouldSpill (ledgerSeq level : ℕ) : Bool :=
  if level = bucketListLevels - 1 then false
  else ledgerSeq % blLevelHalf level = 0 || ledgerSeq % blLevelSize level = 0

def blKeepTombstoneEntries (level : ℕ) : Bool := level < bucketListLevels - 1

/-- A merge leaves `curr` out when the next spill will snap it. -/
def blShouldMergeWithEmptyCurr (ledgerSeq level : ℕ) : Bool :=
  if level = 0 then false
  else
    let mergeStartLedger := blRoundDown ledgerSeq (blLevelHalf (level - 1))
    let nextChangeLedger := (mergeStartLedger + blLevelHalf (level - 1)) % 2 ^ 32
    blLevelShouldSpill nextChangeLedger level

/-! ### Spills -/

variable {n l : ℕ}

theorem blLevelHalf_pos (l : ℕ) : 0 < blLevelHalf l := Nat.two_pow_pos _

theorem blLevelHalf_succ (l : ℕ) : blLevelHalf (l + 1) = 4 * blLevelHalf l := by
  unfold blLevelHalf
  rw [show 2 * (l + 1) + 1 = 2 * l + 1 + 2 from by ring, pow_add]
  ring

theorem blLevelHalf_dvd_succ (l : ℕ) : blLevelHalf l ∣ blLevelHalf (l + 1) :=
  ⟨4, by rw [blLevelHalf_succ]; ring⟩

theorem blLevelSize_eq (l : ℕ) : blLevelSize l = 2 * blLevelHalf l := by
  unfold blLevelSize blLevelHalf
  rw [show 2 * (l + 1) = 2 * l + 1 + 1 from by ring, pow_succ]
  ring

theorem blLevelShouldSpill_iff (hl : l < 10) :
    blLevelShouldSpill n l = true ↔ blLevelHalf l ∣ n := by
  have hne : l ≠ bucketListLevels - 1 := by
    unfold bucketListLevels
    omega
  unfold blLevelShouldSpill
  rw [if_neg hne, Bool.or_eq_true, decide_eq_true_iff, decide_eq_true_iff]
  constructor
  · rintro (h | h)
    · exact Nat.dvd_of_mod_eq_zero h
    · exact (Dvd.intro_left 2 (blLevelSize_eq l).symm).trans (Nat.dvd_of_mod_eq_zero h)
  · exact fun h => .inl (Nat.mod_eq_zero_of_dvd h)

theorem blLevelShouldSpill_last : blLevelShouldSpill n 10 = false := rfl

theorem blLevelShouldSpill_of_succ (hspill : blLevelShouldSpill n (l + 1) = true) (hl : l < 10) :
    blLevelShouldSpill n l = true := by
  rw [blLevelShouldSpill_iff hl]
  by_cases hlast : l + 1 = 10
  · rw [hlast, blLevelShouldSpill_last] at hspill
    cases hspill
  · rw [blLevelShouldSpill_iff (by omega)] at hspill
    exact (blLevelHalf_dvd_succ l).trans hspill

/-- The wrap of ledger numbers hides no spill. -/
theorem blLevelShouldSpill_mod (n l : ℕ) (hl : l ≤ 10) :
    blLevelShouldSpill (n % 2 ^ 32) l = blLevelShouldSpill n l := by
  by_cases hlast : l = 10
  · subst hlast
    rfl
  · have hlt : l < 10 := by omega
    have hdvd : blLevelHalf l ∣ 2 ^ 32 := Nat.pow_dvd_pow 2 (by omega)
    rw [Bool.eq_iff_iff, blLevelShouldSpill_iff hlt, blLevelShouldSpill_iff hlt,
      Nat.dvd_mod_iff hdvd]

/-! ### The last spill -/

/-- The last ledger at which a level has spilled. -/
def lastSpill (l n : ℕ) : ℕ := blRoundDown n (blLevelHalf l)

theorem lastSpill_eq (l n : ℕ) : lastSpill l n = n - n % blLevelHalf l := by
  unfold lastSpill blRoundDown
  rw [if_neg (blLevelHalf_pos l).ne']

theorem lastSpill_le (l n : ℕ) : lastSpill l n ≤ n := by
  rw [lastSpill_eq]
  exact Nat.sub_le _ _

theorem lastSpill_dvd (l n : ℕ) : blLevelHalf l ∣ lastSpill l n := by
  rw [lastSpill_eq]
  exact Nat.dvd_sub_mod n

theorem lastSpill_of_dvd (hdvd : blLevelHalf l ∣ n) : lastSpill l n = n := by
  rw [lastSpill_eq, Nat.mod_eq_zero_of_dvd hdvd, Nat.sub_zero]

/-- No later multiple of the half size is left out. -/
theorem le_lastSpill {m : ℕ} (hdvd : blLevelHalf l ∣ m) (hle : m ≤ n) : m ≤ lastSpill l n := by
  obtain ⟨k, rfl⟩ := hdvd
  have hk : k ≤ n / blLevelHalf l := (Nat.le_div_iff_mul_le (blLevelHalf_pos l)).mpr
    (by rwa [Nat.mul_comm])
  have hdiv := Nat.div_add_mod n (blLevelHalf l)
  have hmul := Nat.mul_le_mul_left (blLevelHalf l) hk
  rw [lastSpill_eq]
  omega

theorem lastSpill_before (hdvd : blLevelHalf l ∣ n + 1) :
    lastSpill l n + blLevelHalf l = n + 1 := by
  have hpos := blLevelHalf_pos l
  obtain ⟨k, hk⟩ := hdvd
  cases k with
  | zero => omega
  | succ k =>
    rw [Nat.mul_succ] at hk
    have hmod : n % blLevelHalf l = blLevelHalf l - 1 := by
      have hn : n = blLevelHalf l - 1 + blLevelHalf l * k := by omega
      rw [hn, Nat.add_mul_mod_self_left, Nat.mod_eq_of_lt (by omega)]
    rw [lastSpill_eq, hmod]
    omega

theorem lastSpill_succ_of_not_dvd (hdvd : ¬blLevelHalf l ∣ n + 1) :
    lastSpill l (n + 1) = lastSpill l n := by
  have hpos := blLevelHalf_pos l
  have hlt := Nat.mod_lt n hpos
  have hmod : (n + 1) % blLevelHalf l = n % blLevelHalf l + 1 := by
    rw [Nat.add_mod]
    by_cases hone : blLevelHalf l = 1
    · exact absurd (by rw [hone]; exact one_dvd _) hdvd
    · have h1 : 1 % blLevelHalf l = 1 := Nat.mod_eq_of_lt (by omega)
      rw [h1]
      refine Nat.mod_eq_of_lt ?_
      by_contra hge
      apply hdvd
      apply Nat.dvd_of_mod_eq_zero
      rw [Nat.add_mod, h1, show n % blLevelHalf l + 1 = blLevelHalf l from by omega, Nat.mod_self]
  have hle := Nat.mod_le n (blLevelHalf l)
  rw [lastSpill_eq, lastSpill_eq, hmod]
  omega

theorem blShouldMergeWithEmptyCurr_succ (hl : l < 10) :
    blShouldMergeWithEmptyCurr n (l + 1) =
      blLevelShouldSpill (lastSpill l n + blLevelHalf l) (l + 1) := by
  unfold blShouldMergeWithEmptyCurr
  rw [if_neg (Nat.succ_ne_zero l), Nat.add_sub_cancel]
  exact blLevelShouldSpill_mod _ _ hl

/-- The decision is the same at the spill and at any ledger after it. -/
theorem blShouldMergeWithEmptyCurr_lastSpill (hl : l < 10) :
    blShouldMergeWithEmptyCurr (lastSpill l n) (l + 1) = blShouldMergeWithEmptyCurr n (l + 1) := by
  rw [blShouldMergeWithEmptyCurr_succ hl, blShouldMergeWithEmptyCurr_succ hl,
    lastSpill_of_dvd (lastSpill_dvd l n)]

/-! ### What the buckets cover -/

/-- How far the data of a level lags behind. -/
def offset : ℕ → ℕ
  | 0 => 0
  | l + 1 => offset l + 2 * blLevelHalf l

/-- The ledger up to which a level has spilled: its snap ends and its `curr`
starts there. The last level never spills. -/
def cut (l n : ℕ) : ℕ := if l < 10 then lastSpill l n - offset l else 0

/-- The ledger where the snap of a level starts, and the `curr` above it ends. -/
def tail (l n : ℕ) : ℕ := if l < 10 then lastSpill l n - offset l - blLevelHalf l else 0

def currEnd : ℕ → ℕ → ℕ
  | 0, n => n + 1
  | l + 1, n => tail l n

/-- The ledger where a pending merge into a level above starts. -/
def nextStart (l n : ℕ) : ℕ :=
  if blShouldMergeWithEmptyCurr n (l + 1) then tail l n else cut (l + 1) n

theorem tail_le_cut (l n : ℕ) : tail l n ≤ cut l n := by
  unfold tail cut
  split
  · exact Nat.sub_le _ _
  · exact le_refl 0

theorem currEnd_before_spill (hl : l < 10) (hdvd : blLevelHalf l ∣ n + 1) :
    currEnd l n = cut l (n + 1) := by
  unfold cut
  rw [if_pos hl, lastSpill_of_dvd hdvd]
  cases l with
  | zero => rfl
  | succ l =>
    have hbefore := lastSpill_before ((blLevelHalf_dvd_succ l).trans hdvd)
    simp only [currEnd, tail, offset, if_pos (show l < 10 by omega)]
    omega

/-- Spilling moves the snap up to where `curr` started. -/
theorem tail_spill (hl : l < 10) (hdvd : blLevelHalf l ∣ n + 1) : tail l (n + 1) = cut l n := by
  have hbefore := lastSpill_before hdvd
  unfold tail cut
  rw [if_pos hl, if_pos hl, lastSpill_of_dvd hdvd]
  omega

theorem cut_succ_of_not_spill (hspill : blLevelShouldSpill (n + 1) l = false) :
    cut l (n + 1) = cut l n := by
  unfold cut
  split
  next hl =>
    rw [lastSpill_succ_of_not_dvd]
    intro hdvd
    rw [(blLevelShouldSpill_iff hl).mpr hdvd] at hspill
    cases hspill
  · rfl

theorem tail_succ_of_not_spill (hspill : blLevelShouldSpill (n + 1) l = false) :
    tail l (n + 1) = tail l n := by
  unfold tail
  split
  next hl =>
    rw [lastSpill_succ_of_not_dvd]
    intro hdvd
    rw [(blLevelShouldSpill_iff hl).mpr hdvd] at hspill
    cases hspill
  · rfl

/-- The marks between two levels are in order. -/
theorem cut_succ_le_tail (hl : l < 10) : cut (l + 1) n ≤ tail l n := by
  unfold cut tail
  split
  next hsucc =>
    have hle := le_lastSpill ((blLevelHalf_dvd_succ l).trans (lastSpill_dvd (l + 1) n))
      (lastSpill_le (l + 1) n)
    rw [offset]
    omega
  · exact Nat.zero_le _

theorem cut_le_currEnd (l n : ℕ) (hl : l ≤ 10) : cut l n ≤ currEnd l n := by
  cases l with
  | zero =>
    have hle := lastSpill_le 0 n
    simp only [cut, offset, currEnd, if_pos (show 0 < 10 by omega)]
    omega
  | succ l => exact cut_succ_le_tail hl

theorem blShouldMergeWithEmptyCurr_before_spill (hl : l < 10) (hdvd : blLevelHalf l ∣ n + 1) :
    blShouldMergeWithEmptyCurr n (l + 1) = blLevelShouldSpill (n + 1) (l + 1) := by
  rw [blShouldMergeWithEmptyCurr_succ hl, lastSpill_before hdvd]

theorem blShouldMergeWithEmptyCurr_of_not_spill (hl : l < 10)
    (hspill : blLevelShouldSpill (n + 1) l = false) :
    blShouldMergeWithEmptyCurr (n + 1) (l + 1) = blShouldMergeWithEmptyCurr n (l + 1) := by
  have hdvd : ¬blLevelHalf l ∣ n + 1 := fun hdvd => by
    rw [(blLevelShouldSpill_iff hl).mpr hdvd] at hspill
    cases hspill
  rw [blShouldMergeWithEmptyCurr_succ hl, blShouldMergeWithEmptyCurr_succ hl,
    lastSpill_succ_of_not_dvd hdvd]

theorem cut_anti {j : ℕ} (hjl : j ≤ l) (hl : l ≤ 10) : cut l n ≤ cut j n := by
  induction l with
  | zero =>
    obtain rfl : j = 0 := by omega
    exact le_rfl
  | succ l ih =>
    by_cases hlast : j = l + 1
    · rw [hlast]
    · exact ((cut_succ_le_tail (by omega)).trans (tail_le_cut l n)).trans (ih (by omega) (by omega))

/-- If the snap of a level covers no ledger, the level has not spilled. -/
theorem cut_le_of_idle {first : ℕ} (hidle : cut l n ≤ max (tail l n) first) : cut l n ≤ first := by
  have hpos := blLevelHalf_pos l
  unfold cut tail at hidle
  unfold cut
  split
  next hl =>
    rw [if_pos hl, if_pos hl] at hidle
    omega
  · exact Nat.zero_le _

/-- When a level spills, what was merged for it starts where its `curr` then
starts, snapped or not. -/
theorem nextStart_before_spill (hl : l < 10) (hdvd : blLevelHalf l ∣ n + 1) :
    nextStart l n = cut (l + 1) (n + 1) := by
  have hbefore := lastSpill_before hdvd
  unfold nextStart
  rw [blShouldMergeWithEmptyCurr_before_spill hl hdvd]
  cases hspill : blLevelShouldSpill (n + 1) (l + 1) with
  | false =>
    rw [if_neg (by simp)]
    exact (cut_succ_of_not_spill hspill).symm
  | true =>
    have hsucc : l + 1 < 10 := by
      by_contra hlast
      rw [show l + 1 = 10 by omega, blLevelShouldSpill_last] at hspill
      cases hspill
    rw [if_pos rfl]
    simp only [tail, cut, offset, if_pos hl, if_pos hsucc,
      lastSpill_of_dvd ((blLevelShouldSpill_iff hsucc).mp hspill)]
    omega

theorem nextStart_succ_of_not_spill (hl : l < 10)
    (hspill : blLevelShouldSpill (n + 1) l = false) : nextStart l (n + 1) = nextStart l n := by
  have habove : blLevelShouldSpill (n + 1) (l + 1) = false := by
    by_contra h
    rw [blLevelShouldSpill_of_succ (Bool.eq_true_of_not_eq_false h) hl] at hspill
    cases hspill
  unfold nextStart
  rw [blShouldMergeWithEmptyCurr_of_not_spill hl hspill, tail_succ_of_not_spill hspill,
    cut_succ_of_not_spill habove]

end Henyey.Buckets
