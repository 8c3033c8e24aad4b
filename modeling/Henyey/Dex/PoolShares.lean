import Mathlib.Algebra.BigOperators.Group.Finset.Piecewise
import Mathlib.Algebra.Order.BigOperators.Group.Finset
import Henyey.Dex.PoolSwap
import Henyey.Foundation.Failing

/-!
# The shares of pools

Deposits mint shares, withdrawals and redemptions burn them and path payments trade. All of them
round in favour of the pool, so that the shares never lose in value.
-/

namespace Henyey.Dex

open Foundation Function

def bigDivideChecked (a b c : Int) (round : Round) : Except PoolFault (Option Int) :=
  if c ≤ 0 then .error (.internal "denominator must be positive")
  else
    let result := match round with
      | .down => (a * b).tdiv c
      | .up => if a * b = 0 then 0 else (a * b + c - 1).tdiv c
    .ok (if result > i64Max then none else some result)

def bigDivide (a b c : Int) (round : Round) : Except PoolFault Int := do
  return (← bigDivideChecked a b c round).getD 0

def squareRootFrom (product low high : Int) : Int :=
  if low ≤ high then
    let mid := (low + high) / 2
    if mid * mid = product then mid
    else if mid * mid < product then squareRootFrom product (mid + 1) high
    else squareRootFrom product low (mid - 1)
  else max high 0
termination_by (high + 1 - low).toNat

def bigSquareRoot (a b : Int) : Int :=
  squareRootFrom (a * b) 0 (min (a * b) i64Max)

def isBadPrice (amountA amountB : Int) (minPrice maxPrice : Price) : Bool :=
  amountA = 0 ∨ amountB = 0 ∨ amountA * minPrice.d < amountB * minPrice.n ∨
    amountA * maxPrice.d > amountB * maxPrice.n

inductive DepositOutcome where
  | success (a b shares : Int)
  | underfunded
  | badPrice
  | lineFull

/-- What a deposit asks for, and what its source has. -/
structure PoolDeposit where
  maxAmountA : Int
  maxAmountB : Int
  availableA : Int
  availableB : Int
  availablePoolShareLimit : Int
  minPrice : Price
  maxPrice : Price

/-- The checks after the amounts are known. -/
def PoolDeposit.settle (request : PoolDeposit) (a b shares : Int) : DepositOutcome :=
  if request.availableA < a ∨ request.availableB < b then .underfunded
  else if isBadPrice a b request.minPrice request.maxPrice then .badPrice
  else if request.availablePoolShareLimit < shares then .lineFull
  else .success a b shares

def depositIntoEmptyPool (request : PoolDeposit) : DepositOutcome :=
  request.settle request.maxAmountA request.maxAmountB
    (bigSquareRoot request.maxAmountA request.maxAmountB)

def depositIntoNonEmptyPool (request : PoolDeposit) (reserveA reserveB totalShares : Int) :
    Except PoolFault DepositOutcome := do
  let sharesA ← bigDivideChecked totalShares request.maxAmountA reserveA .down
  let sharesB ← bigDivideChecked totalShares request.maxAmountB reserveB .down
  let poolShares ← match sharesA, sharesB with
    | some a, some b => .ok (min a b)
    | some a, none => .ok a
    | none, some b => .ok b
    | none, none => .error (.internal "both shares calculations overflowed")
  let amountA ← bigDivide poolShares reserveA totalShares .up
  let amountB ← bigDivide poolShares reserveB totalShares .up
  return request.settle amountA amountB poolShares

def depositIntoPool {α : Type} (request : PoolDeposit) (pool : LiquidityPool α)
    (totalShares : Int) : Except PoolFault DepositOutcome :=
  if totalShares = 0 then .ok (depositIntoEmptyPool request)
  else depositIntoNonEmptyPool request pool.reserveA pool.reserveB totalShares

def getPoolWithdrawalAmount (amount totalShares reserve : Int) : Except PoolFault Int :=
  bigDivide amount reserve totalShares .down

/-! ### Rounding -/

theorem squareRootFrom_spec {product low high : Int} (hlow : 0 ≤ low) (hle : low ≤ high + 1)
    (hbelow : (low - 1) * (low - 1) ≤ product ∨ low = 0) (hnonneg : 0 ≤ product)
    (habove : product < (high + 1) * (high + 1)) :
    0 ≤ squareRootFrom product low high ∧
      squareRootFrom product low high * squareRootFrom product low high ≤ product ∧
      product < (squareRootFrom product low high + 1) * (squareRootFrom product low high + 1) := by
  fun_induction squareRootFrom product low high with
  | case1 low high hrange mid hsquare =>
    have hmid : 0 ≤ mid := by omega
    exact ⟨hmid, hsquare.le, by linarith⟩
  | case2 low high hrange mid hne hsmall ih =>
    exact ih (by omega) (by omega) (.inl (by simpa using hsmall.le)) habove
  | case3 low high hrange mid hne hlarge ih =>
    exact ih hlow (by omega) hbelow (by simpa using lt_of_le_of_ne (not_lt.mp hlarge) (Ne.symm hne))
  | case4 low high hempty =>
    obtain rfl : high = low - 1 := by omega
    have hpos : 0 < low := by
      refine hlow.lt_of_ne fun hzero => ?_
      simp only [← hzero] at habove
      omega
    obtain hbelow | rfl := hbelow
    · rw [max_eq_left (by omega)]
      exact ⟨by omega, hbelow, habove⟩
    · omega

/-- The square root of the product, rounded down. -/
theorem bigSquareRoot_spec {a b : Int} (ha : Amount a) (hb : Amount b) (hapos : 0 < a)
    (hbpos : 0 < b) : 0 < bigSquareRoot a b ∧ bigSquareRoot a b * bigSquareRoot a b ≤ a * b := by
  unfold bigSquareRoot
  have hproduct : 0 < a * b := mul_pos hapos hbpos
  have hle := mul_amounts_le ha hb
  have hmax : 0 < i64Max := by decide
  have habove : a * b < (min (a * b) i64Max + 1) * (min (a * b) i64Max + 1) := by
    rcases min_choice (a * b) i64Max with hmin | hmin <;> rw [hmin] <;> nlinarith
  obtain ⟨hnonneg, hlow, hhigh⟩ := squareRootFrom_spec le_rfl
    (by have := le_min hproduct.le hmax.le; omega) (.inr rfl) hproduct.le habove
  refine ⟨hnonneg.lt_of_ne fun hzero => ?_, hlow⟩
  rw [← hzero] at hhigh
  omega

theorem bigDivideChecked_eq {a b c : Int} {round : Round} (hc : 0 < c) (hnonneg : 0 ≤ a * b) :
    bigDivideChecked a b c round =
      let result := match round with | .down => a * b / c | .up => ceilDiv (a * b) c
      .ok (if result > i64Max then none else some result) := by
  unfold bigDivideChecked
  rw [if_neg (not_le.mpr hc)]
  cases round
  · simp only [Int.tdiv_eq_ediv_of_nonneg hnonneg]
  · by_cases hzero : a * b = 0
    · simp [hzero, ceilDiv_zero hc]
    · simp [hzero, ceilDiv, Int.tdiv_eq_ediv_of_nonneg (show 0 ≤ a * b + c - 1 by omega)]

/-- A quotient within a bound does not overflow. -/
theorem bigDivide_eq {a b c bound : Int} {round : Round} (hc : 0 < c) (hnonneg : 0 ≤ a * b)
    (hle : a * b ≤ bound * c) (hbound : bound ≤ i64Max) : bigDivide a b c round =
      .ok (match round with | .down => a * b / c | .up => ceilDiv (a * b) c) := by
  have hup : ceilDiv (a * b) c ≤ i64Max := ((ceilDiv_le_iff hc).mpr hle).trans hbound
  have hdown : a * b / c ≤ i64Max :=
    (Int.ediv_le_of_le_mul hc hle).trans hbound
  rw [bigDivide, bigDivideChecked_eq hc hnonneg, ok_bind]
  cases round <;> simp [not_lt.mpr hup, not_lt.mpr hdown] <;> rfl

/-- Amounts to which shares entitle, as far as a deposit pays for them. -/
structure PoolDeposit.Fair (request : PoolDeposit) (reserveA reserveB totalShares a b shares : Int) :
    Prop where
  shares_pos : 0 < shares
  a_nonneg : 0 ≤ a
  b_nonneg : 0 ≤ b
  a_le : a ≤ request.maxAmountA
  b_le : b ≤ request.maxAmountB
  worth_a : reserveA * shares ≤ a * totalShares
  worth_b : reserveB * shares ≤ b * totalShares
  first : totalShares = 0 → shares * shares ≤ a * b

theorem PoolDeposit.settle_success {request : PoolDeposit} {a b shares a' b' shares' : Int}
    (hsuccess : request.settle a b shares = .success a' b' shares') :
    a' = a ∧ b' = b ∧ shares' = shares ∧ a ≠ 0 ∧ b ≠ 0 := by
  unfold settle at hsuccess
  split_ifs at hsuccess with hfunds hprice hlimit
  injection hsuccess with ha hb hshares
  simp only [isBadPrice, decide_eq_true_eq, not_or] at hprice
  exact ⟨ha.symm, hb.symm, hshares.symm, hprice.1, hprice.2.1⟩

/-- With the reserves that the shares guarantee, one of the share calculations is in range and no
amount is above what is offered. -/
theorem depositIntoNonEmptyPool_spec {request : PoolDeposit} {reserveA reserveB totalShares : Int}
    (hmaxA : Amount request.maxAmountA) (hmaxB : Amount request.maxAmountB) (hA : 0 < reserveA)
    (hB : 0 < reserveB) (hshares : 0 < totalShares)
    (hproduct : totalShares * totalShares ≤ reserveA * reserveB) :
    ∃ outcome, depositIntoNonEmptyPool request reserveA reserveB totalShares = .ok outcome ∧
      ∀ a b shares, outcome = .success a b shares →
        request.Fair reserveA reserveB totalShares a b shares := by
  obtain ⟨poolShares, hpool, hnonneg, hworthA, hworthB⟩ : ∃ poolShares,
      depositIntoNonEmptyPool request reserveA reserveB totalShares = (do
        let amountA ← bigDivide poolShares reserveA totalShares .up
        let amountB ← bigDivide poolShares reserveB totalShares .up
        return request.settle amountA amountB poolShares) ∧ 0 ≤ poolShares ∧
      poolShares * reserveA ≤ request.maxAmountA * totalShares ∧
      poolShares * reserveB ≤ request.maxAmountB * totalShares := by
    have hquotA : 0 ≤ totalShares * request.maxAmountA / reserveA :=
      Int.ediv_nonneg (mul_nonneg hshares.le hmaxA.nonneg) hA.le
    have hquotB : 0 ≤ totalShares * request.maxAmountB / reserveB :=
      Int.ediv_nonneg (mul_nonneg hshares.le hmaxB.nonneg) hB.le
    have hmulA : totalShares * request.maxAmountA / reserveA * reserveA ≤
        totalShares * request.maxAmountA := Int.ediv_mul_le _ hA.ne'
    have hmulB : totalShares * request.maxAmountB / reserveB * reserveB ≤
        totalShares * request.maxAmountB := Int.ediv_mul_le _ hB.ne'
    rw [depositIntoNonEmptyPool, bigDivideChecked_eq hA (mul_nonneg hshares.le hmaxA.nonneg),
      bigDivideChecked_eq hB (mul_nonneg hshares.le hmaxB.nonneg), ok_bind, ok_bind]
    dsimp only
    generalize totalShares * request.maxAmountA / reserveA = quotA at *
    generalize totalShares * request.maxAmountB / reserveB = quotB at *
    by_cases hlargeA : quotA > i64Max <;> by_cases hlargeB : quotB > i64Max
    · -- Both reserves would be smaller than the number of shares.
      have hless {quot reserve amount : Int} (hreserve : 0 < reserve) (hamount : amount ≤ i64Max)
          (hlarge : quot > i64Max) (hmul : quot * reserve ≤ totalShares * amount) :
          reserve < totalShares := by
        refine lt_of_mul_lt_mul_left ?_ (show 0 ≤ i64Max by decide)
        calc i64Max * reserve < quot * reserve := mul_lt_mul_of_pos_right hlarge hreserve
          _ ≤ totalShares * amount := hmul
          _ ≤ totalShares * i64Max := mul_le_mul_of_nonneg_left hamount hshares.le
          _ = i64Max * totalShares := mul_comm _ _
      have hlessA := hless hA hmaxA.le_max hlargeA hmulA
      have hlessB := hless hB hmaxB.le_max hlargeB hmulB
      exact absurd hproduct (not_le.mpr (mul_lt_mul'' hlessA hlessB hA.le hB.le))
    · refine ⟨quotB, by rw [if_pos hlargeA, if_neg hlargeB]; rfl, hquotB, ?_, ?_⟩ <;> nlinarith
    · refine ⟨quotA, by rw [if_neg hlargeA, if_pos hlargeB]; rfl, hquotA, ?_, ?_⟩ <;> nlinarith
    · refine ⟨min quotA quotB, by rw [if_neg hlargeA, if_neg hlargeB]; rfl, le_min hquotA hquotB,
        ?_, ?_⟩
      · have := min_le_left quotA quotB
        nlinarith
      · have := min_le_right quotA quotB
        nlinarith
  refine ⟨_, by rw [hpool, bigDivide_eq hshares (mul_nonneg hnonneg hA.le) hworthA hmaxA.le_max,
    ok_bind, bigDivide_eq hshares (mul_nonneg hnonneg hB.le) hworthB hmaxB.le_max, ok_bind]; rfl,
    fun a b shares hsuccess => ?_⟩
  obtain ⟨rfl, rfl, rfl, hzero, -⟩ := PoolDeposit.settle_success hsuccess
  refine ⟨hnonneg.lt_of_ne ?_, ceilDiv_nonneg hshares (mul_nonneg hnonneg hA.le),
    ceilDiv_nonneg hshares (mul_nonneg hnonneg hB.le), (ceilDiv_le_iff hshares).mpr hworthA,
    (ceilDiv_le_iff hshares).mpr hworthB, ?_, ?_, fun hnone => absurd hnone hshares.ne'⟩
  · rintro rfl
    rw [zero_mul, ceilDiv_zero hshares] at hzero
    exact hzero rfl
  · rw [mul_comm]
    exact le_ceilDiv_mul _ hshares
  · rw [mul_comm]
    exact le_ceilDiv_mul _ hshares

theorem getPoolWithdrawalAmount_eq {amount totalShares reserve : Int} (hreserve : Amount reserve)
    (hshares : 0 < totalShares) (hnonneg : 0 ≤ amount) (hle : amount ≤ totalShares) :
    getPoolWithdrawalAmount amount totalShares reserve = .ok (amount * reserve / totalShares) ∧
      amount * reserve / totalShares ≤ reserve := by
  have hbound : amount * reserve ≤ reserve * totalShares := by
    rw [mul_comm reserve]
    exact mul_le_mul_of_nonneg_right hle hreserve.nonneg
  exact ⟨bigDivide_eq hshares (mul_nonneg hnonneg hreserve.nonneg) hbound hreserve.le_max, Int.ediv_le_of_le_mul hshares hbound⟩

/-! ### One pool -/

/-- Nobody holds shares that the reserves do not back. -/
structure Backed {κ : Type} (reserveA reserveB totalShares : Int) (shares : κ → Int) : Prop where
  amountA : Amount reserveA
  amountB : Amount reserveB
  amount : Amount totalShares
  product : totalShares * totalShares ≤ reserveA * reserveB
  empty : totalShares = 0 → reserveA = 0 ∧ reserveB = 0
  held : ∀ account, 0 ≤ shares account
  sum : ∃ holders : Finset κ, (∀ account ∉ holders, shares account = 0) ∧
    ∑ account ∈ holders, shares account = totalShares

section Backed

variable {κ : Type} {reserveA reserveB totalShares a b d : Int} {shares : κ → Int}
  (hbacked : Backed reserveA reserveB totalShares shares)
include hbacked

theorem Backed.reserves_pos (hshares : totalShares ≠ 0) :
    0 < reserveA ∧ 0 < reserveB ∧ 0 < totalShares := by
  have hpos : 0 < totalShares := hbacked.amount.nonneg.lt_of_ne (Ne.symm hshares)
  have hproduct : 0 < reserveA * reserveB := (mul_pos hpos hpos).trans_le hbacked.product
  exact ⟨pos_of_mul_pos_left hproduct hbacked.amountB.nonneg,
    pos_of_mul_pos_right hproduct hbacked.amountA.nonneg, hpos⟩

theorem Backed.le_total (account : κ) : shares account ≤ totalShares := by
  obtain ⟨holders, hzero, hsum⟩ := hbacked.sum
  by_cases hmem : account ∈ holders
  · exact hsum ▸ Finset.single_le_sum (fun other _ => hbacked.held other) hmem
  · exact hzero account hmem ▸ hbacked.amount.nonneg

/-- No deposit fails for its arithmetic, and none is charged more than it offers. -/
theorem Backed.deposit_fair {α : Type} {pool : LiquidityPool α} (request : PoolDeposit)
    (hreserves : pool.reserveA = reserveA ∧ pool.reserveB = reserveB)
    (hmaxA : 0 < request.maxAmountA ∧ request.maxAmountA ≤ i64Max)
    (hmaxB : 0 < request.maxAmountB ∧ request.maxAmountB ≤ i64Max) :
    ∃ outcome, depositIntoPool request pool totalShares = .ok outcome ∧
      ∀ a b shares, outcome = .success a b shares →
        request.Fair reserveA reserveB totalShares a b shares := by
  obtain ⟨rfl, rfl⟩ := hreserves
  have hamountA : Amount request.maxAmountA := ⟨hmaxA.1.le, hmaxA.2⟩
  have hamountB : Amount request.maxAmountB := ⟨hmaxB.1.le, hmaxB.2⟩
  unfold depositIntoPool
  split
  next hnone =>
    refine ⟨_, rfl, fun a b shares hsuccess => ?_⟩
    obtain ⟨rfl, rfl, rfl, -⟩ := PoolDeposit.settle_success hsuccess
    obtain ⟨hpos, hroot⟩ := bigSquareRoot_spec hamountA hamountB hmaxA.1 hmaxB.1
    obtain ⟨hA, hB⟩ := hbacked.empty hnone
    exact ⟨hpos, hamountA.nonneg, hamountB.nonneg, le_rfl, le_rfl, by simp [hA, hnone],
      by simp [hB, hnone], fun _ => hroot⟩
  next hshares =>
    obtain ⟨hA, hB, hpos⟩ := hbacked.reserves_pos hshares
    exact depositIntoNonEmptyPool_spec hamountA hamountB hA hB hpos hbacked.product

variable [DecidableEq κ]

theorem Backed.change {source : κ} (hA : Amount (reserveA + a)) (hB : Amount (reserveB + b))
    (hamount : Amount (totalShares + d))
    (hproduct : (totalShares + d) * (totalShares + d) ≤ (reserveA + a) * (reserveB + b))
    (hempty : totalShares + d = 0 → reserveA + a = 0 ∧ reserveB + b = 0)
    (hheld : 0 ≤ shares source + d) :
    Backed (reserveA + a) (reserveB + b) (totalShares + d)
      (update shares source (shares source + d)) := by
  refine ⟨hA, hB, hamount, hproduct, hempty, fun account => ?_, ?_⟩
  · rw [update_apply]
    split
    · exact hheld
    · exact hbacked.held account
  · obtain ⟨holders, hzero, hsum⟩ := hbacked.sum
    have hinsert : ∑ account ∈ insert source holders, shares account = totalShares := by
      rw [Finset.sum_insert_of_eq_zero_if_notMem (hzero source), hsum]
    refine ⟨insert source holders, fun account hout => ?_, ?_⟩
    · obtain ⟨hne, hout⟩ := not_or.mp (Finset.mem_insert.not.mp hout)
      rw [update_of_ne hne, hzero account hout]
    · have hmem := Finset.mem_insert_self source holders
      rw [Finset.sum_update_of_mem hmem, ← hinsert, ← Finset.add_sum_erase _ _ hmem,
        Finset.sdiff_singleton_eq_erase]
      omega

/-- A change that leaves every share at least what it was worth. -/
theorem Backed.change_worth {source : κ} (hshares : totalShares ≠ 0)
    (hA : Amount (reserveA + a)) (hB : Amount (reserveB + b)) (hamount : Amount (totalShares + d))
    (hworthA : reserveA * (totalShares + d) ≤ (reserveA + a) * totalShares)
    (hworthB : reserveB * (totalShares + d) ≤ (reserveB + b) * totalShares)
    (hempty : totalShares + d = 0 → reserveA + a = 0 ∧ reserveB + b = 0)
    (hheld : 0 ≤ shares source + d) :
    Backed (reserveA + a) (reserveB + b) (totalShares + d)
        (update shares source (shares source + d)) ∧
      reserveA * reserveB * ((totalShares + d) * (totalShares + d)) ≤
        (reserveA + a) * (reserveB + b) * (totalShares * totalShares) := by
  obtain ⟨hApos, hBpos, hpos⟩ := hbacked.reserves_pos hshares
  have hworth : reserveA * reserveB * ((totalShares + d) * (totalShares + d)) ≤
      (reserveA + a) * (reserveB + b) * (totalShares * totalShares) := by
    have hmul := mul_le_mul hworthA hworthB (mul_nonneg hBpos.le hamount.nonneg)
      (mul_nonneg hA.nonneg hpos.le)
    linarith
  refine ⟨hbacked.change hA hB hamount ?_ hempty hheld, hworth⟩
  refine le_of_mul_le_mul_right ?_ (mul_pos hpos hpos)
  refine le_trans ?_ hworth
  rw [mul_comm]
  exact mul_le_mul_of_nonneg_right hbacked.product (mul_self_nonneg _)

end Backed

/-! ### All pools -/

variable {α ι κ : Type}

/-- The pools of a ledger with the balances of their share trustlines. -/
structure SharedPools (α ι κ : Type) where
  pools : ι → Option (LiquidityPool α)
  totalPoolShares : ι → Int
  poolShares : ι → κ → Int

namespace SharedPools

variable (s : SharedPools α ι κ)

def reserveA (poolId : ι) : Int := (s.pools poolId).elim 0 (·.reserveA)

def reserveB (poolId : ι) : Int := (s.pools poolId).elim 0 (·.reserveB)

def Solvent : Prop :=
  ∀ poolId, Backed (s.reserveA poolId) (s.reserveB poolId) (s.totalPoolShares poolId)
    (s.poolShares poolId)

/-- The reserves per share do not decrease. -/
def Undiluted (s' : SharedPools α ι κ) (poolId : ι) : Prop :=
  s.reserveA poolId * s.reserveB poolId * (s'.totalPoolShares poolId * s'.totalPoolShares poolId) ≤
    s'.reserveA poolId * s'.reserveB poolId * (s.totalPoolShares poolId * s.totalPoolShares poolId)

variable {s}

/-- One pool changes. -/
theorem Solvent.at_pool {s' : SharedPools α ι κ} (hsolvent : s.Solvent) (poolId : ι)
    (hother : ∀ other ≠ poolId, s'.pools other = s.pools other ∧
      s'.totalPoolShares other = s.totalPoolShares other ∧
      s'.poolShares other = s.poolShares other)
    (hself : Backed (s'.reserveA poolId) (s'.reserveB poolId) (s'.totalPoolShares poolId)
      (s'.poolShares poolId) ∧ s.Undiluted s' poolId) :
    s'.Solvent ∧ ∀ other, s.Undiluted s' other := by
  refine ⟨fun other => ?_, fun other => ?_⟩ <;> by_cases heq : other = poolId
  · exact heq ▸ hself.1
  · obtain ⟨hpools, htotal, hshares⟩ := hother other heq
    rw [reserveA, reserveB, hpools, htotal, hshares]
    exact hsolvent other
  · exact heq ▸ hself.2
  · obtain ⟨hpools, htotal, -⟩ := hother other heq
    rw [Undiluted, reserveA, reserveB, reserveA, reserveB, hpools, htotal]

variable [LinearOrder α] [DecidableEq ι] [DecidableEq κ]

def change (s : SharedPools α ι κ) (poolId : ι) (pool : LiquidityPool α) (source : κ)
    (a b shares : Int) : SharedPools α ι κ where
  pools := update s.pools poolId (some
    { pool with reserveA := pool.reserveA + a, reserveB := pool.reserveB + b })
  totalPoolShares := update s.totalPoolShares poolId (s.totalPoolShares poolId + shares)
  poolShares := update s.poolShares poolId
    (update (s.poolShares poolId) source (s.poolShares poolId source + shares))

/-- Operations that change pools. Redemptions of revoked shares are withdrawals. -/
inductive Step (hashXdr : α × α → ι) (s : SharedPools α ι κ) : SharedPools α ι κ → Prop where
  | create (assetA assetB : α) (hnone : s.pools (hashXdr (assetA, assetB)) = none) :
      Step hashXdr s { s with
        pools := update s.pools (hashXdr (assetA, assetB)) (some ⟨assetA, assetB, 0, 0⟩) }
  | remove (poolId : ι) (hnobody : ∀ account, s.poolShares poolId account = 0) :
      Step hashXdr s { s with pools := update s.pools poolId none }
  | deposit (poolId : ι) (pool : LiquidityPool α) (source : κ) (request : PoolDeposit)
      (a b shares : Int) (hpool : s.pools poolId = some pool)
      (hmaxA : 0 < request.maxAmountA ∧ request.maxAmountA ≤ i64Max)
      (hmaxB : 0 < request.maxAmountB ∧ request.maxAmountB ≤ i64Max)
      (hsuccess : depositIntoPool request pool (s.totalPoolShares poolId) =
        .ok (.success a b shares))
      (hroom : a ≤ i64Max - pool.reserveA ∧ b ≤ i64Max - pool.reserveB ∧
        shares ≤ i64Max - s.totalPoolShares poolId) :
      Step hashXdr s (s.change poolId pool source a b shares)
  | withdraw (poolId : ι) (pool : LiquidityPool α) (source : κ) (amount a b : Int)
      (hpool : s.pools poolId = some pool) (hamount : 0 < amount)
      (hheld : amount ≤ s.poolShares poolId source)
      (ha : getPoolWithdrawalAmount amount (s.totalPoolShares poolId) pool.reserveA = .ok a)
      (hb : getPoolWithdrawalAmount amount (s.totalPoolShares poolId) pool.reserveB = .ok b) :
      Step hashXdr s (s.change poolId pool source (-a) (-b) (-amount))
  | trade (sendAsset recvAsset : α) (maxSend maxRecv : Int) (round : RoundingType)
      (quote : PoolExchange ι) (pools : ι → Option (LiquidityPool α)) (hsend : Amount maxSend)
      (hreceive : Amount maxRecv)
      (hquote : computePoolExchange hashXdr sendAsset maxSend recvAsset maxRecv round s.pools =
        .ok (some quote))
      (happly : applyPoolExchange hashXdr sendAsset recvAsset quote.send quote.recv s.pools =
        .ok (true, pools)) :
      Step hashXdr s { s with pools := pools }

/-- A trade that is quoted and applied changes one pool that is in use. -/
theorem trade_spec {hashXdr : α × α → ι} {sendAsset recvAsset : α} {maxSend maxRecv : Int}
    {round : RoundingType} {quote : PoolExchange ι} {pools after : ι → Option (LiquidityPool α)}
    (hamounts : ∀ poolId pool, pools poolId = some pool →
      Amount pool.reserveA ∧ Amount pool.reserveB)
    (hsend : Amount maxSend) (hreceive : Amount maxRecv)
    (hquote : computePoolExchange hashXdr sendAsset maxSend recvAsset maxRecv round pools =
      .ok (some quote))
    (happly : applyPoolExchange hashXdr sendAsset recvAsset quote.send quote.recv pools =
      .ok (true, after)) :
    ∃ poolId pool traded, pools poolId = some pool ∧ after = update pools poolId (some traded) ∧
      pool.reserveA * pool.reserveB ≤ traded.reserveA * traded.reserveB ∧
      Reserve pool.reserveA ∧ Reserve traded.reserveA ∧ Reserve traded.reserveB := by
  have hadd {reserve amount sum : Int} (hok : checkedAdd reserve amount = .ok sum) :
      sum = reserve + amount := by
    unfold checkedAdd at hok
    split at hok <;> cases hok
    rfl
  have hsub {reserve amount rest : Int} (hok : checkedSub reserve amount = .ok rest) :
      rest = reserve - amount := by
    unfold checkedSub at hok
    split at hok <;> cases hok
    rfl
  unfold computePoolExchange at hquote
  unfold applyPoolExchange at happly
  cases hpool : pools (poolIdForAssets hashXdr sendAsset recvAsset) with
  | none =>
    simp only [hpool] at hquote
    cases hquote
  | some pool =>
    obtain ⟨hA, hB⟩ := hamounts _ pool hpool
    simp only [hpool] at hquote happly
    split_ifs at hquote with hempty
    · cases hquote
    have hposA : 0 < pool.reserveA := not_le.mp fun h => hempty (.inl h)
    have hposB : 0 < pool.reserveB := not_le.mp fun h => hempty (.inr h)
    have hdirection {reservesTo reservesFrom : Int} (hto : Reserve reservesTo)
        (hfrom : Reserve reservesFrom)
        (hreserves : pool.reserves sendAsset recvAsset = some (reservesTo, reservesFrom)) :
        reservesTo * reservesFrom ≤ (reservesTo + quote.send) * (reservesFrom - quote.recv) ∧
          Reserve (reservesTo + quote.send) ∧ Reserve (reservesFrom - quote.recv) := by
      simp only [hreserves, bind_ok_iff] at hquote
      obtain ⟨⟨ok, amounts⟩, hexchange, hresult⟩ := hquote
      cases ok with
      | false => cases hresult
      | true =>
        cases hresult
        exact exchangeWithPool_product hto hfrom hsend hreceive hexchange
    have hA : Reserve pool.reserveA := ⟨hposA, hA.le_max⟩
    have hB : Reserve pool.reserveB := ⟨hposB, hB.le_max⟩
    split_ifs at happly with hforward hback
    · simp only [bind_ok_iff] at happly
      obtain ⟨reserveA, haddA, reserveB, hsubB, happly⟩ := happly
      obtain ⟨hproduct, hreserves⟩ := hdirection hA hB (if_pos hforward)
      cases happly
      rw [hadd haddA, hsub hsubB]
      exact ⟨_, pool, _, hpool, rfl, hproduct, hA, hreserves⟩
    · simp only [bind_ok_iff] at happly
      obtain ⟨reserveB, haddB, reserveA, hsubA, happly⟩ := happly
      obtain ⟨hproduct, hreserveB, hreserveA⟩ :=
        hdirection hB hA ((if_neg hforward).trans (if_pos hback))
      cases happly
      rw [hadd haddB, hsub hsubA]
      exact ⟨_, pool, _, hpool, rfl, by linarith, hA, hreserveA, hreserveB⟩
    · cases happly

theorem Step.solvent {hashXdr : α × α → ι} {s s' : SharedPools α ι κ}
    (hstep : Step hashXdr s s') (hsolvent : s.Solvent) :
    s'.Solvent ∧ ∀ poolId, s.Undiluted s' poolId := by
  have hbacked {poolId : ι} {pool : LiquidityPool α} (hpool : s.pools poolId = some pool) :
      Backed pool.reserveA pool.reserveB (s.totalPoolShares poolId) (s.poolShares poolId) := by
    simpa [reserveA, reserveB, hpool] using hsolvent poolId
  have hchange {poolId : ι} {pool : LiquidityPool α} {source : κ} {a b d : Int}
      (hpool : s.pools poolId = some pool)
      (hself : Backed (pool.reserveA + a) (pool.reserveB + b) (s.totalPoolShares poolId + d)
          (update (s.poolShares poolId) source (s.poolShares poolId source + d)) ∧
        pool.reserveA * pool.reserveB *
            ((s.totalPoolShares poolId + d) * (s.totalPoolShares poolId + d)) ≤
          (pool.reserveA + a) * (pool.reserveB + b) *
            (s.totalPoolShares poolId * s.totalPoolShares poolId)) :
      (s.change poolId pool source a b d).Solvent ∧
        ∀ other, s.Undiluted (s.change poolId pool source a b d) other :=
    hsolvent.at_pool poolId (fun other hne => by simp [change, hne])
      (by simpa [Undiluted, reserveA, reserveB, change, hpool] using hself)
  cases hstep with
  | create assetA assetB hnone =>
    have hempty := hsolvent (hashXdr (assetA, assetB))
    simp only [reserveA, reserveB, hnone, Option.elim] at hempty
    refine hsolvent.at_pool (hashXdr (assetA, assetB)) (fun other hne => by simp [hne]) ?_
    simpa [Undiluted, reserveA, reserveB, hnone] using hempty
  | remove poolId hnobody =>
    have hempty := hsolvent poolId
    obtain ⟨holders, -, hsum⟩ := hempty.sum
    have htotal : s.totalPoolShares poolId = 0 := by
      rw [← hsum, Finset.sum_eq_zero fun account _ => hnobody account]
    obtain ⟨hA, hB⟩ := hempty.empty htotal
    rw [hA, hB] at hempty
    refine hsolvent.at_pool poolId (fun other hne => by simp [hne]) ⟨?_, by simp [Undiluted, htotal]⟩
    simpa [reserveA, reserveB] using hempty
  | deposit poolId pool source request a b shares hpool hmaxA hmaxB hsuccess hroom =>
    have hpoolBacked := hbacked hpool
    obtain ⟨outcome, hok, hfair⟩ := hpoolBacked.deposit_fair request ⟨rfl, rfl⟩ hmaxA hmaxB
    cases hsuccess.symm.trans hok
    obtain ⟨hpos, haNonneg, hbNonneg, -, -, hworthA, hworthB, hfirst⟩ := hfair _ _ _ rfl
    obtain ⟨hA, hB, htotal⟩ := And.intro hpoolBacked.amountA.nonneg
      (And.intro hpoolBacked.amountB.nonneg hpoolBacked.amount.nonneg)
    have hamountA : Amount (pool.reserveA + a) := ⟨by omega, by omega⟩
    have hamountB : Amount (pool.reserveB + b) := ⟨by omega, by omega⟩
    have hamount : Amount (s.totalPoolShares poolId + shares) := ⟨by omega, by omega⟩
    have hheld := hpoolBacked.held source
    refine hchange hpool ?_
    by_cases hnone : s.totalPoolShares poolId = 0
    · obtain ⟨hzeroA, hzeroB⟩ := hpoolBacked.empty hnone
      refine ⟨hpoolBacked.change hamountA hamountB hamount ?_ (by omega) (by omega), ?_⟩
      · simpa [hnone, hzeroA, hzeroB] using hfirst hnone
      · simp [hnone, hzeroA]
    · exact hpoolBacked.change_worth hnone hamountA hamountB hamount (by linarith) (by linarith)
        (by omega) (by omega)
  | withdraw poolId pool source amount a b hpool hamount hheld ha hb =>
    have hpoolBacked := hbacked hpool
    have hle := hheld.trans (hpoolBacked.le_total source)
    have hpos := hamount.trans_le hle
    obtain ⟨haEq, haLe⟩ := getPoolWithdrawalAmount_eq hpoolBacked.amountA hpos hamount.le hle
    obtain ⟨hbEq, hbLe⟩ := getPoolWithdrawalAmount_eq hpoolBacked.amountB hpos hamount.le hle
    cases ha.symm.trans haEq
    cases hb.symm.trans hbEq
    have hrounded {reserve : Int} (hreserve : 0 ≤ reserve) :
        0 ≤ amount * reserve / s.totalPoolShares poolId ∧
          amount * reserve / s.totalPoolShares poolId * s.totalPoolShares poolId ≤
            amount * reserve :=
      ⟨Int.ediv_nonneg (mul_nonneg hamount.le hreserve) hpos.le, Int.ediv_mul_le _ hpos.ne'⟩
    obtain ⟨haNonneg, haMul⟩ := hrounded hpoolBacked.amountA.nonneg
    obtain ⟨hbNonneg, hbMul⟩ := hrounded hpoolBacked.amountB.nonneg
    have hmaxA := hpoolBacked.amountA.le_max
    have hmaxB := hpoolBacked.amountB.le_max
    have hmax := hpoolBacked.amount.le_max
    refine hchange hpool (hpoolBacked.change_worth hpos.ne' ⟨by omega, by omega⟩
      ⟨by omega, by omega⟩ ⟨by omega, by omega⟩ (by linarith) (by linarith) (fun hlast => ?_)
      (by omega))
    -- The last shares take all reserves.
    obtain rfl : amount = s.totalPoolShares poolId := by omega
    rw [Int.mul_ediv_cancel_left _ hpos.ne', Int.mul_ediv_cancel_left _ hpos.ne']
    exact ⟨by omega, by omega⟩
  | trade sendAsset recvAsset maxSend maxRecv round quote pools hsend hreceive hquote happly =>
    obtain ⟨poolId, pool, traded, hpool, rfl, hproduct, hinUse, htradedA, htradedB⟩ :=
      trade_spec (fun _ _ hpool => ⟨(hbacked hpool).amountA, (hbacked hpool).amountB⟩) hsend hreceive
        hquote happly
    have hpoolBacked := hbacked hpool
    refine hsolvent.at_pool poolId (fun other hne => by simp [hne]) ?_
    have hshares : s.totalPoolShares poolId ≠ 0 := fun hnone => by
      have := (hpoolBacked.empty hnone).1
      have := hinUse.pos
      omega
    refine ⟨?_, ?_⟩
    · simpa [reserveA, reserveB] using (⟨htradedA.amount, htradedB.amount, hpoolBacked.amount,
        hpoolBacked.product.trans hproduct, fun hnone => absurd hnone hshares, hpoolBacked.held,
        hpoolBacked.sum⟩ : Backed traded.reserveA traded.reserveB _ _)
    · simpa [Undiluted, reserveA, reserveB, hpool] using
        mul_le_mul_of_nonneg_right hproduct (mul_self_nonneg (s.totalPoolShares poolId))

/-- States of a ledger that starts without pools. -/
inductive Reachable (hashXdr : α × α → ι) : SharedPools α ι κ → Prop where
  | start : Reachable hashXdr ⟨fun _ => none, fun _ => 0, fun _ _ => 0⟩
  | step {s s' : SharedPools α ι κ} (hreachable : Reachable hashXdr s) (hstep : Step hashXdr s s') :
      Reachable hashXdr s'

theorem Reachable.solvent {hashXdr : α × α → ι} {s : SharedPools α ι κ}
    (hreachable : Reachable hashXdr s) : s.Solvent := by
  induction hreachable with
  | start =>
    intro poolId
    have hzero : Amount 0 := ⟨le_rfl, by decide⟩
    exact ⟨hzero, hzero, hzero, le_rfl, fun _ => ⟨rfl, rfl⟩, fun _ => le_rfl, ∅, by simp, rfl⟩
  | step _ hstep ih => exact (hstep.solvent ih).1

/-- In every state that operations reach, the balances of a pool's share trustlines add up to its
total shares, whose square is at most the product of the reserves; shares and reserves run out
together; no deposit panics or is charged more than it offers; and what a holder withdraws does
not overflow and is there. -/
theorem pools_solvent {hashXdr : α × α → ι} {s : SharedPools α ι κ}
    (hreachable : Reachable hashXdr s) (poolId : ι) (pool : LiquidityPool α)
    (hpool : s.pools poolId = some pool) :
    let total := s.totalPoolShares poolId
    Backed pool.reserveA pool.reserveB total (s.poolShares poolId) ∧
      (∀ request : PoolDeposit, 0 < request.maxAmountA ∧ request.maxAmountA ≤ i64Max →
        0 < request.maxAmountB ∧ request.maxAmountB ≤ i64Max →
        ∃ outcome, depositIntoPool request pool total = .ok outcome ∧
          ∀ a b shares, outcome = .success a b shares →
            0 < shares ∧ a ≤ request.maxAmountA ∧ b ≤ request.maxAmountB) ∧
      ∀ source amount, 0 < amount → amount ≤ s.poolShares poolId source →
        ∀ reserve ∈ [pool.reserveA, pool.reserveB],
          getPoolWithdrawalAmount amount total reserve = .ok (amount * reserve / total) ∧
            amount * reserve / total ≤ reserve := by
  have hbacked : Backed pool.reserveA pool.reserveB (s.totalPoolShares poolId)
      (s.poolShares poolId) := by
    simpa [reserveA, reserveB, hpool] using hreachable.solvent poolId
  refine ⟨hbacked, fun request hmaxA hmaxB => ?_, fun source amount hpos hheld reserve hmem => ?_⟩
  · obtain ⟨outcome, hok, hfair⟩ := hbacked.deposit_fair request ⟨rfl, rfl⟩ hmaxA hmaxB
    refine ⟨outcome, hok, fun a b shares hsuccess => ?_⟩
    have fair := hfair a b shares hsuccess
    exact ⟨fair.shares_pos, fair.a_le, fair.b_le⟩
  · have hle := hheld.trans (hbacked.le_total source)
    have hreserve : Amount reserve := by
      obtain rfl | rfl : reserve = pool.reserveA ∨ reserve = pool.reserveB := by simpa using hmem
      · exact hbacked.amountA
      · exact hbacked.amountB
    exact getPoolWithdrawalAmount_eq hreserve (hpos.trans_le hle) hpos.le hle

/-- A ledger with a pool of assets 0 and 1. -/
def seeded : SharedPools ℕ ℕ ℕ where
  pools := update (fun _ => none) 0 (some ⟨0, 1, 0, 0⟩)
  totalPoolShares _ := 0
  poolShares _ _ := 0

theorem reachable_seeded : Reachable Prod.fst seeded :=
  .step .start (.create 0 1 rfl)

theorem step_seeded : Step Prod.fst seeded (seeded.change 0 ⟨0, 1, 0, 0⟩ 7 4 9 6) :=
  .deposit 0 _ 7 ⟨4, 9, 4, 9, 6, ⟨1, 4⟩, ⟨1, 1⟩⟩ 4 9 6 rfl (by decide) (by decide)
    (by simp [seeded, depositIntoPool, depositIntoEmptyPool, PoolDeposit.settle, isBadPrice,
      bigSquareRoot, squareRootFrom, i64Max]) (by decide)

theorem pools_solvent_seeded : Backed 4 9 6 (update (fun _ : ℕ => (0 : Int)) 7 6) :=
  (pools_solvent (reachable_seeded.step step_seeded) 0 ⟨0, 1, 4, 9⟩ rfl).1

/-- No operation lowers the product of the reserves by the square of the shares, at any pool. -/
theorem pools_undiluted {hashXdr : α × α → ι} {s s' : SharedPools α ι κ}
    (hreachable : Reachable hashXdr s) (hstep : Step hashXdr s s') (poolId : ι)
    (pool pool' : LiquidityPool α) (hpool : s.pools poolId = some pool)
    (hpool' : s'.pools poolId = some pool') :
    pool.reserveA * pool.reserveB * (s'.totalPoolShares poolId * s'.totalPoolShares poolId) ≤
      pool'.reserveA * pool'.reserveB * (s.totalPoolShares poolId * s.totalPoolShares poolId) := by
  simpa [Undiluted, reserveA, reserveB, hpool, hpool'] using
    (hstep.solvent hreachable.solvent).2 poolId

theorem pools_undiluted_seeded : (4 : Int) * 9 * (3 * 3) ≤ 2 * 5 * (6 * 6) :=
  pools_undiluted (reachable_seeded.step step_seeded)
    (.withdraw 0 ⟨0, 1, 4, 9⟩ 7 3 2 4 rfl (by decide) (by decide) rfl rfl) 0 ⟨0, 1, 4, 9⟩
    ⟨0, 1, 2, 5⟩ rfl rfl

end SharedPools

end Henyey.Dex
