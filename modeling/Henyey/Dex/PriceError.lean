import Henyey.Dex.Amounts

/-!
# The bound on the price error

Amounts that deviate by more than one percent from the price are dropped or refused,
depending on the rounding. After the adjustment that crossing makes, no exchange is
refused, and an offer that is taken whole is not dropped.
-/

namespace Henyey.Dex

open Foundation

/-- The amounts deviate from the price by at most one percent. -/
def WithinPriceError (price : Price) (wheat sheep : Int) : Prop :=
  |wheat * (100 * price.n) - sheep * (100 * price.d)| ≤ wheat * price.n

instance (price : Price) (wheat sheep : Int) : Decidable (WithinPriceError price wheat sheep) :=
  inferInstanceAs (Decidable (_ ≤ _))

theorem withinPriceError_zero (price : Price) : WithinPriceError price 0 0 := by
  simp [WithinPriceError]

/-- What the bound on the price error makes of exact amounts. -/
def thresholded (price : Price) (res : ExchangeResult) (round : RoundingType) :
    Except Fault ExchangeResult :=
  if 0 < res.numWheatReceived ∧ 0 < res.numSheepSend then
    if round = .normal then
      if WithinPriceError price res.numWheatReceived res.numSheepSend then .ok res
      else .ok { res with numWheatReceived := 0, numSheepSend := 0 }
    else if res.numWheatReceived * price.n < res.numSheepSend * price.d ∨
        WithinPriceError price res.numWheatReceived res.numSheepSend then .ok res
    else .error (.error .priceError)
  else if round = .pathPaymentStrictSend then .ok { res with numWheatReceived := 0 }
  else .ok { res with numWheatReceived := 0, numSheepSend := 0 }

section Thresholds

theorem checkedMul64_hundred {term : Int} (hpos : 0 < term) (hle : term ≤ i32Max) :
    checkedMul64 100 term = .ok (100 * term) := by
  have hmax : 100 * i32Max ≤ i64Max := by decide
  have hmin : -i64Max - 1 ≤ 0 := by decide
  exact if_pos ⟨by omega, by omega⟩

variable {price : Price} (hprice : price.Positive)
include hprice

/-- The check in terms of exact products. -/
theorem checkPriceErrorBound_eq {wheat sheep : Int} (hwheat : Amount wheat) (hsheep : Amount sheep)
    (canFavorWheat : Bool) :
    checkPriceErrorBound price wheat sheep canFavorWheat =
      if (canFavorWheat = true ∧ wheat * price.n < sheep * price.d) ∨
          WithinPriceError price wheat sheep then .ok ()
      else .error (.error .priceError) := by
  have hn := hprice.n_pos
  have hd := hprice.d_pos
  have hnMul := checkedMul64_hundred hn hprice.n_le
  have hdMul := checkedMul64_hundred hd hprice.d_le
  have hmax : 100 * i32Max ≤ i64Max := by decide
  have hnAmount : Amount (100 * price.n) := ⟨by omega, by have := hprice.n_le; omega⟩
  have hdAmount : Amount (100 * price.d) := ⟨by omega, by have := hprice.d_le; omega⟩
  have hlhs := bigMultiply_eq hwheat hnAmount
  have hrhs := bigMultiply_eq hsheep hdAmount
  have hcap := bigMultiply_eq hwheat (amount_n hprice)
  have hlhsLe := mul_amounts_le hwheat hnAmount
  have hrhsLe := mul_amounts_le hsheep hdAmount
  have hlhsNonneg := mul_nonneg hwheat.nonneg hnAmount.nonneg
  have hrhsNonneg := mul_nonneg hsheep.nonneg hdAmount.nonneg
  have hrange : i64Max * i64Max ≤ i128Max := by decide
  have hmin : -i128Max - 1 ≤ 0 := by decide
  have hscale : wheat * (100 * price.n) < sheep * (100 * price.d) ↔
      wheat * price.n < sheep * price.d := by
    rw [Int.mul_left_comm wheat, Int.mul_left_comm sheep]
    omega
  have habs : WithinPriceError price wheat sheep ↔
      |wheat * (100 * price.n) - sheep * (100 * price.d)| ≤ wheat * price.n := Iff.rfl
  unfold checkPriceErrorBound
  rw [hnMul, ok_bind, hdMul, ok_bind]
  dsimp only
  rw [hlhs, hrhs, hcap]
  generalize wheat * (100 * price.n) = lhs at *
  generalize sheep * (100 * price.d) = rhs at *
  have hdiff (next : Int → Except Fault Unit) :
      (if lhs > rhs then plain128 (lhs - rhs) >>= next else plain128 (rhs - lhs) >>= next) =
        next |lhs - rhs| := by
    split
    next hgt =>
      rw [abs_of_pos (Int.sub_pos_of_lt hgt), plain128_eq (by omega) (by omega), ok_bind]
    next hle =>
      rw [abs_of_nonpos (by omega), neg_sub, plain128_eq (by omega) (by omega), ok_bind]
  by_cases hfavor : canFavorWheat = true ∧ rhs > lhs
  · rw [if_pos hfavor, if_pos (.inl ⟨hfavor.1, hscale.mp hfavor.2⟩)]
    rfl
  · rw [if_neg hfavor, hdiff]
    by_cases hwithin : WithinPriceError price wheat sheep
    · rw [if_pos (habs.mp hwithin), if_pos (.inr hwithin)]
      rfl
    · rw [if_neg (mt habs.mpr hwithin), if_neg]
      · rfl
      · rintro (⟨hcan, hlt⟩ | hle)
        · exact hfavor ⟨hcan, hscale.mpr hlt⟩
        · exact hwithin hle

/-- The bound applied to amounts that favour the side that stays. -/
theorem applyPriceErrorThresholds_eq {res : ExchangeResult} (round : RoundingType)
    (hwheat : Amount res.numWheatReceived) (hsheep : Amount res.numSheepSend)
    (hfavors : Favors price res) :
    applyPriceErrorThresholds price res round = thresholded price res round := by
  unfold Favors at hfavors
  have hwheatValue := bigMultiply_eq hwheat (amount_n hprice)
  have hsheepValue := bigMultiply_eq hsheep (amount_d hprice)
  have hstays : ¬ (res.wheatStays = true ∧
      res.numSheepSend * price.d < res.numWheatReceived * price.n) := by
    rintro ⟨hstays, hlt⟩
    rw [if_pos hstays] at hfavors
    exact absurd hlt (not_lt.mpr hfavors)
  have hgone : ¬ (¬ res.wheatStays = true ∧
      res.numSheepSend * price.d > res.numWheatReceived * price.n) := by
    rintro ⟨hgone, hlt⟩
    rw [if_neg hgone] at hfavors
    exact absurd hlt (not_lt.mpr hfavors)
  unfold applyPriceErrorThresholds thresholded
  simp only [gt_iff_lt] at hgone ⊢
  split
  · rw [hwheatValue, hsheepValue]
    simp only [if_neg hstays, if_neg hgone, checkPriceErrorBound_eq hprice hwheat hsheep,
      Bool.false_eq_true, false_and, false_or, true_and]
    split
    · by_cases hwithin : WithinPriceError price res.numWheatReceived res.numSheepSend
      · rw [if_pos hwithin, if_pos hwithin]
        rfl
      · rw [if_neg hwithin, if_neg hwithin]
        rfl
    · split <;> rfl
  · rfl

end Thresholds

/-! ### Exchanges under any limits -/

section Limits

variable {price : Price} (hprice : price.Positive)
  {maxWheatSend maxWheatReceive maxSheepSend maxSheepReceive : Int}
  (hlimits : Limits maxWheatSend maxWheatReceive maxSheepSend maxSheepReceive)
include hprice hlimits

theorem exactExchange_amounts (round : RoundingType) :
    let res := exactExchange price maxWheatSend maxWheatReceive maxSheepSend maxSheepReceive round
    Amount res.numWheatReceived ∧ Amount res.numSheepSend := by
  obtain ⟨hwheat, hwheatLe, hsheep, hsheepLe⟩ := exactExchange_le hprice hlimits round
  exact ⟨⟨hwheat, (hwheatLe.trans (min_le_right _ _)).trans hlimits.wheatSend.le_max⟩,
    ⟨hsheep, (hsheepLe.trans (min_le_right _ _)).trans hlimits.sheepSend.le_max⟩⟩

theorem exchangeV10_eq (round : RoundingType) :
    exchangeV10 price maxWheatSend maxWheatReceive maxSheepSend maxSheepReceive round =
      thresholded price (exactExchange price maxWheatSend maxWheatReceive maxSheepSend
        maxSheepReceive round) round := by
  obtain ⟨hwheat, hsheep⟩ := exactExchange_amounts hprice hlimits round
  unfold exchangeV10
  rw [exchangeV10WithoutPriceErrorThresholds_eq hprice hlimits, ok_bind]
  exact applyPriceErrorThresholds_eq hprice round hwheat hsheep
    (exactExchange_favors hprice round)

end Limits

/-! ### Adjusted offers -/

/-- The adjusted amount: what an unlimited taker gets, unless the price error drops it. -/
def adjusted (price : Price) (maxWheatSend maxSheepReceive : Int) : Int :=
  let amounts := takenWhole price (offerValue price.n price.d maxWheatSend maxSheepReceive)
  if WithinPriceError price amounts.1 amounts.2 then amounts.1 else 0

section Adjusted

variable {price : Price} (hprice : price.Positive) {maxWheatSend maxSheepReceive : Int}
include hprice

/-- Amounts within the bound are both positive if the first one is. -/
theorem sheep_pos_of_within {wheat sheep : Int} (hwithin : WithinPriceError price wheat sheep)
    (hwheat : 0 < wheat) : 0 < sheep := by
  by_contra hsheep
  have hcost : 0 < wheat * price.n := mul_pos hwheat hprice.n_pos
  have hnonpos : sheep * (100 * price.d) ≤ 0 :=
    mul_nonpos_of_nonpos_of_nonneg (not_lt.mp hsheep) (by have := hprice.d_pos; omega)
  have hle := (le_abs_self _).trans hwithin
  rw [Int.mul_left_comm] at hle
  omega

theorem thresholded_takenWhole {value : Int} (hvalue : 0 ≤ value) (round : RoundingType)
    (hwithin : WithinPriceError price (takenWhole price value).1 (takenWhole price value).2) :
    thresholded price
        { numWheatReceived := (takenWhole price value).1,
          numSheepSend := (takenWhole price value).2, wheatStays := false } round =
      .ok { numWheatReceived := (takenWhole price value).1,
            numSheepSend := (takenWhole price value).2, wheatStays := false } := by
  have hnonneg := takenWhole_nonneg hprice hvalue
  have hfavors := takenWhole_favors hprice value
  generalize (takenWhole price value).1 = wheat at *
  generalize (takenWhole price value).2 = sheep at *
  unfold thresholded
  dsimp only
  by_cases hpos : 0 < wheat
  · rw [if_pos ⟨hpos, sheep_pos_of_within hprice hwithin hpos⟩]
    split
    · rfl
    · rw [if_pos (.inr hwithin)]
  · -- nothing is exchanged
    have hwheat : wheat = 0 := by omega
    subst hwheat
    have hsheep : sheep = 0 := by
      by_contra hne
      have hcost : 0 < sheep * price.d := mul_pos (by omega) hprice.d_pos
      omega
    subst hsheep
    rw [if_neg (fun h => hpos h.1)]
    split <;> rfl

theorem takenWhole_zero : takenWhole price 0 = (0, 0) := by
  unfold takenWhole
  split
  · simp
  · rw [Int.zero_ediv, Int.zero_mul, ceilDiv_zero hprice.n_pos]

section

variable (hwheat : Amount maxWheatSend)
include hwheat

section

variable (hsheep : Amount maxSheepReceive)
include hsheep

theorem offerValue_le_unlimited :
    offerValue price.n price.d maxWheatSend maxSheepReceive ≤
      offerValue price.d price.n i64Max i64Max := by
  have hn := hprice.n_pos.le
  have hd := hprice.d_pos.le
  apply le_min
  · exact (min_le_right _ _).trans (mul_le_mul_of_nonneg_right hsheep.le_max hd)
  · exact (min_le_left _ _).trans (mul_le_mul_of_nonneg_right hwheat.le_max hn)

theorem exactExchange_unlimited (round : RoundingType) :
    exactExchange price maxWheatSend i64Max i64Max maxSheepReceive round =
      let amounts := takenWhole price (offerValue price.n price.d maxWheatSend maxSheepReceive)
      { numWheatReceived := amounts.1, numSheepSend := amounts.2, wheatStays := false } := by
  have hle := not_lt.mpr (offerValue_le_unlimited hprice hwheat hsheep)
  unfold exactExchange
  simp only [gt_iff_lt, if_neg hle, decide_eq_false hle]

theorem adjustOfferAmount_eq :
    adjustOfferAmount price maxWheatSend maxSheepReceive =
      .ok (adjusted price maxWheatSend maxSheepReceive) := by
  have hlimits : Limits maxWheatSend i64Max i64Max maxSheepReceive :=
    ⟨hwheat, amount_i64Max, amount_i64Max, hsheep⟩
  have hvalue := (offerValue_nonneg hprice hlimits).1
  unfold adjustOfferAmount adjusted
  rw [exchangeV10_eq hprice hlimits, exactExchange_unlimited hprice hwheat hsheep]
  generalize offerValue price.n price.d maxWheatSend maxSheepReceive = value at *
  dsimp only
  by_cases hwithin : WithinPriceError price (takenWhole price value).1 (takenWhole price value).2
  · rw [thresholded_takenWhole hprice hvalue .normal hwithin, if_pos hwithin]
    rfl
  · rw [if_neg hwithin]
    unfold thresholded
    simp only [if_neg hwithin]
    split <;> rfl

theorem adjusted_nonneg : 0 ≤ adjusted price maxWheatSend maxSheepReceive := by
  have hvalue := (offerValue_nonneg hprice
    ⟨hwheat, amount_i64Max, amount_i64Max, hsheep⟩).1
  unfold adjusted
  dsimp only
  split
  · exact (takenWhole_nonneg hprice hvalue).1
  · exact le_rfl

end

theorem adjusted_le : adjusted price maxWheatSend maxSheepReceive ≤ maxWheatSend := by
  obtain ⟨hsend, hreceive⟩ := offerValue_le price.n price.d maxWheatSend maxSheepReceive
  unfold adjusted
  dsimp only
  split
  · exact (takenWhole_le hprice hsend hreceive).1
  · exact hwheat.nonneg

theorem amount_adjusted (hsheep : Amount maxSheepReceive) :
    Amount (adjusted price maxWheatSend maxSheepReceive) :=
  ⟨adjusted_nonneg hprice hwheat hsheep, (adjusted_le hprice hwheat).trans hwheat.le_max⟩

end

/-- Taking whole an offer of the amount that the value allows gives the same amounts again,
as long as its owner can buy enough. -/
theorem takenWhole_again (value maxSheepReceive : Int) (hlarge : price.n > price.d →
      (takenWhole price value).1 * price.n ≤ maxSheepReceive * price.d)
    (hsheep : (takenWhole price value).2 ≤ maxSheepReceive) :
    takenWhole price (offerValue price.n price.d (takenWhole price value).1 maxSheepReceive) =
      takenWhole price value := by
  have hn := hprice.n_pos
  have hd := hprice.d_pos
  unfold takenWhole at hlarge hsheep ⊢
  unfold offerValue
  split
  next hgt =>
    simp only [if_pos hgt] at hlarge ⊢
    rw [min_eq_left (hlarge hgt), Int.mul_ediv_cancel _ hn.ne']
  next hle =>
    simp only [if_neg hle] at hsheep ⊢
    have hback : ceilDiv (value / price.d * price.d) price.n * price.n / price.d =
        value / price.d := ediv_ceilDiv_mul hn (not_lt.mp hle) _
    have hmin : min (ceilDiv (value / price.d * price.d) price.n * price.n)
        (maxSheepReceive * price.d) / price.d = value / price.d := by
      rcases min_choice (ceilDiv (value / price.d * price.d) price.n * price.n)
        (maxSheepReceive * price.d) with hmin | hmin
      · rw [hmin, hback]
      · -- the owner's limit decides, which is at least the sheep and at most the wheat's value
        have hcap := hmin ▸ min_le_left (ceilDiv (value / price.d * price.d) price.n * price.n)
          (maxSheepReceive * price.d)
        rw [hmin, Int.mul_ediv_cancel _ hd.ne']
        apply le_antisymm
        · rw [← hback]
          exact (Int.le_ediv_iff_mul_le hd).mpr hcap
        · exact hsheep
    rw [hmin]

theorem takenWhole_nothing {limit : Int} (hlimit : 0 ≤ limit) :
    takenWhole price (offerValue price.n price.d 0 limit) = (0, 0) := by
  rw [offerValue, Int.zero_mul, min_eq_left (mul_nonneg hlimit hprice.d_pos.le),
    takenWhole_zero hprice]

def offerLiabilities (price : Price) (amount : Int) : Int × Int :=
  takenWhole price (offerValue price.n price.d amount i64Max)

omit hprice in
theorem takenWhole_value_le {value wheat : Int} (hn : 0 < price.n) (hgt : price.n > price.d)
    (hvalue : value ≤ wheat) : (takenWhole price value).1 * price.n ≤ wheat := by
  unfold takenWhole
  rw [if_pos hgt]
  exact (Int.ediv_mul_le _ hn.ne').trans hvalue

theorem offerLiabilities_adjusted (maxWheatSend : Int) (hsheep : Amount maxSheepReceive) :
    let amount := adjusted price maxWheatSend maxSheepReceive
    (offerLiabilities price amount).1 = amount ∧
      (offerLiabilities price amount).2 ≤ maxSheepReceive ∧
      (price.n > price.d → amount * price.n ≤ maxSheepReceive * price.d) ∧
      WithinPriceError price amount (offerLiabilities price amount).2 := by
  have hd := hprice.d_pos.le
  obtain ⟨hsend, hreceive⟩ := offerValue_le price.n price.d maxWheatSend maxSheepReceive
  have hle := takenWhole_le hprice hsend hreceive
  unfold adjusted offerLiabilities
  generalize offerValue price.n price.d maxWheatSend maxSheepReceive = value at *
  dsimp only
  split
  next hwithin =>
    have hlarge (hgt : price.n > price.d) := takenWhole_value_le hprice.n_pos hgt hreceive
    have hmax := takenWhole_again hprice value i64Max (fun hgt => (hlarge hgt).trans
      (mul_le_mul_of_nonneg_right hsheep.le_max hd)) (hle.2.trans hsheep.le_max)
    rw [hmax]
    exact ⟨rfl, hle.2, hlarge, hwithin⟩
  next hwithin =>
    rw [takenWhole_nothing hprice amount_i64Max.nonneg, Int.zero_mul]
    exact ⟨rfl, hsheep.nonneg, fun _ => mul_nonneg hsheep.nonneg hd, withinPriceError_zero price⟩

theorem takenWhole_adjusted (hsheep : Amount maxSheepReceive) {maxSheepReceive' : Int}
    (hlarge : price.n > price.d →
      adjusted price maxWheatSend maxSheepReceive * price.n ≤ maxSheepReceive' * price.d)
    (hbuying : (offerLiabilities price
      (adjusted price maxWheatSend maxSheepReceive)).2 ≤ maxSheepReceive') :
    takenWhole price (offerValue price.n price.d
        (adjusted price maxWheatSend maxSheepReceive) maxSheepReceive') =
      offerLiabilities price (adjusted price maxWheatSend maxSheepReceive) := by
  have hliabilities := offerLiabilities_adjusted hprice maxWheatSend hsheep
  dsimp only at hliabilities
  generalize adjusted price maxWheatSend maxSheepReceive = amount at *
  have hagain := takenWhole_again hprice (offerValue price.n price.d amount i64Max)
    maxSheepReceive'
  unfold offerLiabilities at hliabilities hbuying ⊢
  rw [hliabilities.1] at hagain
  exact hagain hlarge hbuying

end Adjusted

end Henyey.Dex
