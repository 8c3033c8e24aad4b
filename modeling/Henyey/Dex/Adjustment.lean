import Henyey.Dex.Crossing

/-!
# Adjusted offers

The adjustment of an offer keeps within the limits and, given room for what the amount
is worth at the price, does not change an adjusted amount. An amount that the price error
drops is what breaks its monotonicity, and a limit at the rounded liabilities is what makes
it take another unit off.
-/

namespace Henyey.Dex

open Foundation

section Adjustment

variable {price : Price} (hprice : price.Positive) {maxWheatSend maxSheepReceive : Int}

/-- The price error does not drop what an unlimited taker of the offer gets. -/
def Undropped (price : Price) (maxWheatSend maxSheepReceive : Int) : Prop :=
  ∃ res, exchangeV10WithoutPriceErrorThresholds price maxWheatSend i64Max i64Max
      maxSheepReceive .normal = .ok res ∧
    checkPriceErrorBound price res.numWheatReceived res.numSheepSend false = .ok ()

theorem limits_unlimited (hwheat : Amount maxWheatSend) (hsheep : Amount maxSheepReceive) :
    Limits maxWheatSend i64Max i64Max maxSheepReceive :=
  ⟨hwheat, amount_i64Max, amount_i64Max, hsheep⟩

include hprice

theorem offerLiabilitiesSell_eq {amount : Int} (hamount : Amount amount) :
    offerLiabilitiesSell amount price = .ok (offerLiabilities price amount) := by
  unfold offerLiabilitiesSell
  rw [exchangeV10WithoutPriceErrorThresholds_eq hprice
    ⟨hamount, amount_i64Max, amount_i64Max, amount_i64Max⟩, ok_bind,
    exactExchange_unlimited hprice hamount amount_i64Max]
  rfl

theorem undropped_iff (hwheat : Amount maxWheatSend) (hsheep : Amount maxSheepReceive) :
    Undropped price maxWheatSend maxSheepReceive ↔
      let amounts := takenWhole price (offerValue price.n price.d maxWheatSend maxSheepReceive)
      WithinPriceError price amounts.1 amounts.2 := by
  have hlimits := limits_unlimited hwheat hsheep
  have hamounts := exactExchange_amounts hprice hlimits .normal
  unfold Undropped
  rw [exchangeV10WithoutPriceErrorThresholds_eq hprice hlimits]
  rw [exactExchange_unlimited hprice hwheat hsheep] at hamounts ⊢
  dsimp only at hamounts ⊢
  have hcheck := checkPriceErrorBound_eq hprice hamounts.1 hamounts.2 false
  simp only [Bool.false_eq_true, false_and, false_or] at hcheck
  constructor
  · rintro ⟨res, hres, hok⟩
    injection hres with hres
    subst hres
    rw [hcheck] at hok
    by_contra hfar
    rw [if_neg hfar] at hok
    cases hok
  · intro hwithin
    exact ⟨_, rfl, by rw [hcheck, if_pos hwithin]⟩

theorem takenWhole_mono {value value' : Int} (hle : value ≤ value') :
    (takenWhole price value).1 ≤ (takenWhole price value').1 := by
  have hn := hprice.n_pos
  have hd := hprice.d_pos
  unfold takenWhole
  split
  · exact Int.ediv_le_ediv hn hle
  · exact ceilDiv_mono hn (mul_le_mul_of_nonneg_right (Int.ediv_le_ediv hd hle) hd.le)

/-- More to sell and more room to buy do not lower the adjusted amount, if it is not
dropped. -/
theorem adjusted_mono {maxWheatSend' maxSheepReceive' : Int} (hwheat : Amount maxWheatSend)
    (hsheep : Amount maxSheepReceive) (hwheatLe : maxWheatSend ≤ maxWheatSend')
    (hsheepLe : maxSheepReceive ≤ maxSheepReceive') (hwithin : WithinPriceError price
      (takenWhole price (offerValue price.n price.d maxWheatSend' maxSheepReceive')).1
      (takenWhole price (offerValue price.n price.d maxWheatSend' maxSheepReceive')).2) :
    adjusted price maxWheatSend maxSheepReceive ≤
      adjusted price maxWheatSend' maxSheepReceive' := by
  have hvalue := (offerValue_nonneg hprice (limits_unlimited hwheat hsheep)).1
  have hmono : offerValue price.n price.d maxWheatSend maxSheepReceive ≤
      offerValue price.n price.d maxWheatSend' maxSheepReceive' :=
    min_le_min (mul_le_mul_of_nonneg_right hwheatLe hprice.n_pos.le)
      (mul_le_mul_of_nonneg_right hsheepLe hprice.d_pos.le)
  unfold adjusted
  dsimp only
  rw [if_pos hwithin]
  split
  · exact takenWhole_mono hprice hmono
  · exact (takenWhole_nonneg hprice (hvalue.trans hmono)).1

/-- Adjusting an adjusted amount again gives less unless its owner has room for its worth
at the price. -/
theorem adjusted_again_iff {maxSheepReceive' : Int} (hwheat : Amount maxWheatSend)
    (hsheep : Amount maxSheepReceive) (hsheep' : Amount maxSheepReceive')
    (hbuying : (offerLiabilities price
      (adjusted price maxWheatSend maxSheepReceive)).2 ≤ maxSheepReceive') :
    adjusted price (adjusted price maxWheatSend maxSheepReceive) maxSheepReceive' =
        adjusted price maxWheatSend maxSheepReceive ↔
      (price.n > price.d →
        adjusted price maxWheatSend maxSheepReceive * price.n ≤ maxSheepReceive' * price.d) := by
  have hamount := adjusted_nonneg hprice hwheat hsheep
  obtain ⟨hsame, _, _, hwithin⟩ := offerLiabilities_adjusted hprice maxWheatSend hsheep
  constructor
  · intro hagain hgt
    by_contra hroom
    have hless : (takenWhole price (offerValue price.n price.d
        (adjusted price maxWheatSend maxSheepReceive) maxSheepReceive')).1 * price.n ≤
        maxSheepReceive' * price.d :=
      takenWhole_value_le hprice.n_pos hgt (min_le_right _ _)
    rw [← hagain] at hroom
    generalize adjusted price maxWheatSend maxSheepReceive = amount at *
    unfold adjusted at hroom
    dsimp only at hroom
    split at hroom
    · exact hroom hless
    · rw [Int.zero_mul] at hroom
      exact hroom (mul_nonneg hsheep'.nonneg hprice.d_pos.le)
  · intro hlarge
    have hwhole := takenWhole_adjusted hprice hsheep hlarge hbuying
    generalize adjusted price maxWheatSend maxSheepReceive = amount at *
    unfold adjusted
    dsimp only
    rw [hwhole, hsame, if_pos hwithin]

end Adjustment

/-- What adjusting an offer achieves. -/
structure Adjusts (price : Price) (maxWheatSend maxSheepReceive amount : Int) : Prop where
  nonneg : 0 ≤ amount
  le : amount ≤ maxWheatSend
  /-- The liabilities of the adjusted offer are within the limits. -/
  liabilities : ∃ selling buying, offerLiabilitiesSell amount price = .ok (selling, buying) ∧
    selling ≤ maxWheatSend ∧ buying ≤ maxSheepReceive ∧
    -- A second adjustment with enough room changes nothing, and only then.
    ∀ maxSheepReceive', Amount maxSheepReceive' → buying ≤ maxSheepReceive' →
      (adjustOfferAmount price amount maxSheepReceive' = .ok amount ↔
        (price.n > price.d → amount * price.n ≤ maxSheepReceive' * price.d))
  /-- A second adjustment with the same room changes nothing. -/
  again : adjustOfferAmount price amount maxSheepReceive = .ok amount
  /-- More room never gives a smaller amount that is not dropped. -/
  mono : ∀ maxWheatSend' maxSheepReceive', Amount maxWheatSend' → Amount maxSheepReceive' →
    maxWheatSend ≤ maxWheatSend' → maxSheepReceive ≤ maxSheepReceive' →
    Undropped price maxWheatSend' maxSheepReceive' →
    ∃ amount', adjustOfferAmount price maxWheatSend' maxSheepReceive' = .ok amount' ∧
      amount ≤ amount'
  /-- An unlimited taker takes the offer to the last unit, at the price. -/
  executable : 0 < amount → ∀ round, ∃ sheep,
    crossOfferExchange price amount i64Max i64Max maxSheepReceive round =
        .ok { numWheatReceived := amount, numSheepSend := sheep, wheatStays := false } ∧
      0 < sheep ∧ 100 * |amount * price.n - sheep * price.d| ≤ amount * price.n

/-- Adjusting makes an offer executable. -/
theorem adjustOfferAmount_adjusts (price : Price) (hprice : price.Positive)
    (maxWheatSend maxSheepReceive : Int) (hwheat : Amount maxWheatSend)
    (hsheep : Amount maxSheepReceive) :
    ∃ amount, adjustOfferAmount price maxWheatSend maxSheepReceive = .ok amount ∧
      Adjusts price maxWheatSend maxSheepReceive amount := by
  have hamount := amount_adjusted hprice hwheat hsheep
  have hle : adjusted price maxWheatSend maxSheepReceive ≤ maxWheatSend :=
    adjusted_le hprice hwheat
  obtain ⟨hselling, hbuying, hlarge, hwithin⟩ :=
    offerLiabilities_adjusted hprice maxWheatSend hsheep
  refine ⟨_, adjustOfferAmount_eq hprice hwheat hsheep, hamount.nonneg, hle, ?_, ?_, ?_, ?_⟩
  · refine ⟨_, _, offerLiabilitiesSell_eq hprice hamount, hselling.trans_le hle, hbuying, ?_⟩
    intro maxSheepReceive' hsheep' hroom
    rw [adjustOfferAmount_eq hprice hamount hsheep', Except.ok.injEq]
    exact adjusted_again_iff hprice hwheat hsheep hsheep' hroom
  · rw [adjustOfferAmount_eq hprice hamount hsheep, Except.ok.injEq]
    exact (adjusted_again_iff hprice hwheat hsheep hsheep hbuying).mpr hlarge
  · intro maxWheatSend' maxSheepReceive' hwheat' hsheep' hwheatLe hsheepLe hundropped
    refine ⟨_, adjustOfferAmount_eq hprice hwheat' hsheep', ?_⟩
    exact adjusted_mono hprice hwheat hsheep hwheatLe hsheepLe
      ((undropped_iff hprice hwheat' hsheep').mp hundropped)
  · intro hpos round
    have hlimits := limits_unlimited hamount hsheep
    have hagain := (adjusted_again_iff hprice hwheat hsheep hsheep hbuying).mpr hlarge
    have hwhole := takenWhole_adjusted hprice hsheep hlarge hbuying
    have hvalue := (offerValue_nonneg hprice hlimits).1
    refine ⟨(offerLiabilities price (adjusted price maxWheatSend maxSheepReceive)).2, ?_,
      sheep_pos_of_within hprice hwithin hpos, withinPriceError_iff.mp hwithin⟩
    unfold crossOfferExchange
    rw [adjustOfferAmount_eq hprice hamount hsheep, ok_bind, hagain, exchangeV10_eq hprice hlimits,
      exactExchange_unlimited hprice hamount hsheep]
    dsimp only
    have hkept := thresholded_takenWhole hprice hvalue round
      (by rw [hwhole, hselling]; exact hwithin)
    rw [hkept, hwhole, hselling]

/-- An offer of a hundred and one at a price above one. -/
theorem adjustOfferAmount_adjusts_aboveOne :
    ∃ amount, adjustOfferAmount ⟨3, 2⟩ 101 i64Max = .ok amount ∧ Adjusts ⟨3, 2⟩ 101 i64Max amount :=
  adjustOfferAmount_adjusts ⟨3, 2⟩ ⟨by decide, by decide, by decide, by decide⟩ 101 i64Max
    ⟨by decide, by decide⟩ amount_i64Max

/-- With room for its rounded liabilities only, an adjusted offer is adjusted again; and with
one more unit to sell an adjusted offer can be dropped. -/
theorem adjustOfferAmount_again_less :
    adjustOfferAmount ⟨3, 2⟩ 101 i64Max = .ok 101 ∧
      offerLiabilitiesSell 101 ⟨3, 2⟩ = .ok (101, 151) ∧
      adjustOfferAmount ⟨3, 2⟩ 101 151 = .ok 100 ∧
      adjustOfferAmount ⟨3, 2⟩ 2 i64Max = .ok 2 ∧
      adjustOfferAmount ⟨3, 2⟩ 3 i64Max = .ok 0 := by
  decide +kernel

end Henyey.Dex
