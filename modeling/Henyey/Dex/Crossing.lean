import Mathlib.Algebra.Order.Ring.Abs
import Henyey.Dex.PriceError

/-!
# What an exchange guarantees

Under any prices and limits an exchange stays within the limits, favours the side that
stays in the book and keeps to the price, or refuses on account of the price error. With
the offer adjusted first it never refuses.
-/

namespace Henyey.Dex

open Foundation

section Crossing

variable {price : Price} (hprice : price.Positive)
  {maxWheatSend maxWheatReceive maxSheepSend maxSheepReceive : Int}

/-- An exchange that went well: within the limits, for the side that stays, and near the
price where amounts are rounded. -/
structure Fair (price : Price) (maxWheatSend maxWheatReceive maxSheepSend maxSheepReceive : Int)
    (round : RoundingType) (res : ExchangeResult) : Prop where
  wheat_nonneg : 0 ≤ res.numWheatReceived
  wheat_le : res.numWheatReceived ≤ min maxWheatSend maxWheatReceive
  sheep_nonneg : 0 ≤ res.numSheepSend
  sheep_le : res.numSheepSend ≤ min maxSheepSend maxSheepReceive
  favors : Favors price res
  near : round = .normal →
    100 * |res.numWheatReceived * price.n - res.numSheepSend * price.d| ≤
      res.numWheatReceived * price.n

/-- The refusal, for the amounts that the check of the price error finds too far off. -/
def Refused (price : Price) (maxWheatSend maxWheatReceive maxSheepSend maxSheepReceive : Int)
    (round : RoundingType) : Prop :=
  round ≠ .normal ∧
    ∃ res, exchangeV10WithoutPriceErrorThresholds price maxWheatSend maxWheatReceive
        maxSheepSend maxSheepReceive round = .ok res ∧
      0 < res.numWheatReceived ∧ 0 < res.numSheepSend ∧
      checkPriceErrorBound price res.numWheatReceived res.numSheepSend true =
        .error (.error .priceError)

theorem withinPriceError_iff {wheat sheep : Int} :
    WithinPriceError price wheat sheep ↔
      100 * |wheat * price.n - sheep * price.d| ≤ wheat * price.n := by
  have hscale : wheat * (100 * price.n) - sheep * (100 * price.d) =
      100 * (wheat * price.n - sheep * price.d) := by ring
  unfold WithinPriceError
  rw [hscale, abs_mul]
  rfl

include hprice

theorem fair_dropped {round : RoundingType} {sheep : Int} {wheatStays : Bool}
    (hlimits : Limits maxWheatSend maxWheatReceive maxSheepSend maxSheepReceive)
    (hsheep : 0 ≤ sheep) (hsheepLe : sheep ≤ min maxSheepSend maxSheepReceive)
    (hround : sheep = 0 ∨ (round ≠ .normal ∧ wheatStays = true)) :
    Fair price maxWheatSend maxWheatReceive maxSheepSend maxSheepReceive round
      { numWheatReceived := 0, numSheepSend := sheep, wheatStays := wheatStays } where
  wheat_nonneg := le_rfl
  wheat_le := le_min hlimits.wheatSend.nonneg hlimits.wheatReceive.nonneg
  sheep_nonneg := hsheep
  sheep_le := hsheepLe
  favors := by
    have hvalue := mul_nonneg hsheep hprice.d_pos.le
    rcases hround with rfl | ⟨_, rfl⟩
    · simp [Favors]
    · simpa [Favors] using hvalue
  near := by
    rcases hround with rfl | ⟨hne, _⟩
    · simp
    · exact fun h => absurd h hne

variable (hlimits : Limits maxWheatSend maxWheatReceive maxSheepSend maxSheepReceive)
include hlimits

theorem exchangeV10_fair_or_refused (round : RoundingType) :
    (∃ res, exchangeV10 price maxWheatSend maxWheatReceive maxSheepSend maxSheepReceive round =
        .ok res ∧ Fair price maxWheatSend maxWheatReceive maxSheepSend maxSheepReceive round res) ∨
      (exchangeV10 price maxWheatSend maxWheatReceive maxSheepSend maxSheepReceive round =
          .error (.error .priceError) ∧
        Refused price maxWheatSend maxWheatReceive maxSheepSend maxSheepReceive round) := by
  have hexact := exchangeV10WithoutPriceErrorThresholds_eq hprice hlimits round
  obtain ⟨hwheat, hwheatLe, hsheep, hsheepLe⟩ := exactExchange_le hprice hlimits round
  obtain ⟨hwheatAmount, hsheepAmount⟩ := exactExchange_amounts hprice hlimits round
  have hfavors : Favors price (exactExchange price maxWheatSend maxWheatReceive maxSheepSend
      maxSheepReceive round) := exactExchange_favors hprice round
  rw [exchangeV10_eq hprice hlimits]
  generalize exactExchange price maxWheatSend maxWheatReceive maxSheepSend maxSheepReceive
    round = res at *
  rw [min_comm] at hwheatLe hsheepLe
  have hfair (hnear : round = .normal →
      WithinPriceError price res.numWheatReceived res.numSheepSend) :
      Fair price maxWheatSend maxWheatReceive maxSheepSend maxSheepReceive round res :=
    ⟨hwheat, hwheatLe, hsheep, hsheepLe, hfavors, fun h => withinPriceError_iff.mp (hnear h)⟩
  have hnothing : 0 ≤ min maxSheepSend maxSheepReceive := hsheep.trans hsheepLe
  unfold thresholded
  split
  next hpos =>
    split
    next hround =>
      left
      split
      next hwithin => exact ⟨res, rfl, hfair fun _ => hwithin⟩
      · exact ⟨_, rfl, fair_dropped hprice hlimits le_rfl hnothing (.inl rfl)⟩
    next hround =>
      split
      · exact .inl ⟨res, rfl, hfair fun h => absurd h hround⟩
      next hfar =>
        refine .inr ⟨rfl, hround, res, hexact, hpos.1, hpos.2, ?_⟩
        rw [checkPriceErrorBound_eq hprice hwheatAmount hsheepAmount, if_neg]
        simpa using hfar
  next hzero =>
    left
    split
    next hround =>
      refine ⟨_, rfl, fair_dropped hprice hlimits hsheep hsheepLe ?_⟩
      by_cases hstays : res.wheatStays = true
      · exact .inr ⟨by rw [hround]; decide, hstays⟩
      · -- an offer that is gone got no sheep for no wheat
        left
        unfold Favors at hfavors
        rw [if_neg hstays] at hfavors
        by_contra hne
        have hcost : 0 < res.numSheepSend * price.d := mul_pos (by omega) hprice.d_pos
        have hwheatPos : 0 < res.numWheatReceived := by
          by_contra hle
          have hvalue := mul_nonpos_of_nonpos_of_nonneg (not_lt.mp hle) hprice.n_pos.le
          omega
        exact hzero ⟨hwheatPos, by omega⟩
    · exact ⟨_, rfl, fair_dropped hprice hlimits le_rfl hnothing (.inl rfl)⟩

/-- The exchange is refused exactly where the check of the price error refuses it, and is fair
everywhere else. -/
theorem exchangeV10_refused_iff (round : RoundingType) :
    (exchangeV10 price maxWheatSend maxWheatReceive maxSheepSend maxSheepReceive round =
        .error (.error .priceError) ↔
      Refused price maxWheatSend maxWheatReceive maxSheepSend maxSheepReceive round) ∧
    (¬ Refused price maxWheatSend maxWheatReceive maxSheepSend maxSheepReceive round →
      ∃ res, exchangeV10 price maxWheatSend maxWheatReceive maxSheepSend maxSheepReceive round =
          .ok res ∧
        Fair price maxWheatSend maxWheatReceive maxSheepSend maxSheepReceive round res) := by
  rcases exchangeV10_fair_or_refused hprice hlimits round with
    ⟨res, hres, hfair⟩ | ⟨herror, hrefused⟩
  · refine ⟨⟨fun herror => ?_, fun hrefused => ?_⟩, fun _ => ⟨res, hres, hfair⟩⟩
    · rw [hres] at herror
      cases herror
    · -- the check fails after the amounts are computed, so no result is returned
      obtain ⟨hround, raw, hraw, hwheat, hsheep, hcheck⟩ := hrefused
      rw [exchangeV10, hraw, ok_bind, applyPriceErrorThresholds, if_pos ⟨hwheat, hsheep⟩] at hres
      simp only [if_neg hround, hcheck] at hres
      split at hres <;> [cases hres; split at hres <;> cases hres]
  · exact ⟨⟨fun _ => hrefused, fun _ => herror⟩, fun hnot => absurd hrefused hnot⟩

/-- Amounts that pass the check of the price error are what is exchanged. -/
theorem exchangeV10_of_check {round : RoundingType} {raw : ExchangeResult}
    (hraw : exchangeV10WithoutPriceErrorThresholds price maxWheatSend maxWheatReceive maxSheepSend
      maxSheepReceive round = .ok raw)
    (hwheat : 0 < raw.numWheatReceived) (hsheep : 0 < raw.numSheepSend)
    (hcheck : checkPriceErrorBound price raw.numWheatReceived raw.numSheepSend
      (decide (round ≠ .normal)) = .ok ()) :
    exchangeV10 price maxWheatSend maxWheatReceive maxSheepSend maxSheepReceive round =
      .ok raw := by
  have hexact := exchangeV10WithoutPriceErrorThresholds_eq hprice hlimits round
  obtain rfl := Except.ok.inj (hraw.symm.trans hexact)
  obtain ⟨hwheatAmount, hsheepAmount⟩ := exactExchange_amounts hprice hlimits round
  rw [checkPriceErrorBound_eq hprice hwheatAmount hsheepAmount] at hcheck
  have hwithin := of_not_not fun hfar => by
    rw [if_neg hfar] at hcheck
    cases hcheck
  rw [exchangeV10_eq hprice hlimits, thresholded, if_pos ⟨hwheat, hsheep⟩]
  split
  next hround =>
    rw [if_pos (hwithin.resolve_left fun h => by simp [hround] at h)]
  next hround => exact if_pos (hwithin.imp_left And.right)

omit hlimits in
/-- An offer that stays gets at least its price, which is never refused. -/
theorem thresholded_ok_of_favors {res : ExchangeResult} (round : RoundingType)
    (hfavors : res.numWheatReceived * price.n ≤ res.numSheepSend * price.d) :
    ∃ res', thresholded price res round = .ok res' ∧ res'.wheatStays = res.wheatStays := by
  unfold thresholded
  split
  next hpos =>
    split
    · split <;> exact ⟨_, rfl, rfl⟩
    · refine ⟨res, if_pos ?_, rfl⟩
      rcases hfavors.lt_or_eq with hlt | heq
      · exact .inl hlt
      · right
        rw [withinPriceError_iff, heq, sub_self, abs_zero]
        exact heq ▸ mul_nonneg hpos.1.le hprice.n_pos.le
  · split <;> exact ⟨_, rfl, rfl⟩

/-- With the offer adjusted first the exchange is never refused, and an offer that does not
stay is exchanged to the last unit. -/
theorem crossOfferExchange_ok (round : RoundingType) :
    ∃ res, crossOfferExchange price maxWheatSend maxWheatReceive maxSheepSend maxSheepReceive
        round = .ok res ∧
      (res.wheatStays = false →
        adjustOfferAmount price maxWheatSend maxSheepReceive = .ok res.numWheatReceived) := by
  have hadjusted := adjustOfferAmount_eq hprice hlimits.wheatSend hlimits.sheepReceive
  have hamount := amount_adjusted hprice hlimits.wheatSend hlimits.sheepReceive
  have hlimits' : Limits (adjusted price maxWheatSend maxSheepReceive) maxWheatReceive
      maxSheepSend maxSheepReceive :=
    ⟨hamount, hlimits.wheatReceive, hlimits.sheepSend, hlimits.sheepReceive⟩
  have hvalue := (offerValue_nonneg hprice hlimits').1
  obtain ⟨hwheat, hbuying, hlarge, hwithin⟩ :=
    offerLiabilities_adjusted hprice maxWheatSend hlimits.sheepReceive
  have hwhole := takenWhole_adjusted hprice hlimits.sheepReceive hlarge hbuying
  have hfavors : Favors price (exactExchange price (adjusted price maxWheatSend maxSheepReceive)
      maxWheatReceive maxSheepSend maxSheepReceive round) := exactExchange_favors hprice round
  unfold crossOfferExchange
  rw [hadjusted, ok_bind, exchangeV10_eq hprice hlimits']
  by_cases hstays : (exactExchange price (adjusted price maxWheatSend maxSheepReceive)
      maxWheatReceive maxSheepSend maxSheepReceive round).wheatStays = true
  · unfold Favors at hfavors
    rw [if_pos hstays] at hfavors
    obtain ⟨res, hres, hsame⟩ := thresholded_ok_of_favors hprice round hfavors
    refine ⟨res, hres, fun hgone => ?_⟩
    rw [hsame, hstays] at hgone
    cases hgone
  · have hgone := hstays
    unfold exactExchange at hgone ⊢
    simp only [decide_eq_true_eq] at hgone
    dsimp only
    rw [if_neg hgone, decide_eq_false hgone, thresholded_takenWhole hprice hvalue]
    · exact ⟨_, rfl, fun _ => by rw [hwhole, hwheat]⟩
    · rw [hwhole, hwheat]
      exact hwithin

end Crossing

/-- Exchanges under any limits are refused exactly where the check of the price error says so
and fair elsewhere, and amounts that pass the check are what is exchanged. The products fit into
128 bits, and after the adjustment that crossing makes no exchange is refused. -/
theorem exchangeV10_correct (price : Price) (hprice : price.Positive)
    (maxWheatSend maxWheatReceive maxSheepSend maxSheepReceive : Int)
    (hlimits : Limits maxWheatSend maxWheatReceive maxSheepSend maxSheepReceive)
    (round : RoundingType) :
    ((exchangeV10 price maxWheatSend maxWheatReceive maxSheepSend maxSheepReceive round =
          .error (.error .priceError) ↔
        Refused price maxWheatSend maxWheatReceive maxSheepSend maxSheepReceive round) ∧
      (¬ Refused price maxWheatSend maxWheatReceive maxSheepSend maxSheepReceive round →
        ∃ res, exchangeV10 price maxWheatSend maxWheatReceive maxSheepSend maxSheepReceive round =
            .ok res ∧
          Fair price maxWheatSend maxWheatReceive maxSheepSend maxSheepReceive round res)) ∧
    (∀ raw, exchangeV10WithoutPriceErrorThresholds price maxWheatSend maxWheatReceive maxSheepSend
        maxSheepReceive round = .ok raw → 0 < raw.numWheatReceived → 0 < raw.numSheepSend →
      checkPriceErrorBound price raw.numWheatReceived raw.numSheepSend
        (decide (round ≠ .normal)) = .ok () →
      exchangeV10 price maxWheatSend maxWheatReceive maxSheepSend maxSheepReceive round = .ok raw) ∧
    (∀ lhs rhs, Amount lhs → Amount rhs → bigMultiply lhs rhs = lhs * rhs) ∧
    ∃ res, crossOfferExchange price maxWheatSend maxWheatReceive maxSheepSend maxSheepReceive
        round = .ok res ∧
      (res.wheatStays = false →
        adjustOfferAmount price maxWheatSend maxSheepReceive = .ok res.numWheatReceived) :=
  ⟨exchangeV10_refused_iff hprice hlimits round,
    fun _ hraw hwheat hsheep hcheck => exchangeV10_of_check hprice hlimits hraw hwheat hsheep hcheck,
    fun _ _ => bigMultiply_eq, crossOfferExchange_ok hprice hlimits round⟩

/-- One unit at three for two costs one, which is too far off; adjusted first, the extreme
exchange is not refused. -/
theorem exchangeV10_correct_extreme :
    exchangeV10 ⟨3, 2⟩ 1 100 100 100 .pathPaymentStrictReceive = .error (.error .priceError) ∧
      crossOfferExchange ⟨i32Max, 1⟩ i64Max i64Max i64Max i64Max .normal ≠
        .error (.error .priceError) := by
  constructor
  · have hcorrect := exchangeV10_correct ⟨3, 2⟩
      ⟨by decide, by decide, by decide, by decide⟩ 1 100 100 100
      ⟨⟨by decide, by decide⟩, ⟨by decide, by decide⟩, ⟨by decide, by decide⟩,
        ⟨by decide, by decide⟩⟩ .pathPaymentStrictReceive
    exact hcorrect.1.1.mpr ⟨by decide, ⟨1, 1, false⟩, by decide, by decide, by decide, by decide⟩
  · have hcorrect := exchangeV10_correct ⟨i32Max, 1⟩
      ⟨by decide, by decide, by decide, by decide⟩ i64Max i64Max i64Max i64Max
      ⟨amount_i64Max, amount_i64Max, amount_i64Max, amount_i64Max⟩ .normal
    obtain ⟨res, hres, _⟩ := hcorrect.2.2.2
    rw [hres]
    intro h
    cases h

end Henyey.Dex
