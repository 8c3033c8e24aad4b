import Henyey.Dex.Pool

/-!
# What a pool exchange computes

The amounts are the exact quotients, rounded for the pool, the product of the reserves does
not decrease, and sending what was quoted for an amount delivers that amount.
-/

namespace Henyey.Dex

open Foundation

/-- A reserve of a pool that is in use. -/
structure Reserve (reserve : Int) : Prop where
  pos : 1 ≤ reserve
  le_max : reserve ≤ i64Max

theorem Reserve.amount {reserve : Int} (hreserve : Reserve reserve) : Amount reserve :=
  ⟨by have := hreserve.pos; omega, hreserve.le_max⟩

/-- What a strict send receives. -/
def sendQuote (reservesTo reservesFrom sent : Int) : Int :=
  reservesFrom * sent * 9970 / (reservesTo * 10000 + sent * 9970)

/-- What a strict receive sends. -/
def receiveQuote (reservesTo reservesFrom received : Int) : Int :=
  ceilDiv (10000 * reservesTo * received) ((reservesFrom - received) * 9970)

/-! ### Operations that stay in range -/

theorem plainU128_eq {value : Int} (hnonneg : 0 ≤ value) (hle : value ≤ u128Max) :
    plainU128 value = .ok value :=
  if_pos ⟨hnonneg, hle⟩

theorem plainI64_eq {value : Int} (hvalue : Amount value) : plainI64 value = .ok value := by
  have hmin : -i64Max - 1 ≤ 0 := by decide
  exact if_pos ⟨hmin.trans hvalue.nonneg, hvalue.le_max⟩

theorem asU64_eq {value : Int} (hvalue : Amount value) : asU64 value = value := by
  have hle := hvalue.le_max
  unfold i64Max at hle
  exact Int.emod_eq_of_lt hvalue.nonneg (by omega)

theorem plainU128_mul {lhs rhs : Int} (hlhs : Amount lhs) (hrhs : Amount rhs) :
    plainU128 (lhs * rhs) = .ok (lhs * rhs) := by
  have hmax : i64Max * i64Max ≤ u128Max := by decide
  exact plainU128_eq (mul_nonneg hlhs.nonneg hrhs.nonneg) ((mul_amounts_le hlhs hrhs).trans hmax)

/-- The parts of a division in two steps, for a divisor of 80 bits. -/
theorem hugeDivide_parts {a b c : Int} (ha : 0 ≤ a) (haLe : a ≤ 10000) (hb : 0 ≤ b) (hc : 0 < c)
    (hcLe : c ≤ 20000 * i64Max) (hwhole : a * (b / c) ≤ u128Max) :
    plainU128 (a * (b / c)) = .ok (a * (b / c)) ∧ plainU128 (a * (b % c)) = .ok (a * (b % c)) := by
  have hrest := Int.emod_nonneg b hc.ne'
  have hless := Int.emod_lt_of_pos b hc
  have hpart : a * (b % c) ≤ 10000 * (20000 * i64Max) :=
    mul_le_mul haLe (hless.le.trans hcLe) hrest (by decide)
  have hmax : 10000 * (20000 * i64Max) ≤ u128Max := by decide
  exact ⟨plainU128_eq (mul_nonneg ha (Int.ediv_nonneg hb hc.le)) hwhole,
    plainU128_eq (mul_nonneg ha hrest) (hpart.trans hmax)⟩

theorem hugeDivideDown_eq {a b c : Int} (ha : 0 ≤ a) (haLe : a ≤ 10000) (hb : 0 ≤ b) (hc : 0 < c)
    (hcLe : c ≤ 20000 * i64Max) (hresult : a * b / c ≤ u128Max) :
    hugeDivideDown a b c = .ok (a * b / c) := by
  have hsplit := mul_ediv_add_ediv a b hc
  have hpart : 0 ≤ a * (b % c) / c :=
    Int.ediv_nonneg (mul_nonneg ha (Int.emod_nonneg b hc.ne')) hc.le
  obtain ⟨hwhole, hrest⟩ := hugeDivide_parts ha haLe hb hc hcLe (by omega)
  unfold hugeDivideDown
  dsimp only
  rw [hwhole, ok_bind, hrest, ok_bind, hsplit]
  exact plainU128_eq (Int.ediv_nonneg (mul_nonneg ha hb) hc.le) hresult

theorem hugeDivideUp_eq {a b c : Int} (ha : 0 ≤ a) (haLe : a ≤ 10000) (hb : 0 ≤ b) (hc : 0 < c)
    (hcLe : c ≤ 20000 * i64Max) (hresult : ceilDiv (a * b) c ≤ u128Max) :
    hugeDivideUp a b c = .ok (ceilDiv (a * b) c) := by
  have hsplit := mul_ediv_add_ceilDiv a b hc
  have hpart : 0 ≤ ceilDiv (a * (b % c)) c :=
    ceilDiv_nonneg hc (mul_nonneg ha (Int.emod_nonneg b hc.ne'))
  obtain ⟨hwhole, hrest⟩ := hugeDivide_parts ha haLe hb hc hcLe (by omega)
  unfold hugeDivideUp
  dsimp only
  rw [hwhole, ok_bind, hrest, ok_bind, hsplit]
  exact plainU128_eq (ceilDiv_nonneg hc (mul_nonneg ha hb)) hresult

theorem exchangeWithPool_eq (request : PoolExchangeRequest) (out : PoolAmounts)
    (hfee : request.feeBps = liquidityPoolFeeV18) (hto : 1 ≤ request.reservesToPool)
    (hfrom : 1 ≤ request.reservesFromPool) :
    exchangeWithPool request out =
      match request.round with
      | .pathPaymentStrictSend => exchangeStrictSend request out
      | .pathPaymentStrictReceive => exchangeStrictReceive request out
      | .normal => .ok (false, out) := by
  unfold exchangeWithPool
  rw [hfee, if_neg (by decide), if_neg (by omega)]
  rfl

/-! ### Strict send -/

section Send

variable {reservesTo reservesFrom sent : Int}
  (hto : Reserve reservesTo) (hfrom : Reserve reservesFrom) (hsent : Amount sent)
include hto hfrom hsent

theorem sendQuote_nonneg : 0 ≤ sendQuote reservesTo reservesFrom sent := by
  have hpos := hto.pos
  have hsend := hsent.nonneg
  exact Int.ediv_nonneg (mul_nonneg (mul_nonneg hfrom.amount.nonneg hsend) (by decide)) (by omega)

/-- A pool never gives its whole reserve. -/
theorem sendQuote_lt : sendQuote reservesTo reservesFrom sent < reservesFrom := by
  have hpos := hto.pos
  have hsend := hsent.nonneg
  have hfromPos := hfrom.pos
  unfold sendQuote
  rw [Int.ediv_lt_iff_lt_mul (by omega)]
  have hcost : 0 < reservesFrom * (reservesTo * 10000) := mul_pos (by omega) (by omega)
  linarith [mul_add reservesFrom (reservesTo * 10000) (sent * 9970),
    mul_assoc reservesFrom sent 9970]

theorem sendQuote_product :
    reservesTo * reservesFrom ≤
      (reservesTo + sent) * (reservesFrom - sendQuote reservesTo reservesFrom sent) := by
  have hpos := hto.pos
  have hsend := hsent.nonneg
  have hless := sendQuote_lt hto hfrom hsent
  have hfloor : sendQuote reservesTo reservesFrom sent * (reservesTo * 10000 + sent * 9970) ≤
      reservesFrom * sent * 9970 := Int.ediv_mul_le _ (by omega)
  have hnonneg := sendQuote_nonneg hto hfrom hsent
  generalize sendQuote reservesTo reservesFrom sent = received at *
  have hfee : 0 ≤ sent * (reservesFrom - received) := mul_nonneg hsend (by omega)
  nlinarith

/-- A strict send computes the quotient and fails if the reserve would overflow or nothing
would be received. -/
theorem exchangeStrictSend_eq (out : PoolAmounts) :
    exchangeWithPool
        { reservesToPool := reservesTo, maxSendToPool := sent, reservesFromPool := reservesFrom,
          maxReceiveFromPool := i64Max, feeBps := liquidityPoolFeeV18,
          round := .pathPaymentStrictSend } out =
      if sent > i64Max - reservesTo then .ok (false, out)
      else .ok (decide (sendQuote reservesTo reservesFrom sent ≠ 0),
        { toPool := sent, fromPool := sendQuote reservesTo reservesFrom sent }) := by
  have hpos := hto.pos
  have hfromPos := hfrom.pos
  have htoLe := hto.le_max
  have hsend := hsent.nonneg
  have hsendLe := hsent.le_max
  have hquote : Amount (sendQuote reservesTo reservesFrom sent) :=
    ⟨sendQuote_nonneg hto hfrom hsent, (sendQuote_lt hto hfrom hsent).le.trans hfrom.le_max⟩
  have hless := sendQuote_lt hto hfrom hsent
  have hfee : Amount 9970 := ⟨by decide, by decide⟩
  have hbps : Amount 10000 := ⟨by decide, by decide⟩
  have hmax : 20000 * i64Max ≤ u128Max := by decide
  have hmaxU : i64Max ≤ u128Max := by decide
  have hroom : Amount (i64Max - reservesTo) := ⟨by omega, by omega⟩
  have hvalue : (9970 : Int) * (reservesFrom * sent) / (10000 * reservesTo + 9970 * sent) =
      sendQuote reservesTo reservesFrom sent := by
    unfold sendQuote
    rw [mul_comm 9970, mul_comm 10000, mul_comm 9970 sent]
  have hdivide : hugeDivideDown 9970 (reservesFrom * sent) (10000 * reservesTo + 9970 * sent) =
      .ok (sendQuote reservesTo reservesFrom sent) := by
    rw [hugeDivideDown_eq (by decide) (by decide) (mul_nonneg hfrom.amount.nonneg hsend)
      (by omega) (by omega) (by rw [hvalue]; exact hquote.le_max.trans hmaxU), hvalue]
  have hfactor : asU64 (maxBps - liquidityPoolFeeV18) = 9970 := by decide
  have hscale : asU64 maxBps = 10000 := by decide
  have hsum : plainU128 (10000 * reservesTo + 9970 * sent) =
      .ok (10000 * reservesTo + 9970 * sent) := plainU128_eq (by omega) (by omega)
  rw [exchangeWithPool_eq _ out rfl hto.pos hfrom.pos]
  dsimp only
  unfold exchangeStrictSend
  dsimp only
  rw [if_neg (by simp), plainI64_eq hroom, ok_bind]
  split
  · rfl
  · rw [hscale, hfactor, asU64_eq hto.amount, asU64_eq hfrom.amount, asU64_eq hsent,
      plainU128_mul hbps hto.amount, ok_bind, plainU128_mul hfee hsent, ok_bind, hsum, ok_bind,
      plainU128_mul hfrom.amount hsent, ok_bind, if_neg (by omega)]
    have hdivide' : hugeDivideDown (maxBps - liquidityPoolFeeV18) (reservesFrom * sent)
        (10000 * reservesTo + 9970 * sent) = .ok (sendQuote reservesTo reservesFrom sent) :=
      hdivide
    rw [hdivide', ok_bind, if_neg (not_lt.mpr hquote.le_max), asI64_eq hquote]
    by_cases hzero : sendQuote reservesTo reservesFrom sent = 0
    · rw [if_pos (.inr hzero), decide_eq_false (not_not.mpr hzero)]
      rfl
    · rw [if_neg (by omega), decide_eq_true hzero]
      rfl

end Send

/-! ### Strict receive -/

section Receive

variable {reservesTo reservesFrom received : Int}
  (hto : Reserve reservesTo) (hfrom : Reserve reservesFrom) (hreceived : Amount received)
  (hless : received < reservesFrom)
include hto hreceived hless

omit hto hreceived in
theorem receiveDivisor_pos : 0 < (reservesFrom - received) * 9970 := by omega

omit hto hreceived in
theorem le_receiveQuote_mul :
    10000 * reservesTo * received ≤
      receiveQuote reservesTo reservesFrom received * ((reservesFrom - received) * 9970) :=
  le_ceilDiv_mul _ (receiveDivisor_pos hless)

theorem receiveQuote_nonneg : 0 ≤ receiveQuote reservesTo reservesFrom received := by
  have hreserve := hto.amount.nonneg
  exact ceilDiv_nonneg (receiveDivisor_pos hless)
    (mul_nonneg (by omega) hreceived.nonneg)

theorem receiveQuote_product :
    reservesTo * reservesFrom ≤
      (reservesTo + receiveQuote reservesTo reservesFrom received) *
        (reservesFrom - received) := by
  have hceil : 10000 * reservesTo * received ≤ _ := le_receiveQuote_mul hless
  have hnonneg := receiveQuote_nonneg hto hreceived hless
  generalize receiveQuote reservesTo reservesFrom received = sent at *
  have hfee : 0 ≤ sent * (reservesFrom - received) := mul_nonneg hnonneg (by omega)
  nlinarith

theorem le_sendQuote_receiveQuote :
    received ≤ sendQuote reservesTo reservesFrom
      (receiveQuote reservesTo reservesFrom received) := by
  have hpos := hto.pos
  have hceil : 10000 * reservesTo * received ≤ _ := le_receiveQuote_mul hless
  have hnonneg := receiveQuote_nonneg hto hreceived hless
  generalize receiveQuote reservesTo reservesFrom received = sent at *
  unfold sendQuote
  rw [Int.le_ediv_iff_mul_le (by omega)]
  linarith [mul_add received (reservesTo * 10000) (sent * 9970),
    mul_comm received (reservesTo * 10000), mul_assoc reservesTo 10000 received,
    mul_assoc sent (reservesFrom - received) 9970, mul_sub sent reservesFrom received,
    mul_assoc received sent 9970, mul_comm received sent, mul_comm reservesFrom sent,
    mul_assoc reservesFrom sent 9970, mul_comm 10000 reservesTo]

/-- A quote fits into 128 bits before it is checked. -/
theorem receiveQuote_le : receiveQuote reservesTo reservesFrom received ≤ u128Max := by
  have hmax : 10000 * (i64Max * i64Max) ≤ u128Max * 9970 := by decide
  have hproduct := mul_amounts_le hto.amount hreceived
  have hdivisor : 1 * 9970 ≤ (reservesFrom - received) * 9970 :=
    mul_le_mul_of_nonneg_right (by omega) (by decide)
  unfold receiveQuote
  rw [ceilDiv_le_iff (receiveDivisor_pos hless)]
  calc 10000 * reservesTo * received = 10000 * (reservesTo * received) := mul_assoc _ _ _
    _ ≤ 10000 * (i64Max * i64Max) := by omega
    _ ≤ u128Max * 9970 := hmax
    _ ≤ u128Max * ((reservesFrom - received) * 9970) :=
        mul_le_mul_of_nonneg_left (by omega) (by decide)

end Receive

/-- A strict receive computes the quotient and fails if the reserve is too small or would
overflow. -/
theorem exchangeStrictReceive_eq {reservesTo reservesFrom received : Int} (hto : Reserve reservesTo)
    (hfrom : Reserve reservesFrom) (hreceived : Amount received) (out : PoolAmounts) :
    exchangeWithPool
        { reservesToPool := reservesTo, maxSendToPool := i64Max, reservesFromPool := reservesFrom,
          maxReceiveFromPool := received, feeBps := liquidityPoolFeeV18,
          round := .pathPaymentStrictReceive } out =
      if received ≥ reservesFrom then .ok (false, out)
      else if receiveQuote reservesTo reservesFrom received > i64Max then
        .ok (false, { out with fromPool := received })
      else .ok (decide (receiveQuote reservesTo reservesFrom received ≤ i64Max - reservesTo),
        { toPool := receiveQuote reservesTo reservesFrom received, fromPool := received }) := by
  have hpos := hto.pos
  have htoLe := hto.le_max
  have hfromLe := hfrom.le_max
  have hreceive := hreceived.nonneg
  have hroom : Amount (i64Max - reservesTo) := ⟨by omega, by omega⟩
  have hfee : Amount 9970 := ⟨by decide, by decide⟩
  have hfactor : asU64 (maxBps - liquidityPoolFeeV18) = 9970 := by decide
  rw [exchangeWithPool_eq _ out rfl hto.pos hfrom.pos]
  dsimp only
  unfold exchangeStrictReceive
  dsimp only
  rw [if_neg (by simp), plainI64_eq hroom, ok_bind]
  split
  · rfl
  next hlarge =>
    have hless : received < reservesFrom := not_le.mp hlarge
    have hleft : Amount (reservesFrom - received) := ⟨by omega, by omega⟩
    have hquote := receiveQuote_nonneg hto hreceived hless
    have hvalue : ceilDiv (maxBps * (reservesTo * received)) ((reservesFrom - received) * 9970) =
        receiveQuote reservesTo reservesFrom received := by
      unfold receiveQuote
      rw [mul_assoc]
      rfl
    have hmax : i64Max * 9970 ≤ 20000 * i64Max := by decide
    have hdivide : hugeDivideUp maxBps (reservesTo * received)
        ((reservesFrom - received) * 9970) =
        .ok (receiveQuote reservesTo reservesFrom received) := by
      rw [hugeDivideUp_eq (by decide) (by decide) (mul_nonneg hto.amount.nonneg hreceive)
        (receiveDivisor_pos hless) (by omega)
        (by rw [hvalue]; exact receiveQuote_le hto hreceived hless), hvalue]
    rw [asU64_eq hto.amount, asU64_eq hreceived, plainU128_mul hto.amount hreceived, ok_bind,
      plainI64_eq hleft, ok_bind, asU64_eq hleft, hfactor, plainU128_mul hleft hfee, ok_bind,
      if_neg (receiveDivisor_pos hless).ne', hdivide, ok_bind]
    split
    · rfl
    next hfits =>
      rw [asI64_eq ⟨hquote, not_lt.mp hfits⟩]
      rfl

/-- A trade leaves reserves that are in use, whose product has not decreased. -/
theorem exchangeWithPool_product {reservesTo reservesFrom maxSend maxReceive : Int}
    {round : RoundingType} {out amounts : PoolAmounts} (hto : Reserve reservesTo)
    (hfrom : Reserve reservesFrom) (hsend : Amount maxSend) (hreceive : Amount maxReceive)
    (hok : exchangeWithPool
      { reservesToPool := reservesTo, maxSendToPool := maxSend, reservesFromPool := reservesFrom,
        maxReceiveFromPool := maxReceive, feeBps := liquidityPoolFeeV18, round := round } out =
      .ok (true, amounts)) :
    reservesTo * reservesFrom ≤ (reservesTo + amounts.toPool) * (reservesFrom - amounts.fromPool) ∧
      Reserve (reservesTo + amounts.toPool) ∧ Reserve (reservesFrom - amounts.fromPool) := by
  have htoPos := hto.pos
  have hfromLe := hfrom.le_max
  have hequation := hok
  rw [exchangeWithPool_eq _ out rfl hto.pos hfrom.pos] at hequation
  cases round with
  | normal => cases hequation
  | pathPaymentStrictSend =>
    obtain rfl : maxReceive = i64Max := by
      by_contra hbounded
      simp only [exchangeStrictSend, if_pos hbounded] at hequation
      cases hequation
    rw [exchangeStrictSend_eq hto hfrom hsend] at hok
    split at hok
    · cases hok
    next hfits =>
      injection hok with hok
      obtain ⟨-, rfl⟩ := Prod.mk.injEq .. ▸ hok
      have hnonneg := sendQuote_nonneg hto hfrom hsend
      have hless := sendQuote_lt hto hfrom hsend
      have hsent := hsend.nonneg
      exact ⟨sendQuote_product hto hfrom hsend, ⟨by dsimp only; omega, by dsimp only; omega⟩,
        ⟨by dsimp only; omega, by dsimp only; omega⟩⟩
  | pathPaymentStrictReceive =>
    obtain rfl : maxSend = i64Max := by
      by_contra hbounded
      simp only [exchangeStrictReceive, if_pos hbounded] at hequation
      cases hequation
    rw [exchangeStrictReceive_eq hto hfrom hreceive] at hok
    split_ifs at hok with hlarge hfits <;> injection hok with hok
    · cases hok
    · cases hok
    obtain ⟨hroom, rfl⟩ := Prod.mk.injEq .. ▸ hok
    have hroom := of_decide_eq_true hroom
    have hless := not_le.mp hlarge
    have hnonneg := receiveQuote_nonneg hto hreceive hless
    have hreceived := hreceive.nonneg
    exact ⟨receiveQuote_product hto hreceive hless, ⟨by dsimp only; omega, by dsimp only; omega⟩,
      ⟨by dsimp only; omega, by dsimp only; omega⟩⟩

/-- The exchange of a pool whose reserves and fee are in range: exact quotients, failures
only where nothing is received, the pool has too little or its reserve would overflow, a
product of reserves that does not decrease, and a quote that delivers. -/
theorem exchangeWithPool_exact (reservesTo reservesFrom amount : Int) (hto : Reserve reservesTo)
    (hfrom : Reserve reservesFrom) (hamount : Amount amount) (out : PoolAmounts) :
    (exchangeWithPool
        { reservesToPool := reservesTo, maxSendToPool := amount, reservesFromPool := reservesFrom,
          maxReceiveFromPool := i64Max, feeBps := liquidityPoolFeeV18,
          round := .pathPaymentStrictSend } out =
      if amount > i64Max - reservesTo then .ok (false, out)
      else .ok (decide (sendQuote reservesTo reservesFrom amount ≠ 0),
        { toPool := amount, fromPool := sendQuote reservesTo reservesFrom amount })) ∧
    (exchangeWithPool
        { reservesToPool := reservesTo, maxSendToPool := i64Max, reservesFromPool := reservesFrom,
          maxReceiveFromPool := amount, feeBps := liquidityPoolFeeV18,
          round := .pathPaymentStrictReceive } out =
      if amount ≥ reservesFrom then .ok (false, out)
      else if receiveQuote reservesTo reservesFrom amount > i64Max then
        .ok (false, { out with fromPool := amount })
      else .ok (decide (receiveQuote reservesTo reservesFrom amount ≤ i64Max - reservesTo),
        { toPool := receiveQuote reservesTo reservesFrom amount, fromPool := amount })) ∧
    (∀ round maxSend maxReceive amounts,
      exchangeWithPool
          { reservesToPool := reservesTo, maxSendToPool := maxSend,
            reservesFromPool := reservesFrom, maxReceiveFromPool := maxReceive,
            feeBps := liquidityPoolFeeV18, round := round } out = .ok (true, amounts) →
      Amount maxSend → Amount maxReceive →
        reservesTo * reservesFrom ≤
            (reservesTo + amounts.toPool) * (reservesFrom - amounts.fromPool) ∧
          Reserve (reservesTo + amounts.toPool) ∧ Reserve (reservesFrom - amounts.fromPool)) ∧
    (amount < reservesFrom →
      amount ≤ sendQuote reservesTo reservesFrom
        (receiveQuote reservesTo reservesFrom amount)) := by
  refine ⟨exchangeStrictSend_eq hto hfrom hamount out,
    exchangeStrictReceive_eq hto hfrom hamount out, ?_,
    fun hless => le_sendQuote_receiveQuote hto hamount hless⟩
  intro round maxSend maxReceive amounts hok hsend hreceive
  exact exchangeWithPool_product hto hfrom hsend hreceive hok

/-- A pool of two small reserves. -/
theorem exchangeWithPool_exact_small :
    ∃ amounts, exchangeWithPool
        { reservesToPool := 1000, maxSendToPool := 100, reservesFromPool := 1000,
          maxReceiveFromPool := i64Max, feeBps := liquidityPoolFeeV18,
          round := .pathPaymentStrictSend } { toPool := 0, fromPool := 0 } = .ok (true, amounts) ∧
      amounts.fromPool = 90 := by
  have hexact := exchangeWithPool_exact 1000 1000 100 ⟨by decide, by decide⟩
    ⟨by decide, by decide⟩ ⟨by decide, by decide⟩ { toPool := 0, fromPool := 0 }
  refine ⟨{ toPool := 100, fromPool := 90 }, ?_, rfl⟩
  rw [hexact.1]
  decide +kernel

/-- A request for nothing is quoted at nothing. -/
theorem exchangeWithPool_nothing :
    exchangeWithPool
        { reservesToPool := 1, maxSendToPool := i64Max, reservesFromPool := 2,
          maxReceiveFromPool := 0, feeBps := liquidityPoolFeeV18,
          round := .pathPaymentStrictReceive } { toPool := 0, fromPool := 0 } =
        .ok (true, { toPool := 0, fromPool := 0 }) ∧
      receiveQuote 1 2 0 = 0 := by
  decide +kernel

end Henyey.Dex
