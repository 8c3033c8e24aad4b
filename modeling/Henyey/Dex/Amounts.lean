import Henyey.Dex.Exchange

/-!
# The amounts of an exchange

Over positive prices and amounts of 64 bits no step of the exchange fails or leaves its
range: it computes rounded quotients of the two sides' values, which are within the
limits and favour the side that stays in the book.
-/

namespace Henyey.Dex

open Foundation

/-- A price whose terms are positive 32-bit numbers. -/
structure Price.Positive (price : Price) : Prop where
  n_pos : 0 < price.n
  n_le : price.n ≤ i32Max
  d_pos : 0 < price.d
  d_le : price.d ≤ i32Max

/-- A non-negative amount of 64 bits. -/
structure Amount (amount : Int) : Prop where
  nonneg : 0 ≤ amount
  le_max : amount ≤ i64Max

theorem amount_i64Max : Amount i64Max := ⟨by decide, le_rfl⟩

/-! ### Operations that stay in range -/

theorem ok_bind {ε α β : Type} (a : α) (f : α → Except ε β) : (Except.ok a >>= f) = f a := rfl

theorem plain128_eq {value : Int} (hlow : -i128Max - 1 ≤ value) (hhigh : value ≤ i128Max) :
    plain128 value = .ok value :=
  if_pos ⟨hlow, hhigh⟩

theorem mul_amounts_le {lhs rhs : Int} (hlhs : Amount lhs) (hrhs : Amount rhs) :
    lhs * rhs ≤ i64Max * i64Max :=
  mul_le_mul hlhs.le_max hrhs.le_max hrhs.nonneg (by decide)

theorem bigMultiply_eq {lhs rhs : Int} (hlhs : Amount lhs) (hrhs : Amount rhs) :
    bigMultiply lhs rhs = lhs * rhs := by
  have hle := mul_amounts_le hlhs hrhs
  have hnonneg := mul_nonneg hlhs.nonneg hrhs.nonneg
  have hmax : i64Max * i64Max ≤ i128Max := by decide
  have hmin : -i128Max - 1 ≤ 0 := by decide
  unfold bigMultiply
  rw [min_eq_right (hle.trans hmax), max_eq_right (hmin.trans hnonneg)]

theorem plain128_mul {amount term : Int} (hamount : Amount amount) (hterm : Amount term) :
    plain128 (amount * term) = .ok (amount * term) := by
  have hle := mul_amounts_le hamount hterm
  have hnonneg := mul_nonneg hamount.nonneg hterm.nonneg
  have hmax : i64Max * i64Max ≤ i128Max := by decide
  have hmin : -i128Max - 1 ≤ 0 := by decide
  exact plain128_eq (hmin.trans hnonneg) (hle.trans hmax)

theorem mul_add_term_le {amount term divisor : Int} (hamount : Amount amount) (hterm : Amount term)
    (hdivisor : Amount divisor) : amount * term + divisor ≤ i128Max := by
  have hle := mul_amounts_le hamount hterm
  have hdivisor := hdivisor.le_max
  have hmax : i64Max * i64Max + i64Max ≤ i128Max := by decide
  omega

theorem asI64_eq {value : Int} (hvalue : Amount value) : asI64 value = value := by
  have hnonneg := hvalue.nonneg
  have hle := hvalue.le_max
  unfold i64Max at hle
  unfold asI64
  rw [Int.bmod_eq_of_le] <;> omega

theorem bigDivideOrThrow_down {n d : Int} (hd : 0 < d) (hn : 0 ≤ n) (hle : n / d ≤ i64Max) :
    bigDivideOrThrow n d .down = .ok (n / d) := by
  have hamount : Amount (n / d) := ⟨Int.ediv_nonneg hn hd.le, hle⟩
  have hdiv : n.tdiv d = n / d := Int.tdiv_eq_ediv_of_nonneg hn
  unfold bigDivideOrThrow
  simp only [if_neg (not_le.mpr hd), hdiv, if_neg (not_lt.mpr hle), pure_bind, asI64_eq hamount,
    gt_iff_lt]
  rfl

theorem bigDivideOrThrow_up {n d : Int} (hd : 0 < d) (hn : 0 ≤ n) (hsum : n + d ≤ i128Max)
    (hle : ceilDiv n d ≤ i64Max) : bigDivideOrThrow n d .up = .ok (ceilDiv n d) := by
  have hmin : -i128Max - 1 ≤ 0 := by decide
  have hamount : Amount (ceilDiv n d) := ⟨ceilDiv_nonneg hd hn, hle⟩
  unfold bigDivideOrThrow
  by_cases hzero : n = 0
  · subst hzero
    rw [ceilDiv_zero hd]
    simp only [if_neg (not_le.mpr hd), if_pos, pure_bind]
    rfl
  · have hdiv : (n + d - 1).tdiv d = ceilDiv n d := Int.tdiv_eq_ediv_of_nonneg (by omega)
    have hfirst : plain128 (n + d) = .ok (n + d) := plain128_eq (by omega) hsum
    have hsecond : plain128 (n + d - 1) = .ok (n + d - 1) := plain128_eq (by omega) (by omega)
    simp only [if_neg (not_le.mpr hd), if_neg hzero, hfirst, ok_bind, hsecond, hdiv,
      if_neg (not_lt.mpr hle), pure_bind, asI64_eq hamount, gt_iff_lt]
    rfl

/-! ### The exact amounts -/

/-- The amounts for an offer of the given value that is taken whole. -/
def takenWhole (price : Price) (value : Int) : Int × Int :=
  if price.n > price.d then (value / price.n, value / price.n * price.n / price.d)
  else (ceilDiv (value / price.d * price.d) price.n, value / price.d)

/-- The amounts for a taker of the given value who leaves part of the offer. -/
def takenPartly (price : Price) (value maxSheepSend maxSheepReceive : Int)
    (round : RoundingType) : Int × Int :=
  if round = .pathPaymentStrictSend then (value / price.n, min maxSheepSend maxSheepReceive)
  else if price.n > price.d ∨ round = .pathPaymentStrictReceive then
    (value / price.n, ceilDiv (value / price.n * price.n) price.d)
  else (value / price.d * price.d / price.n, value / price.d)

section Amounts

variable {price : Price} (hprice : price.Positive)
include hprice

theorem amount_n : Amount price.n :=
  ⟨hprice.n_pos.le, hprice.n_le.trans (by decide)⟩

theorem amount_d : Amount price.d :=
  ⟨hprice.d_pos.le, hprice.d_le.trans (by decide)⟩

/-- Both amounts are within any limits that bound the value. -/
theorem takenWhole_le {value wheat sheep : Int} (hwheat : value ≤ wheat * price.n)
    (hsheep : value ≤ sheep * price.d) :
    (takenWhole price value).1 ≤ wheat ∧ (takenWhole price value).2 ≤ sheep := by
  have hn := hprice.n_pos
  have hd := hprice.d_pos
  unfold takenWhole
  split
  · have hfloor : value / price.n * price.n ≤ value := Int.ediv_mul_le _ hn.ne'
    constructor
    · exact Int.ediv_le_of_le_mul hn hwheat
    · exact Int.ediv_le_of_le_mul hd (hfloor.trans hsheep)
  · have hfloor : value / price.d * price.d ≤ value := Int.ediv_mul_le _ hd.ne'
    constructor
    · exact (ceilDiv_le_iff hn).mpr (hfloor.trans hwheat)
    · exact Int.ediv_le_of_le_mul hd hsheep

theorem takenWhole_nonneg {value : Int} (hvalue : 0 ≤ value) :
    0 ≤ (takenWhole price value).1 ∧ 0 ≤ (takenWhole price value).2 := by
  have hn := hprice.n_pos
  have hd := hprice.d_pos
  unfold takenWhole
  split
  · have hwheat : 0 ≤ value / price.n := Int.ediv_nonneg hvalue hn.le
    exact ⟨hwheat, Int.ediv_nonneg (mul_nonneg hwheat hn.le) hd.le⟩
  · have hsheep : 0 ≤ value / price.d := Int.ediv_nonneg hvalue hd.le
    exact ⟨ceilDiv_nonneg hn (mul_nonneg hsheep hd.le), hsheep⟩

theorem takenWhole_favors (value : Int) :
    (takenWhole price value).2 * price.d ≤ (takenWhole price value).1 * price.n := by
  unfold takenWhole
  split
  · exact Int.ediv_mul_le _ hprice.d_pos.ne'
  · exact le_ceilDiv_mul _ hprice.n_pos

theorem takenPartly_le {value wheat sheep maxSheepSend maxSheepReceive : Int} (round : RoundingType)
    (hwheat : value ≤ wheat * price.n) (hsheep : value ≤ sheep * price.d)
    (hlimits : round = .pathPaymentStrictSend → min maxSheepSend maxSheepReceive ≤ sheep) :
    (takenPartly price value maxSheepSend maxSheepReceive round).1 ≤ wheat ∧
      (takenPartly price value maxSheepSend maxSheepReceive round).2 ≤ sheep := by
  have hn := hprice.n_pos
  have hd := hprice.d_pos
  unfold takenPartly
  split
  next hround => exact ⟨Int.ediv_le_of_le_mul hn hwheat, hlimits hround⟩
  · split
    · have hfloor : value / price.n * price.n ≤ value := Int.ediv_mul_le _ hn.ne'
      constructor
      · exact Int.ediv_le_of_le_mul hn hwheat
      · exact (ceilDiv_le_iff hd).mpr (hfloor.trans hsheep)
    · have hfloor : value / price.d * price.d ≤ value := Int.ediv_mul_le _ hd.ne'
      constructor
      · exact Int.ediv_le_of_le_mul hn (hfloor.trans hwheat)
      · exact Int.ediv_le_of_le_mul hd hsheep

variable {value maxSheepSend maxSheepReceive : Int}

theorem takenPartly_nonneg (round : RoundingType) (hvalue : 0 ≤ value) (hsend : 0 ≤ maxSheepSend)
    (hreceive : 0 ≤ maxSheepReceive) :
    0 ≤ (takenPartly price value maxSheepSend maxSheepReceive round).1 ∧
      0 ≤ (takenPartly price value maxSheepSend maxSheepReceive round).2 := by
  have hn := hprice.n_pos
  have hd := hprice.d_pos
  have hwheat : 0 ≤ value / price.n := Int.ediv_nonneg hvalue hn.le
  have hsheep : 0 ≤ value / price.d := Int.ediv_nonneg hvalue hd.le
  unfold takenPartly
  split
  · exact ⟨hwheat, le_min hsend hreceive⟩
  · split
    · exact ⟨hwheat, ceilDiv_nonneg hd (mul_nonneg hwheat hn.le)⟩
    · exact ⟨Int.ediv_nonneg (mul_nonneg hsheep hd.le) hn.le, hsheep⟩

/-- An offer that stays in the book does not get less than its price. -/
theorem takenPartly_favors (round : RoundingType) (hsend : value ≤ maxSheepSend * price.d)
    (hreceive : value ≤ maxSheepReceive * price.d) :
    (takenPartly price value maxSheepSend maxSheepReceive round).1 * price.n ≤
      (takenPartly price value maxSheepSend maxSheepReceive round).2 * price.d := by
  have hn := hprice.n_pos
  have hd := hprice.d_pos
  unfold takenPartly
  split
  · have hfloor : value / price.n * price.n ≤ value := Int.ediv_mul_le _ hn.ne'
    have hlimits : value ≤ min maxSheepSend maxSheepReceive * price.d := by
      rcases min_choice maxSheepSend maxSheepReceive with hmin | hmin
      · rwa [hmin]
      · rwa [hmin]
    exact hfloor.trans hlimits
  · split
    · exact le_ceilDiv_mul _ hd
    · exact Int.ediv_mul_le _ hn.ne'

end Amounts

/-! ### The exchange computes them -/

/-- The value of what a side can exchange. -/
def offerValue (priceN priceD maxSend maxReceive : Int) : Int :=
  min (maxSend * priceN) (maxReceive * priceD)

theorem offerValue_le (priceN priceD maxSend maxReceive : Int) :
    offerValue priceN priceD maxSend maxReceive ≤ maxSend * priceN ∧
      offerValue priceN priceD maxSend maxReceive ≤ maxReceive * priceD :=
  ⟨min_le_left _ _, min_le_right _ _⟩

theorem calculateOfferValue_eq {priceN priceD maxSend maxReceive : Int} (hn : Amount priceN)
    (hd : Amount priceD) (hsend : Amount maxSend) (hreceive : Amount maxReceive) :
    calculateOfferValue priceN priceD maxSend maxReceive =
      offerValue priceN priceD maxSend maxReceive := by
  unfold calculateOfferValue
  rw [bigMultiply_eq hsend hn, bigMultiply_eq hreceive hd]
  rfl

/-- The amounts for given limits, without a bound on the price error. -/
def exactExchange (price : Price) (maxWheatSend maxWheatReceive maxSheepSend maxSheepReceive : Int)
    (round : RoundingType) : ExchangeResult :=
  let wheatValue := offerValue price.n price.d maxWheatSend maxSheepReceive
  let sheepValue := offerValue price.d price.n maxSheepSend maxWheatReceive
  let amounts := if wheatValue > sheepValue then
      takenPartly price sheepValue maxSheepSend maxSheepReceive round
    else takenWhole price wheatValue
  { numWheatReceived := amounts.1, numSheepSend := amounts.2,
    wheatStays := decide (wheatValue > sheepValue) }

section Exchange

variable {price : Price} (hprice : price.Positive)
include hprice

theorem wheatGoneAmounts_eq {value wheat sheep : Int} (hvalue : 0 ≤ value) (hwheat : Amount wheat)
    (hsheep : Amount sheep) (hwheatLe : value ≤ wheat * price.n)
    (hsheepLe : value ≤ sheep * price.d) :
    wheatGoneAmounts price value = .ok (takenWhole price value) := by
  have hn := hprice.n_pos
  have hd := hprice.d_pos
  obtain ⟨hfirst, hsecond⟩ := takenWhole_le hprice hwheatLe hsheepLe
  obtain ⟨hfirst0, hsecond0⟩ := takenWhole_nonneg hprice hvalue
  unfold takenWhole at hfirst hsecond hfirst0 hsecond0
  unfold wheatGoneAmounts takenWhole
  split at hfirst
  next hlarge =>
    simp only [if_pos hlarge] at hsecond hfirst0 hsecond0 ⊢
    have hamount : Amount (value / price.n) := ⟨hfirst0, hfirst.trans hwheat.le_max⟩
    rw [bigDivideOrThrow_down hn hvalue hamount.le_max, ok_bind,
      plain128_mul hamount (amount_n hprice), ok_bind,
      bigDivideOrThrow_down hd (mul_nonneg hfirst0 hn.le) (hsecond.trans hsheep.le_max), ok_bind]
    rfl
  next hlarge =>
    simp only [if_neg hlarge] at hsecond hfirst0 hsecond0 ⊢
    have hamount : Amount (value / price.d) := ⟨hsecond0, hsecond.trans hsheep.le_max⟩
    rw [bigDivideOrThrow_down hd hvalue hamount.le_max, ok_bind,
      plain128_mul hamount (amount_d hprice), ok_bind,
      bigDivideOrThrow_up hn (mul_nonneg hsecond0 hd.le)
        (mul_add_term_le hamount (amount_d hprice) (amount_n hprice))
        (hfirst.trans hwheat.le_max), ok_bind]
    rfl

theorem wheatStaysAmounts_eq {wheatValue value wheat sheep maxSheepSend maxSheepReceive : Int}
    (round : RoundingType) (hvalue : 0 ≤ value) (hless : value ≤ wheatValue) (hwheat : Amount wheat)
    (hsheep : Amount sheep) (hwheatLe : value ≤ wheat * price.n)
    (hsheepLe : value ≤ sheep * price.d) :
    wheatStaysAmounts price wheatValue value maxSheepSend maxSheepReceive round =
      .ok (takenPartly price value maxSheepSend maxSheepReceive round) := by
  have hn := hprice.n_pos
  have hd := hprice.d_pos
  have hwheatDiv : Amount (value / price.n) :=
    ⟨Int.ediv_nonneg hvalue hn.le, (Int.ediv_le_of_le_mul hn hwheatLe).trans hwheat.le_max⟩
  have hsheepDiv : Amount (value / price.d) :=
    ⟨Int.ediv_nonneg hvalue hd.le, (Int.ediv_le_of_le_mul hd hsheepLe).trans hsheep.le_max⟩
  unfold wheatStaysAmounts takenPartly
  split
  · rw [min_eq_right hless, bigDivideOrThrow_down hn hvalue hwheatDiv.le_max, ok_bind]
    rfl
  · split
    · have hfloor : value / price.n * price.n ≤ value := Int.ediv_mul_le _ hn.ne'
      have hceil : ceilDiv (value / price.n * price.n) price.d ≤ sheep :=
        (ceilDiv_le_iff hd).mpr (hfloor.trans hsheepLe)
      rw [bigDivideOrThrow_down hn hvalue hwheatDiv.le_max, ok_bind,
        plain128_mul hwheatDiv (amount_n hprice), ok_bind,
        bigDivideOrThrow_up hd (mul_nonneg hwheatDiv.nonneg hn.le)
          (mul_add_term_le hwheatDiv (amount_n hprice) (amount_d hprice))
          (hceil.trans hsheep.le_max), ok_bind]
      rfl
    · have hfloor : value / price.d * price.d ≤ value := Int.ediv_mul_le _ hd.ne'
      have hdown : value / price.d * price.d / price.n ≤ wheat :=
        Int.ediv_le_of_le_mul hn (hfloor.trans hwheatLe)
      rw [bigDivideOrThrow_down hd hvalue hsheepDiv.le_max, ok_bind,
        plain128_mul hsheepDiv (amount_d hprice), ok_bind,
        bigDivideOrThrow_down hn (mul_nonneg hsheepDiv.nonneg hd.le)
          (hdown.trans hwheat.le_max), ok_bind]
      rfl

end Exchange

/-- What the two sides can exchange. -/
structure Limits (maxWheatSend maxWheatReceive maxSheepSend maxSheepReceive : Int) : Prop where
  wheatSend : Amount maxWheatSend
  wheatReceive : Amount maxWheatReceive
  sheepSend : Amount maxSheepSend
  sheepReceive : Amount maxSheepReceive

/-- The amounts favour the side that stays in the book. -/
def Favors (price : Price) (res : ExchangeResult) : Prop :=
  if res.wheatStays then res.numWheatReceived * price.n ≤ res.numSheepSend * price.d
  else res.numSheepSend * price.d ≤ res.numWheatReceived * price.n

section Limits

variable {price : Price} (hprice : price.Positive)
  {maxWheatSend maxWheatReceive maxSheepSend maxSheepReceive : Int}
  (hlimits : Limits maxWheatSend maxWheatReceive maxSheepSend maxSheepReceive)
include hprice hlimits

theorem offerValue_nonneg :
    0 ≤ offerValue price.n price.d maxWheatSend maxSheepReceive ∧
      0 ≤ offerValue price.d price.n maxSheepSend maxWheatReceive := by
  have hn := hprice.n_pos.le
  have hd := hprice.d_pos.le
  constructor
  · exact le_min (mul_nonneg hlimits.wheatSend.nonneg hn)
      (mul_nonneg hlimits.sheepReceive.nonneg hd)
  · exact le_min (mul_nonneg hlimits.sheepSend.nonneg hd)
      (mul_nonneg hlimits.wheatReceive.nonneg hn)

/-- The exact amounts are within the limits. -/
theorem exactExchange_le (round : RoundingType) :
    let res := exactExchange price maxWheatSend maxWheatReceive maxSheepSend maxSheepReceive round
    0 ≤ res.numWheatReceived ∧ res.numWheatReceived ≤ min maxWheatReceive maxWheatSend ∧
      0 ≤ res.numSheepSend ∧ res.numSheepSend ≤ min maxSheepReceive maxSheepSend := by
  have hvalue := offerValue_nonneg hprice hlimits
  obtain ⟨hsendWheat, hreceiveSheep⟩ := offerValue_le price.n price.d maxWheatSend maxSheepReceive
  obtain ⟨hsendSheep, hreceiveWheat⟩ := offerValue_le price.d price.n maxSheepSend maxWheatReceive
  simp only [exactExchange]
  split
  next hstays =>
    have hnonneg := takenPartly_nonneg hprice round hvalue.2 hlimits.sheepSend.nonneg
      hlimits.sheepReceive.nonneg
    have hwheat := (takenPartly_le hprice round hreceiveWheat hsendSheep
      fun _ => min_le_left maxSheepSend maxSheepReceive)
    have hsheep := (takenPartly_le hprice round (hstays.le.trans hsendWheat)
      (hstays.le.trans hreceiveSheep) fun _ => min_le_right maxSheepSend maxSheepReceive)
    exact ⟨hnonneg.1, le_min hwheat.1 hsheep.1, hnonneg.2, le_min hsheep.2 hwheat.2⟩
  next hgone =>
    have hle := not_lt.mp hgone
    have hnonneg := takenWhole_nonneg hprice hvalue.1
    have hoffer := takenWhole_le hprice hsendWheat hreceiveSheep
    have htaker := takenWhole_le hprice (hle.trans hreceiveWheat) (hle.trans hsendSheep)
    exact ⟨hnonneg.1, le_min htaker.1 hoffer.1, hnonneg.2, le_min hoffer.2 htaker.2⟩

omit hlimits in
theorem exactExchange_favors (round : RoundingType) :
    Favors price (exactExchange price maxWheatSend maxWheatReceive maxSheepSend maxSheepReceive
      round) := by
  obtain ⟨_, hreceiveSheep⟩ := offerValue_le price.n price.d maxWheatSend maxSheepReceive
  obtain ⟨hsendSheep, _⟩ := offerValue_le price.d price.n maxSheepSend maxWheatReceive
  simp only [Favors, exactExchange, decide_eq_true_eq]
  split
  next hstays =>
    exact takenPartly_favors hprice round hsendSheep (hstays.le.trans hreceiveSheep)
  · exact takenWhole_favors hprice _

theorem exchangeV10WithoutPriceErrorThresholds_eq (round : RoundingType) :
    exchangeV10WithoutPriceErrorThresholds price maxWheatSend maxWheatReceive maxSheepSend
        maxSheepReceive round =
      .ok (exactExchange price maxWheatSend maxWheatReceive maxSheepSend maxSheepReceive
        round) := by
  have hvalue := offerValue_nonneg hprice hlimits
  have hwithin := exactExchange_le hprice hlimits round
  obtain ⟨hsendWheat, hreceiveSheep⟩ := offerValue_le price.n price.d maxWheatSend maxSheepReceive
  obtain ⟨hsendSheep, hreceiveWheat⟩ := offerValue_le price.d price.n maxSheepSend maxWheatReceive
  have hprices : ¬ (price.n ≤ 0 ∨ price.d ≤ 0) := by
    have hn := hprice.n_pos
    have hd := hprice.d_pos
    omega
  have hwheatValue := calculateOfferValue_eq (amount_n hprice) (amount_d hprice)
    hlimits.wheatSend hlimits.sheepReceive
  have hsheepValue := calculateOfferValue_eq (amount_d hprice) (amount_n hprice)
    hlimits.sheepSend hlimits.wheatReceive
  unfold exchangeV10WithoutPriceErrorThresholds
  simp only [if_neg hprices, hwheatValue, hsheepValue, decide_eq_true_eq]
  unfold exactExchange at hwithin ⊢
  generalize offerValue price.n price.d maxWheatSend maxSheepReceive = wheatValue at *
  generalize offerValue price.d price.n maxSheepSend maxWheatReceive = sheepValue at *
  dsimp only at hwithin ⊢
  split
  next hstays =>
    rw [wheatStaysAmounts_eq hprice round hvalue.2 hstays.le hlimits.wheatReceive
      hlimits.sheepSend hreceiveWheat hsendSheep, ok_bind]
    rw [if_pos hstays] at hwithin
    rw [if_neg (by omega)]
    rfl
  next hgone =>
    rw [wheatGoneAmounts_eq hprice hvalue.1 hlimits.wheatSend hlimits.sheepReceive hsendWheat
      hreceiveSheep, ok_bind]
    rw [if_neg hgone] at hwithin
    rw [if_neg (by omega)]
    rfl

end Limits

end Henyey.Dex
