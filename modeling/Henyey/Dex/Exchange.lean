import Henyey.Foundation.Division

/-!
# Exchanging against one offer

An offer sells wheat for sheep at `price.n / price.d` sheep a wheat. The exchange
computes how much of both changes hands under the limits of the two sides, and applies
the bound on the rounding error of the price.
-/

namespace Henyey.Dex

open Foundation

def i64Max : Int := 9223372036854775807

def i32Max : Int := 2147483647

def i128Max : Int := 170141183460469231731687303715884105727

/-- Numbers of sheep a number of wheat. -/
structure Price where
  n : Int
  d : Int
deriving DecidableEq

inductive RoundingType where
  | normal
  | pathPaymentStrictSend
  | pathPaymentStrictReceive
deriving DecidableEq

structure ExchangeResult where
  numWheatReceived : Int
  numSheepSend : Int
  wheatStays : Bool
deriving DecidableEq

inductive ExchangeError where
  | overflow
  | invalidPrice
  | invalidAmount
  | priceError
deriving DecidableEq

/-- An error that the exchange returns, or an operation on 128 bits that goes out of
range. -/
inductive Fault where
  | error (error : ExchangeError)
  | overflow128
deriving DecidableEq

inductive Round where
  | down
  | up
deriving DecidableEq

/-! ### Arithmetic of the source -/

/-- The value of a plain operator on 128 bits. -/
def plain128 (value : Int) : Except Fault Int :=
  if -i128Max - 1 ≤ value ∧ value ≤ i128Max then .ok value else .error .overflow128

/-- Multiplication saturates. -/
def bigMultiply (lhs rhs : Int) : Int :=
  max (-i128Max - 1) (min i128Max (lhs * rhs))

/-- The low 64 bits, as a cast takes them. -/
def asI64 (value : Int) : Int := Int.bmod value 18446744073709551616

def bigDivideOrThrow (n d : Int) (round : Round) : Except Fault Int := do
  if d ≤ 0 then throw (.error .invalidPrice)
  let value ← match round with
    | .down => pure (n.tdiv d)
    | .up =>
      if n = 0 then pure 0
      else do
        let sum ← plain128 (n + d)
        let sum ← plain128 (sum - 1)
        pure (sum.tdiv d)
  if value > i64Max then throw (.error .overflow)
  return asI64 value

def calculateOfferValue (priceN priceD maxSend maxReceive : Int) : Int :=
  min (bigMultiply maxSend priceN) (bigMultiply maxReceive priceD)

/-- Multiplication on 64 bits that fails when it goes out of range. -/
def checkedMul64 (lhs rhs : Int) : Except Fault Int :=
  if -i64Max - 1 ≤ lhs * rhs ∧ lhs * rhs ≤ i64Max then .ok (lhs * rhs)
  else .error (.error .overflow)

def checkPriceErrorBound (price : Price) (wheatReceive sheepSend : Int) (canFavorWheat : Bool) :
    Except Fault Unit := do
  let errN ← checkedMul64 100 price.n
  let errD ← checkedMul64 100 price.d
  let lhs := bigMultiply wheatReceive errN
  let rhs := bigMultiply sheepSend errD
  if canFavorWheat ∧ rhs > lhs then return ()
  let absDiff ← if lhs > rhs then plain128 (lhs - rhs) else plain128 (rhs - lhs)
  let cap := bigMultiply wheatReceive price.n
  if absDiff ≤ cap then return () else throw (.error .priceError)

/-- The amounts that change hands when the offer is not taken whole. -/
def wheatStaysAmounts (price : Price) (wheatValue sheepValue maxSheepSend maxSheepReceive : Int)
    (round : RoundingType) : Except Fault (Int × Int) :=
  if round = .pathPaymentStrictSend then do
    let wheatReceive ← bigDivideOrThrow (min wheatValue sheepValue) price.n .down
    return (wheatReceive, min maxSheepSend maxSheepReceive)
  else if price.n > price.d ∨ round = .pathPaymentStrictReceive then do
    let wheatReceive ← bigDivideOrThrow sheepValue price.n .down
    let sheepSend ← bigDivideOrThrow (← plain128 (wheatReceive * price.n)) price.d .up
    return (wheatReceive, sheepSend)
  else do
    let sheepSend ← bigDivideOrThrow sheepValue price.d .down
    let wheatReceive ← bigDivideOrThrow (← plain128 (sheepSend * price.d)) price.n .down
    return (wheatReceive, sheepSend)

/-- The amounts that change hands when the offer is taken whole. -/
def wheatGoneAmounts (price : Price) (wheatValue : Int) : Except Fault (Int × Int) :=
  if price.n > price.d then do
    let wheatReceive ← bigDivideOrThrow wheatValue price.n .down
    let sheepSend ← bigDivideOrThrow (← plain128 (wheatReceive * price.n)) price.d .down
    return (wheatReceive, sheepSend)
  else do
    let sheepSend ← bigDivideOrThrow wheatValue price.d .down
    let wheatReceive ← bigDivideOrThrow (← plain128 (sheepSend * price.d)) price.n .up
    return (wheatReceive, sheepSend)

def exchangeV10WithoutPriceErrorThresholds (price : Price)
    (maxWheatSend maxWheatReceive maxSheepSend maxSheepReceive : Int) (round : RoundingType) :
    Except Fault ExchangeResult := do
  if price.n ≤ 0 ∨ price.d ≤ 0 then throw (.error .invalidPrice)
  let wheatValue := calculateOfferValue price.n price.d maxWheatSend maxSheepReceive
  let sheepValue := calculateOfferValue price.d price.n maxSheepSend maxWheatReceive
  let wheatStays := decide (wheatValue > sheepValue)
  let (wheatReceive, sheepSend) ←
    if wheatStays then
      wheatStaysAmounts price wheatValue sheepValue maxSheepSend maxSheepReceive round
    else wheatGoneAmounts price wheatValue
  if wheatReceive < 0 ∨ wheatReceive > min maxWheatReceive maxWheatSend ∨
      sheepSend < 0 ∨ sheepSend > min maxSheepReceive maxSheepSend then
    throw (.error .invalidAmount)
  return { numWheatReceived := wheatReceive, numSheepSend := sheepSend, wheatStays := wheatStays }

/-- What the bound on the price error makes of the computed amounts. -/
def applyPriceErrorThresholds (price : Price) (res : ExchangeResult) (round : RoundingType) :
    Except Fault ExchangeResult :=
  if res.numWheatReceived > 0 ∧ res.numSheepSend > 0 then do
    let wheatValue := bigMultiply res.numWheatReceived price.n
    let sheepValue := bigMultiply res.numSheepSend price.d
    if res.wheatStays ∧ sheepValue < wheatValue then throw (.error .invalidAmount)
    if ¬ res.wheatStays ∧ sheepValue > wheatValue then throw (.error .invalidAmount)
    if round = .normal then
      match checkPriceErrorBound price res.numWheatReceived res.numSheepSend false with
      | .ok () => return res
      | .error (.error _) => return { res with numWheatReceived := 0, numSheepSend := 0 }
      | .error .overflow128 => throw .overflow128
    else do
      checkPriceErrorBound price res.numWheatReceived res.numSheepSend true
      return res
  else if round = .pathPaymentStrictSend then return { res with numWheatReceived := 0 }
  else return { res with numWheatReceived := 0, numSheepSend := 0 }

def exchangeV10 (price : Price) (maxWheatSend maxWheatReceive maxSheepSend maxSheepReceive : Int)
    (round : RoundingType) : Except Fault ExchangeResult := do
  let res ← exchangeV10WithoutPriceErrorThresholds price maxWheatSend maxWheatReceive
    maxSheepSend maxSheepReceive round
  applyPriceErrorThresholds price res round

/-- The part of an offer's amount that can be exchanged against an unlimited taker. -/
def adjustOfferAmount (price : Price) (maxWheatSend maxSheepReceive : Int) : Except Fault Int := do
  let res ← exchangeV10 price maxWheatSend i64Max i64Max maxSheepReceive .normal
  return res.numWheatReceived

def offerLiabilitiesSell (amount : Int) (price : Price) : Except Fault (Int × Int) := do
  let res ← exchangeV10WithoutPriceErrorThresholds price amount i64Max i64Max i64Max .normal
  return (res.numWheatReceived, res.numSheepSend)

/-- The exchange that crossing an offer makes: the offer is adjusted to what its owner can
sell and buy first. -/
def crossOfferExchange (price : Price)
    (maxWheatSend maxWheatReceive maxSheepSend maxSheepReceive : Int) (round : RoundingType) :
    Except Fault ExchangeResult := do
  let adjustedOfferAmount ← adjustOfferAmount price maxWheatSend maxSheepReceive
  exchangeV10 price adjustedOfferAmount maxWheatReceive maxSheepSend maxSheepReceive round

end Henyey.Dex
