import Henyey.Dex.Amounts

/-!
# Exchanging against a liquidity pool

A pool keeps the product of its reserves. The amounts are products of three numbers of 63
bits, which the code divides factor by factor so that 128 bits are enough.
-/

namespace Henyey.Dex

open Foundation

def u128Max : Int := 340282366920938463463374607431768211455

def maxBps : Int := 10000

def liquidityPoolFeeV18 : Int := 30

/-- An error that the pool code returns, or a plain operation that goes out of range. -/
inductive PoolFault where
  | internal (message : String)
  | overflow
deriving DecidableEq

/-- The out-parameters of the exchange. -/
structure PoolAmounts where
  toPool : Int
  fromPool : Int
deriving DecidableEq

structure PoolExchangeRequest where
  reservesToPool : Int
  maxSendToPool : Int
  reservesFromPool : Int
  maxReceiveFromPool : Int
  feeBps : Int
  round : RoundingType

/-- The value of a plain operator on unsigned 128 bits. -/
def plainU128 (value : Int) : Except PoolFault Int :=
  if 0 ≤ value ∧ value ≤ u128Max then .ok value else .error .overflow

/-- The value of a plain operator on 64 bits. -/
def plainI64 (value : Int) : Except PoolFault Int :=
  if -i64Max - 1 ≤ value ∧ value ≤ i64Max then .ok value else .error .overflow

/-- The cast of a signed to an unsigned number of 64 bits. -/
def asU64 (value : Int) : Int := value % 18446744073709551616

/-- `a * b / c` without the product of all factors, rounded down. -/
def hugeDivideDown (a b c : Int) : Except PoolFault Int := do
  let q := b / c
  let r := b % c
  let whole ← plainU128 (a * q)
  let part ← plainU128 (a * r)
  plainU128 (whole + part / c)

/-- `a * b / c` without the product of all factors, rounded up. -/
def hugeDivideUp (a b c : Int) : Except PoolFault Int := do
  let q := b / c
  let r := b % c
  let whole ← plainU128 (a * q)
  let part ← plainU128 (a * r)
  plainU128 (whole + ceilDiv part c)

def exchangeStrictSend (request : PoolExchangeRequest) (out : PoolAmounts) :
    Except PoolFault (Bool × PoolAmounts) := do
  if request.maxReceiveFromPool ≠ i64Max then
    throw (.internal "strict send with bounded receive")
  let maxReceiveFromPool := request.reservesFromPool
  if request.maxSendToPool > (← plainI64 (i64Max - request.reservesToPool)) then
    return (false, out)
  let out := { out with toPool := request.maxSendToPool }
  let reserves ← plainU128 (asU64 maxBps * asU64 request.reservesToPool)
  let sent ← plainU128 (asU64 (maxBps - request.feeBps) * asU64 out.toPool)
  let denominator ← plainU128 (reserves + sent)
  let b ← plainU128 (asU64 request.reservesFromPool * asU64 out.toPool)
  if denominator = 0 then return (false, out)
  let value ← hugeDivideDown (maxBps - request.feeBps) b denominator
  if value > i64Max then return (false, out)
  let out := { out with fromPool := asI64 value }
  if out.fromPool > maxReceiveFromPool ∨ out.fromPool = 0 then return (false, out)
  return (true, out)

def exchangeStrictReceive (request : PoolExchangeRequest) (out : PoolAmounts) :
    Except PoolFault (Bool × PoolAmounts) := do
  if request.maxSendToPool ≠ i64Max then
    throw (.internal "strict receive with bounded send")
  let maxSendToPool ← plainI64 (i64Max - request.reservesToPool)
  if request.maxReceiveFromPool ≥ request.reservesFromPool then return (false, out)
  let out := { out with fromPool := request.maxReceiveFromPool }
  let b ← plainU128 (asU64 request.reservesToPool * asU64 out.fromPool)
  let left ← plainI64 (request.reservesFromPool - out.fromPool)
  let c ← plainU128 (asU64 left * asU64 (maxBps - request.feeBps))
  if c = 0 then return (false, out)
  let value ← hugeDivideUp maxBps b c
  if value > i64Max then return (false, out)
  let out := { out with toPool := asI64 value }
  return (decide (out.toPool ≤ maxSendToPool), out)

def exchangeWithPool (request : PoolExchangeRequest) (out : PoolAmounts) :
    Except PoolFault (Bool × PoolAmounts) := do
  if ¬ (0 ≤ request.feeBps ∧ request.feeBps < maxBps) then
    throw (.internal "pool fee out of range")
  if request.reservesToPool ≤ 0 ∨ request.reservesFromPool ≤ 0 then
    throw (.internal "non-positive pool reserves")
  match request.round with
  | .pathPaymentStrictSend => exchangeStrictSend request out
  | .pathPaymentStrictReceive => exchangeStrictReceive request out
  | .normal => return (false, out)

/-! ### Pools in the ledger -/

structure LiquidityPool (α : Type) where
  assetA : α
  assetB : α
  reserveA : Int
  reserveB : Int

structure PoolExchange (ι : Type) where
  poolId : ι
  send : Int
  recv : Int

section Ledger

variable {α ι : Type} [LinearOrder α] [DecidableEq ι]

def poolIdForAssets (hashXdr : α × α → ι) (sendAsset recvAsset : α) : ι :=
  hashXdr (min sendAsset recvAsset, max sendAsset recvAsset)

/-- The reserves that the sent asset goes to and the received one comes from. -/
def LiquidityPool.reserves (pool : LiquidityPool α) (sendAsset recvAsset : α) :
    Option (Int × Int) :=
  if sendAsset = pool.assetA ∧ recvAsset = pool.assetB then some (pool.reserveA, pool.reserveB)
  else if sendAsset = pool.assetB ∧ recvAsset = pool.assetA then
    some (pool.reserveB, pool.reserveA)
  else none

def computePoolExchange (hashXdr : α × α → ι) (sendAsset : α) (maxSend : Int) (recvAsset : α)
    (maxRecv : Int) (round : RoundingType) (pools : ι → Option (LiquidityPool α)) :
    Except PoolFault (Option (PoolExchange ι)) := do
  let poolId := poolIdForAssets hashXdr sendAsset recvAsset
  match pools poolId with
  | none => return none
  | some pool =>
    if pool.reserveA ≤ 0 ∨ pool.reserveB ≤ 0 then return none
    match pool.reserves sendAsset recvAsset with
    | none => return none
    | some (reservesTo, reservesFrom) =>
      let (ok, amounts) ← exchangeWithPool
        { reservesToPool := reservesTo, maxSendToPool := maxSend,
          reservesFromPool := reservesFrom, maxReceiveFromPool := maxRecv,
          feeBps := liquidityPoolFeeV18, round := round }
        { toPool := 0, fromPool := 0 }
      if ok = false then return none
      return some { poolId := poolId, send := amounts.toPool, recv := amounts.fromPool }

def checkedAdd (reserve amount : Int) : Except PoolFault Int :=
  if -i64Max - 1 ≤ reserve + amount ∧ reserve + amount ≤ i64Max then .ok (reserve + amount)
  else .error (.internal "pool reserve overflow")

def checkedSub (reserve amount : Int) : Except PoolFault Int :=
  if -i64Max - 1 ≤ reserve - amount ∧ reserve - amount ≤ i64Max then .ok (reserve - amount)
  else .error (.internal "pool reserve underflow")

def applyPoolExchange (hashXdr : α × α → ι) (sendAsset recvAsset : α) (toPool fromPool : Int)
    (pools : ι → Option (LiquidityPool α)) :
    Except PoolFault (Bool × (ι → Option (LiquidityPool α))) := do
  let poolId := poolIdForAssets hashXdr sendAsset recvAsset
  match pools poolId with
  | none => return (false, pools)
  | some pool =>
    if sendAsset = pool.assetA ∧ recvAsset = pool.assetB then do
      let reserveA ← checkedAdd pool.reserveA toPool
      let reserveB ← checkedSub pool.reserveB fromPool
      return (true, Function.update pools poolId
        (some { pool with reserveA := reserveA, reserveB := reserveB }))
    else if sendAsset = pool.assetB ∧ recvAsset = pool.assetA then do
      let reserveB ← checkedAdd pool.reserveB toPool
      let reserveA ← checkedSub pool.reserveA fromPool
      return (true, Function.update pools poolId
        (some { pool with reserveA := reserveA, reserveB := reserveB }))
    else return (false, pools)

end Ledger

end Henyey.Dex
