import Henyey.Fees.Accounts

/-!
# What results say about fees

The fee of a transaction, the refund of a Soroban transaction, and the fee fields of
the three records of a result: the execution result, the result pair and the result in
the meta.
-/

namespace Henyey.Fees

open Henyey.TxQueue

/-- Reduce to the range of `i64` by wrapping around. -/
def wrapI64 (n : Int) : Int := (n - i64Min) % 2 ^ 64 + i64Min

def declaredSorobanResourceFee (tx : TransactionEnvelope) : Int :=
  if isSorobanEnvelope tx then ((envelopeSorobanData tx).map (·.resourceFee)).getD 0 else 0

/-- A negative resource fee panics. -/
def inclusionFee (tx : TransactionEnvelope) : Option Int :=
  if isSorobanEnvelope tx then
    if declaredSorobanResourceFee tx < 0 then none
    else some (wrapI64 (envelopeFee tx - declaredSorobanResourceFee tx))
  else some (envelopeFee tx)

def minInclusionFee (tx : TransactionEnvelope) (baseFee : Int) : Int :=
  saturatingMul baseFee (max 1 (envelopeOperationCount tx))

def feeToCharge (tx : TransactionEnvelope) (baseFee : Int) : Option Int := do
  let inclusion ← inclusionFee tx
  let bid := min inclusion (minInclusionFee tx baseFee)
  return if isSorobanEnvelope tx then saturatingAdd (declaredSorobanResourceFee tx) bid else bid

def innerFee : TransactionEnvelope → Int
  | .txV0 tx => tx.fee
  | .tx tx => tx.fee
  | .txFeeBump _ _ innerTx _ => innerTx.fee

/-- What the executor reports of a transaction. -/
structure Execution where
  success : Bool
  /-- Validation failed before the operations. -/
  rejected : Bool
  feeBumpOuterFailure : Bool
  /-- What the resource model charges for everything that is not refundable. -/
  nonRefundableFee : Int
  /-- The refundable fee that was consumed; a failed transaction resets it. -/
  consumedRefundableFee : Int

/-- The refund of a Soroban transaction: everything refundable when it was rejected, else
what is left of it. -/
def feeRefund (tx : TransactionEnvelope) (execution : Execution) : Int :=
  if isSorobanEnvelope tx then
    let maxRefundableFee :=
      saturatingSub (declaredSorobanResourceFee tx) execution.nonRefundableFee
    if execution.rejected then maxRefundableFee
    else if maxRefundableFee > execution.consumedRefundableFee then
      maxRefundableFee - execution.consumedRefundableFee
    else 0
  else 0

def feeBumpRefundAppliesToInner (protocolVersion : Nat) : Bool := protocolVersion < 25

/-- The fee fields of a result: its own, and that of the inner result of a fee bump. -/
structure ResultPair where
  feeCharged : Int
  inner : Option Int
deriving DecidableEq

/-- The fee of the inner transaction by its own bid, without the refund. -/
def innerComputedFee (tx : TransactionEnvelope) (baseFee : Int) : Int :=
  let adjustedFee := baseFee * max 1 ((envelopeOperations tx).length : Int)
  if isSorobanEnvelope tx then
    declaredSorobanResourceFee tx + min (innerFee tx - declaredSorobanResourceFee tx) adjustedFee
  else min (innerFee tx) adjustedFee

def innerFeeCharged (tx : TransactionEnvelope) (baseFee refund : Int) (protocolVersion : Nat) :
    Int :=
  if feeBumpRefundAppliesToInner protocolVersion then
    if isSorobanEnvelope tx then saturatingSub (innerComputedFee tx baseFee) refund
    else innerComputedFee tx baseFee
  else 0

def buildTxResultPair (tx : TransactionEnvelope) (execution : Execution) (feeCharged baseFee : Int)
    (protocolVersion : Nat) : ResultPair where
  feeCharged := feeCharged
  inner :=
    if isFeeBumpEnvelope tx ∧ ¬ execution.feeBumpOuterFailure then
      some (innerFeeCharged tx baseFee (feeRefund tx execution) protocolVersion)
    else none

/-- The fee that was taken before execution. -/
structure PreChargedFee where
  chargedFee : Int
  feeChanges : EntryChanges

/-- The fee fields of the execution result, the result pair and the meta. -/
structure TxRecord where
  tx : TransactionEnvelope
  feeCharged : Int
  feeRefund : Int
  pair : ResultPair
  metaResult : ResultPair
  feeProcessing : EntryChanges
  postTxApplyFeeProcessing : EntryChanges

/-- The record of an executed transaction, with the refund subtracted ahead. -/
def recordOf (tx : TransactionEnvelope) (baseFee : Int) (protocolVersion : Nat)
    (pre : PreChargedFee) (execution : Execution) : TxRecord :=
  let refund := Fees.feeRefund tx execution
  let charged := saturatingSub pre.chargedFee refund
  let pair := buildTxResultPair tx execution charged baseFee protocolVersion
  { tx := tx
    feeCharged := charged
    feeRefund := refund
    pair := pair
    metaResult := pair
    feeProcessing := pre.feeChanges
    postTxApplyFeeProcessing := none }

def correctFeeChargedOnFailedRefund (protocolVersion : Nat) (refund : Int) (pair : ResultPair) :
    ResultPair where
  feeCharged := pair.feeCharged + refund
  inner :=
    if feeBumpRefundAppliesToInner protocolVersion then pair.inner.map (· + refund) else pair.inner

/-- Credit the refund of one transaction, or take it back in the records. The fee pool gives
what is credited. -/
def refundOne (protocolVersion : Nat) (changes : Changes) (record : TxRecord) :
    Changes × TxRecord × Int :=
  if record.feeRefund > 0 then
    let source := feeSourceKey record.tx
    match applyRefundToAccount changes source record.feeRefund with
    | some credited =>
      let post := match changes.getCurrentEntry source, credited.getCurrentEntry source with
        | some before, some after => some (before, after)
        | _, _ => record.postTxApplyFeeProcessing
      (credited, { record with postTxApplyFeeProcessing := post }, record.feeRefund)
    | none =>
      (changes, { record with
        feeCharged := record.feeCharged + record.feeRefund
        pair := correctFeeChargedOnFailedRefund protocolVersion record.feeRefund record.pair
        metaResult :=
          correctFeeChargedOnFailedRefund protocolVersion record.feeRefund record.metaResult }, 0)
  else (changes, record, 0)

/-- The refunds after all transactions, in their order, with the total credited. -/
def refundAll (protocolVersion : Nat) : Changes → List TxRecord → Changes × List TxRecord × Int
  | changes, [] => (changes, [], 0)
  | changes, record :: records =>
    let (changes, refunded, credited) := refundOne protocolVersion changes record
    let (changes, rest, total) := refundAll protocolVersion changes records
    (changes, refunded :: rest, credited + total)

end Henyey.Fees
