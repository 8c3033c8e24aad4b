import Henyey.Fees.Records
import Mathlib.Algebra.Order.BigOperators.Group.List

/-!
# Fees over a ledger close

All fees are taken before anything executes, the classic transactions execute, then
the Soroban ones, and the refunds come last. Execution may do anything to accounts:
what the fee pool gets is what the results say was charged.
-/

namespace Henyey.Fees

open Henyey.TxQueue List

structure TxWithFee where
  tx : TransactionEnvelope
  /-- The base fee of its component, when that is discounted. -/
  baseFee : Option Nat

/-- The parameters of a close. -/
structure LedgerContext where
  sequence : Nat
  baseFee : Nat
  protocolVersion : Nat

/-- The base fee that applies to a transaction. -/
def txFee (context : LedgerContext) (tx : TxWithFee) : Int := tx.baseFee.getD context.baseFee

/-- Take the fees of some transactions, one after another. The running total is checked
against the range of `i64`. -/
def deductFees (context : LedgerContext) (snapshot : Snapshot) :
    Changes → Int → List TxWithFee → Option (List PreChargedFee × Changes × Int)
  | changes, total, [] => some ([], changes, total)
  | changes, total, tx :: txs => do
    let computedFee ← feeToCharge tx.tx (txFee context tx)
    let (chargedFee, feeChanges, changes) ← deductFeeFromAccount changes snapshot context.sequence
      (feeSourceKey tx.tx) computedFee
    if total + chargedFee > i64Max then none
    else
      let (preCharged, changes, total) ←
        deductFees context snapshot changes (total + chargedFee) txs
      return ({ chargedFee := chargedFee, feeChanges := feeChanges } :: preCharged, changes, total)

/-- The fees of both phases, the classic ones first. -/
def preDeductAllFeesOnDelta (context : LedgerContext) (snapshot : Snapshot) (changes : Changes)
    (classicTxs : List TxWithFee) (sorobanPhase : List (List (List TxWithFee))) :
    Option (List PreChargedFee × List PreChargedFee × Changes × Int) := do
  let (classicPreCharged, changes, total) ← deductFees context snapshot changes 0 classicTxs
  let (sorobanPreCharged, changes, total) ←
    deductFees context snapshot changes total sorobanPhase.flatten.flatten
  return (classicPreCharged, sorobanPreCharged, changes, total)

/-- What executing a phase does to accounts, and what it reports of each transaction. -/
abbrev Executor : Type := Changes → Changes × (Nat → Execution)

/-- The records of a phase before refunds. -/
def recordsOf (context : LedgerContext) (txs : List TxWithFee) (preCharged : List PreChargedFee)
    (executions : Nat → Execution) : List TxRecord :=
  (txs.zip preCharged).mapIdx fun index entry =>
    recordOf entry.1.tx (txFee context entry.1) context.protocolVersion entry.2 (executions index)

/-- The fee side of a ledger close: what was taken, the accounts after each part, and what
the results and the fee pool record. -/
structure FeeClose where
  preCharged : List PreChargedFee
  deducted : Changes
  /-- The Soroban records before refunds, and the accounts the refunds meet. -/
  unrefunded : List TxRecord
  executed : Changes
  closed : Changes
  records : List TxRecord
  feePoolDelta : Int

/-- The fees of the classic phase are charged outside of it, so the refunds its executor
makes are not recorded for the fee pool. -/
def closeLedger (context : LedgerContext) (snapshot : Snapshot) (classicTxs : List TxWithFee)
    (sorobanPhase : List (List (List TxWithFee))) (classic soroban : Executor) :
    Option FeeClose := do
  let (classicPreCharged, sorobanPreCharged, deducted, totalFeePool) ←
    preDeductAllFeesOnDelta context snapshot (fun _ => none) classicTxs sorobanPhase
  let (afterClassic, classicExecutions) := classic deducted
  let (afterClassic, classicRecords, _) := refundAll context.protocolVersion afterClassic
    (recordsOf context classicTxs classicPreCharged classicExecutions)
  let (executed, sorobanExecutions) := soroban afterClassic
  let unrefunded :=
    recordsOf context sorobanPhase.flatten.flatten sorobanPreCharged sorobanExecutions
  let (closed, sorobanRecords, totalRefunds) :=
    refundAll context.protocolVersion executed unrefunded
  return {
    preCharged := classicPreCharged ++ sorobanPreCharged
    deducted := deducted
    unrefunded := unrefunded
    executed := executed
    closed := closed
    records := classicRecords ++ sorobanRecords
    feePoolDelta := totalFeePool - totalRefunds }

/-- What the executor promises of a transaction: the declared resource fee covers what is not
refundable, and fees are in the range of their types. -/
structure Covered (tx : TransactionEnvelope) (execution : Execution) : Prop where
  nonRefundable_nonneg : 0 ≤ execution.nonRefundableFee
  nonRefundable_le : execution.nonRefundableFee ≤ declaredSorobanResourceFee tx
  consumed_nonneg : 0 ≤ execution.consumedRefundableFee
  declared_le : declaredSorobanResourceFee tx ≤ i64Max
  innerFee_le : innerFee tx ≤ 2 ^ 32 - 1

section

variable {context : LedgerContext} {snapshot : Snapshot}

def chargedTotal (preCharged : List PreChargedFee) : Int :=
  (preCharged.map PreChargedFee.chargedFee).sum

theorem deductFees_spec {changes after : Changes} {total last : Int} {txs : List TxWithFee}
    {preCharged : List PreChargedFee}
    (hdeduct : deductFees context snapshot changes total txs = some (preCharged, after, last)) :
    preCharged.length = txs.length ∧ (∀ pre ∈ preCharged, 0 ≤ pre.chargedFee) ∧
      last = total + chargedTotal preCharged ∧
      (0 ≤ total → ∀ pre ∈ preCharged, pre.chargedFee ≤ i64Max) ∧
      ∀ ids : Finset AccountKey, (∀ tx ∈ txs, feeSourceKey tx.tx ∈ ids) →
        totalBalance after snapshot ids =
          totalBalance changes snapshot ids - chargedTotal preCharged := by
  induction txs generalizing changes total preCharged with
  | nil =>
    cases hdeduct
    simp [chargedTotal]
  | cons tx rest ih =>
    rw [deductFees, Option.bind_eq_bind, Option.bind_eq_some_iff] at hdeduct
    obtain ⟨computedFee, -, hdeduct⟩ := hdeduct
    rw [Option.bind_eq_bind, Option.bind_eq_some_iff] at hdeduct
    obtain ⟨⟨chargedFee, feeChanges, middle⟩, hfirst, hdeduct⟩ := hdeduct
    obtain ⟨hnonneg, -, hbalance⟩ := deductFeeFromAccount_spec hfirst
    dsimp only at hdeduct
    split at hdeduct
    · cases hdeduct
    next hroom =>
      rw [Option.bind_eq_bind, Option.bind_eq_some_iff] at hdeduct
      obtain ⟨⟨others, final, sum⟩, hothers, hdeduct⟩ := hdeduct
      cases hdeduct
      obtain ⟨hlength, hcharged, hsum, hbound, htotals⟩ := ih hothers
      have hsplit : chargedTotal ({ chargedFee := chargedFee, feeChanges := feeChanges } :: others) =
          chargedFee + chargedTotal others := by
        simp [chargedTotal]
      refine ⟨by simp [hlength], ?_, ?_, ?_, ?_⟩
      · intro pre hpre
        rcases mem_cons.mp hpre with rfl | hmem
        · exact hnonneg
        · exact hcharged pre hmem
      · rw [hsum, hsplit]
        omega
      · intro htotal pre hpre
        rcases mem_cons.mp hpre with rfl | hmem
        · dsimp only
          omega
        · exact hbound (by omega) pre hmem
      · intro ids hids
        rw [htotals ids fun other hother => hids other (mem_cons_of_mem _ hother),
          hbalance ids (hids tx mem_cons_self), hsplit]
        omega

end

section

variable {tx : TransactionEnvelope} {execution : Execution}

theorem Covered.feeRefund_mem (hcovered : Covered tx execution) :
    0 ≤ feeRefund tx execution ∧ feeRefund tx execution ≤ i64Max := by
  obtain ⟨hnonneg, hle, hconsumed, hdeclared, -⟩ := hcovered
  have hmax : saturatingSub (declaredSorobanResourceFee tx) execution.nonRefundableFee =
      declaredSorobanResourceFee tx - execution.nonRefundableFee :=
    saturate_of_mem (by rw [i64Min]; omega) (by omega)
  have hzero : (0 : Int) ≤ i64Max := by decide
  unfold feeRefund
  rw [hmax]
  dsimp only
  split
  · split
    · omega
    · split <;> omega
  · omega

theorem feeRefund_of_classic (hclassic : isSorobanEnvelope tx = false) :
    feeRefund tx execution = 0 := by
  simp [feeRefund, hclassic]

/-- The refund is subtracted without clamping. -/
theorem feeCharged_recordOf (hrefund : 0 ≤ feeRefund tx execution ∧ feeRefund tx execution ≤ i64Max)
    {pre : PreChargedFee} (hpre : 0 ≤ pre.chargedFee ∧ pre.chargedFee ≤ i64Max) (baseFee : Int)
    (protocolVersion : Nat) :
    (recordOf tx baseFee protocolVersion pre execution).feeCharged =
      pre.chargedFee - feeRefund tx execution := by
  apply saturate_of_mem
  · rw [i64Min]
    rw [i64Max] at hrefund
    omega
  · omega

theorem innerComputedFee_mem (hsoroban : isSorobanEnvelope tx = true)
    (hcovered : Covered tx execution) {baseFee : Int} (hbase : 0 ≤ baseFee) :
    0 ≤ innerComputedFee tx baseFee ∧ innerComputedFee tx baseFee ≤ i64Max := by
  have hinner : 0 ≤ innerFee tx := by
    cases tx <;> exact Int.natCast_nonneg _
  have hadjusted : 0 ≤ baseFee * max 1 ((envelopeOperations tx).length : Int) :=
    Int.mul_nonneg hbase (le_max_of_le_left (by decide))
  have hdeclared : 0 ≤ declaredSorobanResourceFee tx :=
    hcovered.nonRefundable_nonneg.trans hcovered.nonRefundable_le
  have hle := hcovered.innerFee_le
  simp only [innerComputedFee, hsoroban, if_true, i64Max]
  omega

end

section

variable (protocolVersion : Nat)

theorem refundAll_cons (changes : Changes) (record : TxRecord) (rest : List TxRecord) :
    refundAll protocolVersion changes (record :: rest) =
      ((refundAll protocolVersion (refundOne protocolVersion changes record).1 rest).1,
        (refundOne protocolVersion changes record).2.1 ::
          (refundAll protocolVersion (refundOne protocolVersion changes record).1 rest).2.1,
        (refundOne protocolVersion changes record).2.2 +
          (refundAll protocolVersion (refundOne protocolVersion changes record).1 rest).2.2) :=
  rfl

theorem refundOne_balance (changes : Changes) {record : TxRecord} (hrefund : 0 ≤ record.feeRefund) :
    (refundOne protocolVersion changes record).2.1.feeCharged +
        (refundOne protocolVersion changes record).2.2 =
      record.feeCharged + record.feeRefund := by
  unfold refundOne
  split
  · dsimp only
    split
    · rfl
    · exact add_zero _
  next hnone => simp only; omega

theorem refundOne_total (changes : Changes) (snapshot : Snapshot) (record : TxRecord)
    {ids : Finset AccountKey} (hid : feeSourceKey record.tx ∈ ids) :
    totalBalance (refundOne protocolVersion changes record).1 snapshot ids =
      totalBalance changes snapshot ids + (refundOne protocolVersion changes record).2.2 := by
  unfold refundOne
  split
  · dsimp only
    split
    next credited hcredited => exact applyRefundToAccount_spec hcredited hid
    · exact (add_zero _).symm
  · exact (add_zero _).symm

variable {records : List TxRecord}

section

variable (changes : Changes)
include changes

theorem refundAll_balance (hrefund : ∀ record ∈ records, 0 ≤ record.feeRefund) :
    (((refundAll protocolVersion changes records).2.1).map TxRecord.feeCharged).sum +
        (refundAll protocolVersion changes records).2.2 =
      (records.map fun record => record.feeCharged + record.feeRefund).sum := by
  induction records generalizing changes with
  | nil => rfl
  | cons record rest ih =>
    have hone := refundOne_balance protocolVersion changes
      (hrefund record mem_cons_self)
    have hrest := ih (refundOne protocolVersion changes record).1
      fun other hother => hrefund other (mem_cons_of_mem _ hother)
    rw [refundAll_cons, map_cons, map_cons, sum_cons, sum_cons, ← hrest, ← hone]
    dsimp only
    omega

theorem refundAll_total (snapshot : Snapshot) {ids : Finset AccountKey}
    (hids : ∀ record ∈ records, feeSourceKey record.tx ∈ ids) :
    totalBalance (refundAll protocolVersion changes records).1 snapshot ids =
      totalBalance changes snapshot ids + (refundAll protocolVersion changes records).2.2 := by
  induction records generalizing changes with
  | nil => exact (add_zero _).symm
  | cons record rest ih =>
    have hrest := ih (refundOne protocolVersion changes record).1
      fun other hother => hids other (mem_cons_of_mem _ hother)
    have hone := refundOne_total protocolVersion changes snapshot record
      (hids record mem_cons_self)
    rw [refundAll_cons]
    dsimp only
    rw [hrest, hone]
    omega

theorem getElem?_refundAll (records : List TxRecord) (index : Nat) :
    (refundAll protocolVersion changes records).2.1[index]? =
      (records[index]?).map fun record =>
        (refundOne protocolVersion
          (refundAll protocolVersion changes (records.take index)).1 record).2.1 := by
  induction records generalizing changes index with
  | nil => rfl
  | cons record rest ih =>
    cases index with
    | zero => rfl
    | succ index =>
      rw [refundAll_cons, take_succ_cons, refundAll_cons]
      exact ih _ index

theorem refundAll_of_nothing (hnone : ∀ record ∈ records, record.feeRefund = 0) :
    refundAll protocolVersion changes records = (changes, records, 0) := by
  induction records with
  | nil => rfl
  | cons record rest ih =>
    have hone : refundOne protocolVersion changes record = (changes, record, 0) := by
      apply if_neg
      rw [hnone record mem_cons_self]
      exact lt_irrefl 0
    rw [refundAll_cons, hone, ih fun other hother => hnone other (mem_cons_of_mem _ hother)]
    rfl

end

end

end Henyey.Fees
