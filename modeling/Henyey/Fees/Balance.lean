import Henyey.Fees.Close

/-!
# The fee accounting balances

Over any close, the fee pool, the results and the accounts agree on the fees. A
refund may be more than what was taken before execution, and a fee source that is gone
keeps its refund charged.
-/

namespace Henyey.Fees

open Henyey.TxQueue List Option

/-- What a record says about a fee that was taken. -/
structure Recorded (pre : PreChargedFee) (record : TxRecord) : Prop where
  taken_nonneg : 0 ≤ pre.chargedFee
  charged_le : record.feeCharged ≤ pre.chargedFee
  charged_nonneg : record.feeRefund ≤ pre.chargedFee → 0 ≤ record.feeCharged
  pair_eq : record.pair.feeCharged = record.feeCharged
  meta_eq : record.metaResult = record.pair

section

variable {context : LedgerContext} {txs : List TxWithFee} {preCharged : List PreChargedFee}
  {executions : Nat → Execution} {protocolVersion : Nat} {record : TxRecord}

theorem getElem?_recordsOf_eq_some {index : Nat} :
    (recordsOf context txs preCharged executions)[index]? = some record ↔
      ∃ tx pre, txs[index]? = some tx ∧ preCharged[index]? = some pre ∧
        recordOf tx.tx (txFee context tx) context.protocolVersion pre (executions index) = record := by
  rw [recordsOf, List.getElem?_mapIdx, map_eq_some_iff]
  constructor
  · rintro ⟨⟨tx, pre⟩, hentry, hrecord⟩
    obtain ⟨htx, hpre⟩ := List.getElem?_zip_eq_some.mp hentry
    exact ⟨tx, pre, htx, hpre, hrecord⟩
  · rintro ⟨tx, pre, htx, hpre, hrecord⟩
    exact ⟨(tx, pre), List.getElem?_zip_eq_some.mpr ⟨htx, hpre⟩, hrecord⟩

theorem length_recordsOf (hlength : preCharged.length = txs.length) :
    (recordsOf context txs preCharged executions).length = preCharged.length := by
  simp [recordsOf, hlength]

theorem mem_recordsOf (hmem : record ∈ recordsOf context txs preCharged executions) :
    ∃ index tx pre, txs[index]? = some tx ∧ preCharged[index]? = some pre ∧
      recordOf tx.tx (txFee context tx) context.protocolVersion pre (executions index) = record := by
  obtain ⟨index, hindex⟩ := mem_iff_getElem?.mp hmem
  exact ⟨index, getElem?_recordsOf_eq_some.mp hindex⟩

/-- Every refund of a phase is in the range of the type that holds it. -/
def RefundsInRange (txs : List TxWithFee) (executions : Nat → Execution) : Prop :=
  ∀ index tx, txs[index]? = some tx →
    0 ≤ feeRefund tx.tx (executions index) ∧ feeRefund tx.tx (executions index) ≤ i64Max

/-- Every amount that was taken is in the range of the type that holds it. -/
def TakenInRange (preCharged : List PreChargedFee) : Prop :=
  ∀ pre ∈ preCharged, 0 ≤ pre.chargedFee ∧ pre.chargedFee ≤ i64Max

theorem feeRefund_nonneg_of_mem (hrefunds : RefundsInRange txs executions) :
    ∀ record ∈ recordsOf context txs preCharged executions, 0 ≤ record.feeRefund := by
  intro record hmem
  obtain ⟨index, tx, pre, htx, -, rfl⟩ := mem_recordsOf hmem
  exact (hrefunds index tx htx).1

theorem map_feeCharged_recordsOf (hlength : preCharged.length = txs.length)
    (hrefunds : RefundsInRange txs executions) (htaken : TakenInRange preCharged) :
    ((recordsOf context txs preCharged executions).map fun record =>
      record.feeCharged + record.feeRefund) = preCharged.map PreChargedFee.chargedFee := by
  apply ext_getElem?
  intro index
  rw [List.getElem?_map, List.getElem?_map]
  cases hpre : preCharged[index]? with
  | none =>
    have hnone : (recordsOf context txs preCharged executions)[index]? = none := by
      rw [List.getElem?_eq_none_iff] at hpre ⊢
      rwa [length_recordsOf hlength]
    rw [hnone]
    rfl
  | some pre =>
    have hbound : index < txs.length := by
      rw [← hlength]
      exact (List.getElem?_eq_some_iff.mp hpre).1
    have htx := List.getElem?_eq_getElem hbound
    rw [getElem?_recordsOf_eq_some.mpr ⟨_, pre, htx, hpre, rfl⟩]
    have hcharged := feeCharged_recordOf (hrefunds index _ htx)
      (htaken pre (List.mem_of_getElem? hpre)) (txFee context txs[index]) context.protocolVersion
    rw [map_some, map_some, hcharged]
    exact congrArg some (Int.sub_add_cancel _ _)

theorem length_refundAll (changes : Changes) (records : List TxRecord) :
    (refundAll protocolVersion changes records).2.1.length = records.length := by
  induction records generalizing changes with
  | nil => rfl
  | cons record rest ih =>
    rw [refundAll_cons]
    exact congrArg (· + 1) (ih _)

variable {pre : PreChargedFee}

/-- A refund keeps what a record says, and at most takes itself back. -/
theorem Recorded.refundOne (hrecorded : Recorded pre record)
    (hsum : record.feeCharged + record.feeRefund = pre.chargedFee) (changes : Changes) :
    Recorded pre (Fees.refundOne protocolVersion changes record).2.1 := by
  obtain ⟨htaken, hle, hnonneg, hpair, hmeta⟩ := hrecorded
  unfold Fees.refundOne
  split
  · dsimp only
    split
    · exact ⟨htaken, hle, hnonneg, hpair, hmeta⟩
    · refine ⟨htaken, hsum.le, fun _ => ?_, ?_, ?_⟩
      · dsimp only
        omega
      · exact congrArg (· + record.feeRefund) hpair
      · dsimp only
        rw [hmeta]
  · exact ⟨htaken, hle, hnonneg, hpair, hmeta⟩

variable {execution : Execution} {tx : TransactionEnvelope}

theorem recorded_recordOf (hrefund : 0 ≤ feeRefund tx execution ∧ feeRefund tx execution ≤ i64Max)
    (hpre : 0 ≤ pre.chargedFee ∧ pre.chargedFee ≤ i64Max) (baseFee : Int) (protocolVersion : Nat) :
    Recorded pre (recordOf tx baseFee protocolVersion pre execution) := by
  have hcharged := feeCharged_recordOf hrefund hpre baseFee protocolVersion
  have hsame : (recordOf tx baseFee protocolVersion pre execution).feeRefund =
      feeRefund tx execution := rfl
  refine ⟨hpre.1, by omega, fun hle => by omega, rfl, rfl⟩

variable (context protocolVersion) in
theorem recorded_refundAll (hlength : preCharged.length = txs.length)
    (hrefunds : RefundsInRange txs executions) (htaken : TakenInRange preCharged)
    (changes : Changes) :
    List.Forall₂ Recorded preCharged
      (refundAll protocolVersion changes (recordsOf context txs preCharged executions)).2.1 := by
  rw [forall₂_iff_get]
  refine ⟨by rw [length_refundAll, length_recordsOf hlength], fun index hpre hrecord => ?_⟩
  have hfinal := List.getElem?_eq_getElem hrecord
  rw [getElem?_refundAll, map_eq_some_iff] at hfinal
  obtain ⟨before, hbefore, hfinal⟩ := hfinal
  obtain ⟨tx, pre, htx, hsome, rfl⟩ := getElem?_recordsOf_eq_some.mp hbefore
  obtain rfl : preCharged[index] = pre := (List.getElem?_eq_some_iff.mp hsome).2
  have hrange := hrefunds index tx htx
  have hpreRange := htaken _ (List.mem_of_getElem? hsome)
  have hsum := feeCharged_recordOf hrange hpreRange (txFee context tx) context.protocolVersion
  rw [get_eq_getElem, get_eq_getElem, ← hfinal]
  refine (recorded_recordOf hrange hpreRange _ _).refundOne ?_ _
  rw [hsum]
  exact Int.sub_add_cancel _ _

variable (context protocolVersion) in
theorem sum_refundAll (hlength : preCharged.length = txs.length)
    (hrefunds : RefundsInRange txs executions) (htaken : TakenInRange preCharged)
    (changes : Changes) :
    (((refundAll protocolVersion changes (recordsOf context txs preCharged executions)).2.1).map
        TxRecord.feeCharged).sum +
      (refundAll protocolVersion changes (recordsOf context txs preCharged executions)).2.2 =
        chargedTotal preCharged := by
  rw [refundAll_balance protocolVersion changes (feeRefund_nonneg_of_mem hrefunds),
    map_feeCharged_recordsOf hlength hrefunds htaken]
  rfl

theorem refundAll_of_classic (hclassic : ∀ tx ∈ txs, isSorobanEnvelope tx.tx = false)
    (changes : Changes) :
    refundAll protocolVersion changes (recordsOf context txs preCharged executions) =
      (changes, recordsOf context txs preCharged executions, 0) := by
  apply refundAll_of_nothing
  intro record hmem
  obtain ⟨index, tx, pre, htx, -, rfl⟩ := mem_recordsOf hmem
  exact feeRefund_of_classic (hclassic tx (List.mem_of_getElem? htx))

/-- What a record says after a refund that was not credited. -/
structure Restored (context : LedgerContext) (tx : TxWithFee) (pre : PreChargedFee)
    (record : TxRecord) : Prop where
  charged_eq : record.feeCharged = pre.chargedFee
  pair_eq : record.pair.feeCharged = pre.chargedFee
  meta_eq : record.metaResult = record.pair
  inner_eq : ∀ inner, record.pair.inner = some inner →
    inner = if feeBumpRefundAppliesToInner context.protocolVersion then
      innerComputedFee tx.tx (txFee context tx) else 0

theorem isSoroban_of_feeRefund_pos
    (hrefund : 0 < feeRefund tx execution) : isSorobanEnvelope tx = true := by
  by_contra hclassic
  rw [feeRefund_of_classic (Bool.eq_false_of_not_eq_true hclassic)] at hrefund
  exact lt_irrefl 0 hrefund

theorem innerFeeCharged_restored {baseFee : Int} (hcovered : Covered tx execution)
    (hbase : 0 ≤ baseFee) (hrefund : 0 < feeRefund tx execution)
    (happlies : feeBumpRefundAppliesToInner protocolVersion = true) :
    innerFeeCharged tx baseFee (feeRefund tx execution) protocolVersion + feeRefund tx execution =
      innerComputedFee tx baseFee := by
  have hsoroban := isSoroban_of_feeRefund_pos hrefund
  obtain ⟨hnonneg, hle⟩ := innerComputedFee_mem hsoroban hcovered hbase
  have hrange := hcovered.feeRefund_mem
  have hsub : saturatingSub (innerComputedFee tx baseFee) (feeRefund tx execution) =
      innerComputedFee tx baseFee - feeRefund tx execution := by
    apply saturate_of_mem
    · rw [i64Min]
      rw [i64Max] at hrange
      omega
    · omega
  rw [innerFeeCharged, if_pos happlies, if_pos hsoroban, hsub]
  exact Int.sub_add_cancel _ _

theorem refundOne_of_uncredited {changes : Changes} (hrefund : 0 < record.feeRefund)
    (hnone : applyRefundToAccount changes (feeSourceKey record.tx) record.feeRefund = none) :
    (refundOne protocolVersion changes record).2.1 = { record with
      feeCharged := record.feeCharged + record.feeRefund
      pair := correctFeeChargedOnFailedRefund protocolVersion record.feeRefund record.pair
      metaResult :=
        correctFeeChargedOnFailedRefund protocolVersion record.feeRefund record.metaResult } := by
  rw [refundOne, if_pos hrefund]
  dsimp only
  rw [hnone]

theorem restored_refundOne {tx : TxWithFee} (hcovered : Covered tx.tx execution)
    (hpre : 0 ≤ pre.chargedFee ∧ pre.chargedFee ≤ i64Max) (hrefund : 0 < feeRefund tx.tx execution)
    {changes : Changes}
    (hnone : applyRefundToAccount changes (feeSourceKey tx.tx) (feeRefund tx.tx execution) = none) :
    Restored context tx pre (refundOne context.protocolVersion changes
      (recordOf tx.tx (txFee context tx) context.protocolVersion pre execution)).2.1 := by
  have hsum : (recordOf tx.tx (txFee context tx) context.protocolVersion pre execution).feeCharged +
      feeRefund tx.tx execution = pre.chargedFee := by
    rw [feeCharged_recordOf hcovered.feeRefund_mem hpre]
    exact Int.sub_add_cancel _ _
  have hbase : 0 ≤ txFee context tx := Int.natCast_nonneg _
  rw [refundOne_of_uncredited hrefund hnone]
  refine ⟨hsum, hsum, rfl, fun inner hinner => ?_⟩
  cases happlies : feeBumpRefundAppliesToInner context.protocolVersion with
  | true =>
    simp only [correctFeeChargedOnFailedRefund, happlies, if_true, recordOf, buildTxResultPair,
      map_eq_some_iff] at hinner
    obtain ⟨reduced, hreduced, rfl⟩ := hinner
    split at hreduced
    · cases hreduced
      exact innerFeeCharged_restored hcovered hbase hrefund happlies
    · cases hreduced
  | false =>
    simp only [correctFeeChargedOnFailedRefund, happlies, Bool.false_eq_true, if_false, recordOf,
      buildTxResultPair] at hinner
    split at hinner
    · cases hinner
      rw [innerFeeCharged, happlies]
      rfl
    · cases hinner

end

section

variable {context : LedgerContext} {snapshot : Snapshot} {classicTxs : List TxWithFee}
  {sorobanPhase : List (List (List TxWithFee))} {classic soroban : Executor} {close : FeeClose}

/-- The transactions of both phases, in the order of the results. -/
def allTxs (classicTxs : List TxWithFee) (sorobanPhase : List (List (List TxWithFee))) :
    List TxWithFee :=
  classicTxs ++ sorobanPhase.flatten.flatten

/-- The fee side of a close balances. -/
structure Balanced (context : LedgerContext) (snapshot : Snapshot) (classicTxs : List TxWithFee)
    (sorobanPhase : List (List (List TxWithFee))) (close : FeeClose) : Prop where
  length_eq : close.preCharged.length = (allTxs classicTxs sorobanPhase).length
  feePool_eq : close.feePoolDelta = (close.records.map TxRecord.feeCharged).sum
  recorded : List.Forall₂ Recorded close.preCharged close.records
  /-- Over any accounts that the fee sources are among. -/
  taken_eq : ∀ ids : Finset AccountKey,
    (∀ tx ∈ allTxs classicTxs sorobanPhase, feeSourceKey tx.tx ∈ ids) →
      (totalBalance (fun _ => none) snapshot ids - totalBalance close.deducted snapshot ids) -
        (totalBalance close.closed snapshot ids - totalBalance close.executed snapshot ids) =
          close.feePoolDelta
  /-- The refund is tried where the refunds before it have left the accounts. -/
  restored : ∀ (index : Nat) (unrefunded : TxRecord), close.unrefunded[index]? = some unrefunded →
    0 < unrefunded.feeRefund →
    applyRefundToAccount
      (refundAll context.protocolVersion close.executed (close.unrefunded.take index)).1
      (feeSourceKey unrefunded.tx) unrefunded.feeRefund = none →
    ∃ tx pre record, sorobanPhase.flatten.flatten[index]? = some tx ∧
      close.preCharged[classicTxs.length + index]? = some pre ∧
      close.records[classicTxs.length + index]? = some record ∧ Restored context tx pre record

/-- A close takes the fees of the classic transactions, then those of the Soroban ones,
and refunds only the latter. -/
theorem closeLedger_eq_some (hclassic : ∀ tx ∈ classicTxs, isSorobanEnvelope tx.tx = false)
    (hclose : closeLedger context snapshot classicTxs sorobanPhase classic soroban = some close) :
    ∃ classicPreCharged afterClassicFees classicTotal sorobanPreCharged total executions
        sorobanExecutions before,
      deductFees context snapshot (fun _ => none) 0 classicTxs =
        some (classicPreCharged, afterClassicFees, classicTotal) ∧
      deductFees context snapshot afterClassicFees classicTotal sorobanPhase.flatten.flatten =
        some (sorobanPreCharged, close.deducted, total) ∧
      soroban before = (close.executed, sorobanExecutions) ∧
      close.unrefunded =
        recordsOf context sorobanPhase.flatten.flatten sorobanPreCharged sorobanExecutions ∧
      close.preCharged = classicPreCharged ++ sorobanPreCharged ∧
      close.closed = (refundAll context.protocolVersion close.executed close.unrefunded).1 ∧
      close.records = recordsOf context classicTxs classicPreCharged executions ++
        (refundAll context.protocolVersion close.executed close.unrefunded).2.1 ∧
      close.feePoolDelta =
        total - (refundAll context.protocolVersion close.executed close.unrefunded).2.2 := by
  rw [closeLedger, bind_eq_bind, bind_eq_some_iff] at hclose
  obtain ⟨⟨classicPreCharged, sorobanPreCharged, deducted, total⟩, hdeduct, hclose⟩ := hclose
  rw [preDeductAllFeesOnDelta, bind_eq_bind, bind_eq_some_iff] at hdeduct
  obtain ⟨⟨first, afterClassicFees, classicTotal⟩, hfirst, hdeduct⟩ := hdeduct
  obtain ⟨⟨second, last, sum⟩, hsecond, hdeduct⟩ := bind_eq_some_iff.mp hdeduct
  cases hdeduct
  simp only [refundAll_of_classic hclassic] at hclose
  cases hclose
  exact ⟨classicPreCharged, afterClassicFees, classicTotal, sorobanPreCharged, total,
    (classic deducted).2, (soroban (classic deducted).1).2, (classic deducted).1, hfirst, hsecond,
    rfl, rfl, rfl, rfl, rfl, rfl⟩

/-- The fees of a close balance, whatever executing its transactions does to accounts: the
fee pool gets what the results say was charged and what the accounts have paid, no
transaction is charged more than was taken for it, and what is not credited stays charged. -/
theorem closeLedger_balanced (hclassic : ∀ tx ∈ classicTxs, isSorobanEnvelope tx.tx = false)
    (hcovered : ∀ index tx, sorobanPhase.flatten.flatten[index]? = some tx →
      ∀ changes, Covered tx.tx ((soroban changes).2 index))
    (hclose : closeLedger context snapshot classicTxs sorobanPhase classic soroban = some close) :
    Balanced context snapshot classicTxs sorobanPhase close := by
  obtain ⟨classicPreCharged, afterClassicFees, classicTotal, sorobanPreCharged, total, executions,
    sorobanExecutions, before, hfirst, hsecond, hsoroban, hunrefunded, hpreCharged, hclosed, hrecords,
    hpool⟩ := closeLedger_eq_some hclassic hclose
  obtain ⟨hclassicLength, hclassicNonneg, hclassicTotal, hclassicBound, hclassicTaken⟩ :=
    deductFees_spec hfirst
  obtain ⟨hsorobanLength, hsorobanNonneg, htotal, hsorobanBound, hsorobanTaken⟩ :=
    deductFees_spec hsecond
  have hclassicRange : TakenInRange classicPreCharged := fun pre hpre =>
    ⟨hclassicNonneg pre hpre, hclassicBound le_rfl pre hpre⟩
  have hclassicTotalNonneg : 0 ≤ classicTotal := by
    rw [hclassicTotal, zero_add]
    apply sum_nonneg
    intro charged hcharged
    obtain ⟨pre, hpre, rfl⟩ := mem_map.mp hcharged
    exact hclassicNonneg pre hpre
  have hsorobanRange : TakenInRange sorobanPreCharged := fun pre hpre =>
    ⟨hsorobanNonneg pre hpre, hsorobanBound hclassicTotalNonneg pre hpre⟩
  have hclassicRefunds : RefundsInRange classicTxs executions := by
    intro index tx htx
    rw [feeRefund_of_classic (hclassic tx (List.mem_of_getElem? htx))]
    decide
  have hsorobanCovered : ∀ index tx, sorobanPhase.flatten.flatten[index]? = some tx →
      Covered tx.tx (sorobanExecutions index) := by
    intro index tx htx
    have htxCovered := hcovered index tx htx before
    rwa [hsoroban] at htxCovered
  have hsorobanRefunds : RefundsInRange sorobanPhase.flatten.flatten sorobanExecutions :=
    fun index tx htx => (hsorobanCovered index tx htx).feeRefund_mem
  have hrecorded := recorded_refundAll context context.protocolVersion
    hclassicLength hclassicRefunds hclassicRange (fun _ => none)
  have hsum := sum_refundAll context context.protocolVersion
    hclassicLength hclassicRefunds hclassicRange (fun _ => none)
  rw [refundAll_of_classic hclassic] at hrecorded hsum
  constructor
  · rw [hpreCharged, allTxs, length_append, length_append, hclassicLength, hsorobanLength]
  · have hsorobanSum := sum_refundAll context context.protocolVersion hsorobanLength
      hsorobanRefunds hsorobanRange close.executed
    rw [hpool, hrecords, hunrefunded, map_append, sum_append]
    dsimp only at hsum
    omega
  · rw [hpreCharged, hrecords, hunrefunded]
    exact rel_append hrecorded
      (recorded_refundAll context _ hsorobanLength hsorobanRefunds hsorobanRange close.executed)
  · intro ids hids
    have hsources : ∀ record ∈ close.unrefunded, feeSourceKey record.tx ∈ ids := by
      rw [hunrefunded]
      intro record hmem
      obtain ⟨index, tx, pre, htx, -, rfl⟩ := mem_recordsOf hmem
      exact hids tx (mem_append_right _ (List.mem_of_getElem? htx))
    have hrefunded := refundAll_total context.protocolVersion close.executed
      snapshot hsources
    have hclassicPart := hclassicTaken ids fun tx htx => hids tx (mem_append_left _ htx)
    have hsorobanPart := hsorobanTaken ids fun tx htx => hids tx (mem_append_right _ htx)
    rw [hpool, hclosed]
    omega
  · intro index unrefunded hindex hrefund hnone
    have hfinal := getElem?_refundAll context.protocolVersion close.executed
      close.unrefunded index
    rw [hindex, map_some] at hfinal
    rw [hunrefunded] at hindex
    obtain ⟨tx, pre, htx, hpre, rfl⟩ := getElem?_recordsOf_eq_some.mp hindex
    refine ⟨tx, pre, _, htx, ?_, ?_, restored_refundOne (hsorobanCovered index tx htx)
      (hsorobanRange pre (List.mem_of_getElem? hpre)) hrefund hnone⟩
    · rw [hpreCharged, ← hclassicLength, List.getElem?_append_right (Nat.le_add_right _ _),
        Nat.add_sub_cancel_left]
      exact hpre
    · rw [hrecords, ← hclassicLength, ← length_recordsOf hclassicLength,
        List.getElem?_append_right (Nat.le_add_right _ _), Nat.add_sub_cancel_left]
      exact hfinal

end

/-! ## A close with a drained and a merged fee source -/

def drainedAndMergedContext : LedgerContext where
  sequence := 7
  baseFee := 100
  protocolVersion := 24

/-- Account 2 holds less than any fee. -/
def drainedAndMergedAccounts : Snapshot := fun id =>
  if id = 2 then some ⟨5, 0, 1⟩
  else if id = 1 ∨ id = 3 then some ⟨10000, 0, 1⟩ else none

def paymentTx : Transaction where
  sourceAccount := 1
  fee := 100
  seqNum := 1
  operations := [.payment]
  sorobanData := none
  body := 0

/-- An invocation that declares a resource fee of 1000. -/
def invocationTx (source : AccountKey) (fee : Nat) : Transaction where
  sourceAccount := source
  fee := fee
  seqNum := 1
  operations := [.invokeHostFunction]
  sorobanData := some ⟨none, ⟨[], [], 0, 0, 0⟩, 1000⟩
  body := 0

def drainedAndMergedClassic : List TxWithFee := [⟨.tx paymentTx, none⟩]

def drainedAndMergedSoroban : List (List (List TxWithFee)) :=
  [[[⟨.tx (invocationTx 2 1100), none⟩, ⟨.txFeeBump 3 2300 (invocationTx 4 1050) 0, none⟩]]]

def succeed : Executor := fun changes =>
  (changes, fun _ => ⟨true, false, false, 0, 0⟩)

def rejectFirst (index : Nat) : Execution :=
  if index = 0 then ⟨false, true, false, 0, 0⟩ else ⟨true, false, false, 300, 400⟩

/-- The first transaction is rejected, and account 3 is merged. -/
def rejectAndMerge : Executor := fun changes =>
  (Function.update changes 3 (some (.deleted ⟨8800, 0, 7⟩)), rejectFirst)

theorem covered_rejectFirst (index : Nat) (tx : TxWithFee)
    (htx : drainedAndMergedSoroban.flatten.flatten[index]? = some tx) :
    Covered tx.tx (rejectFirst index) := by
  match index with
  | 0 =>
    cases htx
    exact ⟨by decide, by decide, by decide, by decide, by decide⟩
  | 1 =>
    cases htx
    exact ⟨by decide, by decide, by decide, by decide, by decide⟩
  | index + 2 => cases htx

theorem closeLedger_balanced_drainedAndMerged :
    ∃ close, closeLedger drainedAndMergedContext drainedAndMergedAccounts drainedAndMergedClassic
        drainedAndMergedSoroban succeed rejectAndMerge = some close ∧
      Balanced drainedAndMergedContext drainedAndMergedAccounts drainedAndMergedClassic
        drainedAndMergedSoroban close := by
  have hcloses : (closeLedger drainedAndMergedContext drainedAndMergedAccounts
      drainedAndMergedClassic drainedAndMergedSoroban succeed rejectAndMerge).isSome := by
    decide
  obtain ⟨close, hclose⟩ := isSome_iff_exists.mp hcloses
  exact ⟨close, hclose, closeLedger_balanced (by decide)
    (fun index tx htx _ => covered_rejectFirst index tx htx) hclose⟩

/-- The drained source is charged less than nothing, and the inner result of the fee bump
shows less than what was taken. -/
theorem closeLedger_drained_and_merged :
    (closeLedger drainedAndMergedContext drainedAndMergedAccounts drainedAndMergedClassic
      drainedAndMergedSoroban succeed rejectAndMerge).map (fun close =>
        (close.preCharged.map PreChargedFee.chargedFee,
          close.records.map fun record => (record.feeCharged, record.feeRefund, record.pair.inner))) =
      some ([100, 5, 1200], [(100, 0, none), (-995, 1000, none), (1200, 300, some 1050)]) := by
  decide

end Henyey.Fees
