import Mathlib.Data.Nat.Bitwise
import Mathlib.Data.Prod.Lex
import Henyey.TxQueue.Envelope

/-!
# Comparing transaction sets

Of several transaction sets the largest is chosen: more operations, higher fees, a
smaller encoding, and at last a hash that is masked by the candidates.
-/

namespace Henyey.Herder

open TxQueue

structure TxSetComponent where
  baseFee : Option Int
  txs : List TransactionEnvelope

inductive TransactionPhase where
  | v0 (components : List TxSetComponent)
  | v1 (baseFee : Option Int) (executionStages : List (List (List TransactionEnvelope)))

structure GeneralizedTransactionSet where
  previousLedgerHash : Hash256
  phases : List TransactionPhase

inductive TransactionSet where
  | legacy (previousLedgerHash : Hash256) (transactions : List TransactionEnvelope)
  | generalized (gen : GeneralizedTransactionSet)

/-- Encodings, and the hash of bytes. -/
structure TxSetCodec where
  envelopeToXdr : TransactionEnvelope → List UInt8
  generalizedToXdr : GeneralizedTransactionSet → List UInt8
  hash : List UInt8 → Hash256

/-- A number as big-endian bytes. -/
def bigEndian : Nat → Nat → List UInt8
  | 0, _ => []
  | width + 1, n => bigEndian width (n / 256) ++ [UInt8.ofNat n]

namespace TransactionPhase

def transactions : TransactionPhase → List TransactionEnvelope
  | v0 components => components.flatMap (·.txs)
  | v1 _ executionStages => executionStages.flatten.flatten

def txsWithBaseFee : TransactionPhase → List (TransactionEnvelope × Option Int)
  | v0 components => components.flatMap fun component =>
    component.txs.map fun tx => (tx, component.baseFee)
  | v1 baseFee executionStages => executionStages.flatten.flatten.map fun tx => (tx, baseFee)

end TransactionPhase

def sum64 (fees : List Int) : Int := fees.foldl saturatingAdd 0

/-- The fee at the time of applying: at most the base fee for each operation, and
the resource fee. -/
def txApplyingFee (env : TransactionEnvelope) (baseFee : Option Int) : Int :=
  let fullFee := envelopeFee env
  match baseFee with
  | none => fullFee
  | some baseFee =>
    let inclusionFee := envelopeInclusionFee env
    let resourceFee := saturatingSub fullFee inclusionFee
    let numOps : Int := max 1 (envelopeOperationCount env)
    let adjustedFee := saturatingMul baseFee numOps
    saturatingAdd resourceFee (min inclusionFee adjustedFee)

namespace TransactionSet

def previousLedgerHash : TransactionSet → Hash256
  | legacy previousLedgerHash _ => previousLedgerHash
  | generalized gen => gen.previousLedgerHash

def transactions : TransactionSet → List TransactionEnvelope
  | legacy _ transactions => transactions
  | generalized gen => gen.phases.flatMap (·.transactions)

variable (codec : TxSetCodec)

def recomputeHash : TransactionSet → Hash256
  | legacy previousLedgerHash transactions =>
    codec.hash (bigEndian 32 previousLedgerHash ++ transactions.flatMap codec.envelopeToXdr)
  | generalized gen => codec.hash (codec.generalizedToXdr gen)

/-- The hashes strictly increase, above the previous one. -/
def hashesAscend (prevHash : Hash256) : List TransactionEnvelope → Bool
  | [] => true
  | tx :: txs =>
    let hash := codec.hash (codec.envelopeToXdr tx)
    if hash ≤ prevHash then false else hashesAscend hash txs

def isTxSetWellFormed : TransactionSet → Bool
  | generalized _ => true
  | legacy _ [] => true
  | legacy _ (tx :: txs) => hashesAscend codec (codec.hash (codec.envelopeToXdr tx)) txs

/-- Operations, or transactions before protocol 11. -/
def txSetSize (txSet : TransactionSet) (protocolVersion : UInt32) : Nat :=
  if protocolVersion ≥ 11 then (txSet.transactions.map envelopeOperationCount).sum
  else txSet.transactions.length

def totalInclusionFees (txSet : TransactionSet) : Int :=
  sum64 (txSet.transactions.map envelopeInclusionFee)

def totalFees : TransactionSet → Int
  | legacy _ transactions => sum64 (transactions.map envelopeFee)
  | generalized gen =>
    sum64 ((gen.phases.flatMap (·.txsWithBaseFee)).map fun (tx, baseFee) =>
      txApplyingFee tx baseFee)

def encodedSize : TransactionSet → Nat
  | legacy _ transactions => (transactions.map fun tx => (codec.envelopeToXdr tx).length).sum
  | generalized gen => (codec.generalizedToXdr gen).length

end TransactionSet

def compareTxSets (codec : TxSetCodec) (aSet bSet : TransactionSet) (aHash bHash : Hash256)
    (candidatesHash : Hash256) (protocolVersion : UInt32) : Ordering :=
  let sizeCmp := compare (aSet.txSetSize protocolVersion) (bSet.txSetSize protocolVersion)
  if sizeCmp ≠ .eq then sizeCmp
  else
    let inclusionFeesCmp :=
      if protocolVersion ≥ 20 then compare aSet.totalInclusionFees bSet.totalInclusionFees else .eq
    if inclusionFeesCmp ≠ .eq then inclusionFeesCmp
    else
      let feesCmp :=
        if protocolVersion ≥ 11 then compare aSet.totalFees bSet.totalFees else .eq
      if feesCmp ≠ .eq then feesCmp
      else
        -- The smaller encoding is the better one.
        let encSizeCmp :=
          if protocolVersion ≥ 20 then compare (bSet.encodedSize codec) (aSet.encodedSize codec)
          else .eq
        if encSizeCmp ≠ .eq then encSizeCmp
        else compare (aHash ^^^ candidatesHash) (bHash ^^^ candidatesHash)

/-! ### The order of the sets -/

/-- What a set is compared by, in this order. -/
def txSetRank (codec : TxSetCodec) (candidatesHash : Hash256) (protocolVersion : UInt32)
    (txSet : TransactionSet) (hash : Hash256) : Nat ×ₗ Int ×ₗ Int ×ₗ Int ×ₗ Nat :=
  toLex (txSet.txSetSize protocolVersion,
    toLex (if protocolVersion ≥ 20 then txSet.totalInclusionFees else 0,
      toLex (if protocolVersion ≥ 11 then txSet.totalFees else 0,
        toLex (if protocolVersion ≥ 20 then -(txSet.encodedSize codec : Int) else 0,
          hash ^^^ candidatesHash))))

theorem ite_ne_eq (first second : Ordering) :
    (if first ≠ .eq then first else second) = first.then second := by
  cases first <;> rfl

theorem compare_toLex {α β : Type} [LinearOrder α] [LinearOrder β] (a a' : α) (b b' : β) :
    compare (toLex (a, b)) (toLex (a', b')) = (compare a a').then (compare b b') :=
  rfl

theorem compare_neg_natCast (a b : Nat) : compare (-(a : Int)) (-(b : Int)) = compare b a := by
  rcases lt_trichotomy a b with hlt | rfl | hgt
  · rw [compare_gt_iff_gt.mpr hlt, compare_gt_iff_gt.mpr (by omega)]
  · rw [compare_eq_iff_eq.mpr rfl, compare_eq_iff_eq.mpr rfl]
  · rw [compare_lt_iff_lt.mpr hgt, compare_lt_iff_lt.mpr (by omega)]

theorem compare_ite {α : Type} [LinearOrder α] (condition : Prop) [Decidable condition]
    (a b default : α) :
    compare (if condition then a else default) (if condition then b else default) =
      if condition then compare a b else .eq := by
  split
  · rfl
  · exact compare_eq_iff_eq.mpr rfl

variable {codec : TxSetCodec} {candidatesHash : Hash256} {protocolVersion : UInt32}

theorem compareTxSets_eq_compare (aSet bSet : TransactionSet) (aHash bHash : Hash256) :
    compareTxSets codec aSet bSet aHash bHash candidatesHash protocolVersion =
      compare (txSetRank codec candidatesHash protocolVersion aSet aHash)
        (txSetRank codec candidatesHash protocolVersion bSet bHash) := by
  simp only [compareTxSets, txSetRank, ite_ne_eq, compare_toLex, compare_ite, compare_neg_natCast]

theorem hash_eq_of_txSetRank_eq {aSet bSet : TransactionSet} {aHash bHash : Hash256}
    (hrank : txSetRank codec candidatesHash protocolVersion aSet aHash =
      txSetRank codec candidatesHash protocolVersion bSet bHash) : aHash = bHash := by
  have hmasked : aHash ^^^ candidatesHash = bHash ^^^ candidatesHash :=
    congrArg (fun rank => (ofLex (ofLex (ofLex (ofLex rank).2).2).2).2) hrank
  exact Nat.xor_left_injective hmasked

end Henyey.Herder
