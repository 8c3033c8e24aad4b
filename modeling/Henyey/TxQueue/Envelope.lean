import Mathlib.Algebra.BigOperators.Group.List.Basic
import Mathlib.Data.Fin.VecNotation
import Mathlib.Algebra.Order.Ring.Int

/-!
# Transaction envelopes as the queue reads them

Fees, operations, sources and resources of an envelope. Hashes and account keys
are identities, and what no modelled function looks into is the body of an
envelope.
-/

namespace Henyey.TxQueue

/-- The bytes of a hash, read as a big-endian number. -/
abbrev Hash256 : Type := Nat

/-- The XDR bytes of an account id. -/
abbrev AccountKey : Type := Nat

def i64Max : Int := 9223372036854775807
def i64Min : Int := -9223372036854775808

/-- Clamp to the range of `i64`. -/
def saturate (n : Int) : Int := max i64Min (min i64Max n)

def saturatingAdd (a b : Int) : Int := saturate (a + b)
def saturatingSub (a b : Int) : Int := saturate (a - b)
def saturatingMul (a b : Int) : Int := saturate (a * b)

theorem saturate_of_mem {n : Int} (hlow : i64Min ≤ n) (hhigh : n ≤ i64Max) : saturate n = n := by
  rw [saturate, min_eq_right hhigh, max_eq_right hlow]

inductive OperationType where
  | createAccount
  | payment
  | pathPaymentStrictReceive
  | manageSellOffer
  | createPassiveSellOffer
  | setOptions
  | changeTrust
  | allowTrust
  | accountMerge
  | inflation
  | manageData
  | bumpSequence
  | manageBuyOffer
  | pathPaymentStrictSend
  | createClaimableBalance
  | claimClaimableBalance
  | beginSponsoringFutureReserves
  | endSponsoringFutureReserves
  | revokeSponsorship
  | clawback
  | clawbackClaimableBalance
  | setTrustLineFlags
  | liquidityPoolDeposit
  | liquidityPoolWithdraw
  | invokeHostFunction
  | extendFootprintTtl
  | restoreFootprint
deriving DecidableEq

/-- A footprint key, as far as resource accounting tells keys apart. -/
structure FootprintKey where
  isSorobanKey : Bool
  body : Nat
deriving DecidableEq

structure SorobanResources where
  readOnly : List FootprintKey
  readWrite : List FootprintKey
  instructions : Nat
  diskReadBytes : Nat
  writeBytes : Nat
deriving DecidableEq

structure SorobanTransactionData where
  /-- The indices of the `V1` extension; none under `V0`. -/
  archivedSorobanEntries : Option (List Nat)
  resources : SorobanResources
  resourceFee : Int
deriving DecidableEq

structure Transaction where
  sourceAccount : AccountKey
  fee : Nat
  seqNum : Int
  operations : List OperationType
  /-- The data of the `V1` extension. -/
  sorobanData : Option SorobanTransactionData
  body : Nat
deriving DecidableEq

inductive TransactionEnvelope where
  | txV0 (tx : Transaction)
  | tx (tx : Transaction)
  | txFeeBump (feeSource : AccountKey) (fee : Int) (innerTx : Transaction) (body : Nat)
deriving DecidableEq

def envelopeOperations : TransactionEnvelope → List OperationType
  | .txV0 t => t.operations
  | .tx t => t.operations
  | .txFeeBump _ _ innerTx _ => innerTx.operations

def envelopeSorobanData : TransactionEnvelope → Option SorobanTransactionData
  | .txV0 _ => none
  | .tx t => t.sorobanData
  | .txFeeBump _ _ innerTx _ => innerTx.sorobanData

def isSorobanEnvelope (env : TransactionEnvelope) : Bool :=
  (envelopeOperations env).any fun op =>
    op = .invokeHostFunction || op = .extendFootprintTtl || op = .restoreFootprint

def hasDexOperationsEnvelope (env : TransactionEnvelope) : Bool :=
  (envelopeOperations env).any fun op =>
    op = .manageSellOffer || op = .manageBuyOffer || op = .createPassiveSellOffer ||
      op = .pathPaymentStrictSend || op = .pathPaymentStrictReceive

def isFeeBumpEnvelope : TransactionEnvelope → Bool
  | .txFeeBump .. => true
  | _ => false

/-- A fee bump counts as one operation more than its inner transaction. -/
def envelopeOperationCount (env : TransactionEnvelope) : Nat :=
  let ops := (envelopeOperations env).length
  if isFeeBumpEnvelope env then ops + 1 else ops

def envelopeSequenceNumber : TransactionEnvelope → Int
  | .txV0 t => t.seqNum
  | .tx t => t.seqNum
  | .txFeeBump _ _ innerTx _ => innerTx.seqNum

def accountKey : TransactionEnvelope → AccountKey
  | .txV0 t => t.sourceAccount
  | .tx t => t.sourceAccount
  | .txFeeBump _ _ innerTx _ => innerTx.sourceAccount

def feeSourceKey : TransactionEnvelope → AccountKey
  | .txV0 t => t.sourceAccount
  | .tx t => t.sourceAccount
  | .txFeeBump feeSource _ _ _ => feeSource

def envelopeFee : TransactionEnvelope → Int
  | .txV0 t => t.fee
  | .tx t => t.fee
  | .txFeeBump _ fee _ _ => fee

/-- The fee bid: what is left of the declared fee without the resource fee. -/
def envelopeInclusionFee (env : TransactionEnvelope) : Int :=
  let resourceFee : Int :=
    match env with
    | .txV0 _ => 0
    | .tx t => (t.sorobanData.map (·.resourceFee)).getD 0
    | .txFeeBump _ _ innerTx _ => (innerTx.sorobanData.map (·.resourceFee)).getD 0
  saturatingSub (envelopeFee env) resourceFee

/-- A fee bid per operation. -/
structure FeeRate where
  inclusionFee : Int
  opCount : Nat
deriving DecidableEq

namespace FeeRate

/-- Compare two rates by cross multiplication. -/
def cmpRate (a b : FeeRate) : Ordering :=
  compare (a.inclusionFee * b.opCount) (b.inclusionFee * a.opCount)

@[simp]
theorem cmpRate_self (rate : FeeRate) : rate.cmpRate rate = .eq := by
  simp [cmpRate]

end FeeRate

/-- Multi-dimensional resource usage, with its number of dimensions in the type. -/
abbrev Resource (d : Nat) : Type := Fin d → Int

namespace Resource

variable {d : Nat}

def leq (a b : Resource d) : Bool := decide (∀ i, a i ≤ b i)

def anyGreater (a b : Resource d) : Bool := decide (∃ i, a i > b i)

def anyPositive (a : Resource d) : Bool := decide (∃ i, a i > 0)

def canAdd (a b : Resource d) : Bool := decide (∀ i, i64Min ≤ a i + b i ∧ a i + b i ≤ i64Max)

def subtractNonNegative (a b : Resource d) : Resource d := fun i => max (a i - b i) 0

@[simp]
theorem leq_iff {a b : Resource d} : a.leq b = true ↔ ∀ i, a i ≤ b i := by
  simp [leq]

@[simp]
theorem anyPositive_eq_false {a : Resource d} : a.anyPositive = false ↔ ∀ i, a i ≤ 0 := by
  simp [anyPositive]

end Resource

/-- What the queue takes from the code around it: hashing and encoded sizes. -/
structure Codec where
  hashXdr : TransactionEnvelope → Hash256
  xdrEncodedLen : TransactionEnvelope → Nat

variable (codec : Codec)

/-- A fee bump has the size of its inner envelope. -/
def envelopeTxSizeBytes (env : TransactionEnvelope) : Nat :=
  match env with
  | .txFeeBump _ _ innerTx _ => codec.xdrEncodedLen (.tx innerTx)
  | _ => codec.xdrEncodedLen env

def sorobanDiskReadEntries (resources : SorobanResources)
    (archivedSorobanEntries : Option (List Nat)) (isRestoreFootprint : Bool)
    (ledgerVersion : Nat) : Int :=
  if isRestoreFootprint then resources.readWrite.length
  else if ledgerVersion < 23 then resources.readOnly.length + resources.readWrite.length
  else
    resources.readOnly.countP (fun key => !key.isSorobanKey) +
      resources.readWrite.countP (fun key => !key.isSorobanKey) +
      ((archivedSorobanEntries.map List.length).getD 0 : Nat)

/-- Operations, instructions, size, disk reads, writes, read and written
entries of a Soroban transaction. -/
def sorobanResourcesFromEnvelope (env : TransactionEnvelope) (ledgerVersion : Nat) : Resource 7 :=
  let data := envelopeSorobanData env
  let fallbackResources : SorobanResources := ⟨[], [], 0, 0, 0⟩
  let resources := (data.map (·.resources)).getD fallbackResources
  let opCount : Int := if isFeeBumpEnvelope env then envelopeOperationCount env else 1
  let isRestore := (envelopeOperations env).any fun op => op = .restoreFootprint
  ![opCount, resources.instructions, envelopeTxSizeBytes codec env, resources.diskReadBytes,
    resources.writeBytes,
    sorobanDiskReadEntries resources (data.bind (·.archivedSorobanEntries)) isRestore ledgerVersion,
    resources.readWrite.length]

/-- Operations of a classic transaction, and its size where a second dimension
counts bytes. -/
def classicResourcesFromEnvelope (d : Nat) (env : TransactionEnvelope) : Resource d := fun i =>
  if i.val = 0 then envelopeOperationCount env else envelopeTxSizeBytes codec env

/-- A transaction with what the queue computed about it on arrival. -/
structure QueuedTransaction where
  envelope : TransactionEnvelope
  hash : Hash256
  receivedAt : Nat
  feePerOp : Nat
  feeRate : FeeRate
  totalFee : Int
  isDex : Bool
deriving DecidableEq

namespace QueuedTransaction

/-- Full fee and fee rate, or nothing where a fee is negative. -/
def extractFeesAndOps (env : TransactionEnvelope) : Option (Int × FeeRate) :=
  if envelopeFee env < 0 then none
  else if envelopeInclusionFee env < 0 then none
  else some (envelopeFee env, ⟨envelopeInclusionFee env, envelopeOperationCount env⟩)

def new (env : TransactionEnvelope) (now : Nat) : Option QueuedTransaction :=
  (extractFeesAndOps env).map fun (totalFee, feeRate) =>
    { envelope := env
      hash := codec.hashXdr env
      receivedAt := now
      feePerOp := if feeRate.opCount > 0 then (feeRate.inclusionFee / feeRate.opCount).toNat else 0
      feeRate := feeRate
      totalFee := totalFee
      isDex := hasDexOperationsEnvelope env }

/-- Older than the age limit, in seconds. -/
def isExpired (tx : QueuedTransaction) (now maxAgeSecs : Nat) : Bool :=
  now - tx.receivedAt > maxAgeSecs

def account (tx : QueuedTransaction) : AccountKey := accountKey tx.envelope
def payer (tx : QueuedTransaction) : AccountKey := feeSourceKey tx.envelope
def isSoroban (tx : QueuedTransaction) : Bool := isSorobanEnvelope tx.envelope
def sequenceNumber (tx : QueuedTransaction) : Int := envelopeSequenceNumber tx.envelope

variable {codec}

theorem new_eq_some {env : TransactionEnvelope} {now : Nat} {tx : QueuedTransaction}
    (hnew : new codec env now = some tx) :
    tx.envelope = env ∧ tx.hash = codec.hashXdr env ∧ tx.totalFee = envelopeFee env ∧
      tx.feeRate = ⟨envelopeInclusionFee env, envelopeOperationCount env⟩ ∧
      0 ≤ envelopeFee env ∧ tx.receivedAt = now ∧ 0 ≤ envelopeInclusionFee env := by
  rw [new, Option.map_eq_some_iff] at hnew
  obtain ⟨⟨totalFee, feeRate⟩, hfees, rfl⟩ := hnew
  unfold extractFeesAndOps at hfees
  split at hfees
  · cases hfees
  · split at hfees
    · cases hfees
    · next hfee hinclusion =>
      obtain ⟨rfl, rfl⟩ := by simpa using hfees
      exact ⟨rfl, rfl, rfl, rfl, not_lt.mp hfee, rfl, not_lt.mp hinclusion⟩

end QueuedTransaction

end Henyey.TxQueue
