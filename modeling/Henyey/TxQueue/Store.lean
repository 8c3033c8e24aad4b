import Henyey.TxQueue.SurgePricing

/-!
# The transaction store

Transactions by hash, with the fee index, the eviction queues and the flood
queue that every insertion and removal keeps in step.
-/

namespace Henyey.TxQueue

structure TxQueueConfig where
  maxSize : Nat
  maxAgeSecs : Nat
  minFeePerOp : Nat
  maxDexOps : Option Nat
  maxQueueDexOps : Option Nat
  maxQueueSorobanResources : Option (Resource 7)
  maxQueueOps : Option Nat
  maxQueueClassicBytes : Option Nat
  filteredOperationTypes : List OperationType

/-- What a queue is built with. The protocol version is that of the ledgers it
serves. -/
structure Setting where
  codec : Codec
  config : TxQueueConfig
  ledgerVersion : Nat
  banDepth : Nat
  pendingDepth : Nat

namespace Setting

/-- Classic lanes count bytes besides operations where a byte limit is set. -/
def classicDim (setting : Setting) : Nat :=
  if setting.config.maxQueueClassicBytes.isSome then 2 else 1

end Setting

/-- The limit on the bytes of classic transactions. -/
def maxClassicByteAllowance : Nat := 10 * 1024 * 1024 / 2

structure FeeEntry where
  feeRate : FeeRate
  hash : Hash256
  isDex : Bool
deriving DecidableEq

namespace FeeEntry

def fromQueued (tx : QueuedTransaction) : FeeEntry := ⟨tx.feeRate, tx.hash, tx.isDex⟩

def cmp (a b : FeeEntry) : Ordering := (a.feeRate.cmpRate b.feeRate).then (compare b.hash a.hash)

theorem hash_eq_of_cmp {a b : FeeEntry} (hcmp : a.cmp b = .eq) : a.hash = b.hash := by
  rw [cmp, Ordering.then_eq_eq] at hcmp
  exact (Nat.compare_eq_eq.mp hcmp.2).symm

@[simp]
theorem cmp_self (a : FeeEntry) : a.cmp a = .eq := by
  simp [cmp]

end FeeEntry

/-- The better rate is better, and with equal rates the smaller hash. -/
def QueuedTransaction.isBetterThanEntry (tx : QueuedTransaction) (entry : FeeEntry) : Bool :=
  match tx.feeRate.cmpRate entry.feeRate with
  | .gt => true
  | .lt => false
  | .eq => tx.hash < entry.hash

/-- The transactions that still have to be advertised. -/
structure FloodQueue where
  queue : SurgePricingPriorityQueue 1
  seed : Nat
  hasDexLane : Bool

namespace FloodQueue

def new (hasDexLane : Bool) (seed : Nat) : FloodQueue where
  queue := .new (floodLaneConfig hasDexLane) seed
  seed := seed
  hasDexLane := hasDexLane

def markForFlood (flood : FloodQueue) (tx : QueuedTransaction) (ledgerVersion : Nat) : FloodQueue :=
  { flood with queue := flood.queue.add tx ledgerVersion }

def remove (flood : FloodQueue) (tx : QueuedTransaction) (ledgerVersion : Nat) : FloodQueue :=
  let entry := QueueEntry.new tx flood.seed
  { flood with
    queue := flood.queue.erase (flood.queue.getLane tx.envelope) entry ledgerVersion }

def removePanics (flood : FloodQueue) (tx : QueuedTransaction) (ledgerVersion : Nat) : Bool :=
  flood.queue.erasePanics (flood.queue.getLane tx.envelope) (QueueEntry.new tx flood.seed)
    ledgerVersion

def resetAndRepopulate (flood : FloodQueue) (txs : List QueuedTransaction) (newSeed : Nat)
    (ledgerVersion : Nat) : FloodQueue :=
  { flood with
    seed := newSeed
    queue := txs.foldl (fun queue tx => queue.add tx ledgerVersion)
      (.new (floodLaneConfig flood.hasDexLane) newSeed) }

def clear (flood : FloodQueue) (newSeed : Nat) : FloodQueue :=
  { flood with seed := newSeed, queue := .new (floodLaneConfig flood.hasDexLane) newSeed }

end FloodQueue

variable (setting : Setting)

/-- `fault` records that an assertion on lane counts failed. -/
structure QueueStore where
  /-- The queued transactions by hash. -/
  byHash : List QueuedTransaction
  /-- Cheapest first. -/
  feeIndex : List FeeEntry
  classicEvictionQueue : Option (SurgePricingPriorityQueue setting.classicDim)
  sorobanEvictionQueue : Option (SurgePricingPriorityQueue 7)
  globalOpsQueue : Option (SurgePricingPriorityQueue 1)
  evictionSeed : Nat
  floodQueue : FloodQueue
  fault : Bool

namespace QueueStore

variable {setting}

def new (seed floodSeed : Nat) : QueueStore setting where
  byHash := []
  feeIndex := []
  classicEvictionQueue := none
  sorobanEvictionQueue := none
  globalOpsQueue := none
  evictionSeed := seed
  floodQueue := .new setting.config.maxDexOps.isSome floodSeed
  fault := false

def get (store : QueueStore setting) (hash : Hash256) : Option QueuedTransaction :=
  store.byHash.find? fun tx => tx.hash = hash

def containsKey (store : QueueStore setting) (hash : Hash256) : Bool :=
  (store.get hash).isSome

def len (store : QueueStore setting) : Nat := store.byHash.length

/-- Insert into the fee index; an equal entry that is there already stays. -/
def insertFee (entry : FeeEntry) (index : List FeeEntry) : List FeeEntry :=
  if index.any fun other => other.cmp entry = .eq then index
  else index.orderedInsert (fun a b => a.cmp b ≠ .gt) entry

def removeFee (entry : FeeEntry) (index : List FeeEntry) : List FeeEntry :=
  index.filter fun other => other.cmp entry ≠ .eq

/-- Add to an eviction queue that exists. -/
def addTo {d : Nat} (ledgerVersion : Nat) (tx : QueuedTransaction)
    (queue : Option (SurgePricingPriorityQueue d)) : Option (SurgePricingPriorityQueue d) :=
  queue.map fun queue => queue.add tx ledgerVersion

/-- Remove from an eviction queue that exists. -/
def removeFrom {d : Nat} (ledgerVersion : Nat) (tx : QueuedTransaction) (seed : Nat)
    (queue : Option (SurgePricingPriorityQueue d)) : Option (SurgePricingPriorityQueue d) :=
  queue.map fun queue =>
    queue.erase (queue.getLane tx.envelope) (QueueEntry.new tx seed) ledgerVersion

def removeFromPanics {d : Nat} (ledgerVersion : Nat) (tx : QueuedTransaction) (seed : Nat)
    (queue : Option (SurgePricingPriorityQueue d)) : Bool :=
  (queue.map fun queue =>
    queue.erasePanics (queue.getLane tx.envelope) (QueueEntry.new tx seed)
      ledgerVersion).getD false

def insert (store : QueueStore setting) (tx : QueuedTransaction) : QueueStore setting :=
  { store with
    sorobanEvictionQueue :=
      if tx.isSoroban then addTo setting.ledgerVersion tx store.sorobanEvictionQueue
      else store.sorobanEvictionQueue
    classicEvictionQueue :=
      if tx.isSoroban then store.classicEvictionQueue
      else addTo setting.ledgerVersion tx store.classicEvictionQueue
    globalOpsQueue := addTo setting.ledgerVersion tx store.globalOpsQueue
    floodQueue := store.floodQueue.markForFlood tx setting.ledgerVersion
    byHash := tx :: store.byHash.filter fun other => other.hash ≠ tx.hash
    feeIndex := insertFee (.fromQueued tx) store.feeIndex }

/-- Take a transaction out of every structure. -/
def removeTx (store : QueueStore setting) (tx : QueuedTransaction) : QueueStore setting :=
  { store with
    byHash := store.byHash.filter fun other => other.hash ≠ tx.hash
    feeIndex := removeFee (.fromQueued tx) store.feeIndex
    sorobanEvictionQueue :=
      if tx.isSoroban then
        removeFrom setting.ledgerVersion tx store.evictionSeed store.sorobanEvictionQueue
      else store.sorobanEvictionQueue
    classicEvictionQueue :=
      if tx.isSoroban then store.classicEvictionQueue
      else removeFrom setting.ledgerVersion tx store.evictionSeed store.classicEvictionQueue
    globalOpsQueue := removeFrom setting.ledgerVersion tx store.evictionSeed store.globalOpsQueue
    floodQueue := store.floodQueue.remove tx setting.ledgerVersion
    fault := store.fault ||
      (if tx.isSoroban then
        removeFromPanics setting.ledgerVersion tx store.evictionSeed store.sorobanEvictionQueue
      else removeFromPanics setting.ledgerVersion tx store.evictionSeed store.classicEvictionQueue) ||
      removeFromPanics setting.ledgerVersion tx store.evictionSeed store.globalOpsQueue ||
      store.floodQueue.removePanics tx setting.ledgerVersion }

def remove (store : QueueStore setting) (hash : Hash256) :
    QueueStore setting × Option QueuedTransaction :=
  match store.get hash with
  | none => (store, none)
  | some tx => (store.removeTx tx, some tx)

def clearData (store : QueueStore setting) (floodSeed : Nat) : QueueStore setting :=
  { store with byHash := [], feeIndex := [], floodQueue := store.floodQueue.clear floodSeed }

/-- Drop all eviction queues; the next admission rebuilds them under a new
seed. -/
def regenerateEvictionSeed (store : QueueStore setting) (seed : Nat) : QueueStore setting :=
  { store with
    evictionSeed := seed
    classicEvictionQueue := none
    sorobanEvictionQueue := none
    globalOpsQueue := none }

def lowestFee (store : QueueStore setting) : Option FeeEntry := store.feeIndex.head?

/-- An eviction queue built from scratch over the given transactions. -/
def build {d : Nat} (laneConfig : SurgePricingLaneConfig d) (seed ledgerVersion : Nat)
    (txs : List QueuedTransaction) : SurgePricingPriorityQueue d :=
  txs.foldl (fun queue tx => queue.add tx ledgerVersion) (.new laneConfig seed)

def classicQueue (store : QueueStore setting)
    (laneConfig : SurgePricingLaneConfig setting.classicDim) :
    SurgePricingPriorityQueue setting.classicDim :=
  store.classicEvictionQueue.getD
    (build laneConfig store.evictionSeed setting.ledgerVersion
      (store.byHash.filter fun tx => !tx.isSoroban))

def ensureClassicQueue (store : QueueStore setting)
    (laneConfig : SurgePricingLaneConfig setting.classicDim) : QueueStore setting :=
  { store with classicEvictionQueue := some (store.classicQueue laneConfig) }

def sorobanQueue (store : QueueStore setting) (limit : Resource 7) : SurgePricingPriorityQueue 7 :=
  store.sorobanEvictionQueue.getD
    (build (sorobanGenericLaneConfig setting.codec limit) store.evictionSeed
      setting.ledgerVersion (store.byHash.filter fun tx => tx.isSoroban))

def ensureSorobanQueue (store : QueueStore setting) (limit : Resource 7) : QueueStore setting :=
  { store with sorobanEvictionQueue := some (store.sorobanQueue limit) }

def globalQueue (store : QueueStore setting) (limit : Int) : SurgePricingPriorityQueue 1 :=
  store.globalOpsQueue.getD
    (build (opsOnlyLaneConfig fun _ => limit) store.evictionSeed setting.ledgerVersion
      store.byHash)

def ensureGlobalOpsQueue (store : QueueStore setting) (limit : Int) : QueueStore setting :=
  { store with globalOpsQueue := some (store.globalQueue limit) }

end QueueStore

/-- What a fit check leaves out: the replaced transaction, and what earlier
passes evict already. -/
def buildEvictionExclusion {d : Nat} (queue : SurgePricingPriorityQueue d)
    (byHash : List QueuedTransaction) (replacedTx : Option QueuedTransaction)
    (crossQueueEvictions : List Hash256) (ledgerVersion : Nat) : EvictionExclusion d :=
  let exclude (excl : EvictionExclusion d) (tx : QueuedTransaction) : EvictionExclusion d :=
    let lane := queue.getLane tx.envelope
    { hashes := insert tx.hash excl.hashes
      laneResourceDiscount := Function.update excl.laneResourceDiscount lane
        (excl.laneResourceDiscount lane + queue.txResources tx.envelope ledgerVersion) }
  let excl := replacedTx.elim (.new d) (exclude (.new d))
  crossQueueEvictions.foldl
    (fun excl hash =>
      if hash ∈ excl.hashes then excl
      else
        match byHash.find? fun tx => tx.hash = hash with
        | none => { excl with hashes := insert hash excl.hashes }
        | some tx => exclude excl tx)
    excl

end Henyey.TxQueue

/-!
## Per-account state of the queue

An account is tracked while it is the sequence source of a queued transaction
or pays for one.
-/

namespace Henyey.TxQueue

structure AccountState where
  totalFees : Int
  age : Nat
  transaction : Option QueuedTransaction
  sorobanFeeTxCount : Nat
  classicFeeTxCount : Nat
deriving DecidableEq

namespace AccountState

def empty : AccountState := ⟨0, 0, none, 0, 0⟩

def isEmpty (state : AccountState) : Bool :=
  state.transaction.isNone && state.totalFees = 0 && state.sorobanFeeTxCount = 0 &&
    state.classicFeeTxCount = 0

/-- Give back what a transaction reserved on its payer. -/
def releaseFee (tx : QueuedTransaction) (state : AccountState) : AccountState :=
  { state with
    totalFees := saturatingSub state.totalFees tx.totalFee
    sorobanFeeTxCount :=
      if tx.isSoroban then state.sorobanFeeTxCount - 1 else state.sorobanFeeTxCount
    classicFeeTxCount :=
      if tx.isSoroban then state.classicFeeTxCount else state.classicFeeTxCount - 1 }

/-- Forget the pending transaction. -/
def clearTransaction (state : AccountState) : AccountState :=
  { state with transaction := none, age := 0 }

/-- Reserve a fee for a transaction; a replacement under the same payer is
counted already. -/
def charge (tx : QueuedTransaction) (feeToAdd : Int) (counted : Bool) (state : AccountState) :
    AccountState :=
  { state with
    totalFees := saturatingAdd state.totalFees feeToAdd
    sorobanFeeTxCount :=
      if !counted && tx.isSoroban then state.sorobanFeeTxCount + 1 else state.sorobanFeeTxCount
    classicFeeTxCount :=
      if !counted && !tx.isSoroban then state.classicFeeTxCount + 1
      else state.classicFeeTxCount }

end AccountState

abbrev AccountStates : Type := AccountKey → Option AccountState

namespace AccountStates

def modify (states : AccountStates) (key : AccountKey) (f : AccountState → AccountState) :
    AccountStates :=
  Function.update states key ((states key).map f)

def removeIfEmpty (states : AccountStates) (key : AccountKey) : AccountStates :=
  match states key with
  | some state => if state.isEmpty then Function.update states key none else states
  | none => states

/-- Release the account state of a transaction that left the store. -/
def dropTransaction (states : AccountStates) (tx : QueuedTransaction) : AccountStates :=
  let states := states.modify tx.account fun state =>
    if state.transaction.map (·.hash) = some tx.hash then state.clearTransaction else state
  let states := states.modify tx.payer (.releaseFee tx)
  let states := states.removeIfEmpty tx.account
  if tx.account ≠ tx.payer then states.removeIfEmpty tx.payer else states

def releaseReplaced (states : AccountStates) (oldTx newTx : QueuedTransaction) : AccountStates :=
  if oldTx.payer ≠ newTx.payer then
    (states.modify oldTx.payer (.releaseFee oldTx)).removeIfEmpty oldTx.payer
  else states

/-- Enter a new transaction at its sequence source and its payer. -/
def enter (states : AccountStates) (tx : QueuedTransaction)
    (replacedTx : Option QueuedTransaction) : AccountStates :=
  let samePayer := (replacedTx.map fun oldTx => decide (oldTx.payer = tx.payer)).getD false
  let feeToAdd :=
    if samePayer then
      (replacedTx.map fun oldTx => saturatingSub tx.totalFee oldTx.totalFee).getD tx.totalFee
    else tx.totalFee
  let seqState := (states tx.account).getD .empty
  let states := Function.update states tx.account (some { seqState with transaction := some tx })
  let feeState := (states tx.payer).getD .empty
  Function.update states tx.payer (some (feeState.charge tx feeToAdd samePayer))

end AccountStates

end Henyey.TxQueue
