import Henyey.TxQueue.Store
import Mathlib.Data.Finset.Card

/-!
# The transaction queue

Admission with replacement and eviction, bans, ageing and rebuilding, as the
operations of one state.
-/

namespace Henyey.TxQueue

inductive TxResultCode where
  | txFeeBumpInnerSuccess
  | txSuccess
  | txFailed
  | txTooEarly
  | txTooLate
  | txMissingOperation
  | txBadSeq
  | txBadAuth
  | txInsufficientBalance
  | txNoAccount
  | txInsufficientFee
  | txBadAuthExtra
  | txInternalError
  | txNotSupported
  | txFeeBumpInnerFailed
  | txBadSponsorship
  | txBadMinSeqAgeOrGap
  | txMalformed
  | txSorobanInvalid
  | txFrozenKeyAccessed
deriving DecidableEq

inductive TxQueueResult where
  | added
  | duplicate
  | queueFull
  | feeTooLow
  | invalid (code : Option TxResultCode)
  | banned
  | filtered
  | tryAgainLater
deriving DecidableEq

structure ShiftResult where
  unbannedCount : Nat
  evictedDueToAge : Nat
  refloodedTxs : List TransactionEnvelope

structure SorobanTxLimits where
  txMaxInstructions : Nat
  txMaxReadBytes : Nat
  txMaxWriteBytes : Nat
  txMaxReadLedgerEntries : Nat
  txMaxWriteLedgerEntries : Nat
  txMaxSizeBytes : Nat

/-- The order in which a hash map is walked. -/
structure Iteration where
  order : List QueuedTransaction → List QueuedTransaction
  perm : ∀ txs, (order txs).Perm txs

/-- What one submission reads around the queue: validation under the current
ledger, the base fee, the clock, the available balances. -/
structure Call where
  validateTransaction : TransactionEnvelope → Option TxResultCode
  /-- Validation refuses a transaction without operations. -/
  refusesEmpty : ∀ env, validateTransaction env = none → envelopeOperations env ≠ []
  baseFee : Nat
  sorobanLimits : Option SorobanTxLimits
  now : Nat
  feeBalanceProvider : Option (AccountKey → Except Unit (Option Int))
  iteration : Iteration

def feeMultiplier : Int := 10

def computeBetterFee (evicted : FeeRate) (txOps : Nat) : Int :=
  if evicted.opCount = 0 then 0
  else min i64Max (evicted.inclusionFee * txOps / evicted.opCount + 1)

def minInclusionFeeToBeat (evicted : Option FeeRate) (txFeeRate : FeeRate) : Int :=
  match evicted with
  | none => 0
  | some evicted =>
    if evicted.opCount = 0 then 0
    else if evicted.cmpRate txFeeRate ≠ .lt then computeBetterFee evicted txFeeRate.opCount
    else 0

/-- A replacement bids ten times the rate of what it replaces; otherwise the
least fee that would do. -/
def canReplaceByFee (new old : FeeRate) : Except Int Unit :=
  let left := new.inclusionFee * old.opCount
  let right := feeMultiplier * old.inclusionFee * new.opCount
  if left < right then
    .error (if 0 < old.opCount then
      min i64Max
        (if 0 < right % old.opCount then right / old.opCount + 1 else right / old.opCount)
    else 0)
  else .ok ()

/-- Cached fees of what the last eviction passes evicted. -/
structure EvictionThresholds where
  classicLaneFees : List (Option FeeRate)
  sorobanLaneFees : List (Option FeeRate)
  globalFees : Option FeeRate
deriving DecidableEq

namespace EvictionThresholds

def new : EvictionThresholds := ⟨[], [], none⟩

end EvictionThresholds

variable (setting : Setting)

structure TransactionQueue where
  store : QueueStore setting
  seen : Finset Hash256
  evictionThresholds : EvictionThresholds
  /-- The bans of each ledger, the oldest first. -/
  bannedTransactions : List (Finset Hash256)
  accountStates : AccountStates
  dynamicQueueSorobanResources : Option (Resource 7)
  dynamicMaxQueueOps : Option Nat

def banInto (hashes : Finset Hash256) : List (Finset Hash256) → List (Finset Hash256)
  | [] => []
  | [newest] => [newest ∪ hashes]
  | older :: newer => older :: banInto hashes newer

namespace TransactionQueue

variable {setting}

def withDepths (seed floodSeed : Nat) : TransactionQueue setting where
  store := .new seed floodSeed
  seen := ∅
  evictionThresholds := .new
  bannedTransactions := List.replicate setting.banDepth ∅
  accountStates _ := none
  dynamicQueueSorobanResources := none
  dynamicMaxQueueOps := none

variable (queue : TransactionQueue setting)

def isBanned (hash : Hash256) : Bool :=
  queue.bannedTransactions.any fun hashes => hash ∈ hashes

def isFiltered (setting : Setting) (env : TransactionEnvelope) : Bool :=
  (envelopeOperations env).any fun op => op ∈ setting.config.filteredOperationTypes

def effectiveQueueSorobanResources : Option (Resource 7) :=
  queue.dynamicQueueSorobanResources <|> setting.config.maxQueueSorobanResources

def effectiveMaxQueueOps : Option Nat :=
  queue.dynamicMaxQueueOps <|> setting.config.maxQueueOps

def effectiveMaxSize : Nat := queue.dynamicMaxQueueOps.getD setting.config.maxSize

/-- Classic lanes are limited where a byte or a DEX limit is configured. -/
def buildClassicLaneConfig (setting : Setting) :
    Option (SurgePricingLaneConfig setting.classicDim) :=
  if setting.config.maxQueueClassicBytes.isNone && setting.config.maxQueueDexOps.isNone then none
  else
    let genericLimit : Resource setting.classicDim := fun i =>
      if i.val = 0 then i64Max else (setting.config.maxQueueClassicBytes.getD 4294967295 : Nat)
    let dexLimit : Option (Resource setting.classicDim) :=
      setting.config.maxQueueDexOps.map fun dexOps i =>
        if i.val = 0 then (dexOps : Int) else maxClassicByteAllowance
    some (dexLimitingLaneConfig setting.codec genericLimit dexLimit)

def checkSorobanResources (setting : Setting) (limits : Option SorobanTxLimits)
    (env : TransactionEnvelope) : Bool :=
  match limits with
  | none => true
  | some limits =>
    match envelopeSorobanData env with
    | none => false
    | some data =>
      let resources := data.resources
      let readEntries := resources.readOnly.length
      let writeEntries := resources.readWrite.length
      resources.instructions ≤ limits.txMaxInstructions &&
        resources.diskReadBytes ≤ limits.txMaxReadBytes &&
        resources.writeBytes ≤ limits.txMaxWriteBytes &&
        writeEntries ≤ limits.txMaxWriteLedgerEntries &&
        readEntries + writeEntries ≤ limits.txMaxReadLedgerEntries &&
        envelopeTxSizeBytes setting.codec env ≤ limits.txMaxSizeBytes

def paysForOtherKind (state : AccountState) (candidateIsSoroban : Bool) : Bool :=
  if candidateIsSoroban then 0 < state.classicFeeTxCount else 0 < state.sorobanFeeTxCount

def checkCrossTypeConflictWith (seqSource : AccountKey) (candidateIsSoroban : Bool) :
    Option TxQueueResult :=
  match queue.accountStates seqSource with
  | none => none
  | some state =>
    if state.transaction.any fun current => current.isSoroban ≠ candidateIsSoroban then
      some .tryAgainLater
    else if paysForOtherKind state candidateIsSoroban then some .tryAgainLater
    else none

/-- One pending transaction per sequence source: what a newcomer replaces, if
it may. -/
def checkAccountLimit (queued : QueuedTransaction) :
    Except TxQueueResult (Option QueuedTransaction) :=
  match queue.accountStates queued.account with
  | none => .ok none
  | some state =>
    match state.transaction with
    | some current =>
      if current.hash = queued.hash then .error .duplicate
      else if current.isSoroban ≠ queued.isSoroban then .error .tryAgainLater
      else if queued.sequenceNumber < current.sequenceNumber then
        .error (.invalid (some .txBadSeq))
      else if !isFeeBumpEnvelope queued.envelope then .error .tryAgainLater
      else if queued.sequenceNumber ≠ current.sequenceNumber then .error .tryAgainLater
      else
        match canReplaceByFee queued.feeRate current.feeRate with
        | .error _ => .error .feeTooLow
        | .ok () => .ok (some current)
    | none =>
      if paysForOtherKind state queued.isSoroban then .error .tryAgainLater else .ok none

/-- The checks that a submission passes before it may evict: the transaction to
queue, and the one it replaces. -/
def screen (call : Call) (env : TransactionEnvelope) :
    Except TxQueueResult (QueuedTransaction × Option QueuedTransaction) :=
  match queue.checkCrossTypeConflictWith (accountKey env) (isSorobanEnvelope env) with
  | some result => .error result
  | none =>
    match call.validateTransaction env with
    | some code => .error (.invalid (some code))
    | none =>
      match QueuedTransaction.new setting.codec env call.now with
      | none => .error (.invalid (some .txMalformed))
      | some queued =>
        let lclBaseFee := max call.baseFee setting.config.minFeePerOp
        let requiredInclusionFee := saturatingMul lclBaseFee (max 1 queued.feeRate.opCount)
        if queued.hash ∈ queue.seen then .error .duplicate
        else if queue.isBanned queued.hash then .error .banned
        else if isFiltered setting queued.envelope then .error .filtered
        else if queued.feeRate.inclusionFee < requiredInclusionFee then .error .feeTooLow
        else if queued.isSoroban &&
            !checkSorobanResources setting call.sorobanLimits queued.envelope then
          .error (.invalid (some .txSorobanInvalid))
        else if queue.store.containsKey queued.hash then .error .duplicate
        else (queue.checkAccountLimit queued).map (queued, ·)

/-- One slot for each lane. -/
def resizeFees (lanes : Nat) (fees : List (Option FeeRate)) : List (Option FeeRate) :=
  (fees ++ List.replicate (lanes - fees.length) none).take lanes

/-- The fee is too low to beat the cached thresholds of its lane. -/
def feeBelowLaneThreshold {d : Nat} (laneConfig : SurgePricingLaneConfig d)
    (laneFees : List (Option FeeRate)) (queued : QueuedTransaction) : Bool :=
  let lane := laneConfig.getLane queued.envelope
  let minFee := max (minInclusionFeeToBeat (laneFees.getD lane none) queued.feeRate)
    (minInclusionFeeToBeat (laneFees.getD genericLane none) queued.feeRate)
  let minFee :=
    if queue.effectiveMaxQueueOps.isSome then
      max minFee (minInclusionFeeToBeat queue.evictionThresholds.globalFees queued.feeRate)
    else minFee
  decide (0 < minFee)

/-- Add evicted transactions to the pending ones and raise the lane thresholds
to their rates. -/
def recordLaneEvictions {d : Nat} (laneConfig : SurgePricingLaneConfig d)
    (evictions : List (QueuedTransaction × Bool)) (laneFees : List (Option FeeRate))
    (pending : List QueuedTransaction) : List (Option FeeRate) × List QueuedTransaction :=
  evictions.foldl
    (fun (laneFees, pending) (evicted, evictedDueToLaneLimit) =>
      if evicted.hash ∈ pending.map (·.hash) then (laneFees, pending)
      else
        let lane :=
          if evictedDueToLaneLimit then laneConfig.getLane evicted.envelope else genericLane
        ((resizeFees laneConfig.laneLimits.length laneFees).set lane (some evicted.feeRate),
          pending ++ [evicted]))
    (laneFees, pending)

/-- The fit check of one lane configuration. -/
def fit {d : Nat} (evictionQueue : SurgePricingPriorityQueue d) (queued : QueuedTransaction)
    (replacedTx : Option QueuedTransaction) (pending : List QueuedTransaction) :
    Option (List (QueuedTransaction × Bool)) :=
  evictionQueue.canFitWithEviction queued none setting.ledgerVersion
    (buildEvictionExclusion evictionQueue queue.store.byHash replacedTx (pending.map (·.hash))
      setting.ledgerVersion)

/-- The classic thresholds, with a slot for each lane. -/
def withClassicFees (fees : List (Option FeeRate)) : TransactionQueue setting :=
  { queue with evictionThresholds := { queue.evictionThresholds with classicLaneFees := fees } }

def withSorobanFees (fees : List (Option FeeRate)) : TransactionQueue setting :=
  { queue with evictionThresholds := { queue.evictionThresholds with sorobanLaneFees := fees } }

def withGlobalFees (fees : Option FeeRate) : TransactionQueue setting :=
  { queue with evictionThresholds := { queue.evictionThresholds with globalFees := fees } }

def withStore (store : QueueStore setting) : TransactionQueue setting :=
  { queue with store := store }

/-- Phase 1 of an eviction check: the cached thresholds, which are sized on the
way. -/
def checkThresholds (queued : QueuedTransaction) : TransactionQueue setting × Bool :=
  let (queue, below) :=
    if queued.isSoroban then
      match queue.effectiveQueueSorobanResources with
      | none => (queue, false)
      | some limit =>
        let laneConfig := sorobanGenericLaneConfig setting.codec limit
        let fees :=
          resizeFees laneConfig.laneLimits.length queue.evictionThresholds.sorobanLaneFees
        (queue.withSorobanFees fees, queue.feeBelowLaneThreshold laneConfig fees queued)
    else
      match buildClassicLaneConfig setting with
      | none => (queue, false)
      | some laneConfig =>
        let fees :=
          resizeFees laneConfig.laneLimits.length queue.evictionThresholds.classicLaneFees
        (queue.withClassicFees fees, queue.feeBelowLaneThreshold laneConfig fees queued)
  (queue, below ||
    (queue.effectiveMaxQueueOps.isSome &&
      0 < minInclusionFeeToBeat queue.evictionThresholds.globalFees queued.feeRate))

/-- The pass over the lanes of the newcomer's own kind. -/
def collectLaneEvictions (queued : QueuedTransaction) (replacedTx : Option QueuedTransaction) :
    TransactionQueue setting × Option (List QueuedTransaction) :=
  if queued.isSoroban then
    match queue.effectiveQueueSorobanResources with
    | none => (queue, some [])
    | some limit =>
      let ensured := queue.withStore (queue.store.ensureSorobanQueue limit)
      match queue.fit (queue.store.sorobanQueue limit) queued replacedTx [] with
      | none => (ensured, none)
      | some evictions =>
        let recorded := recordLaneEvictions (sorobanGenericLaneConfig setting.codec limit)
          evictions queue.evictionThresholds.sorobanLaneFees []
        (ensured.withSorobanFees recorded.1, some recorded.2)
  else
    match buildClassicLaneConfig setting with
    | none => (queue, some [])
    | some laneConfig =>
      let ensured := queue.withStore (queue.store.ensureClassicQueue laneConfig)
      match queue.fit (queue.store.classicQueue laneConfig) queued replacedTx [] with
      | none => (ensured, none)
      | some evictions =>
        let recorded := recordLaneEvictions laneConfig evictions
          queue.evictionThresholds.classicLaneFees []
        (ensured.withClassicFees recorded.1, some recorded.2)

/-- The pass over all operations. -/
def collectGlobalEvictions (queued : QueuedTransaction) (replacedTx : Option QueuedTransaction)
    (pending : List QueuedTransaction) :
    TransactionQueue setting × Option (List QueuedTransaction) :=
  match queue.effectiveMaxQueueOps with
  | none => (queue, some pending)
  | some limit =>
    let ensured := queue.withStore (queue.store.ensureGlobalOpsQueue limit)
    match queue.fit (queue.store.globalQueue limit) queued replacedTx pending with
    | none => (ensured, none)
    | some evictions =>
      let recorded := evictions.foldl
        (fun (fee, pending) (evicted, _) =>
          if evicted.hash ∈ pending.map (·.hash) then (fee, pending)
          else (some evicted.feeRate, pending ++ [evicted]))
        (queue.evictionThresholds.globalFees, pending)
      (ensured.withGlobalFees recorded.1, some recorded.2)

def checkAndCollectEvictions (queued : QueuedTransaction) (replacedTx : Option QueuedTransaction) :
    TransactionQueue setting × Except TxQueueResult (List QueuedTransaction) :=
  let (queue, below) := queue.checkThresholds queued
  if below then (queue, .error .feeTooLow)
  else
    let (queue, laneEvictions) := queue.collectLaneEvictions queued replacedTx
    match laneEvictions with
    | none => (queue, .error .queueFull)
    | some pending =>
      let (queue, evictions) := queue.collectGlobalEvictions queued replacedTx pending
      match evictions with
      | none => (queue, .error .queueFull)
      | some evictions => (queue, .ok evictions)

/-- The payer can cover the fees of all that it has queued. -/
def validateFeeBalance (call : Call) (queued : QueuedTransaction)
    (replacedTx : Option QueuedTransaction) : Option TxQueueResult :=
  match call.feeBalanceProvider with
  | none => none
  | some available =>
    let netNewFee :=
      match replacedTx with
      | some oldTx =>
        if oldTx.payer = queued.payer then saturatingSub queued.totalFee oldTx.totalFee
        else queued.totalFee
      | none => queued.totalFee
    let currentTotalFees := ((queue.accountStates queued.payer).map (·.totalFees)).getD 0
    match available queued.payer with
    | .ok (some balance) =>
      if saturatingSub balance netNewFee < currentTotalFees then
        some (.invalid (some .txInsufficientBalance))
      else none
    | .ok none => some (.invalid (some .txNoAccount))
    | .error () => some (.invalid none)

/-- Take one transaction out, with its account state, without a ban. -/
def evict (tx : QueuedTransaction) : TransactionQueue setting :=
  { queue with
    store := (queue.store.remove tx.hash).1
    accountStates := queue.accountStates.dropTransaction tx
    seen := queue.seen.erase tx.hash }

/-- What makes room for a newcomer in a queue of full size: an expired
transaction, or else the cheapest one, if the newcomer is better. -/
def capacityVictim (call : Call) (queued : QueuedTransaction) : Option QueuedTransaction :=
  match (call.iteration.order queue.store.byHash).find? fun tx =>
      tx.isExpired call.now setting.config.maxAgeSecs with
  | some expired => some expired
  | none =>
    match queue.store.lowestFee with
    | none => none
    | some entry =>
      if queued.isBetterThanEntry entry then queue.store.get entry.hash else none

def ensureQueueCapacity (call : Call) (pendingEvictionCount : Nat) (queued : QueuedTransaction) :
    Option (TransactionQueue setting) :=
  if queue.store.len - pendingEvictionCount < queue.effectiveMaxSize then some queue
  else (queue.capacityVictim call queued).map queue.evict

/-- Drop and ban what the passes evict. -/
def commitEvictions (pending : List QueuedTransaction) : TransactionQueue setting :=
  { queue with
    store := pending.foldl (fun store tx => (store.remove tx.hash).1) queue.store
    accountStates := pending.foldl AccountStates.dropTransaction queue.accountStates
    seen := queue.seen \ (pending.map (·.hash)).toFinset
    bannedTransactions := banInto (pending.map (·.hash)).toFinset queue.bannedTransactions }

def removeReplaced (queued : QueuedTransaction) (replacedTx : Option QueuedTransaction) :
    TransactionQueue setting :=
  match replacedTx with
  | none => queue
  | some oldTx =>
    { queue with
      store := (queue.store.remove oldTx.hash).1
      accountStates := queue.accountStates.releaseReplaced oldTx queued
      seen := queue.seen.erase oldTx.hash }

def enter (queued : QueuedTransaction) (replacedTx : Option QueuedTransaction) :
    TransactionQueue setting :=
  { queue with
    accountStates := queue.accountStates.enter queued replacedTx
    store := queue.store.insert queued
    seen := insert queued.hash queue.seen }

def tryAdd (call : Call) (env : TransactionEnvelope) : TransactionQueue setting × TxQueueResult :=
  match queue.screen call env with
  | .error result => (queue, result)
  | .ok (queued, replacedTx) =>
    let (queue, evictions) := queue.checkAndCollectEvictions queued replacedTx
    match evictions with
    | .error result => (queue, result)
    | .ok pending =>
      match queue.validateFeeBalance call queued replacedTx with
      | some result => (queue, result)
      | none =>
        match queue.ensureQueueCapacity call pending.length queued with
        | none => (queue, .queueFull)
        | some queue =>
          (((queue.commitEvictions pending).removeReplaced queued replacedTx).enter queued
            replacedTx, .added)

def invalidateAllEvictionState (seed : Nat) : TransactionQueue setting :=
  { queue with
    store := queue.store.regenerateEvictionSeed seed
    evictionThresholds := .new }

/-- Take several transactions out with their account states; thresholds are
reset if any was there. -/
def dropAll (hashes : List Hash256) : TransactionQueue setting :=
  let dropped := hashes.foldl
    (fun (queue : TransactionQueue setting) hash =>
      match queue.store.get hash with
      | none => queue
      | some tx =>
        { queue with
          store := queue.store.removeTx tx
          accountStates := queue.accountStates.dropTransaction tx
          evictionThresholds := .new })
    queue
  { dropped with seen := dropped.seen \ hashes.toFinset }

def ban (hashes : List Hash256) : TransactionQueue setting :=
  if hashes = [] then queue
  else
    { queue with
      bannedTransactions := banInto hashes.toFinset queue.bannedTransactions }.dropAll hashes

def evictExpired (now : Nat) : TransactionQueue setting :=
  queue.dropAll ((queue.store.byHash.filter fun tx =>
    tx.isExpired now setting.config.maxAgeSecs).map (·.hash))

def clear (seed floodSeed : Nat) : TransactionQueue setting :=
  { queue.withStore (queue.store.clearData floodSeed) with
    accountStates := fun _ => none }.invalidateAllEvictionState seed

/-- What one applied transaction leaves for the end of `remove_applied`: the
removed transactions whose payers are released, and the accounts to clean up. -/
structure AppliedPass (setting : Setting) where
  queue : TransactionQueue setting
  removed : List QueuedTransaction
  accountsToCleanup : List AccountKey

def applyOne (pass : AppliedPass setting) (applied : TransactionEnvelope × Int) :
    AppliedPass setting :=
  let (env, appliedSeq) := applied
  let queue := pass.queue
  let seqSource := accountKey env
  let superseded :=
    (queue.accountStates seqSource).bind fun state =>
      state.transaction.filter fun tx => tx.sequenceNumber ≤ appliedSeq
  let queue :=
    match superseded with
    | none => queue
    | some tx =>
      { queue with
        store := (queue.store.remove tx.hash).1
        accountStates := queue.accountStates.modify seqSource .clearTransaction }
  { queue :=
      { queue with
        bannedTransactions :=
          banInto {setting.codec.hashXdr env} queue.bannedTransactions }
    removed := pass.removed ++ superseded.toList
    accountsToCleanup := pass.accountsToCleanup ++
      if feeSourceKey env ≠ seqSource then [seqSource, feeSourceKey env] else [seqSource] }

def removeApplied (appliedTxs : List (TransactionEnvelope × Int)) : TransactionQueue setting :=
  if appliedTxs = [] then queue
  else
    let pass := appliedTxs.foldl applyOne ⟨queue, [], []⟩
    let states := pass.removed.foldl (fun states tx => states.modify tx.payer (.releaseFee tx))
      pass.queue.accountStates
    let states := pass.accountsToCleanup.foldl AccountStates.removeIfEmpty states
    { pass.queue with
      accountStates := states
      seen := pass.queue.seen \ (pass.removed.map (·.hash)).toFinset
      evictionThresholds :=
        if pass.removed = [] then pass.queue.evictionThresholds else .new }

/-- What the walk over the accounts collects for the end of `shift`. -/
structure ShiftPass (setting : Setting) where
  queue : TransactionQueue setting
  evicted : List QueuedTransaction
  accountsToRemove : List AccountKey
  refloodedTxs : List TransactionEnvelope

def shiftAccount (pass : ShiftPass setting) (account : AccountKey) : ShiftPass setting :=
  match pass.queue.accountStates account with
  | none => pass
  | some state =>
    match state.transaction with
    | none => pass
    | some tx =>
      let age := state.age + 1
      let reflood := age = 2 || age = 3
      let store := pass.queue.store
      let store :=
        if reflood then
          { store with floodQueue := store.floodQueue.markForFlood tx setting.ledgerVersion }
        else store
      let refloodedTxs :=
        if reflood then pass.refloodedTxs ++ [tx.envelope] else pass.refloodedTxs
      if setting.pendingDepth ≤ age then
        let age := if state.totalFees = 0 then age else 0
        { queue :=
            { pass.queue with
              store := (store.remove tx.hash).1
              bannedTransactions := banInto {tx.hash} pass.queue.bannedTransactions
              accountStates := Function.update pass.queue.accountStates account
                (some { state with age := age, transaction := none }) }
          evicted := pass.evicted ++ [tx]
          accountsToRemove :=
            if state.totalFees = 0 then pass.accountsToRemove ++ [account]
            else pass.accountsToRemove
          refloodedTxs := refloodedTxs }
      else
        { pass with
          queue :=
            { pass.queue with
              store := store
              accountStates := Function.update pass.queue.accountStates account
                (some { state with age := age }) }
          refloodedTxs := refloodedTxs }

/-- Release the payer of an evicted transaction, and remove it if nothing is
left. -/
def releasePayer (states : AccountStates × List AccountKey) (tx : QueuedTransaction) :
    AccountStates × List AccountKey :=
  match states.1 tx.payer with
  | none => states
  | some state =>
    let state := state.releaseFee tx
    (Function.update states.1 tx.payer (some state),
      if state.isEmpty && tx.payer ∉ states.2 then states.2 ++ [tx.payer] else states.2)

/-- `accounts` is the order in which the walk meets the tracked accounts. -/
def shift (accounts : List AccountKey) (seed : Nat) : TransactionQueue setting × ShiftResult :=
  let unbannedCount := ((queue.bannedTransactions.head?).map Finset.card).getD 0
  let rotated :=
    { queue with bannedTransactions := queue.bannedTransactions.tail ++ [∅] }
  let pass := accounts.foldl shiftAccount ⟨rotated, [], [], []⟩
  let released := pass.evicted.foldl releasePayer
    (pass.queue.accountStates, pass.accountsToRemove)
  let states := released.2.foldl (fun states account => Function.update states account none)
    released.1
  ({ pass.queue with
      accountStates := states
      store := pass.queue.store.regenerateEvictionSeed seed
      evictionThresholds := .new
      seen := pass.queue.seen \ (pass.evicted.map (·.hash)).toFinset },
    { unbannedCount := unbannedCount
      evictedDueToAge := pass.evicted.length
      refloodedTxs := pass.refloodedTxs })

/-- Submit several envelopes, counting those that were added. -/
def tryAddAll (queue : TransactionQueue setting) :
    List (Call × TransactionEnvelope) → TransactionQueue setting × Nat
  | [] => (queue, 0)
  | (call, env) :: rest =>
    let (added, result) := queue.tryAdd call env
    let (final, count) := tryAddAll added rest
    (final, if result = .added then count + 1 else count)

/-- Drain the queue and submit everything again; bans stay. Each submission
reads its own call. -/
def resetAndRebuild (iteration : Iteration) (calls : Nat → Call) (seed floodSeed : Nat) :
    TransactionQueue setting × Nat :=
  let existingTxs := (iteration.order queue.store.byHash).map (·.envelope)
  let cleared := { queue.clear seed floodSeed with seen := ∅ }
  cleared.tryAddAll ((existingTxs.zipIdx).map fun (env, index) => (calls index, env))

def dropStalePending (account : AccountKey) (onLedgerSeq : Int) : TransactionQueue setting × Bool :=
  match queue.accountStates account with
  | none => (queue, false)
  | some state =>
    match state.transaction with
    | none => (queue, false)
    | some tx =>
      if onLedgerSeq < tx.sequenceNumber then (queue, false)
      else
        let states := queue.accountStates.modify account .clearTransaction
        let states := states.removeIfEmpty account
        let states := states.modify tx.payer (.releaseFee tx)
        let states := states.removeIfEmpty tx.payer
        ({ queue with
            store := (queue.store.remove tx.hash).1
            accountStates := states
            seen := queue.seen.erase tx.hash
            evictionThresholds := .new }, true)

/-- One broadcast round: what the flood queue visits under the budgets, with
the dampened transactions banned at the end. -/
def broadcastWithVisitor (opsBudget : Nat) (dexOpsBudget : Option Nat)
    (dampened : QueuedTransaction → Bool) (visitor : QueuedTransaction → VisitTxResult) :
    TransactionQueue setting :=
  let flood := queue.store.floodQueue
  let limits : Nat → Resource 1 := fun lane _ =>
    if lane = genericLane then (opsBudget : Int)
    else (dexOpsBudget.map fun budget => (budget : Int)).getD i64Max
  let lanes := List.range flood.queue.numLanes
  let fuel := (lanes.map fun lane => (flood.queue.lanes lane).length).sum + lanes.length + 1
  let visited := SurgePricingPriorityQueue.popTopTxs
    (fun tx => if dampened tx then .skipped else visitor tx) setting.ledgerVersion fuel
    flood.queue limits lanes
  let drained := queue.withStore
    { queue.store with
      floodQueue := { flood with queue := visited.1 }
      fault := queue.store.fault || visited.2.2 }
  drained.ban ((visited.2.1.filter dampened).map (·.hash))

def rebroadcast (iteration : Iteration) (floodSeed : Nat) : TransactionQueue setting :=
  queue.withStore
    { queue.store with
      floodQueue := queue.store.floodQueue.resetAndRepopulate
        (iteration.order queue.store.byHash) floodSeed setting.ledgerVersion }

def updateClassicQueueCapacity (scaledMaxQueueOps : Nat) : TransactionQueue setting :=
  { queue with
    dynamicMaxQueueOps := some scaledMaxQueueOps
    store := { queue.store with globalOpsQueue := none }
    evictionThresholds := { queue.evictionThresholds with globalFees := none } }

def updateSorobanResourceLimits (resources : Resource 7) : TransactionQueue setting :=
  { queue with
    dynamicQueueSorobanResources := some resources
    store := { queue.store with sorobanEvictionQueue := none }
    evictionThresholds := { queue.evictionThresholds with sorobanLaneFees := [] } }

end TransactionQueue

/-- An operation on the queue, with what it reads around the queue. -/
inductive Op where
  | tryAdd (call : Call) (env : TransactionEnvelope)
  | ban (hashes : List Hash256)
  | removeApplied (appliedTxs : List (TransactionEnvelope × Int))
  | shift (accounts : List AccountKey) (seed : Nat)
  | evictExpired (now : Nat)
  | clear (seed floodSeed : Nat)
  | resetAndRebuild (iteration : Iteration) (calls : Nat → Call) (seed floodSeed : Nat)
  | dropStalePending (account : AccountKey) (onLedgerSeq : Int)
  | broadcastWithVisitor (opsBudget : Nat) (dexOpsBudget : Option Nat)
      (dampened : QueuedTransaction → Bool) (visitor : QueuedTransaction → VisitTxResult)
  | rebroadcast (iteration : Iteration) (floodSeed : Nat)
  | updateClassicQueueCapacity (scaledMaxQueueOps : Nat)
  | updateSorobanResourceLimits (resources : Resource 7)

/-- What running an operation leaves. -/
def Op.run {setting : Setting} (op : Op) (queue : TransactionQueue setting) :
    TransactionQueue setting :=
  match op with
  | tryAdd call env => (queue.tryAdd call env).1
  | ban hashes => queue.ban hashes
  | removeApplied appliedTxs => queue.removeApplied appliedTxs
  | shift accounts seed => (queue.shift accounts seed).1
  | evictExpired now => queue.evictExpired now
  | clear seed floodSeed => queue.clear seed floodSeed
  | resetAndRebuild iteration calls seed floodSeed =>
    (queue.resetAndRebuild iteration calls seed floodSeed).1
  | dropStalePending account onLedgerSeq => (queue.dropStalePending account onLedgerSeq).1
  | broadcastWithVisitor opsBudget dexOpsBudget dampened visitor =>
    queue.broadcastWithVisitor opsBudget dexOpsBudget dampened visitor
  | rebroadcast iteration floodSeed => queue.rebroadcast iteration floodSeed
  | updateClassicQueueCapacity scaledMaxQueueOps =>
    queue.updateClassicQueueCapacity scaledMaxQueueOps
  | updateSorobanResourceLimits resources => queue.updateSorobanResourceLimits resources

end Henyey.TxQueue
