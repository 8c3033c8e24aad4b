import Henyey.TxQueue.Thresholds

/-!
# What a refused submission leaves

A refused submission changes nothing but the thresholds that its eviction check
recorded. Queues that agree on everything but the caches answer every later
submission alike.
-/

namespace Henyey.TxQueue

namespace QueueStore

variable {setting : Setting} {store : QueueStore setting} {limits : Limits setting}

/-- The store without its eviction queues. -/
def forgetQueues (store : QueueStore setting) : QueueStore setting :=
  store.regenerateEvictionSeed store.evictionSeed

theorem Kept.forgetQueues (hkept : store.Kept limits) : store.forgetQueues.Kept limits :=
  hkept.regenerateEvictionSeed store.evictionSeed

theorem Kept.forgetQueues_remove (hkept : store.Kept limits) (hnonneg : limits.NonNegative)
    (hash : Hash256) :
    (store.remove hash).1.forgetQueues = (store.forgetQueues.remove hash).1.forgetQueues := by
  have hleft := (hkept.remove hnonneg hash).1.fault_eq
  have hright := (hkept.forgetQueues.remove hnonneg hash).1.fault_eq
  unfold QueueStore.remove at hleft hright ⊢
  have hsame : store.forgetQueues.get hash = store.get hash := rfl
  rw [hsame] at hright ⊢
  cases hget : store.get hash with
  | none => rfl
  | some tx =>
    rw [hget] at hleft hright
    have hfault : (store.removeTx tx).fault = (store.forgetQueues.removeTx tx).fault :=
      hleft.trans hright.symm
    unfold QueueStore.forgetQueues QueueStore.regenerateEvictionSeed
    dsimp only
    rw [hfault]
    rfl

theorem Kept.foldl_remove (txs : List QueuedTransaction) (hkept : store.Kept limits)
    (hnonneg : limits.NonNegative) :
    (txs.foldl (fun store tx => (store.remove tx.hash).1) store).Kept limits := by
  induction txs generalizing store with
  | nil => exact hkept
  | cons tx rest ih => exact ih (hkept.remove hnonneg tx.hash).1

theorem Kept.forgetQueues_foldl (txs : List QueuedTransaction) (hkept : store.Kept limits)
    {other : QueueStore setting} (hother : other.Kept limits) (hnonneg : limits.NonNegative)
    (hsame : store.forgetQueues = other.forgetQueues) :
    (txs.foldl (fun store tx => (store.remove tx.hash).1) store).forgetQueues =
      (txs.foldl (fun store tx => (store.remove tx.hash).1) other).forgetQueues := by
  induction txs generalizing store other with
  | nil => exact hsame
  | cons tx rest ih =>
    apply ih (hkept.remove hnonneg tx.hash).1 (hother.remove hnonneg tx.hash).1
    rw [hkept.forgetQueues_remove hnonneg, hother.forgetQueues_remove hnonneg, hsame]

end QueueStore

namespace TransactionQueue

variable {setting : Setting} {queue : TransactionQueue setting}

/-- Two queues that differ in nothing but their caches, up to the slots of the
thresholds. -/
structure Alike (left right : TransactionQueue setting) : Prop where
  same : left.forgetCaches = right.forgetCaches
  thresholds_eq : left.thresholds = right.thresholds
  left_kept : left.Kept
  right_kept : right.Kept

theorem Kept.alike (hkept : queue.Kept) : Alike queue queue := ⟨rfl, rfl, hkept, hkept⟩

namespace Alike

variable {left right : TransactionQueue setting}

section

variable (halike : Alike left right)
include halike

theorem byHash_eq : left.store.byHash = right.store.byHash :=
  congrArg (·.store.byHash) halike.same

theorem accountStates_eq : left.accountStates = right.accountStates :=
  congrArg (·.accountStates) halike.same

theorem seen_eq : left.seen = right.seen :=
  congrArg (·.seen) halike.same

theorem banned_eq : left.bannedTransactions = right.bannedTransactions :=
  congrArg (·.bannedTransactions) halike.same

theorem flood_eq : left.store.floodQueue = right.store.floodQueue :=
  congrArg (·.store.floodQueue) halike.same

theorem seed_eq : left.store.evictionSeed = right.store.evictionSeed :=
  congrArg (·.store.evictionSeed) halike.same

theorem limit_eq : left.effectiveQueueSorobanResources = right.effectiveQueueSorobanResources :=
  (congrArg effectiveQueueSorobanResources halike.same :)

theorem ops_eq : left.effectiveMaxQueueOps = right.effectiveMaxQueueOps :=
  (congrArg effectiveMaxQueueOps halike.same :)

theorem screen_eq (call : Call) (env : TransactionEnvelope) :
    left.screen call env = right.screen call env :=
  (congrArg (fun queue => queue.screen call env) halike.same :)

section

variable (queued : QueuedTransaction)
include queued

/-- The thresholds decide alike whether a newcomer is below them. -/
theorem below_eq : left.below queued = right.below queued := by
  have hclassic := congrArg Thresholds.classic halike.thresholds_eq
  have hsoroban := congrArg Thresholds.soroban halike.thresholds_eq
  have hglobal : left.evictionThresholds.globalFees = right.evictionThresholds.globalFees :=
    congrArg Thresholds.global halike.thresholds_eq
  have hlane : ∀ {d : Nat} (laneConfig : SurgePricingLaneConfig d) fees,
      left.feeBelowLaneThreshold laneConfig fees queued =
        right.feeBelowLaneThreshold laneConfig fees queued := by
    intro d laneConfig fees
    unfold feeBelowLaneThreshold
    rw [halike.ops_eq, hglobal]
  have hrest : ∀ fees otherFees,
      ((left.withSorobanFees fees).effectiveMaxQueueOps.isSome &&
        decide (0 < minInclusionFeeToBeat (left.withSorobanFees fees).evictionThresholds.globalFees
          queued.feeRate)) =
      ((right.withSorobanFees otherFees).effectiveMaxQueueOps.isSome &&
        decide (0 < minInclusionFeeToBeat
          (right.withSorobanFees otherFees).evictionThresholds.globalFees queued.feeRate)) := by
    intro fees otherFees
    change (left.effectiveMaxQueueOps.isSome && decide (0 < minInclusionFeeToBeat
      left.evictionThresholds.globalFees queued.feeRate)) = (right.effectiveMaxQueueOps.isSome &&
      decide (0 < minInclusionFeeToBeat right.evictionThresholds.globalFees queued.feeRate))
    rw [halike.ops_eq, hglobal]
  unfold below checkThresholds
  cases hkind : queued.isSoroban with
  | true =>
    simp only [if_true, halike.limit_eq]
    cases right.effectiveQueueSorobanResources with
    | none => exact congrArg (false || ·) (hrest [] [])
    | some limit =>
      dsimp only
      rw [hrest _ (resizeFees (sorobanGenericLaneConfig setting.codec limit).laneLimits.length
        right.evictionThresholds.sorobanLaneFees), hlane]
      have hfees : resizeFees 1 left.evictionThresholds.sorobanLaneFees =
          resizeFees 1 right.evictionThresholds.sorobanLaneFees := hsoroban
      simp only [sorobanGenericLaneConfig, List.length_singleton, hfees]
  | false =>
    simp only [Bool.false_eq_true, if_false]
    cases hconfig : buildClassicLaneConfig setting with
    | none => exact congrArg (false || ·) (hrest [] [])
    | some laneConfig =>
      dsimp only
      have hlanes : classicLanes setting = laneConfig.laneLimits.length := by
        rw [classicLanes, hconfig]
        rfl
      have hfees : resizeFees laneConfig.laneLimits.length
          left.evictionThresholds.classicLaneFees =
          resizeFees laneConfig.laneLimits.length right.evictionThresholds.classicLaneFees := by
        rw [← hlanes]
        exact hclassic
      rw [hlane, hfees]
      exact congrArg (_ || ·) (hrest [] [])

section

variable (replacedTx : Option QueuedTransaction)
include replacedTx

theorem laneFit_eq : left.laneFit queued replacedTx = right.laneFit queued replacedTx :=
  halike.right_kept.laneFit_eq halike.left_kept halike.byHash_eq halike.seed_eq halike.limit_eq
    queued replacedTx

theorem globalFit_eq (pending : List QueuedTransaction) :
    left.globalFit queued replacedTx pending = right.globalFit queued replacedTx pending :=
  halike.right_kept.globalFit_eq halike.left_kept halike.byHash_eq halike.seed_eq halike.ops_eq
    queued replacedTx pending

theorem checkAndCollectEvictions :
    (left.checkAndCollectEvictions queued replacedTx).2 =
        (right.checkAndCollectEvictions queued replacedTx).2 ∧
      Alike (left.checkAndCollectEvictions queued replacedTx).1
        (right.checkAndCollectEvictions queued replacedTx).1 := by
  obtain ⟨hleft, hleftFees⟩ := halike.left_kept.checkAndCollectEvictions_eq queued replacedTx
  obtain ⟨hright, hrightFees⟩ := halike.right_kept.checkAndCollectEvictions_eq queued replacedTx
  have hreviewed : left.reviewed queued replacedTx = right.reviewed queued replacedTx := by
    simp only [reviewed, halike.below_eq, halike.laneFit_eq, halike.globalFit_eq]
  have hfees : left.reviewedThresholds queued replacedTx =
      right.reviewedThresholds queued replacedTx := by
    simp only [reviewedThresholds, halike.below_eq, halike.laneFit_eq, halike.globalFit_eq,
      halike.thresholds_eq]
  have hleftKept := (halike.left_kept.checkAndCollectEvictions queued replacedTx).1
  have hrightKept := (halike.right_kept.checkAndCollectEvictions queued replacedTx).1
  refine ⟨by rw [hleft, hright, hreviewed], ?_, by rw [hleftFees, hrightFees, hfees],
    hleftKept.kept, hrightKept.kept⟩
  exact hleftKept.same.trans (halike.same.trans hrightKept.same.symm)

end

end

theorem validateFeeBalance_eq (call : Call) (queued : QueuedTransaction)
    (replacedTx : Option QueuedTransaction) :
    left.validateFeeBalance call queued replacedTx =
      right.validateFeeBalance call queued replacedTx :=
  (congrArg (fun queue => queue.validateFeeBalance call queued replacedTx) halike.same :)

end

end Alike

theorem Kept.forgetCaches_evict (hkept : queue.Kept) (tx : QueuedTransaction) :
    (queue.evict tx).forgetCaches = (queue.forgetCaches.evict tx).forgetCaches := by
  have hstore := hkept.store.forgetQueues_remove queue.limits_nonNegative tx.hash
  exact congrArg (fun store =>
    { queue with
      store := store
      accountStates := queue.accountStates.dropTransaction tx
      seen := queue.seen.erase tx.hash
      evictionThresholds := .new }) hstore

variable {left right : TransactionQueue setting}

theorem Alike.evict (halike : Alike left right) {tx : QueuedTransaction}
    (htx : tx ∈ right.store.byHash) : Alike (left.evict tx) (right.evict tx) where
  same := by
    rw [halike.left_kept.forgetCaches_evict, halike.right_kept.forgetCaches_evict, halike.same]
  thresholds_eq := halike.thresholds_eq
  left_kept := halike.left_kept.evict fun other hother hhash =>
    halike.left_kept.store.eq_of_hash hother (halike.byHash_eq ▸ htx) hhash
  right_kept := halike.right_kept.evict fun other hother hhash =>
    halike.right_kept.store.eq_of_hash hother htx hhash

theorem Kept.forgetCaches_commit (hkept : queue.Kept) (pending : List QueuedTransaction)
    (queued : QueuedTransaction) (replacedTx : Option QueuedTransaction) :
    (((queue.commitEvictions pending).removeReplaced queued replacedTx).enter queued
        replacedTx).forgetCaches =
      (((queue.forgetCaches.commitEvictions pending).removeReplaced queued replacedTx).enter queued
        replacedTx).forgetCaches := by
  have hcommitted := QueueStore.Kept.foldl_remove pending hkept.store queue.limits_nonNegative
  have hforgotten := QueueStore.Kept.foldl_remove pending hkept.store.forgetQueues
    queue.limits_nonNegative
  have hsame := QueueStore.Kept.forgetQueues_foldl pending hkept.store hkept.store.forgetQueues
    queue.limits_nonNegative rfl
  cases replacedTx with
  | none =>
    have hafter := congrArg (fun store : QueueStore setting =>
      ({ (((queue.commitEvictions pending).enter queued none).forgetCaches) with
        store := (store.insert queued).forgetQueues } : TransactionQueue setting)) hsame
    exact hafter
  | some oldTx =>
    have hremoved :
        ((pending.foldl (fun store tx => (store.remove tx.hash).1) queue.store).remove
          oldTx.hash).1.forgetQueues =
        ((pending.foldl (fun store tx => (store.remove tx.hash).1)
          queue.store.forgetQueues).remove oldTx.hash).1.forgetQueues := by
      rw [hcommitted.forgetQueues_remove queue.limits_nonNegative, hsame,
        ← hforgotten.forgetQueues_remove queue.limits_nonNegative]
    have hafter := congrArg (fun store : QueueStore setting =>
      ({ ((((queue.commitEvictions pending).removeReplaced queued (some oldTx)).enter queued
          (some oldTx)).forgetCaches) with
        store := (store.insert queued).forgetQueues } : TransactionQueue setting)) hremoved
    exact hafter

theorem Alike.ensureQueueCapacity (halike : Alike left right) (call : Call) (count : Nat)
    (queued : QueuedTransaction) :
    (left.ensureQueueCapacity call count queued = none ∧
        right.ensureQueueCapacity call count queued = none) ∨
      ∃ roomyLeft roomyRight, left.ensureQueueCapacity call count queued = some roomyLeft ∧
        right.ensureQueueCapacity call count queued = some roomyRight ∧
        Alike roomyLeft roomyRight := by
  have hfull : (left.store.len - count < left.effectiveMaxSize) =
      (right.store.len - count < right.effectiveMaxSize) :=
    (congrArg (fun queue => queue.store.len - count < queue.effectiveMaxSize) halike.same :)
  have hvictim : left.capacityVictim call queued = right.capacityVictim call queued :=
    (congrArg (fun queue => queue.capacityVictim call queued) halike.same :)
  unfold TransactionQueue.ensureQueueCapacity
  rw [hvictim]
  simp only [hfull]
  split
  · exact .inr ⟨left, right, rfl, rfl, halike⟩
  · cases hchosen : right.capacityVictim call queued with
    | none => exact .inl ⟨rfl, rfl⟩
    | some victim =>
      exact .inr ⟨_, _, rfl, rfl, halike.evict (mem_of_capacityVictim hchosen)⟩

theorem thresholds_commit (queue : TransactionQueue setting) (pending : List QueuedTransaction)
    (queued : QueuedTransaction) (replacedTx : Option QueuedTransaction) :
    (((queue.commitEvictions pending).removeReplaced queued replacedTx).enter queued
      replacedTx).thresholds = queue.thresholds := by
  cases replacedTx <;> rfl

/-- Submitting to queues that are alike gives the same result and leaves queues
that are alike. -/
theorem Alike.tryAdd (halike : Alike left right) (call : Call) (env : TransactionEnvelope) :
    (left.tryAdd call env).2 = (right.tryAdd call env).2 ∧
      Alike (left.tryAdd call env).1 (right.tryAdd call env).1 := by
  have hleftKept := halike.left_kept.tryAdd call env
  have hrightKept := halike.right_kept.tryAdd call env
  unfold TransactionQueue.tryAdd at hleftKept hrightKept ⊢
  rw [halike.screen_eq] at hleftKept ⊢
  cases hscreen : right.screen call env with
  | error result => exact ⟨rfl, halike⟩
  | ok screened =>
    obtain ⟨queued, replacedTx⟩ := screened
    rw [hscreen] at hleftKept hrightKept
    obtain ⟨hanswer, hchecked⟩ := halike.checkAndCollectEvictions queued replacedTx
    simp only at hleftKept hrightKept ⊢
    rw [hanswer] at hleftKept ⊢
    generalize (left.checkAndCollectEvictions queued replacedTx).1 = left at hchecked hleftKept ⊢
    cases hpending : (right.checkAndCollectEvictions queued replacedTx).2 with
    | error result => exact ⟨rfl, hchecked⟩
    | ok pending =>
      rw [hpending] at hleftKept hrightKept
      simp only at hleftKept hrightKept ⊢
      generalize (right.checkAndCollectEvictions queued replacedTx).1 = right
        at hchecked hrightKept ⊢
      rw [hchecked.validateFeeBalance_eq] at hleftKept ⊢
      cases hbalance : right.validateFeeBalance call queued replacedTx with
      | some result => exact ⟨rfl, hchecked⟩
      | none =>
        rw [hbalance] at hleftKept hrightKept
        simp only at hleftKept hrightKept ⊢
        rcases hchecked.ensureQueueCapacity call pending.length queued with
          ⟨hleft, hright⟩ | ⟨roomyLeft, roomyRight, hleft, hright, hroomy⟩
        · rw [hleft, hright]
          exact ⟨rfl, hchecked⟩
        · rw [hleft] at hleftKept ⊢
          rw [hright] at hrightKept ⊢
          refine ⟨rfl, ?_, ?_, hleftKept, hrightKept⟩
          · simp only
            rw [hroomy.left_kept.forgetCaches_commit, hroomy.right_kept.forgetCaches_commit,
              hroomy.same]
          · simp only [thresholds_commit]
            exact hroomy.thresholds_eq

def results (queue : TransactionQueue setting) :
    List (Call × TransactionEnvelope) → List TxQueueResult
  | [] => []
  | (call, env) :: rest => (queue.tryAdd call env).2 :: (queue.tryAdd call env).1.results rest

theorem Alike.results_eq (halike : Alike left right)
    (calls : List (Call × TransactionEnvelope)) : left.results calls = right.results calls := by
  induction calls generalizing left right with
  | nil => rfl
  | cons head rest ih =>
    obtain ⟨hresult, hafter⟩ := halike.tryAdd head.1 head.2
    exact congrArg₂ List.cons hresult (ih hafter)

/-- No trace of a submission: what is queued, the accounts, the bans, the seen
set, the flood queue and the thresholds are as before, and so are the answers to
all later submissions. -/
structure NoTrace (before after : TransactionQueue setting) : Prop where
  queued : after.store.byHash = before.store.byHash
  accounts : after.accountStates = before.accountStates
  bans : after.bannedTransactions = before.bannedTransactions
  seen : after.seen = before.seen
  flood : after.store.floodQueue = before.store.floodQueue
  thresholds : after.thresholds = before.thresholds
  later : ∀ calls, after.results calls = before.results calls

theorem Alike.noTrace {before after : TransactionQueue setting} (halike : Alike after before) :
    NoTrace before after where
  queued := halike.byHash_eq
  accounts := halike.accountStates_eq
  bans := halike.banned_eq
  seen := halike.seen_eq
  flood := halike.flood_eq
  thresholds := halike.thresholds_eq
  later := halike.results_eq

/-- Whatever the fit checks of a newcomer would evict, the cached threshold of
every lane is the rate of the last transaction evicted on its account, and so is
the threshold of all operations. -/
def KeepsThresholds (queue : TransactionQueue setting) (queued : QueuedTransaction)
    (replacedTx : Option QueuedTransaction) : Prop :=
  ∀ evictions, queue.laneFit queued replacedTx = some evictions →
    (∀ lane fee, (queue.thresholds.ofKind queued.isSoroban)[lane]? = some fee →
      ∀ rate, lastCharged (laneOf setting queued) evictions lane = some rate → fee = some rate) ∧
    ∀ more, queue.globalFit queued replacedTx (evictions.map (·.1)) = some more →
      ∀ last ∈ more.getLast?, queue.thresholds.global = some last.1.feeRate

theorem Thresholds.recordGlobal_eq_self {thresholds : Thresholds}
    {evictions : List (QueuedTransaction × Bool)} :
    thresholds.recordGlobal evictions = thresholds ↔
      ∀ last ∈ evictions.getLast?, thresholds.global = some last.1.feeRate := by
  obtain ⟨classic, soroban, global⟩ := thresholds
  unfold recordGlobal
  cases evictions.getLast? with
  | none => simp
  | some last => simp [eq_comm]

theorem Thresholds.recorded_eq_self {thresholds : Thresholds} {queued : QueuedTransaction}
    {evictions more : List (QueuedTransaction × Bool)} :
    (thresholds.recordLanes setting queued evictions).recordGlobal more = thresholds ↔
      thresholds.recordLanes setting queued evictions = thresholds ∧
        thresholds.recordGlobal more = thresholds := by
  obtain ⟨classic, soroban, global⟩ := thresholds
  unfold recordLanes recordGlobal
  split <;> simp

/-- An eviction check keeps the thresholds exactly where it records the rates
that are cached. -/
theorem reviewedThresholds_eq_self {queued : QueuedTransaction}
    {replacedTx : Option QueuedTransaction} :
    queue.reviewedThresholds queued replacedTx = queue.thresholds ↔
      (queue.below queued = false → queue.KeepsThresholds queued replacedTx) := by
  unfold reviewedThresholds KeepsThresholds
  cases queue.below queued with
  | true => simp
  | false =>
    simp only [Bool.false_eq_true, if_false, true_implies]
    cases queue.laneFit queued replacedTx with
    | none => simp
    | some evictions =>
      simp only [Option.some.injEq, forall_eq']
      rw [← raise_eq_self, ← Thresholds.recordLanes_eq_self]
      cases queue.globalFit queued replacedTx (evictions.map (·.1)) with
      | none => simp
      | some more =>
        simp only [Option.some.injEq, forall_eq']
        rw [← Thresholds.recordGlobal_eq_self]
        exact Thresholds.recorded_eq_self

/-- A refused submission leaves no trace exactly where it is refused before the
fit checks, or these record only rates that are cached already. -/
theorem noTrace_iff (hqueue : Reachable queue) (call : Call) (env : TransactionEnvelope)
    (hrefused : (queue.tryAdd call env).2 ≠ .added) :
    NoTrace queue (queue.tryAdd call env).1 ↔
      ∀ queued replacedTx, queue.screen call env = .ok (queued, replacedTx) →
        queue.below queued = false → queue.KeepsThresholds queued replacedTx := by
  have hkept := hqueue.kept
  rcases queue.tryAdd_cases call env with ⟨result, -, hscreen, heq⟩ |
    ⟨queued, replacedTx, result, -, hscreen, heq⟩ | ⟨queued, replacedTx, pending, roomy, -, heq⟩
  · rw [heq, hscreen]
    exact ⟨fun _ _ _ => nofun, fun _ => hkept.alike.noTrace⟩
  · have hreviewed := (hkept.checkAndCollectEvictions queued replacedTx).1
    have hfees := (hkept.checkAndCollectEvictions_eq queued replacedTx).2
    rw [heq, hscreen]
    constructor
    · rintro htrace _ _ ⟨⟩
      apply reviewedThresholds_eq_self.mp
      rw [← hfees]
      exact htrace.thresholds
    · intro hkeeps
      have hsame := reviewedThresholds_eq_self.mpr (hkeeps queued replacedTx rfl)
      have halike : Alike (queue.checkAndCollectEvictions queued replacedTx).1 queue :=
        ⟨hreviewed.same, hfees.trans hsame, hreviewed.kept, hkept⟩
      exact halike.noTrace
  · rw [heq] at hrefused
    exact absurd rfl hrefused

section Surge

/-- A queue for three operations. -/
def surgeSetting : Setting where
  codec := ⟨accountKey, fun _ => 100⟩
  config :=
    { maxSize := 10
      maxAgeSecs := 300
      minFeePerOp := 100
      maxDexOps := none
      maxQueueDexOps := none
      maxQueueSorobanResources := none
      maxQueueOps := some 3
      maxQueueClassicBytes := none
      filteredOperationTypes := [] }
  ledgerVersion := 23
  banDepth := 10
  pendingDepth := 4

/-- Accounts have a balance of 1000. -/
def surgeCall : Call where
  validateTransaction env :=
    if envelopeOperations env = [] then some .txMissingOperation else none
  refusesEmpty env hvalid hempty := by
    rw [if_pos hempty] at hvalid
    cases hvalid
  baseFee := 100
  sorobanLimits := none
  now := 0
  feeBalanceProvider := some fun _ => .ok (some 1000)
  iteration := ⟨id, fun _ => .refl _⟩

def payments (source : AccountKey) (fee count : Nat) : TransactionEnvelope :=
  .tx ⟨source, fee, 1, List.replicate count .payment, none, 0⟩

/-- Two operations of account 1 are queued. -/
def surgeQueue : TransactionQueue surgeSetting :=
  (Op.tryAdd surgeCall (payments 1 200 2)).run (.withDepths 0 0)

theorem surgeQueue_reachable : Reachable surgeQueue := .step _ (.empty 0 0)

/-- A transaction that its account cannot pay for would evict, and raises the
threshold of all operations: after it, a transaction that fits is refused. -/
theorem refused_submission_leaves_trace :
    ¬∀ (setting : Setting) (queue : TransactionQueue setting), Reachable queue →
      ∀ call env, (queue.tryAdd call env).2 ≠ .added → NoTrace queue (queue.tryAdd call env).1 := by
  intro hclaim
  have hlater := (hclaim surgeSetting surgeQueue surgeQueue_reachable surgeCall
    (payments 2 4000 2) (by decide +kernel)).later [(surgeCall, payments 3 100 1)]
  have hbefore : surgeQueue.results [(surgeCall, payments 3 100 1)] = [.added] := by
    decide +kernel
  have hafter : (surgeQueue.tryAdd surgeCall (payments 2 4000 2)).1.results
      [(surgeCall, payments 3 100 1)] = [.feeTooLow] := by
    decide +kernel
  rw [hbefore, hafter] at hlater
  cases hlater

/-- A transaction that is refused for its fee leaves no trace. -/
theorem noTrace_of_low_fee :
    (surgeQueue.tryAdd surgeCall (payments 2 100 2)).2 ≠ .added ∧
      (NoTrace surgeQueue (surgeQueue.tryAdd surgeCall (payments 2 100 2)).1 ↔
        ∀ queued replacedTx,
          surgeQueue.screen surgeCall (payments 2 100 2) = .ok (queued, replacedTx) →
          surgeQueue.below queued = false → surgeQueue.KeepsThresholds queued replacedTx) :=
  ⟨by decide +kernel, noTrace_iff surgeQueue_reachable surgeCall _ (by decide +kernel)⟩

end Surge

end TransactionQueue

end Henyey.TxQueue
