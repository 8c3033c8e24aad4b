import Henyey.TxQueue.KeptRuns

/-!
# The cached eviction thresholds

An eviction check is determined by two fit checks, one over the lanes of the
newcomer and one over all operations. Its thresholds are the cached ones, with
the rate of the last transaction evicted on account of each lane.
-/

namespace Henyey.TxQueue

open List

theorem DistinctHashes.of_subperm {txs others : List QueuedTransaction}
    (hdistinct : DistinctHashes txs) (hsubperm : others.Subperm txs) : DistinctHashes others := by
  obtain ⟨middle, hperm, hsublist⟩ := hsubperm
  exact (hperm.map _).nodup_iff.mp ((hsublist.map _).nodup hdistinct)

theorem distinctHashes_nil : DistinctHashes [] := nodup_nil

theorem mem_foldl_exclusion {d : Nat} {step : EvictionExclusion d → Hash256 → EvictionExclusion d}
    (hstep : ∀ excl head, insert head excl.hashes ⊆ (step excl head).hashes) {hash : Hash256}
    (hashes : List Hash256) (excl : EvictionExclusion d)
    (hmem : hash ∈ hashes ∨ hash ∈ excl.hashes) : hash ∈ (hashes.foldl step excl).hashes := by
  induction hashes generalizing excl with
  | nil => exact hmem.resolve_left not_mem_nil
  | cons head rest ih =>
    apply ih
    rcases hmem with hmem | hmem
    · cases hmem with
      | head => exact .inr (hstep excl hash (Finset.mem_insert_self ..))
      | tail _ hmem => exact .inl hmem
    · exact .inr (hstep excl head (Finset.mem_insert_of_mem hmem))

theorem mem_exclusion_of_mem {d : Nat} {evictionQueue : SurgePricingPriorityQueue d}
    {byHash : List QueuedTransaction} {replacedTx : Option QueuedTransaction}
    {hashes : List Hash256} {ledgerVersion : Nat} {hash : Hash256} (hmem : hash ∈ hashes) :
    hash ∈ (buildEvictionExclusion evictionQueue byHash replacedTx hashes ledgerVersion).hashes := by
  unfold buildEvictionExclusion
  refine mem_foldl_exclusion (fun excl head => ?_) hashes _ (.inl hmem)
  dsimp only
  split
  · exact Finset.insert_subset ‹_› (Finset.Subset.refl _)
  split
  · exact Finset.Subset.refl _
  next tx htx =>
    have hhash := find?_some htx
    rw [of_decide_eq_true hhash]

namespace TransactionQueue

variable {setting : Setting} {queue : TransactionQueue setting}

@[simp]
theorem length_resizeFees (lanes : Nat) (fees : List (Option FeeRate)) :
    (resizeFees lanes fees).length = lanes := by
  simp [resizeFees]
  omega

theorem resizeFees_of_length {lanes : Nat} {fees : List (Option FeeRate)}
    (hlength : fees.length = lanes) : resizeFees lanes fees = fees := by
  subst hlength
  simp [resizeFees]

@[simp]
theorem resizeFees_resizeFees (lanes : Nat) (fees : List (Option FeeRate)) :
    resizeFees lanes (resizeFees lanes fees) = resizeFees lanes fees :=
  resizeFees_of_length (length_resizeFees lanes fees)

def lastCharged (laneOf : QueuedTransaction → Nat) (evictions : List (QueuedTransaction × Bool))
    (lane : Nat) : Option FeeRate :=
  (evictions.filter fun (evicted, dueToLane) =>
    (if dueToLane then laneOf evicted else genericLane) = lane).getLast?.map (·.1.feeRate)

theorem lastCharged_cons (laneOf : QueuedTransaction → Nat) (head : QueuedTransaction × Bool)
    (rest : List (QueuedTransaction × Bool)) (lane : Nat) :
    lastCharged laneOf (head :: rest) lane =
      (lastCharged laneOf rest lane).or
        (if (if head.2 then laneOf head.1 else genericLane) = lane then some head.1.feeRate
        else none) := by
  unfold lastCharged
  by_cases hlane : (if head.2 then laneOf head.1 else genericLane) = lane
  · rw [filter_cons_of_pos (by simpa using hlane), if_pos hlane, getLast?_cons]
    cases getLast? (rest.filter _) <;> rfl
  · rw [filter_cons_of_neg (by simpa using hlane), if_neg hlane, Option.or_none]

/-- Raise each threshold to the rate of the last transaction evicted on account
of its lane. -/
def raise (laneOf : QueuedTransaction → Nat) (evictions : List (QueuedTransaction × Bool))
    (fees : List (Option FeeRate)) : List (Option FeeRate) :=
  fees.mapIdx fun lane fee => (lastCharged laneOf evictions lane).or fee

variable {evictions : List (QueuedTransaction × Bool)}

/-- Thresholds stay exactly where every lane has the rate of the last eviction
on its account. -/
theorem raise_eq_self {laneOf : QueuedTransaction → Nat} {fees : List (Option FeeRate)} :
    raise laneOf evictions fees = fees ↔
      ∀ lane fee, fees[lane]? = some fee → ∀ rate, lastCharged laneOf evictions lane = some rate →
        fee = some rate := by
  constructor
  · intro hsame lane fee hfee rate hrate
    have hraised : (raise laneOf evictions fees)[lane]? = some fee := by rw [hsame, hfee]
    rw [raise, getElem?_mapIdx, hfee, hrate] at hraised
    exact (Option.some.inj hraised).symm
  · intro hcached
    apply ext_getElem?
    intro lane
    rw [raise, getElem?_mapIdx]
    cases hfee : fees[lane]? with
    | none => rfl
    | some fee =>
      cases hrate : lastCharged laneOf evictions lane with
      | none => simp
      | some rate => simp [hcached lane fee hfee rate hrate]

@[simp]
theorem raise_nil (laneOf : QueuedTransaction → Nat) (fees : List (Option FeeRate)) :
    raise laneOf [] fees = fees :=
  raise_eq_self.mpr fun _ _ _ _ => nofun

variable {pending : List QueuedTransaction}

theorem DistinctHashes.pending_cons {evicted : QueuedTransaction} {rest : List QueuedTransaction}
    (hdistinct : DistinctHashes (pending ++ evicted :: rest)) :
    evicted.hash ∉ pending.map (·.hash) ∧ DistinctHashes (pending ++ [evicted] ++ rest) := by
  refine ⟨fun hmem => ?_, append_cons pending evicted rest ▸ hdistinct⟩
  have hnodup : (pending.map (·.hash) ++ (evicted :: rest).map (·.hash)).Nodup := by
    rw [← map_append]
    exact hdistinct
  exact (nodup_append.mp hnodup).2.2 _ hmem _ (by simp) rfl

theorem recordLaneEvictions_eq {d : Nat} (laneConfig : SurgePricingLaneConfig d)
    (fees : List (Option FeeRate)) (hdistinct : DistinctHashes (pending ++ evictions.map (·.1))) :
    resizeFees laneConfig.laneLimits.length
        (recordLaneEvictions laneConfig evictions fees pending).1 =
      raise (fun tx => laneConfig.getLane tx.envelope) evictions
        (resizeFees laneConfig.laneLimits.length fees) ∧
      (recordLaneEvictions laneConfig evictions fees pending).2 =
        pending ++ evictions.map (·.1) := by
  induction evictions generalizing fees pending with
  | nil => simp [recordLaneEvictions]
  | cons head rest ih =>
    obtain ⟨evicted, dueToLane⟩ := head
    rw [map_cons] at hdistinct
    obtain ⟨hfresh, hdistinct⟩ := DistinctHashes.pending_cons hdistinct
    obtain ⟨hfees, hpending⟩ := ih ((resizeFees laneConfig.laneLimits.length fees).set
      (if dueToLane then laneConfig.getLane evicted.envelope else genericLane)
      (some evicted.feeRate)) hdistinct
    have hstep : recordLaneEvictions laneConfig ((evicted, dueToLane) :: rest) fees pending =
        recordLaneEvictions laneConfig rest ((resizeFees laneConfig.laneLimits.length fees).set
          (if dueToLane then laneConfig.getLane evicted.envelope else genericLane)
          (some evicted.feeRate)) (pending ++ [evicted]) := by
      rw [recordLaneEvictions, foldl_cons]
      simp only [if_neg hfresh]
      rfl
    rw [hstep]
    refine ⟨hfees.trans ?_, by rw [hpending, map_cons, ← append_cons]⟩
    rw [resizeFees_of_length (by simp)]
    apply ext_getElem?
    intro lane
    rw [raise, raise, getElem?_mapIdx, getElem?_mapIdx, getElem?_set, lastCharged_cons]
    dsimp only
    generalize (if dueToLane = true then laneConfig.getLane evicted.envelope else genericLane) =
      charged
    by_cases hlane : charged = lane
    · subst hlane
      by_cases hbound : charged < (resizeFees laneConfig.laneLimits.length fees).length
      · rw [if_pos rfl, if_pos hbound, if_pos rfl, getElem?_eq_getElem hbound]
        cases lastCharged (fun tx => laneConfig.getLane tx.envelope) rest charged <;> rfl
      · rw [if_pos rfl, if_neg hbound, getElem?_eq_none (not_lt.mp hbound)]
        rfl
    · rw [if_neg hlane, if_neg hlane, Option.or_none]

theorem foldl_global_eq (fee : Option FeeRate)
    (hdistinct : DistinctHashes (pending ++ evictions.map (·.1))) :
    evictions.foldl
      (fun (fee, pending) (evicted, _) =>
        if evicted.hash ∈ pending.map (·.hash) then (fee, pending)
        else (some evicted.feeRate, pending ++ [evicted])) (fee, pending) =
      ((evictions.getLast?.map (·.1.feeRate)).or fee, pending ++ evictions.map (·.1)) := by
  induction evictions generalizing fee pending with
  | nil => simp
  | cons head rest ih =>
    obtain ⟨evicted, dueToLane⟩ := head
    rw [map_cons] at hdistinct
    obtain ⟨hfresh, hdistinct⟩ := DistinctHashes.pending_cons hdistinct
    rw [foldl_cons]
    simp only [if_neg hfresh]
    rw [ih _ hdistinct, getLast?_cons, map_cons, ← append_cons]
    cases rest.getLast? <;> rfl

/-- The lane that an evicted transaction of the newcomer's kind is in. -/
def laneOf (setting : Setting) (queued tx : QueuedTransaction) : Nat :=
  if queued.isSoroban then genericLane
  else
    match buildClassicLaneConfig setting with
    | none => genericLane
    | some laneConfig => laneConfig.getLane tx.envelope

/-- What has to be evicted for the lanes of the newcomer's kind. -/
def laneFit (queue : TransactionQueue setting) (queued : QueuedTransaction)
    (replacedTx : Option QueuedTransaction) : Option (List (QueuedTransaction × Bool)) :=
  if queued.isSoroban then
    match queue.effectiveQueueSorobanResources with
    | none => some []
    | some limit => queue.fit (queue.store.sorobanQueue limit) queued replacedTx []
  else
    match buildClassicLaneConfig setting with
    | none => some []
    | some laneConfig => queue.fit (queue.store.classicQueue laneConfig) queued replacedTx []

/-- What has to be evicted for all operations, besides what is pending. -/
def globalFit (queue : TransactionQueue setting) (queued : QueuedTransaction)
    (replacedTx : Option QueuedTransaction) (pending : List QueuedTransaction) :
    Option (List (QueuedTransaction × Bool)) :=
  match queue.effectiveMaxQueueOps with
  | none => some []
  | some limit => queue.fit (queue.store.globalQueue limit) queued replacedTx pending

/-- The cached thresholds, with a slot for each lane. -/
structure Thresholds where
  classic : List (Option FeeRate)
  soroban : List (Option FeeRate)
  global : Option FeeRate
deriving DecidableEq

def classicLanes (setting : Setting) : Nat :=
  ((buildClassicLaneConfig setting).map (·.laneLimits.length)).getD 0

def thresholds (queue : TransactionQueue setting) : Thresholds where
  classic := resizeFees (classicLanes setting) queue.evictionThresholds.classicLaneFees
  soroban := resizeFees 1 queue.evictionThresholds.sorobanLaneFees
  global := queue.evictionThresholds.globalFees

namespace Thresholds

def ofKind (thresholds : Thresholds) (isSoroban : Bool) : List (Option FeeRate) :=
  if isSoroban then thresholds.soroban else thresholds.classic

def recordLanes (thresholds : Thresholds) (setting : Setting) (queued : QueuedTransaction)
    (evictions : List (QueuedTransaction × Bool)) : Thresholds :=
  if queued.isSoroban then
    { thresholds with soroban := raise (laneOf setting queued) evictions thresholds.soroban }
  else { thresholds with classic := raise (laneOf setting queued) evictions thresholds.classic }

def recordGlobal (thresholds : Thresholds) (evictions : List (QueuedTransaction × Bool)) :
    Thresholds :=
  { thresholds with
    global := (evictions.getLast?.map (·.1.feeRate)).or thresholds.global }

theorem recordLanes_eq_self {thresholds : Thresholds} {queued : QueuedTransaction}
    {evictions : List (QueuedTransaction × Bool)} :
    thresholds.recordLanes setting queued evictions = thresholds ↔
      raise (laneOf setting queued) evictions (thresholds.ofKind queued.isSoroban) =
        thresholds.ofKind queued.isSoroban := by
  obtain ⟨classic, soroban, global⟩ := thresholds
  unfold recordLanes ofKind
  split <;> simp

end Thresholds

variable {evictions : List (QueuedTransaction × Bool)} {replacedTx : Option QueuedTransaction}
  {pending : List QueuedTransaction}

theorem distinct_of_fit {d : Nat} {evictionQueue : SurgePricingPriorityQueue d}
    {laneConfig : SurgePricingLaneConfig d} {seed : Nat} {txs : List QueuedTransaction}
    (hholds : evictionQueue.Holds laneConfig seed setting.ledgerVersion txs)
    (hdistinct : DistinctHashes txs) {queued : QueuedTransaction}
    (hpending : DistinctHashes pending)
    (hfit : queue.fit evictionQueue queued replacedTx pending = some evictions) :
    DistinctHashes (pending ++ evictions.map (·.1)) := by
  have hsubperm := hholds.subperm_of_canFitWithEviction hfit
  have hyields := hholds.yields_of_canFitWithEviction hfit
  unfold DistinctHashes
  rw [map_append]
  refine nodup_append.mpr ⟨hpending, hdistinct.of_subperm hsubperm, ?_⟩
  intro hash hhash other hother heq
  subst heq
  obtain ⟨tx, htx, rfl⟩ := mem_map.mp hother
  obtain ⟨evicted, hevicted, rfl⟩ := mem_map.mp htx
  exact (hyields evicted hevicted).2.1 (mem_exclusion_of_mem hhash)

theorem thresholds_checkThresholds (queue : TransactionQueue setting) (queued : QueuedTransaction) :
    (queue.checkThresholds queued).1.thresholds = queue.thresholds := by
  unfold checkThresholds
  split
  next sized below hsized =>
  split at hsized
  · split at hsized
    · cases hsized
      rfl
    · cases hsized
      simp [thresholds, withSorobanFees, sorobanGenericLaneConfig]
  · split at hsized
    · cases hsized
      rfl
    · next laneConfig hconfig =>
      cases hsized
      simp [thresholds, withClassicFees, classicLanes, hconfig]

theorem Kept.collectLaneEvictions_eq (hkept : queue.Kept) (queued : QueuedTransaction)
    (replacedTx : Option QueuedTransaction) :
    (queue.collectLaneEvictions queued replacedTx).2 =
        (queue.laneFit queued replacedTx).map (·.map (·.1)) ∧
      (queue.collectLaneEvictions queued replacedTx).1.thresholds =
        ((queue.laneFit queued replacedTx).map
          (queue.thresholds.recordLanes setting queued)).getD queue.thresholds := by
  unfold TransactionQueue.collectLaneEvictions laneFit
  split
  · next hkind =>
    cases hlimit : queue.effectiveQueueSorobanResources with
    | none => simp [Thresholds.recordLanes]
    | some limit =>
      simp only
      cases hfit : queue.fit (queue.store.sorobanQueue limit) queued replacedTx [] with
      | none => exact ⟨rfl, rfl⟩
      | some evictions =>
        have hdistinct := distinct_of_fit (hkept.store.sorobanQueue (limits_soroban hlimit))
          (hkept.store.distinct.filter _) distinctHashes_nil hfit
        obtain ⟨hfees, hpending⟩ := recordLaneEvictions_eq
          (sorobanGenericLaneConfig setting.codec limit)
          queue.evictionThresholds.sorobanLaneFees hdistinct
        refine ⟨congrArg some hpending, ?_⟩
        have hlane : laneOf setting queued = fun _ => genericLane := by
          funext tx
          rw [laneOf, if_pos hkind]
        simp only [Option.map_some, Option.getD_some, Thresholds.recordLanes, hkind, if_true, hlane]
        exact congrArg (fun fees => (⟨_, fees, _⟩ : Thresholds)) hfees
  · next hkind =>
    cases hconfig : buildClassicLaneConfig setting with
    | none => simp [Thresholds.recordLanes]
    | some laneConfig =>
      simp only
      cases hfit : queue.fit (queue.store.classicQueue laneConfig) queued replacedTx [] with
      | none => exact ⟨rfl, rfl⟩
      | some evictions =>
        have hdistinct := distinct_of_fit
          (hkept.store.classicQueue (queue.limits_classic hconfig))
          (hkept.store.distinct.filter _) distinctHashes_nil hfit
        obtain ⟨hfees, hpending⟩ := recordLaneEvictions_eq laneConfig
          queue.evictionThresholds.classicLaneFees hdistinct
        refine ⟨congrArg some hpending, ?_⟩
        have hlane : laneOf setting queued = fun tx => laneConfig.getLane tx.envelope := by
          funext tx
          rw [laneOf, if_neg hkind, hconfig]
        have hlanes : classicLanes setting = laneConfig.laneLimits.length := by
          rw [classicLanes, hconfig]
          rfl
        simp only [Option.map_some, Option.getD_some, Thresholds.recordLanes, hkind, hlane]
        unfold thresholds
        rw [hlanes]
        exact congrArg (fun fees => (⟨fees, _, _⟩ : Thresholds)) hfees

theorem Kept.collectGlobalEvictions_eq (hkept : queue.Kept) (queued : QueuedTransaction)
    (replacedTx : Option QueuedTransaction) (hpending : DistinctHashes pending) :
    (queue.collectGlobalEvictions queued replacedTx pending).2 =
        (queue.globalFit queued replacedTx pending).map (pending ++ ·.map (·.1)) ∧
      (queue.collectGlobalEvictions queued replacedTx pending).1.thresholds =
        ((queue.globalFit queued replacedTx pending).map
          queue.thresholds.recordGlobal).getD queue.thresholds := by
  unfold TransactionQueue.collectGlobalEvictions globalFit
  cases hlimit : queue.effectiveMaxQueueOps with
  | none => simp [Thresholds.recordGlobal]
  | some limit =>
    simp only
    cases hfit : queue.fit (queue.store.globalQueue limit) queued replacedTx pending with
    | none => exact ⟨rfl, rfl⟩
    | some evictions =>
      have hdistinct := distinct_of_fit (hkept.store.globalQueue (limits_global hlimit))
        hkept.store.distinct hpending hfit
      have hfold := foldl_global_eq queue.evictionThresholds.globalFees hdistinct
      exact ⟨congrArg (fun recorded => some recorded.2) hfold,
        congrArg (fun recorded => (⟨_, _, recorded.1⟩ : Thresholds)) hfold⟩

/-- A newcomer below the cached thresholds of its lane or of all operations. -/
def below (queue : TransactionQueue setting) (queued : QueuedTransaction) : Bool :=
  (queue.checkThresholds queued).2

/-- What an eviction check answers, from the two fit checks. -/
def reviewed (queue : TransactionQueue setting) (queued : QueuedTransaction)
    (replacedTx : Option QueuedTransaction) : Except TxQueueResult (List QueuedTransaction) :=
  if queue.below queued then .error .feeTooLow
  else
    match queue.laneFit queued replacedTx with
    | none => .error .queueFull
    | some evictions =>
      match queue.globalFit queued replacedTx (evictions.map (·.1)) with
      | none => .error .queueFull
      | some more => .ok (evictions.map (·.1) ++ more.map (·.1))

/-- The thresholds that an eviction check leaves, from the two fit checks. -/
def reviewedThresholds (queue : TransactionQueue setting) (queued : QueuedTransaction)
    (replacedTx : Option QueuedTransaction) : Thresholds :=
  if queue.below queued then queue.thresholds
  else
    match queue.laneFit queued replacedTx with
    | none => queue.thresholds
    | some evictions =>
      let lanes := queue.thresholds.recordLanes setting queued evictions
      match queue.globalFit queued replacedTx (evictions.map (·.1)) with
      | none => lanes
      | some more => lanes.recordGlobal more

variable {other : TransactionQueue setting}

theorem laneFit_congr (hbyHash : other.store.byHash = queue.store.byHash)
    (hlimit : other.effectiveQueueSorobanResources = queue.effectiveQueueSorobanResources)
    (hsoroban : ∀ limit, queue.effectiveQueueSorobanResources = some limit →
      other.store.sorobanQueue limit = queue.store.sorobanQueue limit)
    (hclassic : ∀ laneConfig, buildClassicLaneConfig setting = some laneConfig →
      other.store.classicQueue laneConfig = queue.store.classicQueue laneConfig)
    (queued : QueuedTransaction) (replacedTx : Option QueuedTransaction) :
    other.laneFit queued replacedTx = queue.laneFit queued replacedTx := by
  unfold laneFit fit
  rw [hlimit, hbyHash]
  split
  · split
    · rfl
    · next limit hsome => rw [hsoroban limit hsome]
  · split
    · rfl
    · next laneConfig hconfig => rw [hclassic laneConfig hconfig]

theorem globalFit_congr (hbyHash : other.store.byHash = queue.store.byHash)
    (hops : other.effectiveMaxQueueOps = queue.effectiveMaxQueueOps)
    (hglobal : ∀ ops : Nat, queue.effectiveMaxQueueOps = some ops →
      other.store.globalQueue ops = queue.store.globalQueue ops)
    (queued : QueuedTransaction) (replacedTx : Option QueuedTransaction)
    (pending : List QueuedTransaction) :
    other.globalFit queued replacedTx pending = queue.globalFit queued replacedTx pending := by
  unfold globalFit fit
  rw [hops, hbyHash]
  split
  · rfl
  · next ops hsome => rw [hglobal ops hsome]

/-- Queues that hold the same transactions under the same limits and seed have
the same eviction queues. -/
theorem Kept.laneFit_eq (hkept : queue.Kept) (hother : other.Kept)
    (hbyHash : other.store.byHash = queue.store.byHash)
    (hseed : other.store.evictionSeed = queue.store.evictionSeed)
    (hlimit : other.effectiveQueueSorobanResources = queue.effectiveQueueSorobanResources)
    (queued : QueuedTransaction) (replacedTx : Option QueuedTransaction) :
    other.laneFit queued replacedTx = queue.laneFit queued replacedTx := by
  refine laneFit_congr hbyHash hlimit (fun limit hsome => ?_) (fun laneConfig hconfig => ?_)
    queued replacedTx
  · have hleft := hother.store.sorobanQueue (limits_soroban (hlimit.trans hsome))
    rw [hbyHash, hseed] at hleft
    exact hleft.ext (hkept.store.sorobanQueue (limits_soroban hsome))
  · have hleft := hother.store.classicQueue (other.limits_classic hconfig)
    rw [hbyHash, hseed] at hleft
    exact hleft.ext (hkept.store.classicQueue (queue.limits_classic hconfig))

theorem Kept.globalFit_eq (hkept : queue.Kept) (hother : other.Kept)
    (hbyHash : other.store.byHash = queue.store.byHash)
    (hseed : other.store.evictionSeed = queue.store.evictionSeed)
    (hops : other.effectiveMaxQueueOps = queue.effectiveMaxQueueOps) (queued : QueuedTransaction)
    (replacedTx : Option QueuedTransaction) (pending : List QueuedTransaction) :
    other.globalFit queued replacedTx pending = queue.globalFit queued replacedTx pending := by
  refine globalFit_congr hbyHash hops (fun ops hsome => ?_) queued replacedTx pending
  have hleft := hother.store.globalQueue (limits_global (hops.trans hsome))
  rw [hbyHash, hseed] at hleft
  exact hleft.ext (hkept.store.globalQueue (limits_global hsome))

theorem Reviewed.seed_eq {before after : TransactionQueue setting}
    (hreviewed : Reviewed before after) : after.store.evictionSeed = before.store.evictionSeed :=
  congrArg (·.store.evictionSeed) hreviewed.same

theorem Kept.distinct_of_laneFit (hkept : queue.Kept) {queued : QueuedTransaction}
    (hfit : queue.laneFit queued replacedTx = some evictions) :
    DistinctHashes (evictions.map (·.1)) := by
  unfold laneFit at hfit
  split at hfit
  · split at hfit
    · cases hfit
      exact .nil
    · next limit hlimit =>
      exact distinct_of_fit (hkept.store.sorobanQueue (limits_soroban hlimit))
        (hkept.store.distinct.filter _) distinctHashes_nil hfit
  · split at hfit
    · cases hfit
      exact .nil
    · next laneConfig hconfig =>
      exact distinct_of_fit (hkept.store.classicQueue (queue.limits_classic hconfig))
        (hkept.store.distinct.filter _) distinctHashes_nil hfit

theorem Kept.checkAndCollectEvictions_eq (hkept : queue.Kept) (queued : QueuedTransaction)
    (replacedTx : Option QueuedTransaction) :
    (queue.checkAndCollectEvictions queued replacedTx).2 = queue.reviewed queued replacedTx ∧
      (queue.checkAndCollectEvictions queued replacedTx).1.thresholds =
        queue.reviewedThresholds queued replacedTx := by
  have hsized := hkept.checkThresholds queued
  have hstay := thresholds_checkThresholds queue queued
  unfold TransactionQueue.checkAndCollectEvictions reviewed reviewedThresholds below
  generalize queue.checkThresholds queued = sized at hsized hstay
  obtain ⟨sized, below⟩ := sized
  cases below with
  | true => exact ⟨rfl, hstay⟩
  | false =>
    simp only [Bool.false_eq_true, if_false]
    obtain ⟨hlanes, hlaneFees⟩ := hsized.kept.collectLaneEvictions_eq queued replacedTx
    have hlaned := (hsized.kept.collectLaneEvictions queued replacedTx).1
    rw [hkept.laneFit_eq hsized.kept hsized.byHash_eq hsized.seed_eq
      hsized.effectiveQueueSorobanResources_eq] at hlanes hlaneFees
    rw [hstay] at hlaneFees
    generalize sized.collectLaneEvictions queued replacedTx = laned at hlanes hlaneFees hlaned
    obtain ⟨laned, laneEvictions⟩ := laned
    cases hfit : queue.laneFit queued replacedTx with
    | none =>
      rw [hfit] at hlanes hlaneFees
      cases hlanes
      exact ⟨rfl, hlaneFees⟩
    | some evictions =>
      rw [hfit] at hlanes hlaneFees
      cases hlanes
      have hreviewed := hsized.trans hlaned
      obtain ⟨hglobal, hglobalFees⟩ := hlaned.kept.collectGlobalEvictions_eq queued replacedTx
        (hkept.distinct_of_laneFit hfit)
      rw [hkept.globalFit_eq hlaned.kept hreviewed.byHash_eq hreviewed.seed_eq
        hreviewed.effectiveMaxQueueOps_eq] at hglobal hglobalFees
      rw [hlaneFees] at hglobalFees
      simp only
      generalize laned.collectGlobalEvictions queued replacedTx (evictions.map (·.1)) = last
        at hglobal hglobalFees
      obtain ⟨last, pending⟩ := last
      cases hmore : queue.globalFit queued replacedTx (evictions.map (·.1)) with
      | none =>
        rw [hmore] at hglobal hglobalFees
        cases hglobal
        exact ⟨rfl, hglobalFees⟩
      | some more =>
        rw [hmore] at hglobal hglobalFees
        cases hglobal
        exact ⟨rfl, hglobalFees⟩

end TransactionQueue

end Henyey.TxQueue
