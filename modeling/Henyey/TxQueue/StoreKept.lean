import Henyey.TxQueue.Lanes

/-!
# What the store keeps

Every insertion and removal keeps the fee index, the eviction queues and the
flood queue in step with the transactions by hash, and no assertion on lane
counts fails.
-/

namespace Henyey.TxQueue

open SurgePricingPriorityQueue List

/-- What submission computed about a queued transaction. -/
structure QueuedTransaction.WellFormed (setting : Setting) (tx : QueuedTransaction) : Prop where
  hash_eq : tx.hash = setting.codec.hashXdr tx.envelope
  totalFee_eq : tx.totalFee = envelopeFee tx.envelope
  totalFee_nonneg : 0 ≤ tx.totalFee
  feeRate_eq : tx.feeRate = ⟨envelopeInclusionFee tx.envelope, envelopeOperationCount tx.envelope⟩
  rated : 0 < tx.feeRate.opCount

/-- The configurations of the eviction queues. -/
structure Limits (setting : Setting) where
  classic : Option (SurgePricingLaneConfig setting.classicDim)
  soroban : Option (SurgePricingLaneConfig 7)
  global : Option (SurgePricingLaneConfig 1)

/-- Limits under which nothing weighs less than nothing. -/
structure Limits.NonNegative {setting : Setting} (limits : Limits setting) : Prop where
  classic : ∀ laneConfig ∈ limits.classic, laneConfig.NonNegative
  soroban : ∀ laneConfig ∈ limits.soroban, laneConfig.NonNegative
  global : ∀ laneConfig ∈ limits.global, laneConfig.NonNegative

section EvictionQueue

variable {d : Nat}

/-- An eviction queue, if it exists, holds these transactions under the current
configuration. -/
def EvictionHolds (queue : Option (SurgePricingPriorityQueue d))
    (laneConfig : Option (SurgePricingLaneConfig d)) (seed ledgerVersion : Nat)
    (txs : List QueuedTransaction) : Prop :=
  ∀ existing ∈ queue, ∃ config ∈ laneConfig, existing.Holds config seed ledgerVersion txs

variable {queue : Option (SurgePricingPriorityQueue d)}
  {laneConfig : Option (SurgePricingLaneConfig d)} {seed ledgerVersion : Nat}
  {txs : List QueuedTransaction} {tx : QueuedTransaction}

theorem evictionHolds_none : EvictionHolds none laneConfig seed ledgerVersion txs :=
  fun _ => nofun

section

variable (hholds : EvictionHolds queue laneConfig seed ledgerVersion txs)
include hholds

theorem EvictionHolds.addTo (hnew : ∀ other ∈ txs, other.hash ≠ tx.hash)
    (hrated : 0 < tx.feeRate.opCount) :
    EvictionHolds (QueueStore.addTo ledgerVersion tx queue) laneConfig seed ledgerVersion
      (tx :: txs) := by
  intro existing hexisting
  obtain ⟨before, hbefore, rfl⟩ := Option.mem_map.mp hexisting
  obtain ⟨config, hconfig, hheld⟩ := hholds before hbefore
  exact ⟨config, hconfig, hheld.add hnew hrated⟩

theorem EvictionHolds.removeFrom (hdistinct : DistinctHashes txs) (htx : tx ∈ txs) :
    EvictionHolds (QueueStore.removeFrom ledgerVersion tx seed queue) laneConfig seed
      ledgerVersion (without tx.hash txs) := by
  intro existing hexisting
  obtain ⟨before, hbefore, rfl⟩ := Option.mem_map.mp hexisting
  obtain ⟨config, hconfig, hheld⟩ := hholds before hbefore
  have herased := hheld.erase hdistinct htx
  rw [← hheld.config_eq] at herased
  exact ⟨config, hconfig, hheld.config_eq ▸ herased⟩

theorem EvictionHolds.removeFromPanics (hnonneg : ∀ config ∈ laneConfig, config.NonNegative)
    (hdistinct : DistinctHashes txs) (htx : tx ∈ txs) :
    QueueStore.removeFromPanics ledgerVersion tx seed queue = false := by
  cases queue with
  | none => rfl
  | some existing =>
    obtain ⟨config, hconfig, hheld⟩ := hholds existing rfl
    have hquiet := hheld.erasePanics_of_mem (hnonneg config hconfig) hdistinct htx
    rw [← hheld.config_eq] at hquiet
    exact hquiet

end

end EvictionQueue

variable {txs : List QueuedTransaction}

theorem filter_without {keep : QueuedTransaction → Bool} {hash : Hash256} :
    (without hash txs).filter keep = without hash (txs.filter keep) := by
  rw [without, without, filter_filter, filter_filter]
  exact filter_congr fun tx _ => Bool.and_comm _ _

theorem without_filter_eq (keep : QueuedTransaction → Bool) {tx : QueuedTransaction}
    (hdistinct : DistinctHashes txs) (htx : tx ∈ txs)
    (hdrop : keep tx = false) : (without tx.hash txs).filter keep = txs.filter keep := by
  rw [filter_without]
  apply without_eq_self
  intro other hother hhash
  obtain ⟨hmem, hkeep⟩ := mem_filter.mp hother
  rw [hdistinct.eq_of_hash hmem htx hhash, hdrop] at hkeep
  cases hkeep

theorem DistinctHashes.filter (hdistinct : DistinctHashes txs)
    (keep : QueuedTransaction → Bool) : DistinctHashes (txs.filter keep) :=
  (filter_sublist.map _).nodup hdistinct

/-- The flood queue holds some of the queued transactions. -/
structure FloodQueue.Floods (flood : FloodQueue) (ledgerVersion : Nat)
    (queued : List QueuedTransaction) (txs : List QueuedTransaction) : Prop where
  holds : flood.queue.Holds (floodLaneConfig flood.hasDexLane) flood.seed ledgerVersion txs
  distinct : DistinctHashes txs
  subset : txs ⊆ queued

namespace FloodQueue

variable {flood : FloodQueue} {ledgerVersion : Nat} {queued txs : List QueuedTransaction}
  {tx : QueuedTransaction}

section

variable (hfloods : flood.Floods ledgerVersion queued txs)
include hfloods

theorem Floods.mono {more : List QueuedTransaction} (hmore : queued ⊆ more) :
    flood.Floods ledgerVersion more txs :=
  ⟨hfloods.holds, hfloods.distinct, fun _ htx => hmore (hfloods.subset htx)⟩

theorem Floods.markForFlood (hdistinct : DistinctHashes queued) (htx : tx ∈ queued)
    (hrated : 0 < tx.feeRate.opCount) :
    ∃ marked, (flood.markForFlood tx ledgerVersion).Floods ledgerVersion queued marked := by
  by_cases hmarked : tx ∈ txs
  · refine ⟨txs, ?_, hfloods.distinct, hfloods.subset⟩
    have hsame := hfloods.holds.add_of_mem hmarked
    simpa only [FloodQueue.markForFlood, hsame] using hfloods.holds
  · have hnew : ∀ other ∈ txs, other.hash ≠ tx.hash := by
      intro other hother hhash
      apply hmarked
      rwa [← hdistinct.eq_of_hash (hfloods.subset hother) htx hhash]
    refine ⟨tx :: txs, hfloods.holds.add hnew hrated, hfloods.distinct.cons hnew, ?_⟩
    exact cons_subset.mpr ⟨htx, hfloods.subset⟩

/-- Removing a transaction leaves only others, and fails no assertion. -/
theorem Floods.remove (hdistinct : DistinctHashes queued) (htx : tx ∈ queued) :
    (flood.remove tx ledgerVersion).Floods ledgerVersion (without tx.hash queued)
        (without tx.hash txs) ∧
      flood.removePanics tx ledgerVersion = false := by
  have hsubset : without tx.hash txs ⊆ without tx.hash queued := by
    intro other hother
    obtain ⟨hmem, hne⟩ := mem_without.mp hother
    exact mem_without.mpr ⟨hfloods.subset hmem, hne⟩
  have hlane : flood.queue.getLane tx.envelope =
      (floodLaneConfig flood.hasDexLane).getLane tx.envelope := by
    rw [getLane, hfloods.holds.config_eq]
  by_cases hmarked : tx ∈ txs
  · have herased := hfloods.holds.erase hfloods.distinct hmarked
    have hquiet := hfloods.holds.erasePanics_of_mem .flood hfloods.distinct hmarked
    rw [← hlane] at herased hquiet
    exact ⟨⟨herased, hfloods.distinct.without _, hsubset⟩, hquiet⟩
  · have hnew : ∀ other ∈ txs, other.hash ≠ tx.hash := by
      intro other hother hhash
      apply hmarked
      rwa [← hdistinct.eq_of_hash (hfloods.subset hother) htx hhash]
    obtain ⟨hsame, hquiet⟩ := hfloods.holds.erase_of_not_mem hnew (flood.queue.getLane tx.envelope)
    refine ⟨⟨?_, hfloods.distinct.without _, hsubset⟩, hquiet⟩
    rw [without_eq_self hnew]
    simpa only [FloodQueue.remove, hsame] using hfloods.holds

end

theorem floods_new (hasDexLane : Bool) (seed ledgerVersion : Nat)
    (queued : List QueuedTransaction) :
    (FloodQueue.new hasDexLane seed).Floods ledgerVersion queued [] :=
  ⟨holds_new _ _ _, .nil, nil_subset _⟩

theorem floods_resetAndRepopulate (flood : FloodQueue) (seed ledgerVersion : Nat)
    {queued others : List QueuedTransaction} (hperm : others.Perm queued)
    (hdistinct : DistinctHashes queued) (hrated : ∀ tx ∈ queued, 0 < tx.feeRate.opCount) :
    (flood.resetAndRepopulate others seed ledgerVersion).Floods ledgerVersion queued others := by
  have hdistinct' : DistinctHashes others := (hperm.map _).nodup_iff.mpr hdistinct
  have hholds := holds_build (floodLaneConfig flood.hasDexLane) seed
    ledgerVersion hdistinct' fun tx htx => hrated tx (hperm.mem_iff.mp htx)
  exact ⟨hholds, hdistinct', hperm.subset⟩

end FloodQueue

namespace QueueStore

variable {setting : Setting}

/-- The store is in step: every structure agrees with the transactions by
hash. -/
structure Kept (store : QueueStore setting) (limits : Limits setting) : Prop where
  distinct : DistinctHashes store.byHash
  wellFormed : ∀ tx ∈ store.byHash, tx.WellFormed setting
  fee_index : store.feeIndex.Perm (store.byHash.map .fromQueued)
  classic : EvictionHolds store.classicEvictionQueue limits.classic store.evictionSeed
    setting.ledgerVersion (store.byHash.filter fun tx => !tx.isSoroban)
  soroban : EvictionHolds store.sorobanEvictionQueue limits.soroban store.evictionSeed
    setting.ledgerVersion (store.byHash.filter fun tx => tx.isSoroban)
  global : EvictionHolds store.globalOpsQueue limits.global store.evictionSeed
    setting.ledgerVersion store.byHash
  flood : ∃ txs, store.floodQueue.Floods setting.ledgerVersion store.byHash txs
  fault_eq : store.fault = false

theorem kept_new (seed floodSeed : Nat) (limits : Limits setting) :
    (new seed floodSeed : QueueStore setting).Kept limits where
  distinct := .nil
  wellFormed := by simp [new]
  fee_index := .nil
  classic := evictionHolds_none
  soroban := evictionHolds_none
  global := evictionHolds_none
  flood := ⟨[], FloodQueue.floods_new _ _ _ _⟩
  fault_eq := rfl

variable {store : QueueStore setting} {limits : Limits setting} {tx : QueuedTransaction}

theorem get_eq_some {hash : Hash256} (hget : store.get hash = some tx) :
    tx ∈ store.byHash ∧ tx.hash = hash :=
  ⟨mem_of_find?_eq_some hget, by simpa using find?_some hget⟩

theorem get_eq_none {hash : Hash256} (hget : store.get hash = none) :
    ∀ tx ∈ store.byHash, tx.hash ≠ hash := by
  simpa using find?_eq_none.mp hget

theorem Kept.eq_of_hash (hkept : store.Kept limits) {other : QueuedTransaction}
    (htx : tx ∈ store.byHash) (hother : other ∈ store.byHash) (hhash : tx.hash = other.hash) :
    tx = other :=
  hkept.distinct.eq_of_hash htx hother hhash

theorem insertFee_perm {entry : FeeEntry} {index : List FeeEntry}
    (hnew : ∀ other ∈ index, other.hash ≠ entry.hash) :
    (insertFee entry index).Perm (entry :: index) := by
  unfold insertFee
  rw [if_neg]
  · exact perm_orderedInsert _ _ _
  · intro hany
    obtain ⟨other, hother, hcmp⟩ := any_eq_true.mp hany
    exact hnew other hother (FeeEntry.hash_eq_of_cmp (of_decide_eq_true hcmp))

theorem Kept.insert (hkept : store.Kept limits) (hwell : tx.WellFormed setting)
    (hnew : ∀ other ∈ store.byHash, other.hash ≠ tx.hash) :
    (store.insert tx).Kept limits ∧ (store.insert tx).byHash = tx :: store.byHash := by
  have hbyHash : (store.insert tx).byHash = tx :: store.byHash :=
    congrArg (tx :: ·) (without_eq_self hnew)
  have hnewIn : ∀ keep : QueuedTransaction → Bool, ∀ other ∈ store.byHash.filter keep,
      other.hash ≠ tx.hash := fun keep other hother => hnew other (mem_filter.mp hother).1
  have hdistinct := hkept.distinct.cons hnew
  refine ⟨⟨?_, ?_, ?_, ?_, ?_, ?_, ?_, hkept.fault_eq⟩, hbyHash⟩
  · rwa [hbyHash]
  · rw [hbyHash]
    exact forall_mem_cons.mpr ⟨hwell, hkept.wellFormed⟩
  · rw [hbyHash]
    refine (insertFee_perm ?_).trans (hkept.fee_index.cons _)
    intro entry hentry
    obtain ⟨other, hother, rfl⟩ := mem_map.mp (hkept.fee_index.mem_iff.mp hentry)
    exact hnew other hother
  · rw [hbyHash]
    cases hkind : tx.isSoroban with
    | true => simpa [QueueStore.insert, hkind] using hkept.classic
    | false => simpa [QueueStore.insert, hkind] using hkept.classic.addTo (hnewIn _) hwell.rated
  · rw [hbyHash]
    cases hkind : tx.isSoroban with
    | true => simpa [QueueStore.insert, hkind] using hkept.soroban.addTo (hnewIn _) hwell.rated
    | false => simpa [QueueStore.insert, hkind] using hkept.soroban
  · rw [hbyHash]
    exact hkept.global.addTo hnew hwell.rated
  · rw [hbyHash]
    obtain ⟨txs, hfloods⟩ := hkept.flood
    exact (hfloods.mono (subset_cons_self _ _)).markForFlood hdistinct
      mem_cons_self hwell.rated

theorem removeFee_perm {txs : List QueuedTransaction} {index : List FeeEntry}
    (hperm : index.Perm (txs.map .fromQueued)) (hdistinct : DistinctHashes txs) (htx : tx ∈ txs) :
    (removeFee (.fromQueued tx) index).Perm ((without tx.hash txs).map .fromQueued) := by
  refine (hperm.filter _).trans ?_
  rw [filter_map]
  refine (List.Perm.of_eq ?_).map _
  refine filter_congr fun other hother => ?_
  have hiff : (FeeEntry.fromQueued other).cmp (.fromQueued tx) ≠ .eq ↔ other.hash ≠ tx.hash := by
    refine not_congr ⟨FeeEntry.hash_eq_of_cmp, fun hhash => ?_⟩
    rw [hdistinct.eq_of_hash hother htx hhash]
    exact FeeEntry.cmp_self _
  exact decide_eq_decide.mpr hiff

@[simp]
theorem removeTx_byHash : (store.removeTx tx).byHash = without tx.hash store.byHash := rfl

section

variable (hkept : store.Kept limits)
include hkept

/-- Taking a stored transaction out. -/
theorem Kept.removeTx (hnonneg : limits.NonNegative)
    (htx : tx ∈ store.byHash) : (store.removeTx tx).Kept limits := by
  obtain ⟨txs, hfloods⟩ := hkept.flood
  obtain ⟨hflood, hfloodQuiet⟩ := hfloods.remove hkept.distinct htx
  have hglobalQuiet := hkept.global.removeFromPanics hnonneg.global hkept.distinct htx
  refine ⟨hkept.distinct.without _, ?_, ?_, ?_, ?_, ?_, ⟨_, hflood⟩, ?_⟩
  · intro other hother
    exact hkept.wellFormed other (mem_without.mp hother).1
  · exact removeFee_perm hkept.fee_index hkept.distinct htx
  · rw [removeTx_byHash]
    cases hkind : tx.isSoroban with
    | true =>
      have hsame := without_filter_eq (fun tx => !tx.isSoroban) hkept.distinct htx
        (by simp [hkind])
      have hclassic := hkept.classic
      rw [← hsame] at hclassic
      simpa [QueueStore.removeTx, hkind] using hclassic
    | false =>
      have hmem : tx ∈ store.byHash.filter fun tx => !tx.isSoroban :=
        mem_filter.mpr ⟨htx, by simp [hkind]⟩
      have hclassic := hkept.classic.removeFrom (hkept.distinct.filter _) hmem
      rw [← filter_without] at hclassic
      simpa [QueueStore.removeTx, hkind] using hclassic
  · rw [removeTx_byHash]
    cases hkind : tx.isSoroban with
    | true =>
      have hmem : tx ∈ store.byHash.filter fun tx => tx.isSoroban :=
        mem_filter.mpr ⟨htx, hkind⟩
      have hsoroban := hkept.soroban.removeFrom (hkept.distinct.filter _) hmem
      rw [← filter_without] at hsoroban
      simpa [QueueStore.removeTx, hkind] using hsoroban
    | false =>
      have hsame := without_filter_eq (fun tx => tx.isSoroban) hkept.distinct htx hkind
      have hsoroban := hkept.soroban
      rw [← hsame] at hsoroban
      simpa [QueueStore.removeTx, hkind] using hsoroban
  · exact hkept.global.removeFrom hkept.distinct htx
  · cases hkind : tx.isSoroban with
    | true =>
      have hmem : tx ∈ store.byHash.filter fun tx => tx.isSoroban :=
        mem_filter.mpr ⟨htx, hkind⟩
      have hquiet := hkept.soroban.removeFromPanics hnonneg.soroban (hkept.distinct.filter _) hmem
      simp [QueueStore.removeTx, hkind, hkept.fault_eq, hquiet, hglobalQuiet, hfloodQuiet]
    | false =>
      have hmem : tx ∈ store.byHash.filter fun tx => !tx.isSoroban :=
        mem_filter.mpr ⟨htx, by simp [hkind]⟩
      have hquiet := hkept.classic.removeFromPanics hnonneg.classic (hkept.distinct.filter _) hmem
      simp [QueueStore.removeTx, hkind, hkept.fault_eq, hquiet, hglobalQuiet, hfloodQuiet]

theorem Kept.remove (hnonneg : limits.NonNegative) (hash : Hash256) :
    (store.remove hash).1.Kept limits ∧
      (store.remove hash).1.byHash = without hash store.byHash := by
  unfold QueueStore.remove
  cases hget : store.get hash with
  | none => exact ⟨hkept, (without_eq_self (get_eq_none hget)).symm⟩
  | some tx =>
    obtain ⟨htx, rfl⟩ := get_eq_some hget
    exact ⟨hkept.removeTx hnonneg htx, rfl⟩

theorem Kept.clearData (seed floodSeed : Nat) (other : Limits setting) :
    ((store.clearData floodSeed).regenerateEvictionSeed seed).Kept other where
  distinct := .nil
  wellFormed := by simp [QueueStore.clearData, regenerateEvictionSeed]
  fee_index := .nil
  classic := evictionHolds_none
  soroban := evictionHolds_none
  global := evictionHolds_none
  flood := ⟨[], FloodQueue.floods_new _ _ _ _⟩
  fault_eq := hkept.fault_eq

theorem Kept.regenerateEvictionSeed (seed : Nat) :
    (store.regenerateEvictionSeed seed).Kept limits :=
  { hkept with
    classic := evictionHolds_none
    soroban := evictionHolds_none
    global := evictionHolds_none }

/-- The flood queue may change on its own, as long as it floods what is
queued. -/
theorem Kept.withFlood {flood : FloodQueue} {txs : List QueuedTransaction}
    (hfloods : flood.Floods setting.ledgerVersion store.byHash txs) :
    ({ store with floodQueue := flood } : QueueStore setting).Kept limits :=
  { hkept with flood := ⟨txs, hfloods⟩ }

end

section Ensured

section

variable (hkept : store.Kept limits)
include hkept

variable {laneConfig : SurgePricingLaneConfig setting.classicDim}

theorem Kept.classicQueue (hconfig : limits.classic = some laneConfig) :
    (store.classicQueue laneConfig).Holds laneConfig store.evictionSeed setting.ledgerVersion
      (store.byHash.filter fun tx => !tx.isSoroban) := by
  unfold QueueStore.classicQueue
  cases hexisting : store.classicEvictionQueue with
  | none =>
    exact holds_build _ _ _ (hkept.distinct.filter _)
      fun tx htx => (hkept.wellFormed tx (mem_filter.mp htx).1).rated
  | some existing =>
    obtain ⟨config, hsame, hholds⟩ := hkept.classic existing hexisting
    cases hconfig.symm.trans hsame
    exact hholds

theorem Kept.sorobanQueue {limit : Resource 7}
    (hconfig : limits.soroban = some (sorobanGenericLaneConfig setting.codec limit)) :
    (store.sorobanQueue limit).Holds (sorobanGenericLaneConfig setting.codec limit)
      store.evictionSeed setting.ledgerVersion (store.byHash.filter fun tx => tx.isSoroban) := by
  unfold QueueStore.sorobanQueue
  cases hexisting : store.sorobanEvictionQueue with
  | none =>
    exact holds_build _ _ _ (hkept.distinct.filter _)
      fun tx htx => (hkept.wellFormed tx (mem_filter.mp htx).1).rated
  | some existing =>
    obtain ⟨config, hsame, hholds⟩ := hkept.soroban existing hexisting
    cases hconfig.symm.trans hsame
    exact hholds

theorem Kept.globalQueue {limit : Int}
    (hconfig : limits.global = some (opsOnlyLaneConfig fun _ => limit)) :
    (store.globalQueue limit).Holds (opsOnlyLaneConfig fun _ => limit) store.evictionSeed
      setting.ledgerVersion store.byHash := by
  unfold QueueStore.globalQueue
  cases hexisting : store.globalOpsQueue with
  | none =>
    exact holds_build _ _ _ hkept.distinct
      fun tx htx => (hkept.wellFormed tx htx).rated
  | some existing =>
    obtain ⟨config, hsame, hholds⟩ := hkept.global existing hexisting
    cases hconfig.symm.trans hsame
    exact hholds

theorem Kept.ensureClassicQueue (hconfig : limits.classic = some laneConfig) :
    (store.ensureClassicQueue laneConfig).Kept limits :=
  { hkept with
    classic := by
      rintro _ ⟨⟩
      exact ⟨laneConfig, hconfig, hkept.classicQueue hconfig⟩ }

theorem Kept.ensureSorobanQueue {limit : Resource 7}
    (hconfig : limits.soroban = some (sorobanGenericLaneConfig setting.codec limit)) :
    (store.ensureSorobanQueue limit).Kept limits :=
  { hkept with
    soroban := by
      rintro _ ⟨⟩
      exact ⟨_, hconfig, hkept.sorobanQueue hconfig⟩ }

theorem Kept.ensureGlobalOpsQueue {limit : Int}
    (hconfig : limits.global = some (opsOnlyLaneConfig fun _ => limit)) :
    (store.ensureGlobalOpsQueue limit).Kept limits :=
  { hkept with
    global := by
      rintro _ ⟨⟩
      exact ⟨_, hconfig, hkept.globalQueue hconfig⟩ }

end

end Ensured

end QueueStore

end Henyey.TxQueue
