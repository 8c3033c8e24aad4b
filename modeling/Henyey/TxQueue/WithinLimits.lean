import Henyey.TxQueue.Fits
import Henyey.TxQueue.Windows

/-!
# Within the limits

With fixed limits the queued transactions are within the limits of their lanes,
of all operations and of the queue size in every state. Admissions make room
first, and everything else only takes transactions out.
-/

namespace Henyey.TxQueue

open List

namespace TransactionQueue

variable {setting : Setting} {queue : TransactionQueue setting}

structure WithinLimits (queue : TransactionQueue setting) : Prop where
  classic : ∀ laneConfig, buildClassicLaneConfig setting = some laneConfig →
    laneConfig.Fits setting.ledgerVersion (queue.store.byHash.filter fun tx => !tx.isSoroban)
  /-- A limit may be negative, and then nothing is queued under it. -/
  soroban : ∀ limit, queue.effectiveQueueSorobanResources = some limit →
    (∃ tx ∈ queue.store.byHash, tx.isSoroban = true) →
    (sorobanGenericLaneConfig setting.codec limit).Fits setting.ledgerVersion
      (queue.store.byHash.filter fun tx => tx.isSoroban)
  global : ∀ ops, queue.effectiveMaxQueueOps = some ops →
    (opsOnlyLaneConfig fun _ => (ops : Int)).Fits setting.ledgerVersion queue.store.byHash
  size : queue.store.len ≤ queue.effectiveMaxSize

/-- Transactions were taken out, and the limits are as before. -/
structure Shrinks (queue after : TransactionQueue setting) : Prop where
  subset : after.store.byHash ⊆ queue.store.byHash
  soroban_eq : after.dynamicQueueSorobanResources = queue.dynamicQueueSorobanResources
  ops_eq : after.dynamicMaxQueueOps = queue.dynamicMaxQueueOps

theorem Shrinks.refl (queue : TransactionQueue setting) : queue.Shrinks queue :=
  ⟨List.Subset.refl _, rfl, rfl⟩

theorem Shrinks.trans {middle after : TransactionQueue setting} (hfirst : queue.Shrinks middle)
    (hsecond : middle.Shrinks after) : queue.Shrinks after :=
  ⟨List.Subset.trans hsecond.subset hfirst.subset, hsecond.soroban_eq.trans hfirst.soroban_eq,
    hsecond.ops_eq.trans hfirst.ops_eq⟩

theorem WithinLimits.shrink (hlimits : queue.WithinLimits) {after : TransactionQueue setting}
    (hafter : after.Kept) (hshrinks : queue.Shrinks after) : after.WithinLimits := by
  obtain ⟨hsubset, hsoroban, hops⟩ := hshrinks
  have hsubperm : after.store.byHash.Subperm queue.store.byHash :=
    subperm_of_subset hafter.store.distinct.nodup hsubset
  refine ⟨fun laneConfig hconfig => ?_, fun limit hlimit hsome => ?_, fun ops hlimit => ?_, ?_⟩
  · have hnonneg := queue.limits_nonNegative.classic laneConfig (queue.limits_classic hconfig)
    exact (hlimits.classic laneConfig hconfig).of_subperm hnonneg (hsubperm.filter _)
  · rw [effectiveQueueSorobanResources, hsoroban] at hlimit
    obtain ⟨tx, htx, hkind⟩ := hsome
    exact (hlimits.soroban limit hlimit ⟨tx, hsubset htx, hkind⟩).of_subperm .soroban
      (hsubperm.filter _)
  · rw [effectiveMaxQueueOps, hops] at hlimit
    exact (hlimits.global ops hlimit).of_subperm .ops hsubperm
  · have hsize := hlimits.size
    rw [effectiveMaxSize, hops]
    exact hsubperm.length_le.trans hsize

theorem buildClassicLaneConfig_limits {laneConfig : SurgePricingLaneConfig setting.classicDim}
    (hconfig : buildClassicLaneConfig setting = some laneConfig) :
    ∀ limit ∈ laneConfig.laneLimits, 0 ≤ limit := by
  unfold buildClassicLaneConfig at hconfig
  split at hconfig
  · cases hconfig
  · cases hconfig
    intro limit hlimit i
    rcases mem_cons.mp hlimit with rfl | hdex
    · simp only [Pi.zero_apply]
      split
      · exact Int.le_of_lt (by decide +revert)
      · exact Int.natCast_nonneg _
    · obtain ⟨dexOps, hops, rfl⟩ := Option.map_eq_some_iff.mp (Option.mem_toList.mp hdex)
      obtain ⟨ops, -, heq⟩ := Option.bind_eq_some_iff.mp hops
      obtain rfl : (ops : Int) = dexOps := Option.some.inj heq
      simp only [Pi.zero_apply]
      split <;> exact Int.natCast_nonneg _

theorem opsOnly_limits (ops : Nat) :
    ∀ limit ∈ (opsOnlyLaneConfig fun _ => (ops : Int)).laneLimits, 0 ≤ limit := by
  intro limit hlimit i
  rw [mem_singleton.mp hlimit]
  exact Int.natCast_nonneg _

theorem withinLimits_of_empty (hempty : queue.store.byHash = []) : queue.WithinLimits where
  classic laneConfig hconfig := by
    rw [hempty]
    exact SurgePricingLaneConfig.fits_nil (buildClassicLaneConfig_limits hconfig)
  soroban _ _ hsome := by
    obtain ⟨tx, htx, -⟩ := hsome
    rw [hempty] at htx
    cases htx
  global ops _ := by
    rw [hempty]
    exact SurgePricingLaneConfig.fits_nil (opsOnly_limits ops)
  size := by
    rw [QueueStore.len, hempty]
    exact Nat.zero_le _

theorem Admitted.mem_after {call : Call} {env : TransactionEnvelope} {queued : QueuedTransaction}
    {replacedTx : Option QueuedTransaction} {pending : List QueuedTransaction}
    {roomy : TransactionQueue setting} (hkept : queue.Kept)
    (hadmitted : queue.Admitted call env queued replacedTx pending roomy) {tx : QueuedTransaction}
    (htx : tx ∈ (((roomy.commitEvictions pending).removeReplaced queued replacedTx).enter queued
      replacedTx).store.byHash) :
    tx = queued ∨ tx ∈ roomy.store.byHash ∧ tx.hash ∉ replacedTx.toList.map (·.hash) ∧
      tx.hash ∉ pending.map (·.hash) := by
  rcases ((hadmitted.result hkept).2 tx).mp htx with rfl | ⟨⟨hroomy, hfree⟩, haccount⟩
  · exact .inl rfl
  · refine .inr ⟨hroomy, fun hreplaced => haccount ?_, hfree⟩
    have hqueued := (hadmitted.roomy_kept hkept).2.1 hroomy
    obtain ⟨oldTx, hold, hhash⟩ := mem_map.mp hreplaced
    rw [Option.mem_toList, replacedTx_eq hadmitted.screened.account] at hold
    obtain ⟨holdMem, holdAccount⟩ := (hkept.in_sync _ _).mp hold
    rw [← hkept.store.eq_of_hash holdMem hqueued hhash, holdAccount]

/-- The replaced transaction is queued for the newcomer's account, of the
newcomer's kind and with its sequence number, and the newcomer is a fee bump
that bids enough more. -/
theorem replaced_of_checkAccountLimit (hkept : queue.Kept) {queued oldTx : QueuedTransaction}
    (haccount : queue.checkAccountLimit queued = .ok (some oldTx)) :
    (oldTx ∈ queue.store.byHash ∧ oldTx.account = queued.account ∧
      oldTx.sequenceNumber = queued.sequenceNumber) ∧
      oldTx.isSoroban = queued.isSoroban ∧ isFeeBumpEnvelope queued.envelope = true ∧
      canReplaceByFee queued.feeRate oldTx.feeRate = .ok () := by
  have hold := (hkept.in_sync _ _).mp (replacedTx_eq haccount).symm
  unfold checkAccountLimit at haccount
  split at haccount
  · cases haccount
  · split at haccount
    · next current hcurrent =>
      split at haccount
      · cases haccount
      · split at haccount
        · cases haccount
        · next hkind =>
          split at haccount
          · cases haccount
          · split at haccount
            · cases haccount
            · next hbump =>
              split at haccount
              · cases haccount
              · next hsequence =>
                split at haccount
                · cases haccount
                · next hreplace =>
                  cases haccount
                  exact ⟨⟨hold.1, hold.2, (not_not.mp hsequence).symm⟩, not_not.mp hkind,
                    by simpa using hbump, hreplace⟩
    · split at haccount <;> cases haccount

section Fit

variable {d : Nat} {evictionQueue : SurgePricingPriorityQueue d}
  {laneConfig : SurgePricingLaneConfig d} {txs pending : List QueuedTransaction}
  {queued : QueuedTransaction} {replacedTx : Option QueuedTransaction}
  {evictions : List (QueuedTransaction × Bool)}

/-- A fit check over these transactions, without the replaced one and what is
pending. -/
structure Checks (queue : TransactionQueue setting) (evictionQueue : SurgePricingPriorityQueue d)
    (laneConfig : SurgePricingLaneConfig d) (txs : List QueuedTransaction)
    (replacedTx : Option QueuedTransaction) (pending : List QueuedTransaction) : Prop where
  holds : evictionQueue.Holds laneConfig queue.store.evictionSeed setting.ledgerVersion txs
  nonneg : laneConfig.NonNegative
  laned : laneConfig.Laned
  distinct : DistinctHashes queue.store.byHash
  sublist : txs.Sublist queue.store.byHash
  excluded : replacedTx.toList ++ pending ⊆ txs
  nodup : DistinctHashes (replacedTx.toList ++ pending)

section

variable (hchecks : queue.Checks evictionQueue laneConfig txs replacedTx pending)
include hchecks

theorem Checks.distinct_txs : DistinctHashes txs :=
  hchecks.distinct.of_subperm hchecks.sublist.subperm

theorem Checks.excludes :
    (buildEvictionExclusion evictionQueue queue.store.byHash replacedTx (pending.map (·.hash))
      setting.ledgerVersion).Excludes laneConfig setting.ledgerVersion
        (replacedTx.toList ++ pending) := by
  apply SurgePricingPriorityQueue.excludes_buildEvictionExclusion hchecks.holds.config_eq
    hchecks.distinct _ _ hchecks.nodup
  intro tx htx
  exact hchecks.sublist.subset (hchecks.excluded (mem_append_right _ htx))

section

variable (hfit : queue.fit evictionQueue queued replacedTx pending = some evictions)
include hfit

theorem Checks.mem_of_fit :
    ∀ tx ∈ evictions.map (·.1),
      tx ∈ txs ∧ tx.hash ∉ (replacedTx.toList ++ pending).map (·.hash) := by
  intro tx htx
  obtain ⟨evicted, hevicted, rfl⟩ := mem_map.mp htx
  obtain ⟨hheld, hfree, -, -⟩ := hchecks.holds.yields_of_canFitWithEviction hfit evicted hevicted
  exact ⟨hheld, fun hhash => hfree ((hchecks.excludes.hashes _).mpr hhash)⟩

theorem Checks.fits_of_fit (hlanes : ∀ lane < laneConfig.laneLimits.length, lane ≠ genericLane →
      laneConfig.laneWeight setting.ledgerVersion txs lane ≤ laneConfig.limit lane)
    {after : List QueuedTransaction} (hafter : DistinctHashes after)
    (hmem : ∀ tx ∈ after, tx = queued ∨ tx ∈ txs ∧
      tx.hash ∉ (replacedTx.toList ++ pending).map (·.hash) ∧
      tx.hash ∉ (evictions.map (·.1)).map (·.hash)) :
    laneConfig.Fits setting.ledgerVersion after :=
  hchecks.holds.fits_of_canFitWithEviction hchecks.nonneg hchecks.laned hchecks.distinct_txs
    hchecks.nodup hchecks.excluded hchecks.excludes hfit hlanes hafter hmem

theorem Checks.spared_of_fits (hfits : laneConfig.Fits setting.ledgerVersion
      (queued :: withoutAll ((replacedTx.toList ++ pending).map (·.hash)) txs)) :
    evictions = [] :=
  hchecks.holds.spared_of_fits hchecks.nonneg hchecks.laned hchecks.distinct_txs hchecks.nodup
    hchecks.excluded hchecks.excludes hfit hfits

end

end

end Fit

def ofKind (queue : TransactionQueue setting) (isSoroban : Bool) : List QueuedTransaction :=
  queue.store.byHash.filter fun tx => tx.isSoroban = isSoroban

section Passes

variable {queued : QueuedTransaction} {replacedTx : Option QueuedTransaction}
  (hkept : queue.Kept) (haccount : queue.checkAccountLimit queued = .ok replacedTx)

include hkept haccount

theorem replaced_subset :
    replacedTx.toList ⊆ queue.ofKind queued.isSoroban ∧ DistinctHashes replacedTx.toList := by
  cases replacedTx with
  | none => exact ⟨nil_subset _, .nil⟩
  | some oldTx =>
    obtain ⟨⟨hmem, -, -⟩, hkind, -, -⟩ := replaced_of_checkAccountLimit hkept haccount
    refine ⟨fun tx htx => ?_, nodup_singleton _⟩
    rw [mem_singleton.mp htx, ofKind]
    exact mem_filter.mpr ⟨hmem, decide_eq_true hkind⟩

theorem checks_soroban {limit : Resource 7}
    (hlimit : queue.effectiveQueueSorobanResources = some limit) (hkind : queued.isSoroban = true) :
    queue.Checks (queue.store.sorobanQueue limit) (sorobanGenericLaneConfig setting.codec limit)
      (queue.store.byHash.filter fun tx => tx.isSoroban) replacedTx [] := by
  obtain ⟨hsubset, hnodup⟩ := replaced_subset hkept haccount
  refine ⟨hkept.store.sorobanQueue (limits_soroban hlimit), .soroban, .soroban,
    hkept.store.distinct, filter_sublist, ?_, by rwa [append_nil]⟩
  rw [append_nil]
  simpa [ofKind, hkind] using hsubset

theorem checks_classic {laneConfig : SurgePricingLaneConfig setting.classicDim}
    (hconfig : buildClassicLaneConfig setting = some laneConfig)
    (hkind : queued.isSoroban = false) :
    queue.Checks (queue.store.classicQueue laneConfig) laneConfig
      (queue.store.byHash.filter fun tx => !tx.isSoroban) replacedTx [] := by
  obtain ⟨hsubset, hnodup⟩ := replaced_subset hkept haccount
  have hlaned : laneConfig.Laned := by
    unfold buildClassicLaneConfig at hconfig
    split at hconfig
    · cases hconfig
    · cases hconfig
      exact .dex
  refine ⟨hkept.store.classicQueue (queue.limits_classic hconfig),
    queue.limits_nonNegative.classic laneConfig (queue.limits_classic hconfig), hlaned,
    hkept.store.distinct, filter_sublist, ?_, by rwa [append_nil]⟩
  rw [append_nil]
  simpa [ofKind, hkind] using hsubset

variable {evictions : List (QueuedTransaction × Bool)}

/-- The lane pass takes transactions of the newcomer's kind, not the replaced
one. -/
theorem mem_of_laneFit (hfit : queue.laneFit queued replacedTx = some evictions) :
    ∀ tx ∈ evictions.map (·.1),
      tx ∈ queue.store.byHash ∧ tx.hash ∉ replacedTx.toList.map (·.hash) := by
  unfold laneFit at hfit
  split at hfit
  · next hkind =>
    split at hfit
    · cases hfit
      exact fun _ => nofun
    · next limit hlimit =>
      intro tx htx
      obtain ⟨hheld, hfree⟩ :=
        (checks_soroban hkept haccount hlimit hkind).mem_of_fit hfit tx htx
      rw [append_nil] at hfree
      exact ⟨(mem_filter.mp hheld).1, hfree⟩
  · next hkind =>
    split at hfit
    · cases hfit
      exact fun _ => nofun
    · next laneConfig hconfig =>
      intro tx htx
      obtain ⟨hheld, hfree⟩ := (checks_classic hkept haccount hconfig
        (Bool.not_eq_true _ ▸ hkind)).mem_of_fit hfit tx htx
      rw [append_nil] at hfree
      exact ⟨(mem_filter.mp hheld).1, hfree⟩

theorem checks_global {ops : Nat} (hops : queue.effectiveMaxQueueOps = some ops)
    (hfit : queue.laneFit queued replacedTx = some evictions) :
    queue.Checks (queue.store.globalQueue ops) (opsOnlyLaneConfig fun _ => (ops : Int))
      queue.store.byHash replacedTx (evictions.map (·.1)) := by
  obtain ⟨hsubset, hnodup⟩ := replaced_subset hkept haccount
  have hmem := mem_of_laneFit hkept haccount hfit
  refine ⟨hkept.store.globalQueue (limits_global hops), .ops, .ops, hkept.store.distinct,
    List.Sublist.refl _, append_subset.mpr ⟨?_, fun tx htx => (hmem tx htx).1⟩, ?_⟩
  · exact List.Subset.trans hsubset filter_sublist.subset
  · unfold DistinctHashes
    rw [map_append]
    refine nodup_append.mpr ⟨hnodup, hkept.distinct_of_laneFit hfit, ?_⟩
    rintro hash hhash _ hother rfl
    obtain ⟨tx, htx, rfl⟩ := mem_map.mp hother
    exact (hmem tx htx).2 hhash

end Passes

variable {replacedTx : Option QueuedTransaction} {pending : List QueuedTransaction}

theorem Kept.fits_of_collected (hkept : queue.Kept) {queued : QueuedTransaction}
    (hcollected : (queue.checkAndCollectEvictions queued replacedTx).2 = .ok pending) :
    ∃ evictions more, queue.laneFit queued replacedTx = some evictions ∧
      queue.globalFit queued replacedTx (evictions.map (·.1)) = some more ∧
      pending = evictions.map (·.1) ++ more.map (·.1) := by
  rw [(hkept.checkAndCollectEvictions_eq queued replacedTx).1] at hcollected
  unfold reviewed at hcollected
  split at hcollected
  · cases hcollected
  · split at hcollected
    · cases hcollected
    · next evictions hfit =>
      split at hcollected
      · cases hcollected
      · next more hmore =>
        cases hcollected
        exact ⟨evictions, more, hfit, hmore, rfl⟩

theorem Kept.distinct_of_collected (hkept : queue.Kept) {queued : QueuedTransaction}
    (hcollected : (queue.checkAndCollectEvictions queued replacedTx).2 = .ok pending) :
    DistinctHashes pending := by
  obtain ⟨evictions, more, hfit, hmore, rfl⟩ := hkept.fits_of_collected hcollected
  have hdistinct := hkept.distinct_of_laneFit hfit
  unfold globalFit at hmore
  split at hmore
  · cases hmore
    simpa using hdistinct
  · next ops hops =>
    exact distinct_of_fit (hkept.store.globalQueue (limits_global hops)) hkept.store.distinct
      hdistinct hmore

section Admission

variable {call : Call} {env : TransactionEnvelope} {queued : QueuedTransaction}
  {replacedTx : Option QueuedTransaction} {pending : List QueuedTransaction}
  {roomy : TransactionQueue setting}

/-- The queue that an admission leaves. -/
def withAdmitted (roomy : TransactionQueue setting) (pending : List QueuedTransaction)
    (queued : QueuedTransaction) (replacedTx : Option QueuedTransaction) :
    TransactionQueue setting :=
  ((roomy.commitEvictions pending).removeReplaced queued replacedTx).enter queued replacedTx

section

variable (hkept : queue.Kept) (hadmitted : queue.Admitted call env queued replacedTx pending roomy)
include hkept hadmitted

/-- What is kept of one kind: the newcomer, if it is of that kind, and what was
there. -/
theorem mem_filter_after (keep : QueuedTransaction → Bool) :
    ∀ tx ∈ (withAdmitted roomy pending queued replacedTx).store.byHash.filter keep,
      tx = queued ∨ tx ∈ queue.store.byHash.filter keep ∧
        tx.hash ∉ replacedTx.toList.map (·.hash) ∧ tx.hash ∉ pending.map (·.hash) := by
  intro tx htx
  obtain ⟨hafter, hkeep⟩ := mem_filter.mp htx
  rcases hadmitted.mem_after hkept hafter with hsame | ⟨hroomy, hreplaced, hfree⟩
  · exact .inl hsame
  · have hbefore := (hadmitted.roomy_kept hkept).2.1 hroomy
    exact .inr ⟨mem_filter.mpr ⟨hbefore, hkeep⟩, hreplaced, hfree⟩

/-- Nothing new of a kind that the newcomer is not of. -/
theorem filter_after_subperm (keep : QueuedTransaction → Bool) (hother : keep queued = false) :
    ((withAdmitted roomy pending queued replacedTx).store.byHash.filter keep).Subperm
      (queue.store.byHash.filter keep) := by
  have hafter := (hadmitted.result hkept).1
  apply subperm_of_subset (hafter.store.distinct.nodup.filter _)
  intro tx htx
  rcases mem_filter_after hkept hadmitted keep tx htx with rfl | ⟨hbefore, -, -⟩
  · rw [(mem_filter.mp htx).2] at hother
    cases hother
  · exact hbefore

theorem Admitted.caps_eq :
    (withAdmitted roomy pending queued replacedTx).dynamicQueueSorobanResources =
        queue.dynamicQueueSorobanResources ∧
      (withAdmitted roomy pending queued replacedTx).dynamicMaxQueueOps = queue.dynamicMaxQueueOps := by
  have hreviewed := (hkept.checkAndCollectEvictions queued replacedTx).1
  have hsoroban : (queue.checkAndCollectEvictions queued replacedTx).1.dynamicQueueSorobanResources =
      queue.dynamicQueueSorobanResources :=
    congrArg (·.dynamicQueueSorobanResources) hreviewed.same
  have hops : (queue.checkAndCollectEvictions queued replacedTx).1.dynamicMaxQueueOps =
      queue.dynamicMaxQueueOps := congrArg (·.dynamicMaxQueueOps) hreviewed.same
  rcases ensureQueueCapacity_cases hadmitted.capacity with ⟨-, rfl⟩ | ⟨-, victim, -, rfl⟩
  · cases replacedTx <;> exact ⟨hsoroban, hops⟩
  · cases replacedTx <;> exact ⟨hsoroban, hops⟩

theorem Admitted.size_le (hsize : queue.store.len ≤ queue.effectiveMaxSize) :
    (withAdmitted roomy pending queued replacedTx).store.len ≤ queue.effectiveMaxSize := by
  have hreviewed := (hkept.checkAndCollectEvictions queued replacedTx).1
  have hbyHash := hreviewed.byHash_eq
  have hmax : (queue.checkAndCollectEvictions queued replacedTx).1.effectiveMaxSize =
      queue.effectiveMaxSize := (congrArg effectiveMaxSize hreviewed.same :)
  have hafter := (hadmitted.result hkept).1.store.distinct.nodup
  -- the newcomer takes one place besides what stays
  have hcount : ∀ left : List QueuedTransaction,
      (∀ tx, tx ∈ roomy.store.byHash → tx.hash ∉ pending.map (·.hash) → tx ∈ left) →
      (withAdmitted roomy pending queued replacedTx).store.byHash.length ≤ left.length + 1 := by
    intro left hleft
    have hsubperm :
        (withAdmitted roomy pending queued replacedTx).store.byHash.Subperm (queued :: left) := by
      apply subperm_of_subset hafter
      intro tx htx
      rcases hadmitted.mem_after hkept htx with rfl | ⟨hbefore, -, hfree⟩
      · exact mem_cons_self
      · exact mem_cons_of_mem _ (hleft tx hbefore hfree)
    exact hsubperm.length_le
  rw [QueueStore.len] at hsize ⊢
  rcases ensureQueueCapacity_cases hadmitted.capacity with
    ⟨hroom, rfl⟩ | ⟨hfull, victim, hvictim, rfl⟩
  · have hevictable := (hkept.checkAndCollectEvictions queued replacedTx).2 pending
      hadmitted.collected
    have hperm := perm_append_withoutAll hkept.store.distinct
      (hkept.distinct_of_collected hadmitted.collected) fun tx htx => (hevictable tx htx).mem
    have hplaces := hcount (withoutAll (pending.map (·.hash)) queue.store.byHash)
      fun tx hbefore hfree => mem_withoutAll.mpr ⟨hbyHash ▸ hbefore, hfree⟩
    have hsplit := hperm.length_eq
    rw [length_append] at hsplit
    rw [QueueStore.len, hbyHash, hmax] at hroom
    omega
  · have hheld := mem_of_capacityVictim hvictim
    rw [hbyHash] at hheld
    have hperm := perm_cons_without hkept.store.distinct hheld
    have hplaces := hcount (without victim.hash queue.store.byHash) fun tx hbefore _ => by
      rwa [hreviewed.kept.byHash_evict, hbyHash] at hbefore
    have hsplit := hperm.length_eq
    rw [length_cons] at hsplit
    omega

theorem Admitted.withinLimits
    (hlimits : queue.WithinLimits) : (withAdmitted roomy pending queued replacedTx).WithinLimits := by
  obtain ⟨hafter, -⟩ := hadmitted.result hkept
  obtain ⟨hsoroban, hops⟩ := hadmitted.caps_eq hkept
  obtain ⟨evictions, more, hfit, hmore, rfl⟩ := hkept.fits_of_collected hadmitted.collected
  have haccount := hadmitted.screened.account
  refine ⟨fun laneConfig hconfig => ?_, fun limit hlimit hsome => ?_, fun ops hlimit => ?_, ?_⟩
  · have hbefore := hlimits.classic laneConfig hconfig
    cases hkind : queued.isSoroban with
    | true =>
      have hnonneg := queue.limits_nonNegative.classic laneConfig (queue.limits_classic hconfig)
      exact hbefore.of_subperm hnonneg (filter_after_subperm hkept hadmitted _ (by simp [hkind]))
    | false =>
      unfold laneFit at hfit
      simp only [hkind, Bool.false_eq_true, if_false, hconfig] at hfit
      apply (checks_classic hkept haccount hconfig hkind).fits_of_fit hfit
        (fun lane hlane _ => hbefore.lane lane hlane) (hafter.store.distinct.filter _)
      intro tx htx
      rcases mem_filter_after hkept hadmitted _ tx htx with hsame | ⟨hbefore, hreplaced, hfree⟩
      · exact .inl hsame
      · rw [map_append, mem_append, not_or] at hfree
        rw [append_nil]
        exact .inr ⟨hbefore, hreplaced, hfree.1⟩
  · rw [effectiveQueueSorobanResources, hsoroban] at hlimit
    cases hkind : queued.isSoroban with
    | true =>
      unfold laneFit at hfit
      rw [if_pos hkind, show queue.effectiveQueueSorobanResources = some limit from hlimit] at hfit
      apply (checks_soroban hkept haccount hlimit hkind).fits_of_fit hfit
        (fun lane hlane hspecial => absurd (Nat.lt_one_iff.mp hlane) hspecial)
        (hafter.store.distinct.filter _)
      intro tx htx
      rcases mem_filter_after hkept hadmitted _ tx htx with hsame | ⟨hbefore, hreplaced, hfree⟩
      · exact .inl hsame
      · rw [map_append, mem_append, not_or] at hfree
        rw [append_nil]
        exact .inr ⟨hbefore, hreplaced, hfree.1⟩
    | false =>
      have hsubperm := filter_after_subperm hkept hadmitted (fun tx => tx.isSoroban) hkind
      obtain ⟨tx, htx, hsoroban⟩ := hsome
      have hbefore := hsubperm.subset (mem_filter.mpr ⟨htx, hsoroban⟩)
      exact (hlimits.soroban limit hlimit ⟨tx, (mem_filter.mp hbefore).1, hsoroban⟩).of_subperm
        .soroban hsubperm
  · rw [effectiveMaxQueueOps, hops] at hlimit
    have hglobal : queue.effectiveMaxQueueOps = some ops := hlimit
    unfold globalFit at hmore
    rw [hglobal] at hmore
    apply (checks_global hkept haccount hglobal hfit).fits_of_fit hmore
      (fun lane hlane hspecial => absurd (Nat.lt_one_iff.mp hlane) hspecial) hafter.store.distinct
    intro tx htx
    rcases hadmitted.mem_after hkept htx with hsame | ⟨hroomy, hreplaced, hfree⟩
    · exact .inl hsame
    · have hbefore := (hadmitted.roomy_kept hkept).2.1 hroomy
      rw [map_append, mem_append, not_or] at hfree
      rw [map_append, mem_append, not_or]
      exact .inr ⟨hbefore, ⟨hreplaced, hfree.1⟩, hfree.2⟩
  · have hsize := hadmitted.size_le hkept hlimits.size
    rwa [effectiveMaxSize, hops]

end

end Admission

end TransactionQueue

end Henyey.TxQueue
