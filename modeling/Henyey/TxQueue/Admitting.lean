import Henyey.TxQueue.WithinLimits

/-!
# What admission promises

In every run under fixed limits an admission leaves the queue within its
limits. The passes evict, and ban, only cheaper transactions of other accounts,
and nothing where the newcomer fits; a fee bump replaces only what it outbids.
The size cap takes a transaction of its own choice, without a ban and without
regard to the one that is replaced.
-/

namespace Henyey.TxQueue

open List

namespace TransactionQueue

variable {setting : Setting} {queue : TransactionQueue setting}

theorem shrinks_foldl {α β : Type} (view : β → TransactionQueue setting) {step : β → α → β}
    (hstep : ∀ state item, (view state).Shrinks (view (step state item))) (items : List α)
    (state : β) : (view state).Shrinks (view (items.foldl step state)) := by
  induction items generalizing state with
  | nil => exact .refl _
  | cons item rest ih => exact (hstep state item).trans (ih (step state item))

theorem remove_subset (store : QueueStore setting) (hash : Hash256) :
    (store.remove hash).1.byHash ⊆ store.byHash := by
  unfold QueueStore.remove
  split
  · exact List.Subset.refl _
  · exact fun tx htx => (mem_without.mp htx).1

theorem shrinks_dropAll (queue : TransactionQueue setting) (hashes : List Hash256) :
    queue.Shrinks (queue.dropAll hashes) := by
  have hdropped : queue.Shrinks (hashes.foldl dropOne queue) := by
    refine shrinks_foldl id (fun state hash => ?_) hashes queue
    unfold id dropOne
    split
    · exact .refl _
    · exact ⟨fun tx htx => (mem_without.mp htx).1, rfl, rfl⟩
  exact hdropped.trans ⟨List.Subset.refl _, rfl, rfl⟩

theorem shrinks_ban (queue : TransactionQueue setting) (hashes : List Hash256) :
    queue.Shrinks (queue.ban hashes) := by
  unfold ban
  split
  · exact .refl _
  · have hdropped := shrinks_dropAll { queue with
      bannedTransactions := banInto hashes.toFinset queue.bannedTransactions } hashes
    exact ⟨hdropped.subset, hdropped.soroban_eq, hdropped.ops_eq⟩

theorem shrinks_applyOne (pass : AppliedPass setting) (applied : TransactionEnvelope × Int) :
    pass.queue.Shrinks (applyOne pass applied).queue := by
  unfold applyOne
  simp only
  split
  · exact ⟨List.Subset.refl _, rfl, rfl⟩
  · exact ⟨remove_subset _ _, rfl, rfl⟩

theorem shrinks_removeApplied (queue : TransactionQueue setting)
    (appliedTxs : List (TransactionEnvelope × Int)) :
    queue.Shrinks (queue.removeApplied appliedTxs) := by
  unfold removeApplied
  split
  · exact .refl _
  · have hpass := shrinks_foldl AppliedPass.queue shrinks_applyOne appliedTxs ⟨queue, [], []⟩
    exact hpass.trans ⟨List.Subset.refl _, rfl, rfl⟩

theorem shrinks_shiftAccount (pass : ShiftPass setting) (account : AccountKey) :
    pass.queue.Shrinks (shiftAccount pass account).queue := by
  unfold shiftAccount
  split
  · exact .refl _
  · split
    · exact .refl _
    · simp only
      split
      · refine ⟨List.Subset.trans (remove_subset _ _) ?_, rfl, rfl⟩
        split <;> exact List.Subset.refl _
      · refine ⟨?_, rfl, rfl⟩
        change QueueStore.byHash (ite _ _ _) ⊆ _
        split <;> exact List.Subset.refl _

theorem shrinks_shift (queue : TransactionQueue setting) (accounts : List AccountKey)
    (seed : Nat) : queue.Shrinks (queue.shift accounts seed).1 := by
  have hpass := shrinks_foldl ShiftPass.queue shrinks_shiftAccount accounts
    ⟨{ queue with bannedTransactions := queue.bannedTransactions.tail ++ [∅] }, [], [], []⟩
  exact ⟨hpass.subset, hpass.soroban_eq, hpass.ops_eq⟩

theorem shrinks_dropStalePending (queue : TransactionQueue setting) (account : AccountKey)
    (onLedgerSeq : Int) : queue.Shrinks (queue.dropStalePending account onLedgerSeq).1 := by
  unfold dropStalePending
  split
  · exact .refl _
  · split
    · exact .refl _
    · split
      · exact .refl _
      · exact ⟨remove_subset _ _, rfl, rfl⟩

theorem shrinks_broadcastWithVisitor (queue : TransactionQueue setting) (opsBudget : Nat)
    (dexOpsBudget : Option Nat) (dampened : QueuedTransaction → Bool)
    (visitor : QueuedTransaction → VisitTxResult) :
    queue.Shrinks (queue.broadcastWithVisitor opsBudget dexOpsBudget dampened visitor) := by
  unfold broadcastWithVisitor
  exact ⟨(shrinks_ban _ _).subset, (shrinks_ban _ _).soroban_eq, (shrinks_ban _ _).ops_eq⟩

theorem Kept.withinLimits_tryAdd (hkept : queue.Kept) (hlimits : queue.WithinLimits) (call : Call)
    (env : TransactionEnvelope) : (queue.tryAdd call env).1.WithinLimits := by
  rcases queue.tryAdd_cases call env with ⟨result, -, -, heq⟩ |
    ⟨queued, replacedTx, result, -, -, heq⟩ | ⟨queued, replacedTx, pending, roomy, hadmitted, heq⟩
  · rw [heq]
    exact hlimits
  · have hreviewed := (hkept.checkAndCollectEvictions queued replacedTx).1
    rw [heq]
    exact hlimits.shrink hreviewed.kept ⟨hreviewed.byHash_eq ▸ List.Subset.refl _,
      congrArg (·.dynamicQueueSorobanResources) hreviewed.same,
      congrArg (·.dynamicMaxQueueOps) hreviewed.same⟩
  · rw [heq]
    exact hadmitted.withinLimits hkept hlimits

theorem Kept.withinLimits_tryAddAll (hkept : queue.Kept) (hlimits : queue.WithinLimits)
    (calls : List (Call × TransactionEnvelope)) : (queue.tryAddAll calls).1.WithinLimits := by
  induction calls generalizing queue with
  | nil => exact hlimits
  | cons head rest ih =>
    exact ih (hkept.tryAdd head.1 head.2) (hkept.withinLimits_tryAdd hlimits head.1 head.2)

end TransactionQueue

def Op.KeepsLimits : Op → Prop
  | updateClassicQueueCapacity _ => False
  | updateSorobanResourceLimits _ => False
  | _ => True

namespace TransactionQueue

variable {setting : Setting} {queue : TransactionQueue setting}

theorem Kept.withinLimits_run (hkept : queue.Kept) (hlimits : queue.WithinLimits) {op : Op}
    (hfixed : op.KeepsLimits) : (op.run queue).WithinLimits := by
  cases op with
  | tryAdd call env => exact hkept.withinLimits_tryAdd hlimits call env
  | ban hashes => exact hlimits.shrink (hkept.ban hashes) (queue.shrinks_ban hashes)
  | removeApplied appliedTxs =>
    exact hlimits.shrink (hkept.removeApplied appliedTxs) (queue.shrinks_removeApplied appliedTxs)
  | shift accounts seed =>
    exact hlimits.shrink (hkept.shift accounts seed) (queue.shrinks_shift accounts seed)
  | evictExpired now => exact hlimits.shrink (hkept.evictExpired now) (queue.shrinks_dropAll _)
  | clear seed floodSeed => exact withinLimits_of_empty rfl
  | resetAndRebuild iteration calls seed floodSeed =>
    have hcleared : ({ queue.clear seed floodSeed with seen := ∅ } :
        TransactionQueue setting).Kept := (hkept.clear seed floodSeed).of_same rfl rfl rfl
    exact hcleared.withinLimits_tryAddAll (withinLimits_of_empty rfl) _
  | dropStalePending account onLedgerSeq =>
    exact hlimits.shrink (hkept.dropStalePending account onLedgerSeq)
      (queue.shrinks_dropStalePending account onLedgerSeq)
  | broadcastWithVisitor opsBudget dexOpsBudget dampened visitor =>
    exact hlimits.shrink (hkept.broadcastWithVisitor opsBudget dexOpsBudget dampened visitor)
      (queue.shrinks_broadcastWithVisitor opsBudget dexOpsBudget dampened visitor)
  | rebroadcast iteration floodSeed =>
    exact hlimits.shrink (hkept.rebroadcast iteration floodSeed) ⟨List.Subset.refl _, rfl, rfl⟩
  | updateClassicQueueCapacity scaledMaxQueueOps => cases hfixed
  | updateSorobanResourceLimits resources => cases hfixed

theorem Kept.withinLimits_runOps (hkept : queue.Kept) (hlimits : queue.WithinLimits) (ops : List Op)
    (hfixed : ∀ op ∈ ops, op.KeepsLimits) :
    (runOps ops queue).Kept ∧ (runOps ops queue).WithinLimits := by
  induction ops generalizing queue with
  | nil => exact ⟨hkept, hlimits⟩
  | cons op rest ih =>
    obtain ⟨hop, hrest⟩ := forall_mem_cons.mp hfixed
    exact ih (hkept.run op) (hkept.withinLimits_run hlimits hop) hrest

/-- The newcomer fits with everything that is queued, except what it replaces. -/
structure FitsWithAll (queue : TransactionQueue setting) (queued : QueuedTransaction)
    (replacedTx : Option QueuedTransaction) : Prop where
  classic : queued.isSoroban = false →
    ∀ laneConfig, buildClassicLaneConfig setting = some laneConfig →
    laneConfig.Fits setting.ledgerVersion (queued :: withoutAll (replacedTx.toList.map (·.hash))
      (queue.store.byHash.filter fun tx => !tx.isSoroban))
  soroban : queued.isSoroban = true →
    ∀ limit, queue.effectiveQueueSorobanResources = some limit →
    (sorobanGenericLaneConfig setting.codec limit).Fits setting.ledgerVersion
      (queued :: withoutAll (replacedTx.toList.map (·.hash))
        (queue.store.byHash.filter fun tx => tx.isSoroban))
  global : ∀ ops, queue.effectiveMaxQueueOps = some ops →
    (opsOnlyLaneConfig fun _ => (ops : Int)).Fits setting.ledgerVersion
      (queued :: withoutAll (replacedTx.toList.map (·.hash)) queue.store.byHash)
  size : queue.store.len + 1 ≤ queue.effectiveMaxSize + replacedTx.toList.length

/-- What an admission should do to a queue: make room by evicting, and banning,
what is cheaper or expired and of other accounts, replace only what a fee bump
outbids tenfold, and evict nothing for a newcomer that fits. -/
structure AdmissionMeets (queue after : TransactionQueue setting) (now : Nat)
    (queued : QueuedTransaction) (replacedTx : Option QueuedTransaction) : Prop where
  within_limits : after.WithinLimits
  evicted : ∀ tx ∈ queue.store.byHash, tx ∉ after.store.byHash → tx ∉ replacedTx →
    (tx.feeRate.cmpRate queued.feeRate = .lt ∨
      tx.isExpired now setting.config.maxAgeSecs = true) ∧
      tx.account ≠ queued.account ∧ after.isBanned tx.hash = true
  replaced : ∀ tx ∈ replacedTx, tx ∈ queue.store.byHash ∧ tx.account = queued.account ∧
    tx.sequenceNumber = queued.sequenceNumber ∧ isFeeBumpEnvelope queued.envelope = true ∧
    10 * (tx.feeRate.inclusionFee * queued.feeRate.opCount) ≤
      queued.feeRate.inclusionFee * tx.feeRate.opCount
  spared : queue.FitsWithAll queued replacedTx →
    ∀ tx ∈ queue.store.byHash, tx ∉ replacedTx → tx ∈ after.store.byHash

/-- What the passes evict, by their fit checks on the queue as it is. -/
def passEvictions (queue : TransactionQueue setting) (queued : QueuedTransaction)
    (replacedTx : Option QueuedTransaction) : List QueuedTransaction :=
  let lanes := ((queue.laneFit queued replacedTx).getD []).map (·.1)
  lanes ++ ((queue.globalFit queued replacedTx lanes).getD []).map (·.1)

/-- The size cap takes nothing of its own, or a transaction that is banned
already and may be evicted; and there is a set that the passes can ban into. -/
structure CapSpares (queue : TransactionQueue setting) (call : Call) (queued : QueuedTransaction)
    (replacedTx : Option QueuedTransaction) : Prop where
  window : queue.passEvictions queued replacedTx = [] ∨ queue.bannedTransactions ≠ []
  victim : queue.effectiveMaxSize ≤
      queue.store.len - (queue.passEvictions queued replacedTx).length →
    ∀ tx ∈ queue.capacityVictim call queued,
      tx ∈ queue.passEvictions queued replacedTx ∨ tx ∈ replacedTx ∨
        ¬queue.FitsWithAll queued replacedTx ∧ queue.isBanned tx.hash = true ∧
          (tx.feeRate.cmpRate queued.feeRate = .lt ∨
            tx.isExpired call.now setting.config.maxAgeSecs = true) ∧
          tx.account ≠ queued.account

theorem canReplaceByFee_eq_ok {new old : FeeRate} (hreplace : canReplaceByFee new old = .ok ()) :
    10 * (old.inclusionFee * new.opCount) ≤ new.inclusionFee * old.opCount := by
  unfold canReplaceByFee at hreplace
  simp only at hreplace
  split at hreplace
  · cases hreplace
  · next hle =>
    rw [← mul_assoc]
    exact not_lt.mp hle

variable {replacedTx : Option QueuedTransaction} {pending : List QueuedTransaction}
  {roomy : TransactionQueue setting}

/-- Where the newcomer fits with everything, neither pass evicts. -/
theorem Admitted.spared {call : Call} {env : TransactionEnvelope} {queued : QueuedTransaction}
    (hkept : queue.Kept) (hadmitted : queue.Admitted call env queued replacedTx pending roomy)
    (hfits : queue.FitsWithAll queued replacedTx) : pending = [] := by
  obtain ⟨evictions, more, hfit, hmore, rfl⟩ := hkept.fits_of_collected hadmitted.collected
  have haccount := hadmitted.screened.account
  have hlanes : evictions = [] := by
    have hlaneFit := hfit
    unfold laneFit at hlaneFit
    split at hlaneFit
    · next hkind =>
      split at hlaneFit
      · cases hlaneFit
        rfl
      · next limit hlimit =>
        apply (checks_soroban hkept haccount hlimit hkind).spared_of_fits hlaneFit
        rw [append_nil]
        exact hfits.soroban hkind limit hlimit
    · next hkind =>
      have hclassic := Bool.not_eq_true _ ▸ hkind
      split at hlaneFit
      · cases hlaneFit
        rfl
      · next laneConfig hconfig =>
        apply (checks_classic hkept haccount hconfig hclassic).spared_of_fits hlaneFit
        rw [append_nil]
        exact hfits.classic hclassic laneConfig hconfig
  subst hlanes
  have hglobal : more = [] := by
    unfold globalFit at hmore
    split at hmore
    · cases hmore
      rfl
    · next ops hops =>
      apply (checks_global hkept haccount hops hfit).spared_of_fits hmore
      rw [map_nil, append_nil]
      exact hfits.global ops hops
  rw [hglobal]
  rfl

theorem Kept.passEvictions_eq (hkept : queue.Kept) {queued : QueuedTransaction}
    (hcollected : (queue.checkAndCollectEvictions queued replacedTx).2 = .ok pending) :
    queue.passEvictions queued replacedTx = pending := by
  obtain ⟨evictions, more, hfit, hmore, rfl⟩ := hkept.fits_of_collected hcollected
  simp only [passEvictions, hfit, hmore, Option.getD_some]

/-- What stays: all but the replaced one, what the passes evict, and what the
size cap takes from a full queue. -/
theorem Admitted.mem_iff {call : Call} {env : TransactionEnvelope} {queued : QueuedTransaction}
    (hkept : queue.Kept) (hadmitted : queue.Admitted call env queued replacedTx pending roomy)
    (tx : QueuedTransaction) :
    tx ∈ (withAdmitted roomy pending queued replacedTx).store.byHash ↔
      tx = queued ∨ tx ∈ queue.store.byHash ∧ tx ∉ replacedTx ∧ tx ∉ pending ∧
        (queue.effectiveMaxSize ≤ queue.store.len - pending.length →
          tx ∉ queue.capacityVictim call queued) := by
  have hreviewed := (hkept.checkAndCollectEvictions queued replacedTx).1
  have hevictable := (hkept.checkAndCollectEvictions queued replacedTx).2 pending
    hadmitted.collected
  have hreplaced := replacedTx_eq hadmitted.screened.account
  have hmax : (queue.checkAndCollectEvictions queued replacedTx).1.effectiveMaxSize =
      queue.effectiveMaxSize := (congrArg effectiveMaxSize hreviewed.same :)
  have hvictim : (queue.checkAndCollectEvictions queued replacedTx).1.capacityVictim call queued =
      queue.capacityVictim call queued :=
    (congrArg (fun queue => queue.capacityVictim call queued) hreviewed.same :)
  have hroomy : tx ∈ roomy.store.byHash ↔ tx ∈ queue.store.byHash ∧
      (queue.effectiveMaxSize ≤ queue.store.len - pending.length →
        tx ∉ queue.capacityVictim call queued) := by
    rcases ensureQueueCapacity_cases hadmitted.capacity with
      ⟨hroom, rfl⟩ | ⟨hfull, victim, hchosen, rfl⟩
    · rw [hmax, QueueStore.len, hreviewed.byHash_eq] at hroom
      rw [hreviewed.byHash_eq]
      exact ⟨fun htx => ⟨htx, fun hfull => absurd hroom (not_lt.mpr hfull)⟩, And.left⟩
    · rw [hmax, QueueStore.len, hreviewed.byHash_eq] at hfull
      have hheld := mem_of_capacityVictim hchosen
      rw [hreviewed.byHash_eq] at hheld
      rw [hvictim] at hchosen
      rw [hreviewed.kept.byHash_evict, hreviewed.byHash_eq, mem_without, hchosen]
      refine and_congr_right fun htx => ?_
      constructor
      · rintro hhash - ⟨⟩
        exact hhash rfl
      · intro hspared hhash
        exact hspared hfull (congrArg some (hkept.store.eq_of_hash hheld htx hhash.symm))
  have hresult := (hadmitted.result hkept).2 tx
  rw [hroomy] at hresult
  rw [withAdmitted, hresult]
  apply or_congr_right
  constructor
  · rintro ⟨⟨⟨htx, hspared⟩, hfree⟩, haccount⟩
    refine ⟨htx, fun hold => haccount ?_, fun hpending => hfree (mem_map_of_mem hpending), hspared⟩
    rw [hreplaced] at hold
    exact ((hkept.in_sync _ _).mp hold).2
  · rintro ⟨htx, hold, hpending, hspared⟩
    refine ⟨⟨⟨htx, hspared⟩, fun hhash => hpending ?_⟩, fun haccount => hold ?_⟩
    · obtain ⟨other, hother, heq⟩ := mem_map.mp hhash
      rwa [← hkept.store.eq_of_hash (hevictable other hother).mem htx heq]
    · rw [hreplaced]
      exact (hkept.in_sync _ _).mpr ⟨htx, haccount⟩

theorem Admitted.banned {call : Call} {env : TransactionEnvelope} {queued : QueuedTransaction}
    (hkept : queue.Kept) (hadmitted : queue.Admitted call env queued replacedTx pending roomy) :
    (withAdmitted roomy pending queued replacedTx).bannedTransactions =
      Foundation.Rotation.recordInto (pending.map (·.hash)).toFinset queue.bannedTransactions := by
  rw [← (hadmitted.roomy_kept hkept).2.2.1, ← banInto_eq]
  cases replacedTx <;> rfl

/-- A queued transaction that the passes leave alone is banned after an
admission only if it was before. -/
theorem Admitted.isBanned_of_spared {call : Call} {env : TransactionEnvelope}
    {queued tx : QueuedTransaction} (hkept : queue.Kept)
    (hadmitted : queue.Admitted call env queued replacedTx pending roomy)
    (htx : tx ∈ queue.store.byHash) (hspared : tx ∉ pending) :
    (withAdmitted roomy pending queued replacedTx).isBanned tx.hash = true ↔
      queue.isBanned tx.hash = true := by
  have hfresh : tx.hash ∉ (pending.map (·.hash)).toFinset := by
    intro hhash
    obtain ⟨other, hother, heq⟩ := mem_map.mp (mem_toFinset.mp hhash)
    have hmem := ((hkept.checkAndCollectEvictions queued replacedTx).2 pending
      hadmitted.collected other hother).mem
    exact hspared (hkept.store.eq_of_hash hmem htx heq ▸ hother)
  rw [isBanned_iff, isBanned_iff, hadmitted.banned hkept,
    Foundation.Rotation.holds_recordInto_of_notMem hfresh]

theorem Admitted.meets_iff {call : Call} {env : TransactionEnvelope} {queued : QueuedTransaction}
    (hkept : queue.Kept) (hlimits : queue.WithinLimits)
    (hadmitted : queue.Admitted call env queued replacedTx pending roomy) :
    queue.AdmissionMeets (withAdmitted roomy pending queued replacedTx) call.now queued
        replacedTx ↔
      queue.CapSpares call queued replacedTx := by
  have hevictable := (hkept.checkAndCollectEvictions queued replacedTx).2 pending
    hadmitted.collected
  have hreplaced : ∀ tx ∈ replacedTx, tx ∈ queue.store.byHash ∧ tx.account = queued.account ∧
      tx.sequenceNumber = queued.sequenceNumber ∧ isFeeBumpEnvelope queued.envelope = true ∧
      10 * (tx.feeRate.inclusionFee * queued.feeRate.opCount) ≤
        queued.feeRate.inclusionFee * tx.feeRate.opCount := by
    intro tx htx
    obtain rfl : replacedTx = some tx := htx
    obtain ⟨⟨hmem, haccount, hsequence⟩, -, hbump, hfee⟩ :=
      replaced_of_checkAccountLimit hkept hadmitted.screened.account
    exact ⟨hmem, haccount, hsequence, hbump, canReplaceByFee_eq_ok hfee⟩
  have hpasses := hkept.passEvictions_eq hadmitted.collected
  have hnew : ∀ tx ∈ queue.store.byHash, tx ≠ queued := by
    rintro tx htx rfl
    exact hadmitted.screened.new_hash tx htx rfl
  constructor
  · intro hmeets
    refine ⟨?_, fun hfull tx hvictim => ?_⟩
    · rw [hpasses]
      by_contra hnone
      obtain ⟨hsome, hwindow⟩ := not_or.mp hnone
      obtain ⟨tx, htx⟩ := exists_mem_of_ne_nil _ hsome
      obtain ⟨hmem, -, haccount⟩ := hevictable tx htx
      have hgone : tx ∉ (withAdmitted roomy pending queued replacedTx).store.byHash := by
        rw [hadmitted.mem_iff hkept]
        exact fun hstays => hstays.elim (hnew tx hmem) fun h => h.2.2.1 htx
      have hbanned := (hmeets.evicted tx hmem hgone
        fun hold => haccount (hreplaced tx hold).2.1).2.2
      -- a window without sets bans nothing
      rw [isBanned_iff, hadmitted.banned hkept, not_not.mp hwindow] at hbanned
      simp [Foundation.Rotation.recordInto, Foundation.Rotation.Holds] at hbanned
    · rw [hpasses] at hfull ⊢
      have hmem := mem_of_capacityVictim hvictim
      by_contra hnone
      obtain ⟨hspared, hnone⟩ := not_or.mp hnone
      obtain ⟨hkeptOld, hnone⟩ := not_or.mp hnone
      have hgone : tx ∉ (withAdmitted roomy pending queued replacedTx).store.byHash := by
        rw [hadmitted.mem_iff hkept]
        exact fun hstays => hstays.elim (hnew tx hmem) fun h => h.2.2.2 hfull hvictim
      obtain ⟨hworse, haccount, hbanned⟩ := hmeets.evicted tx hmem hgone hkeptOld
      rw [hadmitted.isBanned_of_spared hkept hmem hspared] at hbanned
      exact hnone ⟨fun hfits => hgone (hmeets.spared hfits tx hmem hkeptOld), hbanned, hworse,
        haccount⟩
  · intro hspares
    have hvictims := hspares.victim
    rw [hpasses] at hvictims
    refine ⟨hadmitted.withinLimits hkept hlimits, fun tx hmem hgone hold => ?_, hreplaced,
      fun hfits tx hmem hold => ?_⟩
    · by_cases hpending : tx ∈ pending
      · obtain ⟨-, hcheaper, haccount⟩ := hevictable tx hpending
        refine ⟨.inl hcheaper, haccount, ?_⟩
        have hwindow := hspares.window.resolve_left (hpasses ▸ ne_nil_of_mem hpending)
        rw [isBanned_iff, hadmitted.banned hkept]
        exact Foundation.Rotation.holds_recordInto hwindow
          (mem_toFinset.mpr (mem_map_of_mem hpending))
      · -- only the size cap can have taken it
        rw [hadmitted.mem_iff hkept] at hgone
        have htaken : queue.effectiveMaxSize ≤ queue.store.len - pending.length ∧
            tx ∈ queue.capacityVictim call queued := by
          by_contra hspared
          exact hgone (.inr ⟨hmem, hold, hpending, fun hfull hvictim => hspared ⟨hfull, hvictim⟩⟩)
        obtain ⟨-, hbanned, hworse, haccount⟩ :=
          ((hvictims htaken.1 tx htaken.2).resolve_left hpending).resolve_left hold
        exact ⟨hworse, haccount, (hadmitted.isBanned_of_spared hkept hmem hpending).mpr hbanned⟩
    · have hnone := hadmitted.spared hkept hfits
      rw [hadmitted.mem_iff hkept]
      refine .inr ⟨hmem, hold, hnone ▸ not_mem_nil, fun hfull hvictim => ?_⟩
      rcases hvictims hfull tx hvictim with hpending | hreplacedTx | ⟨hnot, -⟩
      · exact not_mem_nil (hnone ▸ hpending)
      · exact hold hreplacedTx
      · exact hnot hfits

/-- In every run under fixed limits, a submission that is added does what an
admission should do exactly when the size cap takes nothing of its own and the
passes have a set to ban into. -/
theorem admissionMeets_iff (seed floodSeed : Nat) (ops : List Op)
    (hfixed : ∀ op ∈ ops, op.KeepsLimits) (call : Call) (env : TransactionEnvelope)
    (hadded : ((runOps ops (.withDepths seed floodSeed : TransactionQueue setting)).tryAdd call
      env).2 = .added) :
    let queue := runOps ops (.withDepths seed floodSeed : TransactionQueue setting)
    ∃ queued replacedTx, QueuedTransaction.new setting.codec env call.now = some queued ∧
      queue.checkAccountLimit queued = .ok replacedTx ∧
      (queue.AdmissionMeets (queue.tryAdd call env).1 call.now queued replacedTx ↔
        queue.CapSpares call queued replacedTx) := by
  have hstart : (withDepths seed floodSeed : TransactionQueue setting).Kept :=
    kept_withDepths seed floodSeed
  obtain ⟨hkept, hlimits⟩ := hstart.withinLimits_runOps (withinLimits_of_empty rfl) ops hfixed
  dsimp only
  rcases tryAdd_cases (runOps ops (.withDepths seed floodSeed : TransactionQueue setting)) call env
    with ⟨result, hresult, -, heq⟩ | ⟨_, _, result, hresult, -, heq⟩ |
    ⟨queued, replacedTx, pending, roomy, hadmitted, heq⟩
  · rw [heq] at hadded
    exact absurd hadded hresult
  · rw [heq] at hadded
    exact absurd hadded hresult
  · rw [heq]
    exact ⟨queued, replacedTx, hadmitted.screened.built, hadmitted.screened.account,
      hadmitted.meets_iff hkept hlimits⟩

section Outbidding

/-- Fee bumps have hashes of their own. -/
def outbidSetting : Setting :=
  { surgeSetting with
    codec := ⟨fun env => accountKey env + if isFeeBumpEnvelope env then 10 else 0, fun _ => 100⟩ }

/-- Two operations of account 1 and one of account 2 fill the queue. -/
def outbidOps : List Op :=
  [.tryAdd surgeCall (payments 1 200 2), .tryAdd surgeCall (payments 2 100 1)]

/-- Accounts can pay for a fee bump. -/
def richCall : Call :=
  { surgeCall with feeBalanceProvider := some fun _ => .ok (some 5000) }

def outbid : TransactionEnvelope := .txFeeBump 3 4000 ⟨2, 100, 1, [.payment], none, 0⟩ 0

def outbidQueue : TransactionQueue outbidSetting := runOps outbidOps (.withDepths 0 0)

/-- A fee bump replaces the transaction of account 2; it counts for one operation
more, so that of account 1 is evicted, and banned. -/
theorem admissionMeets_outbid : ∃ queued replacedTx,
    QueuedTransaction.new outbidSetting.codec outbid richCall.now = some queued ∧
      replacedTx.isSome = true ∧ (outbidQueue.passEvictions queued replacedTx).length = 1 ∧
      outbidQueue.AdmissionMeets (outbidQueue.tryAdd richCall outbid).1 richCall.now queued
        replacedTx := by
  have hadded : (outbidQueue.tryAdd richCall outbid).2 = .added := by decide +kernel
  obtain ⟨queued, replacedTx, hbuilt, haccount, hmeets⟩ :=
    admissionMeets_iff 0 0 outbidOps (by simp [outbidOps, Op.KeepsLimits]) richCall outbid hadded
  have hcase : ∀ queued ∈ QueuedTransaction.new outbidSetting.codec outbid richCall.now,
      ∀ replacedTx ∈ (outbidQueue.checkAccountLimit queued).toOption,
      replacedTx.isSome = true ∧ (outbidQueue.passEvictions queued replacedTx).length = 1 ∧
        outbidQueue.bannedTransactions ≠ [] ∧
        outbidQueue.store.len - (outbidQueue.passEvictions queued replacedTx).length <
          outbidQueue.effectiveMaxSize := by
    decide +kernel
  obtain ⟨hreplaced, hevicts, hwindow, hroom⟩ :=
    hcase queued hbuilt replacedTx (congrArg Except.toOption haccount)
  exact ⟨queued, replacedTx, hbuilt, hreplaced, hevicts,
    hmeets.mpr ⟨.inr hwindow, fun hfull => absurd hroom (not_lt.mpr hfull)⟩⟩

end Outbidding

section Size

/-- A queue for one transaction. -/
def sizeSetting : Setting :=
  { surgeSetting with
    config := { surgeSetting.config with maxSize := 1, maxQueueOps := none } }

/-- The size limit evicts without a ban. -/
theorem size_limit_evicts_unbanned :
    ¬∀ (setting : Setting) (seed floodSeed : Nat) (ops : List Op),
      (∀ op ∈ ops, op.KeepsLimits) → ∀ call env,
      ((runOps ops (.withDepths seed floodSeed : TransactionQueue setting)).tryAdd call env).2 =
        .added →
      ∀ tx ∈ (runOps ops (.withDepths seed floodSeed : TransactionQueue setting)).store.byHash,
        tx ∉ ((runOps ops (.withDepths seed floodSeed : TransactionQueue setting)).tryAdd call
          env).1.store.byHash →
        tx.account ≠ accountKey env →
        ((runOps ops (.withDepths seed floodSeed : TransactionQueue setting)).tryAdd call
          env).1.isBanned tx.hash = true := by
  intro hclaim
  have hbanned := hclaim sizeSetting 0 0 [.tryAdd surgeCall (payments 1 100 1)]
    (by simp [Op.KeepsLimits]) surgeCall (payments 2 200 1) (by decide +kernel)
  have hvictim : ∃ tx ∈ (runOps [.tryAdd surgeCall (payments 1 100 1)]
      (.withDepths 0 0 : TransactionQueue sizeSetting)).store.byHash,
      tx ∉ ((runOps [.tryAdd surgeCall (payments 1 100 1)]
        (.withDepths 0 0 : TransactionQueue sizeSetting)).tryAdd surgeCall
          (payments 2 200 1)).1.store.byHash ∧
      tx.account ≠ accountKey (payments 2 200 1) ∧
      ((runOps [.tryAdd surgeCall (payments 1 100 1)]
        (.withDepths 0 0 : TransactionQueue sizeSetting)).tryAdd surgeCall
          (payments 2 200 1)).1.isBanned tx.hash = false := by
    decide +kernel
  obtain ⟨tx, htx, hgone, haccount, hfree⟩ := hvictim
  rw [hbanned tx htx hgone haccount] at hfree
  cases hfree

end Size

/-- After any operations the queued transactions have distinct hashes and are the pending ones of
their accounts, the fee index holds the same, each eviction queue holds those of its kind under
lane counts that are their weights, the flood queue holds some of them, and no assertion on a lane
count has failed. -/
theorem bookkeeping_of_reachable {queue : TransactionQueue setting} (hqueue : Reachable queue) :
    let store := queue.store
    (store.byHash.map (·.hash)).Nodup ∧
      (∀ account tx, queue.accountStates.pendingOf account = some tx ↔
        tx ∈ store.byHash ∧ tx.account = account) ∧
      store.feeIndex.Perm (store.byHash.map .fromQueued) ∧
      (∀ evictions ∈ store.classicEvictionQueue, ∃ config, evictions.Holds config
        store.evictionSeed setting.ledgerVersion (store.byHash.filter fun tx => !tx.isSoroban)) ∧
      (∀ evictions ∈ store.sorobanEvictionQueue, ∃ config, evictions.Holds config
        store.evictionSeed setting.ledgerVersion (store.byHash.filter fun tx => tx.isSoroban)) ∧
      (∀ evictions ∈ store.globalOpsQueue, ∃ config, evictions.Holds config store.evictionSeed
        setting.ledgerVersion store.byHash) ∧
      (∃ flooded, flooded ⊆ store.byHash ∧ (flooded.map (·.hash)).Nodup ∧
        store.floodQueue.queue.Holds (floodLaneConfig store.floodQueue.hasDexLane)
          store.floodQueue.seed setting.ledgerVersion flooded) ∧
      store.fault = false := by
  obtain ⟨hstore, hsync, -⟩ := hqueue.kept
  obtain ⟨flooded, hholds, hdistinct, hsubset⟩ := hstore.flood
  exact ⟨hstore.distinct, hsync, hstore.fee_index,
    fun _ hmem => (hstore.classic _ hmem).imp fun _ => And.right,
    fun _ hmem => (hstore.soroban _ hmem).imp fun _ => And.right,
    fun _ hmem => (hstore.global _ hmem).imp fun _ => And.right,
    ⟨flooded, hsubset, hdistinct, hholds⟩, hstore.fault_eq⟩

theorem bookkeeping_of_submission : let queue : TransactionQueue sizeSetting :=
    (Op.tryAdd surgeCall (payments 1 100 1)).run (.withDepths 0 0)
    queue.store.byHash.length = 1 ∧ (queue.store.byHash.map (·.hash)).Nodup :=
  ⟨by decide +kernel,
    (bookkeeping_of_reachable (.step (.tryAdd surgeCall (payments 1 100 1)) (.empty 0 0))).1⟩

end TransactionQueue

end Henyey.TxQueue
