import Henyey.TxQueue.Admission

/-!
# Every operation keeps the queue in step

Bans, ageing, removal, flooding and rebuilding take transactions out of store
and accounts together, so the structures agree in every run.
-/

namespace Henyey.TxQueue

open Function AccountStates List

namespace SurgePricingPriorityQueue

variable {d : Nat} {queue : SurgePricingPriorityQueue d}

theorem mem_of_topEntry {active : List Nat} {lane : Nat} {entry : QueueEntry}
    (htop : queue.topEntry active = some (lane, entry)) : entry ∈ queue.lanes lane := by
  induction active with
  | nil => cases htop
  | cons head rest ih =>
    unfold topEntry at htop
    split at htop
    · exact ih htop
    · next last _ hlast =>
      cases htop
      exact mem_of_getLast? (by assumption)
    · next last best bestEntry hlast hbest =>
      split at htop
      · cases htop
        exact ih hbest
      · cases htop
        exact mem_of_getLast? hlast

/-- Popping leaves some of what was held, visits only what was held and fails
no assertion. -/
theorem Holds.popTopTxs {laneConfig : SurgePricingLaneConfig d} {seed ledgerVersion : Nat}
    {txs : List QueuedTransaction} (hholds : queue.Holds laneConfig seed ledgerVersion txs)
    (hnonneg : laneConfig.NonNegative) (hdistinct : DistinctHashes txs)
    (visitor : QueuedTransaction → VisitTxResult) (fuel : Nat) (left : Nat → Resource d)
    (active : List Nat) :
    ∃ rest, (popTopTxs visitor ledgerVersion fuel queue left active).1.Holds laneConfig seed
        ledgerVersion rest ∧ DistinctHashes rest ∧ rest ⊆ txs ∧
      (popTopTxs visitor ledgerVersion fuel queue left active).2.1 ⊆ txs ∧
      (popTopTxs visitor ledgerVersion fuel queue left active).2.2 = false := by
  induction fuel generalizing queue txs left active with
  | zero => exact ⟨txs, hholds, hdistinct, List.Subset.refl _, nil_subset _, rfl⟩
  | succ fuel ih =>
    have hstay : ∃ rest, queue.Holds laneConfig seed ledgerVersion rest ∧ DistinctHashes rest ∧
        rest ⊆ txs ∧ ([] : List QueuedTransaction) ⊆ txs ∧ false = false :=
      ⟨txs, hholds, hdistinct, List.Subset.refl _, nil_subset _, rfl⟩
    unfold SurgePricingPriorityQueue.popTopTxs
    split
    · exact hstay
    · next lane entry htop =>
      simp only
      split
      · split
        · exact ih hholds hdistinct left (active.erase lane)
        · exact hstay
      · obtain ⟨tx, htx, rfl, rfl⟩ := (hholds.mem_lane _ _).mp (mem_of_topEntry htop)
        obtain ⟨rest, hrest, hrestDistinct, hsubset, hvisited, hquiet⟩ :=
          ih (hholds.erase hdistinct htx) (hdistinct.without _)
            (if visitor (QueueEntry.new tx seed).tx = .processed then _ else left) active
        have hwithout : without tx.hash txs ⊆ txs := fun other hother => (mem_without.mp hother).1
        refine ⟨rest, hrest, hrestDistinct, List.Subset.trans hsubset hwithout, ?_, ?_⟩
        · exact cons_subset.mpr ⟨htx, List.Subset.trans hvisited hwithout⟩
        · rw [hholds.erasePanics_of_mem hnonneg hdistinct htx, Bool.false_or]
          exact hquiet

end SurgePricingPriorityQueue

namespace TransactionQueue

variable {setting : Setting} {queue : TransactionQueue setting}

/-- Dropping one hash, as `dropAll` does it. -/
def dropOne (queue : TransactionQueue setting) (hash : Hash256) : TransactionQueue setting :=
  match queue.store.get hash with
  | none => queue
  | some tx =>
    { queue with
      store := queue.store.removeTx tx
      accountStates := queue.accountStates.dropTransaction tx
      evictionThresholds := .new }

section

variable (hkept : queue.Kept)
include hkept

/-- Dropping a hash takes its transaction out and touches no ban. -/
theorem Kept.dropOne (hash : Hash256) :
    (queue.dropOne hash).Kept ∧
      (queue.dropOne hash).store.byHash = without hash queue.store.byHash ∧
      (queue.dropOne hash).bannedTransactions = queue.bannedTransactions := by
  unfold TransactionQueue.dropOne
  split
  · next hget =>
    exact ⟨hkept, (without_eq_self (QueueStore.get_eq_none hget)).symm, rfl⟩
  · next tx hget =>
    obtain ⟨htx, rfl⟩ := QueueStore.get_eq_some hget
    refine ⟨⟨hkept.store.removeTx queue.limits_nonNegative htx, ?_, fun account =>
      (hkept.idle account).dropTransaction tx⟩, rfl, rfl⟩
    exact hkept.in_sync.dropTransaction fun other hother hhash =>
      hkept.store.eq_of_hash hother htx hhash

theorem Kept.foldl_dropOne (hashes : List Hash256) :
    (hashes.foldl TransactionQueue.dropOne queue).Kept ∧
      (∀ tx, tx ∈ (hashes.foldl TransactionQueue.dropOne queue).store.byHash ↔
        tx ∈ queue.store.byHash ∧ tx.hash ∉ hashes) ∧
      (hashes.foldl TransactionQueue.dropOne queue).bannedTransactions =
        queue.bannedTransactions := by
  induction hashes generalizing queue with
  | nil => exact ⟨hkept, by simp, rfl⟩
  | cons hash rest ih =>
    obtain ⟨hdropped, hbyHash, hbanned⟩ := hkept.dropOne hash
    obtain ⟨hlast, hmem, hsame⟩ := ih hdropped
    refine ⟨hlast, fun tx => ?_, hsame.trans hbanned⟩
    rw [foldl_cons, hmem, hbyHash, mem_without, mem_cons, not_or, and_assoc]

theorem Kept.dropAll (hashes : List Hash256) :
    (queue.dropAll hashes).Kept ∧
      (∀ tx, tx ∈ (queue.dropAll hashes).store.byHash ↔
        tx ∈ queue.store.byHash ∧ tx.hash ∉ hashes) ∧
      (queue.dropAll hashes).bannedTransactions = queue.bannedTransactions := by
  obtain ⟨hdropped, hmem, hbanned⟩ := hkept.foldl_dropOne hashes
  exact ⟨hdropped.of_same rfl rfl rfl, hmem, hbanned⟩

theorem Kept.ban (hashes : List Hash256) : (queue.ban hashes).Kept := by
  unfold TransactionQueue.ban
  split
  · exact hkept
  · refine (Kept.dropAll ?_ hashes).1
    exact hkept.of_same rfl rfl rfl

theorem Kept.evictExpired (now : Nat) : (queue.evictExpired now).Kept :=
  (hkept.dropAll _).1

theorem Kept.clear (seed floodSeed : Nat) : (queue.clear seed floodSeed).Kept where
  store := hkept.store.clearData seed floodSeed _
  in_sync := by
    intro account tx
    exact ⟨nofun, fun htx => nomatch htx.1⟩
  idle _ _ := nofun

theorem Kept.tryAddAll (calls : List (Call × TransactionEnvelope)) :
    (queue.tryAddAll calls).1.Kept := by
  induction calls generalizing queue with
  | nil => exact hkept
  | cons head rest ih => exact ih (hkept.tryAdd head.1 head.2)

theorem Kept.resetAndRebuild (iteration : Iteration) (calls : Nat → Call)
    (seed floodSeed : Nat) : (queue.resetAndRebuild iteration calls seed floodSeed).1.Kept := by
  apply Kept.tryAddAll
  exact (hkept.clear seed floodSeed).of_same rfl rfl rfl

theorem Kept.dropStalePending (account : AccountKey) (onLedgerSeq : Int) :
    (queue.dropStalePending account onLedgerSeq).1.Kept := by
  unfold TransactionQueue.dropStalePending
  split
  · exact hkept
  · next state hstate =>
    split
    · exact hkept
    · next tx htx =>
      split
      · exact hkept
      · have hpending : queue.accountStates.pendingOf account = some tx := by
          rw [pendingOf, hstate, Option.bind_some, htx]
        obtain ⟨hstore, hbyHash⟩ := hkept.store.remove queue.limits_nonNegative tx.hash
        have hsettles := ((settles_removeIfEmpty
            (queue.accountStates.modify account .clearTransaction) account).trans
          (AccountStates.settles_releaseFee _ tx.payer tx)).trans
          (settles_removeIfEmpty _ tx.payer)
        refine ⟨hstore, ?_, fun other => ?_⟩
        · rw [hbyHash]
          apply hkept.in_sync.forget hkept.store.distinct hpending
          intro other
          rw [hsettles.pendingOf_eq, pendingOf_clearTransaction]
        · exact hsettles.idle other ((hkept.idle other).clearTransaction account)

end

/-- One applied transaction takes at most the pending transaction of its source
out. -/
theorem Kept.applyOne {pass : AppliedPass setting} (hkept : pass.queue.Kept)
    (applied : TransactionEnvelope × Int) : (applyOne pass applied).queue.Kept := by
  unfold TransactionQueue.applyOne
  simp only
  cases hsuperseded : (pass.queue.accountStates (accountKey applied.1)).bind fun state =>
      state.transaction.filter fun tx => tx.sequenceNumber ≤ applied.2 with
  | none => exact hkept.of_same rfl rfl rfl
  | some tx =>
    have hpending : pass.queue.accountStates.pendingOf (accountKey applied.1) = some tx := by
      obtain ⟨state, hstate, hfilter⟩ := Option.bind_eq_some_iff.mp hsuperseded
      rw [pendingOf, hstate, Option.bind_some]
      exact (Option.filter_eq_some_iff.mp hfilter).1
    obtain ⟨hstore, hbyHash⟩ := hkept.store.remove pass.queue.limits_nonNegative tx.hash
    refine ⟨hstore, ?_, fun other => (hkept.idle other).clearTransaction _⟩
    change AccountStates.InSync _ (pass.queue.store.remove tx.hash).1.byHash
    rw [hbyHash]
    apply hkept.in_sync.forget hkept.store.distinct hpending
    intro other
    exact pendingOf_clearTransaction _ _ other

theorem Kept.foldl_applyOne (appliedTxs : List (TransactionEnvelope × Int))
    {pass : AppliedPass setting} (hkept : pass.queue.Kept) :
    (appliedTxs.foldl TransactionQueue.applyOne pass).queue.Kept := by
  induction appliedTxs generalizing pass with
  | nil => exact hkept
  | cons head rest ih => exact ih (hkept.applyOne head)

theorem Kept.removeApplied (hkept : queue.Kept)
    (appliedTxs : List (TransactionEnvelope × Int)) : (queue.removeApplied appliedTxs).Kept := by
  unfold TransactionQueue.removeApplied
  split
  · exact hkept
  · have hpass := Kept.foldl_applyOne appliedTxs
      (show (⟨queue, [], []⟩ : AppliedPass setting).queue.Kept from hkept)
    refine hpass.settle rfl ?_ rfl
    exact (settles_foldl (fun states tx =>
      AccountStates.settles_releaseFee states tx.payer tx) _ _).trans
        (settles_foldl (fun states account =>
          settles_removeIfEmpty states account) _ _)

/-- The walk over the accounts keeps the queue in step, except that accounts to
be removed may still have an age. -/
structure Walked (pass : ShiftPass setting) : Prop where
  store : pass.queue.store.Kept pass.queue.limits
  in_sync : pass.queue.accountStates.InSync pass.queue.store.byHash
  idle : ∀ account ∉ pass.accountsToRemove, pass.queue.accountStates.IdleAt account
  gone : ∀ account ∈ pass.accountsToRemove, pass.queue.accountStates.pendingOf account = none

theorem markForFlood_kept {store : QueueStore setting} {limits : Limits setting}
    (hkept : store.Kept limits) {tx : QueuedTransaction} (htx : tx ∈ store.byHash) :
    ({ store with floodQueue := store.floodQueue.markForFlood tx setting.ledgerVersion } :
      QueueStore setting).Kept limits := by
  obtain ⟨txs, hfloods⟩ := hkept.flood
  obtain ⟨marked, hmarked⟩ := hfloods.markForFlood hkept.distinct htx (hkept.wellFormed tx htx).rated
  exact hkept.withFlood hmarked

variable {pass : ShiftPass setting}

theorem Walked.shiftAccount (hwalked : Walked pass)
    (account : AccountKey) : Walked (shiftAccount pass account) := by
  unfold TransactionQueue.shiftAccount
  split
  · exact hwalked
  · next state hstate =>
    split
    · exact hwalked
    · next tx htx =>
      have hpending : pass.queue.accountStates.pendingOf account = some tx := by
        rw [pendingOf, hstate, Option.bind_some, htx]
      obtain ⟨hmem, haccount⟩ := (hwalked.in_sync account tx).mp hpending
      have hstore : (if (decide (state.age + 1 = 2) || decide (state.age + 1 = 3)) = true then
          { pass.queue.store with
            floodQueue := pass.queue.store.floodQueue.markForFlood tx setting.ledgerVersion }
          else pass.queue.store).Kept pass.queue.limits := by
        split
        · exact markForFlood_kept hwalked.store hmem
        · exact hwalked.store
      have hbyHash : (if (decide (state.age + 1 = 2) || decide (state.age + 1 = 3)) = true then
          { pass.queue.store with
            floodQueue := pass.queue.store.floodQueue.markForFlood tx setting.ledgerVersion }
          else pass.queue.store).byHash = pass.queue.store.byHash := by
        split <;> rfl
      simp only
      split
      · -- the transaction ages out
        obtain ⟨hremoved, hleft⟩ := hstore.remove pass.queue.limits_nonNegative tx.hash
        rw [hbyHash] at hleft
        have hafter : ∀ fresh other, pendingOf
            (update pass.queue.accountStates account
              (some { state with age := fresh, transaction := none })) other =
            if other = account then none else pass.queue.accountStates.pendingOf other := by
          intro fresh other
          by_cases hother : other = account
          · subst hother
            rw [pendingOf, update_self, if_pos rfl]
            rfl
          · rw [pendingOf, update_of_ne hother, if_neg hother]
            rfl
        refine ⟨hremoved, ?_, fun other hother => ?_, fun other hother => ?_⟩
        · change AccountStates.InSync _ (QueueStore.remove _ tx.hash).1.byHash
          rw [hleft]
          exact hwalked.in_sync.forget hwalked.store.distinct hpending (hafter _)
        · intro found hfound hnone
          by_cases hsame : other = account
          · subst hsame
            dsimp only at hfound
            rw [update_self, Option.some_inj] at hfound
            subst hfound
            by_cases hfees : state.totalFees = 0
            · simp [hfees] at hother
            · simp [hfees]
          · dsimp only at hfound
            rw [update_of_ne hsame] at hfound
            refine hwalked.idle other (fun hbefore => hother ?_) found hfound hnone
            dsimp only
            split
            · exact mem_append_left _ hbefore
            · exact hbefore
        · rw [hafter]
          split
          · rfl
          · next hsame =>
            apply hwalked.gone
            dsimp only at hother
            split at hother
            · rcases mem_append.mp hother with hbefore | hnew
              · exact hbefore
              · exact absurd (mem_singleton.mp hnew) hsame
            · exact hother
      · -- the transaction grows older
        have hafter : ∀ other, pendingOf
            (update pass.queue.accountStates account
              (some { state with age := state.age + 1 })) other =
            pass.queue.accountStates.pendingOf other := by
          intro other
          by_cases hother : other = account
          · subst hother
            rw [pendingOf, update_self, pendingOf, hstate]
            rfl
          · rw [pendingOf, update_of_ne hother]
            rfl
        refine ⟨hstore, fun other found => ?_, fun other hother found hfound hnone => ?_,
          fun other hother => (hafter other).trans (hwalked.gone other hother)⟩
        · rw [hafter]
          change _ ↔ found ∈ QueueStore.byHash (ite _ _ _) ∧ _
          rw [hbyHash]
          exact hwalked.in_sync other found
        · by_cases hsame : other = account
          · subst hsame
            dsimp only at hfound
            rw [update_self, Option.some_inj] at hfound
            subst hfound
            rw [htx] at hnone
            cases hnone
          · dsimp only at hfound
            rw [update_of_ne hsame] at hfound
            exact hwalked.idle other hother found hfound hnone

theorem Walked.foldl_shiftAccount (accounts : List AccountKey)
    (hwalked : Walked pass) : Walked (accounts.foldl TransactionQueue.shiftAccount pass) := by
  induction accounts generalizing pass with
  | nil => exact hwalked
  | cons head rest ih => exact ih (hwalked.shiftAccount head)

/-- Releasing the payers settles the accounts, and marks only accounts without
a pending transaction. -/
theorem releasePayer_settles (states : AccountStates × List AccountKey) (tx : QueuedTransaction)
    (hgone : ∀ account ∈ states.2, states.1.pendingOf account = none) :
    states.1.Settles (releasePayer states tx).1 ∧ states.2 ⊆ (releasePayer states tx).2 ∧
      ∀ account ∈ (releasePayer states tx).2,
        (releasePayer states tx).1.pendingOf account = none := by
  unfold releasePayer
  split
  · exact ⟨.refl _, List.Subset.refl _, hgone⟩
  · next state hstate =>
    have hsame : update states.1 tx.payer (some (state.releaseFee tx)) =
        states.1.modify tx.payer (.releaseFee tx) := by
      rw [AccountStates.modify, hstate]
      rfl
    have hsettles := AccountStates.settles_releaseFee states.1 tx.payer tx
    rw [← hsame] at hsettles
    refine ⟨hsettles, ?_, fun account haccount => ?_⟩
    · simp only
      split
      · exact subset_append_left _ _
      · exact List.Subset.refl _
    · rw [hsettles.pendingOf_eq]
      simp only at haccount
      split at haccount
      · next hmarked =>
        rcases mem_append.mp haccount with hbefore | hnew
        · exact hgone account hbefore
        · rw [mem_singleton.mp hnew, pendingOf, hstate]
          rw [Bool.and_eq_true] at hmarked
          have hnone := transaction_of_isEmpty hmarked.1
          exact hnone
      · exact hgone account haccount

theorem foldl_releasePayer_settles (evicted : List QueuedTransaction)
    (states : AccountStates × List AccountKey)
    (hgone : ∀ account ∈ states.2, states.1.pendingOf account = none) :
    states.1.Settles (evicted.foldl releasePayer states).1 ∧
      states.2 ⊆ (evicted.foldl releasePayer states).2 ∧
      ∀ account ∈ (evicted.foldl releasePayer states).2,
        (evicted.foldl releasePayer states).1.pendingOf account = none := by
  induction evicted generalizing states with
  | nil => exact ⟨.refl _, List.Subset.refl _, hgone⟩
  | cons tx rest ih =>
    obtain ⟨hsettles, hsubset, hmarked⟩ := releasePayer_settles states tx hgone
    obtain ⟨hlater, hmore, hlast⟩ := ih (releasePayer states tx) hmarked
    exact ⟨hsettles.trans hlater, List.Subset.trans hsubset hmore, hlast⟩

theorem foldl_update_none (accounts : List AccountKey) (states : AccountStates)
    (account : AccountKey) :
    accounts.foldl (fun states key => update states key none) states account =
      if account ∈ accounts then none else states account := by
  induction accounts generalizing states with
  | nil => rfl
  | cons head rest ih =>
    rw [foldl_cons, ih]
    by_cases hrest : account ∈ rest
    · simp [hrest]
    · by_cases hhead : account = head
      · simp [hhead]
      · simp [hrest, hhead]

/-- The accounts at the end of `shift`: those marked are gone, the others
settled. -/
theorem Walked.finish (hwalked : Walked pass) {after : TransactionQueue setting}
    {store : QueueStore setting} (hstore : store.Kept pass.queue.limits)
    (hbyHash : store.byHash = pass.queue.store.byHash) (hafterStore : after.store = store)
    (hafterStates : after.accountStates =
      (pass.evicted.foldl releasePayer (pass.queue.accountStates, pass.accountsToRemove)).2.foldl
        (fun states account => update states account none)
        (pass.evicted.foldl releasePayer (pass.queue.accountStates, pass.accountsToRemove)).1)
    (hlimits : after.limits = pass.queue.limits) : after.Kept := by
  obtain ⟨hsettles, hsubset, hgone⟩ := foldl_releasePayer_settles pass.evicted
    (pass.queue.accountStates, pass.accountsToRemove) hwalked.gone
  generalize pass.evicted.foldl releasePayer (pass.queue.accountStates, pass.accountsToRemove) =
    released at hsettles hsubset hgone hafterStates
  have hstates := foldl_update_none released.2 released.1
  rw [← hafterStates] at hstates
  refine ⟨by rwa [hafterStore, hlimits], fun account tx => ?_, fun account state hstate hnone => ?_⟩
  · rw [hafterStore, hbyHash, ← (hwalked.in_sync.settle hsettles) account tx, pendingOf, hstates]
    split
    · next hmarked =>
      rw [hgone account hmarked]
      rfl
    · rfl
  · rw [hstates] at hstate
    split at hstate
    · cases hstate
    · next hunmarked =>
      exact hsettles.idle account (hwalked.idle account fun hmem => hunmarked (hsubset hmem)) state
        hstate hnone

section

variable (hkept : queue.Kept)
include hkept

theorem Kept.walked (accounts : List AccountKey) :
    Walked (accounts.foldl shiftAccount
      ⟨{ queue with bannedTransactions := queue.bannedTransactions.tail ++ [∅] }, [], [], []⟩) := by
  apply Walked.foldl_shiftAccount
  exact ⟨hkept.store, hkept.in_sync, fun account _ => hkept.idle account, fun _ => nofun⟩

theorem Kept.shift (accounts : List AccountKey) (seed : Nat) :
    (queue.shift accounts seed).1.Kept := by
  have hwalked := hkept.walked accounts
  exact hwalked.finish (hwalked.store.regenerateEvictionSeed seed) rfl rfl rfl rfl

/-- The queue after a broadcast round, before it bans. -/
theorem Kept.drained (visitor : QueuedTransaction → VisitTxResult) (fuel : Nat)
    (limits : Nat → Resource 1) (lanes : List Nat) :
    (queue.withStore
      { queue.store with
        floodQueue :=
          { queue.store.floodQueue with
            queue := (SurgePricingPriorityQueue.popTopTxs visitor setting.ledgerVersion fuel
              queue.store.floodQueue.queue limits lanes).1 }
        fault := queue.store.fault || (SurgePricingPriorityQueue.popTopTxs visitor
          setting.ledgerVersion fuel queue.store.floodQueue.queue limits lanes).2.2 }).Kept := by
  obtain ⟨txs, hfloods⟩ := hkept.store.flood
  obtain ⟨rest, hrest, hdistinct, hsubset, -, hquiet⟩ :=
    hfloods.holds.popTopTxs .flood hfloods.distinct visitor fuel limits lanes
  refine ⟨?_, hkept.in_sync, hkept.idle⟩
  exact { hkept.store with
    flood := ⟨rest, hrest, hdistinct, List.Subset.trans hsubset hfloods.subset⟩
    fault_eq := by
      change (queue.store.fault || _) = false
      rw [hkept.store.fault_eq, Bool.false_or]
      exact hquiet }

theorem Kept.broadcastWithVisitor (opsBudget : Nat) (dexOpsBudget : Option Nat)
    (dampened : QueuedTransaction → Bool) (visitor : QueuedTransaction → VisitTxResult) :
    (queue.broadcastWithVisitor opsBudget dexOpsBudget dampened visitor).Kept :=
  (hkept.drained _ _ _ _).ban _

theorem Kept.rebroadcast (iteration : Iteration) (floodSeed : Nat) :
    (queue.rebroadcast iteration floodSeed).Kept := by
  refine ⟨?_, hkept.in_sync, hkept.idle⟩
  exact hkept.store.withFlood (FloodQueue.floods_resetAndRepopulate _ _ _ (iteration.perm _)
    hkept.store.distinct fun tx htx => (hkept.store.wellFormed tx htx).rated)

theorem Kept.updateClassicQueueCapacity (scaledMaxQueueOps : Nat) :
    (queue.updateClassicQueueCapacity scaledMaxQueueOps).Kept :=
  ⟨{ hkept.store with global := evictionHolds_none }, hkept.in_sync, hkept.idle⟩

theorem Kept.updateSorobanResourceLimits (resources : Resource 7) :
    (queue.updateSorobanResourceLimits resources).Kept :=
  ⟨{ hkept.store with soroban := evictionHolds_none }, hkept.in_sync, hkept.idle⟩

/-- Every operation keeps the queue in step. -/
theorem Kept.run (op : Op) : (op.run queue).Kept := by
  cases op with
  | tryAdd call env => exact hkept.tryAdd call env
  | ban hashes => exact hkept.ban hashes
  | removeApplied appliedTxs => exact hkept.removeApplied appliedTxs
  | shift accounts seed => exact hkept.shift accounts seed
  | evictExpired now => exact hkept.evictExpired now
  | clear seed floodSeed => exact hkept.clear seed floodSeed
  | resetAndRebuild iteration calls seed floodSeed =>
    exact hkept.resetAndRebuild iteration calls seed floodSeed
  | dropStalePending account onLedgerSeq => exact hkept.dropStalePending account onLedgerSeq
  | broadcastWithVisitor opsBudget dexOpsBudget dampened visitor =>
    exact hkept.broadcastWithVisitor opsBudget dexOpsBudget dampened visitor
  | rebroadcast iteration floodSeed => exact hkept.rebroadcast iteration floodSeed
  | updateClassicQueueCapacity scaledMaxQueueOps =>
    exact hkept.updateClassicQueueCapacity scaledMaxQueueOps
  | updateSorobanResourceLimits resources => exact hkept.updateSorobanResourceLimits resources

end

end TransactionQueue

/-- The states of a queue: what operations make of an empty one. -/
inductive Reachable {setting : Setting} : TransactionQueue setting → Prop where
  | empty (seed floodSeed : Nat) : Reachable (.withDepths seed floodSeed)
  | step {queue : TransactionQueue setting} (op : Op) (hqueue : Reachable queue) :
      Reachable (op.run queue)

theorem Reachable.kept {setting : Setting} {queue : TransactionQueue setting}
    (hqueue : Reachable queue) : queue.Kept := by
  induction hqueue with
  | empty seed floodSeed => exact TransactionQueue.kept_withDepths seed floodSeed
  | step op _ ih => exact ih.run op

end Henyey.TxQueue
