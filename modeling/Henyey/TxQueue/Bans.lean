import Henyey.Foundation.Rotation
import Henyey.TxQueue.KeptRuns

/-!
# Bans

The ban sets are a rotating window: every operation records what it bans, and
each shift rotates. What is banned is never queued.
-/

namespace Henyey.TxQueue

open Foundation.Rotation (Step recordInto RecordedWithin rotations)
open Foundation.Rotation TransactionQueue List

theorem banInto_eq (hashes : Finset Hash256) (window : List (Finset Hash256)) :
    banInto hashes window = recordInto hashes window := by
  fun_induction banInto hashes window with
  | case1 => rfl
  | case2 newest => rfl
  | case3 older newer hnewer ih =>
    rw [recordInto, ih]
    exact hnewer

namespace TransactionQueue

variable {setting : Setting} {queue : TransactionQueue setting}

theorem isBanned_iff (queue : TransactionQueue setting) (hash : Hash256) :
    queue.isBanned hash = true ↔ Foundation.Rotation.Holds queue.bannedTransactions hash := by
  simp [isBanned, Foundation.Rotation.Holds]

/-- What a submission evicts and bans. -/
def evictedBy (queue : TransactionQueue setting) (call : Call) (env : TransactionEnvelope) :
    List QueuedTransaction :=
  match queue.screen call env with
  | .error _ => []
  | .ok (queued, replacedTx) =>
    match (queue.checkAndCollectEvictions queued replacedTx).2 with
    | .error _ => []
    | .ok pending => if (queue.tryAdd call env).2 = .added then pending else []

/-- What a broadcast round bans: the dampened transactions it visits. -/
def dampenedBy (queue : TransactionQueue setting) (opsBudget : Nat) (dexOpsBudget : Option Nat)
    (dampened : QueuedTransaction → Bool) (visitor : QueuedTransaction → VisitTxResult) :
    List Hash256 :=
  let flood := queue.store.floodQueue
  let limits : Nat → Resource 1 := fun lane _ =>
    if lane = genericLane then (opsBudget : Int)
    else (dexOpsBudget.map fun budget => (budget : Int)).getD i64Max
  let lanes := range flood.queue.numLanes
  let fuel := (lanes.map fun lane => (flood.queue.lanes lane).length).sum + lanes.length + 1
  let visited := SurgePricingPriorityQueue.popTopTxs
    (fun tx => if dampened tx then .skipped else visitor tx) setting.ledgerVersion fuel
    flood.queue limits lanes
  (visited.2.1.filter dampened).map (·.hash)

/-- What a walk over the accounts ages out. -/
def agedOutBy (queue : TransactionQueue setting) (accounts : List AccountKey) :
    List QueuedTransaction :=
  (accounts.foldl shiftAccount
    ⟨{ queue with bannedTransactions := queue.bannedTransactions.tail ++ [∅] }, [], [], []⟩).evicted

/-- The bans of several submissions. -/
def logAll (queue : TransactionQueue setting) :
    List (Call × TransactionEnvelope) → List (Step Hash256)
  | [] => []
  | (call, env) :: rest =>
    .record ((queue.evictedBy call env).map (·.hash)).toFinset ::
      (queue.tryAdd call env).1.logAll rest

end TransactionQueue

/-- The bans and shifts of an operation, in order. -/
def Op.log {setting : Setting} (op : Op) (queue : TransactionQueue setting) : List (Step Hash256) :=
  match op with
  | tryAdd call env => [.record ((queue.evictedBy call env).map (·.hash)).toFinset]
  | ban hashes => [.record hashes.toFinset]
  | removeApplied appliedTxs =>
    appliedTxs.map fun applied => .record {setting.codec.hashXdr applied.1}
  | shift accounts _ =>
    .rotate :: (queue.agedOutBy accounts).map fun tx => .record {tx.hash}
  | resetAndRebuild iteration calls seed floodSeed =>
    let existingTxs := (iteration.order queue.store.byHash).map (·.envelope)
    let cleared : TransactionQueue setting := { queue.clear seed floodSeed with seen := ∅ }
    cleared.logAll ((existingTxs.zipIdx).map fun (env, index) => (calls index, env))
  | broadcastWithVisitor opsBudget dexOpsBudget dampened visitor =>
    [.record (queue.dampenedBy opsBudget dexOpsBudget dampened visitor).toFinset]
  | _ => []

namespace TransactionQueue

variable {setting : Setting} {queue : TransactionQueue setting}

theorem Kept.tryAdd_banned (hkept : queue.Kept) (call : Call) (env : TransactionEnvelope) :
    (queue.tryAdd call env).1.bannedTransactions =
        recordInto ((queue.evictedBy call env).map (·.hash)).toFinset queue.bannedTransactions ∧
      ∀ tx ∈ (queue.tryAdd call env).1.store.byHash,
        tx.hash ∉ (queue.evictedBy call env).map (·.hash) ∧
          (tx ∈ queue.store.byHash ∨ queue.isBanned tx.hash = false) := by
  unfold evictedBy
  rcases queue.tryAdd_cases call env with ⟨result, -, hscreen, heq⟩ |
    ⟨queued, replacedTx, result, hresult, hscreen, heq⟩ |
    ⟨queued, replacedTx, pending, roomy, hadmitted, heq⟩
  · rw [heq, hscreen]
    exact ⟨(recordInto_empty _).symm, fun tx htx => ⟨nofun, .inl htx⟩⟩
  · have hreviewed := (hkept.checkAndCollectEvictions queued replacedTx).1
    have hnone : (match (queue.checkAndCollectEvictions queued replacedTx).2 with
        | .error _ => []
        | .ok pending => if result = .added then pending else []) = [] := by
      split
      · rfl
      · exact if_neg hresult
    rw [heq, hscreen]
    dsimp only
    rw [hnone]
    refine ⟨hreviewed.banned_eq.trans (recordInto_empty _).symm, fun tx htx => ⟨nofun, .inl ?_⟩⟩
    rwa [hreviewed.byHash_eq] at htx
  · obtain ⟨-, hmem⟩ := hadmitted.result hkept
    obtain ⟨-, hsubset, hbanned, -⟩ := hadmitted.roomy_kept hkept
    have hpending := (hkept.checkAndCollectEvictions queued replacedTx).2 pending
      hadmitted.collected
    rw [heq, hadmitted.screen_eq]
    dsimp only
    rw [hadmitted.collected]
    simp only [if_true]
    refine ⟨?_, fun tx htx => ?_⟩
    · rw [← hbanned, ← banInto_eq]
      cases replacedTx <;> rfl
    · rcases (hmem tx).mp htx with rfl | ⟨⟨htx, hfree⟩, -⟩
      · refine ⟨fun hevicted => ?_, .inr hadmitted.screened.unbanned⟩
        obtain ⟨victim, hvictim, hhash⟩ := mem_map.mp hevicted
        exact hadmitted.screened.new_hash victim (hpending victim hvictim).mem hhash
      · exact ⟨hfree, .inl (hsubset htx)⟩

def NoneBanned (queue : TransactionQueue setting) : Prop :=
  ∀ tx ∈ queue.store.byHash, queue.isBanned tx.hash = false

theorem not_holds_of_unbanned {hash : Hash256} (hunbanned : queue.isBanned hash = false) :
    ¬Foundation.Rotation.Holds queue.bannedTransactions hash := by
  rw [← isBanned_iff, hunbanned]
  exact nofun

variable {after : TransactionQueue setting}

/-- Recording bans for hashes that are not queued keeps queued transactions
unbanned. -/
theorem NoneBanned.record (hnone : queue.NoneBanned) {hashes : Finset Hash256}
    (hbanned : after.bannedTransactions = recordInto hashes queue.bannedTransactions)
    (hqueued : ∀ tx ∈ after.store.byHash, tx.hash ∉ hashes ∧
      (tx ∈ queue.store.byHash ∨ queue.isBanned tx.hash = false)) : after.NoneBanned := by
  intro tx htx
  obtain ⟨hfree, horigin⟩ := hqueued tx htx
  have hbefore : queue.isBanned tx.hash = false := horigin.elim (hnone tx) id
  rw [← Bool.not_eq_true, isBanned_iff, hbanned]
  intro hholds
  rcases hholds.of_recordInto with hheld | hrecorded
  · exact not_holds_of_unbanned hbefore hheld
  · exact hfree hrecorded

theorem NoneBanned.of_subset (hnone : queue.NoneBanned)
    (hbanned : after.bannedTransactions = queue.bannedTransactions)
    (hsubset : after.store.byHash ⊆ queue.store.byHash) : after.NoneBanned := by
  intro tx htx
  have hunbanned := hnone tx (hsubset htx)
  rwa [isBanned, hbanned]

theorem Kept.tryAddAll_banned (hkept : queue.Kept) (calls : List (Call × TransactionEnvelope)) :
    (queue.tryAddAll calls).1.bannedTransactions =
        runAll (queue.logAll calls) queue.bannedTransactions ∧
      (queue.NoneBanned → (queue.tryAddAll calls).1.NoneBanned) := by
  induction calls generalizing queue with
  | nil => exact ⟨rfl, id⟩
  | cons head rest ih =>
    obtain ⟨hbanned, hqueued⟩ := hkept.tryAdd_banned head.1 head.2
    obtain ⟨hlater, hnone⟩ := ih (hkept.tryAdd head.1 head.2)
    refine ⟨hlater.trans ?_, fun hbefore => hnone (hbefore.record hbanned fun tx htx => ?_)⟩
    · rw [hbanned]
      rfl
    · obtain ⟨hfree, horigin⟩ := hqueued tx htx
      exact ⟨fun hmem => hfree (mem_toFinset.mp hmem), horigin⟩

theorem Kept.ban_banned (hkept : queue.Kept) (hashes : List Hash256) :
    (queue.ban hashes).bannedTransactions = recordInto hashes.toFinset queue.bannedTransactions ∧
      ∀ tx, tx ∈ (queue.ban hashes).store.byHash ↔ tx ∈ queue.store.byHash ∧ tx.hash ∉ hashes := by
  unfold TransactionQueue.ban
  split
  · next hempty =>
    subst hempty
    exact ⟨(recordInto_empty _).symm, by simp⟩
  · have hrecorded : ({ queue with
        bannedTransactions := banInto hashes.toFinset queue.bannedTransactions } :
          TransactionQueue setting).Kept := hkept.of_same rfl rfl rfl
    obtain ⟨-, hmem, hbanned⟩ := hrecorded.dropAll hashes
    refine ⟨?_, hmem⟩
    rw [hbanned]
    exact banInto_eq _ _

theorem Kept.ban_noneBanned (hkept : queue.Kept) (hnone : queue.NoneBanned)
    (hashes : List Hash256) : (queue.ban hashes).NoneBanned := by
  obtain ⟨hbanned, hmem⟩ := hkept.ban_banned hashes
  refine hnone.record hbanned fun tx htx => ?_
  obtain ⟨hbefore, hfree⟩ := (hmem tx).mp htx
  exact ⟨fun hrecorded => hfree (mem_toFinset.mp hrecorded), .inl hbefore⟩

theorem broadcastWithVisitor_eq (queue : TransactionQueue setting) (opsBudget : Nat)
    (dexOpsBudget : Option Nat) (dampened : QueuedTransaction → Bool)
    (visitor : QueuedTransaction → VisitTxResult) (hkept : queue.Kept) :
    ∃ drained : TransactionQueue setting, drained.Kept ∧
      drained.bannedTransactions = queue.bannedTransactions ∧
      drained.store.byHash = queue.store.byHash ∧
      queue.broadcastWithVisitor opsBudget dexOpsBudget dampened visitor =
        drained.ban (queue.dampenedBy opsBudget dexOpsBudget dampened visitor) := by
  refine ⟨_, ?_, ?_, ?_, rfl⟩
  · exact hkept.drained _ _ _ _
  · rfl
  · rfl

theorem Kept.applyOne_banned {pass : AppliedPass setting} (hkept : pass.queue.Kept)
    (applied : TransactionEnvelope × Int) :
    (TransactionQueue.applyOne pass applied).queue.bannedTransactions =
        recordInto {setting.codec.hashXdr applied.1} pass.queue.bannedTransactions ∧
      (TransactionQueue.applyOne pass applied).queue.store.byHash ⊆ pass.queue.store.byHash ∧
      ∀ tx ∈ (TransactionQueue.applyOne pass applied).queue.store.byHash,
        tx.account = accountKey applied.1 → applied.2 < tx.sequenceNumber := by
  unfold TransactionQueue.applyOne
  simp only
  cases hsuperseded : (pass.queue.accountStates (accountKey applied.1)).bind fun state =>
      state.transaction.filter fun tx => tx.sequenceNumber ≤ applied.2 with
  | none =>
    refine ⟨banInto_eq _ _, List.Subset.refl _, fun tx htx haccount => ?_⟩
    have hpending := hkept.pendingOf_eq htx
    rw [haccount] at hpending
    obtain ⟨state, hstate, htransaction⟩ := Option.bind_eq_some_iff.mp hpending
    rw [hstate, Option.bind_some, htransaction] at hsuperseded
    simpa using hsuperseded
  | some victim =>
    obtain ⟨-, hbyHash⟩ := hkept.store.remove pass.queue.limits_nonNegative victim.hash
    have hpending : pass.queue.accountStates.pendingOf (accountKey applied.1) = some victim := by
      obtain ⟨state, hstate, hfilter⟩ := Option.bind_eq_some_iff.mp hsuperseded
      rw [AccountStates.pendingOf, hstate, Option.bind_some]
      exact (Option.filter_eq_some_iff.mp hfilter).1
    change _ ∧ (pass.queue.store.remove victim.hash).1.byHash ⊆ _ ∧
      ∀ tx ∈ (pass.queue.store.remove victim.hash).1.byHash, _
    rw [hbyHash]
    refine ⟨banInto_eq _ _, fun tx htx => (mem_without.mp htx).1, fun tx htx haccount => ?_⟩
    obtain ⟨hmem, hne⟩ := mem_without.mp htx
    rw [← haccount, hkept.pendingOf_eq hmem] at hpending
    exact absurd (congrArg (·.hash) (Option.some.inj hpending)) hne

/-- Hashes identify the account and the sequence number of an envelope. -/
def Identifies (codec : Codec) : Prop :=
  ∀ a b, codec.hashXdr a = codec.hashXdr b →
    accountKey a = accountKey b ∧ envelopeSequenceNumber a = envelopeSequenceNumber b

def OwnSequence (appliedTxs : List (TransactionEnvelope × Int)) : Prop :=
  ∀ applied ∈ appliedTxs, applied.2 = envelopeSequenceNumber applied.1

theorem Kept.foldl_applyOne_banned (hidentifies : Identifies setting.codec)
    (appliedTxs : List (TransactionEnvelope × Int)) (happlied : OwnSequence appliedTxs)
    {pass : AppliedPass setting} (hkept : pass.queue.Kept) :
    (appliedTxs.foldl TransactionQueue.applyOne pass).queue.bannedTransactions =
        runAll
          (appliedTxs.map fun applied => .record {setting.codec.hashXdr applied.1})
          pass.queue.bannedTransactions ∧
      (pass.queue.NoneBanned →
        (appliedTxs.foldl TransactionQueue.applyOne pass).queue.NoneBanned) := by
  induction appliedTxs generalizing pass with
  | nil => exact ⟨rfl, id⟩
  | cons head rest ih =>
    obtain ⟨hhead, hrest⟩ := forall_mem_cons.mp happlied
    obtain ⟨hbanned, hsubset, hlater⟩ := hkept.applyOne_banned head
    obtain ⟨hlast, hnone⟩ := ih hrest (hkept.applyOne head)
    refine ⟨hlast.trans ?_, fun hbefore => hnone (hbefore.record hbanned fun tx htx => ?_)⟩
    · rw [hbanned]
      rfl
    · refine ⟨fun hsame => ?_, .inl (hsubset htx)⟩
      -- the applied transaction itself would have been superseded
      have hhash := (hkept.applyOne head).store.wellFormed tx htx |>.hash_eq
      obtain ⟨haccount, hsequence⟩ := hidentifies _ _ (hhash.symm.trans (Finset.mem_singleton.mp hsame))
      have hless := hlater tx htx haccount
      rw [hhead, ← hsequence] at hless
      exact lt_irrefl _ hless

/-- One account of the walk: at most its pending transaction is banned, and
then it is not queued any more. -/
theorem shiftAccount_banned (pass : ShiftPass setting) (account : AccountKey) :
    ∃ out : List QueuedTransaction,
      (shiftAccount pass account).evicted = pass.evicted ++ out ∧
      (shiftAccount pass account).queue.bannedTransactions =
        runAll (out.map fun tx => .record {tx.hash})
          pass.queue.bannedTransactions ∧
      (pass.queue.NoneBanned → (shiftAccount pass account).queue.NoneBanned) := by
  unfold shiftAccount
  split
  · exact ⟨[], (append_nil _).symm, rfl, id⟩
  · split
    · exact ⟨[], (append_nil _).symm, rfl, id⟩
    · next tx htx =>
      simp only
      split
      · have hstore : ∀ store : QueueStore setting, store.byHash = pass.queue.store.byHash →
            (store.remove tx.hash).1.byHash ⊆ without tx.hash pass.queue.store.byHash := by
          intro store hbyHash other hother
          unfold QueueStore.remove at hother
          split at hother
          · next hget =>
            rw [← hbyHash]
            exact mem_without.mpr ⟨hother, QueueStore.get_eq_none hget other hother⟩
          · next victim hget =>
            rw [← hbyHash, ← (QueueStore.get_eq_some hget).2]
            exact hother
        refine ⟨[tx], rfl, banInto_eq _ _, fun hnone => ?_⟩
        refine hnone.record (banInto_eq _ _) fun other hother => ?_
        obtain ⟨hmem, hne⟩ := mem_without.mp (hstore _ (by split <;> rfl) hother)
        exact ⟨fun hsame => hne (Finset.mem_singleton.mp hsame), .inl hmem⟩
      · refine ⟨[], (append_nil _).symm, rfl, fun hnone => hnone.of_subset rfl ?_⟩
        change QueueStore.byHash (ite _ _ _) ⊆ _
        split <;> exact List.Subset.refl _

theorem foldl_shiftAccount_banned (accounts : List AccountKey) (pass : ShiftPass setting) :
    ∃ out : List QueuedTransaction,
      (accounts.foldl shiftAccount pass).evicted = pass.evicted ++ out ∧
      (accounts.foldl shiftAccount pass).queue.bannedTransactions =
        runAll (out.map fun tx => .record {tx.hash})
          pass.queue.bannedTransactions ∧
      (pass.queue.NoneBanned → (accounts.foldl shiftAccount pass).queue.NoneBanned) := by
  induction accounts generalizing pass with
  | nil => exact ⟨[], (append_nil _).symm, rfl, id⟩
  | cons head rest ih =>
    obtain ⟨first, hfirst, hbanned, hnone⟩ := shiftAccount_banned pass head
    obtain ⟨out, hout, hlater, hlast⟩ := ih (shiftAccount pass head)
    refine ⟨first ++ out, ?_, ?_, fun hbefore => hlast (hnone hbefore)⟩
    · rw [foldl_cons, hout, hfirst, append_assoc]
    · rw [foldl_cons, hlater, hbanned, map_append, runAll, runAll, runAll, foldl_append]

theorem shift_banned (queue : TransactionQueue setting) (accounts : List AccountKey) (seed : Nat) :
    (queue.shift accounts seed).1.bannedTransactions =
        runAll
          (.rotate :: (queue.agedOutBy accounts).map fun tx => .record {tx.hash})
          queue.bannedTransactions ∧
      (queue.NoneBanned → (queue.shift accounts seed).1.NoneBanned) := by
  obtain ⟨out, hout, hbanned, hnone⟩ := foldl_shiftAccount_banned accounts
    (⟨{ queue with bannedTransactions := queue.bannedTransactions.tail ++ [∅] }, [], [], []⟩ :
      ShiftPass setting)
  rw [nil_append] at hout
  constructor
  · rw [agedOutBy, hout]
    exact hbanned
  · intro hbefore
    have hrotated : ({ queue with
        bannedTransactions := queue.bannedTransactions.tail ++ [∅] } :
          TransactionQueue setting).NoneBanned := by
      intro tx htx
      rw [← Bool.not_eq_true, isBanned_iff]
      intro hholds
      have hheld := Foundation.Rotation.Holds.of_rotate hholds
      exact not_holds_of_unbanned (hbefore tx htx) hheld
    have hwalked := hnone hrotated
    exact hwalked.of_subset rfl (List.Subset.refl _)

end TransactionQueue

end Henyey.TxQueue
