import Henyey.TxQueue.Eviction

/-!
# Admission, step by step

A submission is refused by the checks on arrival, refused after an eviction
check, or admitted. What each case leaves is stated once here.
-/

namespace Henyey.TxQueue

namespace AccountStates

/-- Only fees changed: pending transactions stay where they are. -/
structure Settles (before after : AccountStates) : Prop where
  pendingOf_eq : ∀ account, after.pendingOf account = before.pendingOf account
  idle : ∀ account, before.IdleAt account → after.IdleAt account

theorem Settles.refl (states : AccountStates) : states.Settles states :=
  ⟨fun _ => rfl, fun _ hidle => hidle⟩

theorem Settles.trans {before middle after : AccountStates} (hfirst : before.Settles middle)
    (hsecond : middle.Settles after) : before.Settles after :=
  ⟨fun account => (hsecond.pendingOf_eq account).trans (hfirst.pendingOf_eq account),
    fun account hidle => hsecond.idle account (hfirst.idle account hidle)⟩

theorem settles_releaseFee (states : AccountStates) (key : AccountKey) (tx : QueuedTransaction) :
    states.Settles (states.modify key (.releaseFee tx)) :=
  ⟨fun account => pendingOf_releaseFee states key account tx,
    fun _ hidle => hidle.modify key fun _ hstate => hstate⟩

theorem settles_removeIfEmpty (states : AccountStates) (key : AccountKey) :
    states.Settles (states.removeIfEmpty key) :=
  ⟨fun account => pendingOf_removeIfEmpty states key account,
    fun _ hidle => hidle.removeIfEmpty key⟩

theorem settles_releaseReplaced (states : AccountStates) (oldTx newTx : QueuedTransaction) :
    states.Settles (states.releaseReplaced oldTx newTx) :=
  ⟨fun account => pendingOf_releaseReplaced states oldTx newTx account,
    fun _ hidle => hidle.releaseReplaced oldTx newTx⟩

theorem settles_foldl {α : Type} {step : AccountStates → α → AccountStates}
    (hstep : ∀ (states : AccountStates) (item : α), states.Settles (step states item)) (items : List α)
    (states : AccountStates) : states.Settles (items.foldl step states) := by
  induction items generalizing states with
  | nil => exact .refl states
  | cons item rest ih => exact (hstep states item).trans (ih (step states item))

theorem InSync.settle {before after : AccountStates} {txs : List QueuedTransaction}
    (hsync : before.InSync txs) (hsettles : before.Settles after) : after.InSync txs := by
  intro account tx
  rw [hsettles.pendingOf_eq]
  exact hsync account tx

theorem InSync.forget {before after : AccountStates} {txs : List QueuedTransaction}
    (hsync : before.InSync txs) (hdistinct : DistinctHashes txs) {account : AccountKey}
    {tx : QueuedTransaction} (hpending : before.pendingOf account = some tx)
    (hafter : ∀ other, after.pendingOf other =
      if other = account then none else before.pendingOf other) :
    after.InSync (without tx.hash txs) := by
  obtain ⟨htx, haccount⟩ := (hsync account tx).mp hpending
  intro other found
  rw [hafter, mem_without]
  split
  · next hsame =>
    subst hsame
    refine ⟨nofun, fun ⟨⟨hfound, hne⟩, hfoundAccount⟩ => ?_⟩
    rw [(hsync other found).mpr ⟨hfound, hfoundAccount⟩] at hpending
    exact absurd (congrArg (·.hash) (Option.some.inj hpending)) hne
  · next hne =>
    rw [hsync other found]
    refine ⟨fun ⟨hfound, hfoundAccount⟩ => ⟨⟨hfound, fun hhash => hne ?_⟩, hfoundAccount⟩,
      fun ⟨⟨hfound, _⟩, hfoundAccount⟩ => ⟨hfound, hfoundAccount⟩⟩
    rw [← hfoundAccount, hdistinct.eq_of_hash hfound htx hhash, haccount]

theorem pendingOf_clearTransaction (states : AccountStates) (key account : AccountKey) :
    (states.modify key .clearTransaction).pendingOf account =
      if account = key then none else states.pendingOf account := by
  by_cases hkey : account = key
  · subst hkey
    rw [pendingOf, modify_self, if_pos rfl]
    cases states account <;> rfl
  · rw [pendingOf, modify_of_ne _ hkey, if_neg hkey, pendingOf]

theorem IdleAt.clearTransaction {states : AccountStates} {account : AccountKey}
    (hidle : states.IdleAt account) (key : AccountKey) :
    (states.modify key .clearTransaction).IdleAt account :=
  hidle.modify key fun _ _ _ => rfl

end AccountStates

namespace TransactionQueue

variable {setting : Setting} {queue : TransactionQueue setting} {tx : QueuedTransaction}

theorem Kept.settle (hkept : queue.Kept) {after : TransactionQueue setting}
    (hstore : after.store = queue.store)
    (hsettles : queue.accountStates.Settles after.accountStates)
    (hlimits : after.limits = queue.limits) : after.Kept := by
  refine ⟨?_, ?_, fun account => hsettles.idle account (hkept.idle account)⟩
  · rw [hstore, hlimits]
    exact hkept.store
  · rw [hstore]
    exact hkept.in_sync.settle hsettles

theorem Kept.evict (hkept : queue.Kept)
    (hsame : ∀ other ∈ queue.store.byHash, other.hash = tx.hash → other = tx) :
    (queue.evict tx).Kept :=
  hkept.drop hsame rfl rfl rfl

theorem Kept.byHash_evict (hkept : queue.Kept) (tx : QueuedTransaction) :
    (queue.evict tx).store.byHash = without tx.hash queue.store.byHash :=
  (hkept.store.remove queue.limits_nonNegative tx.hash).2

variable {pending : List QueuedTransaction}

/-- Evicting a list of transactions takes exactly these out. -/
theorem Kept.foldl_evict (hkept : queue.Kept)
    (hsame : ∀ tx ∈ pending, ∀ other ∈ queue.store.byHash, other.hash = tx.hash → other = tx) :
    (pending.foldl TransactionQueue.evict queue).Kept ∧
      ∀ tx, tx ∈ (pending.foldl TransactionQueue.evict queue).store.byHash ↔
        tx ∈ queue.store.byHash ∧ tx.hash ∉ pending.map (·.hash) := by
  induction pending generalizing queue with
  | nil => exact ⟨hkept, by simp⟩
  | cons head rest ih =>
    obtain ⟨hhead, hrest⟩ := List.forall_mem_cons.mp hsame
    have hbyHash := hkept.byHash_evict head
    have hsame' : ∀ tx ∈ rest, ∀ other ∈ (queue.evict head).store.byHash, other.hash = tx.hash →
        other = tx := by
      rw [hbyHash]
      exact fun tx htx other hother => hrest tx htx other (mem_without.mp hother).1
    obtain ⟨hlast, hmem⟩ := ih (hkept.evict hhead) hsame'
    refine ⟨hlast, fun tx => ?_⟩
    rw [List.foldl_cons, hmem, hbyHash, mem_without, List.map_cons, List.mem_cons, not_or,
      and_assoc]

theorem commitEvictions_eq (queue : TransactionQueue setting) (pending : List QueuedTransaction) :
    (queue.commitEvictions pending).store = (pending.foldl TransactionQueue.evict queue).store ∧
      (queue.commitEvictions pending).accountStates =
        (pending.foldl TransactionQueue.evict queue).accountStates ∧
      (pending.foldl TransactionQueue.evict queue).limits = queue.limits := by
  induction pending generalizing queue with
  | nil => exact ⟨rfl, rfl, rfl⟩
  | cons head rest ih => exact ih (queue.evict head)

theorem Kept.commitEvictions (hkept : queue.Kept)
    (hsame : ∀ tx ∈ pending, ∀ other ∈ queue.store.byHash, other.hash = tx.hash → other = tx) :
    (queue.commitEvictions pending).Kept ∧
      ∀ tx, tx ∈ (queue.commitEvictions pending).store.byHash ↔
        tx ∈ queue.store.byHash ∧ tx.hash ∉ pending.map (·.hash) := by
  obtain ⟨hstore, hstates, hlimits⟩ := queue.commitEvictions_eq pending
  obtain ⟨hevicted, hmem⟩ := hkept.foldl_evict hsame
  rw [← hstore] at hmem
  exact ⟨hevicted.of_same hstore hstates hlimits.symm, hmem⟩

/-- What passes the checks on arrival. -/
structure Screened (queue : TransactionQueue setting) (call : Call) (env : TransactionEnvelope)
    (queued : QueuedTransaction) (replacedTx : Option QueuedTransaction) : Prop where
  valid : call.validateTransaction env = none
  built : QueuedTransaction.new setting.codec env call.now = some queued
  unseen : queued.hash ∉ queue.seen
  unbanned : queue.isBanned queued.hash = false
  absent : queue.store.containsKey queued.hash = false
  account : queue.checkAccountLimit queued = .ok replacedTx

variable {replacedTx : Option QueuedTransaction} {queued : QueuedTransaction}
  {env : TransactionEnvelope} {call : Call}

theorem screened_of_screen (hscreen : queue.screen call env = .ok (queued, replacedTx)) :
    queue.Screened call env queued replacedTx := by
  unfold screen at hscreen
  split at hscreen
  · cases hscreen
  · split at hscreen
    · cases hscreen
    · next hvalid =>
      split at hscreen
      · cases hscreen
      · next built hbuilt =>
        simp only at hscreen
        split at hscreen
        · cases hscreen
        · next hunseen =>
          split at hscreen
          · cases hscreen
          · next hunbanned =>
            -- filter, fee and resource checks only refuse
            split at hscreen
            · cases hscreen
            · split at hscreen
              · cases hscreen
              · split at hscreen
                · cases hscreen
                · split at hscreen
                  · cases hscreen
                  · next habsent =>
                    cases hlimit : queue.checkAccountLimit built with
                    | error result =>
                      rw [hlimit] at hscreen
                      cases hscreen
                    | ok replaced =>
                      rw [hlimit] at hscreen
                      cases hscreen
                      exact ⟨hvalid, hbuilt, hunseen, by simpa using hunbanned,
                        by simpa using habsent, hlimit⟩

section

variable (hscreened : queue.Screened call env queued replacedTx)
include hscreened

theorem Screened.wellFormed : queued.WellFormed setting := by
  obtain ⟨rfl, hhash, htotal, hrate, hfee, -, -⟩ := QueuedTransaction.new_eq_some hscreened.built
  refine ⟨hhash, htotal, htotal ▸ hfee, hrate, ?_⟩
  have hops := List.length_pos_of_ne_nil (call.refusesEmpty _ hscreened.valid)
  rw [hrate]
  simp only [envelopeOperationCount]
  split <;> omega

theorem Screened.new_hash : ∀ other ∈ queue.store.byHash, other.hash ≠ queued.hash := by
  have habsent := hscreened.absent
  rw [QueueStore.containsKey, Option.isSome_eq_false_iff, Option.isNone_iff_eq_none] at habsent
  exact QueueStore.get_eq_none habsent

end

theorem replacedTx_eq (haccount : queue.checkAccountLimit queued = .ok replacedTx) :
    replacedTx = queue.accountStates.pendingOf queued.account := by
  unfold checkAccountLimit at haccount
  rw [AccountStates.pendingOf]
  split at haccount
  · next hnone =>
    cases haccount
    rw [hnone]
    rfl
  · next state hstate =>
    rw [hstate, Option.bind_some]
    split at haccount
    · next current hcurrent =>
      rw [hcurrent]
      split at haccount
      · cases haccount
      · split at haccount
        · cases haccount
        · split at haccount
          · cases haccount
          · split at haccount
            · cases haccount
            · split at haccount
              · cases haccount
              · split at haccount
                · cases haccount
                · cases haccount
                  rfl
    · next hnone =>
      split at haccount
      · cases haccount
      · cases haccount
        exact hnone.symm

/-- A submission that was admitted, with what it went through. -/
structure Admitted (queue : TransactionQueue setting) (call : Call) (env : TransactionEnvelope)
    (queued : QueuedTransaction) (replacedTx : Option QueuedTransaction)
    (pending : List QueuedTransaction) (roomy : TransactionQueue setting) : Prop where
  screen_eq : queue.screen call env = .ok (queued, replacedTx)
  screened : queue.Screened call env queued replacedTx
  collected : (queue.checkAndCollectEvictions queued replacedTx).2 = .ok pending
  affordable : (queue.checkAndCollectEvictions queued replacedTx).1.validateFeeBalance call queued
    replacedTx = none
  capacity : (queue.checkAndCollectEvictions queued replacedTx).1.ensureQueueCapacity call
    pending.length queued = some roomy

theorem checkAccountLimit_ne_added (queue : TransactionQueue setting)
    (queued : QueuedTransaction) : queue.checkAccountLimit queued ≠ .error .added := by
  unfold checkAccountLimit
  grind

theorem checkCrossTypeConflictWith_ne_added (queue : TransactionQueue setting)
    (seqSource : AccountKey) (isSoroban : Bool) :
    queue.checkCrossTypeConflictWith seqSource isSoroban ≠ some .added := by
  unfold checkCrossTypeConflictWith
  grind

theorem screen_ne_added (queue : TransactionQueue setting) (call : Call)
    (env : TransactionEnvelope) : queue.screen call env ≠ .error .added := by
  intro hadded
  have hcross := queue.checkCrossTypeConflictWith_ne_added (accountKey env) (isSorobanEnvelope env)
  have hlimit := queue.checkAccountLimit_ne_added
  unfold screen at hadded
  split at hadded
  · grind
  · split at hadded
    · cases hadded
    · split at hadded
      · cases hadded
      · next queued _ =>
        have hlast : (queue.checkAccountLimit queued).map (queued, ·) ≠ .error .added := by
          cases heq : queue.checkAccountLimit queued with
          | ok replacedTx => exact nofun
          | error result =>
            intro hsame
            cases hsame
            exact hlimit queued heq
        grind

theorem checkAndCollectEvictions_ne_added (queue : TransactionQueue setting)
    (queued : QueuedTransaction) (replacedTx : Option QueuedTransaction) :
    (queue.checkAndCollectEvictions queued replacedTx).2 ≠ .error .added := by
  unfold checkAndCollectEvictions
  grind

theorem validateFeeBalance_ne_added (queue : TransactionQueue setting) (call : Call)
    (queued : QueuedTransaction) (replacedTx : Option QueuedTransaction) :
    queue.validateFeeBalance call queued replacedTx ≠ some .added := by
  unfold validateFeeBalance
  grind

/-- The three ways a submission ends. -/
theorem tryAdd_cases (queue : TransactionQueue setting) (call : Call) (env : TransactionEnvelope) :
    (∃ result, result ≠ .added ∧ queue.screen call env = .error result ∧
      queue.tryAdd call env = (queue, result)) ∨
    (∃ queued replacedTx result, result ≠ .added ∧
      queue.screen call env = .ok (queued, replacedTx) ∧
      queue.tryAdd call env = ((queue.checkAndCollectEvictions queued replacedTx).1, result)) ∨
    (∃ queued replacedTx pending roomy, queue.Admitted call env queued replacedTx pending roomy ∧
      queue.tryAdd call env =
        (((roomy.commitEvictions pending).removeReplaced queued replacedTx).enter queued
          replacedTx, .added)) := by
  unfold tryAdd
  cases hscreen : queue.screen call env with
  | error result =>
    refine .inl ⟨result, fun hadded => ?_, rfl, rfl⟩
    exact queue.screen_ne_added call env (hadded ▸ hscreen)
  | ok screened =>
    obtain ⟨queued, replacedTx⟩ := screened
    simp only
    cases hcollected : (queue.checkAndCollectEvictions queued replacedTx).2 with
    | error result =>
      refine .inr (.inl ⟨queued, replacedTx, result, fun hadded => ?_, rfl, rfl⟩)
      exact queue.checkAndCollectEvictions_ne_added queued replacedTx (hadded ▸ hcollected)
    | ok pending =>
      simp only
      cases hbalance : (queue.checkAndCollectEvictions queued replacedTx).1.validateFeeBalance call
          queued replacedTx with
      | some result =>
        refine .inr (.inl ⟨queued, replacedTx, result, fun hadded => ?_, rfl, rfl⟩)
        exact validateFeeBalance_ne_added _ call queued replacedTx (hadded ▸ hbalance)
      | none =>
        simp only
        cases hcapacity : (queue.checkAndCollectEvictions queued replacedTx).1.ensureQueueCapacity
            call pending.length queued with
        | none => exact .inr (.inl ⟨queued, replacedTx, .queueFull, nofun, rfl, rfl⟩)
        | some roomy =>
          exact .inr (.inr ⟨queued, replacedTx, pending, roomy,
            ⟨hscreen, screened_of_screen hscreen, hcollected, hbalance, hcapacity⟩, rfl⟩)

variable {roomy : TransactionQueue setting}

theorem ensureQueueCapacity_cases {count : Nat}
    (hcapacity : queue.ensureQueueCapacity call count queued = some roomy) :
    queue.store.len - count < queue.effectiveMaxSize ∧ roomy = queue ∨
      queue.effectiveMaxSize ≤ queue.store.len - count ∧
        ∃ victim, queue.capacityVictim call queued = some victim ∧ roomy = queue.evict victim := by
  unfold ensureQueueCapacity at hcapacity
  split at hcapacity
  · next hroom =>
    cases hcapacity
    exact .inl ⟨hroom, rfl⟩
  · next hfull =>
    obtain ⟨victim, hvictim, rfl⟩ := Option.map_eq_some_iff.mp hcapacity
    exact .inr ⟨not_lt.mp hfull, victim, hvictim, rfl⟩

theorem mem_of_capacityVictim {queued victim : QueuedTransaction}
    (hvictim : queue.capacityVictim call queued = some victim) : victim ∈ queue.store.byHash := by
  unfold capacityVictim at hvictim
  split at hvictim
  · next expired hexpired =>
    cases hvictim
    exact (call.iteration.perm _).mem_iff.mp (List.mem_of_find?_eq_some hexpired)
  · split at hvictim
    · cases hvictim
    · split at hvictim
      · exact (QueueStore.get_eq_some hvictim).1
      · cases hvictim

section

variable (hkept : queue.Kept)
include hkept

theorem Kept.removeReplaced_enter (hwell : queued.WellFormed setting)
    (hnew : ∀ other ∈ queue.store.byHash, other.hash ≠ queued.hash)
    (hreplaced : ∀ other ∈ queue.store.byHash,
      other.account = queued.account ↔ ∃ oldTx ∈ replacedTx, other.hash = oldTx.hash) :
    ((queue.removeReplaced queued replacedTx).enter queued replacedTx).Kept ∧
      ∀ tx, tx ∈ ((queue.removeReplaced queued replacedTx).enter queued replacedTx).store.byHash ↔
        tx = queued ∨ tx ∈ queue.store.byHash ∧ tx.account ≠ queued.account := by
  have hremoved : (queue.removeReplaced queued replacedTx).store.Kept queue.limits ∧
      queue.accountStates.Settles (queue.removeReplaced queued replacedTx).accountStates ∧
      (queue.removeReplaced queued replacedTx).limits = queue.limits ∧
      ∀ tx, tx ∈ (queue.removeReplaced queued replacedTx).store.byHash ↔
        tx ∈ queue.store.byHash ∧ tx.account ≠ queued.account := by
    cases replacedTx with
    | none =>
      refine ⟨hkept.store, .refl _, rfl, fun tx => ⟨fun htx => ⟨htx, fun haccount => ?_⟩,
        fun ⟨htx, _⟩ => htx⟩⟩
      obtain ⟨oldTx, hold, -⟩ := (hreplaced tx htx).mp haccount
      cases hold
    | some oldTx =>
      obtain ⟨hstore, hbyHash⟩ := hkept.store.remove queue.limits_nonNegative oldTx.hash
      refine ⟨hstore, AccountStates.settles_releaseReplaced _ _ _, rfl, fun tx => ?_⟩
      change tx ∈ (queue.store.remove oldTx.hash).1.byHash ↔ _
      rw [hbyHash, mem_without, and_congr_right_iff]
      intro htx
      rw [Ne, Ne, hreplaced tx htx]
      simp
  obtain ⟨hstore, hsettles, hlimits, hmem⟩ := hremoved
  have hnew' : ∀ other ∈ (queue.removeReplaced queued replacedTx).store.byHash,
      other.hash ≠ queued.hash := fun other hother => hnew other ((hmem other).mp hother).1
  obtain ⟨hinserted, hbyHash⟩ := hstore.insert hwell hnew'
  refine ⟨⟨?_, ?_, fun account => ?_⟩, fun tx => ?_⟩
  · rw [← hlimits] at hinserted
    exact hinserted
  · have hentered := hkept.in_sync.enter hmem hsettles.pendingOf_eq replacedTx
    rw [← hbyHash] at hentered
    exact hentered
  · exact (hsettles.idle account (hkept.idle account)).enter queued replacedTx
  · change tx ∈ ((queue.removeReplaced queued replacedTx).store.insert queued).byHash ↔ _
    rw [hbyHash, List.mem_cons, hmem]

section

variable (hadmitted : queue.Admitted call env queued replacedTx pending roomy)
include hadmitted

theorem Admitted.roomy_kept :
    roomy.Kept ∧ roomy.store.byHash ⊆ queue.store.byHash ∧
      roomy.bannedTransactions = queue.bannedTransactions ∧ roomy.limits = queue.limits := by
  have hreviewed := (hkept.checkAndCollectEvictions queued replacedTx).1
  rcases ensureQueueCapacity_cases hadmitted.capacity with
    ⟨-, rfl⟩ | ⟨-, victim, hvictim, rfl⟩
  · exact ⟨hreviewed.kept, hreviewed.byHash_eq ▸ List.Subset.refl _, hreviewed.banned_eq,
      hreviewed.limits_eq⟩
  · have hmem := mem_of_capacityVictim hvictim
    refine ⟨hreviewed.kept.evict fun other hother hhash =>
      hreviewed.kept.store.eq_of_hash hother hmem hhash, ?_, hreviewed.banned_eq,
      hreviewed.limits_eq⟩
    rw [hreviewed.kept.byHash_evict, hreviewed.byHash_eq]
    exact fun tx htx => (mem_without.mp htx).1

/-- What admission leaves: the newcomer, and of what was there the transactions
of other accounts that neither pass nor capacity evicted. -/
theorem Admitted.result :
    (((roomy.commitEvictions pending).removeReplaced queued replacedTx).enter queued
        replacedTx).Kept ∧
      ∀ tx, tx ∈ (((roomy.commitEvictions pending).removeReplaced queued replacedTx).enter queued
          replacedTx).store.byHash ↔
        tx = queued ∨ (tx ∈ roomy.store.byHash ∧ tx.hash ∉ pending.map (·.hash)) ∧
          tx.account ≠ queued.account := by
  obtain ⟨hroomy, hsubset, -, -⟩ := hadmitted.roomy_kept hkept
  have hpending := (hkept.checkAndCollectEvictions queued replacedTx).2 pending hadmitted.collected
  obtain ⟨hcommitted, hmem⟩ := hroomy.commitEvictions fun tx htx other hother hhash =>
    hkept.store.eq_of_hash (hsubset hother) (hpending tx htx).mem hhash
  have hqueued : ∀ other ∈ (roomy.commitEvictions pending).store.byHash,
      other ∈ queue.store.byHash := fun other hother => hsubset ((hmem other).mp hother).1
  have hreplaced := replacedTx_eq hadmitted.screened.account
  have hexact : ∀ other ∈ (roomy.commitEvictions pending).store.byHash,
      other.account = queued.account ↔ ∃ oldTx ∈ replacedTx, other.hash = oldTx.hash := by
    intro other hother
    rw [hreplaced]
    constructor
    · intro haccount
      exact ⟨other, (hkept.in_sync _ _).mpr ⟨hqueued other hother, haccount⟩, rfl⟩
    · rintro ⟨oldTx, hold, hhash⟩
      obtain ⟨holdMem, holdAccount⟩ := (hkept.in_sync _ _).mp hold
      rw [hkept.store.eq_of_hash (hqueued other hother) holdMem hhash, holdAccount]
  obtain ⟨hentered, hresult⟩ := hcommitted.removeReplaced_enter hadmitted.screened.wellFormed
    (fun other hother => hadmitted.screened.new_hash other (hqueued other hother)) hexact
  refine ⟨hentered, fun tx => ?_⟩
  rw [hresult, hmem]

end

theorem Kept.tryAdd (call : Call) (env : TransactionEnvelope) : (queue.tryAdd call env).1.Kept := by
  rcases queue.tryAdd_cases call env with ⟨result, -, -, heq⟩ |
    ⟨queued, replacedTx, result, -, -, heq⟩ | ⟨queued, replacedTx, pending, roomy, hadmitted, heq⟩
  · rw [heq]
    exact hkept
  · rw [heq]
    exact (hkept.checkAndCollectEvictions queued replacedTx).1.kept
  · rw [heq]
    exact (hadmitted.result hkept).1

end

end TransactionQueue

end Henyey.TxQueue
