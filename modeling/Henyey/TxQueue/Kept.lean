import Henyey.TxQueue.StoreKept

/-!
# What the queue keeps

In every state of a queue the store is in step, the pending transaction of an
account is the queued transaction with that sequence source, and the age of an
account without one is zero.
-/

namespace Henyey.TxQueue

open Function

namespace AccountStates

def pendingOf (states : AccountStates) (account : AccountKey) : Option QueuedTransaction :=
  (states account).bind (·.transaction)

/-- Accounts without a pending transaction do not age. -/
def IdleAt (states : AccountStates) (account : AccountKey) : Prop :=
  ∀ state, states account = some state → state.transaction = none → state.age = 0

/-- The pending transactions are the queued ones, each at its sequence
source. -/
def InSync (states : AccountStates) (txs : List QueuedTransaction) : Prop :=
  ∀ account tx, states.pendingOf account = some tx ↔ tx ∈ txs ∧ tx.account = account

variable {states : AccountStates} {txs : List QueuedTransaction} {tx : QueuedTransaction}

theorem modify_of_ne {key account : AccountKey} (f : AccountState → AccountState)
    (hne : account ≠ key) : states.modify key f account = states account :=
  update_of_ne hne _ _

theorem modify_self (key : AccountKey) (f : AccountState → AccountState) :
    states.modify key f key = (states key).map f :=
  update_self _ _ _

theorem removeIfEmpty_cases (states : AccountStates) (key account : AccountKey) :
    states.removeIfEmpty key account = states account ∨
      account = key ∧ states.removeIfEmpty key account = none ∧
        ∃ state, states account = some state ∧ state.isEmpty = true := by
  unfold removeIfEmpty
  cases hstate : states key with
  | none => exact .inl rfl
  | some state =>
    by_cases hempty : state.isEmpty
    · by_cases hkey : account = key
      · subst hkey
        exact .inr ⟨rfl, by simp [hempty], state, hstate, hempty⟩
      · exact .inl (by simp [hempty, update_of_ne hkey])
    · exact .inl (by simp [hempty])

theorem transaction_of_isEmpty {state : AccountState} (hempty : state.isEmpty = true) :
    state.transaction = none := by
  simp only [AccountState.isEmpty, Bool.and_eq_true, Option.isNone_iff_eq_none] at hempty
  exact hempty.1.1.1

@[simp]
theorem pendingOf_removeIfEmpty (states : AccountStates) (key account : AccountKey) :
    (states.removeIfEmpty key).pendingOf account = states.pendingOf account := by
  rcases removeIfEmpty_cases states key account with hsame | ⟨-, hnone, state, hstate, hempty⟩
  · rw [pendingOf, hsame, pendingOf]
  · rw [pendingOf, hnone, pendingOf, hstate]
    exact (transaction_of_isEmpty hempty).symm

variable {f : AccountState → AccountState}

theorem pendingOf_modify (key account : AccountKey)
    (hf : ∀ state, (f state).transaction = state.transaction) :
    (states.modify key f).pendingOf account = states.pendingOf account := by
  by_cases hkey : account = key
  · subst hkey
    rw [pendingOf, modify_self, pendingOf]
    cases states account with
    | none => rfl
    | some state => exact hf state
  · rw [pendingOf, modify_of_ne f hkey, pendingOf]

@[simp]
theorem pendingOf_releaseFee (states : AccountStates) (key account : AccountKey)
    (tx : QueuedTransaction) :
    (states.modify key (.releaseFee tx)).pendingOf account = states.pendingOf account :=
  pendingOf_modify key account fun _ => rfl

variable {account : AccountKey}

theorem IdleAt.removeIfEmpty (hidle : states.IdleAt account)
    (key : AccountKey) : (states.removeIfEmpty key).IdleAt account := by
  intro state hstate hnone
  rcases removeIfEmpty_cases states key account with hsame | ⟨-, hgone, -⟩
  · exact hidle state (hsame ▸ hstate) hnone
  · rw [hgone] at hstate
    cases hstate

theorem IdleAt.modify (hidle : states.IdleAt account) (key : AccountKey)
    (hf : ∀ state, (state.transaction = none → state.age = 0) → (f state).transaction = none →
      (f state).age = 0) : (states.modify key f).IdleAt account := by
  intro state hstate hnone
  by_cases hkey : account = key
  · subst hkey
    rw [modify_self, Option.map_eq_some_iff] at hstate
    obtain ⟨before, hbefore, rfl⟩ := hstate
    exact hf before (hidle before hbefore) hnone
  · rw [modify_of_ne f hkey] at hstate
    exact hidle state hstate hnone

theorem pendingOf_dropTransaction (states : AccountStates) (tx : QueuedTransaction)
    (account : AccountKey) :
    (states.dropTransaction tx).pendingOf account =
      if account = tx.account ∧ (states.pendingOf account).map (·.hash) = some tx.hash then none
      else states.pendingOf account := by
  have hfirst : ((states.modify tx.account fun state =>
      if state.transaction.map (·.hash) = some tx.hash then state.clearTransaction
      else state).modify tx.payer (.releaseFee tx)).pendingOf account =
      if account = tx.account ∧ (states.pendingOf account).map (·.hash) = some tx.hash then none
      else states.pendingOf account := by
    rw [pendingOf_releaseFee]
    by_cases haccount : account = tx.account
    · subst haccount
      rw [pendingOf, modify_self, pendingOf]
      cases states tx.account with
      | none => simp
      | some state =>
        simp only [Option.map_some, Option.bind_some, true_and]
        split
        · rfl
        · rfl
    · rw [pendingOf, modify_of_ne _ haccount, if_neg fun h => haccount h.1, pendingOf]
  unfold dropTransaction
  simp only
  split
  · rw [pendingOf_removeIfEmpty, pendingOf_removeIfEmpty]
    exact hfirst
  · rw [pendingOf_removeIfEmpty]
    exact hfirst

theorem IdleAt.dropTransaction (hidle : states.IdleAt account)
    (tx : QueuedTransaction) : (states.dropTransaction tx).IdleAt account := by
  have hreleased : ((states.modify tx.account fun state =>
      if state.transaction.map (·.hash) = some tx.hash then state.clearTransaction
      else state).modify tx.payer (.releaseFee tx)).IdleAt account := by
    refine IdleAt.modify (hidle.modify _ fun state hstate => ?_) _ fun state hstate => hstate
    split
    · exact fun _ => rfl
    · exact hstate
  unfold AccountStates.dropTransaction
  simp only
  split
  · exact (hreleased.removeIfEmpty _).removeIfEmpty _
  · exact hreleased.removeIfEmpty _

/-- Dropping a transaction everywhere keeps accounts and store in sync, also
when it was dropped before. -/
theorem InSync.dropTransaction (hsync : states.InSync txs)
    (hsame : ∀ other ∈ txs, other.hash = tx.hash → other = tx) :
    (states.dropTransaction tx).InSync (without tx.hash txs) := by
  intro account other
  rw [pendingOf_dropTransaction, mem_without]
  split
  · next hdropped =>
    obtain ⟨-, hhash⟩ := hdropped
    refine ⟨nofun, fun ⟨⟨hother, hne⟩, haccount⟩ => ?_⟩
    rw [(hsync account other).mpr ⟨hother, haccount⟩] at hhash
    exact absurd (Option.some.inj hhash) hne
  · next hkept =>
    rw [hsync account other]
    refine ⟨fun ⟨hother, haccount⟩ => ⟨⟨hother, fun hhash => ?_⟩, haccount⟩,
      fun ⟨⟨hother, _⟩, haccount⟩ => ⟨hother, haccount⟩⟩
    have htx := hsame other hother hhash
    apply hkept
    rw [(hsync account other).mpr ⟨hother, haccount⟩]
    exact ⟨by rw [← haccount, htx], congrArg some hhash⟩

@[simp]
theorem pendingOf_releaseReplaced (states : AccountStates) (oldTx newTx : QueuedTransaction)
    (account : AccountKey) :
    (states.releaseReplaced oldTx newTx).pendingOf account = states.pendingOf account := by
  unfold releaseReplaced
  split
  · rw [pendingOf_removeIfEmpty, pendingOf_releaseFee]
  · rfl

theorem IdleAt.releaseReplaced (hidle : states.IdleAt account)
    (oldTx newTx : QueuedTransaction) : (states.releaseReplaced oldTx newTx).IdleAt account := by
  unfold AccountStates.releaseReplaced
  split
  · apply IdleAt.removeIfEmpty
    exact hidle.modify _ fun state hstate => hstate
  · exact hidle

theorem pendingOf_enter (states : AccountStates) (tx : QueuedTransaction)
    (replacedTx : Option QueuedTransaction) (account : AccountKey) :
    (states.enter tx replacedTx).pendingOf account =
      if account = tx.account then some tx else states.pendingOf account := by
  unfold enter pendingOf
  simp only
  by_cases hpayer : account = tx.payer
  · subst hpayer
    rw [update_self]
    by_cases haccount : tx.payer = tx.account
    · simp [haccount, AccountState.charge]
    · rw [update_of_ne haccount, if_neg haccount]
      cases states tx.payer <;> rfl
  · rw [update_of_ne hpayer]
    by_cases haccount : account = tx.account
    · simp [haccount]
    · rw [update_of_ne haccount, if_neg haccount]

theorem IdleAt.enter (hidle : states.IdleAt account) (tx : QueuedTransaction)
    (replacedTx : Option QueuedTransaction) : (states.enter tx replacedTx).IdleAt account := by
  unfold AccountStates.enter
  simp only
  intro state hstate hnone
  by_cases hpayer : account = tx.payer
  · subst hpayer
    rw [update_self, Option.some_inj] at hstate
    subst hstate
    by_cases haccount : tx.payer = tx.account
    · rw [haccount, update_self] at hnone
      cases hnone
    · rw [update_of_ne haccount] at hnone ⊢
      cases hbefore : states tx.payer with
      | none => rfl
      | some before =>
        rw [hbefore] at hnone
        exact hidle before hbefore hnone
  · rw [update_of_ne hpayer] at hstate
    by_cases haccount : account = tx.account
    · subst haccount
      rw [update_self, Option.some_inj] at hstate
      subst hstate
      cases hnone
    · rw [update_of_ne haccount] at hstate
      exact hidle state hstate hnone

theorem InSync.enter (hsync : states.InSync txs) {others : List QueuedTransaction}
    (hothers : ∀ other, other ∈ others ↔ other ∈ txs ∧ other.account ≠ tx.account)
    {after : AccountStates} (hafter : ∀ account, after.pendingOf account = states.pendingOf account)
    (replacedTx : Option QueuedTransaction) :
    (after.enter tx replacedTx).InSync (tx :: others) := by
  intro account other
  rw [pendingOf_enter, hafter, List.mem_cons, hothers]
  split
  · next haccount =>
    subst haccount
    constructor
    · rintro ⟨⟩
      exact ⟨.inl rfl, rfl⟩
    · rintro ⟨rfl | ⟨-, hne⟩, haccount⟩
      · rfl
      · exact absurd haccount hne
  · next hne =>
    rw [hsync account other]
    constructor
    · rintro ⟨hother, rfl⟩
      exact ⟨.inr ⟨hother, hne⟩, rfl⟩
    · rintro ⟨rfl | ⟨hother, -⟩, haccount⟩
      · exact absurd haccount.symm hne
      · exact ⟨hother, haccount⟩

end AccountStates

namespace TransactionQueue

variable {setting : Setting}

/-- The configurations of the eviction queues under the current limits. -/
def limits (queue : TransactionQueue setting) : Limits setting where
  classic := buildClassicLaneConfig setting
  soroban := queue.effectiveQueueSorobanResources.map (sorobanGenericLaneConfig setting.codec)
  global := queue.effectiveMaxQueueOps.map fun ops => opsOnlyLaneConfig fun _ => (ops : Int)

theorem limits_nonNegative (queue : TransactionQueue setting) : queue.limits.NonNegative where
  classic laneConfig hconfig := by
    unfold limits buildClassicLaneConfig at hconfig
    split at hconfig
    · cases hconfig
    · cases hconfig
      exact .dex
  soroban laneConfig hconfig := by
    obtain ⟨limit, -, rfl⟩ := Option.mem_map.mp hconfig
    exact .soroban
  global laneConfig hconfig := by
    obtain ⟨ops, -, rfl⟩ := Option.mem_map.mp hconfig
    exact .ops

structure Kept (queue : TransactionQueue setting) : Prop where
  store : queue.store.Kept queue.limits
  in_sync : queue.accountStates.InSync queue.store.byHash
  idle : ∀ account, queue.accountStates.IdleAt account

theorem kept_withDepths (seed floodSeed : Nat) :
    (withDepths seed floodSeed : TransactionQueue setting).Kept where
  store := QueueStore.kept_new _ _ _
  in_sync := by simp [AccountStates.InSync, AccountStates.pendingOf, withDepths, QueueStore.new]
  idle _ _ := nofun

variable {queue : TransactionQueue setting}

theorem Kept.pendingOf_eq (hkept : queue.Kept) {tx : QueuedTransaction}
    (htx : tx ∈ queue.store.byHash) : queue.accountStates.pendingOf tx.account = some tx :=
  (hkept.in_sync _ _).mpr ⟨htx, rfl⟩

variable {after : TransactionQueue setting}

/-- What may change without the structures falling out of step. -/
theorem Kept.of_same (hkept : queue.Kept) (hstore : after.store = queue.store)
    (hstates : after.accountStates = queue.accountStates)
    (hlimits : after.limits = queue.limits) : after.Kept := by
  obtain ⟨hkeptStore, hsync, hidle⟩ := hkept
  exact ⟨by rwa [hstore, hlimits], by rwa [hstore, hstates], by rwa [hstates]⟩

theorem Kept.drop (hkept : queue.Kept) {tx : QueuedTransaction}
    (hsame : ∀ other ∈ queue.store.byHash, other.hash = tx.hash → other = tx)
    (hstore : after.store = (queue.store.remove tx.hash).1)
    (hstates : after.accountStates = queue.accountStates.dropTransaction tx)
    (hlimits : after.limits = queue.limits) : after.Kept := by
  obtain ⟨hremoved, hbyHash⟩ := hkept.store.remove queue.limits_nonNegative tx.hash
  refine ⟨by rwa [hstore, hlimits], ?_, fun account => ?_⟩
  · rw [hstore, hstates, hbyHash]
    exact hkept.in_sync.dropTransaction hsame
  · rw [hstates]
    exact (hkept.idle account).dropTransaction tx

end TransactionQueue

end Henyey.TxQueue
