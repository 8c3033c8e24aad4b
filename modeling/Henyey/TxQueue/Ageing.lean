import Henyey.TxQueue.Bans

/-!
# Ageing

The age of an account counts the shifts since it was last reset. A shift ages
every pending transaction by one, and drops it with its fees at the pending
depth; no other operation makes an account older.
-/

namespace Henyey.TxQueue

open AccountStates AccountState

namespace AccountStates

/-- The age of an account; nothing is tracked at age zero. -/
def ageOf (states : AccountStates) (account : AccountKey) : Nat :=
  ((states account).map (·.age)).getD 0

/-- Ages are kept or reset. -/
def AgesFrom (before after : AccountStates) : Prop :=
  ∀ account, after.ageOf account = 0 ∨ after.ageOf account = before.ageOf account

variable {states : AccountStates}

theorem AgesFrom.refl (states : AccountStates) : AgesFrom states states := fun _ => .inr rfl

theorem AgesFrom.trans {before middle after : AccountStates} (hfirst : AgesFrom before middle)
    (hsecond : AgesFrom middle after) : AgesFrom before after := by
  intro account
  rcases hsecond account with hzero | hsame
  · exact .inl hzero
  · rw [hsame]
    exact hfirst account

variable {f : AccountState → AccountState}

theorem agesFrom_modify (states : AccountStates) (key : AccountKey)
    (hf : ∀ state, (f state).age = 0 ∨ (f state).age = state.age) :
    AgesFrom states (states.modify key f) := by
  intro account
  by_cases hkey : account = key
  · subst hkey
    rw [ageOf, ageOf, modify_self]
    cases states account with
    | none => exact .inl rfl
    | some state => exact hf state
  · rw [ageOf, ageOf, modify_of_ne f hkey]
    exact .inr rfl

theorem agesFrom_releaseFee (states : AccountStates) (key : AccountKey) (tx : QueuedTransaction) :
    AgesFrom states (states.modify key (.releaseFee tx)) :=
  agesFrom_modify states key fun _ => .inr rfl

theorem agesFrom_clearTransaction (states : AccountStates) (key : AccountKey) :
    AgesFrom states (states.modify key .clearTransaction) :=
  agesFrom_modify states key fun _ => .inl rfl

theorem agesFrom_removeIfEmpty (states : AccountStates) (key : AccountKey) :
    AgesFrom states (states.removeIfEmpty key) := by
  intro account
  rw [ageOf, ageOf]
  rcases removeIfEmpty_cases states key account with hsame | ⟨-, hnone, -⟩
  · rw [hsame]
    exact .inr rfl
  · rw [hnone]
    exact .inl rfl

theorem agesFrom_dropTransaction (states : AccountStates) (tx : QueuedTransaction) :
    AgesFrom states (states.dropTransaction tx) := by
  have hreleased := (agesFrom_modify states tx.account (f := fun state =>
      if state.transaction.map (·.hash) = some tx.hash then state.clearTransaction else state)
      fun state => by split <;> simp [clearTransaction]).trans
    (agesFrom_releaseFee _ tx.payer tx)
  unfold dropTransaction
  simp only
  split
  · exact (hreleased.trans (agesFrom_removeIfEmpty _ _)).trans (agesFrom_removeIfEmpty _ _)
  · exact hreleased.trans (agesFrom_removeIfEmpty _ _)

theorem agesFrom_foldl {α : Type} {step : AccountStates → α → AccountStates}
    (hstep : ∀ (states : AccountStates) (item : α), AgesFrom states (step states item))
    (items : List α) (states : AccountStates) : AgesFrom states (items.foldl step states) := by
  induction items generalizing states with
  | nil => exact .refl states
  | cons item rest ih => exact (hstep states item).trans (ih (step states item))

theorem agesFrom_releaseReplaced (states : AccountStates) (oldTx newTx : QueuedTransaction) :
    AgesFrom states (states.releaseReplaced oldTx newTx) := by
  unfold releaseReplaced
  split
  · exact (agesFrom_releaseFee states _ oldTx).trans (agesFrom_removeIfEmpty _ _)
  · exact .refl states

theorem agesFrom_enter (states : AccountStates) (tx : QueuedTransaction)
    (replacedTx : Option QueuedTransaction) : AgesFrom states (states.enter tx replacedTx) := by
  intro account
  unfold enter ageOf
  simp only
  by_cases hpayer : account = tx.payer
  · subst hpayer
    rw [Function.update_self]
    by_cases haccount : tx.payer = tx.account
    · rw [haccount, Function.update_self]
      cases states tx.account <;> simp [charge, empty]
    · rw [Function.update_of_ne haccount]
      cases states tx.payer <;> simp [charge, empty]
  · rw [Function.update_of_ne hpayer]
    by_cases haccount : account = tx.account
    · subst haccount
      rw [Function.update_self]
      cases states tx.account <;> simp [empty]
    · rw [Function.update_of_ne haccount]
      exact .inr rfl

def HoldsAge (states : AccountStates) (tx : QueuedTransaction) (age : Nat) : Prop :=
  ∃ state, states tx.account = some state ∧ state.transaction = some tx ∧ state.age = age

variable {tx : QueuedTransaction} {age : Nat}

section

variable (hholds : states.HoldsAge tx age)
include hholds

theorem HoldsAge.modify (key : AccountKey)
    (hf : key = tx.account → ∀ state, state.transaction = some tx →
      (f state).transaction = some tx ∧ (f state).age = state.age) :
    (states.modify key f).HoldsAge tx age := by
  obtain ⟨state, hstate, htransaction, rfl⟩ := hholds
  by_cases hkey : tx.account = key
  · subst hkey
    obtain ⟨hsame, hage⟩ := hf rfl state htransaction
    refine ⟨f state, ?_, hsame, hage⟩
    rw [modify_self, hstate]
    rfl
  · exact ⟨state, by rw [modify_of_ne f hkey, hstate], htransaction, rfl⟩

theorem HoldsAge.releaseFee (key : AccountKey)
    (other : QueuedTransaction) : (states.modify key (.releaseFee other)).HoldsAge tx age :=
  hholds.modify key fun _ _ htransaction => ⟨htransaction, rfl⟩

theorem HoldsAge.ageOf_eq : states.ageOf tx.account = age := by
  obtain ⟨state, hstate, -, rfl⟩ := hholds
  rw [ageOf, hstate]
  rfl

end

theorem holdsAge_of_pendingOf {account : AccountKey} (hpending : states.pendingOf account = some tx)
    (haccount : tx.account = account) : states.HoldsAge tx (states.ageOf account) := by
  obtain ⟨state, hstate, htransaction⟩ := Option.bind_eq_some_iff.mp hpending
  refine ⟨state, haccount ▸ hstate, htransaction, ?_⟩
  rw [ageOf, hstate]
  rfl

end AccountStates

namespace TransactionQueue

variable {setting : Setting} {queue : TransactionQueue setting}

open AccountStates (AgesFrom HoldsAge ageOf)

theorem agesFrom_tryAdd (hkept : queue.Kept) (call : Call) (env : TransactionEnvelope) :
    AgesFrom queue.accountStates (queue.tryAdd call env).1.accountStates := by
  rcases queue.tryAdd_cases call env with ⟨result, -, -, heq⟩ |
    ⟨queued, replacedTx, result, -, -, heq⟩ | ⟨queued, replacedTx, pending, roomy, hadmitted, heq⟩
  · rw [heq]
    exact .refl _
  · rw [heq]
    exact (hkept.checkAndCollectEvictions queued replacedTx).1.accountStates_eq ▸ .refl _
  · have hreviewed := (hkept.checkAndCollectEvictions queued replacedTx).1
    have hroomy : AgesFrom queue.accountStates roomy.accountStates := by
      rw [← hreviewed.accountStates_eq]
      rcases ensureQueueCapacity_cases hadmitted.capacity with
        ⟨-, rfl⟩ | ⟨-, victim, -, rfl⟩
      · exact .refl _
      · exact agesFrom_dropTransaction _ victim
    have hcommitted : AgesFrom roomy.accountStates (roomy.commitEvictions pending).accountStates :=
      agesFrom_foldl agesFrom_dropTransaction pending _
    have hreplaced : AgesFrom (roomy.commitEvictions pending).accountStates
        ((roomy.commitEvictions pending).removeReplaced queued replacedTx).accountStates := by
      cases replacedTx with
      | none => exact .refl _
      | some oldTx => exact agesFrom_releaseReplaced _ oldTx queued
    rw [heq]
    exact ((hroomy.trans hcommitted).trans hreplaced).trans
      (agesFrom_enter _ queued replacedTx)

theorem agesFrom_tryAddAll (hkept : queue.Kept) (calls : List (Call × TransactionEnvelope)) :
    AgesFrom queue.accountStates (queue.tryAddAll calls).1.accountStates := by
  induction calls generalizing queue with
  | nil => exact .refl _
  | cons head rest ih =>
    exact (agesFrom_tryAdd hkept head.1 head.2).trans (ih (hkept.tryAdd head.1 head.2))

theorem agesFrom_dropAll (queue : TransactionQueue setting) (hashes : List Hash256) :
    AgesFrom queue.accountStates (queue.dropAll hashes).accountStates := by
  change AgesFrom _ (hashes.foldl dropOne queue).accountStates
  induction hashes generalizing queue with
  | nil => exact .refl _
  | cons hash rest ih =>
    refine AgesFrom.trans ?_ (ih (queue.dropOne hash))
    unfold dropOne
    split
    · exact .refl _
    · exact agesFrom_dropTransaction _ _

theorem agesFrom_ban (queue : TransactionQueue setting) (hashes : List Hash256) :
    AgesFrom queue.accountStates (queue.ban hashes).accountStates := by
  unfold ban
  split
  · exact .refl _
  · exact agesFrom_dropAll _ hashes

theorem agesFrom_removeApplied (queue : TransactionQueue setting)
    (appliedTxs : List (TransactionEnvelope × Int)) :
    AgesFrom queue.accountStates (queue.removeApplied appliedTxs).accountStates := by
  have hone : ∀ (pass : AppliedPass setting) applied, AgesFrom pass.queue.accountStates
      (applyOne pass applied).queue.accountStates := by
    intro pass applied
    unfold applyOne
    simp only
    cases (pass.queue.accountStates (accountKey applied.1)).bind fun state =>
        state.transaction.filter fun tx => tx.sequenceNumber ≤ applied.2 with
    | none => exact .refl _
    | some tx => exact agesFrom_clearTransaction _ _
  have hpass : ∀ pass : AppliedPass setting, AgesFrom pass.queue.accountStates
      (appliedTxs.foldl applyOne pass).queue.accountStates := by
    induction appliedTxs with
    | nil => exact fun pass => .refl _
    | cons head rest ih => exact fun pass => (hone pass head).trans (ih (applyOne pass head))
  unfold removeApplied
  split
  · exact .refl _
  · refine (hpass ⟨queue, [], []⟩).trans ?_
    exact (agesFrom_foldl (fun states (tx : QueuedTransaction) =>
      agesFrom_releaseFee states tx.payer tx) _ _).trans
        (agesFrom_foldl agesFrom_removeIfEmpty _ _)

theorem agesFrom_dropStalePending (queue : TransactionQueue setting) (account : AccountKey)
    (onLedgerSeq : Int) :
    AgesFrom queue.accountStates
      (queue.dropStalePending account onLedgerSeq).1.accountStates := by
  unfold dropStalePending
  split
  · exact .refl _
  · split
    · exact .refl _
    · split
      · exact .refl _
      · exact (((agesFrom_clearTransaction _ _).trans
          (agesFrom_removeIfEmpty _ _)).trans
          (agesFrom_releaseFee _ _ _)).trans
          (agesFrom_removeIfEmpty _ _)

theorem Kept.agesFrom_run (hkept : queue.Kept) {op : Op}
    (hnotShift : ∀ accounts seed, op ≠ .shift accounts seed) :
    AgesFrom queue.accountStates (op.run queue).accountStates := by
  cases op with
  | tryAdd call env => exact agesFrom_tryAdd hkept call env
  | ban hashes => exact agesFrom_ban queue hashes
  | removeApplied appliedTxs => exact agesFrom_removeApplied queue appliedTxs
  | shift accounts seed => exact absurd rfl (hnotShift accounts seed)
  | evictExpired now => exact agesFrom_dropAll queue _
  | clear seed floodSeed => exact fun _ => .inl rfl
  | resetAndRebuild iteration calls seed floodSeed =>
    have hcleared : ({ queue.clear seed floodSeed with seen := ∅ } :
        TransactionQueue setting).Kept := (hkept.clear seed floodSeed).of_same rfl rfl rfl
    have hempty : AgesFrom queue.accountStates (queue.clear seed floodSeed).accountStates :=
      fun _ => .inl rfl
    exact hempty.trans (agesFrom_tryAddAll hcleared _)
  | dropStalePending account onLedgerSeq => exact agesFrom_dropStalePending queue account onLedgerSeq
  | broadcastWithVisitor opsBudget dexOpsBudget dampened visitor => exact agesFrom_ban _ _
  | rebroadcast iteration floodSeed => exact .refl _
  | updateClassicQueueCapacity scaledMaxQueueOps => exact .refl _
  | updateSorobanResourceLimits resources => exact .refl _

section Staying

variable {tx : QueuedTransaction} {age : Nat}

end Staying

end TransactionQueue

end Henyey.TxQueue
