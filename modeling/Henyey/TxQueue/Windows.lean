import Henyey.TxQueue.Ageing
import Henyey.TxQueue.Rejection
import Mathlib.Logic.Equiv.Nat

/-!
# Ban and ageing windows

Over a whole run a hash is banned while fewer shifts than the ban depth came
after a ban of it, and a pending transaction is dropped by the shift at which
its account reaches the pending depth.
-/

namespace Henyey.TxQueue

open Foundation.Rotation (Step RecordedWithin rotations runAll)
open AccountStates (HoldsAge ageOf pendingOf)
open TransactionQueue List AccountState Option
open Function

namespace AccountState

/-- What a shift makes of one account. -/
def aged (pendingDepth : Nat) (state : AccountState) : AccountState :=
  match state.transaction with
  | none => state
  | some _ =>
    if pendingDepth ≤ state.age + 1 then
      { state with
        age := if state.totalFees = 0 then state.age + 1 else 0
        transaction := none }
    else { state with age := state.age + 1 }

theorem aged_totalFees (pendingDepth : Nat) (state : AccountState) :
    (state.aged pendingDepth).totalFees = state.totalFees := by
  unfold aged
  split
  · rfl
  · split <;> rfl

end AccountState

namespace TransactionQueue

variable {setting : Setting} {queue : TransactionQueue setting}

/-- The transaction of an account that the next shift drops. -/
def agesOut (queue : TransactionQueue setting) (account : AccountKey) : Option QueuedTransaction :=
  (queue.accountStates account).bind fun state =>
    state.transaction.filter fun _ => setting.pendingDepth ≤ state.age + 1

theorem shiftAccount_eq (pass : ShiftPass setting) (account : AccountKey) :
    (shiftAccount pass account).queue.accountStates =
        update pass.queue.accountStates account
          ((pass.queue.accountStates account).map (.aged setting.pendingDepth)) ∧
      (shiftAccount pass account).evicted =
        pass.evicted ++ (pass.queue.agesOut account).toList := by
  have hself := update_eq_self account pass.queue.accountStates
  unfold shiftAccount agesOut
  cases hstate : pass.queue.accountStates account with
  | none =>
    rw [hstate] at hself
    exact ⟨hself.symm, (append_nil _).symm⟩
  | some state =>
    simp only [map_some, bind_some]
    cases htransaction : state.transaction with
    | none =>
      have hsame : state.aged setting.pendingDepth = state := by
        simp only [aged, htransaction]
      rw [hstate] at hself
      rw [hsame]
      exact ⟨hself.symm, (append_nil _).symm⟩
    | some tx =>
      simp only
      by_cases hdepth : setting.pendingDepth ≤ state.age + 1
      · have haged : state.aged setting.pendingDepth =
            { state with
              age := if state.totalFees = 0 then state.age + 1 else 0
              transaction := none } := by
          simp only [aged, htransaction, if_pos hdepth]
        rw [if_pos hdepth, haged]
        exact ⟨rfl, by simp [hdepth, Option.filter]⟩
      · have haged : state.aged setting.pendingDepth = { state with age := state.age + 1 } := by
          simp only [aged, htransaction, if_neg hdepth]
        rw [if_neg hdepth, haged]
        refine ⟨by rw [htransaction], ?_⟩
        rw [filter_some_neg (by simpa using hdepth)]
        exact (append_nil _).symm

theorem foldl_shiftAccount_eq {accounts : List AccountKey} (hnodup : accounts.Nodup)
    (pass : ShiftPass setting) :
    (∀ account, (accounts.foldl shiftAccount pass).queue.accountStates account =
      if account ∈ accounts then
        (pass.queue.accountStates account).map (.aged setting.pendingDepth)
      else pass.queue.accountStates account) ∧
      (accounts.foldl shiftAccount pass).evicted =
        pass.evicted ++ accounts.filterMap pass.queue.agesOut := by
  induction accounts generalizing pass with
  | nil => exact ⟨fun _ => rfl, (append_nil _).symm⟩
  | cons head rest ih =>
    obtain ⟨hfresh, hrest⟩ := nodup_cons.mp hnodup
    obtain ⟨hstates, hevicted⟩ := shiftAccount_eq pass head
    obtain ⟨hlater, hmore⟩ := ih hrest (shiftAccount pass head)
    constructor
    · intro account
      rw [foldl_cons, hlater, hstates]
      by_cases haccount : account = head
      · subst haccount
        rw [if_neg hfresh, update_self, if_pos mem_cons_self]
      · rw [update_of_ne haccount]
        simp [haccount]
    · have hsame : rest.filterMap (shiftAccount pass head).queue.agesOut =
          rest.filterMap pass.queue.agesOut := by
        apply filterMap_congr
        intro account haccount
        have hne : account ≠ head := fun heq => hfresh (heq ▸ haccount)
        rw [agesOut, agesOut, hstates, update_of_ne hne]
      rw [foldl_cons, hmore, hevicted, hsame, append_assoc, filterMap_cons]
      cases pass.queue.agesOut head <;> rfl

/-- The accounts that a shift walks over: every tracked account once. -/
def Walks (accounts : List AccountKey) (queue : TransactionQueue setting) : Prop :=
  accounts.Nodup ∧ ∀ account, account ∈ accounts ↔ queue.accountStates account ≠ none

theorem Walks.agedOutBy_eq {accounts : List AccountKey} (hwalks : Walks accounts queue) :
    queue.agedOutBy accounts = accounts.filterMap queue.agesOut := by
  obtain ⟨-, hevicted⟩ := foldl_shiftAccount_eq hwalks.1
    (⟨{ queue with bannedTransactions := queue.bannedTransactions.tail ++ [∅] }, [], [], []⟩ :
      ShiftPass setting)
  rwa [nil_append] at hevicted

theorem Walks.mem_agedOutBy {accounts : List AccountKey} (hwalks : Walks accounts queue)
    {tx : QueuedTransaction} :
    tx ∈ queue.agedOutBy accounts ↔ ∃ account, queue.agesOut account = some tx := by
  rw [hwalks.agedOutBy_eq, mem_filterMap]
  constructor
  · rintro ⟨account, -, hages⟩
    exact ⟨account, hages⟩
  · rintro ⟨account, hages⟩
    obtain ⟨state, hstate, -⟩ := bind_eq_some_iff.mp hages
    refine ⟨account, (hwalks.2 account).mpr ?_, hages⟩
    rw [hstate]
    exact nofun

/-- What ages out is a pending transaction whose account reaches the pending
depth. -/
theorem agesOut_eq_some {account : AccountKey} {tx : QueuedTransaction} :
    queue.agesOut account = some tx ↔
      queue.accountStates.pendingOf account = some tx ∧
        setting.pendingDepth ≤ queue.accountStates.ageOf account + 1 := by
  unfold agesOut pendingOf ageOf
  cases queue.accountStates account with
  | none => simp
  | some state => simp [filter_eq_some_iff]

theorem holdsAge_releasePayer {tx : QueuedTransaction} {age : Nat}
    (evicted : List QueuedTransaction)
    (states : AccountStates × List AccountKey) (hage : states.1.HoldsAge tx age) :
    (evicted.foldl releasePayer states).1.HoldsAge tx age := by
  induction evicted generalizing states with
  | nil => exact hage
  | cons head rest ih =>
    apply ih
    unfold releasePayer
    split
    · exact hage
    · next state hstate =>
      have hsame : update states.1 head.payer (some (state.releaseFee head)) =
          states.1.modify head.payer (.releaseFee head) := by
        rw [AccountStates.modify, hstate]
        rfl
      simp only
      rw [hsame]
      exact hage.releaseFee _ _

/-- What is left of reserved fees when an account is released from the
transactions it paid for. -/
def releasedFees (txs : List QueuedTransaction) (account : AccountKey) (fees : Int) : Int :=
  (txs.filter fun tx => tx.payer = account).foldl
    (fun fees tx => saturatingSub fees tx.totalFee) fees

theorem fees_foldl_releasePayer (evicted : List QueuedTransaction)
    (states : AccountStates × List AccountKey) (account : AccountKey) :
    ((evicted.foldl releasePayer states).1 account).map (·.totalFees) =
      (states.1 account).map fun state => releasedFees evicted account state.totalFees := by
  induction evicted generalizing states with
  | nil => rfl
  | cons head rest ih =>
    rw [foldl_cons, ih]
    unfold releasePayer
    by_cases hpayer : head.payer = account
    · subst hpayer
      cases hstate : states.1 head.payer with
      | none => simp [hstate]
      | some state => simp [releasedFees, releaseFee]
    · have hskip : ∀ fees, releasedFees (head :: rest) account fees =
          releasedFees rest account fees := by
        intro fees
        rw [releasedFees, filter_cons_of_neg (by simpa using hpayer), releasedFees]
      simp only [hskip]
      split
      · rfl
      · dsimp only
        rw [update_of_ne (Ne.symm hpayer)]

def walk (queue : TransactionQueue setting) (accounts : List AccountKey) : ShiftPass setting :=
  accounts.foldl shiftAccount
    ⟨{ queue with bannedTransactions := queue.bannedTransactions.tail ++ [∅] }, [], [], []⟩

/-- The accounts, and the marked ones, after the payers of what the walk drops
are released. -/
def releasedBy (queue : TransactionQueue setting) (accounts : List AccountKey) :
    AccountStates × List AccountKey :=
  (queue.agedOutBy accounts).foldl releasePayer
    ((queue.walk accounts).queue.accountStates, (queue.walk accounts).accountsToRemove)

theorem shift_accounts (queue : TransactionQueue setting) (accounts : List AccountKey) (seed : Nat)
    (account : AccountKey) :
    (queue.shift accounts seed).1.accountStates account =
      if account ∈ (queue.releasedBy accounts).2 then none
      else (queue.releasedBy accounts).1 account :=
  foldl_update_none _ _ account

theorem Kept.releasedBy_settles (hkept : queue.Kept) (accounts : List AccountKey) :
    (queue.walk accounts).queue.accountStates.Settles (queue.releasedBy accounts).1 ∧
      ∀ account ∈ (queue.releasedBy accounts).2,
        (queue.releasedBy accounts).1.pendingOf account = none := by
  have hgone := (hkept.walked accounts).gone
  obtain ⟨hsettles, -, hmarked⟩ := foldl_releasePayer_settles (queue.agedOutBy accounts)
    ((queue.walk accounts).queue.accountStates, (queue.walk accounts).accountsToRemove) hgone
  exact ⟨hsettles, hmarked⟩

variable {accounts : List AccountKey}

theorem Walks.accountStates_walk (hwalks : Walks accounts queue) (account : AccountKey) :
    (queue.walk accounts).queue.accountStates account =
      (queue.accountStates account).map (.aged setting.pendingDepth) := by
  rw [walk, (foldl_shiftAccount_eq hwalks.1 _).1]
  split
  · rfl
  · next hnot =>
    have hnone : queue.accountStates account = none :=
      Decidable.not_not.mp fun hsome => hnot ((hwalks.2 account).mpr hsome)
    rw [hnone]
    rfl

/-- A shift that drops nothing tracks the same accounts. -/
theorem Walks.shift (hwalks : Walks accounts queue) (seed : Nat)
    (hstays : queue.agedOutBy accounts = [])
    (hkept : (queue.walk accounts).accountsToRemove = []) :
    Walks accounts (queue.shift accounts seed).1 := by
  refine ⟨hwalks.1, fun account => ?_⟩
  rw [shift_accounts, releasedBy, hstays, hkept, foldl_nil, if_neg not_mem_nil]
  dsimp only
  rw [hwalks.accountStates_walk, hwalks.2 account]
  simp

theorem Kept.pendingOf_shift (hkept : queue.Kept) (hwalks : Walks accounts queue) (seed : Nat)
    (account : AccountKey) :
    (queue.shift accounts seed).1.accountStates.pendingOf account =
      if setting.pendingDepth ≤ queue.accountStates.ageOf account + 1 then none
      else queue.accountStates.pendingOf account := by
  obtain ⟨hsettles, hgone⟩ := hkept.releasedBy_settles accounts
  have hpending : (queue.shift accounts seed).1.accountStates.pendingOf account =
      (queue.releasedBy accounts).1.pendingOf account := by
    rw [pendingOf, shift_accounts]
    split
    · next hmarked => exact (hgone account hmarked).symm
    · rfl
  rw [hpending, hsettles.pendingOf_eq, pendingOf, hwalks.accountStates_walk, ageOf, pendingOf]
  cases queue.accountStates account with
  | none => simp
  | some state =>
    simp only [map_some, bind_some, getD_some, aged]
    split
    · next hnone => simp [hnone]
    · split
      · rfl
      · rfl

theorem Kept.holdsAge_shift (hkept : queue.Kept) (hwalks : Walks accounts queue) (seed : Nat)
    {tx : QueuedTransaction} {age : Nat} (hage : queue.accountStates.HoldsAge tx age)
    (hyoung : age + 1 < setting.pendingDepth) :
    (queue.shift accounts seed).1.accountStates.HoldsAge tx (age + 1) := by
  obtain ⟨state, hstate, htransaction, rfl⟩ := hage
  have hwalked : (queue.walk accounts).queue.accountStates.HoldsAge tx (state.age + 1) := by
    refine ⟨{ state with age := state.age + 1 }, ?_, htransaction, rfl⟩
    rw [hwalks.accountStates_walk, hstate, map_some, aged, htransaction]
    simp only [if_neg (not_le.mpr hyoung)]
  obtain ⟨final, hfinal, hfinalTransaction, hfinalAge⟩ :
      (queue.releasedBy accounts).1.HoldsAge tx (state.age + 1) :=
    holdsAge_releasePayer (queue.agedOutBy accounts)
      ((queue.walk accounts).queue.accountStates, (queue.walk accounts).accountsToRemove) hwalked
  refine ⟨final, ?_, hfinalTransaction, hfinalAge⟩
  rw [shift_accounts, if_neg, hfinal]
  -- an account that is marked has nothing pending
  intro hmarked
  have hnone := (hkept.releasedBy_settles accounts).2 tx.account hmarked
  rw [pendingOf, hfinal, bind_some, hfinalTransaction] at hnone
  cases hnone

/-- A shift releases the payers of what it drops; an account without anything
left is not tracked any more. -/
theorem Walks.fees_shift (hwalks : Walks accounts queue) (seed : Nat) (account : AccountKey) :
    (queue.shift accounts seed).1.accountStates account = none ∨
      ((queue.shift accounts seed).1.accountStates account).map (·.totalFees) =
        (queue.accountStates account).map fun state =>
          releasedFees (queue.agedOutBy accounts) account state.totalFees := by
  rw [shift_accounts]
  split
  · exact .inl rfl
  · right
    rw [releasedBy, fees_foldl_releasePayer]
    dsimp only
    rw [hwalks.accountStates_walk, Option.map_map]
    congr 1
    funext state
    rw [comp_apply, aged_totalFees]

end TransactionQueue

/-- What the caller of an operation promises: applied transactions come with
their own sequence numbers, and a shift walks over the tracked accounts. -/
def Op.Valid {setting : Setting} (op : Op) (queue : TransactionQueue setting) : Prop :=
  match op with
  | removeApplied appliedTxs => TransactionQueue.OwnSequence appliedTxs
  | shift accounts _ => TransactionQueue.Walks accounts queue
  | _ => True

def Op.isShift : Op → Bool
  | shift _ _ => true
  | _ => false

theorem Op.eq_shift {op : Op} (hop : op.isShift = true) :
    ∃ accounts seed, op = .shift accounts seed := by
  cases op with
  | shift accounts seed => exact ⟨accounts, seed, rfl⟩
  | _ => cases hop

theorem Op.ne_shift {op : Op} (hop : op.isShift = false) (accounts : List AccountKey)
    (seed : Nat) : op ≠ .shift accounts seed := by
  rintro rfl
  cases hop

section Runs

variable {setting : Setting}

/-- The state after several operations. -/
def runOps (ops : List Op) (queue : TransactionQueue setting) : TransactionQueue setting :=
  ops.foldl (fun queue op => op.run queue) queue

/-- The bans and shifts of several operations, in order. -/
def logOps : List Op → TransactionQueue setting → List (Step Hash256)
  | [], _ => []
  | op :: ops, queue => op.log queue ++ logOps ops (op.run queue)

def ValidOps : List Op → TransactionQueue setting → Prop
  | [], _ => True
  | op :: ops, queue => op.Valid queue ∧ ValidOps ops (op.run queue)

/-- An account keeps a pending transaction, and its age is never reset. -/
def StaysPending (account : AccountKey) : List Op → TransactionQueue setting → Prop
  | [], queue => queue.accountStates.pendingOf account ≠ none
  | op :: ops, queue =>
    queue.accountStates.pendingOf account ≠ none ∧
      queue.accountStates.ageOf account ≤ (op.run queue).accountStates.ageOf account ∧
      StaysPending account ops (op.run queue)

variable {queue : TransactionQueue setting}

/-- What an operation does to the bans. -/
theorem TransactionQueue.Kept.banned_run (hkept : queue.Kept)
    (hidentifies : TransactionQueue.Identifies setting.codec) {op : Op} (hvalid : op.Valid queue) :
    (op.run queue).bannedTransactions = runAll (op.log queue) queue.bannedTransactions ∧
      (queue.NoneBanned → (op.run queue).NoneBanned) := by
  cases op with
  | tryAdd call env =>
    obtain ⟨hbanned, hqueued⟩ := hkept.tryAdd_banned call env
    refine ⟨hbanned, fun hnone => hnone.record hbanned fun tx htx => ?_⟩
    obtain ⟨hfree, horigin⟩ := hqueued tx htx
    exact ⟨fun hmem => hfree (mem_toFinset.mp hmem), horigin⟩
  | ban hashes => exact ⟨(hkept.ban_banned hashes).1, fun hnone => hkept.ban_noneBanned hnone hashes⟩
  | removeApplied appliedTxs =>
    obtain ⟨hbanned, hnone⟩ := TransactionQueue.Kept.foldl_applyOne_banned hidentifies appliedTxs
      hvalid (show (⟨queue, [], []⟩ : AppliedPass setting).queue.Kept from hkept)
    change (queue.removeApplied appliedTxs).bannedTransactions = _ ∧
      (_ → (queue.removeApplied appliedTxs).NoneBanned)
    unfold TransactionQueue.removeApplied
    split
    · next hempty =>
      subst hempty
      exact ⟨rfl, id⟩
    · exact ⟨hbanned, fun hbefore => (hnone hbefore).of_subset rfl (List.Subset.refl _)⟩
  | shift accounts seed => exact queue.shift_banned accounts seed
  | evictExpired now =>
    obtain ⟨-, hmem, hbanned⟩ := hkept.dropAll _
    exact ⟨hbanned, fun hnone => hnone.of_subset hbanned fun tx htx => ((hmem tx).mp htx).1⟩
  | clear seed floodSeed => exact ⟨rfl, fun _ _ => nofun⟩
  | resetAndRebuild iteration calls seed floodSeed =>
    have hcleared : ({ queue.clear seed floodSeed with seen := ∅ } :
        TransactionQueue setting).Kept := (hkept.clear seed floodSeed).of_same rfl rfl rfl
    obtain ⟨hbanned, hnone⟩ := hcleared.tryAddAll_banned _
    exact ⟨hbanned, fun _ => hnone fun _ => nofun⟩
  | dropStalePending account onLedgerSeq =>
    have hsubset : (queue.dropStalePending account onLedgerSeq).1.store.byHash ⊆
        queue.store.byHash := by
      unfold TransactionQueue.dropStalePending
      split
      · exact List.Subset.refl _
      · split
        · exact List.Subset.refl _
        · split
          · exact List.Subset.refl _
          · next tx _ _ =>
            change (queue.store.remove tx.hash).1.byHash ⊆ _
            rw [(hkept.store.remove queue.limits_nonNegative _).2]
            exact fun other hother => (mem_without.mp hother).1
    have hbanned : (queue.dropStalePending account onLedgerSeq).1.bannedTransactions =
        queue.bannedTransactions := by
      unfold TransactionQueue.dropStalePending
      split
      · rfl
      · split
        · rfl
        · split <;> rfl
    exact ⟨hbanned, fun hnone => hnone.of_subset hbanned hsubset⟩
  | broadcastWithVisitor opsBudget dexOpsBudget dampened visitor =>
    obtain ⟨drained, hdrained, hbanned, hbyHash, heq⟩ :=
      queue.broadcastWithVisitor_eq opsBudget dexOpsBudget dampened visitor hkept
    change (queue.broadcastWithVisitor opsBudget dexOpsBudget dampened visitor).bannedTransactions =
      _ ∧ (_ → (queue.broadcastWithVisitor opsBudget dexOpsBudget dampened visitor).NoneBanned)
    rw [heq]
    refine ⟨?_, fun hnone => hdrained.ban_noneBanned ?_ _⟩
    · rw [(hdrained.ban_banned _).1, hbanned]
      rfl
    · exact hnone.of_subset hbanned (hbyHash ▸ List.Subset.refl _)
  | rebroadcast iteration floodSeed => exact ⟨rfl, id⟩
  | updateClassicQueueCapacity scaledMaxQueueOps => exact ⟨rfl, id⟩
  | updateSorobanResourceLimits resources => exact ⟨rfl, id⟩

theorem banned_runOps (hidentifies : TransactionQueue.Identifies setting.codec) (ops : List Op)
    (hkept : queue.Kept) (hvalid : ValidOps ops queue) :
    (runOps ops queue).Kept ∧
      (runOps ops queue).bannedTransactions = runAll (logOps ops queue) queue.bannedTransactions ∧
      (queue.NoneBanned → (runOps ops queue).NoneBanned) := by
  induction ops generalizing queue with
  | nil => exact ⟨hkept, rfl, id⟩
  | cons op rest ih =>
    obtain ⟨hop, hrest⟩ := hvalid
    obtain ⟨hbanned, hnone⟩ := hkept.banned_run hidentifies hop
    obtain ⟨hlast, hlater, hlastNone⟩ := ih (hkept.run op) hrest
    refine ⟨hlast, ?_, fun hbefore => hlastNone (hnone hbefore)⟩
    change (runOps rest (op.run queue)).bannedTransactions = _
    rw [hlater, hbanned, logOps, runAll, runAll, runAll, foldl_append]

/-- An account with a pending transaction whose age is not reset is as much
older as there were shifts, and younger than the pending depth. -/
theorem ageOf_runOps (ops : List Op) (account : AccountKey) (hkept : queue.Kept)
    (hvalid : ValidOps ops queue) (hstays : StaysPending account ops queue)
    (hyoung : queue.accountStates.ageOf account < setting.pendingDepth) :
    (runOps ops queue).accountStates.ageOf account =
        queue.accountStates.ageOf account + ops.countP Op.isShift ∧
      queue.accountStates.ageOf account + ops.countP Op.isShift < setting.pendingDepth := by
  induction ops generalizing queue with
  | nil => exact ⟨rfl, hyoung⟩
  | cons op rest ih =>
    obtain ⟨hop, hrest⟩ := hvalid
    obtain ⟨hpending, hgrows, hlater⟩ := hstays
    have hnext : (op.run queue).accountStates.pendingOf account ≠ none := by
      cases rest with
      | nil => exact hlater
      | cons _ _ => exact hlater.1
    have hstep : (op.run queue).accountStates.ageOf account =
        queue.accountStates.ageOf account + (if op.isShift then 1 else 0) ∧
        (op.run queue).accountStates.ageOf account < setting.pendingDepth := by
      cases hshift : op.isShift with
      | true =>
        obtain ⟨accounts, seed, rfl⟩ := Op.eq_shift hshift
        have hafter := hkept.pendingOf_shift hop seed account
        change (queue.shift accounts seed).1.accountStates.pendingOf account ≠ none at hnext
        rw [hafter] at hnext
        split at hnext
        · exact absurd rfl hnext
        · next hless =>
          obtain ⟨tx, htx⟩ := ne_none_iff_exists'.mp hpending
          have haccount := ((hkept.in_sync account tx).mp htx).2
          have hage := hkept.holdsAge_shift hop seed
            (AccountStates.holdsAge_of_pendingOf htx haccount) (not_le.mp hless)
          have hafterAge := hage.ageOf_eq
          rw [haccount] at hafterAge
          exact ⟨hafterAge, hafterAge ▸ not_le.mp hless⟩
      | false =>
        -- only a shift makes an account older
        have hages := hkept.agesFrom_run (Op.ne_shift hshift) account
        simp only [Bool.false_eq_true, if_false]
        omega
    obtain ⟨hage, hdepth⟩ := ih (hkept.run op) hrest hlater hstep.2
    have hcount : (op :: rest).countP Op.isShift =
        rest.countP Op.isShift + (if op.isShift then 1 else 0) := countP_cons
    change (runOps rest (op.run queue)).accountStates.ageOf account = _ ∧ _
    rw [hcount]
    omega

/-- What a shift does to the queue: it drops and bans what reached the pending
depth, releases its fees, and ages everything else that is pending by one. -/
structure Shifted (queue after : TransactionQueue setting) (dropped : List QueuedTransaction) :
    Prop where
  dropped_iff : ∀ tx, tx ∈ dropped ↔
    tx ∈ queue.store.byHash ∧ setting.pendingDepth ≤ queue.accountStates.ageOf tx.account + 1
  queued_iff : ∀ tx, tx ∈ after.store.byHash ↔ tx ∈ queue.store.byHash ∧ tx ∉ dropped
  banned : ∀ tx ∈ dropped, after.isBanned tx.hash = true
  ages : ∀ account, after.accountStates.ageOf account =
    if ∃ tx ∈ after.store.byHash, tx.account = account then
      queue.accountStates.ageOf account + 1
    else 0
  fees : ∀ account, after.accountStates account = none ∨
    (after.accountStates account).map (·.totalFees) =
      (queue.accountStates account).map fun state =>
        releasedFees dropped account state.totalFees

structure BanAndAgeingWindows (queue : TransactionQueue setting)
    (history : List (Step Hash256)) : Prop where
  banned : ∀ hash, queue.isBanned hash = true ↔ RecordedWithin setting.banDepth history hash
  refused : ∀ call env, queue.isBanned (setting.codec.hashXdr env) = true →
    (queue.tryAdd call env).2 ≠ .added ∧ (queue.tryAdd call env).1 = queue
  unqueued : ∀ tx ∈ queue.store.byHash, queue.isBanned tx.hash = false
  shifted : ∀ accounts seed, TransactionQueue.Walks accounts queue →
    Shifted queue (queue.shift accounts seed).1 (queue.agedOutBy accounts)
  /-- The shift that drops what stays pending is the one at the pending depth,
  counted from the last reset of the age. -/
  dropped_at : ∀ tx ops accounts seed, ValidOps (ops ++ [Op.shift accounts seed]) queue →
    queue.accountStates.ageOf tx.account = 0 → StaysPending tx.account ops queue →
    tx ∈ (runOps ops queue).store.byHash →
    (ops ++ [Op.shift accounts seed]).countP Op.isShift ≤ setting.pendingDepth ∧
      (tx ∈ (runOps ops queue).agedOutBy accounts ↔
        (ops ++ [Op.shift accounts seed]).countP Op.isShift = setting.pendingDepth)

theorem TransactionQueue.Kept.shifted (hkept : queue.Kept) {accounts : List AccountKey}
    (hwalks : TransactionQueue.Walks accounts queue) (seed : Nat) :
    Shifted queue (queue.shift accounts seed).1 (queue.agedOutBy accounts) := by
  have hafter : (queue.shift accounts seed).1.Kept := hkept.shift accounts seed
  have hdropped : ∀ tx, tx ∈ queue.agedOutBy accounts ↔ tx ∈ queue.store.byHash ∧
      setting.pendingDepth ≤ queue.accountStates.ageOf tx.account + 1 := by
    intro tx
    rw [hwalks.mem_agedOutBy]
    simp only [agesOut_eq_some]
    constructor
    · rintro ⟨account, hpending, hdepth⟩
      obtain ⟨htx, rfl⟩ := (hkept.in_sync account tx).mp hpending
      exact ⟨htx, hdepth⟩
    · rintro ⟨htx, hdepth⟩
      exact ⟨tx.account, hkept.pendingOf_eq htx, hdepth⟩
  have hqueued : ∀ tx, tx ∈ (queue.shift accounts seed).1.store.byHash ↔
      tx ∈ queue.store.byHash ∧ tx ∉ queue.agedOutBy accounts := by
    intro tx
    have hpending := hafter.in_sync tx.account tx
    rw [hkept.pendingOf_shift hwalks seed] at hpending
    rw [hdropped]
    constructor
    · intro htx
      have hsome := hpending.mpr ⟨htx, rfl⟩
      split at hsome
      · cases hsome
      · next hyoung =>
        exact ⟨((hkept.in_sync _ tx).mp hsome).1, fun hold => hyoung hold.2⟩
    · rintro ⟨htx, hyoung⟩
      rw [if_neg fun hdepth => hyoung ⟨htx, hdepth⟩] at hpending
      exact (hpending.mp (hkept.pendingOf_eq htx)).1
  refine ⟨hdropped, hqueued, fun tx htx => ?_, fun account => ?_, hwalks.fees_shift seed⟩
  · rw [isBanned_iff, (queue.shift_banned accounts seed).1]
    have hwindow : Foundation.Rotation.rotate queue.bannedTransactions ≠ [] :=
      append_ne_nil_of_right_ne_nil _ (cons_ne_nil _ _)
    exact Foundation.Rotation.holds_runAll_of_record hwindow
      (Foundation.Rotation.rotations_map_record _ _) (mem_map.mpr ⟨tx, htx, rfl⟩)
      (Finset.mem_singleton_self _)
  · split
    · next hpending =>
      obtain ⟨tx, htx, rfl⟩ := hpending
      obtain ⟨hbefore, hstays⟩ := (hqueued tx).mp htx
      have hyoung : queue.accountStates.ageOf tx.account + 1 < setting.pendingDepth := by
        rw [hdropped, not_and, not_le] at hstays
        exact hstays hbefore
      exact (hkept.holdsAge_shift hwalks seed
        (AccountStates.holdsAge_of_pendingOf (hkept.pendingOf_eq hbefore) rfl) hyoung).ageOf_eq
    · next hidle =>
      rw [ageOf]
      cases hstate : (queue.shift accounts seed).1.accountStates account with
      | none => rfl
      | some state =>
        apply hafter.idle account state hstate
        by_contra hpending
        obtain ⟨tx, htx⟩ := ne_none_iff_exists'.mp hpending
        refine hidle ⟨tx, (hafter.in_sync account tx).mp ?_⟩
        rw [pendingOf, hstate, bind_some, htx]

theorem TransactionQueue.refused_of_banned (queue : TransactionQueue setting) (call : Call)
    (env : TransactionEnvelope) (hbanned : queue.isBanned (setting.codec.hashXdr env) = true) :
    (queue.tryAdd call env).2 ≠ .added ∧ (queue.tryAdd call env).1 = queue := by
  have hnever : ∀ queued replacedTx, queue.screen call env ≠ .ok (queued, replacedTx) := by
    intro queued replacedTx hscreen
    have hscreened := screened_of_screen hscreen
    have hunbanned := hscreened.unbanned
    rw [(QueuedTransaction.new_eq_some hscreened.built).2.1, hbanned] at hunbanned
    cases hunbanned
  rcases queue.tryAdd_cases call env with ⟨result, hresult, -, heq⟩ |
    ⟨queued, replacedTx, -, -, hscreen, -⟩ | ⟨queued, replacedTx, _, _, hadmitted, -⟩
  · rw [heq]
    exact ⟨hresult, rfl⟩
  · exact absurd hscreen (hnever _ _)
  · exact absurd hadmitted.screen_eq (hnever _ _)

theorem validOps_append {first second : List Op} :
    ValidOps (first ++ second) queue ↔
      ValidOps first queue ∧ ValidOps second (runOps first queue) := by
  induction first generalizing queue with
  | nil => simp [ValidOps, runOps]
  | cons op rest ih =>
    simp only [cons_append, ValidOps, ih, and_assoc]
    rfl

/-- In every run with ban depth `B` and pending depth `P`, both at least one,
a hash is banned from a ban until `B` shifts later, banned hashes are refused
and never queued, and a transaction that stays pending is dropped and banned,
with its fees released, by the `P`-th shift after the age of its account was
last reset. -/
theorem banAndAgeingWindows_of_depths (hban : 0 < setting.banDepth)
    (hpending : 0 < setting.pendingDepth) (hidentifies : TransactionQueue.Identifies setting.codec)
    (seed floodSeed : Nat) (ops : List Op)
    (hvalid : ValidOps ops (.withDepths seed floodSeed : TransactionQueue setting)) :
    BanAndAgeingWindows (runOps ops (.withDepths seed floodSeed : TransactionQueue setting))
      (logOps ops (.withDepths seed floodSeed : TransactionQueue setting)) := by
  obtain ⟨hkept, hbanned, hnone⟩ := banned_runOps hidentifies ops
    (kept_withDepths seed floodSeed) hvalid
  refine ⟨fun hash => ?_, refused_of_banned _, hnone fun _ => nofun,
    fun accounts shiftSeed hwalks => hkept.shifted hwalks shiftSeed, ?_⟩
  · rw [isBanned_iff, hbanned]
    exact Foundation.Rotation.holds_runAll_replicate hban _ hash
  · intro tx later accounts shiftSeed hlaterValid hreset hstays htx
    obtain ⟨hlater, hwalks, -⟩ := validOps_append.mp hlaterValid
    have hlaterKept := (banned_runOps hidentifies later hkept hlater).1
    obtain ⟨hage, hyoung⟩ := ageOf_runOps later tx.account hkept hlater hstays
      (hreset.symm ▸ hpending)
    rw [countP_append, countP_singleton, hwalks.mem_agedOutBy]
    simp only [agesOut_eq_some, Op.isShift, if_true]
    rw [hreset] at hage hyoung
    refine ⟨by omega, ?_, fun hdepth => ⟨tx.account, hlaterKept.pendingOf_eq htx, by omega⟩⟩
    rintro ⟨account, hold, hdepth⟩
    obtain ⟨-, rfl⟩ := (hlaterKept.in_sync account tx).mp hold
    omega

end Runs

section Depths

/-- The hash of an envelope tells its account and its sequence number. -/
def windowSetting (banDepth : Nat) : Setting :=
  { surgeSetting with
    codec :=
      ⟨fun env => Nat.pair (accountKey env) (Equiv.intEquivNat (envelopeSequenceNumber env)),
        fun _ => 100⟩
    banDepth := banDepth }

theorem identifies_windowSetting (banDepth : Nat) :
    TransactionQueue.Identifies (windowSetting banDepth).codec := by
  intro a b hhash
  obtain ⟨haccount, hsequence⟩ := Nat.pair_eq_pair.mp hhash
  exact ⟨haccount, Equiv.intEquivNat.injective hsequence⟩

/-- A hash is banned, and a transaction submitted. -/
def banThenSubmit : TransactionQueue (windowSetting 2) :=
  runOps [.ban [9], .tryAdd surgeCall (payments 1 200 2)] (.withDepths 0 0)

theorem walks_banThenSubmit : TransactionQueue.Walks [1] banThenSubmit := by
  obtain ⟨entered, charged, hstates⟩ : ∃ entered charged, banThenSubmit.accountStates =
      update (update (fun _ => none) 1 (some entered)) 1 (some charged) := ⟨_, _, rfl⟩
  refine ⟨nodup_singleton 1, fun account => ?_⟩
  rw [hstates, mem_singleton]
  by_cases haccount : account = 1
  · subst haccount
    simp
  · simp [haccount]

/-- The run goes on until the transaction ages out. -/
def fourShifts : List Op :=
  [.ban [9], .tryAdd surgeCall (payments 1 200 2), .shift [1] 0, .shift [1] 0, .shift [1] 0,
    .shift [1] 0]

/-- The fourth of four shifts drops and bans what was submitted, when the ban of before is
over. -/
theorem banAndAgeingWindows_of_four_shifts :
    let empty : TransactionQueue (windowSetting 2) := .withDepths 0 0
    let queue := runOps fourShifts empty
    BanAndAgeingWindows queue (logOps fourShifts empty) ∧
      (banThenSubmit.isBanned 9 = true ∧ banThenSubmit.store.byHash.map (·.hash) = [5]) ∧
      queue.isBanned 9 = false ∧ queue.isBanned 5 = true ∧ queue.store.byHash = [] := by
  have hfirst := walks_banThenSubmit.shift 0 (by decide +kernel) (by decide +kernel)
  have hsecond := hfirst.shift 0 (by decide +kernel) (by decide +kernel)
  have hthird := hsecond.shift 0 (by decide +kernel) (by decide +kernel)
  refine ⟨banAndAgeingWindows_of_depths (by decide) (by decide) (identifies_windowSetting 2) 0 0
    fourShifts ⟨trivial, trivial, walks_banThenSubmit, hfirst, hsecond, hthird, trivial⟩, ?_⟩
  decide +kernel

/-- With ban depth zero, the first shift makes room for bans that last one
shift. -/
theorem zero_ban_depth_bans :
    ¬∀ (setting : Setting), TransactionQueue.Identifies setting.codec →
      ∀ (seed floodSeed : Nat) (ops : List Op),
        ValidOps ops (.withDepths seed floodSeed : TransactionQueue setting) →
        BanAndAgeingWindows
          (runOps ops (.withDepths seed floodSeed : TransactionQueue setting))
          (logOps ops (.withDepths seed floodSeed : TransactionQueue setting)) := by
  intro hclaim
  have hwindows := hclaim (windowSetting 0) (identifies_windowSetting 0) 0 0
    [.shift [] 0, .ban [5]] ⟨⟨nodup_nil, fun _ => by simp [withDepths]⟩, trivial, trivial⟩
  obtain ⟨before, items, after, -, -, hdepth⟩ := (hwindows.banned 5).mp (by decide +kernel)
  exact absurd hdepth (Nat.not_lt_zero _)

end Depths

end Henyey.TxQueue
