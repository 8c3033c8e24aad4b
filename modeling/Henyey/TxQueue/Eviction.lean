import Henyey.TxQueue.Kept

/-!
# What an eviction check does

An eviction check changes the cached eviction queues and thresholds and nothing
else. What it evicts is queued, cheaper than the newcomer and from another
account.
-/

namespace Henyey.TxQueue

open List

namespace SurgePricingPriorityQueue

variable {d : Nat} {queue : SurgePricingPriorityQueue d}

def Ahead (cursors : List (Nat × List QueueEntry)) (lane : Nat) (entry : QueueEntry) : Prop :=
  ∃ entries, (lane, entries) ∈ cursors ∧ entry ∈ entries

variable {cursors : List (Nat × List QueueEntry)} {entry : QueueEntry} {lane : Nat}

theorem mem_of_bestCursor (hbest : bestCursor cursors = some (lane, entry)) :
    ∃ tail, (lane, entry :: tail) ∈ cursors := by
  induction cursors with
  | nil => cases hbest
  | cons cursor rest ih =>
    have hlater : bestCursor rest = some (lane, entry) →
        ∃ tail, (lane, entry :: tail) ∈ cursor :: rest := by
      intro hrest
      obtain ⟨tail, hmem⟩ := ih hrest
      exact ⟨tail, mem_cons_of_mem _ hmem⟩
    obtain ⟨cursorLane, entries⟩ := cursor
    cases entries with
    | nil => exact hlater hbest
    | cons head tail =>
      unfold bestCursor at hbest
      split at hbest
      · cases hbest
        exact ⟨tail, mem_cons_self⟩
      · next best bestEntry hrest =>
        split at hbest
        · cases hbest
          exact hlater hrest
        · cases hbest
          exact ⟨tail, mem_cons_self⟩

theorem ahead_of_bestCursor {lane : Nat} (hbest : bestCursor cursors = some (lane, entry)) :
    Ahead cursors lane entry := by
  obtain ⟨tail, hmem⟩ := mem_of_bestCursor hbest
  exact ⟨_, hmem, mem_cons_self⟩

def entriesAhead (cursors : List (Nat × List QueueEntry)) : List QueueEntry :=
  (cursors.map (·.2)).flatten

theorem mem_entriesAhead : entry ∈ entriesAhead cursors ↔ ∃ lane, Ahead cursors lane entry := by
  simp only [entriesAhead, Ahead, mem_flatten, mem_map, Prod.exists,
    exists_eq_right, ← exists_and_right]
  exact exists_comm

/-- The cursors with less in one lane: `advance` and `dropLane` both leave such. -/
def shorten (shorter : List QueueEntry → List QueueEntry) (lane : Nat)
    (cursors : List (Nat × List QueueEntry)) : List (Nat × List QueueEntry) :=
  cursors.map fun cursor => if cursor.1 = lane then (cursor.1, shorter cursor.2) else cursor

theorem lanes_shorten (shorter : List QueueEntry → List QueueEntry) (lane : Nat)
    (cursors : List (Nat × List QueueEntry)) :
    (shorten shorter lane cursors).map (·.1) = cursors.map (·.1) := by
  rw [shorten, map_map]
  exact map_congr_left fun cursor _ => by
    simp only [Function.comp_apply]
    split <;> rfl

section

variable {shorter : List QueueEntry → List QueueEntry}
  (hshorter : ∀ entries, (shorter entries).Sublist entries)
include hshorter

theorem ahead_of_shorten {taken lane : Nat}
    (hahead : Ahead (shorten shorter taken cursors) lane entry) : Ahead cursors lane entry := by
  obtain ⟨entries, hmem, hentry⟩ := hahead
  obtain ⟨⟨cursorLane, before⟩, hcursor, heq⟩ := mem_map.mp hmem
  split at heq
  · cases heq
    exact ⟨before, hcursor, (hshorter before).subset hentry⟩
  · cases heq
    exact ⟨entries, hcursor, hentry⟩

theorem entriesAhead_shorten (lane : Nat) (cursors : List (Nat × List QueueEntry)) :
    (entriesAhead (shorten shorter lane cursors)).Sublist (entriesAhead cursors) := by
  induction cursors with
  | nil => exact .refl _
  | cons cursor rest ih =>
    have hhead : (if cursor.1 = lane then (cursor.1, shorter cursor.2) else cursor).2.Sublist
        cursor.2 := by
      split
      · exact hshorter _
      · exact .refl _
    exact hhead.append ih

end

theorem ahead_of_advance {taken lane : Nat} (hahead : Ahead (advance taken cursors) lane entry) :
    Ahead cursors lane entry :=
  ahead_of_shorten tail_sublist hahead

theorem ahead_of_dropLane {dropped lane : Nat}
    (hahead : Ahead (dropLane dropped cursors) lane entry) : Ahead cursors lane entry :=
  ahead_of_shorten nil_sublist hahead

/-- An entry that may be evicted for a newcomer. -/
structure Yields (tx : QueuedTransaction) (entry : QueueEntry) : Prop where
  cheaper : entry.feeRate.cmpRate tx.feeRate = .lt
  other_account : entry.tx.account ≠ tx.account

/-- An entry of the lane may go for the newcomer: either way it frees what the
newcomer's lane lacks, or all lanes together lack more. -/
def mayEvict (queue : SurgePricingPriorityQueue d) (tx : QueuedTransaction)
    (neededTotal neededLane : Resource d) (evictLane : Nat) : Bool :=
  queue.getLane tx.envelope = genericLane || queue.getLane tx.envelope = evictLane ||
    neededTotal.anyGreater neededLane

/-- What the newcomer's lane needs once an entry of a lane is gone. -/
def neededLaneAfter (queue : SurgePricingPriorityQueue d) (tx : QueuedTransaction)
    (ledgerVersion : Nat) (neededLane : Resource d) (evictLane : Nat) (entry : QueueEntry) :
    Resource d :=
  if queue.getLane tx.envelope = genericLane || queue.getLane tx.envelope = evictLane then
    neededLane.subtractNonNegative (queue.txResources entry.tx.envelope ledgerVersion)
  else neededLane

variable {evictions : List (QueuedTransaction × Bool)} {tx : QueuedTransaction}
  {neededTotal neededLane : Resource d} {ledgerVersion fuel : Nat} {due : Bool}

/-- The loop ends when nothing is needed. Before, each round evicts the cheapest
entry or gives up on its lane. -/
theorem collectEvictions_cases
    (hevictions : queue.collectEvictions tx ledgerVersion fuel neededTotal neededLane cursors due =
      some evictions) :
    (neededTotal.anyPositive || neededLane.anyPositive) = false ∧ evictions = [] ∨
      ∃ rounds < fuel, ∃ lane entry,
        (neededTotal.anyPositive || neededLane.anyPositive) = true ∧
        bestCursor cursors = some (lane, entry) ∧
        ((Yields tx entry ∧ ∃ later, evictions = (entry.tx, due) :: later ∧
            queue.collectEvictions tx ledgerVersion rounds
              (neededTotal.subtractNonNegative (queue.txResources entry.tx.envelope ledgerVersion))
              (queue.neededLaneAfter tx ledgerVersion neededLane lane entry)
              (advance lane cursors) false = some later) ∨
          queue.collectEvictions tx ledgerVersion rounds neededTotal neededLane
            (dropLane lane cursors) true = some evictions) := by
  unfold collectEvictions at hevictions
  split at hevictions
  · next hpositive =>
    right
    split at hevictions
    · cases hevictions
    · next rounds =>
      split at hevictions
      · cases hevictions
      · next lane entry hbest =>
        refine ⟨rounds, Nat.lt_succ_self rounds, lane, entry, hpositive, hbest, ?_⟩
        simp only at hevictions
        split at hevictions
        · split at hevictions
          · cases hevictions
          · next hcheaper =>
            split at hevictions
            · cases hevictions
            · next haccount =>
              obtain ⟨later, hlater, rfl⟩ := Option.map_eq_some_iff.mp hevictions
              exact .inl ⟨⟨not_not.mp hcheaper, haccount⟩, later, rfl, hlater⟩
        · exact .inr hevictions
  · next hnone =>
    cases hevictions
    exact .inl ⟨Bool.eq_false_of_not_eq_true hnone, rfl⟩

theorem yields_of_collectEvictions
    (hevictions : queue.collectEvictions tx ledgerVersion fuel neededTotal neededLane cursors due =
      some evictions) :
    ∀ evicted ∈ evictions, ∃ lane entry, Ahead cursors lane entry ∧ entry.tx = evicted.1 ∧
      Yields tx entry := by
  induction fuel using Nat.strong_induction_on
    generalizing neededTotal neededLane cursors due evictions with
  | _ fuel ih =>
    obtain ⟨-, rfl⟩ | ⟨rounds, hless, evictLane, entry, -, hbest, hround⟩ :=
      collectEvictions_cases hevictions
    · exact fun _ => nofun
    · obtain ⟨hyields, later, rfl, hlater⟩ | hlater := hround
      · refine forall_mem_cons.mpr
          ⟨⟨evictLane, entry, ahead_of_bestCursor hbest, rfl, hyields⟩, fun evicted hevicted => ?_⟩
        obtain ⟨lane, found, hahead, hfound⟩ := ih rounds hless hlater evicted hevicted
        exact ⟨lane, found, ahead_of_advance hahead, hfound⟩
      · intro evicted hevicted
        obtain ⟨lane, found, hahead, hfound⟩ := ih rounds hless hlater evicted hevicted
        exact ⟨lane, found, ahead_of_dropLane hahead, hfound⟩

variable {laneConfig : SurgePricingLaneConfig d} {txs : List QueuedTransaction}
  {seed ledgerVersion : Nat} {exclusion : EvictionExclusion d} {txDiscount : Option (Resource d)}

/-- The entries that a fit check goes through, by lane. -/
def cursorsOf (queue : SurgePricingPriorityQueue d) (exclusion : EvictionExclusion d) :
    List (Nat × List QueueEntry) :=
  (range queue.numLanes).map fun lane => (lane, queue.evictable exclusion lane)

section

variable (hholds : queue.Holds laneConfig seed ledgerVersion txs)
include hholds

/-- What a fit check goes through is held and not excluded, each in its lane. -/
theorem Holds.of_ahead {exclusion : EvictionExclusion d}
    (hahead : Ahead (queue.cursorsOf exclusion) lane entry) :
    ∃ tx ∈ txs, laneConfig.getLane tx.envelope = lane ∧ entry = .new tx seed ∧
      tx.hash ∉ exclusion.hashes := by
  obtain ⟨entries, hcursor, hentry⟩ := hahead
  obtain ⟨cursorLane, -, heq⟩ := mem_map.mp hcursor
  cases heq
  obtain ⟨hstored, hfree⟩ := mem_filter.mp hentry
  obtain ⟨held, hheld, hlane, rfl⟩ := (hholds.mem_lane _ _).mp hstored
  exact ⟨held, hheld, hlane, rfl, of_decide_eq_true hfree⟩

theorem Holds.placed (exclusion : EvictionExclusion d) (lane : Nat) (entry : QueueEntry)
    (hahead : Ahead (queue.cursorsOf exclusion) lane entry) :
    queue.getLane entry.tx.envelope = lane := by
  obtain ⟨_, -, hlane, rfl, -⟩ := hholds.of_ahead hahead
  rw [getLane, hholds.config_eq]
  exact hlane

/-- What a fit check evicts is held, not excluded, and yields to the
newcomer. -/
theorem Holds.yields_of_canFitWithEviction
    (hevictions : queue.canFitWithEviction tx txDiscount ledgerVersion exclusion = some evictions) :
    ∀ evicted ∈ evictions, evicted.1 ∈ txs ∧ evicted.1.hash ∉ exclusion.hashes ∧
      evicted.1.feeRate.cmpRate tx.feeRate = .lt ∧ evicted.1.account ≠ tx.account := by
  unfold canFitWithEviction at hevictions
  simp only at hevictions
  split at hevictions
  · cases hevictions
  · split at hevictions
    · cases hevictions
    · split at hevictions
      · cases hevictions
        exact fun _ => nofun
      · intro evicted hevicted
        obtain ⟨lane, entry, hahead, htx, hyields⟩ :=
          yields_of_collectEvictions hevictions evicted hevicted
        obtain ⟨held, hheld, -, rfl, hfree⟩ := hholds.of_ahead hahead
        obtain rfl : held = evicted.1 := htx
        exact ⟨hheld, hfree, hyields.cheaper, hyields.other_account⟩

end

theorem advance_of_not_mem {taken : Nat}
    (hnot : taken ∉ cursors.map (·.1)) : advance taken cursors = cursors := by
  refine (map_congr_left fun cursor hcursor => if_neg fun heq => hnot ?_).trans
    (map_id _)
  exact mem_map.mpr ⟨cursor, hcursor, heq⟩

theorem perm_advance {tail : List QueueEntry} (hlanes : (cursors.map (·.1)).Nodup)
    (hmem : (lane, entry :: tail) ∈ cursors) :
    (entriesAhead cursors).Perm (entry :: entriesAhead (advance lane cursors)) := by
  induction cursors with
  | nil => cases hmem
  | cons cursor rest ih =>
    obtain ⟨hfresh, hrest⟩ := nodup_cons.mp hlanes
    cases hmem with
    | head =>
      have hsame : advance lane ((lane, entry :: tail) :: rest) = (lane, tail) :: rest := by
        have hstay := advance_of_not_mem hfresh
        rw [advance, map_cons, if_pos rfl]
        exact congrArg _ hstay
      rw [hsame]
      exact .refl _
    | tail _ hmem =>
      have hne : cursor.1 ≠ lane := by
        intro heq
        apply hfresh
        exact mem_map.mpr ⟨_, hmem, heq.symm⟩
      have hstep : advance lane (cursor :: rest) = cursor :: advance lane rest := by
        rw [advance, map_cons, if_neg hne]
        rfl
      rw [hstep]
      exact ((ih hrest hmem).append_left cursor.2).trans perm_middle

theorem subperm_of_collectEvictions (hlanes : (cursors.map (·.1)).Nodup)
    (hevictions : queue.collectEvictions tx ledgerVersion fuel neededTotal neededLane cursors due =
      some evictions) :
    (evictions.map (·.1)).Subperm ((entriesAhead cursors).map (·.tx)) := by
  induction fuel using Nat.strong_induction_on
    generalizing neededTotal neededLane cursors due evictions with
  | _ fuel ih =>
    obtain ⟨-, rfl⟩ | ⟨rounds, hless, evictLane, entry, -, hbest, hround⟩ :=
      collectEvictions_cases hevictions
    · exact nil_subperm
    · obtain ⟨-, later, rfl, hlater⟩ | hlater := hround
      · obtain ⟨tail, hmem⟩ := mem_of_bestCursor hbest
        have hkept := (lanes_shorten List.tail evictLane cursors).symm ▸ hlanes
        have hrest := ih rounds hless hkept hlater
        have hperm := (perm_advance hlanes hmem).map (·.tx)
        exact ((subperm_cons entry.tx).mpr hrest).trans hperm.symm.subperm
      · have hkept := (lanes_shorten (fun _ => []) evictLane cursors).symm ▸ hlanes
        exact (ih rounds hless hkept hlater).trans
          ((entriesAhead_shorten nil_sublist _ _).map _).subperm

/-- The entries that a fit check may take, over all lanes. -/
theorem Holds.entriesAhead_subperm (hholds : queue.Holds laneConfig seed ledgerVersion txs)
    (exclusion : EvictionExclusion d) :
    ((entriesAhead (queue.cursorsOf exclusion)).map (·.tx)).Subperm txs := by
  have hentry : ∀ lane, ∀ entry ∈ queue.evictable exclusion lane,
      ∃ tx ∈ txs, laneConfig.getLane tx.envelope = lane ∧ entry = .new tx seed :=
    fun lane entry hmem => (hholds.mem_lane lane entry).mp (mem_filter.mp hmem).1
  have hahead : ∀ entry ∈ entriesAhead (queue.cursorsOf exclusion),
      ∃ tx ∈ txs, entry = .new tx seed := by
    intro entry hmem
    obtain ⟨lane, hlane⟩ := mem_entriesAhead.mp hmem
    obtain ⟨tx, htx, -, heq, -⟩ := hholds.of_ahead hlane
    exact ⟨tx, htx, heq⟩
  apply subperm_of_subset
  · refine List.Nodup.map_on (fun a ha b hb heq => ?_) ?_
    · obtain ⟨tx, -, rfl⟩ := hahead a ha
      obtain ⟨other, -, rfl⟩ := hahead b hb
      obtain rfl : tx = other := heq
      rfl
    · rw [entriesAhead, cursorsOf, map_map, nodup_flatten]
      constructor
      · intro entries hentries
        obtain ⟨lane, -, rfl⟩ := mem_map.mp hentries
        refine ((hholds.sorted lane).filter _).imp fun hlt heq => ?_
        subst heq
        simp at hlt
      · refine pairwise_map.mpr (nodup_range.imp fun hne entry hleft hright => ?_)
        obtain ⟨tx, -, hlane, rfl⟩ := hentry _ _ hleft
        obtain ⟨other, -, hother, heq⟩ := hentry _ _ hright
        obtain rfl : tx = other := congrArg QueueEntry.tx heq
        exact hne (hlane.symm.trans hother)
  · intro tx hmem
    obtain ⟨entry, hahead', rfl⟩ := mem_map.mp hmem
    obtain ⟨tx, htx, rfl⟩ := hahead entry hahead'
    exact htx

theorem lanes_cursorsOf (queue : SurgePricingPriorityQueue d) (exclusion : EvictionExclusion d) :
    ((queue.cursorsOf exclusion).map (·.1)).Nodup := by
  rw [cursorsOf, map_map]
  change ((range queue.numLanes).map id).Nodup
  rw [map_id]
  exact nodup_range

theorem Holds.subperm_of_canFitWithEviction (hholds : queue.Holds laneConfig seed ledgerVersion txs)
    (hevictions : queue.canFitWithEviction tx txDiscount ledgerVersion exclusion = some evictions) :
    (evictions.map (·.1)).Subperm txs := by
  unfold canFitWithEviction at hevictions
  simp only at hevictions
  split at hevictions
  · cases hevictions
  · split at hevictions
    · cases hevictions
    · split at hevictions
      · cases hevictions
        exact nil_subperm
      · exact (subperm_of_collectEvictions (queue.lanes_cursorsOf exclusion) hevictions).trans
          (hholds.entriesAhead_subperm exclusion)

end SurgePricingPriorityQueue

namespace TransactionQueue

variable {setting : Setting} {queue : TransactionQueue setting}

/-- The queue without what it caches for eviction checks. -/
def forgetCaches (queue : TransactionQueue setting) : TransactionQueue setting :=
  queue.invalidateAllEvictionState queue.store.evictionSeed

/-- An eviction check recorded nothing but caches, and evicts queued
transactions that yield to the newcomer. -/
structure Reviewed (before after : TransactionQueue setting) : Prop where
  same : after.forgetCaches = before.forgetCaches
  kept : after.Kept

namespace Reviewed

variable {before after : TransactionQueue setting}

section

variable (hreviewed : Reviewed before after)
include hreviewed

theorem byHash_eq : after.store.byHash = before.store.byHash :=
  congrArg (·.store.byHash) hreviewed.same

theorem accountStates_eq : after.accountStates = before.accountStates :=
  congrArg (·.accountStates) hreviewed.same

theorem banned_eq : after.bannedTransactions = before.bannedTransactions :=
  congrArg (·.bannedTransactions) hreviewed.same

theorem effectiveQueueSorobanResources_eq :
    after.effectiveQueueSorobanResources = before.effectiveQueueSorobanResources :=
  (congrArg effectiveQueueSorobanResources hreviewed.same :)

theorem effectiveMaxQueueOps_eq : after.effectiveMaxQueueOps = before.effectiveMaxQueueOps :=
  (congrArg effectiveMaxQueueOps hreviewed.same :)

theorem limits_eq : after.limits = before.limits :=
  (congrArg limits hreviewed.same :)

theorem trans {last : TransactionQueue setting}
    (hnext : Reviewed after last) : Reviewed before last :=
  ⟨hnext.same.trans hreviewed.same, hnext.kept⟩

end

end Reviewed

section

variable (hkept : queue.Kept)
include hkept

theorem Kept.withClassicFees (fees : List (Option FeeRate)) :
    Reviewed queue (queue.withClassicFees fees) :=
  ⟨rfl, hkept.of_same rfl rfl rfl⟩

theorem Kept.withSorobanFees (fees : List (Option FeeRate)) :
    Reviewed queue (queue.withSorobanFees fees) :=
  ⟨rfl, hkept.of_same rfl rfl rfl⟩

theorem Kept.withGlobalFees (fees : Option FeeRate) : Reviewed queue (queue.withGlobalFees fees) :=
  ⟨rfl, hkept.of_same rfl rfl rfl⟩

theorem Kept.checkThresholds (queued : QueuedTransaction) :
    Reviewed queue (queue.checkThresholds queued).1 := by
  unfold TransactionQueue.checkThresholds
  split
  next sized below hsized =>
  split at hsized
  · split at hsized
    · cases hsized
      exact ⟨rfl, hkept⟩
    · cases hsized
      exact hkept.withSorobanFees _
  · split at hsized
    · cases hsized
      exact ⟨rfl, hkept⟩
    · cases hsized
      exact hkept.withClassicFees _

end

variable {laneConfig : SurgePricingLaneConfig setting.classicDim}

theorem limits_classic (queue : TransactionQueue setting)
    (hconfig : buildClassicLaneConfig setting = some laneConfig) :
    queue.limits.classic = some laneConfig := hconfig

theorem limits_soroban {limit : Resource 7}
    (hlimit : queue.effectiveQueueSorobanResources = some limit) :
    queue.limits.soroban = some (sorobanGenericLaneConfig setting.codec limit) := by
  rw [limits, hlimit]
  rfl

theorem limits_global {ops : Nat} (hops : queue.effectiveMaxQueueOps = some ops) :
    queue.limits.global = some (opsOnlyLaneConfig fun _ => (ops : Int)) := by
  rw [limits, hops]
  rfl

theorem Kept.ensureClassicQueue (hkept : queue.Kept)
    (hconfig : buildClassicLaneConfig setting = some laneConfig) :
    Reviewed queue (queue.withStore (queue.store.ensureClassicQueue laneConfig)) :=
  ⟨rfl, hkept.store.ensureClassicQueue hconfig, hkept.in_sync, hkept.idle⟩

theorem Kept.ensureSorobanQueue (hkept : queue.Kept) {limit : Resource 7}
    (hlimit : queue.effectiveQueueSorobanResources = some limit) :
    Reviewed queue (queue.withStore (queue.store.ensureSorobanQueue limit)) :=
  ⟨rfl, hkept.store.ensureSorobanQueue (limits_soroban hlimit), hkept.in_sync, hkept.idle⟩

theorem Kept.ensureGlobalOpsQueue (hkept : queue.Kept) {ops : Nat}
    (hops : queue.effectiveMaxQueueOps = some ops) :
    Reviewed queue (queue.withStore (queue.store.ensureGlobalOpsQueue ops)) :=
  ⟨rfl, hkept.store.ensureGlobalOpsQueue (limits_global hops), hkept.in_sync, hkept.idle⟩

/-- A queued transaction that yields to the newcomer. -/
structure Evictable (queue : TransactionQueue setting) (queued tx : QueuedTransaction) : Prop where
  mem : tx ∈ queue.store.byHash
  cheaper : tx.feeRate.cmpRate queued.feeRate = .lt
  other_account : tx.account ≠ queued.account

variable {pending : List QueuedTransaction} {evictions : List (QueuedTransaction × Bool)}
  {tx : QueuedTransaction}

/-- A pass that appends some of its items holds what it began with and items. -/
theorem mem_collected {σ : Type}
    {pass : σ × List QueuedTransaction → QueuedTransaction × Bool → σ × List QueuedTransaction}
    (hpass : ∀ collected evicted, (pass collected evicted).2 = collected.2 ∨
      (pass collected evicted).2 = collected.2 ++ [evicted.1])
    {start : σ × List QueuedTransaction}
    (htx : tx ∈ (evictions.foldl pass start).2) :
    tx ∈ start.2 ∨ ∃ evicted ∈ evictions, evicted.1 = tx := by
  induction evictions generalizing start with
  | nil => exact .inl htx
  | cons head rest ih =>
    rcases ih htx with hbefore | ⟨evicted, hevicted, heq⟩
    · rcases hpass start head with hsame | happended
      · exact .inl (hsame ▸ hbefore)
      · rw [happended] at hbefore
        rcases mem_append.mp hbefore with hbefore | hbefore
        · exact .inl hbefore
        · exact .inr ⟨head, mem_cons_self, (mem_singleton.mp hbefore).symm⟩
    · exact .inr ⟨evicted, mem_cons_of_mem _ hevicted, heq⟩

theorem mem_recordLaneEvictions {d : Nat} {laneConfig : SurgePricingLaneConfig d}
    {laneFees : List (Option FeeRate)}
    (htx : tx ∈ (recordLaneEvictions laneConfig evictions laneFees pending).2) :
    tx ∈ pending ∨ ∃ evicted ∈ evictions, evicted.1 = tx := by
  refine mem_collected (fun collected evicted => ?_) htx
  dsimp only
  split
  · exact .inl rfl
  · exact .inr rfl

theorem Kept.collectLaneEvictions (hkept : queue.Kept) (queued : QueuedTransaction)
    (replacedTx : Option QueuedTransaction) :
    Reviewed queue (queue.collectLaneEvictions queued replacedTx).1 ∧
      ∀ pending, (queue.collectLaneEvictions queued replacedTx).2 = some pending →
        ∀ tx ∈ pending, queue.Evictable queued tx := by
  unfold TransactionQueue.collectLaneEvictions
  split
  · split
    · exact ⟨⟨rfl, hkept⟩, fun _ hpending => by cases hpending; exact fun _ => nofun⟩
    · next limit hlimit =>
      have hensured := hkept.ensureSorobanQueue hlimit
      simp only
      split
      · exact ⟨hensured, fun _ => nofun⟩
      · next evictions hfit =>
        refine ⟨hensured.trans (hensured.kept.withSorobanFees _), ?_⟩
        rintro _ ⟨⟩ tx htx
        rcases mem_recordLaneEvictions htx with hnil | ⟨evicted, hevicted, rfl⟩
        · cases hnil
        · obtain ⟨hheld, -, hcheaper, haccount⟩ :=
            (hkept.store.sorobanQueue (limits_soroban hlimit)).yields_of_canFitWithEviction hfit
              evicted hevicted
          exact ⟨(mem_filter.mp hheld).1, hcheaper, haccount⟩
  · split
    · exact ⟨⟨rfl, hkept⟩, fun _ hpending => by cases hpending; exact fun _ => nofun⟩
    · next laneConfig hconfig =>
      have hensured := hkept.ensureClassicQueue hconfig
      simp only
      split
      · exact ⟨hensured, fun _ => nofun⟩
      · next evictions hfit =>
        refine ⟨hensured.trans (hensured.kept.withClassicFees _), ?_⟩
        rintro _ ⟨⟩ tx htx
        rcases mem_recordLaneEvictions htx with hnil | ⟨evicted, hevicted, rfl⟩
        · cases hnil
        · obtain ⟨hheld, -, hcheaper, haccount⟩ :=
            (hkept.store.classicQueue (queue.limits_classic hconfig)).yields_of_canFitWithEviction
              hfit evicted hevicted
          exact ⟨(mem_filter.mp hheld).1, hcheaper, haccount⟩

theorem mem_foldl_global {fee : Option FeeRate} (htx : tx ∈ (evictions.foldl
      (fun (fee, pending) (evicted, _) =>
        if evicted.hash ∈ pending.map (·.hash) then (fee, pending)
        else (some evicted.feeRate, pending ++ [evicted])) (fee, pending)).2) :
    tx ∈ pending ∨ ∃ evicted ∈ evictions, evicted.1 = tx := by
  refine mem_collected (fun collected evicted => ?_) htx
  dsimp only
  split
  · exact .inl rfl
  · exact .inr rfl

theorem Kept.collectGlobalEvictions (hkept : queue.Kept) (queued : QueuedTransaction)
    (replacedTx : Option QueuedTransaction) (hpending : ∀ tx ∈ pending, queue.Evictable queued tx) :
    Reviewed queue (queue.collectGlobalEvictions queued replacedTx pending).1 ∧
      ∀ evictions, (queue.collectGlobalEvictions queued replacedTx pending).2 = some evictions →
        ∀ tx ∈ evictions, queue.Evictable queued tx := by
  unfold TransactionQueue.collectGlobalEvictions
  split
  · exact ⟨⟨rfl, hkept⟩, fun _ hsome => by cases hsome; exact hpending⟩
  · next ops hops =>
    have hensured := hkept.ensureGlobalOpsQueue hops
    simp only
    split
    · exact ⟨hensured, fun _ hsome => by cases hsome⟩
    · next evictions hfit =>
      refine ⟨hensured.trans (hensured.kept.withGlobalFees _), ?_⟩
      rintro _ ⟨⟩ tx htx
      rcases mem_foldl_global htx with hbefore | ⟨evicted, hevicted, rfl⟩
      · exact hpending tx hbefore
      · obtain ⟨hheld, -, hcheaper, haccount⟩ :=
          (hkept.store.globalQueue (limits_global hops)).yields_of_canFitWithEviction hfit
            evicted hevicted
        exact ⟨hheld, hcheaper, haccount⟩

/-- An eviction check touches caches only, and what it evicts yields to the
newcomer. -/
theorem Kept.checkAndCollectEvictions (hkept : queue.Kept) (queued : QueuedTransaction)
    (replacedTx : Option QueuedTransaction) :
    Reviewed queue (queue.checkAndCollectEvictions queued replacedTx).1 ∧
      ∀ pending, (queue.checkAndCollectEvictions queued replacedTx).2 = .ok pending →
        ∀ tx ∈ pending, queue.Evictable queued tx := by
  have hsized := hkept.checkThresholds queued
  have hlanes := hsized.kept.collectLaneEvictions queued replacedTx
  unfold TransactionQueue.checkAndCollectEvictions
  generalize queue.checkThresholds queued = sized at hsized hlanes
  obtain ⟨sized, below⟩ := sized
  cases below with
  | true => exact ⟨hsized, fun _ => nofun⟩
  | false =>
    simp only [Bool.false_eq_true, if_false]
    generalize sized.collectLaneEvictions queued replacedTx = laned at hlanes
    obtain ⟨laned, laneEvictions⟩ := laned
    obtain ⟨hlaned, hpending⟩ := hlanes
    have hfirst : Reviewed queue laned := hsized.trans hlaned
    cases laneEvictions with
    | none => exact ⟨hfirst, fun _ => nofun⟩
    | some pending =>
      have hevictable : ∀ tx ∈ pending, laned.Evictable queued tx := by
        intro tx htx
        obtain ⟨hmem, hcheaper, haccount⟩ := hpending pending rfl tx htx
        exact ⟨hlaned.byHash_eq ▸ hmem, hcheaper, haccount⟩
      obtain ⟨hglobal, hevictions⟩ := hlaned.kept.collectGlobalEvictions queued replacedTx hevictable
      simp only
      generalize laned.collectGlobalEvictions queued replacedTx pending = last at hglobal hevictions
      obtain ⟨last, evictions⟩ := last
      cases evictions with
      | none => exact ⟨hfirst.trans hglobal, fun _ => nofun⟩
      | some evictions =>
        refine ⟨hfirst.trans hglobal, ?_⟩
        rintro _ ⟨⟩ tx htx
        obtain ⟨hmem, hcheaper, haccount⟩ := hevictions evictions rfl tx htx
        exact ⟨hfirst.byHash_eq ▸ hmem, hcheaper, haccount⟩

end TransactionQueue

end Henyey.TxQueue
