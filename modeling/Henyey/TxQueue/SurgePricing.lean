import Henyey.TxQueue.Envelope
import Mathlib.Data.Finset.Basic
import Mathlib.Data.List.Sort

/-!
# Surge-pricing priority queues

A priority queue keeps its transactions by lane in fee order, with a running
count of the resources of each lane. Lane 0 is the generic lane, and its limit
bounds all lanes together.
-/

namespace Henyey.TxQueue

abbrev genericLane : Nat := 0
abbrev dexLane : Nat := 1

/-- How a queue sorts transactions into lanes and measures them. -/
structure SurgePricingLaneConfig (d : Nat) where
  laneLimits : List (Resource d)
  getLane : TransactionEnvelope → Nat
  txResources : TransactionEnvelope → Nat → Resource d

/-- A weight less what is taken off for a transaction that is replaced. -/
def Resource.discounted {d : Nat} (weight : Resource d) : Option (Resource d) → Resource d
  | none => weight
  | some discount => weight.subtractNonNegative discount

namespace SurgePricingLaneConfig

variable {d : Nat}

/-- The limit of one lane; lanes beyond the list have none to give. -/
def limit (config : SurgePricingLaneConfig d) (lane : Nat) : Resource d :=
  config.laneLimits.getD lane 0

end SurgePricingLaneConfig

variable (codec : Codec)

def dexLimitingLaneConfig {d : Nat} (limit : Resource d) (dexLimit : Option (Resource d)) :
    SurgePricingLaneConfig d where
  laneLimits := limit :: dexLimit.toList
  getLane env :=
    if (limit :: dexLimit.toList).length > dexLane && hasDexOperationsEnvelope env then dexLane
    else genericLane
  txResources env _ := classicResourcesFromEnvelope codec d env

def sorobanGenericLaneConfig (limit : Resource 7) : SurgePricingLaneConfig 7 where
  laneLimits := [limit]
  getLane _ := genericLane
  txResources env ledgerVersion := sorobanResourcesFromEnvelope codec env ledgerVersion

def opsOnlyLaneConfig (limit : Resource 1) : SurgePricingLaneConfig 1 where
  laneLimits := [limit]
  getLane _ := genericLane
  txResources env _ := fun _ => envelopeOperationCount env

/-- Flood budgets count operations, and at least one per transaction. -/
def floodLaneConfig (hasDexLane : Bool) : SurgePricingLaneConfig 1 where
  laneLimits := (fun _ => i64Max) :: if hasDexLane then [fun _ => i64Max] else []
  getLane env := if hasDexLane && hasDexOperationsEnvelope env then dexLane else genericLane
  txResources env _ := fun _ => max (envelopeOperationCount env : Int) 1

/-- The entries that a fit check leaves out, and what they weigh by lane. -/
structure EvictionExclusion (d : Nat) where
  hashes : Finset Hash256
  laneResourceDiscount : Nat → Resource d

namespace EvictionExclusion

def new (d : Nat) : EvictionExclusion d where
  hashes := ∅
  laneResourceDiscount _ := 0

end EvictionExclusion

structure QueueEntry where
  feeRate : FeeRate
  tieBreaker : Hash256
  hash : Hash256
  tx : QueuedTransaction
deriving DecidableEq

namespace QueueEntry

/-- The seed is mixed into the first eight bytes of the hash. -/
def new (tx : QueuedTransaction) (seed : Nat) : QueueEntry where
  feeRate := tx.feeRate
  tieBreaker := if seed ≠ 0 then tx.hash ^^^ (seed <<< 192) else tx.hash
  hash := tx.hash
  tx := tx

/-- By fee rate, then by the larger tie breaker first. -/
def cmp (a b : QueueEntry) : Ordering :=
  (a.feeRate.cmpRate b.feeRate).then
    ((compare b.tieBreaker a.tieBreaker).then (compare b.hash a.hash))

section

variable (tx : QueuedTransaction)
include tx

@[simp]
theorem new_tx (seed : Nat) : (new tx seed).tx = tx := rfl

@[simp]
theorem new_hash (seed : Nat) : (new tx seed).hash = tx.hash := rfl

@[simp]
theorem new_feeRate (seed : Nat) : (new tx seed).feeRate = tx.feeRate :=
  rfl

end

theorem hash_eq_of_cmp {a b : QueueEntry} (hcmp : a.cmp b = .eq) : a.hash = b.hash := by
  rw [cmp, Ordering.then_eq_eq, Ordering.then_eq_eq] at hcmp
  exact (Nat.compare_eq_eq.mp hcmp.2.2).symm

@[simp]
theorem cmp_self (a : QueueEntry) : a.cmp a = .eq := by
  simp [cmp]

end QueueEntry

structure SurgePricingPriorityQueue (d : Nat) where
  laneConfig : SurgePricingLaneConfig d
  laneCurrentCount : Nat → Resource d
  /-- The entries of each lane, cheapest first. -/
  lanes : Nat → List QueueEntry
  seed : Nat

namespace SurgePricingPriorityQueue

variable {d : Nat}

def new (laneConfig : SurgePricingLaneConfig d) (seed : Nat) : SurgePricingPriorityQueue d where
  laneConfig := laneConfig
  laneCurrentCount _ := 0
  lanes _ := []
  seed := seed

def numLanes (queue : SurgePricingPriorityQueue d) : Nat := queue.laneConfig.laneLimits.length

def getLane (queue : SurgePricingPriorityQueue d) (env : TransactionEnvelope) : Nat :=
  queue.laneConfig.getLane env

def txResources (queue : SurgePricingPriorityQueue d) (env : TransactionEnvelope)
    (ledgerVersion : Nat) : Resource d :=
  queue.laneConfig.txResources env ledgerVersion

/-- Insert in order; an equal entry that is there already stays. -/
def insertEntry (entry : QueueEntry) (lane : List QueueEntry) : List QueueEntry :=
  lane.orderedInsert (fun a b => a.cmp b ≠ .gt) entry

def add (queue : SurgePricingPriorityQueue d) (tx : QueuedTransaction) (ledgerVersion : Nat) :
    SurgePricingPriorityQueue d :=
  let lane := queue.getLane tx.envelope
  let resources := queue.txResources tx.envelope ledgerVersion
  let entry := QueueEntry.new tx queue.seed
  if (queue.lanes lane).any fun stored => stored.cmp entry = .eq then queue
  else
    { queue with
      lanes := Function.update queue.lanes lane (insertEntry entry (queue.lanes lane))
      laneCurrentCount :=
        Function.update queue.laneCurrentCount lane (queue.laneCurrentCount lane + resources) }

/-- The stored entry that is equal to the given one. -/
def stored (queue : SurgePricingPriorityQueue d) (lane : Nat) (entry : QueueEntry) :
    Option QueueEntry :=
  (queue.lanes lane).find? fun other => other.cmp entry = .eq

/-- `erase` asserts that what it takes away was counted. -/
def erasePanics (queue : SurgePricingPriorityQueue d) (lane : Nat) (entry : QueueEntry)
    (ledgerVersion : Nat) : Bool :=
  match queue.stored lane entry with
  | none => false
  | some stored =>
    !(queue.txResources stored.tx.envelope ledgerVersion).leq (queue.laneCurrentCount lane)

def erase (queue : SurgePricingPriorityQueue d) (lane : Nat) (entry : QueueEntry)
    (ledgerVersion : Nat) : SurgePricingPriorityQueue d :=
  match queue.stored lane entry with
  | none => queue
  | some stored =>
    { queue with
      laneCurrentCount :=
        Function.update queue.laneCurrentCount lane
          (queue.laneCurrentCount lane - queue.txResources stored.tx.envelope ledgerVersion)
      lanes :=
        Function.update queue.lanes lane
          ((queue.lanes lane).filter fun other => other.cmp entry ≠ .eq) }

def bestCursor : List (Nat × List QueueEntry) → Option (Nat × QueueEntry)
  | [] => none
  | (_, []) :: cursors => bestCursor cursors
  | (lane, entry :: _) :: cursors =>
    match bestCursor cursors with
    | none => some (lane, entry)
    | some (best, bestEntry) =>
      if bestEntry.cmp entry = .lt then some (best, bestEntry) else some (lane, entry)

/-- Move one cursor past its head. -/
def advance (lane : Nat) (cursors : List (Nat × List QueueEntry)) : List (Nat × List QueueEntry) :=
  cursors.map fun cursor => if cursor.1 = lane then (cursor.1, cursor.2.tail) else cursor

/-- Give up on one lane. -/
def dropLane (lane : Nat) (cursors : List (Nat × List QueueEntry)) : List (Nat × List QueueEntry) :=
  cursors.map fun cursor => if cursor.1 = lane then (cursor.1, []) else cursor

/-- Evict the cheapest entries until nothing more is needed. Each round takes an
entry or gives up on a lane, so the number of entries is fuel enough.
`dueToLane` is set once a lane was given up in the current round. -/
def collectEvictions (queue : SurgePricingPriorityQueue d) (tx : QueuedTransaction)
    (ledgerVersion : Nat) :
    Nat → Resource d → Resource d → List (Nat × List QueueEntry) → Bool →
      Option (List (QueuedTransaction × Bool))
  | fuel, neededTotal, neededLane, cursors, dueToLane =>
    if neededTotal.anyPositive || neededLane.anyPositive then
      match fuel with
      | 0 => none
      | fuel + 1 =>
        match bestCursor cursors with
        | none => none
        | some (evictLane, entry) =>
          let lane := queue.getLane tx.envelope
          if lane = genericLane || lane = evictLane || neededTotal.anyGreater neededLane then
            if entry.feeRate.cmpRate tx.feeRate ≠ .lt then none
            else if entry.tx.account = tx.account then none
            else
              let evictResources := queue.txResources entry.tx.envelope ledgerVersion
              let neededTotal := neededTotal.subtractNonNegative evictResources
              let neededLane :=
                if lane = genericLane || lane = evictLane then
                  neededLane.subtractNonNegative evictResources
                else neededLane
              (collectEvictions queue tx ledgerVersion fuel neededTotal neededLane
                (advance evictLane cursors) false).map ((entry.tx, dueToLane) :: ·)
          else
            collectEvictions queue tx ledgerVersion fuel neededTotal neededLane
              (dropLane evictLane cursors) true
    else some []

def effectiveLaneCount (queue : SurgePricingPriorityQueue d) (exclusion : EvictionExclusion d)
    (lane : Nat) : Resource d :=
  (queue.laneCurrentCount lane).subtractNonNegative (exclusion.laneResourceDiscount lane)

def effectiveTotal (queue : SurgePricingPriorityQueue d) (exclusion : EvictionExclusion d) :
    Resource d :=
  ((List.range queue.numLanes).map (queue.effectiveLaneCount exclusion)).sum

def evictable (queue : SurgePricingPriorityQueue d) (exclusion : EvictionExclusion d)
    (lane : Nat) : List QueueEntry :=
  (queue.lanes lane).filter fun entry => entry.hash ∉ exclusion.hashes

/-- What has to be evicted for a transaction to fit, each with whether it goes
because of a lane limit. Nothing where no eviction makes room. -/
def canFitWithEviction (queue : SurgePricingPriorityQueue d) (tx : QueuedTransaction)
    (txDiscount : Option (Resource d)) (ledgerVersion : Nat) (exclusion : EvictionExclusion d) :
    Option (List (QueuedTransaction × Bool)) :=
  let lane := queue.getLane tx.envelope
  let txResources := (queue.txResources tx.envelope ledgerVersion).discounted txDiscount
  let effectiveTotal := queue.effectiveTotal exclusion
  let effectiveLane := queue.effectiveLaneCount exclusion lane
  let genericLimit := queue.laneConfig.limit genericLane
  let laneLimit := queue.laneConfig.limit lane
  if txResources.anyGreater genericLimit || txResources.anyGreater laneLimit then none
  else if !effectiveTotal.canAdd txResources || !effectiveLane.canAdd txResources then none
  else
    let newTotal := effectiveTotal + txResources
    let newLane := effectiveLane + txResources
    if newTotal.leq genericLimit && newLane.leq laneLimit then some []
    else
      let cursors :=
        (List.range queue.numLanes).map fun lane => (lane, queue.evictable exclusion lane)
      collectEvictions queue tx ledgerVersion (cursors.map (·.2.length)).sum
        (newTotal.subtractNonNegative genericLimit) (newLane.subtractNonNegative laneLimit)
        cursors false

def topEntry (queue : SurgePricingPriorityQueue d) : List Nat → Option (Nat × QueueEntry)
  | [] => none
  | lane :: active =>
    match (queue.lanes lane).getLast?, queue.topEntry active with
    | none, best => best
    | some entry, none => some (lane, entry)
    | some entry, some (best, bestEntry) =>
      if bestEntry.cmp entry = .gt then some (best, bestEntry) else some (lane, entry)

end SurgePricingPriorityQueue

/-- What the visitor of a flood round says about a transaction. -/
inductive VisitTxResult where
  | skipped
  | rejected
  | processed
deriving DecidableEq

namespace SurgePricingPriorityQueue

variable {d : Nat}

/-- `pop_top_txs` without gaps: visit the most expensive entries that fit into
the limits and erase what was visited. The result lists the visited entries and
whether an assertion failed on the way. -/
def popTopTxs (visitor : QueuedTransaction → VisitTxResult) (ledgerVersion : Nat) :
    Nat → SurgePricingPriorityQueue d → (Nat → Resource d) → List Nat →
      SurgePricingPriorityQueue d × List QueuedTransaction × Bool
  | 0, queue, _, _ => (queue, [], false)
  | fuel + 1, queue, left, active =>
    match queue.topEntry active with
    | none => (queue, [], false)
    | some (lane, entry) =>
      let resources := queue.txResources entry.tx.envelope ledgerVersion
      let exceedsLane := resources.anyGreater (left lane)
      let exceedsGeneric := resources.anyGreater (left genericLane)
      if exceedsLane || exceedsGeneric then
        if lane ≠ genericLane && exceedsLane then
          popTopTxs visitor ledgerVersion fuel queue left (active.erase lane)
        else (queue, [], false)
      else
        let left :=
          if visitor entry.tx = .processed then
            let left := Function.update left genericLane (left genericLane - resources)
            if lane ≠ genericLane then Function.update left lane (left lane - resources)
            else left
          else left
        let rest := popTopTxs visitor ledgerVersion fuel (queue.erase lane entry ledgerVersion)
          left active
        (rest.1, entry.tx :: rest.2.1, queue.erasePanics lane entry ledgerVersion || rest.2.2)

end SurgePricingPriorityQueue

end Henyey.TxQueue
