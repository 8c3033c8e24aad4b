import Henyey.TxQueue.EntryOrder
import Henyey.TxQueue.Queue
import Mathlib.Algebra.Order.Pi
import Mathlib.Tactic.FinCases

/-!
# What a priority queue holds

A queue holds a list of transactions when its lanes have their entries and its
counts their weight. Every queue operation is described by the list it leaves.
-/

namespace Henyey.TxQueue

open Function SurgePricingLaneConfig List

namespace SurgePricingLaneConfig

variable {d : Nat}

def laneWeight (laneConfig : SurgePricingLaneConfig d) (ledgerVersion : Nat)
    (txs : List QueuedTransaction) (lane : Nat) : Resource d :=
  ((txs.filter fun tx => laneConfig.getLane tx.envelope = lane).map fun tx =>
    laneConfig.txResources tx.envelope ledgerVersion).sum

/-- No transaction weighs less than nothing. -/
def NonNegative (laneConfig : SurgePricingLaneConfig d) : Prop :=
  ∀ env ledgerVersion, 0 ≤ laneConfig.txResources env ledgerVersion

variable {laneConfig : SurgePricingLaneConfig d} {ledgerVersion : Nat}

@[simp]
theorem laneWeight_nil (lane : Nat) : laneConfig.laneWeight ledgerVersion [] lane = 0 := rfl

theorem laneWeight_cons (tx : QueuedTransaction) (txs : List QueuedTransaction) (lane : Nat) :
    laneConfig.laneWeight ledgerVersion (tx :: txs) lane =
      (if laneConfig.getLane tx.envelope = lane then
        laneConfig.txResources tx.envelope ledgerVersion else 0) +
        laneConfig.laneWeight ledgerVersion txs lane := by
  unfold laneWeight
  by_cases hlane : laneConfig.getLane tx.envelope = lane <;> simp [hlane]

theorem laneWeight_perm {txs others : List QueuedTransaction} (hperm : txs.Perm others)
    (lane : Nat) :
    laneConfig.laneWeight ledgerVersion txs lane =
      laneConfig.laneWeight ledgerVersion others lane :=
  ((hperm.filter _).map _).sum_eq

theorem laneWeight_nonneg (hnonneg : laneConfig.NonNegative) (txs : List QueuedTransaction)
    (lane : Nat) : 0 ≤ laneConfig.laneWeight ledgerVersion txs lane := by
  apply sum_nonneg
  intro weight hweight
  obtain ⟨tx, -, rfl⟩ := mem_map.mp hweight
  exact hnonneg _ _

theorem NonNegative.dex {codec : Codec} {limit : Resource d} {dexLimit : Option (Resource d)} :
    (dexLimitingLaneConfig codec limit dexLimit).NonNegative := by
  intro env ledgerVersion i
  simp only [dexLimitingLaneConfig, classicResourcesFromEnvelope, Pi.zero_apply]
  split <;> exact Int.natCast_nonneg _

theorem NonNegative.ops {limit : Resource 1} : (opsOnlyLaneConfig limit).NonNegative :=
  fun _ _ _ => Int.natCast_nonneg _

theorem NonNegative.flood {hasDexLane : Bool} : (floodLaneConfig hasDexLane).NonNegative :=
  fun _ _ _ => le_max_of_le_right Int.one_nonneg

theorem sorobanDiskReadEntries_nonneg (resources : SorobanResources) (archived : Option (List Nat))
    (isRestore : Bool) (ledgerVersion : Nat) :
    0 ≤ sorobanDiskReadEntries resources archived isRestore ledgerVersion := by
  unfold sorobanDiskReadEntries
  split
  · exact Int.natCast_nonneg _
  · split <;> positivity

theorem NonNegative.soroban {codec : Codec} {limit : Resource 7} :
    (sorobanGenericLaneConfig codec limit).NonNegative := by
  intro env ledgerVersion i
  have hops : (0 : Int) ≤ if isFeeBumpEnvelope env then (envelopeOperationCount env : Int) else 1 := by
    split
    · exact Int.natCast_nonneg _
    · exact Int.one_nonneg
  fin_cases i
  · exact hops
  · exact Int.natCast_nonneg _
  · exact Int.natCast_nonneg _
  · exact Int.natCast_nonneg _
  · exact Int.natCast_nonneg _
  · exact sorobanDiskReadEntries_nonneg _ _ _ _
  · exact Int.natCast_nonneg _

end SurgePricingLaneConfig

/-- No two transactions have the same hash. -/
def DistinctHashes (txs : List QueuedTransaction) : Prop := (txs.map (·.hash)).Nodup

def without (hash : Hash256) (txs : List QueuedTransaction) : List QueuedTransaction :=
  txs.filter fun tx => tx.hash ≠ hash

variable {txs : List QueuedTransaction} {tx : QueuedTransaction}

theorem mem_without {hash : Hash256} : tx ∈ without hash txs ↔ tx ∈ txs ∧ tx.hash ≠ hash := by
  simp [without]

section

variable (hdistinct : DistinctHashes txs)
include hdistinct

theorem DistinctHashes.eq_of_hash {tx other : QueuedTransaction} (htx : tx ∈ txs)
    (hother : other ∈ txs) (hhash : tx.hash = other.hash) : tx = other :=
  inj_on_of_nodup_map hdistinct htx hother hhash

theorem DistinctHashes.without (hash : Hash256) : DistinctHashes (without hash txs) :=
  (filter_sublist.map _).nodup hdistinct

theorem DistinctHashes.cons (hnew : ∀ other ∈ txs, other.hash ≠ tx.hash) :
    DistinctHashes (tx :: txs) := by
  refine nodup_cons.mpr ⟨?_, hdistinct⟩
  intro hmem
  obtain ⟨other, hother, hhash⟩ := mem_map.mp hmem
  exact hnew other hother hhash

end

theorem without_eq_self {hash : Hash256}
    (hnew : ∀ other ∈ txs, other.hash ≠ hash) : without hash txs = txs :=
  filter_eq_self.mpr fun other hother => decide_eq_true (hnew other hother)

/-- Taking a queued transaction out and putting it back in front reorders the
transactions. -/
theorem perm_cons_without (hdistinct : DistinctHashes txs)
    (htx : tx ∈ txs) : txs.Perm (tx :: without tx.hash txs) := by
  induction txs with
  | nil => cases htx
  | cons head rest ih =>
    have hrest : DistinctHashes rest := (nodup_cons.mp hdistinct).2
    have hhead : ∀ other ∈ rest, other.hash ≠ head.hash := by
      intro other hother hhash
      apply (nodup_cons.mp hdistinct).1
      exact mem_map.mpr ⟨other, hother, hhash⟩
    cases htx with
    | head =>
      have hself : without tx.hash (tx :: rest) = rest := by
        rw [without, filter_cons_of_neg (by simp)]
        exact without_eq_self hhead
      rw [hself]
    | tail _ htail =>
      have hne : head.hash ≠ tx.hash := (hhead tx htail).symm
      have hkeep : without tx.hash (head :: rest) = head :: without tx.hash rest := by
        rw [without, filter_cons_of_pos (by simpa using hne)]
        rfl
      rw [hkeep]
      exact ((ih hrest htail).cons head).trans (List.Perm.swap tx head _)

namespace SurgePricingPriorityQueue

variable {d : Nat}

/-- The queue holds these transactions: the entry of each in its lane, and the
weight of each lane. -/
structure Holds (queue : SurgePricingPriorityQueue d) (laneConfig : SurgePricingLaneConfig d)
    (seed ledgerVersion : Nat) (txs : List QueuedTransaction) : Prop where
  config_eq : queue.laneConfig = laneConfig
  seed_eq : queue.seed = seed
  mem_lane : ∀ lane entry, entry ∈ queue.lanes lane ↔
    ∃ tx ∈ txs, laneConfig.getLane tx.envelope = lane ∧ entry = .new tx seed
  count_eq : ∀ lane, queue.laneCurrentCount lane = laneConfig.laneWeight ledgerVersion txs lane
  sorted : ∀ lane, (queue.lanes lane).Pairwise fun a b => a.cmp b = .lt
  rated : ∀ tx ∈ txs, 0 < tx.feeRate.opCount

variable {queue : SurgePricingPriorityQueue d} {laneConfig : SurgePricingLaneConfig d}
  {seed ledgerVersion : Nat} {txs : List QueuedTransaction} {tx : QueuedTransaction}

theorem holds_new (laneConfig : SurgePricingLaneConfig d) (seed ledgerVersion : Nat) :
    (new laneConfig seed).Holds laneConfig seed ledgerVersion [] where
  config_eq := rfl
  seed_eq := rfl
  mem_lane := by simp [new]
  count_eq _ := rfl
  sorted _ := .nil
  rated := by simp

section

variable (hholds : queue.Holds laneConfig seed ledgerVersion txs)
include hholds

theorem Holds.perm {others : List QueuedTransaction} (hperm : txs.Perm others) :
    queue.Holds laneConfig seed ledgerVersion others where
  __ := hholds
  mem_lane lane entry := by simp only [hholds.mem_lane, hperm.mem_iff]
  count_eq lane := (hholds.count_eq lane).trans (laneWeight_perm hperm lane)
  rated tx htx := hholds.rated tx (hperm.mem_iff.mpr htx)

/-- An equal entry in a lane is the entry of a held transaction with the same
hash. -/
theorem Holds.hash_of_cmp {lane : Nat} {stored : QueueEntry} (hstored : stored ∈ queue.lanes lane)
    (hcmp : stored.cmp (.new tx seed) = .eq) :
    ∃ other ∈ txs, other.hash = tx.hash ∧ laneConfig.getLane other.envelope = lane ∧
      stored = .new other seed := by
  obtain ⟨other, hother, hlane, rfl⟩ := (hholds.mem_lane lane stored).mp hstored
  exact ⟨other, hother, QueueEntry.hash_eq_of_cmp hcmp, hlane, rfl⟩

theorem Holds.add (hnew : ∀ other ∈ txs, other.hash ≠ tx.hash) (hrated : 0 < tx.feeRate.opCount) :
    (queue.add tx ledgerVersion).Holds laneConfig seed ledgerVersion (tx :: txs) := by
  have hunequal : ∀ lane, ∀ stored ∈ queue.lanes lane, stored.cmp (.new tx seed) ≠ .eq := by
    intro lane stored hstored hcmp
    obtain ⟨other, hother, hhash, -⟩ := hholds.hash_of_cmp hstored hcmp
    exact hnew other hother hhash
  obtain ⟨hconfig, hseed, hmem, hcount, hsorted, hratedAll⟩ := hholds
  have hadd : queue.add tx ledgerVersion =
      { queue with
        lanes := update queue.lanes (laneConfig.getLane tx.envelope)
          (insertEntry (.new tx seed) (queue.lanes (laneConfig.getLane tx.envelope)))
        laneCurrentCount := update queue.laneCurrentCount (laneConfig.getLane tx.envelope)
          (queue.laneCurrentCount (laneConfig.getLane tx.envelope) +
            laneConfig.txResources tx.envelope ledgerVersion) } := by
    subst hconfig hseed
    unfold SurgePricingPriorityQueue.add
    rw [if_neg]
    · rfl
    · intro hany
      obtain ⟨stored, hstored, hcmp⟩ := any_eq_true.mp hany
      exact hunequal _ stored hstored (of_decide_eq_true hcmp)
  rw [hadd]
  refine ⟨hconfig, hseed, fun lane entry => ?_, fun lane => ?_, fun lane => ?_, ?_⟩
  · by_cases hlane : lane = laneConfig.getLane tx.envelope
    · subst hlane
      simp [insertEntry, mem_orderedInsert, hmem]
    · simp [update_of_ne hlane, hmem, Ne.symm hlane]
  · rw [laneWeight_cons, ← hcount]
    by_cases hlane : lane = laneConfig.getLane tx.envelope
    · subst hlane
      simp [add_comm]
    · simp [update_of_ne hlane, Ne.symm hlane]
  · by_cases hlane : lane = laneConfig.getLane tx.envelope
    · subst hlane
      simp only [update_self]
      refine insertEntry_sorted hrated (fun other hother => ?_) (hunequal _) (hsorted _)
      obtain ⟨held, hheld, -, rfl⟩ := (hmem _ _).mp hother
      exact hratedAll held hheld
    · simpa only [update_of_ne hlane] using hsorted lane
  · exact forall_mem_cons.mpr ⟨hrated, hratedAll⟩

/-- Adding a held transaction again changes nothing. -/
theorem Holds.add_of_mem (htx : tx ∈ txs) : queue.add tx ledgerVersion = queue := by
  obtain ⟨rfl, rfl, hmem, -, -, -⟩ := hholds
  unfold SurgePricingPriorityQueue.add
  rw [if_pos]
  apply any_eq_true.mpr
  exact ⟨.new tx queue.seed, (hmem _ _).mpr ⟨tx, htx, rfl, rfl⟩, by simp⟩

theorem Holds.stored_of_mem (hdistinct : DistinctHashes txs) (htx : tx ∈ txs) :
    queue.stored (laneConfig.getLane tx.envelope) (.new tx seed) = some (.new tx seed) := by
  have hentry := (hholds.mem_lane _ _).mpr ⟨tx, htx, rfl, rfl⟩
  unfold stored
  cases hfind : (queue.lanes (laneConfig.getLane tx.envelope)).find? fun other =>
      other.cmp (.new tx seed) = .eq with
  | none =>
    have hnone := find?_eq_none.mp hfind _ hentry
    simp at hnone
  | some stored =>
    have hequal := find?_some hfind
    obtain ⟨other, hother, hhash, -, rfl⟩ := hholds.hash_of_cmp (mem_of_find?_eq_some hfind)
      (of_decide_eq_true hequal)
    rw [hdistinct.eq_of_hash hother htx hhash]

section

variable (hnew : ∀ other ∈ txs, other.hash ≠ tx.hash)
include hnew

theorem Holds.stored_of_not_mem (lane : Nat) : queue.stored lane (.new tx seed) = none := by
  apply find?_eq_none.mpr
  intro stored hstored hcmp
  obtain ⟨other, hother, hhash, -⟩ := hholds.hash_of_cmp hstored (of_decide_eq_true hcmp)
  exact hnew other hother hhash

theorem Holds.erase_of_not_mem (lane : Nat) :
    queue.erase lane (.new tx seed) ledgerVersion = queue ∧
      queue.erasePanics lane (.new tx seed) ledgerVersion = false := by
  unfold SurgePricingPriorityQueue.erase erasePanics
  rw [hholds.stored_of_not_mem hnew]
  exact ⟨rfl, rfl⟩

end

theorem Holds.erase (hdistinct : DistinctHashes txs) (htx : tx ∈ txs) :
    (queue.erase (laneConfig.getLane tx.envelope) (.new tx seed) ledgerVersion).Holds
      laneConfig seed ledgerVersion (without tx.hash txs) := by
  have hstored := hholds.stored_of_mem hdistinct htx
  have hperm := perm_cons_without hdistinct htx
  unfold SurgePricingPriorityQueue.erase
  rw [hstored]
  obtain ⟨rfl, rfl, hmem, hcount, hsorted, hrated⟩ := hholds
  refine ⟨rfl, rfl, fun lane entry => ?_, fun lane => ?_, fun lane => ?_,
    fun other hother => hrated other (mem_without.mp hother).1⟩
  · by_cases hlane : lane = queue.laneConfig.getLane tx.envelope
    · subst hlane
      simp only [update_self, mem_filter, hmem, mem_without]
      constructor
      · rintro ⟨⟨other, hother, hlane, rfl⟩, hcmp⟩
        refine ⟨other, ⟨hother, fun hhash => ?_⟩, hlane, rfl⟩
        rw [hdistinct.eq_of_hash hother htx hhash] at hcmp
        simp at hcmp
      · rintro ⟨other, ⟨hother, hne⟩, hlane, rfl⟩
        refine ⟨⟨other, hother, hlane, rfl⟩, decide_eq_true fun hcmp => ?_⟩
        exact hne (QueueEntry.hash_eq_of_cmp hcmp)
    · simp only [update_of_ne hlane, hmem, mem_without]
      constructor
      · rintro ⟨other, hother, rfl, rfl⟩
        refine ⟨other, ⟨hother, fun hhash => ?_⟩, rfl, rfl⟩
        exact hlane (by rw [hdistinct.eq_of_hash hother htx hhash])
      · rintro ⟨other, ⟨hother, -⟩, rfl, rfl⟩
        exact ⟨other, hother, rfl, rfl⟩
  · have hweight := hcount lane
    rw [laneWeight_perm hperm, laneWeight_cons] at hweight
    by_cases hlane : lane = queue.laneConfig.getLane tx.envelope
    · subst hlane
      rw [if_pos rfl] at hweight
      simp only [update_self, hweight, QueueEntry.new_tx]
      exact add_sub_cancel_left _ _
    · rw [if_neg (Ne.symm hlane), zero_add] at hweight
      simpa only [update_of_ne hlane] using hweight
  · by_cases hlane : lane = queue.laneConfig.getLane tx.envelope
    · subst hlane
      simpa only [update_self] using (hsorted _).filter _
    · simpa only [update_of_ne hlane] using hsorted lane

theorem Holds.erasePanics_of_mem (hnonneg : laneConfig.NonNegative) (hdistinct : DistinctHashes txs)
    (htx : tx ∈ txs) :
    queue.erasePanics (laneConfig.getLane tx.envelope) (.new tx seed) ledgerVersion = false := by
  unfold erasePanics
  rw [hholds.stored_of_mem hdistinct htx]
  obtain ⟨rfl, rfl, -, hcount, -, -⟩ := hholds
  simp only [Bool.not_eq_false', Resource.leq_iff, QueueEntry.new_tx]
  intro i
  rw [hcount, laneWeight_perm (perm_cons_without hdistinct htx), laneWeight_cons, if_pos rfl]
  exact le_add_of_nonneg_right (laneWeight_nonneg hnonneg _ _ i)

theorem holds_foldl_add (others : List QueuedTransaction)
    (hdistinct : DistinctHashes (others ++ txs)) (hrated : ∀ tx ∈ others, 0 < tx.feeRate.opCount) :
    (others.foldl (fun queue tx => queue.add tx ledgerVersion) queue).Holds laneConfig seed
      ledgerVersion (others ++ txs) := by
  induction others generalizing queue txs with
  | nil => exact hholds
  | cons head rest ih =>
    have hperm : (head :: rest ++ txs).Perm (rest ++ head :: txs) := perm_middle.symm
    have hdistinct' : DistinctHashes (rest ++ head :: txs) :=
      (hperm.map _).nodup_iff.mp hdistinct
    have hnew : ∀ other ∈ txs, other.hash ≠ head.hash := by
      intro other hother hhash
      apply (nodup_cons.mp hdistinct).1
      exact mem_map.mpr ⟨other, mem_append_right rest hother, hhash⟩
    obtain ⟨hhead, hrest⟩ := forall_mem_cons.mp hrated
    exact (ih (hholds.add hnew hhead) hdistinct' hrest).perm hperm.symm

end

theorem holds_build (laneConfig : SurgePricingLaneConfig d) (seed ledgerVersion : Nat)
    {txs : List QueuedTransaction} (hdistinct : DistinctHashes txs)
    (hrated : ∀ tx ∈ txs, 0 < tx.feeRate.opCount) :
    (QueueStore.build laneConfig seed ledgerVersion txs).Holds laneConfig seed ledgerVersion
      txs := by
  have hbuilt := holds_foldl_add (holds_new laneConfig seed ledgerVersion) txs
    (by rwa [append_nil]) hrated
  rwa [append_nil] at hbuilt

/-- What a queue holds, under which configuration and seed, is all there is to
it. -/
theorem Holds.ext {other : SurgePricingPriorityQueue d}
    (hholds : queue.Holds laneConfig seed ledgerVersion txs)
    (hother : other.Holds laneConfig seed ledgerVersion txs) : queue = other := by
  have hlanes : queue.lanes = other.lanes := by
    funext lane
    apply lane_ext (hholds.sorted lane) (hother.sorted lane)
    intro entry
    rw [hholds.mem_lane, hother.mem_lane]
  have hcounts : queue.laneCurrentCount = other.laneCurrentCount := by
    funext lane
    rw [hholds.count_eq, hother.count_eq]
  cases queue
  cases other
  obtain ⟨rfl, rfl, -, -, -, -⟩ := hholds
  obtain ⟨rfl, rfl, -, -, -, -⟩ := hother
  cases hlanes
  cases hcounts
  rfl

end SurgePricingPriorityQueue

end Henyey.TxQueue
