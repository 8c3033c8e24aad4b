import Henyey.TxSet.Attempts
import Henyey.TxSet.Ranking

/-!
# The groups of an attempt

The bins of a stage as lists of ids, and what one attempt returns: disjoint groups,
conflicting transactions of a stage in one group, and limits on the number of groups
and on the instructions of the largest group of each stage.
-/

namespace Henyey.TxSet

open Henyey.TxQueue List Stage

/-- The instructions of the largest cluster of a stage. -/
def longest {α : Type} (weight : α → Nat) (stage : List (List α)) : Nat :=
  (stage.map fun cluster => (cluster.map weight).sum).foldr max 0

theorem longest_le {α : Type} {weight : α → Nat} {stage : List (List α)} {limit : Nat}
    (hlimit : ∀ cluster ∈ stage, (cluster.map weight).sum ≤ limit) :
    longest weight stage ≤ limit := by
  induction stage with
  | nil => exact Nat.zero_le limit
  | cons cluster rest ih =>
    exact max_le (hlimit cluster mem_cons_self)
      (ih fun other hother => hlimit other (mem_cons_of_mem _ hother))

namespace Stage

variable {config : ParallelPartitionConfig} {weight : Nat → Nat} {conflicts : Nat → BitSet}
  {stage : Stage config}

theorem mem_groups {group : List Nat} :
    group ∈ stage.groups ↔ group ≠ [] ∧ ∃ bin, (stage.bins.packing bin).sort = group := by
  simp only [groups, List.mem_filter, List.mem_map, List.mem_finRange, true_and,
    decide_eq_true_eq, List.isEmpty_iff]
  exact and_comm

theorem mem_flatten_groups {id : Nat} : id ∈ stage.groups.flatten ↔ stage.Holds id := by
  rw [mem_flatten]
  constructor
  · rintro ⟨group, hgroup, hid⟩
    obtain ⟨-, bin, rfl⟩ := mem_groups.mp hgroup
    exact ⟨bin, (Finset.mem_sort _).mp hid⟩
  · rintro ⟨bin, hid⟩
    have hmem := (Finset.mem_sort (· ≤ ·)).mpr hid
    exact ⟨_, mem_groups.mpr ⟨ne_nil_of_mem hmem, bin, rfl⟩, hmem⟩

theorem length_groups_le (stage : Stage config) :
    stage.groups.length ≤ config.clustersPerStage := by
  unfold groups
  apply (length_filter_le _ _).trans
  rw [length_map, length_finRange]

theorem Sound.nodup_groups (hsound : stage.Sound weight conflicts) :
    stage.groups.flatten.Nodup := by
  refine nodup_flatten.mpr ⟨?_, ?_⟩
  · intro group hgroup
    obtain ⟨-, bin, rfl⟩ := mem_groups.mp hgroup
    exact Finset.sort_nodup _ _
  · refine List.Pairwise.filter _ (pairwise_map.mpr ?_)
    refine (nodup_finRange _).imp fun {bin other} hne => ?_
    refine disjoint_left.mpr fun id hid hin => ?_
    exact Finset.disjoint_left.mp (hsound.assigned.packs.apart bin other hne)
      ((Finset.mem_sort _).mp hid) ((Finset.mem_sort _).mp hin)

theorem sum_sort (weight : Nat → Nat) (ids : BitSet) :
    (ids.sort.map weight).sum = ∑ id ∈ ids, weight id := by
  rw [Finset.sum_eq_multiset_sum, ← Finset.sort_eq ids (· ≤ ·), Multiset.map_coe, Multiset.sum_coe]

theorem Sound.longest_groups (hsound : stage.Sound weight conflicts) :
    longest weight stage.groups ≤ config.instructionsPerCluster := by
  refine longest_le fun group hgroup => ?_
  obtain ⟨-, bin, rfl⟩ := mem_groups.mp hgroup
  rw [sum_sort, ← hsound.assigned.packs.load_eq]
  exact hsound.assigned.within bin

theorem Sound.together (hsound : stage.Sound weight conflicts) (hsymm : SymmetricMarks conflicts)
    {i j : Nat} (hi : stage.Holds i) (hj : stage.Holds j) (hmark : j ∈ conflicts i) :
    ∃ group ∈ stage.groups, i ∈ group ∧ j ∈ group := by
  obtain ⟨a, ha, hia⟩ := hsound.holds_iff.mp hi
  obtain ⟨b, hb, hjb⟩ := hsound.holds_iff.mp hj
  have hsame : a = b := by
    by_contra hne
    have : Std.Symm (Separate conflicts) := ⟨fun _ _ h => hsymm.separate h⟩
    exact hsound.partitioned.separate.forall ha hb hne i hia j hjb hmark
  subst hsame
  obtain ⟨bin, hbin⟩ := hsound.assigned.placed a ha
  have hmem := (Finset.mem_sort (· ≤ ·)).mpr (hbin hia)
  exact ⟨_, mem_groups.mpr ⟨ne_nil_of_mem hmem, bin, rfl⟩, hmem,
    (Finset.mem_sort (· ≤ ·)).mpr (hbin hjb)⟩

end Stage

/-- The non-empty stages of an attempt. -/
def groupsOf {config : ParallelPartitionConfig} (stages : List (Stage config)) :
    List (List (List Nat)) :=
  (stages.map groups).filter fun stage => ¬ stage.isEmpty

section

variable {config : ParallelPartitionConfig} {txs : List HashedTx} {stages : List (Stage config)}

theorem mem_groupsOf {groups : List (List Nat)} :
    groups ∈ groupsOf stages ↔ groups ≠ [] ∧ ∃ stage ∈ stages, stage.groups = groups := by
  simp only [groupsOf, List.mem_filter, List.mem_map, decide_eq_true_eq, List.isEmpty_iff]
  exact and_comm

theorem flatten_groupsOf (stages : List (Stage config)) :
    (groupsOf stages).flatten = (stages.map groups).flatten := by
  induction stages with
  | nil => rfl
  | cons stage rest ih =>
    rw [groupsOf, map_cons, filter_cons, flatten_cons]
    rw [groupsOf] at ih
    split
    · rw [flatten_cons, ih]
    next hempty =>
      have hnil : stage.groups = [] := by simpa using hempty
      rw [ih, hnil, nil_append]

theorem mem_flatten_groupsOf {id : Nat} :
    id ∈ (groupsOf stages).flatten.flatten ↔ Retained stages id := by
  rw [flatten_groupsOf, Retained]
  constructor
  · intro hid
    obtain ⟨group, hgroup, hin⟩ := mem_flatten.mp hid
    obtain ⟨groups, hgroups, hmem⟩ := mem_flatten.mp hgroup
    obtain ⟨stage, hstage, rfl⟩ := List.mem_map.mp hgroups
    exact ⟨stage, hstage, mem_flatten_groups.mp (mem_flatten.mpr ⟨group, hmem, hin⟩)⟩
  · rintro ⟨stage, hstage, hid⟩
    obtain ⟨group, hgroup, hin⟩ := mem_flatten.mp (mem_flatten_groups.mpr hid)
    exact mem_flatten.mpr ⟨group, mem_flatten.mpr
      ⟨stage.groups, mem_map_of_mem hstage, hgroup⟩, hin⟩

theorem Staged.nodup_groupsOf (hstaged : Staged txs stages) :
    (groupsOf stages).flatten.flatten.Nodup := by
  rw [flatten_groupsOf]
  obtain ⟨hsound, hapart⟩ := hstaged
  induction stages with
  | nil => exact nodup_nil
  | cons stage rest ih =>
    obtain ⟨hfirst, hothers⟩ := pairwise_cons.mp hapart
    rw [map_cons, flatten_cons, flatten_append]
    refine nodup_append.mpr ⟨(hsound stage mem_cons_self).nodup_groups,
      ih (fun other hother => hsound other (mem_cons_of_mem _ hother)) hothers, ?_⟩
    intro id hid other hother heq
    subst heq
    rw [← flatten_groupsOf] at hother
    obtain ⟨later, hlater, hheld⟩ := mem_flatten_groupsOf.mp hother
    exact hfirst later hlater id (mem_flatten_groups.mp hid) hheld

theorem Staged.longest_sum_le (hstaged : Staged txs stages) :
    ((groupsOf stages).map (longest (weightOf txs))).sum ≤
      stages.length * config.instructionsPerCluster := by
  obtain ⟨hsound, -⟩ := hstaged
  induction stages with
  | nil => exact Nat.zero_le _
  | cons stage rest ih =>
    have hrest := ih fun other hother => hsound other (mem_cons_of_mem _ hother)
    have hhead := (hsound stage mem_cons_self).longest_groups
    rw [length_cons, Nat.add_one_mul]
    rw [groupsOf] at hrest ⊢
    rw [map_cons, filter_cons]
    split
    · rw [map_cons, sum_cons]
      omega
    · omega

end

/-- When its turn came, every stage of the attempt refused the transaction. -/
def RefusedInTurn (txs : List HashedTx) (ledgerMaxInstructions : Int)
    (ledgerMaxDependentTxClusters stageCount id : Nat) : Prop :=
  ∃ config earlier later met paid tx,
    ParallelPartitionConfig.new stageCount ledgerMaxInstructions ledgerMaxDependentTxClusters =
        some config ∧
      sortedIds txs = some (earlier ++ id :: later) ∧
      earlier.foldlM (assign txs) (replicate stageCount (new config), 0) = some (met, paid) ∧
      txs[id]? = some tx ∧ RefusedBy met (builderTx txs tx id)

/-- What an attempt with a stage count returns. -/
structure Attempt (txs : List HashedTx) (ledgerMaxInstructions : Int)
    (ledgerMaxDependentTxClusters stageCount : Nat) (groups : List (List (List Nat)))
    (fee : Int) : Prop where
  run : buildWithStageCount txs ledgerMaxInstructions ledgerMaxDependentTxClusters stageCount =
    some (groups, fee)
  nodup : groups.flatten.flatten.Nodup
  bounded : ∀ id ∈ groups.flatten.flatten, id < txs.length
  width : ∀ stage ∈ groups, stage.length ≤ ledgerMaxDependentTxClusters
  together : ∀ stage ∈ groups, ∀ i ∈ stage.flatten, ∀ j ∈ stage.flatten,
    j ∈ detectConflicts txs i → ∃ group ∈ stage, i ∈ group ∧ j ∈ group
  sequential : ((groups.map (longest (weightOf txs))).sum : Int) ≤ ledgerMaxInstructions
  fee_eq : fee = saturate (groups.flatten.flatten.map (feeOf txs)).sum
  refused : ∀ id < txs.length, id ∉ groups.flatten.flatten →
    RefusedInTurn txs ledgerMaxInstructions ledgerMaxDependentTxClusters stageCount id

section

variable {txs : List HashedTx} {ledgerMaxInstructions : Int}
  {ledgerMaxDependentTxClusters stageCount : Nat}

theorem not_retained_new (config : ParallelPartitionConfig) (stageCount id : Nat) :
    ¬ Retained (replicate stageCount (new config)) id := by
  rintro ⟨stage, hstage, bin, hid⟩
  obtain rfl := eq_of_mem_replicate hstage
  exact absurd hid (Finset.notMem_empty id)

theorem staged_new (txs : List HashedTx) (config : ParallelPartitionConfig) (stageCount : Nat) :
    Staged txs (replicate stageCount (new config)) where
  sound := by
    intro stage hstage
    obtain rfl := eq_of_mem_replicate hstage
    exact sound_new config _ _
  apart := by
    refine pairwise_replicate.mpr (.inr fun id hid => ?_)
    obtain ⟨bin, hmem⟩ := hid
    exact absurd hmem (Finset.notMem_empty id)

theorem exists_attempt (hmax : 0 ≤ ledgerMaxInstructions)
    (hclusters : 0 < ledgerMaxDependentTxClusters) (hfits : 0 < stageCount →
      ledgerMaxInstructions.toNat / stageCount * ledgerMaxDependentTxClusters < 2 ^ 64)
    (hfees : ∀ tx ∈ txs, 0 ≤ tx.inclusionFee) :
    ∃ groups fee, Attempt txs ledgerMaxInstructions ledgerMaxDependentTxClusters stageCount
      groups fee := by
  let limit := if 0 < stageCount then ledgerMaxInstructions.toNat / stageCount
    else ledgerMaxInstructions.toNat
  let config : ParallelPartitionConfig := {
    clustersPerStage := ledgerMaxDependentTxClusters
    instructionsPerCluster := limit }
  have hconfig : ParallelPartitionConfig.new stageCount ledgerMaxInstructions
      ledgerMaxDependentTxClusters = some config := if_pos hmax
  have hids := sortedIds_eq hfees
  have hstart : replicate stageCount (new config) ≠ [] → config.Fits := by
    intro hne
    have hpos : 0 < stageCount := Nat.pos_of_ne_zero fun hzero => hne (by rw [hzero]; rfl)
    refine ⟨hclusters, ?_⟩
    simpa only [config, limit, if_pos hpos] using hfits hpos
  obtain ⟨stages, fee, accepted, hreached⟩ := exists_reached (staged_new txs config stageCount)
    (not_retained_new config stageCount) hstart hfees (nodup_rankedIds txs)
    fun id hid => mem_rankedIds.mp hid
  have hmem : ∀ id, id ∈ (groupsOf stages).flatten.flatten ↔ id ∈ accepted :=
    fun id => mem_flatten_groupsOf.trans (hreached.retained id)
  have hnodup := hreached.staged.nodup_groupsOf
  have hperm : (groupsOf stages).flatten.flatten.Perm accepted :=
    (perm_ext_iff_of_nodup hnodup (hreached.sublist.nodup (nodup_rankedIds txs))).mpr hmem
  refine ⟨groupsOf stages, fee, ?_, hnodup, ?_, ?_, ?_, ?_, ?_, ?_⟩
  · rw [buildWithStageCount, hconfig, hids]
    simp [hreached.run, groupsOf]
  · intro id hid
    exact mem_rankedIds.mp (hreached.sublist.subset ((hmem id).mp hid))
  · intro groups hgroups
    obtain ⟨-, stage, -, rfl⟩ := mem_groupsOf.mp hgroups
    exact stage.length_groups_le
  · intro groups hgroups i hi j hj hmark
    obtain ⟨-, stage, hstage, rfl⟩ := mem_groupsOf.mp hgroups
    exact (hreached.staged.sound stage hstage).together (symmetricMarks_detectConflicts txs)
      (mem_flatten_groups.mp hi) (mem_flatten_groups.mp hj) hmark
  · have hsum := hreached.staged.longest_sum_le
    rw [hreached.length_eq, length_replicate] at hsum
    have hshare : stageCount * limit ≤ ledgerMaxInstructions.toNat := by
      rcases Nat.eq_zero_or_pos stageCount with hzero | hpos
      · simp [hzero]
      · simp only [limit, if_pos hpos]
        exact Nat.mul_div_le _ _
    have hlimit : config.instructionsPerCluster = limit := rfl
    rw [hlimit] at hsum
    omega
  · rw [hreached.fee_eq, (hperm.map _).sum_eq]
  · intro id hid hnot
    obtain ⟨earlier, later, met, paid, tx, hsplit, hmet, htx, hrefused⟩ :=
      hreached.refused id (mem_rankedIds.mpr hid) fun hin => hnot ((hmem id).mpr hin)
    exact ⟨config, earlier, later, met, paid, tx, hconfig, by rw [hids, hsplit], hmet, htx, hrefused⟩

end

end Henyey.TxSet
