import Henyey.TxSet.BinPacking

/-!
# One stage

What a stage holds: disjoint clusters with no conflict between two of them, packed
into its bins. Offering a transaction keeps it so, does not panic, and changes the
transactions of the stage by at most the one offered.
-/

namespace Henyey.TxSet

open Foundation List

def Separate (conflicts : Nat → BitSet) (a b : Cluster) : Prop :=
  ∀ i ∈ a.txIds, ∀ j ∈ b.txIds, j ∉ conflicts i

/-- The marks are those of a symmetric relation. -/
def SymmetricMarks (conflicts : Nat → BitSet) : Prop :=
  ∀ a b, b ∈ conflicts a ↔ a ∈ conflicts b

theorem SymmetricMarks.separate {conflicts : Nat → BitSet} (hsymm : SymmetricMarks conflicts)
    {a b : Cluster} (hseparate : Separate conflicts a b) : Separate conflicts b a :=
  fun i hi j hj hmark => hseparate j hj i hi ((hsymm i j).mp hmark)

def instructionsOf (clusters : List Cluster) : Nat := (clusters.map (·.instructions)).sum

/-- The clusters of a stage: sound, disjoint and without conflicts among them. -/
structure Partitioned (weight : Nat → Nat) (conflicts : Nat → BitSet) (clusters : List Cluster) :
    Prop where
  sound : ∀ cluster ∈ clusters, cluster.Sound weight conflicts
  apart : Apart clusters
  separate : clusters.Pairwise (Separate conflicts)

namespace Cluster

variable {weight : Nat → Nat} {conflicts : Nat → BitSet}

theorem sound_fromTx {tx : BuilderTx} (hweight : tx.instructions = weight tx.id)
    (hconflicts : tx.conflicts = conflicts tx.id) : (fromTx tx).Sound weight conflicts where
  instructions_eq := by simpa [fromTx] using hweight
  conflicts_eq := by simpa [fromTx] using hconflicts
  nonempty := Finset.singleton_nonempty _

theorem Sound.merge {a b : Cluster} (ha : a.Sound weight conflicts) (hb : b.Sound weight conflicts)
    (hdisjoint : Disjoint a.txIds b.txIds) (hbound : a.instructions + b.instructions < 2 ^ 64) :
    ∃ merged, a.merge b = some merged ∧ merged.Sound weight conflicts ∧
      merged.instructions = a.instructions + b.instructions ∧
      merged.txIds = a.txIds ∪ b.txIds := by
  refine ⟨{
    instructions := a.instructions + b.instructions
    conflicts := a.conflicts ∪ b.conflicts
    txIds := a.txIds ∪ b.txIds }, ?_, ⟨?_, ?_, ?_⟩, rfl, rfl⟩
  · rw [Cluster.merge, checkedAdd_of_lt hbound]
    rfl
  · rw [Finset.sum_union hdisjoint, ← ha.instructions_eq, ← hb.instructions_eq]
  · rw [Finset.union_biUnion, ← ha.conflicts_eq, ← hb.conflicts_eq]
  · exact ha.nonempty.mono Finset.subset_union_left

theorem Sound.foldlM_merge {start : Cluster} {clusters : List Cluster}
    (hstart : start.Sound weight conflicts)
    (hclusters : ∀ cluster ∈ clusters, cluster.Sound weight conflicts)
    (hapart : Apart (start :: clusters))
    (hbound : start.instructions + instructionsOf clusters < 2 ^ 64) :
    ∃ merged, clusters.foldlM Cluster.merge start = some merged ∧
      merged.Sound weight conflicts ∧
      merged.instructions = start.instructions + instructionsOf clusters ∧
      ∀ id, id ∈ merged.txIds ↔ id ∈ start.txIds ∨ ∃ cluster ∈ clusters, id ∈ cluster.txIds := by
  induction clusters generalizing start with
  | nil =>
    refine ⟨start, rfl, hstart, rfl, ?_⟩
    intro id
    simp
  | cons cluster rest ih =>
    have hsum : instructionsOf (cluster :: rest) = cluster.instructions + instructionsOf rest := by
      simp [instructionsOf]
    obtain ⟨hhead, htail⟩ := pairwise_cons.mp hapart
    obtain ⟨hcluster, hrest⟩ := pairwise_cons.mp htail
    obtain ⟨next, hnext, hsound, hinstructions, hids⟩ :=
      hstart.merge (hclusters cluster mem_cons_self) (hhead cluster mem_cons_self)
        (by omega)
    have hfurther : Apart (next :: rest) := by
      refine pairwise_cons.mpr ⟨?_, hrest⟩
      intro other hother
      rw [hids]
      exact Finset.disjoint_union_left.mpr
        ⟨hhead other (mem_cons_of_mem _ hother), hcluster other hother⟩
    obtain ⟨merged, hmerged, hfinal, htotal, hmem⟩ :=
      ih hsound (fun other hother => hclusters other (mem_cons_of_mem _ hother)) hfurther
        (by omega)
    refine ⟨merged, ?_, hfinal, by omega, ?_⟩
    · rw [foldlM_cons, hnext]
      exact hmerged
    · intro id
      rw [hmem, hids, Finset.mem_union, exists_mem_cons_iff]
      exact or_assoc

end Cluster

namespace Stage

variable {config : ParallelPartitionConfig} {weight : Nat → Nat} {conflicts : Nat → BitSet}
  {stage : Stage config} {tx : BuilderTx}

structure Sound (weight : Nat → Nat) (conflicts : Nat → BitSet) (stage : Stage config) : Prop where
  partitioned : Partitioned weight conflicts stage.clusters
  assigned : stage.bins.Assigned weight config.instructionsPerCluster stage.clusters
  total : stage.totalInstructions = instructionsOf stage.clusters

/-- The transaction is in some bin of the stage. -/
def Holds (stage : Stage config) (id : Nat) : Prop := ∃ bin, id ∈ stage.bins.packing bin

theorem Sound.holds_iff (hsound : stage.Sound weight conflicts) {id : Nat} :
    stage.Holds id ↔ ∃ cluster ∈ stage.clusters, id ∈ cluster.txIds := by
  constructor
  · rintro ⟨bin, hid⟩
    exact hsound.assigned.covered bin id hid
  · rintro ⟨cluster, hcluster, hid⟩
    obtain ⟨bin, hbin⟩ := hsound.assigned.placed cluster hcluster
    exact ⟨bin, hbin hid⟩

theorem sound_new (config : ParallelPartitionConfig) (weight : Nat → Nat)
    (conflicts : Nat → BitSet) : (Stage.new config).Sound weight conflicts where
  partitioned := by
    refine ⟨?_, List.Pairwise.nil, List.Pairwise.nil⟩
    intro cluster hcluster
    cases hcluster
  assigned := Bins.assigned_new weight _
  total := rfl

/-- The clusters that do not conflict with the transaction. -/
def others (stage : Stage config) (tx : BuilderTx) : List Cluster :=
  stage.clusters.filter fun cluster => tx.id ∉ cluster.conflicts

theorem conflicting_append_others (stage : Stage config) (tx : BuilderTx) :
    (stage.conflicting tx ++ stage.others tx).Perm stage.clusters := by
  have hsplit := filter_append_perm (fun cluster => decide (tx.id ∈ cluster.conflicts))
    stage.clusters
  simpa only [conflicting, others, decide_not] using hsplit

/-- What the merged cluster and the others are. -/
structure Grown (weight : Nat → Nat) (conflicts : Nat → BitSet) (stage : Stage config)
    (tx : BuilderTx) (merged : Cluster) : Prop where
  partitioned : Partitioned weight conflicts (stage.others tx ++ [merged])
  total : instructionsOf (stage.others tx ++ [merged]) =
    instructionsOf stage.clusters + tx.instructions
  mem_iff : ∀ id, id ∈ merged.txIds ↔
    id = tx.id ∨ ∃ cluster ∈ stage.conflicting tx, id ∈ cluster.txIds

variable {cluster : Cluster}

theorem Sound.apart_tx (hsound : stage.Sound weight conflicts) (hnew : ¬ stage.Holds tx.id)
    (hcluster : cluster ∈ stage.clusters) : tx.id ∉ cluster.txIds :=
  fun hid => hnew (hsound.holds_iff.mpr ⟨cluster, hcluster, hid⟩)

theorem mem_conflicting :
    cluster ∈ stage.conflicting tx ↔ cluster ∈ stage.clusters ∧ tx.id ∈ cluster.conflicts := by
  simp [conflicting]

theorem mem_others :
    cluster ∈ stage.others tx ↔ cluster ∈ stage.clusters ∧ tx.id ∉ cluster.conflicts := by
  simp [others]

theorem instructionsOf_append (first second : List Cluster) :
    instructionsOf (first ++ second) = instructionsOf first + instructionsOf second := by
  simp [instructionsOf]

theorem instructionsOf_perm {first second : List Cluster} (hperm : first.Perm second) :
    instructionsOf first = instructionsOf second :=
  (hperm.map _).sum_eq

theorem Sound.grown (hsound : stage.Sound weight conflicts) (hsymm : SymmetricMarks conflicts)
    (hnew : ¬ stage.Holds tx.id) (hweight : tx.instructions = weight tx.id)
    (hmarks : tx.conflicts = conflicts tx.id)
    (hbound : instructionsOf stage.clusters + tx.instructions < 2 ^ 64) :
    ∃ merged, (stage.conflicting tx).foldlM Cluster.merge (Cluster.fromTx tx) = some merged ∧
      stage.Grown weight conflicts tx merged := by
  have hperm := stage.conflicting_append_others tx
  have hsplit : instructionsOf stage.clusters =
      instructionsOf (stage.conflicting tx) + instructionsOf (stage.others tx) := by
    rw [← instructionsOf_append]
    exact (instructionsOf_perm hperm).symm
  have hapart : Apart (stage.conflicting tx ++ stage.others tx) :=
    hsound.partitioned.apart.perm hperm.symm
  have hseparate : (stage.conflicting tx ++ stage.others tx).Pairwise (Separate conflicts) :=
    hperm.symm.pairwise hsound.partitioned.separate fun h => hsymm.separate h
  have hone : (Cluster.fromTx tx).instructions = tx.instructions := rfl
  obtain ⟨merged, hmerged, hmsound, hminstructions, hmem⟩ :=
    (Cluster.sound_fromTx hweight hmarks).foldlM_merge
      (fun cluster (hcluster : cluster ∈ stage.conflicting tx) =>
        hsound.partitioned.sound cluster (mem_conflicting.mp hcluster).1)
      (by
        refine pairwise_cons.mpr ⟨?_, (pairwise_append.mp hapart).1⟩
        intro cluster hcluster
        exact Finset.disjoint_singleton_left.mpr
          (hsound.apart_tx hnew (mem_conflicting.mp hcluster).1))
      (by omega)
  simp only [Cluster.fromTx, Finset.mem_singleton] at hmem
  refine ⟨merged, hmerged, ⟨?_, ?_, ?_⟩, ?_, hmem⟩
  · intro cluster hcluster
    rcases mem_append.mp hcluster with hother | hlast
    · exact hsound.partitioned.sound cluster (mem_others.mp hother).1
    · exact mem_singleton.mp hlast ▸ hmsound
  · refine pairwise_append.mpr ⟨(pairwise_append.mp hapart).2.1, pairwise_singleton _ _, ?_⟩
    intro other hother last hlast
    obtain rfl := mem_singleton.mp hlast
    refine Finset.disjoint_left.mpr fun id hid hin => ?_
    rcases (hmem id).mp hin with rfl | ⟨cluster, hcluster, hshared⟩
    · exact hsound.apart_tx hnew (mem_others.mp hother).1 hid
    · exact Finset.disjoint_left.mp
        ((pairwise_append.mp hapart).2.2 cluster hcluster other hother) hshared hid
  · refine pairwise_append.mpr ⟨(pairwise_append.mp hseparate).2.1, pairwise_singleton _ _, ?_⟩
    intro other hother last hlast
    obtain rfl := mem_singleton.mp hlast
    refine hsymm.separate fun id hid j hj => ?_
    rcases (hmem id).mp hid with rfl | ⟨cluster, hcluster, hshared⟩
    · -- The marks of `other` would name the transaction.
      intro hmark
      refine (mem_others.mp hother).2 ?_
      rw [(hsound.partitioned.sound other (mem_others.mp hother).1).conflicts_eq]
      exact Finset.mem_biUnion.mpr ⟨j, hj, (hsymm tx.id j).mp hmark⟩
    · exact (pairwise_append.mp hseparate).2.2 cluster hcluster other hother id hshared j hj
  · have hlast : instructionsOf [merged] = merged.instructions := by simp [instructionsOf]
    rw [instructionsOf_append, hlast]
    omega

variable {merged : Cluster}

theorem Grown.mem_clusters_iff (hgrown : stage.Grown weight conflicts tx merged)
    {id : Nat} : (∃ cluster ∈ stage.others tx ++ [merged], id ∈ cluster.txIds) ↔
      (∃ cluster ∈ stage.clusters, id ∈ cluster.txIds) ∨ id = tx.id := by
  have hperm := stage.conflicting_append_others tx
  constructor
  · rintro ⟨cluster, hcluster, hid⟩
    rcases mem_append.mp hcluster with hother | hlast
    · exact .inl ⟨cluster, (mem_others.mp hother).1, hid⟩
    · obtain rfl := mem_singleton.mp hlast
      rcases (hgrown.mem_iff id).mp hid with rfl | ⟨old, hold, hin⟩
      · exact .inr rfl
      · exact .inl ⟨old, (mem_conflicting.mp hold).1, hin⟩
  · have hlast : merged ∈ stage.others tx ++ [merged] :=
      mem_append_right _ (mem_singleton_self _)
    rintro (⟨cluster, hcluster, hid⟩ | rfl)
    · rcases mem_append.mp (hperm.mem_iff.mpr hcluster) with hold | hother
      · exact ⟨merged, hlast, (hgrown.mem_iff id).mpr (.inr ⟨cluster, hold, hid⟩)⟩
      · exact ⟨cluster, mem_append_left _ hother, hid⟩
    · exact ⟨merged, hlast, (hgrown.mem_iff tx.id).mpr (.inl rfl)⟩

section

variable (hsound : stage.Sound weight conflicts)
include hsound

theorem Sound.tryInPlaceBinPacking (hgrown : stage.Grown weight conflicts tx merged)
    (hlimit : config.instructionsPerCluster < 2 ^ 64) :
    ∃ packed bins, Stage.tryInPlaceBinPacking stage.bins merged (stage.conflicting tx) =
        some (packed, bins) ∧
      if packed then bins.Assigned weight config.instructionsPerCluster (stage.others tx ++ [merged])
      else bins = stage.bins := by
  have hperm := stage.conflicting_append_others tx
  obtain ⟨removed, left, htaken, hleft, hrestores⟩ :=
    (hsound.assigned.perm hperm.symm).takeClusters
      (fun cluster hcluster => hsound.partitioned.sound cluster (mem_conflicting.mp hcluster).1)
      (hsound.partitioned.apart.perm hperm.symm)
  have hlast : merged ∈ stage.others tx ++ [merged] :=
    mem_append_right _ (mem_singleton_self _)
  rw [Stage.tryInPlaceBinPacking, htaken]
  cases hplaced : left.placeFirstFit config.instructionsPerCluster merged with
  | some packed =>
    refine ⟨true, packed, by simp [hplaced], ?_⟩
    refine hleft.placeFirstFit (hgrown.partitioned.sound merged hlast) ?_ hplaced
    intro other hother
    exact (pairwise_append.mp hgrown.partitioned.apart).2.2 other hother merged
      (mem_singleton_self _)
  | none =>
    have hreverted := Bins.putBack_eq hrestores fun bin =>
      (hsound.assigned.within bin).trans_lt hlimit
    exact ⟨false, stage.bins, by simp [hplaced, hreverted], rfl⟩

theorem Sound.refuse {stage' : Stage config} (hclusters : stage'.clusters = stage.clusters)
    (hbins : stage'.bins = stage.bins)
    (htotal : stage'.totalInstructions = stage.totalInstructions) :
    stage'.Sound weight conflicts ∧
      ∀ id, stage'.Holds id ↔ stage.Holds id ∨ false = true ∧ id = tx.id := by
  refine ⟨⟨?_, ?_, ?_⟩, ?_⟩
  · rw [hclusters]
    exact hsound.partitioned
  · rw [hclusters, hbins]
    exact hsound.assigned
  · rw [hclusters, htotal]
    exact hsound.total
  · intro id
    simp [Holds, hbins]

theorem Sound.accept (hgrown : stage.Grown weight conflicts tx merged) {stage' : Stage config}
    (hclusters : stage'.clusters = stage.others tx ++ [merged])
    (hassigned : stage'.bins.Assigned weight config.instructionsPerCluster
      (stage.others tx ++ [merged]))
    (htotal : stage'.totalInstructions = stage.totalInstructions + tx.instructions) :
    stage'.Sound weight conflicts ∧
      ∀ id, stage'.Holds id ↔ stage.Holds id ∨ true = true ∧ id = tx.id := by
  have hsound' : stage'.Sound weight conflicts := by
    refine ⟨?_, ?_, ?_⟩
    · rw [hclusters]
      exact hgrown.partitioned
    · rw [hclusters]
      exact hassigned
    · rw [hclusters, htotal, hgrown.total, hsound.total]
  refine ⟨hsound', fun id => ?_⟩
  rw [hsound'.holds_iff, hclusters, hgrown.mem_clusters_iff, hsound.holds_iff]
  simp

/-- Offering a transaction to a stage: no panic, and at most this transaction is added. -/
theorem Sound.tryAdd (hsymm : SymmetricMarks conflicts) (hnew : ¬ stage.Holds tx.id)
    (hweight : tx.instructions = weight tx.id) (hmarks : tx.conflicts = conflicts tx.id)
    {perStage : Nat} (hperStage : config.instructionsPerStage = some perStage)
    (hlimit : config.instructionsPerCluster < 2 ^ 64) :
    ∃ added stage', stage.tryAdd tx = some (added, stage') ∧
      stage'.Sound weight conflicts ∧
      ∀ id, stage'.Holds id ↔ stage.Holds id ∨ added = true ∧ id = tx.id := by
  unfold Stage.tryAdd
  split
  · exact ⟨false, stage, rfl, hsound.refuse rfl rfl rfl⟩
  next sum hsum =>
    have hbound : instructionsOf stage.clusters + tx.instructions < 2 ^ 64 := by
      rw [← hsound.total]
      by_contra hover
      rw [checkedAdd, if_neg hover] at hsum
      cases hsum
    obtain rfl := checkedAdd_eq_some hsum
    obtain ⟨merged, hmerged, hgrown⟩ := hsound.grown hsymm hnew hweight hmarks hbound
    obtain ⟨packed, bins, hpacking, hresult⟩ := hsound.tryInPlaceBinPacking hgrown hlimit
    have hcreate : stage.createNewClusters tx =
        if merged.instructions > config.instructionsPerCluster then some none
        else some (some (stage.others tx, merged)) := by
      rw [createNewClusters, hmerged]
      rfl
    rw [hperStage, hcreate]
    simp only [Option.bind_eq_bind, Option.bind_some]
    split
    · exact ⟨false, stage, rfl, hsound.refuse rfl rfl rfl⟩
    · by_cases hlarge : merged.instructions > config.instructionsPerCluster
      · rw [if_pos hlarge]
        exact ⟨false, stage, rfl, hsound.refuse rfl rfl rfl⟩
      · rw [if_neg hlarge]
        simp only [Option.bind_some, hpacking]
        cases packed with
        | true => exact ⟨true, _, rfl, hsound.accept hgrown rfl hresult rfl⟩
        | false =>
          have hkept : bins = stage.bins := hresult
          rw [if_neg Bool.false_ne_true]
          split
          · exact ⟨false, _, rfl, hsound.refuse rfl hkept rfl⟩
          · split
            next repacked hrepack =>
              refine ⟨true, _, rfl, hsound.accept hgrown rfl ?_ rfl⟩
              exact Bins.assigned_binPackClusters hgrown.partitioned.sound
                hgrown.partitioned.apart hrepack
            · split
              · exact ⟨false, _, rfl, hsound.refuse rfl hkept rfl⟩
              · exact ⟨false, _, rfl, hsound.refuse rfl hkept rfl⟩

end

end Stage

end Henyey.TxSet
