import Henyey.Foundation.Packing
import Henyey.TxSet.Builder

/-!
# Clusters and bins

Every cluster lies in one bin, and the bins hold nothing else. Placing a cluster
and taking one out keep it so, a rollback restores the bins as they were, and the
checks that panic do not fire.
-/

namespace Henyey.TxSet

open Foundation Finset
open Function

theorem checkedAdd_of_lt {a b : Nat} (hlt : a + b < 2 ^ 64) : checkedAdd a b = some (a + b) :=
  if_pos hlt

theorem checkedAdd_eq_some {a b sum : Nat} (hsum : checkedAdd a b = some sum) : sum = a + b := by
  unfold checkedAdd at hsum
  split at hsum
  · exact (Option.some.inj hsum).symm
  · cases hsum

/-- The data of a cluster is that of the transactions in it. -/
structure Cluster.Sound (weight : Nat → Nat) (conflicts : Nat → BitSet) (cluster : Cluster) :
    Prop where
  instructions_eq : cluster.instructions = ∑ id ∈ cluster.txIds, weight id
  conflicts_eq : cluster.conflicts = cluster.txIds.biUnion conflicts
  nonempty : cluster.txIds.Nonempty

/-- Each cluster lies in a bin, the bins hold only clusters, and none is over the limit. -/
structure Bins.Assigned {n : Nat} (weight : Nat → Nat) (limit : Nat) (clusters : List Cluster)
    (bins : Bins n) : Prop where
  packs : Packs weight bins.packing bins.instructions
  within : ∀ bin, bins.instructions bin ≤ limit
  placed : ∀ cluster ∈ clusters, ∃ bin, cluster.txIds ⊆ bins.packing bin
  covered : ∀ bin, ∀ id ∈ bins.packing bin, ∃ cluster ∈ clusters, id ∈ cluster.txIds

/-- No transaction is in two clusters. -/
def Apart (clusters : List Cluster) : Prop :=
  clusters.Pairwise fun a b => Disjoint a.txIds b.txIds

theorem Apart.perm {clusters others : List Cluster} (hapart : Apart clusters)
    (hperm : clusters.Perm others) : Apart others :=
  hperm.pairwise hapart fun hdisjoint => hdisjoint.symm

namespace Bins

variable {n : Nat} {weight : Nat → Nat} {limit : Nat} {clusters : List Cluster} {bins : Bins n}

theorem Assigned.perm (hassigned : bins.Assigned weight limit clusters) {others : List Cluster}
    (hperm : clusters.Perm others) : bins.Assigned weight limit others where
  __ := hassigned
  placed := fun cluster hcluster => hassigned.placed cluster (hperm.mem_iff.mpr hcluster)
  covered := by
    intro bin id hid
    obtain ⟨cluster, hcluster, hin⟩ := hassigned.covered bin id hid
    exact ⟨cluster, hperm.mem_iff.mp hcluster, hin⟩

theorem assigned_new (weight : Nat → Nat) (limit : Nat) :
    (Bins.new n).Assigned weight limit [] where
  packs := Packs.empty weight
  within := fun _ => Nat.zero_le _
  placed := by
    intro cluster hcluster
    cases hcluster
  covered := by
    intro bin id hid
    exact absurd hid (notMem_empty id)

variable {cluster : Cluster}

theorem Assigned.disjoint (hassigned : bins.Assigned weight limit clusters)
    (hapart : ∀ other ∈ clusters, Disjoint other.txIds cluster.txIds) (bin : Fin n) :
    Disjoint (bins.packing bin) cluster.txIds := by
  refine disjoint_left.mpr fun id hid hin => ?_
  obtain ⟨other, hother, hmem⟩ := hassigned.covered bin id hid
  exact disjoint_left.mp (hapart other hother) hmem hin

theorem firstFit_eq_some {instructions : Nat} {bin : Fin n} {sum : Nat}
    (hfit : bins.firstFit limit instructions = some (bin, sum)) :
    sum = bins.instructions bin + instructions ∧ sum ≤ limit := by
  obtain ⟨found, -, hfound⟩ := List.exists_of_findSome?_eq_some hfit
  split at hfound
  next total htotal =>
    split at hfound
    next hle =>
      cases hfound
      exact ⟨checkedAdd_eq_some htotal, hle⟩
    · cases hfound
  · cases hfound

variable {conflicts : Nat → BitSet}

theorem Assigned.placeFirstFit (hassigned : bins.Assigned weight limit clusters)
    (hsound : cluster.Sound weight conflicts)
    (hapart : ∀ other ∈ clusters, Disjoint other.txIds cluster.txIds) {placed : Bins n}
    (hplaced : bins.placeFirstFit limit cluster = some placed) :
    placed.Assigned weight limit (clusters ++ [cluster]) := by
  unfold Bins.placeFirstFit at hplaced
  obtain ⟨⟨bin, sum⟩, hfit, rfl⟩ := Option.map_eq_some_iff.mp hplaced
  obtain ⟨rfl, hle⟩ := firstFit_eq_some hfit
  have hgrows : ∀ other, bins.packing other ⊆
      update bins.packing bin (bins.packing bin ∪ cluster.txIds) other := by
    intro other
    by_cases hother : other = bin
    · subst hother
      rw [update_self]
      exact subset_union_left
    · rw [update_of_ne hother]
  refine ⟨?_, ?_, ?_, ?_⟩
  · rw [hsound.instructions_eq]
    exact hassigned.packs.place (hassigned.disjoint hapart) bin
  · intro other
    by_cases hother : other = bin
    · subst hother
      simpa only [update_self] using hle
    · simpa only [update_of_ne hother] using hassigned.within other
  · intro other hother
    rcases List.mem_append.mp hother with hold | hnew
    · obtain ⟨home, hhome⟩ := hassigned.placed other hold
      exact ⟨home, hhome.trans (hgrows home)⟩
    · obtain rfl := List.mem_singleton.mp hnew
      refine ⟨bin, ?_⟩
      simp only [update_self]
      exact subset_union_right
  · intro other id hid
    by_cases hother : other = bin
    · subst hother
      simp only [update_self] at hid
      rcases mem_union.mp hid with hold | hnew
      · obtain ⟨home, hhome, hin⟩ := hassigned.covered other id hold
        exact ⟨home, List.mem_append_left _ hhome, hin⟩
      · exact ⟨cluster, List.mem_append_right _ (List.mem_singleton_self _), hnew⟩
    · simp only [update_of_ne hother] at hid
      obtain ⟨home, hhome, hin⟩ := hassigned.covered other id hid
      exact ⟨home, List.mem_append_left _ hhome, hin⟩

def idsTaken (removed : List (Removed n)) (bin : Fin n) : BitSet :=
  removed.foldr (fun taken ids => if taken.bin = bin then taken.txIds ∪ ids else ids) ∅

def instructionsTaken (removed : List (Removed n)) (bin : Fin n) : Nat :=
  (removed.map fun taken => if taken.bin = bin then taken.instructions else 0).sum

/-- What was taken from the first bins is what the second ones lack. -/
structure Restores (bins : Bins n) (removed : List (Removed n)) (left : Bins n) : Prop where
  packing : ∀ bin, bins.packing bin = left.packing bin ∪ idsTaken removed bin
  instructions : ∀ bin,
    bins.instructions bin = left.instructions bin + instructionsTaken removed bin

theorem putBack_eq {removed : List (Removed n)} {left : Bins n}
    (hrestores : bins.Restores removed left)
    (hbound : ∀ bin, bins.instructions bin < 2 ^ 64) : left.putBack removed = some bins := by
  induction removed generalizing left with
  | nil =>
    have hpacking : left.packing = bins.packing := by
      funext bin
      rw [hrestores.packing]
      exact (union_empty _).symm
    have hinstructions : left.instructions = bins.instructions := by
      funext bin
      rw [hrestores.instructions]
      rfl
    obtain ⟨packing, instructions⟩ := left
    obtain rfl : packing = _ := hpacking
    obtain rfl : instructions = _ := hinstructions
    rfl
  | cons taken rest ih =>
    have hroom : left.instructions taken.bin + taken.instructions < 2 ^ 64 := by
      have hbin := hrestores.instructions taken.bin
      have hlt := hbound taken.bin
      simp only [instructionsTaken, List.map_cons, List.sum_cons, if_pos] at hbin
      omega
    rw [putBack, checkedAdd_of_lt hroom]
    refine ih ⟨?_, ?_⟩
    · intro bin
      rw [hrestores.packing bin, idsTaken, List.foldr_cons, ← idsTaken]
      by_cases hbin : taken.bin = bin
      · subst hbin
        simp only [if_pos, update_self, union_assoc]
      · simp only [if_neg hbin, update_of_ne (Ne.symm hbin)]
    · intro bin
      rw [hrestores.instructions bin, instructionsTaken, List.map_cons, List.sum_cons,
        ← instructionsTaken]
      by_cases hbin : taken.bin = bin
      · subst hbin
        simp only [if_pos, update_self, Nat.add_assoc]
      · simp only [if_neg hbin, update_of_ne (Ne.symm hbin), Nat.zero_add]

theorem Assigned.takeCluster (hassigned : bins.Assigned weight limit (cluster :: clusters))
    (hsound : cluster.Sound weight conflicts)
    (hapart : ∀ other ∈ clusters, Disjoint cluster.txIds other.txIds) :
    ∃ taken left, bins.takeCluster cluster = some (taken, left) ∧
      left.Assigned weight limit clusters ∧ bins.Restores [taken] left := by
  obtain ⟨bin, hbin⟩ := hassigned.placed cluster List.mem_cons_self
  have honly : ((List.finRange n).filter fun other =>
      ¬ Disjoint (bins.packing other) cluster.txIds) = [bin] := by
    have hmeets : ∀ other, ¬ Disjoint (bins.packing other) cluster.txIds ↔ other = bin := by
      intro other
      refine ⟨hassigned.packs.bin_unique hbin, ?_⟩
      rintro rfl hdisjoint
      obtain ⟨id, hid⟩ := hsound.nonempty
      exact disjoint_left.mp hdisjoint (hbin hid) hid
    simp only [hmeets]
    rw [show (fun other => decide (other = bin)) = (fun other => other == bin) from
      funext fun _ => (beq_eq_decide _ _).symm, List.filter_beq,
      List.count_eq_one_of_mem (List.nodup_finRange n) (List.mem_finRange bin)]
    rfl
  have hweight : cluster.instructions ≤ bins.instructions bin := by
    rw [hsound.instructions_eq]
    exact hassigned.packs.weight_le hbin
  refine ⟨⟨bin, cluster.instructions, cluster.txIds⟩, {
    packing := update bins.packing bin (bins.packing bin \ cluster.txIds)
    instructions :=
      update bins.instructions bin (bins.instructions bin - cluster.instructions) },
    ?_, ?_, ?_⟩
  · rw [Bins.takeCluster, honly]
    simp [checkedSub, hweight]
  · refine ⟨?_, ?_, ?_, ?_⟩
    · rw [hsound.instructions_eq]
      exact hassigned.packs.remove hbin
    · intro other
      by_cases hother : other = bin
      · subst hother
        simp only [update_self]
        exact (Nat.sub_le _ _).trans (hassigned.within other)
      · simp only [update_of_ne hother]
        exact hassigned.within other
    · intro other hother
      obtain ⟨home, hhome⟩ := hassigned.placed other (List.mem_cons_of_mem _ hother)
      refine ⟨home, ?_⟩
      by_cases hsame : home = bin
      · subst hsame
        simp only [update_self]
        exact subset_sdiff.mpr ⟨hhome, (hapart other hother).symm⟩
      · simpa only [update_of_ne hsame] using hhome
    · intro other id hid
      by_cases hother : other = bin
      · subst hother
        simp only [update_self, mem_sdiff] at hid
        obtain ⟨home, hhome, hin⟩ := hassigned.covered other id hid.1
        rcases List.mem_cons.mp hhome with rfl | hrest
        · exact absurd hin hid.2
        · exact ⟨home, hrest, hin⟩
      · simp only [update_of_ne hother] at hid
        obtain ⟨home, hhome, hin⟩ := hassigned.covered other id hid
        rcases List.mem_cons.mp hhome with rfl | hrest
        · exact absurd (hbin hin) (disjoint_left.mp (hassigned.packs.apart _ _ hother) hid)
        · exact ⟨home, hrest, hin⟩
  · refine ⟨?_, ?_⟩
    · intro other
      by_cases hother : other = bin
      · subst hother
        simp [idsTaken, sdiff_union_of_subset hbin]
      · simp [idsTaken, update_of_ne hother, Ne.symm hother]
    · intro other
      by_cases hother : other = bin
      · subst hother
        simp [instructionsTaken, Nat.sub_add_cancel hweight]
      · simp [instructionsTaken, update_of_ne hother, Ne.symm hother]

theorem Restores.trans {middle left : Bins n} {first : Removed n} {rest : List (Removed n)}
    (hfirst : bins.Restores [first] middle) (hrest : middle.Restores rest left) :
    bins.Restores (first :: rest) left where
  packing := by
    intro bin
    rw [hfirst.packing, hrest.packing]
    by_cases hbin : first.bin = bin
    · simp [idsTaken, hbin, union_comm, union_left_comm]
    · simp [idsTaken, hbin]
  instructions := by
    intro bin
    rw [hfirst.instructions, hrest.instructions]
    simp [instructionsTaken, Nat.add_comm, Nat.add_left_comm]

theorem Assigned.takeClusters {conflicting others : List Cluster}
    (hassigned : bins.Assigned weight limit (conflicting ++ others))
    (hsound : ∀ cluster ∈ conflicting, cluster.Sound weight conflicts)
    (hapart : Apart (conflicting ++ others)) :
    ∃ removed left, bins.takeClusters conflicting = some (removed, left) ∧
      left.Assigned weight limit others ∧ bins.Restores removed left := by
  induction conflicting generalizing bins with
  | nil =>
    refine ⟨[], bins, rfl, hassigned, ⟨?_, ?_⟩⟩
    · intro bin
      exact (union_empty _).symm
    · intro bin
      rfl
  | cons cluster rest ih =>
    obtain ⟨hhead, htail⟩ := List.pairwise_cons.mp hapart
    obtain ⟨taken, middle, htaken, hmiddle, hfirst⟩ :=
      Assigned.takeCluster hassigned (hsound cluster List.mem_cons_self) hhead
    obtain ⟨removed, left, hremoved, hleft, hrest⟩ :=
      ih hmiddle (fun other hother => hsound other (List.mem_cons_of_mem _ hother)) htail
    refine ⟨taken :: removed, left, ?_, hleft, hfirst.trans hrest⟩
    rw [Bins.takeClusters, htaken]
    simp [hremoved]

theorem Assigned.foldlM {items : List Cluster} (hassigned : bins.Assigned weight limit clusters)
    (hsound : ∀ cluster ∈ items, cluster.Sound weight conflicts)
    (hapart : Apart (clusters ++ items)) {packed : Bins n}
    (hpacked : items.foldlM (fun bins cluster => bins.placeFirstFit limit cluster) bins =
      some packed) : packed.Assigned weight limit (clusters ++ items) := by
  induction items generalizing bins clusters with
  | nil =>
    obtain rfl : bins = packed := Option.some.inj hpacked
    rwa [List.append_nil]
  | cons cluster rest ih =>
    rw [List.foldlM_cons, Option.bind_eq_bind, Option.bind_eq_some_iff] at hpacked
    obtain ⟨next, hnext, hrest⟩ := hpacked
    have hcross := (List.pairwise_append.mp hapart).2.2
    have hplaced := hassigned.placeFirstFit (hsound cluster List.mem_cons_self)
      (fun other hother => hcross other hother cluster List.mem_cons_self) hnext
    have hsplit : clusters ++ cluster :: rest = (clusters ++ [cluster]) ++ rest := by simp
    rw [hsplit] at hapart ⊢
    exact ih hplaced (fun other hother => hsound other (List.mem_cons_of_mem _ hother)) hapart hrest

theorem assigned_binPackClusters {items : List Cluster}
    (hsound : ∀ cluster ∈ items, cluster.Sound weight conflicts) (hapart : Apart items)
    {packed : Bins n} (hpacked : binPackClusters items n limit = some packed) :
    packed.Assigned weight limit items := by
  have hperm := List.perm_insertionSort (fun a b : Cluster => b.instructions ≤ a.instructions) items
  have hsorted := (assigned_new (n := n) weight limit).foldlM
    (fun cluster hcluster => hsound cluster (hperm.mem_iff.mp hcluster))
    (hapart.perm hperm.symm) hpacked
  exact hsorted.perm hperm

end Bins

end Henyey.TxSet
