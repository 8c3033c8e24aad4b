import Henyey.TxSet.Builder

/-!
# Other ids for the same transactions

The builder reads ids only through membership, so a permutation of the ids goes
through every step of it: the stages built with the new ids are the stages built
with the old ones, relabelled.
-/

namespace Henyey.TxSet

open List

variable (σ : Equiv.Perm Nat)

def relabel (ids : BitSet) : BitSet := ids.map σ.toEmbedding

def BuilderTx.relabel (tx : BuilderTx) : BuilderTx where
  id := σ tx.id
  instructions := tx.instructions
  conflicts := TxSet.relabel σ tx.conflicts

def Cluster.relabel (cluster : Cluster) : Cluster where
  instructions := cluster.instructions
  conflicts := TxSet.relabel σ cluster.conflicts
  txIds := TxSet.relabel σ cluster.txIds

def Bins.relabel {n : Nat} (bins : Bins n) : Bins n where
  packing := fun bin => TxSet.relabel σ (bins.packing bin)
  instructions := bins.instructions

def Removed.relabel {n : Nat} (taken : Removed n) : Removed n where
  bin := taken.bin
  instructions := taken.instructions
  txIds := TxSet.relabel σ taken.txIds

def Stage.relabel {config : ParallelPartitionConfig} (stage : Stage config) : Stage config where
  clusters := stage.clusters.map (Cluster.relabel σ)
  bins := stage.bins.relabel σ
  totalInstructions := stage.totalInstructions
  triedCompactingBinPacking := stage.triedCompactingBinPacking

@[simp]
theorem mem_relabel {ids : BitSet} {id : Nat} : σ id ∈ relabel σ ids ↔ id ∈ ids :=
  Finset.mem_map' σ.toEmbedding

theorem relabel_union (first second : BitSet) :
    relabel σ (first ∪ second) = relabel σ first ∪ relabel σ second :=
  Finset.map_union _ _

theorem relabel_sdiff (first second : BitSet) :
    relabel σ (first \ second) = relabel σ first \ relabel σ second :=
  Finset.map_sdiff _ _

@[simp]
theorem disjoint_relabel {first second : BitSet} :
    Disjoint (relabel σ first) (relabel σ second) ↔ Disjoint first second :=
  Finset.disjoint_map _

theorem foldlM_view {α β γ δ : Type} {step : β → α → Option β} {step' : δ → γ → Option δ}
    (state : β → δ) (item : α → γ) (hstep : ∀ b a, step' (state b) (item a) = (step b a).map state)
    (items : List α) (init : β) :
    (items.map item).foldlM step' (state init) = (items.foldlM step init).map state := by
  induction items generalizing init with
  | nil => rfl
  | cons a rest ih =>
    rw [map_cons, foldlM_cons, foldlM_cons, hstep]
    cases step init a with
    | none => rfl
    | some next => exact ih next

theorem Cluster.fromTx_relabel (tx : BuilderTx) :
    Cluster.fromTx (tx.relabel σ) = (Cluster.fromTx tx).relabel σ := by
  simp [Cluster.fromTx, Cluster.relabel, BuilderTx.relabel, TxSet.relabel]

theorem Cluster.merge_relabel (a b : Cluster) :
    (a.relabel σ).merge (b.relabel σ) = (a.merge b).map (Cluster.relabel σ) := by
  simp only [Cluster.merge, Cluster.relabel]
  cases checkedAdd a.instructions b.instructions with
  | none => rfl
  | some sum => simp [relabel_union, Cluster.relabel]

namespace Bins

variable {n : Nat}

theorem update_relabel (packing : Fin n → BitSet) (bin : Fin n) (ids : BitSet) :
    (fun other => TxSet.relabel σ (Function.update packing bin ids other)) =
      Function.update (fun other => TxSet.relabel σ (packing other)) bin (TxSet.relabel σ ids) := by
  funext other
  exact Function.apply_update (fun _ => TxSet.relabel σ) packing bin ids other

theorem placeFirstFit_relabel (bins : Bins n) (limit : Nat) (cluster : Cluster) :
    (bins.relabel σ).placeFirstFit limit (cluster.relabel σ) =
      (bins.placeFirstFit limit cluster).map (Bins.relabel σ) := by
  have hfit : (bins.relabel σ).firstFit limit (cluster.relabel σ).instructions =
      bins.firstFit limit cluster.instructions := rfl
  rw [placeFirstFit, placeFirstFit, hfit, Option.map_map]
  congr 1
  funext found
  simp [Bins.relabel, Cluster.relabel, update_relabel, relabel_union]

theorem takeCluster_relabel (bins : Bins n) (cluster : Cluster) :
    (bins.relabel σ).takeCluster (cluster.relabel σ) =
      (bins.takeCluster cluster).map (Prod.map (Removed.relabel σ) (Bins.relabel σ)) := by
  have hmeets : (fun bin => decide ¬ Disjoint ((bins.relabel σ).packing bin)
      (cluster.relabel σ).txIds) = fun bin => decide ¬ Disjoint (bins.packing bin) cluster.txIds := by
    funext bin
    simp [Bins.relabel, Cluster.relabel]
  rw [takeCluster, takeCluster, hmeets]
  split
  next bin _ =>
    have hleft : checkedSub ((bins.relabel σ).instructions bin) (cluster.relabel σ).instructions =
        checkedSub (bins.instructions bin) cluster.instructions := rfl
    rw [hleft]
    cases checkedSub (bins.instructions bin) cluster.instructions with
    | none => rfl
    | some left =>
      simp [Removed.relabel, Bins.relabel, Cluster.relabel, update_relabel, relabel_sdiff]
  · rfl

theorem takeClusters_relabel (bins : Bins n) (clusters : List Cluster) :
    (bins.relabel σ).takeClusters (clusters.map (Cluster.relabel σ)) =
      (bins.takeClusters clusters).map (Prod.map (map (Removed.relabel σ)) (Bins.relabel σ)) := by
  induction clusters generalizing bins with
  | nil => rfl
  | cons cluster rest ih =>
    rw [map_cons, takeClusters, takeClusters, takeCluster_relabel]
    cases bins.takeCluster cluster with
    | none => rfl
    | some found =>
      obtain ⟨taken, middle⟩ := found
      simp only [Option.map_some, Prod.map_apply, Option.bind_eq_bind, Option.bind_some, ih middle]
      cases middle.takeClusters rest with
      | none => rfl
      | some found => rfl

theorem putBack_relabel (bins : Bins n) (removed : List (Removed n)) :
    (bins.relabel σ).putBack (removed.map (Removed.relabel σ)) =
      (bins.putBack removed).map (Bins.relabel σ) := by
  induction removed generalizing bins with
  | nil => rfl
  | cons taken rest ih =>
    rw [map_cons, putBack, putBack]
    have hsum : checkedAdd ((bins.relabel σ).instructions (taken.relabel σ).bin)
        (taken.relabel σ).instructions =
          checkedAdd (bins.instructions taken.bin) taken.instructions := rfl
    rw [hsum]
    cases checkedAdd (bins.instructions taken.bin) taken.instructions with
    | none => rfl
    | some sum =>
      simp only [Option.bind_eq_bind, Option.bind_some, ← ih]
      congr 1
      simp [Removed.relabel, Bins.relabel, update_relabel, relabel_union]

end Bins

theorem binPackClusters_relabel (clusters : List Cluster) (maxBins limit : Nat) :
    binPackClusters (clusters.map (Cluster.relabel σ)) maxBins limit =
      (binPackClusters clusters maxBins limit).map (Bins.relabel σ) := by
  have hsort := map_insertionSort (fun a b : Cluster => b.instructions ≤ a.instructions)
    (fun a b : Cluster => b.instructions ≤ a.instructions) (Cluster.relabel σ) clusters
    fun _ _ _ _ => Iff.rfl
  have hnew : Bins.new maxBins = (Bins.new maxBins).relabel σ := by
    simp [Bins.new, Bins.relabel, TxSet.relabel]
  rw [binPackClusters, binPackClusters, ← hsort]
  conv_lhs => rw [hnew]
  exact foldlM_view (Bins.relabel σ) (Cluster.relabel σ)
    (fun bins cluster => Bins.placeFirstFit_relabel σ bins limit cluster) _ _

namespace Stage

variable {config : ParallelPartitionConfig} (stage : Stage config) (tx : BuilderTx)

theorem new_relabel (config : ParallelPartitionConfig) :
    (Stage.new config).relabel σ = Stage.new config := by
  simp [Stage.new, Stage.relabel, Bins.new, Bins.relabel, TxSet.relabel]

theorem conflicting_relabel :
    (stage.relabel σ).conflicting (tx.relabel σ) =
      (stage.conflicting tx).map (Cluster.relabel σ) := by
  rw [conflicting, conflicting, relabel, filter_map]
  congr 1
  refine filter_congr fun cluster _ => ?_
  simp [Cluster.relabel, BuilderTx.relabel]

theorem others_relabel :
    (stage.relabel σ).clusters.filter (fun cluster => (tx.relabel σ).id ∉ cluster.conflicts) =
      (stage.clusters.filter fun cluster => tx.id ∉ cluster.conflicts).map (Cluster.relabel σ) := by
  rw [relabel, filter_map]
  congr 1
  refine filter_congr fun cluster _ => ?_
  simp [Cluster.relabel, BuilderTx.relabel]

theorem createNewClusters_relabel :
    (stage.relabel σ).createNewClusters (tx.relabel σ) =
      (stage.createNewClusters tx).map
        (Option.map (Prod.map (map (Cluster.relabel σ)) (Cluster.relabel σ))) := by
  have hmerge := foldlM_view (Cluster.relabel σ) (Cluster.relabel σ) (Cluster.merge_relabel σ)
    (stage.conflicting tx) (Cluster.fromTx tx)
  rw [createNewClusters, createNewClusters, conflicting_relabel, Cluster.fromTx_relabel, hmerge,
    others_relabel]
  cases (stage.conflicting tx).foldlM Cluster.merge (Cluster.fromTx tx) with
  | none => rfl
  | some merged =>
    have hsame : (merged.relabel σ).instructions = merged.instructions := rfl
    simp only [Option.bind_eq_bind, Option.bind_some, Option.map_some, hsame]
    split
    · rfl
    · rfl

theorem tryInPlaceBinPacking_relabel (bins : Bins config.clustersPerStage) (newCluster : Cluster)
    (conflicting : List Cluster) :
    tryInPlaceBinPacking (bins.relabel σ) (newCluster.relabel σ)
        (conflicting.map (Cluster.relabel σ)) =
      (tryInPlaceBinPacking bins newCluster conflicting).map (Prod.map id (Bins.relabel σ)) := by
  rw [tryInPlaceBinPacking, tryInPlaceBinPacking, Bins.takeClusters_relabel]
  cases bins.takeClusters conflicting with
  | none => rfl
  | some found =>
    obtain ⟨removed, emptied⟩ := found
    simp only [Option.bind_eq_bind, Option.bind_some, Option.map_some, Prod.map_apply,
      Bins.placeFirstFit_relabel]
    cases emptied.placeFirstFit config.instructionsPerCluster newCluster with
    | some packed => rfl
    | none =>
      simp only [Option.map_none, Bins.putBack_relabel]
      cases emptied.putBack removed with
      | none => rfl
      | some reverted => rfl

theorem tryAdd_relabel :
    (stage.relabel σ).tryAdd (tx.relabel σ) =
      (stage.tryAdd tx).map (Prod.map id (Stage.relabel σ)) := by
  have hsum : checkedAdd (stage.relabel σ).totalInstructions (tx.relabel σ).instructions =
      checkedAdd stage.totalInstructions tx.instructions := rfl
  have hbins : (stage.relabel σ).bins = stage.bins.relabel σ := rfl
  have htried : (stage.relabel σ).triedCompactingBinPacking = stage.triedCompactingBinPacking := rfl
  rw [tryAdd, tryAdd, hsum, createNewClusters_relabel, conflicting_relabel, hbins, htried]
  cases checkedAdd stage.totalInstructions tx.instructions with
  | none => rfl
  | some sum =>
    cases config.instructionsPerStage with
    | none => rfl
    | some perStage =>
      simp only [Option.bind_eq_bind, Option.bind_some]
      split
      · rfl
      · cases stage.createNewClusters tx with
        | none => rfl
        | some created =>
          cases created with
          | none => rfl
          | some grown =>
            obtain ⟨others, merged⟩ := grown
            have hclusters : others.map (Cluster.relabel σ) ++ [merged.relabel σ] =
                (others ++ [merged]).map (Cluster.relabel σ) := by simp
            simp only [Option.map_some, Option.bind_some, Prod.map_apply,
              tryInPlaceBinPacking_relabel, isEmpty_map, hclusters, binPackClusters_relabel]
            cases tryInPlaceBinPacking stage.bins merged (stage.conflicting tx) with
            | none => rfl
            | some found =>
              obtain ⟨packed, bins⟩ := found
              simp only [Option.map_some, Option.bind_some, Prod.map_apply, id_eq]
              split
              · rfl
              · split
                · rfl
                · cases binPackClusters (others ++ [merged]) config.clustersPerStage
                      config.instructionsPerCluster with
                  | some repacked => rfl
                  | none =>
                    simp only [Option.map_none]
                    split
                    · rfl
                    · rfl

end Stage

theorem addToStages_relabel {config : ParallelPartitionConfig} (tx : BuilderTx)
    (stages : List (Stage config)) :
    addToStages (tx.relabel σ) (stages.map (Stage.relabel σ)) =
      (addToStages tx stages).map (Prod.map id (map (Stage.relabel σ))) := by
  induction stages with
  | nil => rfl
  | cons stage rest ih =>
    rw [map_cons, addToStages, addToStages, Stage.tryAdd_relabel]
    cases stage.tryAdd tx with
    | none => rfl
    | some found =>
      obtain ⟨added, next⟩ := found
      simp only [Option.map_some, Prod.map_apply, id_eq, Option.bind_eq_bind, Option.bind_some, ih]
      split
      · rfl
      · cases addToStages tx rest with
        | none => rfl
        | some found => rfl

end Henyey.TxSet
