import Henyey.Foundation.Division
import Henyey.TxSet.Conflicts
import Mathlib.Data.Finset.Sort

/-!
# The parallel Soroban phase builder

Transactions are taken in the order of their fee rates. Each goes into the first
stage that takes it: there it is merged with the clusters it conflicts with, and
the clusters are packed into the bins of the stage. Several stage counts are
tried, and the attempt with the fewest stages among the best paying is chosen.
A panic is `none`.
-/

namespace Henyey.TxSet

open Henyey.TxQueue

def checkedAdd (a b : Nat) : Option Nat := if a + b < 2 ^ 64 then some (a + b) else none
def checkedSub (a b : Nat) : Option Nat := if b ≤ a then some (a - b) else none
def checkedMul (a b : Nat) : Option Nat := if a * b < 2 ^ 64 then some (a * b) else none

structure BuilderTx where
  id : Nat
  instructions : Nat
  conflicts : BitSet

structure Cluster where
  instructions : Nat
  conflicts : BitSet
  txIds : BitSet
deriving DecidableEq

namespace Cluster

def fromTx (tx : BuilderTx) : Cluster where
  instructions := tx.instructions
  conflicts := tx.conflicts
  txIds := {tx.id}

def merge (cluster other : Cluster) : Option Cluster := do
  let instructions ← checkedAdd cluster.instructions other.instructions
  return {
    instructions := instructions
    conflicts := cluster.conflicts ∪ other.conflicts
    txIds := cluster.txIds ∪ other.txIds }

end Cluster

structure ParallelPartitionConfig where
  clustersPerStage : Nat
  instructionsPerCluster : Nat

namespace ParallelPartitionConfig

def new (stageCount : Nat) (ledgerMaxInstructions : Int) (ledgerMaxDependentTxClusters : Nat) :
    Option ParallelPartitionConfig :=
  if 0 ≤ ledgerMaxInstructions then
    some {
      clustersPerStage := ledgerMaxDependentTxClusters
      instructionsPerCluster :=
        if 0 < stageCount then ledgerMaxInstructions.toNat / stageCount
        else ledgerMaxInstructions.toNat }
  else none

def instructionsPerStage (config : ParallelPartitionConfig) : Option Nat :=
  checkedMul config.instructionsPerCluster config.clustersPerStage

end ParallelPartitionConfig

/-- The transaction ids of each bin, and the instructions of each. -/
structure Bins (n : Nat) where
  packing : Fin n → BitSet
  instructions : Fin n → Nat

/-- A cluster taken out of its bin, to be put back on a rollback. -/
structure Removed (n : Nat) where
  bin : Fin n
  instructions : Nat
  txIds : BitSet

namespace Bins

variable {n : Nat}

def new (n : Nat) : Bins n where
  packing := fun _ => ∅
  instructions := fun _ => 0

def firstFit (bins : Bins n) (limit instructions : Nat) : Option (Fin n × Nat) :=
  (List.finRange n).findSome? fun bin =>
    match checkedAdd (bins.instructions bin) instructions with
    | some sum => if sum ≤ limit then some (bin, sum) else none
    | none => none

/-- Put a cluster into the first bin with room. The addition is the one `firstFit` made. -/
def placeFirstFit (bins : Bins n) (limit : Nat) (cluster : Cluster) : Option (Bins n) :=
  (bins.firstFit limit cluster.instructions).map fun (bin, sum) => {
    packing := Function.update bins.packing bin (bins.packing bin ∪ cluster.txIds)
    instructions := Function.update bins.instructions bin sum }

/-- Take a cluster out of its bin, which must be exactly one. -/
def takeCluster (bins : Bins n) (cluster : Cluster) : Option (Removed n × Bins n) :=
  match (List.finRange n).filter fun bin => ¬ Disjoint (bins.packing bin) cluster.txIds with
  | [bin] => do
    let left ← checkedSub (bins.instructions bin) cluster.instructions
    return ({ bin := bin, instructions := cluster.instructions, txIds := cluster.txIds }, {
      packing := Function.update bins.packing bin (bins.packing bin \ cluster.txIds)
      instructions := Function.update bins.instructions bin left })
  | _ => none

def takeClusters (bins : Bins n) : List Cluster → Option (List (Removed n) × Bins n)
  | [] => some ([], bins)
  | cluster :: clusters => do
    let (taken, bins) ← bins.takeCluster cluster
    let (removed, bins) ← bins.takeClusters clusters
    return (taken :: removed, bins)

/-- Revert the removals. -/
def putBack (bins : Bins n) : List (Removed n) → Option (Bins n)
  | [] => some bins
  | taken :: removed => do
    let sum ← checkedAdd (bins.instructions taken.bin) taken.instructions
    putBack {
      packing := Function.update bins.packing taken.bin (bins.packing taken.bin ∪ taken.txIds)
      instructions := Function.update bins.instructions taken.bin sum } removed

end Bins

/-- First-fit-decreasing packing of clusters into new bins. -/
def binPackClusters (clusters : List Cluster) (maxBins maxInstructionsPerBin : Nat) :
    Option (Bins maxBins) :=
  (clusters.insertionSort fun a b => b.instructions ≤ a.instructions).foldlM
    (fun bins cluster => bins.placeFirstFit maxInstructionsPerBin cluster) (Bins.new maxBins)

structure Stage (config : ParallelPartitionConfig) where
  clusters : List Cluster
  /-- The fields `bin_packing` and `bin_instructions`. -/
  bins : Bins config.clustersPerStage
  totalInstructions : Nat
  triedCompactingBinPacking : Bool

namespace Stage

variable {config : ParallelPartitionConfig}

def new (config : ParallelPartitionConfig) : Stage config where
  clusters := []
  bins := Bins.new config.clustersPerStage
  totalInstructions := 0
  triedCompactingBinPacking := false

/-- The clusters a transaction conflicts with; the source passes them by index. -/
def conflicting (stage : Stage config) (tx : BuilderTx) : List Cluster :=
  stage.clusters.filter fun cluster => tx.id ∈ cluster.conflicts

/-- The other clusters and, last, the conflicting ones merged with the transaction.
The inner none: the merged cluster is over the limit of a cluster. -/
def createNewClusters (stage : Stage config) (tx : BuilderTx) :
    Option (Option (List Cluster × Cluster)) := do
  let merged ← (stage.conflicting tx).foldlM Cluster.merge (Cluster.fromTx tx)
  if merged.instructions > config.instructionsPerCluster then return none
  else return some (stage.clusters.filter fun cluster => tx.id ∉ cluster.conflicts, merged)

/-- The bins with the merged cluster in place of the conflicting ones. When no bin has
room the removals are reverted. -/
def tryInPlaceBinPacking (bins : Bins config.clustersPerStage) (newCluster : Cluster)
    (conflicting : List Cluster) : Option (Bool × Bins config.clustersPerStage) := do
  let (removed, emptied) ← bins.takeClusters conflicting
  match emptied.placeFirstFit config.instructionsPerCluster newCluster with
  | some packed => return (true, packed)
  | none =>
    let reverted ← emptied.putBack removed
    return (false, reverted)

def tryAdd (stage : Stage config) (tx : BuilderTx) : Option (Bool × Stage config) :=
  match checkedAdd stage.totalInstructions tx.instructions with
  | none => some (false, stage)
  | some sum => do
    let perStage ← config.instructionsPerStage
    if sum > perStage then return (false, stage)
    match ← stage.createNewClusters tx with
    | none => return (false, stage)
    | some (others, merged) =>
      let (packed, bins) ← tryInPlaceBinPacking stage.bins merged (stage.conflicting tx)
      if packed then
        return (true, { stage with
          clusters := others ++ [merged]
          bins := bins
          totalInstructions := sum })
      -- Without conflicts, a failed compaction is not tried again.
      else if (stage.conflicting tx).isEmpty ∧ stage.triedCompactingBinPacking then
        return (false, { stage with bins := bins })
      else
        match binPackClusters (others ++ [merged]) config.clustersPerStage
            config.instructionsPerCluster with
        | some repacked =>
          return (true, { stage with
            clusters := others ++ [merged]
            bins := repacked
            totalInstructions := sum })
        | none =>
          if (stage.conflicting tx).isEmpty then
            return (false, { stage with bins := bins, triedCompactingBinPacking := true })
          else return (false, { stage with bins := bins })

/-- The ids of the non-empty bins, each in ascending order. -/
def groups (stage : Stage config) : List (List Nat) :=
  ((List.finRange config.clustersPerStage).map fun bin => (stage.bins.packing bin).sort).filter
    fun bin => ¬ bin.isEmpty

end Stage

/-- Offer a transaction to the stages, one after another. -/
def addToStages {config : ParallelPartitionConfig} (tx : BuilderTx) :
    List (Stage config) → Option (Bool × List (Stage config))
  | [] => some (false, [])
  | stage :: stages => do
    let (added, stage) ← stage.tryAdd tx
    if added then return (true, stage :: stages)
    else
      let (added, stages) ← addToStages tx stages
      return (added, stage :: stages)

def feeRate (tx : HashedTx) : FeeRate where
  inclusionFee := tx.inclusionFee
  opCount := max (envelopeOperationCount tx.envelope) 1

/-- The highest fee rate first, and the lowest hash first among equals. -/
def cmpTx (a b : HashedTx) : Ordering :=
  match (feeRate b).cmpRate (feeRate a) with
  | .eq => compare a.hash b.hash
  | other => other

/-- The ids by fee rate. Comparing asserts that fees are not negative, and with two
transactions or more each is compared. -/
def sortedIds (txs : List HashedTx) : Option (List Nat) :=
  if 2 ≤ txs.length ∧ ∃ tx ∈ txs, tx.inclusionFee < 0 then none
  else
    some (((List.finRange txs.length).insertionSort fun a b =>
      cmpTx (txs.get a) (txs.get b) ≠ .gt).map (·.val))

def builderTx (txs : List HashedTx) (tx : HashedTx) (id : Nat) : BuilderTx where
  id := id
  instructions := tx.instructions
  conflicts := detectConflicts txs id

/-- One transaction of the greedy assignment. -/
def assign {config : ParallelPartitionConfig} (txs : List HashedTx)
    (state : List (Stage config) × Int) (id : Nat) : Option (List (Stage config) × Int) := do
  let tx ← txs[id]?
  let (added, stages) ← addToStages (builderTx txs tx id) state.1
  return (stages, if added then saturatingAdd state.2 tx.inclusionFee else state.2)

/-- The stages for a fixed stage count, and the inclusion fee of what is in them. -/
def buildWithStageCount (txs : List HashedTx) (ledgerMaxInstructions : Int)
    (ledgerMaxDependentTxClusters stageCount : Nat) : Option (List (List (List Nat)) × Int) := do
  let config ← ParallelPartitionConfig.new stageCount ledgerMaxInstructions
    ledgerMaxDependentTxClusters
  let ids ← sortedIds txs
  let (stages, fee) ← ids.foldlM (assign txs) (List.replicate stageCount (Stage.new config), 0)
  return ((stages.map Stage.groups).filter fun stage => ¬ stage.isEmpty, fee)

/-- The significand of the double nearest to 0.999; its exponent is -53. -/
def maxInclusionFeeTolerance : Nat := 8998192055486251

/-- A fee times the tolerance in double precision, cut to an integer towards zero. -/
def feeThreshold (maxFee : Int) : Int :=
  let product := Foundation.roundToEven 53
    (Foundation.roundToEven 53 maxFee.natAbs * maxInclusionFeeTolerance)
  maxFee.sign * (product / 2 ^ 53 : Nat)

/-- Keep the attempt with fewer stages, the earlier one among equals. -/
def fewerStages (best : Option (List (List (List Nat))))
    (stages : List (List (List Nat))) : Option (List (List (List Nat))) :=
  match best with
  | none => some stages
  | some held => if stages.length < held.length then some stages else some held

/-- The attempt with the fewest stages among those that pay enough. -/
def bestAttempt (results : List (List (List (List Nat)) × Int)) : List (List (List Nat)) :=
  let maxFee := ((results.map (·.2)).max?).getD 0
  (((results.filter fun result => result.2 ≥ feeThreshold maxFee).map (·.1)).foldl
    fewerStages none).getD []

/-- Move a transaction out of its slot, which must not be empty. -/
def takeSlot (slots : List (Option HashedTx)) (id : Nat) :
    Option (HashedTx × List (Option HashedTx)) :=
  match slots[id]? with
  | some (some tx) => some (tx, slots.set id none)
  | _ => none

/-- Apply a step to each element in turn, with a state passed along. -/
def passAlong {σ α β : Type} (step : σ → α → Option (β × σ)) : σ → List α → Option (List β × σ)
  | state, [] => some ([], state)
  | state, a :: rest => do
    let (b, state) ← step state a
    let (bs, state) ← passAlong step state rest
    return (b :: bs, state)

def buildParallelSorobanPhase (sorobanTxs : List HashedTx) (ledgerMaxInstructions : Int)
    (ledgerMaxDependentTxClusters minStageCount maxStageCount : Nat) :
    Option (List (List (List HashedTx)) × Bool) := do
  if sorobanTxs.isEmpty then return ([], false)
  if ledgerMaxDependentTxClusters = 0 then return ([[sorobanTxs]], false)
  let results ← (List.range' minStageCount (maxStageCount + 1 - minStageCount)).mapM
    (buildWithStageCount sorobanTxs ledgerMaxInstructions ledgerMaxDependentTxClusters)
  let bestIds := bestAttempt results
  let survivingCount := (bestIds.flatten.map List.length).sum
  let (stages, _) ← passAlong (passAlong (passAlong takeSlot)) (sorobanTxs.map some) bestIds
  return (stages, decide (survivingCount < sorobanTxs.length))

end Henyey.TxSet
