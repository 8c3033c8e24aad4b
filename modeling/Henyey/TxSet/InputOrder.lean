import Henyey.TxSet.Grouping
import Henyey.TxSet.Relabelling

/-!
# The order of the input

Two lists of the same transactions differ by a permutation of their ids. The
transactions are then taken in the same order and marked against the same others, so
the attempts on the two lists group them alike.
-/

namespace Henyey.TxSet

open Henyey.TxQueue List

section

variable {txs others : List HashedTx}

/-- Where a transaction of the one list is in the other. -/
def positionIn (txs others : List HashedTx) (id : Nat) : Nat :=
  match txs[id]? with
  | some tx => others.idxOf tx
  | none => id

theorem getElem?_positionIn (hperm : txs.Perm others) (id : Nat) :
    others[positionIn txs others id]? = txs[id]? := by
  unfold positionIn
  split
  next tx htx =>
    rw [htx]
    exact List.getElem?_idxOf (hperm.mem_iff.mp (mem_of_getElem? htx))
  next hnone =>
    rw [hnone]
    rw [List.getElem?_eq_none_iff] at hnone ⊢
    rwa [← hperm.length_eq]

theorem idxOf_eq {id : Nat} {tx : HashedTx} (hnodup : txs.Nodup) (htx : txs[id]? = some tx) :
    txs.idxOf tx = id := by
  obtain ⟨hlt, rfl⟩ := List.getElem?_eq_some_iff.mp htx
  exact hnodup.idxOf_getElem id hlt

theorem positionIn_positionIn (hperm : txs.Perm others) (hnodup : txs.Nodup) (id : Nat) :
    positionIn others txs (positionIn txs others id) = id := by
  rw [positionIn, getElem?_positionIn hperm]
  cases htx : txs[id]? with
  | some tx => exact idxOf_eq hnodup htx
  | none => simp only [positionIn, htx]

/-- The ids of the two lists, matched. -/
def matching (hperm : txs.Perm others) (hnodup : txs.Nodup) : Equiv.Perm Nat where
  toFun := positionIn txs others
  invFun := positionIn others txs
  left_inv := positionIn_positionIn hperm hnodup
  right_inv := positionIn_positionIn hperm.symm (hperm.nodup_iff.mp hnodup)

end

section

variable {txs others : List HashedTx} {σ : Equiv.Perm Nat}

theorem detectConflicts_relabel (hsame : ∀ id, others[σ id]? = txs[id]?) (id : Nat) :
    detectConflicts others (σ id) = relabel σ (detectConflicts txs id) := by
  ext mark
  obtain ⟨other, rfl⟩ := σ.surjective mark
  rw [mem_relabel]
  by_cases heq : id = other
  · subst heq
    rw [mem_detectConflicts_self, mem_detectConflicts_self, hsame]
  · rw [mem_detectConflicts heq, mem_detectConflicts fun h => heq (σ.injective h), hsame, hsame]

theorem builderTx_relabel (hsame : ∀ id, others[σ id]? = txs[id]?) (tx : HashedTx) (id : Nat) :
    builderTx others tx (σ id) = (builderTx txs tx id).relabel σ := by
  simp [builderTx, BuilderTx.relabel, detectConflicts_relabel hsame]

def relabelState {config : ParallelPartitionConfig} (σ : Equiv.Perm Nat)
    (state : List (Stage config) × Int) : List (Stage config) × Int :=
  (state.1.map (Stage.relabel σ), state.2)

variable {config : ParallelPartitionConfig}

theorem assign_relabel (hsame : ∀ id, others[σ id]? = txs[id]?) (state : List (Stage config) × Int)
    (id : Nat) :
    assign others (relabelState σ state) (σ id) = (assign txs state id).map (relabelState σ) := by
  rw [assign, assign, hsame]
  cases txs[id]? with
  | none => rfl
  | some tx =>
    simp only [Option.bind_eq_bind, Option.bind_some, relabelState, builderTx_relabel hsame,
      addToStages_relabel]
    cases addToStages (builderTx txs tx id) state.1 with
    | none => rfl
    | some found => rfl

theorem rankedIds_eq (hnodup : txs.Nodup) :
    (rankedPositions txs).map (·.val) = (ranked txs).map txs.idxOf := by
  rw [ranked, map_map]
  refine map_congr_left fun position _ => ?_
  exact (idxOf_eq hnodup (List.getElem?_eq_getElem position.isLt)).symm

theorem rankedIds_relabel (hperm : txs.Perm others) (hdistinct : (txs.map (·.hash)).Nodup)
    (hsame : ∀ id, others[σ id]? = txs[id]?) :
    (rankedPositions others).map (·.val) = ((rankedPositions txs).map (·.val)).map σ := by
  have hnodup : txs.Nodup := hdistinct.of_map
  rw [rankedIds_eq hnodup, rankedIds_eq (hperm.nodup_iff.mp hnodup),
    ranked_eq_of_perm hperm hdistinct, map_map]
  refine map_congr_left fun tx htx => ?_
  have hin : tx ∈ txs := hperm.mem_iff.mpr ((ranked_perm others).mem_iff.mp htx)
  refine idxOf_eq (hperm.nodup_iff.mp hnodup) ?_
  rw [Function.comp_apply, hsame]
  exact List.getElem?_idxOf hin

/-- The same ids, relabelled, in some order. -/
def SameGroup (σ : Equiv.Perm Nat) (group other : List Nat) : Prop := other.Perm (group.map σ)

/-- The same groups in each stage. -/
abbrev SameGroups (σ : Equiv.Perm Nat) : List (List Nat) → List (List Nat) → Prop :=
  List.Forall₂ (SameGroup σ)

abbrev SameStages (σ : Equiv.Perm Nat) : List (List (List Nat)) → List (List (List Nat)) → Prop :=
  List.Forall₂ (SameGroups σ)

/-- Dropping elements that are dropped together. -/
theorem forall₂_filter_map {α β γ : Type} {related : β → γ → Prop} {first : α → β} {second : α → γ}
    {keep : β → Bool} {keep' : γ → Bool} (hrelated : ∀ a, related (first a) (second a))
    (hkeep : ∀ b c, related b c → keep b = keep' c) (items : List α) :
    List.Forall₂ related ((items.map first).filter keep) ((items.map second).filter keep') := by
  induction items with
  | nil => exact List.Forall₂.nil
  | cons a rest ih =>
    rw [map_cons, map_cons, filter_cons, filter_cons, ← hkeep _ _ (hrelated a)]
    split
    · exact List.Forall₂.cons (hrelated a) ih
    · exact ih

theorem sameGroup_sort (σ : Equiv.Perm Nat) (ids : BitSet) :
    SameGroup σ ids.sort (TxSet.relabel σ ids).sort := by
  refine (perm_ext_iff_of_nodup (Finset.sort_nodup _ _)
    ((Finset.sort_nodup _ _).map σ.injective)).mpr fun id => ?_
  obtain ⟨old, rfl⟩ := σ.surjective id
  rw [Finset.mem_sort, mem_relabel, mem_map_of_injective σ.injective, Finset.mem_sort]

theorem sameGroups_groups (σ : Equiv.Perm Nat)
    (stage : Stage config) : SameGroups σ stage.groups (stage.relabel σ).groups := by
  refine forall₂_filter_map (fun bin => sameGroup_sort σ (stage.bins.packing bin)) ?_ _
  intro group other hsame
  have hempty : group = [] ↔ other = [] := by
    rw [← length_eq_zero_iff, ← length_eq_zero_iff, hsame.length_eq, length_map]
  simp [hempty]

theorem sameStages_groupsOf (σ : Equiv.Perm Nat) (stages : List (Stage config)) :
    SameStages σ (groupsOf stages) (groupsOf (stages.map (Stage.relabel σ))) := by
  rw [groupsOf, groupsOf, map_map]
  refine forall₂_filter_map (fun stage => sameGroups_groups σ stage) ?_ _
  intro groups other hsame
  have hempty : groups = [] ↔ other = [] := by
    rw [← length_eq_zero_iff, ← length_eq_zero_iff, hsame.length_eq]
  simp [hempty]

theorem buildWithStageCount_relabel (hperm : txs.Perm others) (hdistinct : (txs.map (·.hash)).Nodup)
    (hfees : ∀ tx ∈ txs, 0 ≤ tx.inclusionFee) (hsame : ∀ id, others[σ id]? = txs[id]?)
    {ledgerMaxInstructions : Int} {ledgerMaxDependentTxClusters stageCount : Nat}
    {groups : List (List (List Nat))} {fee : Int}
    (hbuilt : buildWithStageCount txs ledgerMaxInstructions ledgerMaxDependentTxClusters stageCount =
      some (groups, fee)) :
    ∃ groups', buildWithStageCount others ledgerMaxInstructions ledgerMaxDependentTxClusters
      stageCount = some (groups', fee) ∧ SameStages σ groups groups' := by
  have hids := sortedIds_eq hfees
  have hids' : sortedIds others = some (((rankedPositions txs).map (·.val)).map σ) := by
    rw [sortedIds_eq fun tx htx => hfees tx (hperm.mem_iff.mpr htx),
      rankedIds_relabel hperm hdistinct hsame]
  rw [buildWithStageCount] at hbuilt ⊢
  obtain ⟨config, hconfig, hbuilt⟩ := Option.bind_eq_some_iff.mp hbuilt
  rw [hconfig]
  have hstart : (replicate stageCount (Stage.new config), (0 : Int)) =
      relabelState σ (replicate stageCount (Stage.new config), 0) := by
    rw [relabelState, map_replicate, Stage.new_relabel]
  have hrun := foldlM_view (relabelState σ) σ
    (fun (state : List (Stage config) × Int) id => assign_relabel hsame state id)
    ((rankedPositions txs).map (·.val)) (replicate stageCount (Stage.new config), 0)
  rw [← hstart] at hrun
  rw [hids] at hbuilt
  rw [hids']
  simp only [Option.bind_eq_bind, Option.bind_some] at hbuilt ⊢
  rw [hrun]
  obtain ⟨⟨stages, paid⟩, hreached, hbuilt⟩ := Option.bind_eq_some_iff.mp hbuilt
  rw [hreached]
  obtain ⟨rfl, rfl⟩ := Prod.mk.inj (Option.some.inj hbuilt)
  exact ⟨groupsOf (stages.map (Stage.relabel σ)), rfl, sameStages_groupsOf σ stages⟩

/-- Attempts that group alike and pay the same. -/
abbrev SameResult (σ : Equiv.Perm Nat) (a b : List (List (List Nat)) × Int) : Prop :=
  SameStages σ a.1 b.1 ∧ a.2 = b.2

variable {results results' : List (List (List (List Nat)) × Int)}

theorem fees_of_sameResults (hresults : List.Forall₂ (SameResult σ) results results') :
    results.map (·.2) = results'.map (·.2) := by
  induction hresults with
  | nil => rfl
  | cons hhead _ ih => rw [map_cons, map_cons, hhead.2, ih]

variable {held held' : Option (List (List (List Nat)))}

theorem sameStages_fewerStages {stages stages' : List (List (List Nat))}
    (hheld : Option.Rel (SameStages σ) held held') (hstages : SameStages σ stages stages') :
    Option.Rel (SameStages σ) (fewerStages held stages) (fewerStages held' stages') := by
  cases hheld with
  | none => exact Option.Rel.some hstages
  | some hheld =>
    rw [fewerStages, fewerStages, hstages.length_eq, hheld.length_eq]
    split
    · exact Option.Rel.some hstages
    · exact Option.Rel.some hheld

section

variable (hresults : List.Forall₂ (SameResult σ) results results')
include hresults

theorem sameStages_foldl (enough : Int → Bool) (hheld : Option.Rel (SameStages σ) held held') :
    Option.Rel (SameStages σ)
      (((results.filter fun result => enough result.2).map (·.1)).foldl fewerStages held)
      (((results'.filter fun result => enough result.2).map (·.1)).foldl fewerStages held') := by
  induction hresults generalizing held held' with
  | nil => exact hheld
  | cons hhead _ ih =>
    rw [filter_cons, filter_cons, ← hhead.2]
    split
    · exact ih (sameStages_fewerStages hheld hhead.1)
    · exact ih hheld

theorem sameStages_bestAttempt : SameStages σ (bestAttempt results) (bestAttempt results') := by
  have hchosen := sameStages_foldl hresults
    (fun fee => decide (fee ≥ feeThreshold (((results.map (·.2)).max?).getD 0))) Option.Rel.none
  rw [bestAttempt, bestAttempt, ← fees_of_sameResults hresults]
  generalize ((results.filter _).map (·.1)).foldl fewerStages none = chosen at hchosen ⊢
  generalize ((results'.filter _).map (·.1)).foldl fewerStages none = chosen' at hchosen ⊢
  cases hchosen with
  | none => exact List.Forall₂.nil
  | some hsame => exact hsame

end

end

end Henyey.TxSet
