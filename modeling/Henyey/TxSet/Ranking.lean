import Henyey.TxQueue.EntryOrder
import Henyey.TxSet.Builder

/-!
# The order of assignment

Transactions with different hashes are strictly ordered by what they pay per
operation and then by hash, so the order in which they are taken is theirs alone.
-/

namespace Henyey.TxSet

open Henyey.TxQueue

theorem feeRate_opCount_pos (tx : HashedTx) : 0 < (feeRate tx).opCount :=
  Nat.lt_of_lt_of_le Nat.one_pos (le_max_right _ _)

/-- The one transaction is taken before the other. -/
def Ahead (a b : HashedTx) : Prop :=
  (feeRate b).perOp < (feeRate a).perOp ∨ (feeRate a).perOp = (feeRate b).perOp ∧ a.hash ≤ b.hash

theorem cmpTx_ne_gt_iff {a b : HashedTx} : cmpTx a b ≠ .gt ↔ Ahead a b := by
  unfold cmpTx Ahead
  rw [FeeRate.cmpRate_eq_compare (feeRate_opCount_pos b) (feeRate_opCount_pos a)]
  rcases lt_trichotomy (feeRate b).perOp (feeRate a).perOp with hlt | heq | hgt
  · simp [compare_lt_iff_lt.mpr hlt, hlt]
  · simp [heq, compare_le_iff_le]
  · simp [compare_gt_iff_gt.mpr hgt, hgt.not_gt, hgt.ne]

theorem Ahead.trans {a b c : HashedTx} (hab : Ahead a b) (hbc : Ahead b c) : Ahead a c := by
  rcases hab with hab | ⟨hab, hhash⟩
  · rcases hbc with hbc | ⟨hbc, -⟩
    · exact .inl (hbc.trans hab)
    · exact .inl (hbc ▸ hab)
  · rcases hbc with hbc | ⟨hbc, hhash'⟩
    · exact .inl (hab ▸ hbc)
    · exact .inr ⟨hab.trans hbc, hhash.trans hhash'⟩

theorem ahead_total (a b : HashedTx) : Ahead a b ∨ Ahead b a := by
  rcases lt_trichotomy (feeRate a).perOp (feeRate b).perOp with hlt | heq | hgt
  · exact .inr (.inl hlt)
  · rcases le_total a.hash b.hash with hle | hle
    · exact .inl (.inr ⟨heq, hle⟩)
    · exact .inr (.inr ⟨heq.symm, hle⟩)
  · exact .inl (.inl hgt)

theorem Ahead.hash_eq {a b : HashedTx} (hab : Ahead a b) (hba : Ahead b a) : a.hash = b.hash := by
  rcases hab with hlt | ⟨heq, hle⟩
  · rcases hba with hgt | ⟨heq, -⟩
    · exact absurd (hlt.trans hgt) (lt_irrefl _)
    · exact absurd heq hlt.ne
  · rcases hba with hgt | ⟨-, hge⟩
    · exact absurd heq hgt.ne
    · exact le_antisymm hle hge

section

variable {txs : List HashedTx}

/-- The positions in the order of assignment. -/
def rankedPositions (txs : List HashedTx) : List (Fin txs.length) :=
  (List.finRange txs.length).insertionSort fun a b => cmpTx (txs.get a) (txs.get b) ≠ .gt

theorem sortedIds_eq (hfees : ∀ tx ∈ txs, 0 ≤ tx.inclusionFee) :
    sortedIds txs = some ((rankedPositions txs).map (·.val)) := by
  apply if_neg
  rintro ⟨-, tx, htx, hneg⟩
  exact absurd (hfees tx htx) (not_le.mpr hneg)

theorem rankedPositions_perm (txs : List HashedTx) :
    (rankedPositions txs).Perm (List.finRange txs.length) :=
  List.perm_insertionSort _ _

theorem nodup_rankedIds (txs : List HashedTx) : ((rankedPositions txs).map (·.val)).Nodup :=
  List.Nodup.map Fin.val_injective
    ((rankedPositions_perm txs).nodup_iff.mpr (List.nodup_finRange _))

theorem mem_rankedIds {id : Nat} : id ∈ (rankedPositions txs).map (·.val) ↔ id < txs.length := by
  constructor
  · intro hid
    obtain ⟨position, -, rfl⟩ := List.mem_map.mp hid
    exact position.isLt
  · intro hid
    exact List.mem_map.mpr
      ⟨⟨id, hid⟩, (rankedPositions_perm txs).mem_iff.mpr (List.mem_finRange _), rfl⟩

/-- The transactions in the order of assignment. -/
def ranked (txs : List HashedTx) : List HashedTx := (rankedPositions txs).map txs.get

theorem ranked_perm (txs : List HashedTx) : (ranked txs).Perm txs := by
  have hperm := (rankedPositions_perm txs).map txs.get
  rwa [List.map_get_finRange] at hperm

theorem ranked_pairwise (txs : List HashedTx) : (ranked txs).Pairwise Ahead := by
  let before : Fin txs.length → Fin txs.length → Prop :=
    fun a b => cmpTx (txs.get a) (txs.get b) ≠ .gt
  have htotal : Std.Total before :=
    ⟨fun a b => by simpa only [before, cmpTx_ne_gt_iff] using ahead_total _ _⟩
  have htrans : IsTrans _ before :=
    ⟨fun a b c hab hbc => cmpTx_ne_gt_iff.mpr
      ((cmpTx_ne_gt_iff.mp hab).trans (cmpTx_ne_gt_iff.mp hbc))⟩
  have hsorted := List.pairwise_insertionSort before (List.finRange txs.length)
  exact List.pairwise_map.mpr (hsorted.imp fun hab => cmpTx_ne_gt_iff.mp hab)

/-- The order does not depend on the order of the input. -/
theorem ranked_eq_of_perm {others : List HashedTx} (hperm : txs.Perm others)
    (hdistinct : (txs.map (·.hash)).Nodup) : ranked txs = ranked others := by
  have hranked : (ranked txs).Perm (ranked others) :=
    (ranked_perm txs).trans (hperm.trans (ranked_perm others).symm)
  refine hranked.eq_of_pairwise ?_ (ranked_pairwise txs) (ranked_pairwise others)
  intro a b ha hb hab hba
  have ha' : a ∈ txs := (ranked_perm txs).mem_iff.mp ha
  have hb' : b ∈ txs := hperm.mem_iff.mpr ((ranked_perm others).mem_iff.mp hb)
  exact List.inj_on_of_nodup_map hdistinct ha' hb' (hab.hash_eq hba)

end

end Henyey.TxSet
