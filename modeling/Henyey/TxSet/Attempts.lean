import Henyey.TxSet.Staging

/-!
# One attempt

The greedy assignment for a fixed stage count. Every transaction is in at most one
stage, its fee is counted when it is in one, and a transaction that is in none was
refused by every stage when its turn came.
-/

namespace Henyey.TxSet

open Henyey.TxQueue List

/-- The instructions of the transaction with the id. -/
def weightOf (txs : List HashedTx) (id : Nat) : Nat :=
  ((txs[id]?).map HashedTx.instructions).getD 0

def feeOf (txs : List HashedTx) (id : Nat) : Int :=
  ((txs[id]?).map HashedTx.inclusionFee).getD 0

theorem symmetricMarks_detectConflicts (txs : List HashedTx) :
    SymmetricMarks (detectConflicts txs) :=
  fun _ _ => detectConflicts_symm

/-- Sound stages, no transaction in two of them. -/
structure Staged {config : ParallelPartitionConfig} (txs : List HashedTx)
    (stages : List (Stage config)) : Prop where
  sound : ∀ stage ∈ stages, stage.Sound (weightOf txs) (detectConflicts txs)
  apart : stages.Pairwise fun a b => ∀ id, a.Holds id → ¬ b.Holds id

/-- The transaction is in some stage. -/
def Retained {config : ParallelPartitionConfig} (stages : List (Stage config)) (id : Nat) : Prop :=
  ∃ stage ∈ stages, stage.Holds id

def RefusedBy {config : ParallelPartitionConfig} (stages : List (Stage config)) (tx : BuilderTx) :
    Prop :=
  ∀ stage ∈ stages, ∃ left, stage.tryAdd tx = some (false, left)

/-- The instructions of a stage fit in 64 bits. -/
structure ParallelPartitionConfig.Fits (config : ParallelPartitionConfig) : Prop where
  clusters : 0 < config.clustersPerStage
  perStage : config.instructionsPerCluster * config.clustersPerStage < 2 ^ 64

namespace ParallelPartitionConfig.Fits

variable {config : ParallelPartitionConfig}

theorem instructionsPerStage (hfits : config.Fits) : config.instructionsPerStage =
    some (config.instructionsPerCluster * config.clustersPerStage) :=
  if_pos hfits.perStage

theorem limit_lt (hfits : config.Fits) : config.instructionsPerCluster < 2 ^ 64 :=
  (Nat.le_mul_of_pos_right _ hfits.clusters).trans_lt hfits.perStage

end ParallelPartitionConfig.Fits

section

variable {config : ParallelPartitionConfig} {txs : List HashedTx}

theorem addToStages_spec {stages : List (Stage config)} (hstaged : Staged txs stages)
    (hfits : stages ≠ [] → config.Fits) {id : Nat} {tx : HashedTx} (htx : txs[id]? = some tx)
    (hnew : ¬ Retained stages id) :
    ∃ added stages', addToStages (builderTx txs tx id) stages = some (added, stages') ∧
      Staged txs stages' ∧ stages'.length = stages.length ∧
      (∀ other, Retained stages' other ↔ Retained stages other ∨ added = true ∧ other = id) ∧
      (added = false → RefusedBy stages (builderTx txs tx id)) := by
  induction stages with
  | nil =>
    refine ⟨false, [], rfl, hstaged, rfl, ?_, ?_⟩
    · intro other
      simp [Retained]
    · intro _ stage hstage
      cases hstage
  | cons stage rest ih =>
    obtain ⟨hfirst, hothers⟩ := pairwise_cons.mp hstaged.apart
    have hsound := hstaged.sound stage mem_cons_self
    have hrest : ∀ other ∈ rest, other.Sound (weightOf txs) (detectConflicts txs) :=
      fun other hother => hstaged.sound other (mem_cons_of_mem _ hother)
    have hweight : (builderTx txs tx id).instructions = weightOf txs id := by
      simp [builderTx, weightOf, htx]
    obtain ⟨added, stage', hadd, hsound', hholds⟩ :=
      hsound.tryAdd (symmetricMarks_detectConflicts txs)
        (fun hheld : stage.Holds (builderTx txs tx id).id =>
          hnew ⟨stage, mem_cons_self, hheld⟩) hweight rfl
        (hfits (cons_ne_nil _ _)).instructionsPerStage (hfits (cons_ne_nil _ _)).limit_lt
    have hrestNew : ¬ Retained rest id :=
      fun ⟨other, hother, hheld⟩ => hnew ⟨other, mem_cons_of_mem _ hother, hheld⟩
    cases added with
    | true =>
      refine ⟨true, stage' :: rest, by simp [addToStages, hadd], ⟨?_, ?_⟩, rfl, ?_, by simp⟩
      · intro other hother
        rcases mem_cons.mp hother with rfl | hmem
        · exact hsound'
        · exact hrest other hmem
      · refine pairwise_cons.mpr ⟨?_, hothers⟩
        intro other hother held hheld hboth
        rcases (hholds held).mp hheld with hold | ⟨-, rfl⟩
        · exact hfirst other hother held hold hboth
        · exact hrestNew ⟨other, hother, hboth⟩
      · intro other
        simp only [Retained, exists_mem_cons_iff, hholds, builderTx, true_and]
        exact or_right_comm
    | false =>
      have hsame : ∀ other, stage'.Holds other ↔ stage.Holds other := by
        intro other
        simpa using hholds other
      obtain ⟨added, rest', hadded, hstaged', hlength, hretained, hrefused⟩ :=
        ih ⟨hrest, hothers⟩ (fun _ => hfits (cons_ne_nil _ _)) hrestNew
      refine ⟨added, stage' :: rest', by simp [addToStages, hadd, hadded], ⟨?_, ?_⟩,
        by simp [hlength], ?_, ?_⟩
      · intro other hother
        rcases mem_cons.mp hother with rfl | hmem
        · exact hsound'
        · exact hstaged'.sound other hmem
      · refine pairwise_cons.mpr ⟨?_, hstaged'.apart⟩
        intro other hother held hheld hboth
        rcases (hretained held).mp ⟨other, hother, hboth⟩ with ⟨old, hold, hin⟩ | ⟨-, rfl⟩
        · exact hfirst old hold held ((hsame held).mp hheld) hin
        · exact hnew ⟨stage, mem_cons_self, (hsame held).mp hheld⟩
      · intro other
        have hother := hretained other
        simp only [Retained, exists_mem_cons_iff, hsame] at hother ⊢
        rw [hother, or_assoc]
      · intro hnot other hother
        rcases mem_cons.mp hother with rfl | hmem
        · exact ⟨stage', hadd⟩
        · exact hrefused hnot other hmem

/-- What the greedy assignment has reached after the ids of a list: the accepted ones are
retained and paid for, each other one was refused by the stages it met. -/
structure Reached (txs : List HashedTx) (start : List (Stage config)) (ids : List Nat)
    (stages : List (Stage config)) (fee : Int) (accepted : List Nat) : Prop where
  run : ids.foldlM (assign txs) (start, 0) = some (stages, fee)
  staged : Staged txs stages
  length_eq : stages.length = start.length
  sublist : accepted.Sublist ids
  retained : ∀ id, Retained stages id ↔ id ∈ accepted
  fee_eq : fee = saturate (accepted.map (feeOf txs)).sum
  refused : ∀ id ∈ ids, id ∉ accepted → ∃ earlier later met paid tx,
    ids = earlier ++ id :: later ∧ earlier.foldlM (assign txs) (start, 0) = some (met, paid) ∧
      txs[id]? = some tx ∧ RefusedBy met (builderTx txs tx id)

theorem saturatingAdd_saturate {a b : Int} (ha : 0 ≤ a) (hb : 0 ≤ b) :
    saturatingAdd (saturate a) b = saturate (a + b) := by
  simp only [saturatingAdd, saturate, i64Min, i64Max]
  omega

theorem feeOf_nonneg (hfees : ∀ tx ∈ txs, 0 ≤ tx.inclusionFee) (id : Nat) : 0 ≤ feeOf txs id := by
  unfold feeOf
  cases htx : txs[id]? with
  | none => exact le_rfl
  | some tx => exact hfees tx (mem_of_getElem? htx)

theorem reached_new (txs : List HashedTx) {start : List (Stage config)} (hstaged : Staged txs start)
    (hempty : ∀ id, ¬ Retained start id) : Reached txs start [] start 0 [] where
  run := rfl
  staged := hstaged
  length_eq := rfl
  sublist := List.Sublist.refl _
  retained := fun id => iff_of_false (hempty id) not_mem_nil
  fee_eq := rfl
  refused := by
    intro id hid
    cases hid

/-- One more transaction. -/
theorem Reached.next {start stages : List (Stage config)} {ids accepted : List Nat} {fee : Int}
    (hreached : Reached txs start ids stages fee accepted) (hfits : start ≠ [] → config.Fits)
    (hfees : ∀ tx ∈ txs, 0 ≤ tx.inclusionFee) {id : Nat} {tx : HashedTx} (htx : txs[id]? = some tx)
    (hnew : id ∉ ids) :
    ∃ stages' fee' accepted', Reached txs start (ids ++ [id]) stages' fee' accepted' := by
  have hnotHeld : ¬ Retained stages id :=
    fun hheld => hnew (hreached.sublist.subset ((hreached.retained id).mp hheld))
  obtain ⟨added, stages', hadd, hstaged, hlength, hretained, hrefused⟩ :=
    addToStages_spec hreached.staged
      (fun hstages => hfits fun hempty => hstages (length_eq_zero_iff.mp
        (hreached.length_eq.trans (length_eq_zero_iff.mpr hempty)))) htx hnotHeld
  have hrun : (ids ++ [id]).foldlM (assign txs) (start, 0) =
      some (stages', if added then saturatingAdd fee tx.inclusionFee else fee) := by
    simp [foldlM_append, hreached.run, assign, htx, hadd]
  have hearlier : ∀ other ∈ ids, other ∉ accepted → ∃ earlier later met paid tx,
      ids ++ [id] = earlier ++ other :: later ∧
        earlier.foldlM (assign txs) (start, 0) = some (met, paid) ∧
          txs[other]? = some tx ∧ RefusedBy met (builderTx txs tx other) := by
    intro other hother hnot
    obtain ⟨earlier, later, met, paid, refusedTx, hids, hmet, hrefusedTx, hrefusal⟩ :=
      hreached.refused other hother hnot
    exact ⟨earlier, later ++ [id], met, paid, refusedTx, by simp [hids], hmet, hrefusedTx, hrefusal⟩
  cases added with
  | true =>
    refine ⟨stages', _, accepted ++ [id], hrun, hstaged, hlength.trans hreached.length_eq,
      hreached.sublist.append (List.Sublist.refl _), ?_, ?_, ?_⟩
    · intro other
      rw [hretained, hreached.retained]
      simp
    · have hfee : feeOf txs id = tx.inclusionFee := by simp [feeOf, htx]
      rw [if_pos rfl, hreached.fee_eq, map_append, sum_append, map_singleton, sum_singleton, hfee]
      refine saturatingAdd_saturate (sum_nonneg ?_) (hfees tx (mem_of_getElem? htx))
      intro paid hpaid
      obtain ⟨other, -, rfl⟩ := mem_map.mp hpaid
      exact feeOf_nonneg hfees other
    · intro other hother hnot
      rcases mem_append.mp hother with hold | hlast
      · exact hearlier other hold fun hin => hnot (mem_append_left _ hin)
      · exact absurd (mem_append_right _ hlast) hnot
  | false =>
    refine ⟨stages', fee, accepted, hrun, hstaged, hlength.trans hreached.length_eq,
      hreached.sublist.trans (sublist_append_left _ _), ?_, hreached.fee_eq, ?_⟩
    · intro other
      rw [hretained, hreached.retained]
      simp
    · intro other hother hnot
      rcases mem_append.mp hother with hold | hlast
      · exact hearlier other hold hnot
      · obtain rfl := mem_singleton.mp hlast
        exact ⟨ids, [], stages, fee, tx, rfl, hreached.run, htx, hrefused rfl⟩

/-- The greedy assignment over distinct ids of the list never panics. -/
theorem exists_reached {start : List (Stage config)} (hstaged : Staged txs start)
    (hempty : ∀ id, ¬ Retained start id) (hfits : start ≠ [] → config.Fits)
    (hfees : ∀ tx ∈ txs, 0 ≤ tx.inclusionFee) {ids : List Nat} (hnodup : ids.Nodup)
    (hids : ∀ id ∈ ids, id < txs.length) :
    ∃ stages fee accepted, Reached txs start ids stages fee accepted := by
  induction ids using reverseRecOn with
  | nil => exact ⟨start, 0, [], reached_new txs hstaged hempty⟩
  | append_singleton ids id ih =>
    obtain ⟨hbefore, -, hapart⟩ := nodup_append.mp hnodup
    obtain ⟨stages, fee, accepted, hreached⟩ :=
      ih hbefore fun other hother => hids other (mem_append_left _ hother)
    have hid : id < txs.length := hids id (mem_append_right _ (mem_singleton_self _))
    exact hreached.next hfits hfees (getElem?_eq_getElem hid)
      fun hin => hapart id hin id (mem_singleton_self _) rfl

end

end Henyey.TxSet
