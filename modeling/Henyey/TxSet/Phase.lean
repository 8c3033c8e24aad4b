import Henyey.TxSet.InputOrder

/-!
# The parallel Soroban phase

The phase that is built: every transaction at most once, conflicting transactions of
a stage in one cluster, and the limits kept. None of it depends on the order of the input.
-/

namespace Henyey.TxSet

open Henyey.TxQueue Foundation List

theorem feeThreshold_le {maxFee : Int} (hfee : 0 ≤ maxFee) : feeThreshold maxFee ≤ maxFee := by
  obtain ⟨fee, rfl⟩ := Int.eq_ofNat_of_zero_le hfee
  rcases Nat.eq_zero_or_pos fee with rfl | hpos
  · decide
  have hsign : ((fee : Int)).sign = 1 := Int.sign_eq_one_of_pos (by omega)
  have hfirst := roundToEven_le 53 fee
  have hsecond := roundToEven_le 53 (roundToEven 53 fee * maxInclusionFeeTolerance)
  have hcut := Nat.div_mul_le_self
    (roundToEven 53 (roundToEven 53 fee * maxInclusionFeeTolerance)) (2 ^ 53)
  rw [feeThreshold, Int.natAbs_natCast, hsign, one_mul]
  simp only [maxInclusionFeeTolerance] at hsecond hcut ⊢
  omega

theorem foldl_fewerStages (held : List (List (List Nat)))
    (attempts : List (List (List (List Nat)))) :
    ∃ chosen ∈ held :: attempts, attempts.foldl fewerStages (some held) = some chosen := by
  induction attempts generalizing held with
  | nil => exact ⟨held, mem_cons_self, rfl⟩
  | cons stages rest ih =>
    rw [foldl_cons, fewerStages]
    split
    · obtain ⟨chosen, hchosen, heq⟩ := ih stages
      exact ⟨chosen, mem_cons_of_mem _ hchosen, heq⟩
    · obtain ⟨chosen, hchosen, heq⟩ := ih held
      refine ⟨chosen, ?_, heq⟩
      rcases mem_cons.mp hchosen with rfl | hrest
      · exact mem_cons_self
      · exact mem_cons_of_mem _ (mem_cons_of_mem _ hrest)

variable {results : List (List (List (List Nat)) × Int)}

/-- The attempt that pays most reaches the threshold, so there is one to choose. -/
theorem exists_bestAttempt (hne : results ≠ []) (hfees : ∀ result ∈ results, 0 ≤ result.2) :
    ∃ result ∈ results, bestAttempt results = result.1 := by
  obtain ⟨maxFee, hmax⟩ : ∃ maxFee, (results.map (·.2)).max? = some maxFee := by
    cases hmax : (results.map (·.2)).max? with
    | none =>
      rw [max?_eq_none_iff, map_eq_nil_iff] at hmax
      exact absurd hmax hne
    | some maxFee => exact ⟨maxFee, rfl⟩
  obtain ⟨hattained, -⟩ := max?_eq_some_iff.mp hmax
  obtain ⟨best, hbest, rfl⟩ := mem_map.mp hattained
  have hmaxFee : 0 ≤ best.2 := hfees best hbest
  have hbestEnough : best ∈ results.filter fun result => result.2 ≥ feeThreshold best.2 :=
    mem_filter.mpr ⟨hbest, decide_eq_true (feeThreshold_le hmaxFee)⟩
  rw [bestAttempt, hmax, Option.getD_some]
  generalize hkept : (results.filter fun result => result.2 ≥ feeThreshold best.2) = kept at *
  cases kept with
  | nil => cases hbestEnough
  | cons first rest =>
    obtain ⟨chosen, hchosen, heq⟩ := foldl_fewerStages first.1 (rest.map (·.1))
    have hmem : chosen ∈ (first :: rest).map (·.1) := hchosen
    obtain ⟨result, hresult, rfl⟩ := mem_map.mp hmem
    rw [← hkept] at hresult
    refine ⟨result, (mem_filter.mp hresult).1, ?_⟩
    rw [map_cons, foldl_cons, fewerStages, heq]
    rfl

variable {groups : List (List (List Nat))}

section

variable {α β : Type} {txAt : Nat → HashedTx}

/-- A step moves the transactions of its ids out of their slots, and no other. -/
def Takes (txAt : Nat → HashedTx)
    (step : List (Option HashedTx) → α → Option (β × List (Option HashedTx))) (ids : α → List Nat)
    (view : α → β) : Prop :=
  ∀ slots a, (ids a).Nodup → (∀ id ∈ ids a, slots[id]? = some (some (txAt id))) →
    ∃ slots', step slots a = some (view a, slots') ∧ ∀ id ∉ ids a, slots'[id]? = slots[id]?

theorem takes_takeSlot (txAt : Nat → HashedTx) : Takes txAt takeSlot (fun id => [id]) txAt := by
  intro slots id _ hslots
  refine ⟨slots.set id none, ?_, ?_⟩
  · rw [takeSlot, hslots id (mem_singleton_self id)]
  · intro other hother
    exact List.getElem?_set_ne fun heq => hother (mem_singleton.mpr heq.symm)

theorem Takes.passAlong {step : List (Option HashedTx) → α → Option (β × List (Option HashedTx))}
    {ids : α → List Nat} {view : α → β} (htakes : Takes txAt step ids view) :
    Takes txAt (TxSet.passAlong step) (fun items => items.flatMap ids) (map view) := by
  intro slots items
  induction items generalizing slots with
  | nil =>
    intro _ _
    exact ⟨slots, rfl, fun _ _ => rfl⟩
  | cons a rest ih =>
    intro hnodup hslots
    simp only [flatMap_cons] at hnodup hslots ⊢
    obtain ⟨hhead, htail, hapart⟩ := nodup_append.mp hnodup
    obtain ⟨middle, hstep, hmiddle⟩ :=
      htakes slots a hhead fun id hid => hslots id (mem_append_left _ hid)
    obtain ⟨slots', hrest, hslots'⟩ := ih middle htail fun id hid => by
      rw [hmiddle id fun hin => hapart id hin id hid rfl]
      exact hslots id (mem_append_right _ hid)
    refine ⟨slots', by simp [TxSet.passAlong, hstep, hrest], ?_⟩
    intro id hid
    rw [mem_append, not_or] at hid
    rw [hslots' id hid.2, hmiddle id hid.1]

/-- Every transaction of disjoint groups is taken once. -/
theorem passAlong_groups {txs : List HashedTx}
    (htxAt : ∀ id < txs.length, txs[id]? = some (txAt id)) (hnodup : groups.flatten.flatten.Nodup)
    (hbounded : ∀ id ∈ groups.flatten.flatten, id < txs.length) :
    ∃ slots, passAlong (passAlong (passAlong takeSlot)) (txs.map some) groups =
      some (groups.map (map (map txAt)), slots) := by
  have hone : ∀ cluster : List Nat, cluster.flatMap (fun id => [id]) = cluster :=
    fun cluster => flatMap_singleton' cluster
  have hids : groups.flatMap (fun stage => stage.flatMap fun cluster =>
      cluster.flatMap fun id => [id]) = groups.flatten.flatten := by
    simp only [hone, flatMap_def, map_id', flatten_flatten]
  obtain ⟨slots, htaken, -⟩ := (takes_takeSlot txAt).passAlong.passAlong.passAlong
    (txs.map some) groups (by simpa only [hids] using hnodup) fun id hid => by
      have hin : id ∈ groups.flatten.flatten := hids ▸ hid
      rw [List.getElem?_map, htxAt id (hbounded id hin)]
      rfl
  exact ⟨slots, htaken⟩

end

/-- The inclusion fee of the retained transactions, as an `i64` sums it. -/
def retainedFee (stages : List (List (List HashedTx))) : Int :=
  saturate (stages.flatten.flatten.map HashedTx.inclusionFee).sum

/-- The ids of each group name its transactions. -/
abbrev Names (txs : List HashedTx) : List (List (List Nat)) → List (List (List HashedTx)) → Prop :=
  List.Forall₂ (List.Forall₂ (List.Forall₂ fun id tx => txs[id]? = some tx))

/-- The same transactions in each group. -/
abbrev SameGrouping : List (List (List HashedTx)) → List (List (List HashedTx)) → Prop :=
  List.Forall₂ (List.Forall₂ List.Perm)

/-- What the phase built from some transactions and limits is. -/
structure PhaseSound (txs : List HashedTx) (ledgerMaxInstructions : Int)
    (ledgerMaxDependentTxClusters minStageCount maxStageCount : Nat)
    (stages : List (List (List HashedTx))) (hadTxNotFitting : Bool) : Prop where
  once : stages.flatten.flatten.Nodup
  given : ∀ tx ∈ stages.flatten.flatten, tx ∈ txs
  together : ∀ stage ∈ stages, ∀ t ∈ stage.flatten, ∀ u ∈ stage.flatten, t ≠ u →
    FootprintsConflict t u → ∃ cluster ∈ stage, t ∈ cluster ∧ u ∈ cluster
  width : ∀ stage ∈ stages, stage.length ≤ ledgerMaxDependentTxClusters
  sequential : ((stages.map (longest HashedTx.instructions)).sum : Int) ≤ ledgerMaxInstructions
  notFitting : hadTxNotFitting = true ↔ ∃ tx ∈ txs, tx ∉ stages.flatten.flatten
  chosen : txs ≠ [] → minStageCount ≤ maxStageCount → ∃ stageCount groups,
    minStageCount ≤ stageCount ∧ stageCount ≤ maxStageCount ∧
      buildWithStageCount txs ledgerMaxInstructions ledgerMaxDependentTxClusters stageCount =
        some (groups, retainedFee stages) ∧
      Names txs groups stages ∧
      ∀ id tx, txs[id]? = some tx → tx ∉ stages.flatten.flatten →
        RefusedInTurn txs ledgerMaxInstructions ledgerMaxDependentTxClusters stageCount id

section

variable {txs : List HashedTx} {ledgerMaxInstructions : Int}
  {ledgerMaxDependentTxClusters minStageCount maxStageCount : Nat}

theorem exists_attempts (hmax : 0 ≤ ledgerMaxInstructions)
    (hclusters : 0 < ledgerMaxDependentTxClusters)
    (hfits : ∀ stageCount, minStageCount ≤ stageCount → stageCount ≤ maxStageCount →
      0 < stageCount →
      ledgerMaxInstructions.toNat / stageCount * ledgerMaxDependentTxClusters < 2 ^ 64)
    (hfees : ∀ tx ∈ txs, 0 ≤ tx.inclusionFee) :
    ∃ results, (range' minStageCount (maxStageCount + 1 - minStageCount)).mapM
        (buildWithStageCount txs ledgerMaxInstructions ledgerMaxDependentTxClusters) =
          some results ∧
      List.Forall₂ (fun stageCount result =>
        Attempt txs ledgerMaxInstructions ledgerMaxDependentTxClusters stageCount result.1 result.2)
        (range' minStageCount (maxStageCount + 1 - minStageCount)) results := by
  have hcounts : ∀ stageCount ∈ range' minStageCount (maxStageCount + 1 - minStageCount),
      minStageCount ≤ stageCount ∧ stageCount ≤ maxStageCount := by
    intro stageCount hin
    rw [mem_range'_1] at hin
    omega
  generalize range' minStageCount (maxStageCount + 1 - minStageCount) = counts at hcounts ⊢
  induction counts with
  | nil => exact ⟨[], rfl, List.Forall₂.nil⟩
  | cons stageCount rest ih =>
    obtain ⟨hmin, hle⟩ := hcounts stageCount mem_cons_self
    obtain ⟨groups, fee, hattempt⟩ := exists_attempt hmax hclusters (hfits stageCount hmin hle) hfees
    obtain ⟨results, hresults, hattempts⟩ :=
      ih fun other hother => hcounts other (mem_cons_of_mem _ hother)
    refine ⟨(groups, fee) :: results, ?_, List.Forall₂.cons hattempt hattempts⟩
    rw [mapM_cons, hattempt.run, hresults]
    rfl

/-- The transactions that ids name. -/
def nameAll (txAt : Nat → HashedTx) (groups : List (List (List Nat))) :
    List (List (List HashedTx)) :=
  groups.map (map (map txAt))

theorem flatten_nameAll (txAt : Nat → HashedTx) (groups : List (List (List Nat))) :
    (nameAll txAt groups).flatten.flatten = groups.flatten.flatten.map txAt := by
  rw [nameAll, map_flatten, map_flatten]

variable {groups : List (List (List Nat))} {txAt : Nat → HashedTx}

section

variable (htxAt : ∀ id < txs.length, txs[id]? = some (txAt id))
  (hbounded : ∀ id ∈ groups.flatten.flatten, id < txs.length)
include htxAt hbounded

theorem retainedFee_nameAll :
    retainedFee (nameAll txAt groups) = saturate (groups.flatten.flatten.map (feeOf txs)).sum := by
  rw [retainedFee, flatten_nameAll, map_map]
  congr 2
  refine map_congr_left fun id hid => ?_
  simp [feeOf, htxAt id (hbounded id hid)]

theorem names_nameAll : Names txs groups (nameAll txAt groups) := by
  rw [nameAll, Names, forall₂_map_right_iff, forall₂_same]
  intro stage hstage
  rw [forall₂_map_right_iff, forall₂_same]
  intro cluster hcluster
  rw [forall₂_map_right_iff, forall₂_same]
  intro id hid
  exact htxAt id (hbounded id (mem_flatten_of_mem (mem_flatten_of_mem hstage hcluster) hid))

theorem longest_nameAll :
    (nameAll txAt groups).map (longest HashedTx.instructions) =
      groups.map (longest (weightOf txs)) := by
  rw [nameAll, map_map]
  refine map_congr_left fun stage hstage => ?_
  rw [Function.comp_apply, longest, longest, map_map]
  congr 1
  refine map_congr_left fun cluster hcluster => ?_
  rw [Function.comp_apply, map_map]
  congr 1
  refine map_congr_left fun id hid => ?_
  simp [weightOf, htxAt id (hbounded id
    (mem_flatten_of_mem (mem_flatten_of_mem hstage hcluster) hid))]

end

theorem txAt_injOn (hnodup : txs.Nodup) (htxAt : ∀ id < txs.length, txs[id]? = some (txAt id))
    {i j : Nat} (hi : i < txs.length) (hj : j < txs.length) (heq : txAt i = txAt j) : i = j := by
  rw [← idxOf_eq hnodup (htxAt i hi), ← idxOf_eq hnodup (htxAt j hj), heq]

theorem length_lt_iff_missing {ids : List Nat} {bound : Nat} (hnodup : ids.Nodup)
    (hbounded : ∀ id ∈ ids, id < bound) : ids.length < bound ↔ ∃ id < bound, id ∉ ids := by
  constructor
  · intro hlt
    by_contra hall
    have hsubset : range bound ⊆ ids := by
      intro id hid
      by_contra hnot
      exact hall ⟨id, mem_range.mp hid, hnot⟩
    have hle := (nodup_range.subperm hsubset).length_le
    rw [length_range] at hle
    omega
  · rintro ⟨id, hid, hnot⟩
    have hsubset : id :: ids ⊆ range bound := by
      intro other hother
      rcases mem_cons.mp hother with rfl | hin
      · exact mem_range.mpr hid
      · exact mem_range.mpr (hbounded other hin)
    have hle := ((nodup_cons.mpr ⟨hnot, hnodup⟩).subperm hsubset).length_le
    rw [length_range, length_cons] at hle
    omega

theorem Attempt.phase {stageCount : Nat}
    {fee : Int} (hattempt : Attempt txs ledgerMaxInstructions ledgerMaxDependentTxClusters stageCount
      groups fee) (hnodup : txs.Nodup)
    (htxAt : ∀ id < txs.length, txs[id]? = some (txAt id))
    (hmin : minStageCount ≤ stageCount) (hle : stageCount ≤ maxStageCount) :
    PhaseSound txs ledgerMaxInstructions ledgerMaxDependentTxClusters minStageCount maxStageCount
      (nameAll txAt groups) (decide (((groups.flatten.map length).sum) < txs.length)) := by
  have hmem : ∀ id < txs.length, txAt id ∈ (nameAll txAt groups).flatten.flatten ↔
      id ∈ groups.flatten.flatten := by
    intro id hid
    rw [flatten_nameAll, mem_map]
    constructor
    · rintro ⟨other, hother, heq⟩
      rwa [← txAt_injOn hnodup htxAt (hattempt.bounded other hother) hid heq]
    · intro hin
      exact ⟨id, hin, rfl⟩
  have hfee : retainedFee (nameAll txAt groups) = fee := by
    rw [retainedFee_nameAll htxAt hattempt.bounded, hattempt.fee_eq]
  refine ⟨?_, ?_, ?_, ?_, ?_, ?_, ?_⟩
  · rw [flatten_nameAll]
    refine hattempt.nodup.map_on fun i hi j hj heq => ?_
    exact txAt_injOn hnodup htxAt (hattempt.bounded i hi) (hattempt.bounded j hj) heq
  · intro tx htx
    rw [flatten_nameAll] at htx
    obtain ⟨id, hid, rfl⟩ := mem_map.mp htx
    exact mem_of_getElem? (htxAt id (hattempt.bounded id hid))
  · intro stage hstage t ht u hu hne hconflict
    obtain ⟨ids, hids, rfl⟩ := mem_map.mp hstage
    rw [← map_flatten] at ht hu
    obtain ⟨i, hi, rfl⟩ := mem_map.mp ht
    obtain ⟨j, hj, rfl⟩ := mem_map.mp hu
    have hinside : ∀ id ∈ ids.flatten, id < txs.length := by
      intro id hid
      obtain ⟨cluster, hcluster, hin⟩ := mem_flatten.mp hid
      exact hattempt.bounded id
        (mem_flatten_of_mem (mem_flatten_of_mem hids hcluster) hin)
    have hmark : j ∈ detectConflicts txs i :=
      (mem_detectConflicts fun heq => hne (congrArg txAt heq)).mpr
        ⟨_, _, htxAt i (hinside i hi), htxAt j (hinside j hj), hconflict⟩
    obtain ⟨cluster, hcluster, hboth⟩ := hattempt.together ids hids i hi j hj hmark
    exact ⟨cluster.map txAt, mem_map_of_mem hcluster, mem_map_of_mem hboth.1,
      mem_map_of_mem hboth.2⟩
  · intro stage hstage
    obtain ⟨ids, hids, rfl⟩ := mem_map.mp hstage
    rw [length_map]
    exact hattempt.width ids hids
  · rw [longest_nameAll htxAt hattempt.bounded]
    exact hattempt.sequential
  · rw [decide_eq_true_iff, ← length_flatten, length_lt_iff_missing hattempt.nodup
      hattempt.bounded]
    constructor
    · rintro ⟨id, hid, hnot⟩
      exact ⟨txAt id, mem_of_getElem? (htxAt id hid), fun hin => hnot ((hmem id hid).mp hin)⟩
    · rintro ⟨tx, htx, hnot⟩
      obtain ⟨id, hid, rfl⟩ := getElem_of_mem htx
      have heq : txs[id] = txAt id :=
        Option.some.inj ((List.getElem?_eq_getElem hid).symm.trans (htxAt id hid))
      rw [heq] at hnot
      exact ⟨id, hid, fun hin => hnot ((hmem id hid).mpr hin)⟩
  · intro _ _
    refine ⟨stageCount, groups, hmin, hle, by rw [hattempt.run, hfee],
      names_nameAll htxAt hattempt.bounded, ?_⟩
    intro id tx htx hmissing
    obtain ⟨hid, -⟩ := List.getElem?_eq_some_iff.mp htx
    obtain rfl : tx = txAt id := Option.some.inj (htx.symm.trans (htxAt id hid))
    exact hattempt.refused id hid fun hin => hmissing ((hmem id hid).mpr hin)

/-- Nothing is retained when no stage count is tried, or there is nothing to retain. -/
theorem phaseSound_nil (hmax : 0 ≤ ledgerMaxInstructions)
    (hnone : txs = [] ∨ maxStageCount < minStageCount) :
    PhaseSound txs ledgerMaxInstructions ledgerMaxDependentTxClusters minStageCount maxStageCount
      [] (decide (0 < txs.length)) where
  once := nodup_nil
  given := by
    intro tx htx
    cases htx
  together := by
    intro stage hstage
    cases hstage
  width := by
    intro stage hstage
    cases hstage
  sequential := hmax
  notFitting := by
    rw [decide_eq_true_iff, length_pos_iff_exists_mem]
    simp
  chosen := by
    intro hne hle
    rcases hnone with hempty | hlt
    · exact absurd hempty hne
    · omega

theorem buildParallelSorobanPhase_eq (hne : txs ≠ []) (hclusters : 0 < ledgerMaxDependentTxClusters)
    (hresults : (range' minStageCount (maxStageCount + 1 - minStageCount)).mapM
      (buildWithStageCount txs ledgerMaxInstructions ledgerMaxDependentTxClusters) = some results)
    (htxAt : ∀ id < txs.length, txs[id]? = some (txAt id))
    (hnodup : (bestAttempt results).flatten.flatten.Nodup)
    (hbounded : ∀ id ∈ (bestAttempt results).flatten.flatten, id < txs.length) :
    buildParallelSorobanPhase txs ledgerMaxInstructions ledgerMaxDependentTxClusters
        minStageCount maxStageCount =
      some (nameAll txAt (bestAttempt results),
        decide (((bestAttempt results).flatten.map length).sum < txs.length)) := by
  obtain ⟨slots, hslots⟩ := passAlong_groups htxAt hnodup hbounded
  have hnotEmpty : txs.isEmpty = false := by simpa using hne
  rw [buildParallelSorobanPhase, hnotEmpty, hresults]
  simp [hclusters.ne', hslots, nameAll]

end

section

variable {txs others : List HashedTx} {σ : Equiv.Perm Nat} {ledgerMaxInstructions : Int}
  {ledgerMaxDependentTxClusters minStageCount maxStageCount : Nat}

theorem perm_flatten_of_sameGroups {groups groups' : List (List Nat)}
    (hsame : SameGroups σ groups groups') : groups'.flatten.Perm (groups.flatten.map σ) := by
  induction hsame with
  | nil => exact List.Perm.refl _
  | cons hhead _ ih =>
    rw [flatten_cons, flatten_cons, map_append]
    exact hhead.append ih

variable {groups groups' : List (List (List Nat))}

theorem perm_flatten_of_sameStages (hsame : SameStages σ groups groups') :
    groups'.flatten.flatten.Perm (groups.flatten.flatten.map σ) := by
  induction hsame with
  | nil => exact List.Perm.refl _
  | cons hhead _ ih =>
    rw [flatten_cons, flatten_cons, flatten_append, flatten_append, map_append]
    exact (perm_flatten_of_sameGroups hhead).append ih

theorem sameGrouping_nameAll {txAt txAt' : Nat → HashedTx} (htxAt : ∀ id, txAt' (σ id) = txAt id)
    (hsame : SameStages σ groups groups') :
    SameGrouping (nameAll txAt groups) (nameAll txAt' groups') := by
  rw [nameAll, nameAll, SameGrouping, forall₂_map_left_iff, forall₂_map_right_iff]
  refine hsame.imp fun stage stage' hstage => ?_
  rw [forall₂_map_left_iff, forall₂_map_right_iff]
  refine hstage.imp fun cluster cluster' hcluster => ?_
  have hnames : (cluster.map σ).map txAt' = cluster.map txAt := by
    rw [map_map]
    exact map_congr_left fun id _ => htxAt id
  rw [← hnames]
  exact (hcluster.map txAt').symm

theorem sameResults_of_attempts (hperm : txs.Perm others) (hdistinct : (txs.map (·.hash)).Nodup)
    (hfees : ∀ tx ∈ txs, 0 ≤ tx.inclusionFee) (hsame : ∀ id, others[σ id]? = txs[id]?)
    {counts : List Nat} {results results' : List (List (List (List Nat)) × Int)}
    (hattempts : List.Forall₂ (fun stageCount result => Attempt txs ledgerMaxInstructions
      ledgerMaxDependentTxClusters stageCount result.1 result.2) counts results)
    (hattempts' : List.Forall₂ (fun stageCount result => Attempt others ledgerMaxInstructions
      ledgerMaxDependentTxClusters stageCount result.1 result.2) counts results') :
    List.Forall₂ (SameResult σ) results results' := by
  induction hattempts generalizing results' with
  | nil =>
    cases hattempts'
    exact List.Forall₂.nil
  | cons hhead _ ih =>
    cases hattempts' with
    | cons hhead' hrest' =>
      obtain ⟨groups', hrun, hgroups⟩ :=
        buildWithStageCount_relabel hperm hdistinct hfees hsame hhead.run
      obtain ⟨hgroupsEq, hfeeEq⟩ := Prod.mk.inj (Option.some.inj (hhead'.run.symm.trans hrun))
      exact List.Forall₂.cons ⟨hgroupsEq ▸ hgroups, hfeeEq.symm⟩ (ih hrest')

/-- The chosen attempt is one of them, or none was tried. -/
theorem bestAttempt_cases {counts : List Nat} (hfees : ∀ tx ∈ txs, 0 ≤ tx.inclusionFee)
    (hattempts : List.Forall₂ (fun stageCount result => Attempt txs ledgerMaxInstructions
      ledgerMaxDependentTxClusters stageCount result.1 result.2) counts results) :
    counts = [] ∧ bestAttempt results = [] ∨
      ∃ stageCount ∈ counts, ∃ fee, Attempt txs ledgerMaxInstructions ledgerMaxDependentTxClusters
          stageCount (bestAttempt results) fee := by
  have hsource : ∀ result ∈ results, ∃ stageCount ∈ counts, Attempt txs ledgerMaxInstructions
      ledgerMaxDependentTxClusters stageCount result.1 result.2 := by
    intro result hresult
    obtain ⟨position, hposition, rfl⟩ := getElem_of_mem hresult
    have hlength := hattempts.length_eq
    exact ⟨counts[position], getElem_mem _, hattempts.get (by omega) hposition⟩
  rcases eq_nil_or_concat counts with rfl | hcounts
  · cases hattempts
    exact .inl ⟨rfl, rfl⟩
  · have hne : results ≠ [] := by
      rintro rfl
      cases hattempts
      obtain ⟨rest, last, hnil⟩ := hcounts
      simp at hnil
    obtain ⟨result, hresult, hbest⟩ := exists_bestAttempt hne fun result hresult => by
      obtain ⟨stageCount, -, hattempt⟩ := hsource result hresult
      rw [hattempt.fee_eq]
      refine le_max_of_le_right (le_min (by decide) (sum_nonneg ?_))
      intro fee hfee
      obtain ⟨id, -, rfl⟩ := mem_map.mp hfee
      exact feeOf_nonneg hfees id
    obtain ⟨stageCount, hcount, hattempt⟩ := hsource result hresult
    exact .inr ⟨stageCount, hcount, result.2, hbest ▸ hattempt⟩

theorem exists_built (hne : txs ≠ []) (hfees : ∀ tx ∈ txs, 0 ≤ tx.inclusionFee)
    (hmax : 0 ≤ ledgerMaxInstructions) (hclusters : 0 < ledgerMaxDependentTxClusters)
    (hfits : ∀ stageCount, minStageCount ≤ stageCount → stageCount ≤ maxStageCount →
      0 < stageCount →
      ledgerMaxInstructions.toNat / stageCount * ledgerMaxDependentTxClusters < 2 ^ 64) :
    ∃ results,
      List.Forall₂ (fun stageCount result => Attempt txs ledgerMaxInstructions
        ledgerMaxDependentTxClusters stageCount result.1 result.2)
        (range' minStageCount (maxStageCount + 1 - minStageCount)) results ∧
      ∀ txAt : Nat → HashedTx, (∀ id < txs.length, txs[id]? = some (txAt id)) →
        buildParallelSorobanPhase txs ledgerMaxInstructions ledgerMaxDependentTxClusters
            minStageCount maxStageCount =
          some (nameAll txAt (bestAttempt results),
            decide (((bestAttempt results).flatten.map length).sum < txs.length)) := by
  obtain ⟨results, hresults, hattempts⟩ := exists_attempts hmax hclusters hfits hfees
  refine ⟨results, hattempts, fun txAt htxAt => ?_⟩
  rcases bestAttempt_cases hfees hattempts with ⟨-, hnone⟩ | ⟨stageCount, -, fee, hattempt⟩
  · refine buildParallelSorobanPhase_eq hne hclusters hresults htxAt ?_ ?_
    · rw [hnone]
      exact nodup_nil
    · rw [hnone]
      intro id hid
      cases hid
  · exact buildParallelSorobanPhase_eq hne hclusters hresults htxAt hattempt.nodup hattempt.bounded

/-- The parallel phase: built without a panic, sound, and the same for every order of the
input. -/
theorem buildParallelSorobanPhase_sound (hdistinct : (txs.map (·.hash)).Nodup)
    (hfees : ∀ tx ∈ txs, 0 ≤ tx.inclusionFee) (hmax : 0 ≤ ledgerMaxInstructions)
    (hclusters : 0 < ledgerMaxDependentTxClusters)
    (hfits : ∀ stageCount, minStageCount ≤ stageCount → stageCount ≤ maxStageCount →
      0 < stageCount →
      ledgerMaxInstructions.toNat / stageCount * ledgerMaxDependentTxClusters < 2 ^ 64) :
    ∃ stages hadTxNotFitting,
      buildParallelSorobanPhase txs ledgerMaxInstructions ledgerMaxDependentTxClusters
        minStageCount maxStageCount = some (stages, hadTxNotFitting) ∧
      PhaseSound txs ledgerMaxInstructions ledgerMaxDependentTxClusters
        minStageCount maxStageCount stages hadTxNotFitting ∧
      ∀ others, txs.Perm others → ∃ stages',
        buildParallelSorobanPhase others ledgerMaxInstructions ledgerMaxDependentTxClusters
          minStageCount maxStageCount = some (stages', hadTxNotFitting) ∧
        SameGrouping stages stages' := by
  cases htxs : txs with
  | nil =>
    refine ⟨[], false, rfl, ?_, ?_⟩
    · exact phaseSound_nil hmax (.inl rfl)
    · intro others hperm
      obtain rfl := hperm.nil_eq
      exact ⟨[], rfl, List.Forall₂.nil⟩
  | cons head rest =>
    rw [← htxs]
    have hne : txs ≠ [] := by simp [htxs]
    let txAt : Nat → HashedTx := fun id => txs.getD id head
    have htxAt : ∀ id < txs.length, txs[id]? = some (txAt id) := by
      intro id hid
      simp [txAt, List.getElem?_eq_getElem hid]
    have hnodup : txs.Nodup := hdistinct.of_map
    obtain ⟨results, hattempts, hbuilt⟩ := exists_built hne hfees hmax hclusters hfits
    refine ⟨_, _, hbuilt txAt htxAt, ?_, ?_⟩
    · rcases bestAttempt_cases hfees hattempts with
        ⟨hcounts, hnone⟩ | ⟨stageCount, hcount, fee, hattempt⟩
      · have hlt : maxStageCount < minStageCount := by
          have hlength := congrArg length hcounts
          rw [length_range', length_nil] at hlength
          omega
        rw [hnone]
        exact phaseSound_nil hmax (.inr hlt)
      · rw [mem_range'_1] at hcount
        exact hattempt.phase hnodup htxAt hcount.1 (by omega)
    · intro others hperm
      have hsame : ∀ id, others[matching hperm hnodup id]? = txs[id]? := getElem?_positionIn hperm
      let txAt' : Nat → HashedTx := fun id => others.getD id head
      have htxAt' : ∀ id < others.length, others[id]? = some (txAt' id) := by
        intro id hid
        simp [txAt', List.getElem?_eq_getElem hid]
      have hnames : ∀ id, txAt' (matching hperm hnodup id) = txAt id := by
        intro id
        simp only [txAt, txAt', getD_eq_getElem?_getD, hsame]
      obtain ⟨results', hattempts', hbuilt'⟩ := exists_built
        (fun hempty : others = [] =>
          hne (length_eq_zero_iff.mp (by rw [hperm.length_eq, hempty]; rfl)))
        (fun tx htx => hfees tx (hperm.mem_iff.mpr htx)) hmax hclusters hfits
      have hbest := sameStages_bestAttempt
        (sameResults_of_attempts hperm hdistinct hfees hsame hattempts hattempts')
      refine ⟨nameAll txAt' (bestAttempt results'), ?_, sameGrouping_nameAll hnames hbest⟩
      rw [hbuilt' txAt' htxAt', ← length_flatten, ← length_flatten,
        (perm_flatten_of_sameStages hbest).length_eq, length_map, hperm.length_eq]

end

/-- A transaction that writes a key of its own. -/
def bidder (hash fee instructions : Nat) (resourceFee : Int) : HashedTx where
  hash := hash
  envelope := .tx {
    sourceAccount := hash
    fee := fee
    seqNum := 1
    operations := [.invokeHostFunction]
    sorobanData := some {
      archivedSorobanEntries := none
      resources := {
        readOnly := []
        readWrite := [{ isSorobanKey := true, body := hash }]
        instructions := instructions
        diskReadBytes := 0
        writeBytes := 0 }
      resourceFee := resourceFee }
    body := 0 }

/-- A large transaction that fits one stage, and two small ones that fit two. -/
def largeAndSmall : List HashedTx := [bidder 1 998 6 0, bidder 2 500 5 0, bidder 3 499 5 0]

theorem buildParallelSorobanPhase_sound_largeAndSmall :
    ∃ stages hadTxNotFitting,
      buildParallelSorobanPhase largeAndSmall 10 1 1 2 = some (stages, hadTxNotFitting) ∧
      PhaseSound largeAndSmall 10 1 1 2 stages hadTxNotFitting ∧
      ∀ others, largeAndSmall.Perm others → ∃ stages',
        buildParallelSorobanPhase others 10 1 1 2 = some (stages', hadTxNotFitting) ∧
        SameGrouping stages stages' := by
  refine buildParallelSorobanPhase_sound (by decide) (by decide) (by decide) (by decide) ?_
  intro stageCount _ _ _
  have hle : (10 : Int).toNat / stageCount ≤ 10 := Nat.div_le_self 10 stageCount
  omega

/-- Limits whose product does not fit in 64 bits and a negative inclusion fee make the builder
panic. -/
theorem buildParallelSorobanPhase_panics :
    buildParallelSorobanPhase [bidder 1 998 6 0] i64Max 3 1 1 = none ∧
      buildParallelSorobanPhase [bidder 1 998 6 0, bidder 2 500 5 501] 10 1 1 1 = none := by
  constructor <;> decide +kernel

end Henyey.TxSet
