import Henyey.Scp.Quorum

/-!
# The loops that check slices and prune

The slice check stops as soon as it has counted enough, and the pruning works on a
list in whatever order the nodes of the set come. Neither shows in the result: the
nodes that survive are those of all quorums among the nodes.
-/

namespace Henyey.Scp

open Foundation

variable {N : Type} [DecidableEq N]

def countValidators (threshold : Nat) (nodes : Finset N) : List N → Nat → Option Nat
  | [], count => some count
  | validator :: rest, count =>
    if validator ∈ nodes then
      if threshold ≤ count + 1 then none else countValidators threshold nodes rest (count + 1)
    else countValidators threshold nodes rest count

mutual

def isQuorumSliceInner : ScpQuorumSet N → Finset N → Bool
  | .mk threshold validators innerSets, nodes =>
    if threshold.val = 0 then false
    else
      match countValidators threshold.val nodes validators 0 with
      | none => true
      | some count =>
        match countInnerSets threshold.val innerSets nodes count with
        | none => true
        | some count => decide (threshold.val ≤ count)

def countInnerSets (threshold : Nat) : List (ScpQuorumSet N) → Finset N → Nat → Option Nat
  | [], _, count => some count
  | inner :: rest, nodes, count =>
    if isQuorumSliceInner inner nodes then
      if threshold ≤ count + 1 then none else countInnerSets threshold rest nodes (count + 1)
    else countInnerSets threshold rest nodes count

end

/-- A node is kept if its quorum set is known and has a slice in what remains. -/
def isRetained (getQuorumSet : N → Option (ScpQuorumSet N)) (remaining : List N) (node : N) :
    Bool :=
  match getQuorumSet node with
  | some quorumSet => isQuorumSliceInner quorumSet remaining.toFinset
  | none => false

/-- One round of pruning. -/
def retainRound (getQuorumSet : N → Option (ScpQuorumSet N)) (remaining : List N) : List N :=
  remaining.filter (isRetained getQuorumSet remaining)

/-- Retain nodes until a round drops none. -/
def pruneRemaining (getQuorumSet : N → Option (ScpQuorumSet N)) (remaining : List N) : List N :=
  if (retainRound getQuorumSet remaining).length = remaining.length then
    retainRound getQuorumSet remaining
  else pruneRemaining getQuorumSet (retainRound getQuorumSet remaining)
termination_by remaining.length
decreasing_by
  have hle : (retainRound getQuorumSet remaining).length ≤ remaining.length :=
    List.length_filter_le _ remaining
  omega

/-- The quorum check on nodes that come in some order. -/
def isQuorumOf (quorumSet : ScpQuorumSet N) (nodes : List N)
    (getQuorumSet : N → Option (ScpQuorumSet N)) : Bool :=
  isQuorumSliceInner quorumSet (pruneRemaining getQuorumSet nodes).toFinset

/-! ### The slice check counts -/

variable {threshold count : Nat} {nodes : Finset N}

theorem countValidators_eq (validators : List N) (hcount : count < threshold) :
    countValidators threshold nodes validators count =
      if threshold ≤ count + validators.countP (fun node => node ∈ nodes) then none
      else some (count + validators.countP (fun node => node ∈ nodes)) := by
  induction validators generalizing count with
  | nil =>
    rw [if_neg (by simpa using hcount)]
    rfl
  | cons validator rest ih =>
    unfold countValidators
    rw [List.countP_cons]
    by_cases hmem : validator ∈ nodes
    · rw [if_pos hmem, if_pos (decide_eq_true hmem)]
      by_cases hreached : threshold ≤ count + 1
      · rw [if_pos hreached, if_pos (by omega)]
      · rw [if_neg hreached, ih (by omega), Nat.add_assoc, Nat.add_comm 1]
    · have hnot : ¬decide (validator ∈ nodes) = true := by simpa using hmem
      rw [if_neg hmem, if_neg hnot, ih hcount]
      rfl

mutual

/-- Stopping early does not matter. -/
theorem isQuorumSliceInner_eq (quorumSet : ScpQuorumSet N) (nodes : Finset N) :
    isQuorumSliceInner quorumSet nodes = isQuorumSlice quorumSet nodes := by
  cases quorumSet with
  | mk threshold validators innerSets =>
    unfold isQuorumSliceInner isQuorumSlice
    by_cases hzero : threshold.val = 0
    · rw [if_pos hzero, hzero]
      rfl
    · have hpos : 0 < threshold.val := Nat.pos_of_ne_zero hzero
      have hne : (threshold.val != 0) = true := by simpa using hzero
      rw [if_neg hzero, hne, Bool.true_and, countValidators_eq validators hpos, Nat.zero_add]
      by_cases hreached : threshold.val ≤ validators.countP (fun node => node ∈ nodes)
      · rw [if_pos hreached]
        exact (decide_eq_true (by omega)).symm
      · rw [if_neg hreached]
        have hinner := countInnerSets_eq innerSets nodes (not_le.mp hreached)
        simp only [hinner]
        split
        next hsome =>
          split at hsome
          next hall => exact (decide_eq_true hall).symm
          · cases hsome
        next total hsome =>
          split at hsome
          · cases hsome
          · rw [← Option.some.inj hsome]

theorem countInnerSets_eq {threshold count : Nat} (innerSets : List (ScpQuorumSet N))
    (nodes : Finset N) (hcount : count < threshold) :
    countInnerSets threshold innerSets nodes count =
      if threshold ≤ count + satisfiedInnerSets innerSets nodes then none
      else some (count + satisfiedInnerSets innerSets nodes) := by
  cases innerSets with
  | nil =>
    unfold countInnerSets satisfiedInnerSets
    rw [if_neg (by omega)]
    rfl
  | cons inner rest =>
    unfold countInnerSets satisfiedInnerSets
    rw [isQuorumSliceInner_eq inner nodes]
    by_cases hinner : isQuorumSlice inner nodes = true
    · rw [if_pos hinner, if_pos hinner]
      by_cases hreached : threshold ≤ count + 1
      · rw [if_pos hreached, if_pos (by omega)]
      · rw [if_neg hreached, countInnerSets_eq rest nodes (by omega), Nat.add_assoc]
    · rw [if_neg hinner, if_neg hinner, Nat.zero_add]
      exact countInnerSets_eq rest nodes hcount

end

/-! ### The pruning finds the greatest quorum -/

variable {getQuorumSet : N → Option (ScpQuorumSet N)} {remaining : List N}

theorem isRetained_eq (remaining : List N) (node : N) :
    isRetained getQuorumSet remaining node = sliceInside getQuorumSet remaining.toFinset node := by
  unfold isRetained sliceInside
  cases getQuorumSet node with
  | none => rfl
  | some quorumSet => exact isQuorumSliceInner_eq quorumSet _

/-- A quorum: every member has a known quorum set with a slice among the members. -/
def IsQuorum (getQuorumSet : N → Option (ScpQuorumSet N)) (quorum : Finset N) : Prop :=
  ∀ node ∈ quorum, ∃ quorumSet, getQuorumSet node = some quorumSet ∧
    isQuorumSlice quorumSet quorum = true

theorem closed_iff_isQuorum {quorum : Finset N} :
    Pruning.Closed (sliceInside getQuorumSet) quorum ↔ IsQuorum getQuorumSet quorum := by
  apply forall₂_congr
  intro node _
  unfold sliceInside
  cases getQuorumSet node <;> simp

theorem toFinset_retainRound (remaining : List N) :
    (retainRound getQuorumSet remaining).toFinset =
      Pruning.round (sliceInside getQuorumSet) remaining.toFinset := by
  ext node
  unfold retainRound
  rw [List.mem_toFinset, List.mem_filter, Pruning.mem_round, List.mem_toFinset, isRetained_eq]

theorem isQuorum_pruneRemaining (remaining : List N) :
    IsQuorum getQuorumSet (pruneRemaining getQuorumSet remaining).toFinset := by
  induction remaining using pruneRemaining.induct getQuorumSet with
  | case1 remaining hlength =>
    unfold pruneRemaining
    rw [if_pos hlength]
    have hkept : retainRound getQuorumSet remaining = remaining :=
      List.filter_sublist.eq_of_length hlength
    rw [hkept, ← closed_iff_isQuorum]
    intro node hnode
    rw [← isRetained_eq]
    rw [List.mem_toFinset, ← hkept] at hnode
    exact (List.mem_filter.mp hnode).2
  | case2 remaining hlength ih =>
    unfold pruneRemaining
    rwa [if_neg hlength]

theorem pruneRemaining_subset (remaining : List N) :
    (pruneRemaining getQuorumSet remaining).toFinset ⊆ remaining.toFinset := by
  induction remaining using pruneRemaining.induct getQuorumSet with
  | case1 remaining hlength =>
    unfold pruneRemaining
    rw [if_pos hlength, toFinset_retainRound]
    exact Pruning.round_subset _
  | case2 remaining hlength ih =>
    unfold pruneRemaining
    rw [if_neg hlength]
    apply ih.trans
    rw [toFinset_retainRound]
    exact Pruning.round_subset _

theorem IsQuorum.subset_pruneRemaining {quorum : Finset N} (hquorum : IsQuorum getQuorumSet quorum)
    (remaining : List N) (hsub : quorum ⊆ remaining.toFinset) :
    quorum ⊆ (pruneRemaining getQuorumSet remaining).toFinset := by
  have hround : ∀ {remaining : List N}, quorum ⊆ remaining.toFinset →
      quorum ⊆ (retainRound getQuorumSet remaining).toFinset := by
    intro remaining hsub
    rw [toFinset_retainRound]
    exact (closed_iff_isQuorum.mpr hquorum).subset_round (sliceInside_mono getQuorumSet) hsub
  induction remaining using pruneRemaining.induct getQuorumSet with
  | case1 remaining hlength =>
    unfold pruneRemaining
    rw [if_pos hlength]
    exact hround hsub
  | case2 remaining hlength ih =>
    unfold pruneRemaining
    rw [if_neg hlength]
    exact ih (hround hsub)

theorem mem_pruneRemaining {node : N} :
    node ∈ pruneRemaining getQuorumSet remaining ↔
      ∃ quorum ⊆ remaining.toFinset, IsQuorum getQuorumSet quorum ∧ node ∈ quorum := by
  rw [← List.mem_toFinset]
  constructor
  · intro hnode
    exact ⟨_, pruneRemaining_subset remaining, isQuorum_pruneRemaining remaining, hnode⟩
  · rintro ⟨quorum, hsub, hquorum, hnode⟩
    exact hquorum.subset_pruneRemaining remaining hsub hnode

theorem isQuorumOf_iff (quorumSet : ScpQuorumSet N) (nodes : List N) :
    isQuorumOf quorumSet nodes getQuorumSet = true ↔
      ∃ quorum ⊆ nodes.toFinset, IsQuorum getQuorumSet quorum ∧
        isQuorumSlice quorumSet quorum = true := by
  unfold isQuorumOf
  rw [isQuorumSliceInner_eq]
  constructor
  · intro hslice
    exact ⟨_, pruneRemaining_subset nodes, isQuorum_pruneRemaining nodes, hslice⟩
  · rintro ⟨quorum, hsub, hquorum, hslice⟩
    exact isQuorumSlice_mono quorumSet (hquorum.subset_pruneRemaining nodes hsub) hslice

/-- The rest of the development prunes sets, which is the same. -/
theorem isQuorumOf_eq_isQuorum (quorumSet : ScpQuorumSet N) (nodes : List N)
    (getQuorumSet : N → Option (ScpQuorumSet N)) :
    isQuorumOf quorumSet nodes getQuorumSet = isQuorum quorumSet nodes.toFinset getQuorumSet := by
  rw [Bool.eq_iff_iff, isQuorumOf_iff, isQuorum_iff]
  simp only [closed_iff_isQuorum]

/-- In whatever order the nodes come, the survivors are the union of all quorums among
them, which is the greatest one; the check finds whether a quorum contains a slice, and
more nodes never change that. -/
theorem isQuorum_greatest (quorumSet : ScpQuorumSet N) (getQuorumSet : N → Option (ScpQuorumSet N))
    (nodes : Finset N) :
    (∀ order : List N, order.toFinset = nodes →
      (∀ node, node ∈ pruneRemaining getQuorumSet order ↔
        ∃ quorum ⊆ nodes, IsQuorum getQuorumSet quorum ∧ node ∈ quorum) ∧
      IsQuorum getQuorumSet (pruneRemaining getQuorumSet order).toFinset ∧
      (isQuorumOf quorumSet order getQuorumSet = true ↔
        ∃ quorum ⊆ nodes, IsQuorum getQuorumSet quorum ∧ isQuorumSlice quorumSet quorum = true)) ∧
    ∀ order order' : List N, order.toFinset = nodes → nodes ⊆ order'.toFinset →
      isQuorumOf quorumSet order getQuorumSet = true →
        isQuorumOf quorumSet order' getQuorumSet = true := by
  refine ⟨?_, ?_⟩
  · rintro order rfl
    exact ⟨fun node => mem_pruneRemaining, isQuorum_pruneRemaining order,
      isQuorumOf_iff quorumSet order⟩
  · rintro order order' rfl hsub hquorum
    rw [isQuorumOf_eq_isQuorum] at hquorum ⊢
    exact isQuorum_mono quorumSet hsub hquorum

end Henyey.Scp
