import Henyey.Foundation.Cheapest
import Henyey.Scp.Blocking

/-!
# The closest blocking set

How many of the given nodes have to fail until the quorum set is blocked: the search
counts the members that are blocked already, takes direct validators as far as they
go, and then the inner sets that are cheapest to block.
-/

namespace Henyey.Scp

open Foundation List

variable {N : Type}

/-- Shorter solutions first, then those found earlier. -/
def internalLe (a b : Nat × Nat × List N) : Prop :=
  a.1 < b.1 ∨ (a.1 = b.1 ∧ a.2.1 ≤ b.2.1)

instance (a b : Nat × Nat × List N) : Decidable (internalLe a b) :=
  inferInstanceAs (Decidable (_ ∨ _))

instance : IsTrans (Nat × Nat × List N) internalLe where
  trans a b c hab hbc := by
    unfold internalLe at hab hbc ⊢
    omega

instance : Std.Total (internalLe (N := N)) where
  total a b := by
    unfold internalLe
    omega

/-- Take solutions of inner sets while more members have to be blocked. -/
def takeInternals : List (Nat × Nat × List N) → Int → List N
  | [], _ => []
  | (_, _, found) :: rest, left =>
    if left ≠ 0 then found ++ takeInternals rest (left - 1) else []

theorem countP_innerNodes (innerSets : List (ScpQuorumSet N)) (test : N → Bool) :
    (innerNodes innerSets).countP test =
      (innerSets.map fun inner => (allNodes inner).countP test).sum := by
  induction innerSets with
  | nil => rfl
  | cons inner rest ih =>
    unfold innerNodes
    rw [countP_append, ih, map_cons, sum_cons]

theorem nodup_allNodes_of_mem {innerSets : List (ScpQuorumSet N)}
    (hnodup : (innerNodes innerSets).Nodup) {inner : ScpQuorumSet N} (hmem : inner ∈ innerSets) :
    (allNodes inner).Nodup := by
  induction innerSets with
  | nil => cases hmem
  | cons first rest ih =>
    unfold innerNodes at hnodup
    obtain ⟨hhead, htail, -⟩ := nodup_append.mp hnodup
    rcases mem_cons.mp hmem with rfl | hmem
    · exact hhead
    · exact ih htail hmem

variable [DecidableEq N]

/-- Go through the validators: those among the nodes can be taken, the others are
blocked already. `none` if nothing is left to block. -/
def scanValidators (nodes : Finset N) (excluded : Option N) :
    List N → Int → List N → Option (Int × List N)
  | [], left, res => some (left, res)
  | validator :: rest, left, res =>
    if excluded = some validator then scanValidators nodes excluded rest left res
    else if validator ∈ nodes then scanValidators nodes excluded rest left (res ++ [validator])
    else if left - 1 = 0 then none
    else scanValidators nodes excluded rest (left - 1) res

mutual

def findClosestVBlocking (nodes : Finset N) (excluded : Option N) : ScpQuorumSet N → List N
  | .mk threshold validators innerSets =>
    let leftTillBlock : Int := 1 + validators.length + innerSets.length - threshold.val
    if leftTillBlock ≤ 0 then []
    else
      match scanValidators nodes excluded validators leftTillBlock [] with
      | none => []
      | some (left, res) =>
        match scanInnerSets nodes excluded innerSets 0 left [] with
        | none => []
        | some (left, internals) =>
          let res := if left.toNat < res.length then res.take left.toNat else res
          res ++ takeInternals (internals.insertionSort internalLe) (left - res.length)

/-- Go through the inner sets, with the index of the next one. -/
def scanInnerSets (nodes : Finset N) (excluded : Option N) :
    List (ScpQuorumSet N) → Nat → Int → List (Nat × Nat × List N) →
      Option (Int × List (Nat × Nat × List N))
  | [], _, left, internals => some (left, internals)
  | inner :: rest, index, left, internals =>
    let found := findClosestVBlocking nodes excluded inner
    if found.isEmpty then
      if left - 1 = 0 then none
      else scanInnerSets nodes excluded rest (index + 1) (left - 1) internals
    else
      scanInnerSets nodes excluded rest (index + 1) left
        (internals ++ [(found.length, index, found)])

end

/-! ### What the loops do -/

variable {nodes : Finset N}

theorem scanValidators_eq (validators : List N) (left : Nat) (hleft : 1 ≤ left) (res : List N) :
    scanValidators nodes none validators left res =
      if left ≤ validators.countP (fun node => node ∉ nodes) then none
      else some (((left - validators.countP (fun node => node ∉ nodes) : Nat) : Int),
        res ++ validators.filter fun node => node ∈ nodes) := by
  induction validators generalizing left res with
  | nil =>
    unfold scanValidators
    rw [countP_nil, if_neg (by omega)]
    simp
  | cons validator rest ih =>
    unfold scanValidators
    rw [if_neg (by simp), countP_cons, filter_cons]
    by_cases hmem : validator ∈ nodes
    · rw [if_pos hmem, ih left hleft]
      simp [hmem]
    · rw [if_neg hmem]
      simp only [hmem, not_false_eq_true, decide_true, if_true, decide_false,
        Bool.false_eq_true, if_false]
      by_cases hlast : left = 1
      · rw [if_pos (by omega), if_pos (by omega)]
      · rw [if_neg (by omega), show (left : Int) - 1 = (left - 1 : Nat) by omega,
          ih (left - 1) (by omega)]
        by_cases hreached : left - 1 ≤ rest.countP fun node => node ∉ nodes
        · rw [if_pos hreached, if_pos (by omega)]
        · rw [if_neg hreached, if_neg (by omega)]
          refine congrArg some (Prod.ext ?_ rfl)
          simp only
          omega

def openSolutions (nodes : Finset N) (innerSets : List (ScpQuorumSet N)) : List (List N) :=
  (innerSets.map (findClosestVBlocking nodes none)).filter (!·.isEmpty)

/-- How many inner sets are blocked already. -/
def solvedInner (nodes : Finset N) (innerSets : List (ScpQuorumSet N)) : Nat :=
  innerSets.countP fun inner => (findClosestVBlocking nodes none inner).isEmpty

theorem scanInnerSets_eq (innerSets : List (ScpQuorumSet N)) (index left : Nat) (hleft : 1 ≤ left)
    (internals : List (Nat × Nat × List N)) :
    (left ≤ solvedInner nodes innerSets ∧
      scanInnerSets nodes none innerSets index left internals = none) ∨
    (solvedInner nodes innerSets < left ∧ ∃ added,
      scanInnerSets nodes none innerSets index left internals =
        some (((left - solvedInner nodes innerSets : Nat) : Int), internals ++ added) ∧
      added.map (·.2.2) = openSolutions nodes innerSets ∧
      ∀ internal ∈ added, internal.1 = internal.2.2.length) := by
  induction innerSets generalizing index left internals with
  | nil =>
    refine .inr ⟨hleft, [], ?_, rfl, nofun⟩
    rw [scanInnerSets, append_nil]
    rfl
  | cons inner rest ih =>
    rw [scanInnerSets]
    unfold solvedInner openSolutions at ih ⊢
    rw [countP_cons, map_cons, filter_cons]
    cases hfound : (findClosestVBlocking nodes none inner).isEmpty with
    | true =>
      simp only [if_true, Bool.not_true, Bool.false_eq_true, if_false]
      by_cases hlast : left = 1
      · exact .inl ⟨by omega, if_pos (by omega)⟩
      · rw [if_neg (by omega), show (left : Int) - 1 = (left - 1 : Nat) by omega]
        rcases ih (index + 1) (left - 1) (by omega) internals with
          ⟨hle, hnone⟩ | ⟨hlt, added, hsome, hadded, hlength⟩
        · exact .inl ⟨by omega, hnone⟩
        · refine .inr ⟨by omega, added, ?_, hadded, hlength⟩
          rw [hsome]
          refine congrArg some (Prod.ext ?_ rfl)
          simp only
          omega
    | false =>
      simp only [Bool.false_eq_true, if_false, Bool.not_false, if_true, Nat.add_zero]
      rcases ih (index + 1) left hleft (internals ++
          [((findClosestVBlocking nodes none inner).length, index,
            findClosestVBlocking nodes none inner)]) with
        ⟨hle, hnone⟩ | ⟨hlt, added, hsome, hadded, hlength⟩
      · exact .inl ⟨hle, hnone⟩
      · refine .inr ⟨hlt, ((findClosestVBlocking nodes none inner).length, index,
          findClosestVBlocking nodes none inner) :: added, ?_, ?_, ?_⟩
        · rw [hsome, append_assoc]
          rfl
        · rw [map_cons, hadded]
        · intro internal hmem
          rcases mem_cons.mp hmem with rfl | hmem
          · rfl
          · exact hlength internal hmem

omit [DecidableEq N] in
theorem takeInternals_eq (internals : List (Nat × Nat × List N)) (left : Nat) :
    takeInternals internals left = ((internals.map (·.2.2)).take left).flatten := by
  induction internals generalizing left with
  | nil => simp [takeInternals]
  | cons internal rest ih =>
    obtain ⟨length, index, found⟩ := internal
    unfold takeInternals
    cases left with
    | zero => simp
    | succ left =>
      rw [if_pos (by omega), show ((left + 1 : Nat) : Int) - 1 = (left : Nat) by omega, ih]
      simp

/-- The direct validators that can be taken. -/
def takable (nodes : Finset N) (validators : List N) : List N :=
  validators.filter fun node => node ∈ nodes

/-- The search in terms of its parts: enough members are blocked already, or the rest
is taken, from the inner sets the cheapest. -/
theorem findClosestVBlocking_mk {threshold : U32} {validators : List N}
    {innerSets : List (ScpQuorumSet N)}
    (hthreshold : threshold.val ≤ validators.length + innerSets.length) :
    let missing := validators.length + innerSets.length + 1 - threshold.val
    let blocked := validators.countP (fun node => node ∉ nodes) + solvedInner nodes innerSets
    (missing ≤ blocked ∧
      findClosestVBlocking nodes none (.mk threshold validators innerSets) = []) ∨
    (blocked < missing ∧ ∃ solutions : List (List N),
      solutions.Perm (openSolutions nodes innerSets) ∧
      (solutions.map length).Pairwise (· ≤ ·) ∧
      findClosestVBlocking nodes none (.mk threshold validators innerSets) =
        (takable nodes validators).take (missing - blocked) ++
          (solutions.take (missing - blocked -
            min (missing - blocked) (takable nodes validators).length)).flatten) := by
  intro missing blocked
  have hcast : (1 + validators.length + innerSets.length - threshold.val : Int) =
      (missing : Nat) := by
    omega
  rw [findClosestVBlocking]
  simp only [hcast]
  rw [if_neg (by omega), scanValidators_eq validators missing (by omega)]
  by_cases hdirect : missing ≤ validators.countP fun node => node ∉ nodes
  · rw [if_pos hdirect]
    exact .inl ⟨by omega, rfl⟩
  · rw [if_neg hdirect]
    simp only [nil_append]
    rcases @scanInnerSets_eq N _ nodes innerSets 0
        (missing - validators.countP fun node => node ∉ nodes) (by omega) [] with
      ⟨hle, hnone⟩ | ⟨hlt, added, hsome, hadded, hlength⟩
    · rw [hnone]
      exact .inl ⟨by omega, rfl⟩
    · rw [hsome]
      have hperm := perm_insertionSort internalLe added
      have hsorted := pairwise_insertionSort internalLe added
      refine .inr ⟨by omega, (added.insertionSort internalLe).map (·.2.2), ?_, ?_, ?_⟩
      · rw [← hadded]
        exact hperm.map _
      · rw [map_map, pairwise_map]
        refine hsorted.imp_of_mem fun {a b} ha hb hle => ?_
        have hlengthA := hlength a (hperm.mem_iff.mp ha)
        have hlengthB := hlength b (hperm.mem_iff.mp hb)
        unfold internalLe at hle
        simp only [Function.comp_apply]
        omega
      · have hleft : missing - validators.countP (fun node => node ∉ nodes) -
            solvedInner nodes innerSets = missing - blocked := by omega
        simp only [nil_append, hleft, Int.toNat_natCast]
        change (if missing - blocked < (takable nodes validators).length then
            (takable nodes validators).take (missing - blocked) else takable nodes validators) ++
          takeInternals _ (((missing - blocked : Nat) : Int) -
            (if missing - blocked < (takable nodes validators).length then
              (takable nodes validators).take (missing - blocked)
              else takable nodes validators).length) = _
        have htake : (if missing - blocked < (takable nodes validators).length then
            (takable nodes validators).take (missing - blocked) else takable nodes validators) =
              (takable nodes validators).take (missing - blocked) := by
          split
          · rfl
          next hlong => exact (take_of_length_le (not_lt.mp hlong)).symm
        rw [htake, length_take]
        have hcount : ((missing - blocked : Nat) : Int) -
            (min (missing - blocked) (takable nodes validators).length : Nat) =
              (missing - blocked -
                min (missing - blocked) (takable nodes validators).length : Nat) := by
          omega
        rw [hcount, takeInternals_eq]

/-! ### The search is exact -/

/-- The result blocks with what is outside the nodes, it consists of nodes, and no other
nodes that block are fewer. -/
structure Closest (nodes outside : Finset N) (quorumSet : ScpQuorumSet N) (found : List N) :
    Prop where
  nodup : found.Nodup
  within : ∀ node ∈ found, node ∈ nodes ∧ node ∈ allNodes quorumSet
  blocks : isVBlocking quorumSet (outside ∪ found.toFinset) = true
  least : ∀ other ⊆ nodes, isVBlocking quorumSet (outside ∪ other) = true →
    found.length ≤ (allNodes quorumSet).countP fun node => node ∈ other

variable {outside : Finset N} {quorumSet : ScpQuorumSet N} {found : List N}

theorem Closest.eq_nil_iff (hclosest : Closest nodes outside quorumSet found) :
    found = [] ↔ isVBlocking quorumSet outside = true := by
  constructor
  · rintro rfl
    have hblocks := hclosest.blocks
    rwa [toFinset_nil, Finset.union_empty] at hblocks
  · intro hblocks
    have hleast := hclosest.least ∅ (Finset.empty_subset _) (by rwa [Finset.union_empty])
    apply eq_nil_of_length_eq_zero
    simpa using hleast

theorem nodup_flatten_openSolutions (innerSets : List (ScpQuorumSet N))
    (hnodup : (innerNodes innerSets).Nodup) (hclosest : ∀ inner ∈ innerSets,
      Closest nodes outside inner (findClosestVBlocking nodes none inner)) :
    (openSolutions nodes innerSets).flatten.Nodup ∧
      ∀ node ∈ (openSolutions nodes innerSets).flatten,
        node ∈ nodes ∧ node ∈ innerNodes innerSets := by
  have hflatten : (openSolutions nodes innerSets).flatten =
      (innerSets.map (findClosestVBlocking nodes none)).flatten := by
    unfold openSolutions
    exact flatten_filter_not_isEmpty
  rw [hflatten]
  clear hflatten
  induction innerSets with
  | nil => simp
  | cons inner rest ih =>
    unfold innerNodes at hnodup ⊢
    obtain ⟨-, hrest, hdisjoint⟩ := nodup_append.mp hnodup
    obtain ⟨hhead, htail⟩ := forall_mem_cons.mp hclosest
    obtain ⟨ihnodup, ihwithin⟩ := ih hrest htail
    rw [map_cons, flatten_cons]
    constructor
    · refine nodup_append.mpr ⟨hhead.nodup, ihnodup, fun a ha b hb => ?_⟩
      exact hdisjoint a (hhead.within a ha).2 b (ihwithin b hb).2
    · intro node hnode
      rcases mem_append.mp hnode with hnode | hnode
      · exact ⟨(hhead.within node hnode).1, mem_append_left _ (hhead.within node hnode).2⟩
      · exact ⟨(ihwithin node hnode).1, mem_append_right _ (ihwithin node hnode).2⟩

/-- Members that are blocked already, or by nodes that are taken. -/
theorem countP_union_outside {validators : List N} {other : Finset N}
    (houtside : ∀ node ∈ validators, node ∈ outside ↔ node ∉ nodes) (hother : other ⊆ nodes) :
    validators.countP (fun node => node ∈ outside ∪ other) =
      validators.countP (fun node => node ∉ nodes) +
        validators.countP fun node => node ∈ other := by
  induction validators with
  | nil => rfl
  | cons validator rest ih =>
    obtain ⟨hhead, htail⟩ := forall_mem_cons.mp houtside
    rw [countP_cons, countP_cons, countP_cons, ih htail]
    simp only [Finset.mem_union, hhead, decide_eq_true_eq]
    by_cases hnode : validator ∈ nodes
    · simp only [hnode, not_true_eq_false, false_or, if_false]
      omega
    · have hnot : validator ∉ other := fun h => hnode (hother h)
      simp only [hnode, hnot, not_false_eq_true, or_false, if_true, if_false]
      omega

theorem length_takable (validators : List N) :
    validators.length = validators.countP (fun node => node ∉ nodes) +
      (takable nodes validators).length := by
  unfold takable
  have hsplit := length_eq_countP_add_countP (fun node => decide (node ∈ nodes))
    (l := validators)
  rw [← countP_eq_length_filter]
  simp only [decide_eq_true_eq] at hsplit
  omega

section

variable (innerSets : List (ScpQuorumSet N))
include innerSets

theorem length_openSolutions :
    innerSets.length = solvedInner nodes innerSets + (openSolutions nodes innerSets).length := by
  unfold solvedInner openSolutions
  have hsplit := length_eq_countP_add_countP
    (fun inner => (findClosestVBlocking nodes none inner).isEmpty) (l := innerSets)
  rw [← countP_eq_length_filter, countP_map]
  rw [hsplit]
  congr 1
  refine countP_congr fun inner _ => ?_
  simp

theorem countP_inner_le (other : Finset N) :
    (innerSets.countP fun inner => isVBlocking inner (outside ∪ other)) ≤
      solvedInner nodes innerSets + innerSets.countP fun inner =>
        !(findClosestVBlocking nodes none inner).isEmpty && isVBlocking inner (outside ∪ other) := by
  unfold solvedInner
  induction innerSets with
  | nil => exact Nat.le_refl 0
  | cons inner rest ih =>
    rw [countP_cons, countP_cons, countP_cons]
    cases (findClosestVBlocking nodes none inner).isEmpty with
    | true =>
      simp only [if_true, Bool.not_true, Bool.false_and, Bool.false_eq_true, if_false]
      split <;> omega
    | false =>
      simp only [Bool.false_eq_true, if_false, Bool.not_false, Bool.true_and]
      omega

theorem sum_solutions_le (other : Finset N)
    (hother : other ⊆ nodes) (hclosest : ∀ inner ∈ innerSets,
      Closest nodes outside inner (findClosestVBlocking nodes none inner))
    (test : ScpQuorumSet N → Bool)
    (htest : ∀ inner, test inner = true → isVBlocking inner (outside ∪ other) = true) :
    ((innerSets.filter test).map fun inner => (findClosestVBlocking nodes none inner).length).sum ≤
      (innerNodes innerSets).countP fun node => node ∈ other := by
  rw [countP_innerNodes]
  induction innerSets with
  | nil => exact Nat.le_refl 0
  | cons inner rest ih =>
    obtain ⟨hhead, htail⟩ := forall_mem_cons.mp hclosest
    rw [filter_cons, map_cons, sum_cons]
    split
    next hblocks =>
      rw [map_cons, sum_cons]
      exact Nat.add_le_add (hhead.least other hother (htest inner hblocks)) (ih htail)
    · exact (ih htail).trans (Nat.le_add_left _ _)

theorem le_countP_inner (taken : Finset N) (hclosest : ∀ inner ∈ innerSets,
      Closest nodes outside inner (findClosestVBlocking nodes none inner)) :
    solvedInner nodes innerSets +
        ((openSolutions nodes innerSets).countP fun found => found.toFinset ⊆ taken) ≤
      innerSets.countP fun inner => isVBlocking inner (outside ∪ taken) := by
  unfold solvedInner openSolutions
  induction innerSets with
  | nil => exact Nat.le_refl 0
  | cons inner rest ih =>
    obtain ⟨hhead, htail⟩ := forall_mem_cons.mp hclosest
    have hrest := ih htail
    rw [countP_cons, countP_cons, map_cons, filter_cons]
    cases hfound : (findClosestVBlocking nodes none inner).isEmpty with
    | true =>
      have hblocked : isVBlocking inner (outside ∪ taken) = true :=
        isVBlocking_mono inner Finset.subset_union_left
          (hhead.eq_nil_iff.mp (isEmpty_iff.mp hfound))
      simp only [hblocked, if_true, Bool.not_true, Bool.false_eq_true, if_false]
      omega
    | false =>
      simp only [Bool.false_eq_true, if_false, Bool.not_false, if_true]
      rw [countP_cons]
      by_cases htaken : (findClosestVBlocking nodes none inner).toFinset ⊆ taken
      · have hblocked : isVBlocking inner (outside ∪ taken) = true :=
          isVBlocking_mono inner (Finset.union_subset_union_right htaken) hhead.blocks
        simp only [htaken, hblocked, decide_true, if_true]
        omega
      · simp only [htaken, decide_false, Bool.false_eq_true, if_false]
        omega

end

/-- The first of a list that avoids repetition are found in the list as often as they are. -/
theorem le_countP_take (validators : List N) (taken : Finset N) (count : Nat)
    (hcount : count ≤ (takable nodes validators).length)
    (htaken : ∀ node ∈ (takable nodes validators).take count, node ∈ taken) :
    count ≤ validators.countP fun node => node ∈ taken := by
  have hsublist : ((takable nodes validators).take count).Sublist validators :=
    (take_sublist _ _).trans filter_sublist
  have hall : ((takable nodes validators).take count).countP (fun node => node ∈ taken) =
      ((takable nodes validators).take count).length :=
    countP_eq_length.mpr fun node hnode => decide_eq_true (htaken node hnode)
  have hle := hsublist.countP_le (p := fun node => node ∈ taken)
  rw [hall, length_take, Nat.min_eq_left hcount] at hle
  exact hle

/-! What is taken: the first of the validators that can be taken, then solutions of open
inner sets, the cheapest first. -/

section Taken

variable {validators : List N} {innerSets : List (ScpQuorumSet N)} {solutions : List (List N)}
  {needed rest : Nat}

theorem nodup_taken (hnodup : (validators ++ innerNodes innerSets).Nodup)
    (hclosest : ∀ inner ∈ innerSets,
      Closest nodes outside inner (findClosestVBlocking nodes none inner))
    (hperm : solutions.Perm (openSolutions nodes innerSets)) :
    ((takable nodes validators).take needed ++ (solutions.take rest).flatten).Nodup ∧
      ∀ node ∈ (takable nodes validators).take needed ++ (solutions.take rest).flatten,
        node ∈ nodes ∧ node ∈ validators ++ innerNodes innerSets := by
  obtain ⟨hdirectNodup, hinnerNodup, hdisjoint⟩ := nodup_append.mp hnodup
  obtain ⟨hsolutionsNodup, hsolutionsWithin⟩ :=
    nodup_flatten_openSolutions innerSets hinnerNodup hclosest
  have hdirect : ∀ node ∈ (takable nodes validators).take needed,
      node ∈ nodes ∧ node ∈ validators := by
    intro node hnode
    have hmem := mem_filter.mp (mem_of_mem_take hnode)
    exact ⟨of_decide_eq_true hmem.2, hmem.1⟩
  have hsublist := (take_sublist rest solutions).flatten
  have hinner : ∀ node ∈ (solutions.take rest).flatten,
      node ∈ nodes ∧ node ∈ innerNodes innerSets :=
    fun node hnode => hsolutionsWithin node (hperm.flatten.mem_iff.mp (hsublist.subset hnode))
  constructor
  · refine nodup_append.mpr ⟨?_, ?_, fun a ha b hb => ?_⟩
    · exact (take_sublist _ _).nodup (hdirectNodup.filter _)
    · exact hsublist.nodup (hperm.flatten.nodup_iff.mpr hsolutionsNodup)
    · exact hdisjoint a (hdirect a ha).2 b (hinner b hb).2
  · intro node hnode
    rcases mem_append.mp hnode with hnode | hnode
    · exact (hdirect node hnode).imp_right (mem_append_left _)
    · exact (hinner node hnode).imp_right (mem_append_right _)

theorem le_countP_taken (houtside : ∀ node ∈ validators, node ∈ outside ↔ node ∉ nodes)
    (hclosest : ∀ inner ∈ innerSets,
      Closest nodes outside inner (findClosestVBlocking nodes none inner))
    (hperm : solutions.Perm (openSolutions nodes innerSets)) {taken : Finset N}
    (hnodes : taken ⊆ nodes) (htaken : ∀ node, node ∈ (takable nodes validators).take needed ++
      (solutions.take rest).flatten → node ∈ taken) :
    validators.countP (fun node => node ∉ nodes) + solvedInner nodes innerSets +
        (min needed (takable nodes validators).length +
          min rest (openSolutions nodes innerSets).length) ≤
      validators.countP (fun node => node ∈ outside ∪ taken) +
        innerSets.countP fun inner => isVBlocking inner (outside ∪ taken) := by
  have hdirect := countP_union_outside houtside hnodes
  have hinner := le_countP_inner innerSets taken hclosest
  have hvalidators : min needed (takable nodes validators).length ≤
      validators.countP fun node => node ∈ taken := by
    refine le_countP_take validators taken _ (Nat.min_le_right _ _) fun node hnode => ?_
    refine htaken node (mem_append_left _ ?_)
    exact take_subset_take_left _ (Nat.min_le_left _ _) hnode
  have hsolved : min rest (openSolutions nodes innerSets).length ≤
      (openSolutions nodes innerSets).countP fun found => found.toFinset ⊆ taken := by
    have hall : (solutions.take rest).countP (fun found => found.toFinset ⊆ taken) =
        (solutions.take rest).length := by
      refine countP_eq_length.mpr fun found hmem => decide_eq_true fun node hnode => ?_
      refine htaken node (mem_append_right _ ?_)
      exact mem_flatten.mpr ⟨found, hmem, mem_toFinset.mp hnode⟩
    rw [← hperm.countP_eq, ← hperm.length_eq, ← length_take, ← hall]
    exact (take_sublist rest solutions).countP_le
  omega

theorem length_taken_le (hclosest : ∀ inner ∈ innerSets,
      Closest nodes outside inner (findClosestVBlocking nodes none inner))
    (hperm : solutions.Perm (openSolutions nodes innerSets))
    (hsorted : (solutions.map length).Pairwise (· ≤ ·)) {other : Finset N}
    (hother : other ⊆ nodes)
    (hneeded : solvedInner nodes innerSets + needed ≤
      validators.countP (fun node => node ∈ other) +
        innerSets.countP fun inner => isVBlocking inner (outside ∪ other)) :
    ((takable nodes validators).take needed ++ (solutions.take
        (needed - min needed (takable nodes validators).length)).flatten).length ≤
      (validators ++ innerNodes innerSets).countP fun node => node ∈ other := by
  have hinner := @countP_inner_le N _ nodes outside innerSets other
  generalize hopen : (fun inner : ScpQuorumSet N =>
    !(findClosestVBlocking nodes none inner).isEmpty && isVBlocking inner (outside ∪ other)) =
      opened at hinner
  have hopened : ∀ inner, opened inner = true → (!(findClosestVBlocking nodes none inner).isEmpty) =
      true ∧ isVBlocking inner (outside ∪ other) = true := by
    intro inner htest
    rw [← hopen] at htest
    exact (Bool.and_eq_true _ _).mp htest
  have hsum := sum_solutions_le innerSets other hother hclosest opened
    fun inner htest => (hopened inner htest).2
  have hchosen : ((innerSets.filter opened).map fun inner =>
      (findClosestVBlocking nodes none inner).length).Subperm (solutions.map length) := by
    refine List.Sublist.subperm ?_ |>.trans (hperm.map length).symm.subperm
    unfold openSolutions
    rw [filter_map, map_map]
    exact (monotone_filter_right innerSets fun inner htest => (hopened inner htest).1).map _
  have hpos : ∀ cost ∈ solutions.map length, 1 ≤ cost := by
    intro cost hcost
    obtain ⟨found, hmem, rfl⟩ := mem_map.mp hcost
    have hnonempty := (mem_filter.mp (hperm.mem_iff.mp hmem)).2
    exact length_pos_of_ne_nil fun h => by simp [h] at hnonempty
  have htaken : validators.countP (fun node => node ∈ other) ≤
      (takable nodes validators).length := by
    unfold takable
    rw [← countP_eq_length_filter]
    refine countP_mono_left fun node _ hnode => ?_
    exact decide_eq_true (hother (of_decide_eq_true hnode))
  have henough : needed ≤ validators.countP (fun node => node ∈ other) +
      ((innerSets.filter opened).map fun inner =>
        (findClosestVBlocking nodes none inner).length).length := by
    rw [length_map, ← countP_eq_length_filter]
    omega
  have hcheapest := cheapest_le hsorted hpos hchosen htaken henough
  rw [length_append, length_take, length_flatten, map_take, countP_append]
  omega

end Taken

theorem closest_findClosestVBlocking (quorumSet : ScpQuorumSet N) (hproper : quorumSet.Proper)
    (hnodup : (allNodes quorumSet).Nodup)
    (houtside : ∀ node ∈ allNodes quorumSet, node ∈ outside ↔ node ∉ nodes) :
    Closest nodes outside quorumSet (findClosestVBlocking nodes none quorumSet) := by
  induction quorumSet using ScpQuorumSet.nested with
  | hmk threshold validators innerSets ih =>
    rw [ScpQuorumSet.Proper, ScpQuorumSet.properInner_iff] at hproper
    obtain ⟨hpos, hle, hinners⟩ := hproper
    have hall : allNodes (.mk threshold validators innerSets) =
        validators ++ innerNodes innerSets := by
      rw [allNodes]
    rw [hall] at hnodup
    have hdirect : ∀ node ∈ validators, node ∈ outside ↔ node ∉ nodes :=
      fun node hnode => houtside node (mem_allNodes.mpr (.inl hnode))
    have hclosest : ∀ inner ∈ innerSets,
        Closest nodes outside inner (findClosestVBlocking nodes none inner) := by
      intro inner hmem
      refine ih inner hmem (hinners inner hmem) ?_ fun node hnode =>
        houtside node (mem_allNodes.mpr (.inr ⟨inner, hmem, hnode⟩))
      exact nodup_allNodes_of_mem (nodup_append.mp hnodup).2.1 hmem
    have hvalidators := @length_takable N _ nodes validators
    have hinnerSets := @length_openSolutions N _ nodes innerSets
    have hcases := @findClosestVBlocking_mk N _ nodes _ _ _ hle
    simp only at hcases
    rcases hcases with ⟨henough, hfound⟩ | ⟨hmissing, solutions, hperm, hsorted, hfound⟩
    · -- enough members are blocked by what is outside the nodes
      rw [hfound]
      refine ⟨nodup_nil, fun _ h => absurd h not_mem_nil, ?_, fun _ _ _ => Nat.zero_le _⟩
      have hblocked := countP_union_outside hdirect (Finset.empty_subset nodes)
      have hinner := le_countP_inner innerSets ∅ hclosest
      rw [toFinset_nil, isVBlocking_mk_iff]
      omega
    · rw [hfound]
      obtain ⟨htakenNodup, hwithin⟩ := nodup_taken hnodup hclosest hperm
      refine ⟨htakenNodup, by rwa [hall], ?_, fun other hother hblocks => ?_⟩
      · have hcount := le_countP_taken hdirect hclosest hperm
          (fun node hnode => (hwithin node (mem_toFinset.mp hnode)).1)
          fun node hnode => mem_toFinset.mpr hnode
        rw [isVBlocking_mk_iff]
        omega
      · have hblocked := countP_union_outside hdirect hother
        rw [isVBlocking_mk_iff] at hblocks
        rw [hall]
        exact length_taken_le hclosest hperm hsorted hother (by omega)

theorem countP_allNodes_le (hnodup : (allNodes quorumSet).Nodup) (other : Finset N) :
    ((allNodes quorumSet).countP fun node => node ∈ other) ≤ other.card := by
  rw [countP_eq_length_filter, ← toFinset_card_of_nodup (hnodup.filter _)]
  refine Finset.card_le_card fun node hnode => ?_
  exact of_decide_eq_true (mem_filter.mp (mem_toFinset.mp hnode)).2

/-- The search is exact for every sane quorum set: it finds distinct nodes of the given
ones, which block together with the nodes outside, none if these block already, and
never more than other nodes that would do. -/
theorem findClosestVBlocking_exact (quorumSet : ScpQuorumSet N) (extraChecks : Bool)
    (hsane : isQuorumSetSane quorumSet extraChecks = .ok ()) (nodes : Finset N) :
    let found := findClosestVBlocking nodes none quorumSet
    let outside := (allNodes quorumSet).toFinset \ nodes
    found.Nodup ∧ (∀ node ∈ found, node ∈ nodes) ∧
      isVBlocking quorumSet (outside ∪ found.toFinset) = true ∧
      (found = [] ↔ isVBlocking quorumSet outside = true) ∧
      ∀ other ⊆ nodes, isVBlocking quorumSet (outside ∪ other) = true →
        found.length ≤ other.card := by
  intro found outside
  obtain ⟨hproper, hnodup⟩ := proper_of_isQuorumSetSane hsane
  have hclosest : Closest nodes outside quorumSet found := by
    refine closest_findClosestVBlocking quorumSet hproper hnodup fun node hnode => ?_
    simp [outside, hnode]
  refine ⟨hclosest.nodup, fun node hnode => (hclosest.within node hnode).1, hclosest.blocks,
    hclosest.eq_nil_iff, fun other hother hblocks => ?_⟩
  exact (hclosest.least other hother hblocks).trans (countP_allNodes_le hnodup other)

/-- Three of a validator and three pairs, one of which is down: one node is enough. -/
theorem findClosestVBlocking_exact_pairs :
    let quorumSet := ScpQuorumSet.mk 3 [1] [.mk 2 [2, 3] [], .mk 1 [4, 5] [], .mk 1 [6, 7] []]
    findClosestVBlocking {1, 2, 3, 4, 5} none quorumSet = [1] ∧
      ∀ other ⊆ {1, 2, 3, 4, 5}, isVBlocking quorumSet
        ((allNodes quorumSet).toFinset \ {1, 2, 3, 4, 5} ∪ other) = true → 1 ≤ other.card := by
  intro quorumSet
  have hexact := findClosestVBlocking_exact quorumSet false (by decide) {1, 2, 3, 4, 5}
  have hfound : findClosestVBlocking {1, 2, 3, 4, 5} none quorumSet = [1] := by decide
  refine ⟨hfound, fun other hother hblocks => ?_⟩
  have hle := hexact.2.2.2.2 other hother hblocks
  rwa [hfound] at hle

end Henyey.Scp
