import Henyey.Foundation.Lexicographic
import Henyey.Scp.Blocking

/-!
# Normalization is a canonical form

Normalization keeps the slices and the blocking sets of a quorum set, changes nothing
the second time, and forgets the order of members at every level. The last part rests
on the order of quorum sets being total.
-/

namespace Henyey.Scp

open Foundation List ScpQuorumSet
open Ordering

variable {N : Type}

/-- Normalization as the herder and the nodes' own configuration use it. -/
def normalizeQuorumSet [LinearOrder N] (quorumSet : ScpQuorumSet N) : ScpQuorumSet N :=
  normalizeQuorumSetWithRemove quorumSet none

/-! ### The order of quorum sets -/

section Order

variable [LinearOrder N]

theorem compare_succ (m n : Nat) : compare (m + 1) (n + 1) = compare m n := by
  rw [Nat.compare_eq_ite_lt, Nat.compare_eq_ite_lt]
  simp

theorem compareValidators_then_length (as bs : List N) :
    (compareValidators as bs).then (compare as.length bs.length) =
      List.compareLex compare as bs := by
  induction as generalizing bs with
  | nil => cases bs <;> rfl
  | cons a as ih =>
    cases bs with
    | nil => rfl
    | cons b bs =>
      rw [List.compareLex_cons_cons, ← ih, ← then_assoc, compareValidators]
      congr 1
      exact compare_succ _ _

theorem compareInnerSets_then_length (as bs : List (ScpQuorumSet N)) :
    (compareInnerSets as bs).then (compare as.length bs.length) =
      List.compareLex quorumSetCmp as bs := by
  induction as generalizing bs with
  | nil => cases bs <;> rfl
  | cons a as ih =>
    cases bs with
    | nil => rfl
    | cons b bs =>
      rw [List.compareLex_cons_cons, ← ih, ← then_assoc, compareInnerSets]
      congr 1
      exact compare_succ _ _

theorem quorumSetCmp_mk (threshold threshold' : U32) (validators validators' : List N)
    (innerSets innerSets' : List (ScpQuorumSet N)) :
    quorumSetCmp (.mk threshold validators innerSets) (.mk threshold' validators' innerSets') =
      (List.compareLex compare validators validators').then
        ((List.compareLex quorumSetCmp innerSets innerSets').then
          (compare threshold threshold')) := by
  rw [← compareValidators_then_length, ← compareInnerSets_then_length, quorumSetCmp]
  simp only [then_assoc]

theorem totalAt_quorumSetCmp (quorumSet : ScpQuorumSet N) : TotalAt quorumSetCmp quorumSet := by
  induction quorumSet using nested with
  | hmk threshold validators innerSets ih =>
    have hvalidators : TotalAt (List.compareLex compare) validators :=
      totalAt_compareLex fun node _ => totalAt_compare node
    have hinner := totalAt_compareLex ih
    have hthreshold := totalAt_compare threshold
    refine ⟨fun b => ?_, fun b heq => ?_, fun b c => ?_⟩
    · obtain ⟨threshold', validators', innerSets'⟩ := b
      rw [quorumSetCmp_mk, quorumSetCmp_mk, swap_then, swap_then,
        hvalidators.swap, hinner.swap, hthreshold.swap]
    · obtain ⟨threshold', validators', innerSets'⟩ := b
      rw [quorumSetCmp_mk, then_eq_eq, then_eq_eq] at heq
      rw [hvalidators.eq_of_eq _ heq.1, hinner.eq_of_eq _ heq.2.1, hthreshold.eq_of_eq _ heq.2.2]
    · obtain ⟨threshold', validators', innerSets'⟩ := b
      obtain ⟨threshold'', validators'', innerSets''⟩ := c
      rw [quorumSetCmp_mk, quorumSetCmp_mk, quorumSetCmp_mk]
      exact (hvalidators.chain _ _).then ((hinner.chain _ _).then (hthreshold.chain _ _))

/-- The order that inner sets are put in. -/
abbrev NotAfter (a b : ScpQuorumSet N) : Prop := quorumSetCmp a b ≠ .gt

instance : IsTrans (ScpQuorumSet N) NotAfter where
  trans a b c hab hbc := by
    have hchain := (totalAt_quorumSetCmp a).chain b c (isLE_iff_ne_gt.mpr hab)
      (isLE_iff_ne_gt.mpr hbc)
    unfold NotAfter at hab hbc ⊢
    rw [hchain]
    intro hgt
    rcases then_eq_gt.mp hgt with hgt | ⟨_, hgt⟩
    · exact hab hgt
    · exact hbc hgt

instance : Std.Total (NotAfter (N := N)) where
  total a b := by
    unfold NotAfter
    rw [(totalAt_quorumSetCmp a).swap b]
    cases quorumSetCmp a b <;> decide

instance : Std.Antisymm (NotAfter (N := N)) where
  antisymm a b hab hba := by
    unfold NotAfter at hab hba
    rw [(totalAt_quorumSetCmp a).swap b] at hba
    apply (totalAt_quorumSetCmp a).eq_of_eq
    cases hcmp : quorumSetCmp a b
    · rw [hcmp] at hba
      exact absurd rfl hba
    · rfl
    · exact absurd hcmp hab

end Order

/-! ### Normalization level by level -/

def liftedMembers (innerSets : List (ScpQuorumSet N)) : List N :=
  innerSets.filterMap singletonMember

def keptInnerSets (innerSets : List (ScpQuorumSet N)) : List (ScpQuorumSet N) :=
  innerSets.filter fun inner => (singletonMember inner).isNone

section Levels

variable [LinearOrder N]

theorem simplifyInnerSets_eq (innerSets : List (ScpQuorumSet N)) :
    simplifyInnerSets none innerSets =
      (liftedMembers (innerSets.map (normalizeQuorumSetSimplify none)),
        keptInnerSets (innerSets.map (normalizeQuorumSetSimplify none))) := by
  induction innerSets with
  | nil => rfl
  | cons inner rest ih =>
    simp only [simplifyInnerSets, ih]
    cases hmember : singletonMember (normalizeQuorumSetSimplify none inner) <;>
      simp [liftedMembers, keptInnerSets, hmember]

theorem reorderInnerSets_eq (innerSets : List (ScpQuorumSet N)) :
    reorderInnerSets innerSets = innerSets.map normalizeQuorumSetReorder := by
  induction innerSets with
  | nil => rfl
  | cons inner rest ih => rw [reorderInnerSets, ih, map_cons]

/-- The normal form of a quorum set from those of its inner sets. -/
def assemble (threshold : U32) (validators : List N) (innerSets : List (ScpQuorumSet N)) :
    ScpQuorumSet N :=
  collapse (.mk threshold ((validators ++ liftedMembers innerSets).insertionSort (· ≤ ·))
    ((keptInnerSets innerSets).insertionSort NotAfter))

variable {quorumSet : ScpQuorumSet N}

omit [LinearOrder N] in
theorem singletonMember_eq_some_iff {node : N} :
    singletonMember quorumSet = some node ↔ quorumSet = .mk 1 [node] [] := by
  unfold singletonMember
  split
  · simp
  next hother =>
    constructor
    · intro hsome
      cases hsome
    · intro heq
      exact (hother node heq).elim

theorem reorder_eq_iff {threshold : U32} {validators : List N} {innerSets : List (ScpQuorumSet N)} :
    normalizeQuorumSetReorder quorumSet = .mk threshold validators innerSets ↔
      quorumSet.threshold = threshold ∧
        quorumSet.validators.insertionSort (· ≤ ·) = validators ∧
          (quorumSet.innerSets.map normalizeQuorumSetReorder).insertionSort NotAfter =
            innerSets := by
  obtain ⟨threshold', validators', innerSets'⟩ := quorumSet
  rw [normalizeQuorumSetReorder, reorderInnerSets_eq]
  exact mk.injEq .. ▸ Iff.rfl

theorem insertionSort_eq_nil_iff {α : Type} (r : α → α → Prop) [DecidableRel r] {as : List α} :
    as.insertionSort r = [] ↔ as = [] := by
  rw [← length_eq_zero_iff, length_insertionSort, length_eq_zero_iff]

theorem insertionSort_eq_singleton_iff {α : Type} (r : α → α → Prop) [DecidableRel r] {as : List α}
    {a : α} : as.insertionSort r = [a] ↔ as = [a] := by
  constructor
  · intro heq
    have hperm := perm_insertionSort r as
    rw [heq] at hperm
    exact perm_singleton.mp hperm.symm
  · rintro rfl
    rfl

theorem singletonMember_reorder (quorumSet : ScpQuorumSet N) :
    singletonMember (normalizeQuorumSetReorder quorumSet) = singletonMember quorumSet := by
  apply Option.ext
  intro node
  rw [singletonMember_eq_some_iff, singletonMember_eq_some_iff, reorder_eq_iff,
    insertionSort_eq_nil_iff, insertionSort_eq_singleton_iff, map_eq_nil_iff]
  obtain ⟨threshold, validators, innerSets⟩ := quorumSet
  exact mk.injEq .. ▸ Iff.rfl

omit [LinearOrder N] in
theorem collapse_eq_self
    (hother : ∀ inner, quorumSet ≠ .mk 1 [] [inner]) : collapse quorumSet = quorumSet := by
  unfold collapse
  split
  next inner => exact absurd rfl (hother inner)
  · rfl

theorem reorder_collapse (quorumSet : ScpQuorumSet N) :
    normalizeQuorumSetReorder (collapse quorumSet) =
      collapse (normalizeQuorumSetReorder quorumSet) := by
  by_cases hwraps : ∃ inner, quorumSet = .mk 1 [] [inner]
  · obtain ⟨inner, rfl⟩ := hwraps
    rfl
  · rw [not_exists] at hwraps
    rw [collapse_eq_self hwraps, collapse_eq_self]
    intro inner heq
    rw [reorder_eq_iff, insertionSort_eq_nil_iff, insertionSort_eq_singleton_iff,
      map_eq_singleton_iff] at heq
    obtain ⟨hthreshold, hvalidators, inner', hinner, _⟩ := heq
    obtain ⟨threshold, validators, innerSets⟩ := quorumSet
    apply hwraps inner'
    rw [← hinner, ← hthreshold, ← hvalidators]
    rfl

theorem liftedMembers_reorder (innerSets : List (ScpQuorumSet N)) :
    liftedMembers (innerSets.map normalizeQuorumSetReorder) = liftedMembers innerSets := by
  unfold liftedMembers
  rw [filterMap_map]
  exact congrArg (filterMap · innerSets) (funext singletonMember_reorder)

theorem keptInnerSets_reorder (innerSets : List (ScpQuorumSet N)) :
    keptInnerSets (innerSets.map normalizeQuorumSetReorder) =
      (keptInnerSets innerSets).map normalizeQuorumSetReorder := by
  unfold keptInnerSets
  rw [filter_map]
  congr 1
  refine congrArg (filter · innerSets) ?_
  funext inner
  simp [singletonMember_reorder]

/-- Normalization goes level by level. -/
theorem normalizeQuorumSet_mk (threshold : U32) (validators : List N)
    (innerSets : List (ScpQuorumSet N)) :
    normalizeQuorumSet (.mk threshold validators innerSets) =
      assemble threshold validators (innerSets.map normalizeQuorumSet) := by
  have hinner : innerSets.map normalizeQuorumSet =
      (innerSets.map (normalizeQuorumSetSimplify none)).map normalizeQuorumSetReorder := by
    rw [map_map]
    rfl
  rw [hinner]
  unfold normalizeQuorumSet normalizeQuorumSetWithRemove assemble
  rw [normalizeQuorumSetSimplify]
  simp only [removeNode, simplifyInnerSets_eq]
  rw [reorder_collapse, normalizeQuorumSetReorder, reorderInnerSets_eq,
    liftedMembers_reorder, keptInnerSets_reorder]

end Levels

/-! ### Slices and blocking sets stay -/

theorem countP_lifted_add_kept (test : N → Bool) (holds : ScpQuorumSet N → Bool)
    (hsingleton : ∀ node, holds (.mk 1 [node] []) = test node) (innerSets : List (ScpQuorumSet N)) :
    (liftedMembers innerSets).countP test + (keptInnerSets innerSets).countP holds =
      innerSets.countP holds := by
  induction innerSets with
  | nil => rfl
  | cons inner rest ih =>
    unfold liftedMembers keptInnerSets at ih ⊢
    cases hmember : singletonMember inner with
    | none =>
      rw [filterMap_cons_none hmember, filter_cons_of_pos (by rw [hmember]; rfl),
        countP_cons, countP_cons]
      omega
    | some node =>
      rw [filterMap_cons_some hmember,
        filter_cons_of_neg (by rw [hmember]; exact Bool.false_ne_true),
        countP_cons, countP_cons, singletonMember_eq_some_iff.mp hmember,
        hsingleton]
      omega

theorem length_lifted_add_kept (innerSets : List (ScpQuorumSet N)) :
    (liftedMembers innerSets).length + (keptInnerSets innerSets).length = innerSets.length := by
  have hcount := countP_lifted_add_kept (fun _ : N => true) (fun _ => true) (fun _ => rfl)
    innerSets
  simpa using hcount

section Semantics

variable [LinearOrder N]

theorem isQuorumSlice_collapse (quorumSet : ScpQuorumSet N) (nodes : Finset N) :
    isQuorumSlice (collapse quorumSet) nodes = isQuorumSlice quorumSet nodes := by
  by_cases hwraps : ∃ inner, quorumSet = .mk 1 [] [inner]
  · obtain ⟨inner, rfl⟩ := hwraps
    rw [Bool.eq_iff_iff, isQuorumSlice_mk_iff, countP_singleton]
    by_cases hslice : isQuorumSlice inner nodes = true <;> simp [collapse, hslice]
  · rw [collapse_eq_self (not_exists.mp hwraps)]

theorem isVBlocking_collapse (quorumSet : ScpQuorumSet N) (nodes : Finset N) :
    isVBlocking (collapse quorumSet) nodes = isVBlocking quorumSet nodes := by
  by_cases hwraps : ∃ inner, quorumSet = .mk 1 [] [inner]
  · obtain ⟨inner, rfl⟩ := hwraps
    rw [Bool.eq_iff_iff, isVBlocking_mk_iff, countP_singleton]
    by_cases hblocking : isVBlocking inner nodes = true <;> simp [collapse, hblocking]
  · rw [collapse_eq_self (not_exists.mp hwraps)]

theorem isQuorumSlice_assemble (threshold : U32) (validators : List N)
    (innerSets : List (ScpQuorumSet N)) (nodes : Finset N) :
    isQuorumSlice (assemble threshold validators innerSets) nodes =
      isQuorumSlice (.mk threshold validators innerSets) nodes := by
  have hcount := countP_lifted_add_kept (fun node => decide (node ∈ nodes))
    (fun inner => isQuorumSlice inner nodes)
    (fun node => simpleQuorumSet_slice_singleton node nodes) innerSets
  unfold assemble
  rw [isQuorumSlice_collapse, Bool.eq_iff_iff, isQuorumSlice_mk_iff, isQuorumSlice_mk_iff,
    (perm_insertionSort _ _).countP_eq, (perm_insertionSort _ _).countP_eq,
    countP_append, Nat.add_assoc, hcount]

theorem isVBlocking_assemble (threshold : U32) (validators : List N)
    (innerSets : List (ScpQuorumSet N)) (nodes : Finset N) :
    isVBlocking (assemble threshold validators innerSets) nodes =
      isVBlocking (.mk threshold validators innerSets) nodes := by
  have hsingleton (node : N) : isVBlocking (.mk 1 [node] []) nodes = decide (node ∈ nodes) := by
    by_cases hnode : node ∈ nodes <;> simp [isVBlocking, blockedInnerSets, hnode]
  have hcount := countP_lifted_add_kept (fun node => decide (node ∈ nodes))
    (fun inner => isVBlocking inner nodes) hsingleton innerSets
  have hlength := length_lifted_add_kept innerSets
  unfold assemble
  rw [isVBlocking_collapse, Bool.eq_iff_iff, isVBlocking_mk_iff, isVBlocking_mk_iff,
    (perm_insertionSort _ _).countP_eq, (perm_insertionSort _ _).countP_eq,
    length_insertionSort, length_insertionSort, length_append,
    countP_append, Nat.add_assoc, Nat.add_assoc, hcount, hlength]

theorem isQuorumSlice_normalize (quorumSet : ScpQuorumSet N) (nodes : Finset N) :
    isQuorumSlice (normalizeQuorumSet quorumSet) nodes = isQuorumSlice quorumSet nodes := by
  induction quorumSet using nested with
  | hmk threshold validators innerSets ih =>
    rw [normalizeQuorumSet_mk, isQuorumSlice_assemble, Bool.eq_iff_iff, isQuorumSlice_mk_iff,
      isQuorumSlice_mk_iff, countP_map]
    have hinner : innerSets.countP ((fun inner => isQuorumSlice inner nodes) ∘
        normalizeQuorumSet) = innerSets.countP fun inner => isQuorumSlice inner nodes :=
      countP_congr fun inner hmem => by rw [Function.comp_apply, ih inner hmem]
    rw [hinner]

theorem isVBlocking_normalize (quorumSet : ScpQuorumSet N) (nodes : Finset N) :
    isVBlocking (normalizeQuorumSet quorumSet) nodes = isVBlocking quorumSet nodes := by
  induction quorumSet using nested with
  | hmk threshold validators innerSets ih =>
    rw [normalizeQuorumSet_mk, isVBlocking_assemble, Bool.eq_iff_iff, isVBlocking_mk_iff,
      isVBlocking_mk_iff, countP_map, length_map]
    have hinner : innerSets.countP ((fun inner => isVBlocking inner nodes) ∘
        normalizeQuorumSet) = innerSets.countP fun inner => isVBlocking inner nodes :=
      countP_congr fun inner hmem => by rw [Function.comp_apply, ih inner hmem]
    rw [hinner]

/-! ### Nothing changes the second time -/

/-- Sorted members, no singleton among the inner sets and no mere wrapping, at every
level. -/
inductive Normal : ScpQuorumSet N → Prop where
  | mk {threshold : U32} {validators : List N} {innerSets : List (ScpQuorumSet N)}
      (hvalidators : validators.Pairwise (· ≤ ·)) (hsorted : innerSets.Pairwise NotAfter)
      (hkept : ∀ inner ∈ innerSets, singletonMember inner = none)
      (hcollapse : collapse (.mk threshold validators innerSets) =
        .mk threshold validators innerSets)
      (hinner : ∀ inner ∈ innerSets, Normal inner) :
      Normal (.mk threshold validators innerSets)

variable {innerSets : List (ScpQuorumSet N)}

omit [LinearOrder N] in
theorem mem_keptInnerSets {inner : ScpQuorumSet N} :
    inner ∈ keptInnerSets innerSets ↔ inner ∈ innerSets ∧ singletonMember inner = none := by
  rw [keptInnerSets, mem_filter, Option.isNone_iff_eq_none]

theorem normal_assemble (threshold : U32) (validators : List N)
    (hnormal : ∀ inner ∈ innerSets, Normal inner) :
    Normal (assemble threshold validators innerSets) := by
  have hmem {inner : ScpQuorumSet N} :
      inner ∈ (keptInnerSets innerSets).insertionSort NotAfter ↔
        inner ∈ innerSets ∧ singletonMember inner = none := by
    rw [mem_insertionSort, mem_keptInnerSets]
  unfold assemble
  generalize hsorted : (keptInnerSets innerSets).insertionSort NotAfter = sorted at hmem ⊢
  generalize hvalidators : (validators ++ liftedMembers innerSets).insertionSort (· ≤ ·) = members
  by_cases hwraps : ∃ inner, mk threshold members sorted = .mk 1 [] [inner]
  · -- the set is the one it wraps
    obtain ⟨inner, heq⟩ := hwraps
    rw [heq]
    apply hnormal inner
    injection heq with _ _ hinner
    exact (hmem.mp (hinner ▸ mem_singleton_self inner)).1
  · have hcollapse := collapse_eq_self (not_exists.mp hwraps)
    rw [hcollapse]
    refine .mk ?_ ?_ (fun inner h => (hmem.mp h).2) hcollapse
      (fun inner h => hnormal inner (hmem.mp h).1)
    · exact hvalidators ▸ pairwise_insertionSort (· ≤ ·) _
    · exact hsorted ▸ pairwise_insertionSort NotAfter _

theorem normal_normalize (quorumSet : ScpQuorumSet N) : Normal (normalizeQuorumSet quorumSet) := by
  induction quorumSet using nested with
  | hmk threshold validators innerSets ih =>
    rw [normalizeQuorumSet_mk]
    apply normal_assemble
    intro inner hmem
    obtain ⟨inner, hinner, rfl⟩ := mem_map.mp hmem
    exact ih inner hinner

theorem Normal.normalize_eq {quorumSet : ScpQuorumSet N} (hnormal : Normal quorumSet) :
    normalizeQuorumSet quorumSet = quorumSet := by
  induction hnormal with
  | @mk threshold validators innerSets hvalidators hsorted hkept hcollapse _ ih =>
    have hmap : innerSets.map normalizeQuorumSet = innerSets := by
      conv_rhs => rw [← map_id innerSets]
      exact map_congr_left ih
    have hlifted : liftedMembers innerSets = [] := by
      rw [liftedMembers, filterMap_eq_nil_iff]
      exact hkept
    have hkeptEq : keptInnerSets innerSets = innerSets := by
      rw [keptInnerSets, filter_eq_self]
      intro inner hinner
      rw [hkept inner hinner]
      rfl
    rw [normalizeQuorumSet_mk, hmap, assemble, hlifted, hkeptEq, append_nil,
      hvalidators.insertionSort_eq, hsorted.insertionSort_eq, hcollapse]

/-! ### The order of members is forgotten -/

/-- The quorum sets differ by the order of validators and of inner sets, at any level. -/
inductive Permuted : ScpQuorumSet N → ScpQuorumSet N → Prop where
  | validators (threshold : U32) {validators validators' : List N}
      (innerSets : List (ScpQuorumSet N)) (hperm : validators.Perm validators') :
      Permuted (.mk threshold validators innerSets) (.mk threshold validators' innerSets)
  | innerSets (threshold : U32) (validators : List N)
      {innerSets innerSets' : List (ScpQuorumSet N)} (hperm : innerSets.Perm innerSets') :
      Permuted (.mk threshold validators innerSets) (.mk threshold validators innerSets')
  | inside (threshold : U32) (validators : List N) (before after : List (ScpQuorumSet N))
      {inner inner' : ScpQuorumSet N} (hinner : Permuted inner inner') :
      Permuted (.mk threshold validators (before ++ inner :: after))
        (.mk threshold validators (before ++ inner' :: after))
  | trans {quorumSet quorumSet' quorumSet'' : ScpQuorumSet N}
      (hfirst : Permuted quorumSet quorumSet') (hsecond : Permuted quorumSet' quorumSet'') :
      Permuted quorumSet quorumSet''

theorem assemble_eq_of_perm (threshold : U32) {validators validators' : List N}
    {innerSets innerSets' : List (ScpQuorumSet N)} (hvalidators : validators.Perm validators')
    (hinner : innerSets.Perm innerSets') :
    assemble threshold validators innerSets = assemble threshold validators' innerSets' := by
  have hlifted : (liftedMembers innerSets).Perm (liftedMembers innerSets') :=
    hinner.filterMap singletonMember
  have hkept : (keptInnerSets innerSets).Perm (keptInnerSets innerSets') := hinner.filter _
  unfold assemble
  rw [insertionSort_eq_of_perm (hvalidators.append hlifted), insertionSort_eq_of_perm hkept]

theorem Permuted.normalize_eq {quorumSet quorumSet' : ScpQuorumSet N}
    (hpermuted : Permuted quorumSet quorumSet') :
    normalizeQuorumSet quorumSet = normalizeQuorumSet quorumSet' := by
  induction hpermuted with
  | validators threshold innerSets hperm =>
    rw [normalizeQuorumSet_mk, normalizeQuorumSet_mk]
    exact assemble_eq_of_perm threshold hperm (.refl _)
  | innerSets threshold validators hperm =>
    rw [normalizeQuorumSet_mk, normalizeQuorumSet_mk]
    exact assemble_eq_of_perm threshold (.refl _) (hperm.map _)
  | inside threshold validators before after _ ih =>
    rw [normalizeQuorumSet_mk, normalizeQuorumSet_mk, map_append, map_append,
      map_cons, map_cons, ih]
  | trans _ _ ihfirst ihsecond => rw [ihfirst, ihsecond]

/-- Normalization gives a canonical form of the same quorum set: it answers slice and
blocking checks alike, is its own normal form, and does not depend on the order of
members. -/
theorem normalizeQuorumSet_canonical (quorumSet : ScpQuorumSet N) :
    (∀ nodes : Finset N,
      isQuorumSliceInner (normalizeQuorumSet quorumSet) nodes = isQuorumSliceInner quorumSet nodes ∧
        isVBlocking (normalizeQuorumSet quorumSet) nodes = isVBlocking quorumSet nodes) ∧
      normalizeQuorumSet (normalizeQuorumSet quorumSet) = normalizeQuorumSet quorumSet ∧
      ∀ quorumSet', Permuted quorumSet quorumSet' →
        normalizeQuorumSet quorumSet = normalizeQuorumSet quorumSet' := by
  refine ⟨fun nodes => ⟨?_, isVBlocking_normalize quorumSet nodes⟩,
    (normal_normalize quorumSet).normalize_eq, fun _ hpermuted => hpermuted.normalize_eq⟩
  rw [isQuorumSliceInner_eq, isQuorumSliceInner_eq, isQuorumSlice_normalize]

end Semantics

end Henyey.Scp
