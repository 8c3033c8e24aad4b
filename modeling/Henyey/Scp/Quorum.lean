import Henyey.Foundation.Word
import Henyey.Foundation.Pruning

/-!
# Quorum sets, slices, quorums and blocking sets

Quorum sets nest. A slice counts satisfied members against a threshold, a
quorum is found by pruning, and a blocking set meets every slice.
-/

namespace Henyey.Scp

open Foundation

/-- Counters and thresholds are machine words: addition wraps around. -/
abbrev U32 : Type := Fin 4294967296

/-- The largest counter. -/
def U32.max : U32 := 4294967295

/-- Increment without wrapping around. -/
def U32.saturatingSucc (n : U32) : U32 :=
  if n = U32.max then U32.max else n + 1

/-- A threshold over direct validators and nested quorum sets. -/
inductive ScpQuorumSet (N : Type) where
  | mk (threshold : U32) (validators : List N) (innerSets : List (ScpQuorumSet N))

namespace ScpQuorumSet

variable {N : Type}

def threshold : ScpQuorumSet N → U32
  | mk threshold _ _ => threshold

def validators : ScpQuorumSet N → List N
  | mk _ validators _ => validators

def innerSets : ScpQuorumSet N → List (ScpQuorumSet N)
  | mk _ _ innerSets => innerSets

end ScpQuorumSet

def maximumQuorumNestingLevel : Nat := 4

def maximumQuorumNodes : Nat := 1000

variable {N : Type} [DecidableEq N]

mutual

/-- Enough members, direct or nested, are satisfied by the given nodes. A zero
threshold is unsatisfiable. -/
def isQuorumSlice : ScpQuorumSet N → Finset N → Bool
  | .mk threshold validators innerSets, nodes =>
    threshold.val != 0 &&
      decide (threshold.val ≤
        validators.countP (fun node => node ∈ nodes) + satisfiedInnerSets innerSets nodes)

def satisfiedInnerSets : List (ScpQuorumSet N) → Finset N → Nat
  | [], _ => 0
  | inner :: rest, nodes =>
    (if isQuorumSlice inner nodes then 1 else 0) + satisfiedInnerSets rest nodes

end

mutual

/-- The given nodes meet every slice. There is no blocking set for a zero
threshold. -/
def isVBlocking : ScpQuorumSet N → Finset N → Bool
  | .mk threshold validators innerSets, nodes =>
    threshold.val != 0 &&
      decide (validators.length + innerSets.length - threshold.val + 1 ≤
        validators.countP (fun node => node ∈ nodes) + blockedInnerSets innerSets nodes)

def blockedInnerSets : List (ScpQuorumSet N) → Finset N → Nat
  | [], _ => 0
  | inner :: rest, nodes =>
    (if isVBlocking inner nodes then 1 else 0) + blockedInnerSets rest nodes

end

/-- A node stays in a candidate quorum while its own quorum set is known and
has a slice inside it. -/
def sliceInside (getQuorumSet : N → Option (ScpQuorumSet N)) (nodes : Finset N) (node : N) : Bool :=
  match getQuorumSet node with
  | some quorumSet => isQuorumSlice quorumSet nodes
  | none => false

/-- Prune the nodes without a slice until nothing changes, then test the local
quorum set against the survivors. -/
def isQuorum (quorumSet : ScpQuorumSet N) (nodes : Finset N)
    (getQuorumSet : N → Option (ScpQuorumSet N)) : Bool :=
  isQuorumSlice quorumSet (Pruning.prune (sliceInside getQuorumSet) nodes.card nodes)

/-- The nodes seen so far by the sanity check and their number. -/
structure SanityChecker (N : Type) where
  knownNodes : List N
  count : Nat

/-- Record the direct validators of one quorum set; a repetition is an error. -/
def insertKnownNodes : List N → List N → Except String (List N)
  | known, [] => .ok known
  | known, node :: rest =>
    if node ∈ known then .error "Duplicate node found in quorum configuration"
    else insertKnownNodes (node :: known) rest

mutual

def checkSanity (extraChecks : Bool) :
    ScpQuorumSet N → Nat → SanityChecker N → Except String (SanityChecker N)
  | .mk threshold validators innerSets, depth, checker =>
    if maximumQuorumNestingLevel < depth then
      .error "Maximum quorum nesting level exceeded"
    else if threshold.val < 1 then
      .error "Threshold must be greater than 0"
    else if validators.length + innerSets.length < threshold.val then
      .error "Threshold exceeds total number of entries"
    else if extraChecks = true ∧
        threshold.val < validators.length + innerSets.length - threshold.val + 1 then
      .error "Threshold is lower than the v-blocking size (< 51%)."
    else do
      let known ← insertKnownNodes checker.knownNodes validators
      checkInnerSanity extraChecks innerSets (depth + 1)
        { knownNodes := known, count := checker.count + validators.length }

def checkInnerSanity (extraChecks : Bool) :
    List (ScpQuorumSet N) → Nat → SanityChecker N → Except String (SanityChecker N)
  | [], _, checker => .ok checker
  | inner :: rest, depth, checker => do
    let checker ← checkSanity extraChecks inner depth checker
    checkInnerSanity extraChecks rest depth checker

end

/-- Structural sanity of a whole quorum set; the extra checks ask for a safe
threshold at every level. -/
def isQuorumSetSane (quorumSet : ScpQuorumSet N) (extraChecks : Bool) : Except String Unit := do
  let checker ← checkSanity extraChecks quorumSet 0 { knownNodes := [], count := 0 }
  if checker.count < 1 ∨ maximumQuorumNodes < checker.count then
    .error "Total number of nodes in a quorum must be within 1 and 1000"
  else .ok ()

/-- The sanity check succeeded, which is all that the callers look at. -/
def ScpQuorumSet.sane (quorumSet : ScpQuorumSet N) : Bool :=
  (isQuorumSetSane quorumSet false).isOk

/-- A flat quorum set without nesting. -/
def simpleQuorumSet (threshold : U32) (validators : List N) : ScpQuorumSet N :=
  .mk threshold validators []

/-! ### Monotonicity -/

variable {s t : Finset N}

theorem countP_mem_mono (validators : List N) (hsub : s ⊆ t) :
    validators.countP (fun node => node ∈ s) ≤ validators.countP (fun node => node ∈ t) := by
  apply List.countP_mono_left
  intro node _ hnode
  simp only [decide_eq_true_eq] at hnode ⊢
  exact hsub hnode

mutual

theorem isQuorumSlice_mono (quorumSet : ScpQuorumSet N) (hsub : s ⊆ t)
    (hs : isQuorumSlice quorumSet s = true) : isQuorumSlice quorumSet t = true := by
  cases quorumSet with
  | mk threshold validators innerSets =>
    simp only [isQuorumSlice, Bool.and_eq_true, decide_eq_true_eq] at hs ⊢
    have hdirect := countP_mem_mono validators hsub
    have hinner := satisfiedInnerSets_mono innerSets hsub
    exact ⟨hs.1, by omega⟩

theorem satisfiedInnerSets_mono (innerSets : List (ScpQuorumSet N))
    (hsub : s ⊆ t) : satisfiedInnerSets innerSets s ≤ satisfiedInnerSets innerSets t := by
  cases innerSets with
  | nil => exact Nat.le_refl _
  | cons inner rest =>
    have hrest := satisfiedInnerSets_mono rest hsub
    have hinner := isQuorumSlice_mono inner hsub
    simp only [satisfiedInnerSets]
    by_cases hs : isQuorumSlice inner s = true
    · rw [if_pos hs, if_pos (hinner hs)]
      omega
    · rw [if_neg hs]
      omega

end

mutual

variable {s t : Finset N}

theorem isVBlocking_mono (quorumSet : ScpQuorumSet N) (hsub : s ⊆ t)
    (hs : isVBlocking quorumSet s = true) : isVBlocking quorumSet t = true := by
  cases quorumSet with
  | mk threshold validators innerSets =>
    simp only [isVBlocking, Bool.and_eq_true, decide_eq_true_eq] at hs ⊢
    have hdirect := countP_mem_mono validators hsub
    have hinner := blockedInnerSets_mono innerSets hsub
    exact ⟨hs.1, by omega⟩

theorem blockedInnerSets_mono (innerSets : List (ScpQuorumSet N))
    (hsub : s ⊆ t) : blockedInnerSets innerSets s ≤ blockedInnerSets innerSets t := by
  cases innerSets with
  | nil => exact Nat.le_refl _
  | cons inner rest =>
    have hrest := blockedInnerSets_mono rest hsub
    have hinner := isVBlocking_mono inner hsub
    simp only [blockedInnerSets]
    by_cases hs : isVBlocking inner s = true
    · rw [if_pos hs, if_pos (hinner hs)]
      omega
    · rw [if_neg hs]
      omega

end

theorem sliceInside_mono (getQuorumSet : N → Option (ScpQuorumSet N)) :
    Pruning.Monotone (sliceInside getQuorumSet) := by
  intro s t hsub node hs
  unfold sliceInside at hs ⊢
  cases hlookup : getQuorumSet node with
  | none => simp [hlookup] at hs
  | some quorumSet =>
    simp only [hlookup] at hs ⊢
    exact isQuorumSlice_mono quorumSet hsub hs

section

variable (quorumSet : ScpQuorumSet N)
include quorumSet

/-- Pruning finds a quorum exactly when some subset of the nodes has all its
members' slices inside and satisfies the local quorum set. -/
theorem isQuorum_iff (nodes : Finset N) (getQuorumSet : N → Option (ScpQuorumSet N)) :
    isQuorum quorumSet nodes getQuorumSet = true ↔
      ∃ quorum ⊆ nodes, Pruning.Closed (sliceInside getQuorumSet) quorum ∧
        isQuorumSlice quorumSet quorum = true :=
  Pruning.test_prune_iff (sliceInside_mono getQuorumSet)
    (fun _ _ hsub => isQuorumSlice_mono quorumSet hsub) nodes

theorem isQuorum_mono (hsub : s ⊆ t) {getQuorumSet : N → Option (ScpQuorumSet N)}
    (hs : isQuorum quorumSet s getQuorumSet = true) : isQuorum quorumSet t getQuorumSet = true := by
  rw [isQuorum_iff] at hs ⊢
  obtain ⟨quorum, hquorum, hclosed, hslice⟩ := hs
  exact ⟨quorum, hquorum.trans hsub, hclosed, hslice⟩

theorem isQuorum_congr {nodes : Finset N} {getQuorumSet getQuorumSet' : N → Option (ScpQuorumSet N)}
    (hsame : ∀ node ∈ nodes, getQuorumSet node = getQuorumSet' node) :
    isQuorum quorumSet nodes getQuorumSet = isQuorum quorumSet nodes getQuorumSet' := by
  rw [Bool.eq_iff_iff, isQuorum_iff, isQuorum_iff]
  constructor
  · rintro ⟨quorum, hsub, hclosed, hslice⟩
    refine ⟨quorum, hsub, fun node hnode => ?_, hslice⟩
    have hnode' := hclosed node hnode
    rwa [sliceInside, hsame node (hsub hnode)] at hnode'
  · rintro ⟨quorum, hsub, hclosed, hslice⟩
    refine ⟨quorum, hsub, fun node hnode => ?_, hslice⟩
    have hnode' := hclosed node hnode
    rwa [sliceInside, ← hsame node (hsub hnode)] at hnode'

end

/-! ### Known facts about particular sets -/

@[simp]
theorem simpleQuorumSet_slice_singleton (node : N) (nodes : Finset N) :
    isQuorumSlice (simpleQuorumSet 1 [node]) nodes = decide (node ∈ nodes) := by
  by_cases hnode : node ∈ nodes <;>
    simp [simpleQuorumSet, isQuorumSlice, satisfiedInnerSets, hnode]

theorem simpleQuorumSet_singleton_sane (node : N) : (simpleQuorumSet 1 [node]).sane = true := by
  simp [ScpQuorumSet.sane, isQuorumSetSane, simpleQuorumSet, checkSanity, insertKnownNodes,
    checkInnerSanity, maximumQuorumNestingLevel, maximumQuorumNodes, bind, Except.bind,
    Except.isOk, Except.toBool]

end Henyey.Scp
