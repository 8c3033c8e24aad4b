import Henyey.Foundation.ShortestPaths
import Henyey.Scp.Normalization

/-!
# Tracking the transitive quorum

From the local node the quorum sets that are known are followed breadth first. Every node that
is met is kept with its distance and with the members of the local quorum set that a shortest
path to it starts with.
-/

namespace Henyey.Herder

open Foundation List Option
open Scp (ScpQuorumSet allNodes)
open Function

variable {N : Type} [DecidableEq N]

mutual

def sameQuorumSet : ScpQuorumSet N → ScpQuorumSet N → Bool
  | .mk threshold validators innerSets, .mk threshold' validators' innerSets' =>
    threshold == threshold' && validators == validators' && sameInnerSets innerSets innerSets'

def sameInnerSets : List (ScpQuorumSet N) → List (ScpQuorumSet N) → Bool
  | [], [] => true
  | inner :: rest, inner' :: rest' => sameQuorumSet inner inner' && sameInnerSets rest rest'
  | _, _ => false

end

structure NodeInfo (N : Type) where
  quorumSet : Option (ScpQuorumSet N)
  distance : ℕ
  closestValidators : Finset N

inductive QuorumTrackerError where
  | missingNode
  | expandFailed
  deriving DecidableEq

inductive ExpandError where
  | nodeNotFound
  | alreadyExpanded
  deriving DecidableEq

/-- The nodes that are tracked. -/
abbrev QuorumMap (N : Type) : Type := N → Option (NodeInfo N)

structure QuorumTracker (N : Type) where
  localNodeId : N
  quorum : QuorumMap N

namespace QuorumTracker

def onlyLocal (localNodeId : N) : QuorumMap N :=
  update (fun _ => none) localNodeId
    (some { quorumSet := none, distance := 0, closestValidators := ∅ })

def new (localNodeId : N) : QuorumTracker N :=
  { localNodeId, quorum := onlyLocal localNodeId }

/-- What a member of a quorum set is reached through. -/
def reachedThrough (newDist : ℕ) (closestValidators : Finset N) (qnode : N) : Finset N :=
  if newDist = 1 then {qnode} else closestValidators

/-- One member of the quorum set of a node; nothing happens once a member has failed. -/
def expandMember (newDist : ℕ) (closestValidators : Finset N) (state : QuorumMap N × Bool)
    (qnode : N) : QuorumMap N × Bool :=
  let (quorum, ok) := state
  if !ok then state
  else
    match quorum qnode with
    | none =>
      (update quorum qnode (some {
        quorumSet := none
        distance := newDist
        closestValidators := ∅ ∪ reachedThrough newDist closestValidators qnode }), true)
    | some qnodeInfo =>
      if qnodeInfo.distance < newDist then state
      else if qnodeInfo.quorumSet.isSome then (quorum, false)
      else
        let nearer : NodeInfo N :=
          if newDist < qnodeInfo.distance then
            { qnodeInfo with distance := newDist, closestValidators := ∅ }
          else qnodeInfo
        (update quorum qnode (some { nearer with
          closestValidators :=
            nearer.closestValidators ∪ reachedThrough newDist closestValidators qnode }), true)

def expand (tracker : QuorumTracker N) (nodeId : N) (quorumSet : ScpQuorumSet N) :
    QuorumTracker N × Except ExpandError Unit :=
  match tracker.quorum nodeId with
  | none => (tracker, .error .nodeNotFound)
  | some nodeInfo =>
    match nodeInfo.quorumSet with
    | some existing =>
      if sameQuorumSet existing quorumSet then (tracker, .ok ())
      else (tracker, .error .alreadyExpanded)
    | none =>
      let quorum := update tracker.quorum nodeId
        (some { nodeInfo with quorumSet := some quorumSet })
      let (quorum, ok) := (allNodes quorumSet).foldl
        (expandMember (nodeInfo.distance + 1) nodeInfo.closestValidators) (quorum, true)
      ({ tracker with quorum }, if ok then .ok () else .error .alreadyExpanded)

/-- The loop over the backlog; `none` when the fuel runs out. -/
def rebuildLoop (lookup : N → Option (ScpQuorumSet N)) :
    ℕ → QuorumTracker N → List N → Option (QuorumTracker N × Except QuorumTrackerError Unit)
  | 0, _, _ => none
  | _ + 1, tracker, [] => some (tracker, .ok ())
  | fuel + 1, tracker, node :: backlog =>
    match tracker.quorum node with
    | none => some (tracker, .error .missingNode)
    | some info =>
      if info.quorumSet.isNone then
        match lookup node with
        | some qset =>
          match tracker.expand node qset with
          | (expanded, .ok ()) => rebuildLoop lookup fuel expanded (backlog ++ allNodes qset)
          | (expanded, .error _) => some (expanded, .error .expandFailed)
        | none => rebuildLoop lookup fuel tracker backlog
      else rebuildLoop lookup fuel tracker backlog

def rebuild (tracker : QuorumTracker N) (lookup : N → Option (ScpQuorumSet N)) (fuel : ℕ) :
    Option (QuorumTracker N × Except QuorumTrackerError Unit) :=
  rebuildLoop lookup fuel { tracker with quorum := onlyLocal tracker.localNodeId }
    [tracker.localNodeId]

/-! ### One expansion -/

section Expansion

variable {newDist : ℕ} {closestValidators : Finset N} {quorum : QuorumMap N}

/-- What the members of a quorum set become when none of them lies further away than the
members that are new. -/
def withMembers (newDist : ℕ) (closestValidators : Finset N) (members : List N)
    (quorum : QuorumMap N) : QuorumMap N := fun v =>
  if v ∈ members then
    match quorum v with
    | none => some {
        quorumSet := none
        distance := newDist
        closestValidators := reachedThrough newDist closestValidators v }
    | some info =>
      if info.distance < newDist then some info
      else some { info with
        closestValidators :=
          info.closestValidators ∪ reachedThrough newDist closestValidators v }
  else quorum v

/-- No node lies further away than the new members, and none that is as far is expanded. -/
def Frontier (newDist : ℕ) (quorum : QuorumMap N) : Prop :=
  ∀ v info, quorum v = some info →
    info.distance < newDist ∨ info.distance = newDist ∧ info.quorumSet = none

theorem frontier_withMembers {members : List N} (hfrontier : Frontier newDist quorum) :
    Frontier newDist (withMembers newDist closestValidators members quorum) := by
  intro v info hinfo
  unfold withMembers at hinfo
  split at hinfo
  · split at hinfo
    · cases hinfo
      exact Or.inr ⟨rfl, rfl⟩
    next old hold =>
      split at hinfo
      · cases hinfo
        exact hfrontier v _ hold
      · cases hinfo
        exact hfrontier v old hold
  · exact hfrontier v info hinfo

theorem expandMember_eq (hfrontier : Frontier newDist quorum) (qnode : N) :
    expandMember newDist closestValidators (quorum, true) qnode =
      (withMembers newDist closestValidators [qnode] quorum, true) := by
  have hrest : ∀ value v, value = withMembers newDist closestValidators [qnode] quorum qnode →
      update quorum qnode value v = withMembers newDist closestValidators [qnode] quorum v := by
    intro value v hvalue
    by_cases hv : v = qnode
    · rw [hv, update_self, hvalue]
    · rw [update_of_ne hv, withMembers, if_neg (by simpa using hv)]
  unfold expandMember
  simp only [Bool.not_true, Bool.false_eq_true, if_false]
  cases hinfo : quorum qnode with
  | none =>
    refine Prod.ext (funext fun v => hrest _ v ?_) rfl
    rw [withMembers, if_pos (mem_singleton_self qnode), hinfo, Finset.empty_union]
  | some info =>
    by_cases hnear : info.distance < newDist
    · simp only [if_pos hnear]
      refine Prod.ext (funext fun v => ?_) rfl
      refine Eq.trans ?_ (hrest (some info) v ?_)
      · rw [← hinfo, update_eq_self]
      rw [withMembers, if_pos (mem_singleton_self qnode), hinfo]
      exact (if_pos hnear).symm
    · obtain ⟨hsame, hunexpanded⟩ := (hfrontier qnode info hinfo).resolve_left hnear
      simp only [if_neg hnear, hunexpanded, isSome_none, Bool.false_eq_true, if_false,
        if_neg (Nat.not_lt.mpr hsame.le)]
      refine Prod.ext (funext fun v => hrest _ v ?_) rfl
      rw [withMembers, if_pos (mem_singleton_self qnode), hinfo]
      simp only [if_neg hnear, hunexpanded]

theorem withMembers_cons (qnode : N) (members : List N) :
    withMembers newDist closestValidators members
        (withMembers newDist closestValidators [qnode] quorum) =
      withMembers newDist closestValidators (qnode :: members) quorum := by
  funext v
  by_cases hv : v = qnode
  · subst hv
    simp only [withMembers, if_true, mem_cons, true_or]
    split
    · cases hinfo : quorum v with
      | none => simp
      | some info =>
        by_cases hnear : info.distance < newDist
        · simp [hnear]
        · simp [hnear, Finset.union_assoc]
    · rfl
  · simp [withMembers, hv]

theorem foldl_expandMember (hfrontier : Frontier newDist quorum) (members : List N) :
    members.foldl (expandMember newDist closestValidators) (quorum, true) =
      (withMembers newDist closestValidators members quorum, true) := by
  induction members generalizing quorum with
  | nil =>
    refine Prod.ext (funext fun v => ?_) rfl
    simp [withMembers]
  | cons qnode members ih =>
    rw [foldl_cons, expandMember_eq hfrontier, ih (frontier_withMembers hfrontier),
      withMembers_cons]

end Expansion

/-- The second node is a member of the quorum set of the first. -/
def Knows (lookup : N → Option (ScpQuorumSet N)) (u v : N) : Prop :=
  ∃ quorumSet, lookup u = some quorumSet ∧ v ∈ allNodes quorumSet

section Expanding

variable {tracker : QuorumTracker N} {node : N} {info : NodeInfo N} {quorumSet : ScpQuorumSet N}

/-- The tracked nodes when a node on the last layer but one is expanded. -/
def afterExpand (tracker : QuorumTracker N) (node : N) (info : NodeInfo N)
    (quorumSet : ScpQuorumSet N) : QuorumMap N :=
  withMembers (info.distance + 1) info.closestValidators (allNodes quorumSet)
    (update tracker.quorum node (some { info with quorumSet := some quorumSet }))

theorem expand_eq (hnode : tracker.quorum node = some info) (hnew : info.quorumSet = none)
    (hlayer : ∀ v info', tracker.quorum v = some info' → info'.distance ≤ info.distance + 1)
    (hexpanded : ∀ v info', tracker.quorum v = some info' → info'.quorumSet.isSome →
      info'.distance ≤ info.distance) :
    tracker.expand node quorumSet =
      ({ tracker with quorum := afterExpand tracker node info quorumSet }, .ok ()) := by
  have hfrontier : Frontier (info.distance + 1)
      (update tracker.quorum node (some { info with quorumSet := some quorumSet })) := by
    intro v info' hinfo'
    by_cases hv : v = node
    · rw [hv, update_self] at hinfo'
      cases hinfo'
      exact Or.inl (Nat.lt_succ_self _)
    · rw [update_of_ne hv] at hinfo'
      rcases Nat.lt_or_eq_of_le (hlayer v info' hinfo') with hlt | heq
      · exact Or.inl hlt
      · refine Or.inr ⟨heq, ?_⟩
        cases hset : info'.quorumSet with
        | none => rfl
        | some other =>
          have hle := hexpanded v info' hinfo' (by rw [hset]; rfl)
          omega
  unfold expand
  rw [hnode]
  simp only [hnew, foldl_expandMember hfrontier, if_true]
  rfl

/-- What becomes of a node that was tracked. -/
def grown (node : N) (info : NodeInfo N) (quorumSet : ScpQuorumSet N) (v : N)
    (old : NodeInfo N) : NodeInfo N where
  quorumSet := if v = node then some quorumSet else old.quorumSet
  distance := old.distance
  closestValidators :=
    if v ∈ allNodes quorumSet ∧ old.distance = info.distance + 1 then
      old.closestValidators ∪ reachedThrough (info.distance + 1) info.closestValidators v
    else old.closestValidators

/-- A member that was not tracked. -/
def met (info : NodeInfo N) (v : N) : NodeInfo N where
  quorumSet := none
  distance := info.distance + 1
  closestValidators := reachedThrough (info.distance + 1) info.closestValidators v

theorem afterExpand_of_tracked (hnode : tracker.quorum node = some info)
    (hlayer : ∀ v info', tracker.quorum v = some info' → info'.distance ≤ info.distance + 1) {v : N}
    {old : NodeInfo N} (hold : tracker.quorum v = some old) :
    afterExpand tracker node info quorumSet v = some (grown node info quorumSet v old) := by
  unfold afterExpand withMembers grown
  by_cases hv : v = node
  · subst hv
    rw [hold] at hnode
    cases hnode
    simp [update_self]
  · have hle := hlayer v old hold
    rw [update_of_ne hv, hold, if_neg hv]
    by_cases hmem : v ∈ allNodes quorumSet
    · by_cases hlt : old.distance < info.distance + 1
      · simp [hmem, hlt, hlt.ne]
      · simp [hmem, show old.distance = info.distance + 1 by omega]
    · simp [hmem]

theorem afterExpand_of_untracked (hnode : tracker.quorum node = some info) {v : N}
    (hold : tracker.quorum v = none) :
    afterExpand tracker node info quorumSet v =
      if v ∈ allNodes quorumSet then some (met info v) else none := by
  have hv : v ≠ node := by
    rintro rfl
    rw [hold] at hnode
    cases hnode
  unfold afterExpand withMembers met
  rw [update_of_ne hv, hold]

end Expanding

/-! ### The search -/

section Search

variable {lookup : N → Option (ScpQuorumSet N)} {tracker : QuorumTracker N} {backlog : List N}

/-- A tracked node that is still to be expanded. -/
def Pending (lookup : N → Option (ScpQuorumSet N)) (tracker : QuorumTracker N) (v : N)
    (info : NodeInfo N) : Prop :=
  tracker.quorum v = some info ∧ info.quorumSet = none ∧ (lookup v).isSome

def Expanded (tracker : QuorumTracker N) (v : N) (info : NodeInfo N) : Prop :=
  tracker.quorum v = some info ∧ info.quorumSet.isSome

/-- What holds whenever the loop looks at the backlog. -/
structure Searching (lookup : N → Option (ScpQuorumSet N)) (tracker : QuorumTracker N)
    (backlog : List N) : Prop where
  start : ∃ info, tracker.quorum tracker.localNodeId = some info ∧ info.distance = 0
  known : ∀ v info, Expanded tracker v info → info.quorumSet = lookup v
  parent : ∀ v info, v ≠ tracker.localNodeId → tracker.quorum v = some info →
    ∃ u info', Expanded tracker u info' ∧ Knows lookup u v ∧ info.distance = info'.distance + 1
  next : ∀ u info v, Expanded tracker u info → Knows lookup u v →
    ∃ info', tracker.quorum v = some info' ∧ info'.distance ≤ info.distance + 1
  first : ∀ v info, v ≠ tracker.localNodeId → tracker.quorum v = some info →
    info.distance = 1 → info.closestValidators = {v}
  later : ∀ v info n, tracker.quorum v = some info → info.distance = n + 2 →
    ∀ w, w ∈ info.closestValidators ↔ ∃ u info', Expanded tracker u info' ∧ Knows lookup u v ∧
      info'.distance = n + 1 ∧ w ∈ info'.closestValidators
  tracked : ∀ v ∈ backlog, (tracker.quorum v).isSome
  waiting : ∀ v info, Pending lookup tracker v info → v ∈ backlog
  /-- Up to one layer all nodes are expanded, and none lies beyond the next. -/
  layer : ∃ c, (∀ v info, Expanded tracker v info → info.distance ≤ c) ∧
    (∀ v info, tracker.quorum v = some info → info.distance ≤ c + 1) ∧
    ∀ v info, Pending lookup tracker v info → c ≤ info.distance
  /-- What lies nearer comes earlier. -/
  order : ∀ before v after, backlog = before ++ v :: after → ∀ info,
    Pending lookup tracker v info → ∀ u info', Pending lookup tracker u info' →
      info'.distance < info.distance → u ∈ before

theorem searching_new (lookup : N → Option (ScpQuorumSet N)) (localNodeId : N) :
    Searching lookup (new localNodeId) [localNodeId] := by
  have hself : (new localNodeId).quorum localNodeId =
      some { quorumSet := none, distance := 0, closestValidators := ∅ } := by
    simp [new, onlyLocal]
  have honly : ∀ v info, (new localNodeId).quorum v = some info → v = localNodeId ∧
      info = { quorumSet := none, distance := 0, closestValidators := ∅ } := by
    intro v info hinfo
    by_cases hv : v = localNodeId
    · subst hv
      rw [hself] at hinfo
      exact ⟨rfl, (some.inj hinfo).symm⟩
    · have hnone : (new localNodeId).quorum v = none := by
        simp [new, onlyLocal, hv]
      rw [hnone] at hinfo
      cases hinfo
  have hunexpanded : ∀ v info, ¬ Expanded (new localNodeId) v info := by
    intro v info hexpanded
    obtain ⟨-, rfl⟩ := honly v info hexpanded.1
    cases hexpanded.2
  exact {
    start := ⟨_, hself, rfl⟩
    known := fun v info hexpanded => absurd hexpanded (hunexpanded v info)
    parent := fun v info hv hinfo => absurd (honly v info hinfo).1 hv
    next := fun u info v hexpanded => absurd hexpanded (hunexpanded u info)
    first := fun v info hv hinfo => absurd (honly v info hinfo).1 hv
    later := by
      intro v info n hinfo hdistance
      obtain ⟨-, rfl⟩ := honly v info hinfo
      cases hdistance
    tracked := by
      intro v hv
      rw [mem_singleton.mp hv, hself]
      rfl
    waiting := fun v info hpending => mem_singleton.mpr (honly v info hpending.1).1
    layer := by
      refine ⟨0, fun v info hexpanded => absurd hexpanded (hunexpanded v info), ?_,
        fun _ _ _ => Nat.zero_le _⟩
      intro v info hinfo
      obtain ⟨-, rfl⟩ := honly v info hinfo
      exact Nat.zero_le 1
    order := by
      intro before v after _ info hpending u info' hpending' hlt
      obtain ⟨-, rfl⟩ := honly v info hpending.1
      exact absurd hlt (Nat.not_lt_zero _) }

omit [DecidableEq N] in
/-- A node that needs no expansion is dropped. -/
theorem Searching.skip {node : N} (hsearching : Searching lookup tracker (node :: backlog))
    (hdone : ∀ info, ¬ Pending lookup tracker node info) : Searching lookup tracker backlog := by
  have hother : ∀ v info, Pending lookup tracker v info → v ≠ node := by
    rintro v info hpending rfl
    exact hdone info hpending
  exact { hsearching with
    tracked := fun v hv => hsearching.tracked v (mem_cons_of_mem _ hv)
    waiting := fun v info hpending =>
      (mem_cons.mp (hsearching.waiting v info hpending)).resolve_left (hother v info hpending)
    order := by
      intro before v after hsplit info hpending u info' hpending' hlt
      have hmem := hsearching.order (node :: before) v after (by rw [hsplit]; rfl) info hpending
        u info' hpending' hlt
      exact (mem_cons.mp hmem).resolve_left (hother u info' hpending') }

section Expand

variable {node : N} {info : NodeInfo N} {quorumSet : ScpQuorumSet N} {info' : NodeInfo N} {v : N}

section

omit [DecidableEq N]

section

variable (hsearching : Searching lookup tracker (node :: backlog))
  (hnode : Pending lookup tracker node info)
include hsearching hnode

theorem Searching.nearest
    (hpending : Pending lookup tracker v info') : info.distance ≤ info'.distance := by
  by_contra hlt
  exact not_mem_nil (hsearching.order [] node backlog rfl info hnode v info' hpending
    (Nat.not_le.mp hlt))

theorem Searching.expanded_le
    (hexpanded : Expanded tracker v info') : info'.distance ≤ info.distance := by
  obtain ⟨c, hdone, -, hpending⟩ := hsearching.layer
  exact (hdone v info' hexpanded).trans (hpending node info hnode)

theorem Searching.tracked_le
    (htracked : tracker.quorum v = some info') : info'.distance ≤ info.distance + 1 := by
  obtain ⟨c, -, hall, hpending⟩ := hsearching.layer
  exact (hall v info' htracked).trans (Nat.succ_le_succ (hpending node info hnode))

end

end

/-- The tracker after the expansion of the first node of the backlog. -/
def grownTracker (tracker : QuorumTracker N) (node : N) (info : NodeInfo N)
    (quorumSet : ScpQuorumSet N) : QuorumTracker N :=
  { tracker with quorum := afterExpand tracker node info quorumSet }

variable {old : NodeInfo N}

section

variable (hsearching : Searching lookup tracker (node :: backlog))
  (hnode : Pending lookup tracker node info)
include hsearching hnode

theorem Searching.grown_of_tracked (hold : tracker.quorum v = some old) :
    (grownTracker tracker node info quorumSet).quorum v = some (grown node info quorumSet v old) :=
  afterExpand_of_tracked hnode.1 (fun _ _ htracked => hsearching.tracked_le hnode htracked) hold

theorem Searching.tracked_cases
    (htracked : (grownTracker tracker node info quorumSet).quorum v = some info') :
    (∃ old, tracker.quorum v = some old ∧ info' = grown node info quorumSet v old) ∨
      tracker.quorum v = none ∧ v ∈ allNodes quorumSet ∧ info' = met info v := by
  cases hold : tracker.quorum v with
  | some old =>
    rw [hsearching.grown_of_tracked hnode hold] at htracked
    exact Or.inl ⟨old, rfl, (some.inj htracked).symm⟩
  | none =>
    have hmet : afterExpand tracker node info quorumSet v = _ :=
      afterExpand_of_untracked hnode.1 hold
    change afterExpand tracker node info quorumSet v = some info' at htracked
    rw [hmet] at htracked
    split at htracked
    next hmem => exact Or.inr ⟨rfl, hmem, (some.inj htracked).symm⟩
    · cases htracked

theorem Searching.expanded_iff :
    Expanded (grownTracker tracker node info quorumSet) v info' ↔
      Expanded tracker v info' ∨ v = node ∧ info' = { info with quorumSet := some quorumSet } := by
  constructor
  · rintro ⟨htracked, hset⟩
    rcases hsearching.tracked_cases hnode htracked with ⟨old, hold, rfl⟩ | ⟨-, -, rfl⟩
    · by_cases hv : v = node
      · subst hv
        have hsame := hnode.1.symm.trans hold
        cases hsame
        refine Or.inr ⟨rfl, ?_⟩
        simp [grown]
      · rw [grown, if_neg hv] at hset
        have hle := hsearching.expanded_le hnode ⟨hold, hset⟩
        refine Or.inl ⟨?_, ?_⟩
        · rw [hold, grown, if_neg hv, if_neg (by rintro ⟨-, heq⟩; omega)]
        · rw [grown, if_neg hv]
          exact hset
    · cases hset
  · rintro (hexpanded | ⟨rfl, rfl⟩)
    · have hv : v ≠ node := by
        rintro rfl
        have hsame := hnode.1.symm.trans hexpanded.1
        cases hsame
        have hset := hexpanded.2
        rw [hnode.2.1] at hset
        cases hset
      have hle := hsearching.expanded_le hnode hexpanded
      refine ⟨?_, hexpanded.2⟩
      rw [hsearching.grown_of_tracked hnode hexpanded.1, grown, if_neg hv,
        if_neg (by rintro ⟨-, heq⟩; omega)]
    · refine ⟨?_, rfl⟩
      rw [hsearching.grown_of_tracked hnode hnode.1]
      simp [grown]

theorem Searching.pending_cases
    (hpending : Pending lookup (grownTracker tracker node info quorumSet) v info') :
    (v ≠ node ∧ ∃ old, Pending lookup tracker v old ∧ info'.distance = old.distance) ∨
      tracker.quorum v = none ∧ v ∈ allNodes quorumSet ∧ info'.distance = info.distance + 1 := by
  obtain ⟨htracked, hset, hknown⟩ := hpending
  rcases hsearching.tracked_cases hnode htracked with ⟨old, hold, rfl⟩ | ⟨hnone, hmem, rfl⟩
  · have hv : v ≠ node := by
      rintro rfl
      rw [grown, if_pos rfl] at hset
      cases hset
    rw [grown, if_neg hv] at hset
    exact Or.inl ⟨hv, old, ⟨hold, hset, hknown⟩, rfl⟩
  · exact Or.inr ⟨hnone, hmem, rfl⟩

theorem Searching.distance_kept (hold : tracker.quorum v = some old) : ∃ info',
      (grownTracker tracker node info quorumSet).quorum v = some info' ∧
        info'.distance = old.distance :=
  ⟨_, hsearching.grown_of_tracked hnode hold, rfl⟩

theorem Searching.member_tracked (hmem : v ∈ allNodes quorumSet) :
    ∃ info', (grownTracker tracker node info quorumSet).quorum v = some info' ∧
      info'.distance ≤ info.distance + 1 := by
  cases hold : tracker.quorum v with
  | some old =>
    have hle := hsearching.tracked_le hnode hold
    exact ⟨_, hsearching.grown_of_tracked hnode hold, hle⟩
  | none =>
    refine ⟨met info v, ?_, le_rfl⟩
    exact (afterExpand_of_untracked hnode.1 hold).trans (if_pos hmem)

end

omit [DecidableEq N] in
theorem Searching.distance_pos (hsearching : Searching lookup tracker backlog)
    (hold : tracker.quorum v = some old) (hv : v ≠ tracker.localNodeId) : 0 < old.distance := by
  obtain ⟨_, _, -, -, hsucc⟩ := hsearching.parent v old hv hold
  exact hsucc ▸ Nat.succ_pos _

section

variable (hsearching : Searching lookup tracker (node :: backlog))
  (hnode : Pending lookup tracker node info)
include hsearching hnode

theorem Searching.first_expand (hv : v ≠ tracker.localNodeId)
    (htracked : (grownTracker tracker node info quorumSet).quorum v = some info')
    (hdistance : info'.distance = 1) : info'.closestValidators = {v} := by
  rcases hsearching.tracked_cases hnode htracked with ⟨old, hold, rfl⟩ | ⟨-, -, rfl⟩
  · have hclosest := hsearching.first v old hv hold hdistance
    simp only [grown]
    split
    next hnew =>
      have hone : info.distance + 1 = 1 := hnew.2 ▸ hdistance
      rw [hclosest, reachedThrough, if_pos hone, Finset.union_idempotent]
    · exact hclosest
  · exact if_pos hdistance

theorem Searching.later_expand (hlookup : lookup node = some quorumSet) {n : ℕ}
    (htracked : (grownTracker tracker node info quorumSet).quorum v = some info')
    (hdistance : info'.distance = n + 2) (w : N) :
    w ∈ info'.closestValidators ↔ ∃ u info'',
      Expanded (grownTracker tracker node info quorumSet) u info'' ∧ Knows lookup u v ∧
        info''.distance = n + 1 ∧ w ∈ info''.closestValidators := by
  have hknows : Knows lookup node v ↔ v ∈ allNodes quorumSet := by
    constructor
    · rintro ⟨other, hother, hmem⟩
      rw [hlookup] at hother
      cases hother
      exact hmem
    · exact fun hmem => ⟨quorumSet, hlookup, hmem⟩
  -- The node hands on what it is reached through, beside what was handed on before.
  have hsplit : (∃ u info'', Expanded (grownTracker tracker node info quorumSet) u info'' ∧
      Knows lookup u v ∧ info''.distance = n + 1 ∧ w ∈ info''.closestValidators) ↔
      (∃ u info'', Expanded tracker u info'' ∧ Knows lookup u v ∧ info''.distance = n + 1 ∧
        w ∈ info''.closestValidators) ∨
      v ∈ allNodes quorumSet ∧ info.distance = n + 1 ∧ w ∈ info.closestValidators := by
    constructor
    · rintro ⟨u, info'', hexpanded, hedge, hlayer, hw⟩
      rcases (hsearching.expanded_iff hnode).mp hexpanded with hold | ⟨rfl, rfl⟩
      · exact Or.inl ⟨u, info'', hold, hedge, hlayer, hw⟩
      · exact Or.inr ⟨hknows.mp hedge, hlayer, hw⟩
    · rintro (⟨u, info'', hold, hedge, hlayer, hw⟩ | ⟨hmem, hlayer, hw⟩)
      · exact ⟨u, info'', (hsearching.expanded_iff hnode).mpr (Or.inl hold), hedge, hlayer, hw⟩
      · exact ⟨node, _, (hsearching.expanded_iff hnode).mpr (Or.inr ⟨rfl, rfl⟩),
          hknows.mpr hmem, hlayer, hw⟩
  rw [hsplit]
  rcases hsearching.tracked_cases hnode htracked with ⟨old, hold, rfl⟩ | ⟨hnone, hmem, rfl⟩
  · have hlater := hsearching.later v old n hold hdistance w
    have hold : old.distance = n + 2 := hdistance
    simp only [grown]
    split
    next hnew =>
      have hlayer : info.distance = n + 1 := by omega
      rw [Finset.mem_union, hlater, reachedThrough, if_neg (by omega)]
      exact or_congr_right ⟨fun hw => ⟨hnew.1, hlayer, hw⟩, fun hw => hw.2.2⟩
    next hkept =>
      rw [hlater]
      refine (or_iff_left ?_).symm
      rintro ⟨hmem, hlayer, -⟩
      exact hkept ⟨hmem, by omega⟩
  · have hlayer : info.distance = n + 1 := Nat.succ.inj hdistance
    have hno : ¬ ∃ u info'', Expanded tracker u info'' ∧ Knows lookup u v ∧
        info''.distance = n + 1 ∧ w ∈ info''.closestValidators := by
      rintro ⟨u, info'', hexpanded, hedge, -, -⟩
      obtain ⟨old, hold, -⟩ := hsearching.next u info'' v hexpanded hedge
      rw [hnone] at hold
      cases hold
    rw [or_iff_right hno, met, reachedThrough, if_neg (by omega)]
    exact ⟨fun hw => ⟨hmem, hlayer, hw⟩, fun hw => hw.2.2⟩

theorem Searching.expand (hlookup : lookup node = some quorumSet) :
    Searching lookup (grownTracker tracker node info quorumSet)
      (backlog ++ allNodes quorumSet) where
  start := by
    obtain ⟨old, hold, hzero⟩ := hsearching.start
    exact ⟨_, hsearching.grown_of_tracked hnode hold, hzero⟩
  known := by
    intro v info' hexpanded
    rcases (hsearching.expanded_iff hnode).mp hexpanded with hold | ⟨rfl, rfl⟩
    · exact hsearching.known v info' hold
    · exact hlookup.symm
  parent := by
    intro v info' hv htracked
    rcases hsearching.tracked_cases hnode htracked with ⟨old, hold, rfl⟩ | ⟨-, hmem, rfl⟩
    · obtain ⟨u, parent, hexpanded, hedge, hsucc⟩ := hsearching.parent v old hv hold
      exact ⟨u, parent, (hsearching.expanded_iff hnode).mpr (Or.inl hexpanded), hedge, hsucc⟩
    · exact ⟨node, _, (hsearching.expanded_iff hnode).mpr (Or.inr ⟨rfl, rfl⟩),
        ⟨quorumSet, hlookup, hmem⟩, rfl⟩
  next := by
    intro u info' v hexpanded hedge
    rcases (hsearching.expanded_iff hnode).mp hexpanded with hold | ⟨rfl, rfl⟩
    · obtain ⟨old, htracked, hle⟩ := hsearching.next u info' v hold hedge
      obtain ⟨new, hnew, hsame⟩ := hsearching.distance_kept hnode htracked
      exact ⟨new, hnew, hsame ▸ hle⟩
    · obtain ⟨other, hother, hmem⟩ := hedge
      rw [hlookup] at hother
      cases hother
      exact hsearching.member_tracked hnode hmem
  first := fun v info' hv htracked => hsearching.first_expand hnode hv htracked
  later := fun v info' n htracked hdistance =>
    hsearching.later_expand hnode hlookup htracked hdistance
  tracked := by
    intro v hv
    rcases mem_append.mp hv with hold | hmem
    · obtain ⟨old, htracked⟩ := isSome_iff_exists.mp
        (hsearching.tracked v (mem_cons_of_mem _ hold))
      exact isSome_iff_exists.mpr ⟨_, hsearching.grown_of_tracked hnode htracked⟩
    · obtain ⟨info', htracked, -⟩ := hsearching.member_tracked hnode hmem
      exact isSome_iff_exists.mpr ⟨info', htracked⟩
  waiting := by
    intro v info' hpending
    rcases hsearching.pending_cases hnode hpending with ⟨hv, old, hold, -⟩ | ⟨-, hmem, -⟩
    · exact mem_append_left _
        ((mem_cons.mp (hsearching.waiting v old hold)).resolve_left hv)
    · exact mem_append_right _ hmem
  layer := by
    refine ⟨info.distance, ?_, ?_, ?_⟩
    · intro v info' hexpanded
      rcases (hsearching.expanded_iff hnode).mp hexpanded with hold | ⟨rfl, rfl⟩
      · exact hsearching.expanded_le hnode hold
      · exact le_rfl
    · intro v info' htracked
      rcases hsearching.tracked_cases hnode htracked with ⟨old, hold, rfl⟩ | ⟨-, -, rfl⟩
      · have hle := hsearching.tracked_le hnode hold
        exact hle
      · exact le_rfl
    · intro v info' hpending
      rcases hsearching.pending_cases hnode hpending with ⟨-, old, hold, hsame⟩ | ⟨-, -, hsame⟩
      · exact hsame ▸ hsearching.nearest hnode hold
      · exact hsame ▸ Nat.le_succ _
  order := by
    intro before v after hsplit info' hpending u info'' hpending' hlt
    have hle : info'.distance ≤ info.distance + 1 := by
      rcases hsearching.pending_cases hnode hpending with ⟨-, old, hold, hsame⟩ | ⟨-, -, hsame⟩
      · exact hsame ▸ hsearching.tracked_le hnode hold.1
      · exact hsame.le
    -- What has been met lies on the last layer, so `u` was pending before.
    obtain ⟨hu, old, hold, hsame⟩ : u ≠ node ∧ ∃ old, Pending lookup tracker u old ∧
        info''.distance = old.distance := by
      rcases hsearching.pending_cases hnode hpending' with hold | ⟨-, -, hsame⟩
      · exact hold
      · omega
    have hin : u ∈ backlog := (mem_cons.mp (hsearching.waiting u old hold)).resolve_left hu
    rcases append_eq_append_iff.mp hsplit with ⟨rest, rfl, -⟩ | ⟨rest, hbacklog, hrest⟩
    · exact mem_append_left _ hin
    · cases rest with
      | nil =>
        rw [append_nil] at hbacklog
        exact hbacklog ▸ hin
      | cons head tail =>
        cases hrest
        rcases hsearching.pending_cases hnode hpending with ⟨hv, old', hold', hsame'⟩ | ⟨hnone, -⟩
        · have hmem := hsearching.order (node :: before) v tail (by rw [hbacklog]; rfl) old' hold'
            u old hold (by omega)
          exact (mem_cons.mp hmem).resolve_left hu
        · have hbefore := hsearching.tracked v (by rw [hbacklog]; simp)
          rw [hnone] at hbefore
          cases hbefore

end

end Expand

/-- Nothing is left to expand: distances and first steps are those of the shortest paths. -/
structure Exact (lookup : N → Option (ScpQuorumSet N)) (tracker : QuorumTracker N) : Prop where
  tracked : ∀ v, (tracker.quorum v).isSome ↔ ∃ n, PathTo (Knows lookup) tracker.localNodeId n v
  distance : ∀ v info, tracker.quorum v = some info →
    AtDistance (Knows lookup) tracker.localNodeId info.distance v
  closest : ∀ v info, v ≠ tracker.localNodeId → tracker.quorum v = some info →
    ∀ w, w ∈ info.closestValidators ↔ PathVia (Knows lookup) tracker.localNodeId w info.distance v

omit [DecidableEq N] in
/-- The end of the loop. -/
theorem Searching.exact (hsearching : Searching lookup tracker []) : Exact lookup tracker := by
  let dist : N → Option ℕ := fun v => (tracker.quorum v).map NodeInfo.distance
  let via : N → Set N := fun v =>
    {w | ∃ info, tracker.quorum v = some info ∧ w ∈ info.closestValidators}
  have hdist : ∀ {v info}, tracker.quorum v = some info → dist v = some info.distance := by
    intro v info htracked
    simp only [dist, htracked, map_some]
  have htracked_of : ∀ {v n}, dist v = some n → ∃ info, tracker.quorum v = some info ∧
      info.distance = n := fun hn => map_eq_some_iff.mp hn
  have hvia : ∀ {v info}, tracker.quorum v = some info → ∀ w, w ∈ via v ↔
      w ∈ info.closestValidators := by
    intro v info htracked w
    simp only [via, Set.mem_ofPred_eq, htracked, some.injEq, exists_eq_left']
  -- A tracked node whose quorum set is known has been expanded.
  have hexpanded : ∀ {u v info}, Knows lookup u v → tracker.quorum u = some info →
      Expanded tracker u info := by
    rintro u v info ⟨quorumSet, hlookup, -⟩ htracked
    refine ⟨htracked, ?_⟩
    by_contra hset
    have hnone : info.quorumSet = none := by simpa using hset
    exact not_mem_nil (hsearching.waiting u info ⟨htracked, hnone, by rw [hlookup]; rfl⟩)
  have hlayered : Layered (Knows lookup) tracker.localNodeId dist := {
    start := by
      obtain ⟨info, htracked, hzero⟩ := hsearching.start
      rw [hdist htracked, hzero]
    parent := by
      intro v n hv hn
      obtain ⟨info, htracked, rfl⟩ := htracked_of hn
      obtain ⟨u, parent, hparent, hedge, hsucc⟩ := hsearching.parent v info hv htracked
      exact ⟨u, parent.distance, hedge, hdist hparent.1, hsucc⟩
    next := by
      intro u v n hedge hn
      obtain ⟨info, htracked, rfl⟩ := htracked_of hn
      obtain ⟨info', htracked', hle⟩ :=
        hsearching.next u info v (hexpanded hedge htracked) hedge
      exact ⟨info'.distance, hle, hdist htracked'⟩ }
  have hhands : HandsOn (Knows lookup) tracker.localNodeId dist via := {
    first := by
      intro v hv hone
      obtain ⟨info, htracked, hone⟩ := htracked_of hone
      ext w
      rw [hvia htracked, hsearching.first v info hv htracked hone, Finset.mem_singleton,
        Set.mem_singleton_iff]
    later := by
      intro v n hn w
      obtain ⟨info, htracked, hn⟩ := htracked_of hn
      rw [hvia htracked, hsearching.later v info n htracked hn]
      constructor
      · rintro ⟨u, info', hdone, hedge, hlayer, hw⟩
        exact ⟨u, hedge, hlayer ▸ hdist hdone.1, (hvia hdone.1 w).mpr hw⟩
      · rintro ⟨u, hedge, hlayer, hw⟩
        obtain ⟨info', htracked', hlayer⟩ := htracked_of hlayer
        exact ⟨u, info', hexpanded hedge htracked', hedge, hlayer, (hvia htracked' w).mp hw⟩ }
  exact {
    tracked := by
      intro v
      rw [← hlayered.isSome_iff, isSome_map]
    distance := fun v info htracked => hlayered.dist_iff.mp (hdist htracked)
    closest := by
      intro v info hv htracked w
      obtain ⟨n, hn⟩ := Nat.exists_eq_succ_of_ne_zero (hsearching.distance_pos htracked hv).ne'
      have hlabel := hdist htracked
      rw [hn] at hlabel
      rw [← hvia htracked, hn]
      exact hhands.mem_via_iff hlayered hlabel }

end Search

/-! ### The whole search -/

section Rebuild

variable [Fintype N] {lookup : N → Option (ScpQuorumSet N)} {tracker : QuorumTracker N}

/-- The nodes that can still be expanded. -/
def unexpanded (tracker : QuorumTracker N) : Finset N :=
  Finset.univ.filter fun v => ((tracker.quorum v).bind NodeInfo.quorumSet).isNone

theorem Searching.unexpanded_lt {node : N} {info : NodeInfo N} {quorumSet : ScpQuorumSet N}
    {backlog : List N} (hsearching : Searching lookup tracker (node :: backlog))
    (hnode : Pending lookup tracker node info) :
    (grownTracker tracker node info quorumSet).unexpanded.card < tracker.unexpanded.card := by
  apply Finset.card_lt_card
  rw [Finset.ssubset_iff_of_subset]
  · refine ⟨node, ?_, ?_⟩
    · simp [unexpanded, hnode.1, hnode.2.1]
    · simp [unexpanded, hsearching.grown_of_tracked hnode hnode.1, grown]
  · intro v
    simp only [unexpanded, Finset.mem_filter, Finset.mem_univ, true_and]
    cases hold : tracker.quorum v with
    | none => intro _; rfl
    | some old =>
      rw [hsearching.grown_of_tracked hnode hold]
      simp only [bind_some, grown]
      split
      · intro hnone
        cases hnone
      · exact id

/-- With enough fuel the loop ends without an error. By induction on the nodes that can still
be expanded, and for each number of them on the backlog. -/
theorem Searching.exists_rebuildLoop {backlog : List N}
    (hsearching : Searching lookup tracker backlog) :
    ∃ fuel final, (∀ more, rebuildLoop lookup (fuel + more) tracker backlog =
        some (final, .ok ())) ∧
      final.localNodeId = tracker.localNodeId ∧ Searching lookup final [] := by
  induction hcount : tracker.unexpanded.card using Nat.strong_induction_on
    generalizing tracker backlog with
  | _ count ih =>
    induction backlog with
    | nil =>
      refine ⟨1, tracker, fun more => ?_, rfl, hsearching⟩
      rw [Nat.add_comm]
      rfl
    | cons node backlog ihBacklog =>
      obtain ⟨info, htracked⟩ :=
        isSome_iff_exists.mp (hsearching.tracked node mem_cons_self)
      by_cases hpending : Pending lookup tracker node info
      · obtain ⟨quorumSet, hlookup⟩ := isSome_iff_exists.mp hpending.2.2
        have hexpand := hsearching.expand hpending hlookup
        have hless : (grownTracker tracker node info quorumSet).unexpanded.card <
            tracker.unexpanded.card := hsearching.unexpanded_lt hpending
        obtain ⟨fuel, final, hloop, hlocal, hfinal⟩ :=
          ih _ (hcount ▸ hless) hexpand rfl
        refine ⟨fuel + 1, final, fun more => ?_, hlocal, hfinal⟩
        have heq : tracker.expand node quorumSet = _ := expand_eq htracked hpending.2.1
          (fun _ _ hold => hsearching.tracked_le hpending hold)
          (fun _ _ hold hset => hsearching.expanded_le hpending ⟨hold, hset⟩)
        rw [Nat.add_right_comm, rebuildLoop, htracked]
        simp only [hpending.2.1, isNone_none, if_true, hlookup, heq]
        exact hloop more
      · have hskip := hsearching.skip fun info' hother => by
          have hsame := htracked.symm.trans hother.1
          cases hsame
          exact hpending hother
        obtain ⟨fuel, final, hloop, hlocal, hfinal⟩ := ihBacklog hskip
        refine ⟨fuel + 1, final, fun more => ?_, hlocal, hfinal⟩
        rw [Nat.add_right_comm, rebuildLoop, htracked]
        cases hset : info.quorumSet with
        | some existing =>
          simp only [hset, isNone_some, Bool.false_eq_true, if_false]
          exact hloop more
        | none =>
          have hunknown : lookup node = none := by
            by_contra hknown
            exact hpending ⟨htracked, hset, isSome_iff_ne_none.mpr hknown⟩
          simp only [hset, isNone_none, if_true, hunknown]
          exact hloop more

/-- Whatever the quorum sets refer to, the transitive quorum is rebuilt without an error, and
with it the distances and the closest validators. -/
theorem rebuild_exact (lookup : N → Option (ScpQuorumSet N)) (tracker : QuorumTracker N) :
    ∃ fuel final, (∀ more, tracker.rebuild lookup (fuel + more) = some (final, .ok ())) ∧
      final.localNodeId = tracker.localNodeId ∧ Exact lookup final := by
  obtain ⟨fuel, final, hloop, hlocal, hfinal⟩ :=
    (searching_new lookup tracker.localNodeId).exists_rebuildLoop
  exact ⟨fuel, final, hloop, hlocal, hfinal.exact⟩

end Rebuild

end QuorumTracker

end Henyey.Herder
