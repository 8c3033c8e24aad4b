import Henyey.Scp.Driver
import Henyey.Scp.Normalization
import Henyey.Scp.QuorumLoops

/-!
# Slices and blocking sets are dual

Where every threshold lies between one and the number of members, a set blocks exactly
if no slice avoids it. Both checks look at the nodes of the quorum set only.
-/

namespace Henyey.Scp

open Foundation List ScpQuorumSet

variable {N : Type}

theorem ScpQuorumSet.nested {P : ScpQuorumSet N → Prop}
    (hmk : ∀ threshold validators innerSets, (∀ inner ∈ innerSets, P inner) →
      P (.mk threshold validators innerSets)) (quorumSet : ScpQuorumSet N) : P quorumSet :=
  rec (motive_1 := P) (motive_2 := fun innerSets => ∀ inner ∈ innerSets, P inner)
    hmk (fun _ h => nomatch h)
    (fun _ _ hhead htail _ hmem => (mem_cons.mp hmem).elim (fun h => h ▸ hhead) (htail _))
    quorumSet

mutual

/-- Every threshold can be reached, and is not reached by nothing. -/
def ScpQuorumSet.Proper : ScpQuorumSet N → Prop
  | .mk threshold validators innerSets => 1 ≤ threshold.val ∧
      threshold.val ≤ validators.length + innerSets.length ∧ ProperInner innerSets

def ScpQuorumSet.ProperInner : List (ScpQuorumSet N) → Prop
  | [] => True
  | inner :: rest => inner.Proper ∧ ProperInner rest

end

theorem ScpQuorumSet.properInner_iff (innerSets : List (ScpQuorumSet N)) :
    ProperInner innerSets ↔ ∀ inner ∈ innerSets, inner.Proper := by
  induction innerSets with
  | nil => simp [ProperInner]
  | cons inner rest ih =>
    unfold ProperInner
    rw [ih, forall_mem_cons]

variable {innerSets : List (ScpQuorumSet N)}

theorem mem_innerNodes {node : N} :
    node ∈ innerNodes innerSets ↔ ∃ inner ∈ innerSets, node ∈ allNodes inner := by
  induction innerSets with
  | nil => simp [innerNodes]
  | cons inner rest ih => simp [innerNodes, ih]

variable {validators : List N} {threshold : U32}

theorem mem_allNodes {node : N} : node ∈ allNodes (.mk threshold validators innerSets) ↔
      node ∈ validators ∨ ∃ inner ∈ innerSets, node ∈ allNodes inner := by
  rw [allNodes, mem_append, mem_innerNodes]

/-- The nodes known after two parts of a check. -/
theorem perm_known_trans {known middle known' first second : List N}
    (hfirst : middle.Perm (first ++ known)) (hsecond : known'.Perm (second ++ middle)) :
    known'.Perm (first ++ second ++ known) := by
  refine hsecond.trans ((hfirst.append_left second).trans ?_)
  rw [← append_assoc]
  exact perm_append_comm.append_right _

variable [DecidableEq N]

theorem satisfiedInnerSets_eq (innerSets : List (ScpQuorumSet N)) (nodes : Finset N) :
    satisfiedInnerSets innerSets nodes =
      innerSets.countP fun inner => isQuorumSlice inner nodes := by
  induction innerSets with
  | nil => rfl
  | cons inner rest ih =>
    unfold satisfiedInnerSets
    rw [countP_cons, ih, Nat.add_comm]

theorem blockedInnerSets_eq (innerSets : List (ScpQuorumSet N)) (nodes : Finset N) :
    blockedInnerSets innerSets nodes = innerSets.countP fun inner => isVBlocking inner nodes := by
  induction innerSets with
  | nil => rfl
  | cons inner rest ih =>
    unfold blockedInnerSets
    rw [countP_cons, ih, Nat.add_comm]

theorem isQuorumSlice_mk_iff {nodes : Finset N} :
    isQuorumSlice (.mk threshold validators innerSets) nodes = true ↔ threshold.val ≠ 0 ∧
      threshold.val ≤ validators.countP (fun node => node ∈ nodes) +
        innerSets.countP fun inner => isQuorumSlice inner nodes := by
  rw [isQuorumSlice, satisfiedInnerSets_eq, Bool.and_eq_true, decide_eq_true_eq, bne_iff_ne]

theorem isVBlocking_mk_iff {nodes : Finset N} :
    isVBlocking (.mk threshold validators innerSets) nodes = true ↔ threshold.val ≠ 0 ∧
      validators.length + innerSets.length - threshold.val + 1 ≤
        validators.countP (fun node => node ∈ nodes) +
          innerSets.countP fun inner => isVBlocking inner nodes := by
  rw [isVBlocking, blockedInnerSets_eq, Bool.and_eq_true, decide_eq_true_eq, bne_iff_ne]

theorem isQuorumSlice_eq_not_isVBlocking (quorumSet : ScpQuorumSet N) (hproper : quorumSet.Proper)
    {slice blocking : Finset N}
    (hcomplement : ∀ node ∈ allNodes quorumSet, node ∈ slice ↔ node ∉ blocking) :
    isQuorumSlice quorumSet slice = !isVBlocking quorumSet blocking := by
  induction quorumSet using nested with
  | hmk threshold validators innerSets ih =>
    unfold ScpQuorumSet.Proper at hproper
    obtain ⟨hpos, hle, hinners⟩ := hproper
    rw [properInner_iff] at hinners
    have hdirect : validators.length = validators.countP (fun node => node ∈ slice) +
        validators.countP fun node => node ∈ blocking := by
      have hsplit := length_eq_countP_add_countP (fun node => decide (node ∈ slice))
        (l := validators)
      have hrest : validators.countP (fun node => !decide (node ∈ slice)) =
          validators.countP fun node => node ∈ blocking := by
        refine countP_congr fun node hnode => ?_
        simp [hcomplement node (mem_allNodes.mpr (.inl hnode))]
      simp only [decide_eq_true_eq] at hsplit
      rw [← hrest]
      simpa using hsplit
    have hinner : innerSets.length = (innerSets.countP fun inner => isQuorumSlice inner slice) +
        innerSets.countP fun inner => isVBlocking inner blocking := by
      have hsplit := length_eq_countP_add_countP
        (fun inner => isQuorumSlice inner slice) (l := innerSets)
      have hrest : innerSets.countP (fun inner => !isQuorumSlice inner slice) =
          innerSets.countP fun inner => isVBlocking inner blocking := by
        refine countP_congr fun inner hmem => ?_
        rw [ih inner hmem (hinners inner hmem) fun node hnode =>
          hcomplement node (mem_allNodes.mpr (.inr ⟨inner, hmem, hnode⟩)), Bool.not_not]
      rw [← hrest]
      simpa using hsplit
    rw [Bool.eq_iff_iff, Bool.not_eq_true', ← Bool.not_eq_true, isQuorumSlice_mk_iff,
      isVBlocking_mk_iff]
    omega

/-! ### What the sanity check ensures -/

theorem nodup_insertKnownNodes {known validators known' : List N} (hnodup : known.Nodup)
    (hinsert : insertKnownNodes known validators = .ok known') :
    known'.Nodup ∧ known'.Perm (validators ++ known) := by
  induction validators generalizing known with
  | nil =>
    cases hinsert
    exact ⟨hnodup, .refl _⟩
  | cons node rest ih =>
    unfold insertKnownNodes at hinsert
    split at hinsert
    · cases hinsert
    next hnew =>
      obtain ⟨hnodup', hperm⟩ := ih (nodup_cons.mpr ⟨hnew, hnodup⟩) hinsert
      exact ⟨hnodup', hperm.trans perm_middle⟩

/-- What a check that succeeds has found: the thresholds are proper, the nodes are new
and distinct. -/
structure Checked (nodes : List N) (proper : Prop) (checker checker' : SanityChecker N) : Prop where
  proper : proper
  nodup : checker'.knownNodes.Nodup
  known : checker'.knownNodes.Perm (nodes ++ checker.knownNodes)

variable {extraChecks : Bool} {depth : Nat} {checker checker' : SanityChecker N}

theorem checked_checkInnerSanity
    (hinner : ∀ inner ∈ innerSets, ∀ depth checker checker', checker.knownNodes.Nodup →
      checkSanity extraChecks inner depth checker = .ok checker' →
      Checked (allNodes inner) inner.Proper checker checker')
    (hnodup : checker.knownNodes.Nodup)
    (hcheck : checkInnerSanity extraChecks innerSets depth checker = .ok checker') :
    Checked (innerNodes innerSets) (∀ inner ∈ innerSets, inner.Proper) checker checker' := by
  induction innerSets generalizing checker with
  | nil =>
    rw [checkInnerSanity] at hcheck
    cases hcheck
    exact ⟨fun _ h => absurd h not_mem_nil, hnodup, .refl _⟩
  | cons inner rest ih =>
    obtain ⟨hhead, htail⟩ := forall_mem_cons.mp hinner
    rw [checkInnerSanity] at hcheck
    obtain ⟨middle, hmiddle, hcheck⟩ := bind_ok_iff.mp hcheck
    have hfirst := hhead depth checker middle hnodup hmiddle
    have hrest := ih htail hfirst.nodup hcheck
    refine ⟨forall_mem_cons.mpr ⟨hfirst.proper, hrest.proper⟩, hrest.nodup, ?_⟩
    rw [innerNodes]
    exact perm_known_trans hfirst.known hrest.known

theorem checked_checkSanity (quorumSet : ScpQuorumSet N) (hnodup : checker.knownNodes.Nodup)
    (hcheck : checkSanity extraChecks quorumSet depth checker = .ok checker') :
    Checked (allNodes quorumSet) quorumSet.Proper checker checker' := by
  induction quorumSet using nested generalizing depth checker checker' with
  | hmk threshold validators innerSets ih =>
    rw [checkSanity] at hcheck
    split at hcheck
    · cases hcheck
    split at hcheck
    · cases hcheck
    next hpos =>
    split at hcheck
    · cases hcheck
    next hle =>
    split at hcheck
    · cases hcheck
    obtain ⟨known, hinsert, hcheck⟩ := bind_ok_iff.mp hcheck
    obtain ⟨hknown, hperm⟩ := nodup_insertKnownNodes hnodup hinsert
    have hinners := checked_checkInnerSanity
      (fun inner hmem depth checker checker' => ih inner hmem) hknown hcheck
    refine ⟨?_, hinners.nodup, ?_⟩
    · rw [ScpQuorumSet.Proper, properInner_iff]
      exact ⟨by omega, by omega, hinners.proper⟩
    · rw [allNodes]
      exact perm_known_trans hperm hinners.known

theorem proper_of_isQuorumSetSane {quorumSet : ScpQuorumSet N}
    (hsane : isQuorumSetSane quorumSet extraChecks = .ok ()) :
    quorumSet.Proper ∧ (allNodes quorumSet).Nodup := by
  unfold isQuorumSetSane at hsane
  obtain ⟨checker, hcheck, -⟩ := bind_ok_iff.mp hsane
  obtain ⟨hproper, hnodup, hperm⟩ := checked_checkSanity quorumSet nodup_nil hcheck
  rw [append_nil] at hperm
  exact ⟨hproper, hperm.nodup_iff.mp hnodup⟩

/-- A set blocks exactly if no set that avoids it contains a slice, or just as well if
what the quorum set has outside it contains none; more nodes never undo either check. -/
theorem isVBlocking_dual (quorumSet : ScpQuorumSet N) (hproper : quorumSet.Proper)
    (blocking : Finset N) :
    (isVBlocking quorumSet blocking = true ↔
      ∀ nodes, Disjoint nodes blocking → isQuorumSliceInner quorumSet nodes = false) ∧
    (isVBlocking quorumSet blocking = true ↔
      isQuorumSliceInner quorumSet ((allNodes quorumSet).toFinset \ blocking) = false) ∧
    (∀ more, blocking ⊆ more → isVBlocking quorumSet blocking = true →
      isVBlocking quorumSet more = true) ∧
    ∀ nodes more, nodes ⊆ more → isQuorumSliceInner quorumSet nodes = true →
      isQuorumSliceInner quorumSet more = true := by
  simp only [isQuorumSliceInner_eq]
  have hdual : isQuorumSlice quorumSet ((allNodes quorumSet).toFinset \ blocking) =
      !isVBlocking quorumSet blocking := by
    refine isQuorumSlice_eq_not_isVBlocking quorumSet hproper fun node hnode => ?_
    simp [hnode]
  refine ⟨⟨fun hblocking nodes hdisjoint => ?_, fun havoid => ?_⟩, ?_, ?_, ?_⟩
  · -- a slice that avoids the set would also be one in the complement
    rw [← Bool.not_eq_true]
    intro hslice
    have hnone : isQuorumSlice quorumSet ((allNodes quorumSet).toFinset \ blocking) = false := by
      rw [hdual, hblocking]
      rfl
    have hlarger : isQuorumSlice quorumSet ((allNodes quorumSet).toFinset \ blocking ∪ nodes) =
        !isVBlocking quorumSet blocking := by
      refine isQuorumSlice_eq_not_isVBlocking quorumSet hproper fun node hnode => ?_
      have hnot : node ∈ nodes → node ∉ blocking :=
        fun h => Finset.disjoint_left.mp hdisjoint h
      simp only [Finset.mem_union, Finset.mem_sdiff, mem_toFinset, hnode, true_and]
      exact or_iff_left_of_imp hnot
    rw [isQuorumSlice_mono quorumSet Finset.subset_union_right hslice, hblocking] at hlarger
    cases hlarger
  · have hnone := havoid ((allNodes quorumSet).toFinset \ blocking) Finset.sdiff_disjoint
    rw [hdual, Bool.not_eq_false'] at hnone
    exact hnone
  · rw [hdual, Bool.not_eq_false']
  · exact fun more hsub => isVBlocking_mono quorumSet hsub
  · exact fun nodes more hsub => isQuorumSlice_mono quorumSet hsub

/-- Two of three, one of the three a pair. -/
theorem isVBlocking_dual_nested :
    isVBlocking (.mk 2 [1, 2] [.mk 1 [3, 4] []]) {1, 3, 4} = true ∧
      isQuorumSliceInner (.mk 2 [1, 2] [.mk 1 [3, 4] []])
        ((allNodes (.mk 2 [1, 2] [.mk 1 [3, 4] []])).toFinset \ {1, 3, 4}) = false := by
  have hproper : (mk 2 [1, 2] [.mk 1 [3, 4] []]).Proper := by
    simp [ScpQuorumSet.Proper, ScpQuorumSet.ProperInner]
  have hdual := (isVBlocking_dual _ hproper {1, 3, 4}).2.1
  have hblocking : isVBlocking (.mk 2 [1, 2] [.mk 1 [3, 4] []]) {1, 3, 4} = true := by decide
  exact ⟨hblocking, hdual.mp hblocking⟩

end Henyey.Scp
