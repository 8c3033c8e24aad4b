import Henyey.Foundation.HashChain
import Henyey.Foundation.Hoare
import Henyey.Catchup.Replay

/-!
# What is verified before the replay

The headers of the gap are numbered without holes. When the reverse walk accepts them, each
names the one before it, and the anchor is among them.
-/

namespace Henyey.Catchup

open Foundation List
open History (CheckpointFrequency)

variable {H T R D X S : Type} [DecidableEq H] {format : Format H T R D X}

def Linked (format : Format H T R D X) (earlier later : LedgerHeader H X) : Prop :=
  later.previousLedgerHash = format.computeHeaderHash earlier

/-! ### The reverse walk -/

theorem linked_of_verifyHeaderChainInner {headers : List (LedgerHeader H X)}
    (hok : verifyHeaderChainInner format headers = .ok ()) : headers.IsChain (Linked format) := by
  induction headers with
  | nil => exact .nil
  | cons prev rest ih =>
    cases rest with
    | nil => exact .singleton prev
    | cons curr rest =>
      rw [verifyHeaderChainInner] at hok
      split at hok
      · cases hok
      split at hok
      · cases hok
      next hhash =>
        rw [isChain_cons_cons]
        exact ⟨(Decidable.not_not.mp hhash).symm, ih hok⟩

section Walk

variable {anchorSeq : Nat} {anchorHash : H} {config : ReverseWalkConfig H} {walk walk' : Walk H}
  {group done : List (LedgerHeader H X)}

/-- What holds of the headers that the walk has passed. -/
structure Passed (format : Format H T R D X) (anchorSeq : Nat) (anchorHash : H)
    (done : List (LedgerHeader H X)) (walk : Walk H) : Prop where
  linked : done.IsChain (Linked format)
  link : ∀ first ∈ done.head?, ∃ seq,
    walk.crossCheckpointLink = some (seq, first.previousLedgerHash)
  pending : walk.pendingTrustAnchor = some (anchorSeq, anchorHash) ∨
    walk.pendingTrustAnchor = none ∧ ∃ top ∈ done, top.ledgerSeq = anchorSeq ∧
      format.computeHeaderHash top = anchorHash

theorem verifyTrustAnchor_ok {first last : LedgerHeader H X} {pending : Option (Nat × H)}
    (hok : verifyTrustAnchor format group first last (some (anchorSeq, anchorHash)) = .ok pending) :
    pending = some (anchorSeq, anchorHash) ∨
      pending = none ∧ ∃ top ∈ group, top.ledgerSeq = anchorSeq ∧
        format.computeHeaderHash top = anchorHash := by
  rw [verifyTrustAnchor] at hok
  split at hok
  · cases hok
  split at hok
  · split at hok
    next target htarget =>
      split at hok
      · cases hok
      next hhash =>
        cases hok
        refine Or.inr ⟨rfl, target, mem_of_find?_eq_some htarget, ?_, ?_⟩
        · have hseq := find?_some htarget
          exact beq_iff_eq.mp hseq
        · exact Decidable.not_not.mp hhash
    · cases hok
  · cases hok
    exact Or.inl rfl

section

variable (hpassed : Passed format anchorSeq anchorHash done walk)
include hpassed

/-- One checkpoint. -/
theorem Passed.verifyGroup (hgroup : group ≠ [])
    (hok : Catchup.verifyGroup format config walk group = .ok walk') :
    Passed format anchorSeq anchorHash (group ++ done) walk' := by
  obtain ⟨first, rest, rfl⟩ := exists_cons_of_ne_nil hgroup
  unfold Catchup.verifyGroup at hok
  obtain ⟨_, hinner, hok⟩ := bind_ok_iff.mp hok
  obtain ⟨last, hlast⟩ : ∃ last, (first :: rest).getLast? = some last :=
    ⟨_, getLast?_eq_some_getLast hgroup⟩
  rw [hlast] at hok
  simp only [head?_cons] at hok
  obtain ⟨_, hcross, hok⟩ := bind_ok_iff.mp hok
  obtain ⟨pending, hanchor, hok⟩ := bind_ok_iff.mp hok
  cases hok
  refine ⟨?_, ?_, ?_⟩
  · rw [isChain_append]
    refine ⟨linked_of_verifyHeaderChainInner hinner, hpassed.linked, ?_⟩
    intro found hfound above habove
    rw [hlast] at hfound
    cases hfound
    obtain ⟨seq, hlink⟩ := hpassed.link above habove
    rw [hlink, verifyCrossCheckpointLink] at hcross
    split at hcross
    · cases hcross
    next hhash => exact (Decidable.not_not.mp hhash).symm
  · intro found hfound
    cases hfound
    exact ⟨_, rfl⟩
  · rcases hpassed.pending with hpending | ⟨hpending, top, htop, hseq, hhash⟩
    · rw [hpending] at hanchor
      refine (verifyTrustAnchor_ok hanchor).imp id ?_
      rintro ⟨hnone, top, htop, hseq, hhash⟩
      exact ⟨hnone, top, mem_append_left _ htop, hseq, hhash⟩
    · rw [hpending] at hanchor
      cases hanchor
      exact Or.inr ⟨rfl, top, mem_append_right _ htop, hseq, hhash⟩

theorem Passed.verifyGroups {groups : List (List (LedgerHeader H X))} (hgroups : [] ∉ groups)
    (hok : groups.foldlM (Catchup.verifyGroup format config) walk = .ok walk') :
    Passed format anchorSeq anchorHash (groups.reverse.flatten ++ done) walk' := by
  induction groups generalizing walk done with
  | nil =>
    cases hok
    exact hpassed
  | cons group rest ih =>
    rw [mem_cons, not_or] at hgroups
    rw [foldlM_cons] at hok
    obtain ⟨between, hgroup, hok⟩ := bind_ok_iff.mp hok
    have hstep := hpassed.verifyGroup (Ne.symm hgroups.1) hgroup
    have hrest := ih hstep hgroups.2 hok
    simpa using hrest

end

end Walk

/-- The headers that are accepted under an anchor. -/
structure Verified (format : Format H T R D X) (anchorSeq : Nat) (anchorHash : H)
    (headers : List (LedgerHeader H X)) : Prop where
  linked : headers.IsChain (Linked format)
  anchored : ∃ top ∈ headers, top.ledgerSeq = anchorSeq ∧ format.computeHeaderHash top = anchorHash

theorem verified_of_verifyReverseWalk {freq : CheckpointFrequency}
    {headers : List (LedgerHeader H X)} {config : ReverseWalkConfig H} {anchorSeq : Nat}
    {anchorHash : H} (hheaders : headers ≠ [])
    (hsource : config.trustSource = .scp anchorSeq anchorHash)
    (hok : verifyReverseWalk format freq headers config = .ok ()) :
    Verified format anchorSeq anchorHash headers := by
  unfold verifyReverseWalk at hok
  rw [if_neg (by simpa using hheaders), hsource] at hok
  obtain ⟨_, _, hok⟩ := bind_ok_iff.mp hok
  obtain ⟨walk, hwalk, hok⟩ := bind_ok_iff.mp hok
  have hstart : Passed format anchorSeq anchorHash []
      { crossCheckpointLink := none, pendingTrustAnchor := some (anchorSeq, anchorHash),
        localStateDisagrees := false } :=
    ⟨.nil, nofun, Or.inl rfl⟩
  have hpassed := hstart.verifyGroups (by
    rw [mem_reverse]
    exact nil_notMem_splitBy _ _) hwalk
  rw [reverse_reverse, append_nil, checkpointGroups, flatten_splitBy] at hpassed
  rcases hpassed.pending with hpending | ⟨-, htop⟩
  · rw [hpending] at hok
    cases hok
  · exact ⟨hpassed.linked, htop⟩

end Henyey.Catchup
