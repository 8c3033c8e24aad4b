import Henyey.Scp.Ballot.StateMachine

/-!
# The interval of counters to commit

The search over the commit boundaries finds the widest interval of its
predicate below the highest boundary, as long as the predicate passes to parts
of an interval. Both predicates that it is called with do.
-/

namespace Henyey.Scp

open List

/-- What holds of an interval holds of every interval inside it. -/
def ClosedUnderSubintervals (pred : U32 × U32 → Bool) : Prop :=
  ∀ {low high low' high' : U32}, low ≤ low' → low' ≤ high' → high' ≤ high →
    pred (low, high) = true → pred (low', high') = true

/-- The highest boundary other than zero that the predicate holds at, with the
lowest boundary that the predicate still holds down to. -/
structure Widest (boundaries : List U32) (pred : U32 × U32 → Bool) (interval : U32 × U32) :
    Prop where
  low_mem : interval.1 ∈ boundaries
  high_mem : interval.2 ∈ boundaries
  high_ne_zero : interval.2 ≠ 0
  low_le_high : interval.1 ≤ interval.2
  holds : pred interval = true
  highest : ∀ x ∈ boundaries, x ≠ 0 → pred (x, x) = true → x ≤ interval.2
  lowest : ∀ x ∈ boundaries, pred (x, interval.2) = true → interval.1 ≤ x

section Search

variable {pred : U32 × U32 → Bool} {boundaries : List U32}

/-- Once it has an upper end, the search goes down to the lowest boundary that
the predicate holds down to. Boundary zero can only come last. -/
theorem extendInterval_low (hclosed : ClosedUnderSubintervals pred)
    (hsorted : boundaries.Pairwise (· > ·)) {low high : U32} (hlow : low ≠ 0 ∨ boundaries = [])
    (hle : low ≤ high) (hholds : pred (low, high) = true) (hbelow : ∀ x ∈ boundaries, x < low) :
    ∃ lowest, extendInterval pred boundaries (low, high) = (lowest, high) ∧
      (lowest = low ∨ lowest ∈ boundaries) ∧ lowest ≤ low ∧ pred (lowest, high) = true ∧
      ∀ x ∈ boundaries, pred (x, high) = true → lowest ≤ x := by
  induction boundaries generalizing low with
  | nil => exact ⟨low, rfl, .inl rfl, le_rfl, hholds, by simp⟩
  | cons boundary rest ih =>
    obtain ⟨hfirst, hrest⟩ := pairwise_cons.mp hsorted
    have hne : low ≠ 0 := hlow.resolve_right (cons_ne_nil _ _)
    have hboundary : boundary < low := hbelow boundary mem_cons_self
    have hinside : ¬(low ≠ 0 ∧ high < boundary) := fun h =>
      absurd (hboundary.trans_le hle) h.2.asymm
    unfold extendInterval
    simp only [if_neg hinside, if_neg hne, if_pos hne]
    by_cases hpred : pred (boundary, high) = true
    · rw [if_pos hpred]
      have hlast : boundary ≠ 0 ∨ rest = [] := by
        by_cases hzero : boundary = 0
        · refine .inr (eq_nil_iff_forall_not_mem.mpr fun x hx => ?_)
          exact absurd (hzero ▸ hfirst x hx) (Fin.not_lt_zero x)
        · exact .inl hzero
      obtain ⟨lowest, hfound, hmem, hdown, hheld, hleast⟩ :=
        ih hrest hlast (hboundary.le.trans hle) hpred hfirst
      refine ⟨lowest, hfound, .inr ?_, hdown.trans hboundary.le, hheld, ?_⟩
      · exact hmem.elim (fun h => h ▸ mem_cons_self) (mem_cons_of_mem _)
      · intro x hx hxholds
        rcases mem_cons.mp hx with rfl | hx
        · exact hdown
        · exact hleast x hx hxholds
    · rw [if_neg hpred]
      refine ⟨low, rfl, .inl rfl, le_rfl, hholds, fun x hx hxholds => absurd ?_ hpred⟩
      -- a lower boundary that held would give the refused one as a part
      have hx : x ≤ boundary := (mem_cons.mp hx).elim (·.le) fun hx => (hfirst x hx).le
      exact hclosed hx (hboundary.le.trans hle) le_rfl hxholds

theorem extendInterval_zero (hclosed : ClosedUnderSubintervals pred)
    (hsorted : boundaries.Pairwise (· > ·)) :
    (extendInterval pred boundaries (0, 0) = (0, 0) ∧
        ∀ x ∈ boundaries, x ≠ 0 → pred (x, x) = false) ∨
      Widest boundaries pred (extendInterval pred boundaries (0, 0)) := by
  induction boundaries with
  | nil => exact .inl ⟨rfl, by simp⟩
  | cons boundary rest ih =>
    obtain ⟨hfirst, hrest⟩ := pairwise_cons.mp hsorted
    by_cases hfound : boundary ≠ 0 ∧ pred (boundary, boundary) = true
    · obtain ⟨hne, hpred⟩ := hfound
      obtain ⟨lowest, heq, hmem, hdown, hheld, hleast⟩ :=
        extendInterval_low hclosed hrest (.inl hne) le_rfl hpred hfirst
      have hstep : extendInterval pred (boundary :: rest) (0, 0) = (lowest, boundary) := by
        rw [extendInterval]
        simp [hpred, heq]
      rw [hstep]
      refine .inr ⟨mem_cons.mpr hmem, mem_cons_self, hne, hdown, hheld, ?_, ?_⟩
      · intro x hx _ _
        exact (mem_cons.mp hx).elim (·.le) fun hx => (hfirst x hx).le
      · intro x hx hxholds
        rcases mem_cons.mp hx with rfl | hx
        · exact hdown
        · exact hleast x hx hxholds
    · -- zero is kept as the mark of nothing found, whatever the predicate says
      have hstep : extendInterval pred (boundary :: rest) (0, 0) =
          extendInterval pred rest (0, 0) := by
        rw [extendInterval]
        by_cases hzero : boundary = 0
        · simp [hzero]
        · have hpred : pred (boundary, boundary) = false := by simpa [hzero] using hfound
          simp [hpred]
      rw [hstep]
      have hnot (hne : boundary ≠ 0) : pred (boundary, boundary) = false := by
        simpa [hne] using hfound
      rcases ih hrest with ⟨heq, hnone⟩ | hwidest
      · exact .inl ⟨heq, forall_mem_cons.mpr ⟨hnot, hnone⟩⟩
      · refine .inr ⟨mem_cons_of_mem _ hwidest.low_mem,
          mem_cons_of_mem _ hwidest.high_mem, hwidest.high_ne_zero, hwidest.low_le_high,
          hwidest.holds, forall_mem_cons.mpr ⟨?_, hwidest.highest⟩,
          forall_mem_cons.mpr ⟨?_, hwidest.lowest⟩⟩
        · intro hne hholds
          simp [hnot hne] at hholds
        · exact fun _ => hwidest.low_le_high.trans (hfirst _ hwidest.high_mem).le

end Search

variable {N V H : Type}

theorem nodesWhere_subset [DecidableEq N] {envelopes : Envelopes N V H}
    {test weaker : ScpStatement N V H → Bool}
    (himp : ∀ st, test st = true → weaker st = true) :
    envelopes.nodesWhere test ⊆ envelopes.nodesWhere weaker := by
  intro node hnode
  obtain ⟨st, hst, htest⟩ := Envelopes.mem_nodesWhere.mp hnode
  exact Envelopes.mem_nodesWhere.mpr ⟨st, hst, himp st htest⟩

variable [LinearOrder V]

/-! ### Votes for a commit -/

variable {ballot : ScpBallot V} {interval part : U32 × U32} {st : ScpStatement N V H}

theorem commitPredicate_part (hlow : interval.1 ≤ part.1) (hhigh : part.2 ≤ interval.2)
    (hholds : commitPredicate ballot interval st = true) :
    commitPredicate ballot part st = true := by
  unfold commitPredicate at hholds ⊢
  split at hholds
  · simp only [Bool.and_eq_true, decide_eq_true_eq] at hholds ⊢
    exact ⟨⟨hholds.1.1, hholds.1.2.trans hlow⟩, hhigh.trans hholds.2⟩
  · simp only [Bool.and_eq_true, decide_eq_true_eq] at hholds ⊢
    exact ⟨hholds.1, hholds.2.trans hlow⟩
  · simp at hholds

theorem statementVotesCommit_part (hlow : interval.1 ≤ part.1) (hhigh : part.2 ≤ interval.2)
    (hvotes : statementVotesCommit ballot interval st = true) :
    statementVotesCommit ballot part st = true := by
  unfold statementVotesCommit at hvotes ⊢
  split at hvotes
  · simp only [Bool.and_eq_true, decide_eq_true_eq] at hvotes ⊢
    exact ⟨⟨hvotes.1.1, hvotes.1.2.trans hlow⟩, hhigh.trans hvotes.2⟩
  · simp only [Bool.and_eq_true, decide_eq_true_eq] at hvotes ⊢
    exact ⟨hvotes.1, hvotes.2.trans hlow⟩
  · simp only [Bool.and_eq_true, decide_eq_true_eq] at hvotes ⊢
    exact ⟨hvotes.1, hvotes.2.trans hlow⟩
  · simp at hvotes

variable [DecidableEq N] [DecidableEq H] (ctx : SlotContext N V H) (s : BallotProtocol N V H)

theorem ratifiesCommit_closed : ClosedUnderSubintervals (ratifiesCommit ctx s ballot) := by
  intro low high low' high' hlow _ hhigh hratifies
  exact isQuorum_mono _ (nodesWhere_subset fun _ => commitPredicate_part hlow hhigh) hratifies

theorem acceptsCommit_closed : ClosedUnderSubintervals (acceptsCommit ctx s ballot) := by
  intro low high low' high' hlow _ hhigh haccepts
  unfold acceptsCommit federatedAccept at haccepts ⊢
  rw [Bool.or_eq_true] at haccepts ⊢
  refine haccepts.imp (isVBlocking_mono _ ?_) (isQuorum_mono _ ?_)
  · exact nodesWhere_subset fun _ => commitPredicate_part hlow hhigh
  · refine nodesWhere_subset fun st hst => ?_
    rw [Bool.or_eq_true] at hst ⊢
    exact hst.imp (commitPredicate_part hlow hhigh) (statementVotesCommit_part hlow hhigh)

/-- The search finds the widest interval, or nothing when no boundary will do,
and it is only asked for predicates for which it does. -/
theorem findExtendedInterval_widest :
    (∀ (boundaries : List U32) (pred : U32 × U32 → Bool), boundaries.Pairwise (· < ·) →
      ClosedUnderSubintervals pred →
      ((∀ x ∈ boundaries, x ≠ 0 → pred (x, x) = false) →
        findExtendedInterval boundaries pred = (0, 0)) ∧
      ((∃ x ∈ boundaries, x ≠ 0 ∧ pred (x, x) = true) →
        Widest boundaries pred (findExtendedInterval boundaries pred))) ∧
      ∀ (ctx : SlotContext N V H) (s : BallotProtocol N V H) (ballot : ScpBallot V),
        ClosedUnderSubintervals (acceptsCommit ctx s ballot) ∧
          ClosedUnderSubintervals (ratifiesCommit ctx s ballot) := by
  refine ⟨fun boundaries pred hsorted hclosed => ?_, fun ctx s ballot =>
    ⟨acceptsCommit_closed ctx s, ratifiesCommit_closed ctx s⟩⟩
  rcases extendInterval_zero hclosed (pairwise_reverse.mpr hsorted) with ⟨heq, hnone⟩ | h
  · simp only [mem_reverse] at hnone
    refine ⟨fun _ => heq, fun ⟨x, hx, hne, hholds⟩ => ?_⟩
    simp [hnone x hx hne] at hholds
  · refine ⟨fun hnone => ?_, fun _ => ?_⟩
    · have hhigh := hclosed h.low_le_high le_rfl le_rfl h.holds
      simp [hnone _ (mem_reverse.mp h.high_mem) h.high_ne_zero] at hhigh
    · exact ⟨mem_reverse.mp h.low_mem, mem_reverse.mp h.high_mem, h.high_ne_zero,
        h.low_le_high, h.holds, fun x hx => h.highest x (mem_reverse.mpr hx),
        fun x hx => h.lowest x (mem_reverse.mpr hx)⟩

/-- Boundary zero is a lower end like any other once an upper end is found. -/
theorem findExtendedInterval_widest_zero :
    Widest [0, 2, 5] (fun i => i.2 ≤ 4) (findExtendedInterval [0, 2, 5] (fun i => i.2 ≤ 4)) :=
  ((@findExtendedInterval_widest ℕ ℕ Unit _ _ _).1 [0, 2, 5] (fun i => i.2 ≤ 4) (by decide)
    (fun _ _ hhigh hholds => decide_eq_true (hhigh.trans (of_decide_eq_true hholds)))).2
    ⟨2, by decide⟩

end Henyey.Scp
