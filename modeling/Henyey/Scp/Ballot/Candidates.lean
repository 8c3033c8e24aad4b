import Henyey.Scp.Ballot.StateMachine

/-!
# Candidates lose nothing

The prepare candidates are drawn from one hint and the recorded statements. If
a recorded hint makes a ballot ratified, or a commit accepted, then some
candidate of that hint is accepted as prepared.
-/

namespace Henyey.Scp

open List

variable {N V H : Type} [LinearOrder V] {ballot : ScpBallot V} {hint : ScpStatement N V H}

theorem mem_getPrepareCandidates [DecidableEq N] {s : BallotProtocol N V H} :
    ballot ∈ getPrepareCandidates s hint ↔
      ∃ topVote ∈ collectHintBallots hint, ∃ node st,
        s.latestEnvelopes.statement? node = some st ∧ ballot ∈ candidatesBelow topVote st := by
  simp only [getPrepareCandidates, mem_insertionSort, mem_dedup, mem_flatMap,
    Envelopes.mem_statements]
  constructor
  · rintro ⟨topVote, htop, st, ⟨node, hst⟩, hmem⟩
    exact ⟨topVote, htop, node, st, hst, hmem⟩
  · rintro ⟨topVote, htop, node, st, hst, hmem⟩
    exact ⟨topVote, htop, st, ⟨node, hst⟩, hmem⟩

theorem getPrepareCandidates_sorted (s : BallotProtocol N V H) (hint : ScpStatement N V H) :
    (getPrepareCandidates s hint).Pairwise (· ≤ ·) :=
  pairwise_insertionSort (· ≤ ·) _

variable {st : ScpStatement N V H}

theorem candidatesBelow_le {topVote ballot : ScpBallot V}
    (hmem : ballot ∈ candidatesBelow topVote st) :
    ballot ≤ topVote ∧ ballot.value = topVote.value := by
  unfold candidatesBelow at hmem
  split at hmem
  · simpa using (mem_filter.mp hmem).2
  next conf _ =>
    split at hmem
    · rcases mem_cons.mp hmem with rfl | hmem
      · exact ⟨le_rfl, rfl⟩
      · split at hmem
        next hlt =>
          obtain rfl := mem_singleton.mp hmem
          exact ⟨ballot_le_iff.mpr (.inl hlt), rfl⟩
        · simp at hmem
    · simp at hmem
  · split at hmem
    · obtain rfl := mem_singleton.mp hmem
      exact ⟨le_rfl, rfl⟩
    · simp at hmem
  · simp at hmem

theorem mem_candidatesBelow_self {topVote : ScpBallot V}
    (htop : topVote ∈ collectHintBallots hint) : topVote ∈ candidatesBelow topVote hint := by
  unfold collectHintBallots at htop
  unfold candidatesBelow
  split at htop
  · exact mem_filter.mpr ⟨htop, by simp⟩
  · rcases mem_cons.mp htop with rfl | htop
    · simp
    · obtain rfl := mem_singleton.mp htop
      simp
  · obtain rfl := mem_singleton.mp htop
    simp
  · simp at htop

/-! ### Votes go downwards -/

variable {low high : ScpBallot V}

theorem hasPreparedBallot_mono (hle : low ≤ high) (hvalue : low.value = high.value)
    (hprepared : hasPreparedBallot high st = true) : hasPreparedBallot low st = true := by
  have hdown (p : ScpBallot V) (hp : areBallotsLessAndCompatible high p = true) :
      areBallotsLessAndCompatible low p = true := by
    rw [areBallotsLessAndCompatible_iff] at hp ⊢
    exact ⟨hle.trans hp.1, hvalue.trans hp.2⟩
  unfold hasPreparedBallot at hprepared ⊢
  split at hprepared
  next prep _ =>
    simp only [Bool.or_eq_true, Option.any_eq_true] at hprepared ⊢
    rcases hprepared with ⟨p, hp, hle'⟩ | ⟨p, hp, hle'⟩
    · exact .inl ⟨p, hp, hdown p hle'⟩
    · exact .inr ⟨p, hp, hdown p hle'⟩
  · exact hdown _ hprepared
  · rw [ballotCompatible_iff] at hprepared ⊢
    exact hvalue.trans hprepared
  · simp at hprepared

theorem statementVotesForBallot_mono (hle : low ≤ high) (hvalue : low.value = high.value)
    (hvotes : statementVotesForBallot high st = true) : statementVotesForBallot low st = true := by
  unfold statementVotesForBallot at hvotes ⊢
  split at hvotes
  · rw [areBallotsLessAndCompatible_iff] at hvotes ⊢
    exact ⟨hle.trans hvotes.1, hvalue.trans hvotes.2⟩
  · rw [ballotCompatible_iff] at hvotes ⊢
    exact hvalue.trans hvotes
  · rw [ballotCompatible_iff] at hvotes ⊢
    exact hvalue.trans hvotes
  · simp at hvotes

variable {ballot topVote : ScpBallot V}

/-- A statement that prepared a ballot below a top vote prepared the top vote,
or contributes a candidate in between that it prepared. -/
theorem hasPreparedBallot_candidate (hvalue : ballot.value = topVote.value)
    (hprepared : hasPreparedBallot ballot st = true) :
    hasPreparedBallot topVote st = true ∨
      ∃ q ∈ candidatesBelow topVote st, ballot ≤ q ∧ hasPreparedBallot q st = true := by
  have hsplit (p : ScpBallot V) (hp : areBallotsLessAndCompatible ballot p = true) :
      areBallotsLessAndCompatible topVote p = true ∨
        areBallotsLessAndCompatible p topVote = true := by
    simp only [areBallotsLessAndCompatible_iff] at hp ⊢
    rcases le_total topVote p with hle | hle
    · exact .inl ⟨hle, hvalue.symm.trans hp.2⟩
    · exact .inr ⟨hle, hp.2.symm.trans hvalue⟩
  obtain ⟨node, slot, pledges⟩ := st
  cases pledges with
  | prepare prep =>
    simp only [hasPreparedBallot, Bool.or_eq_true, Option.any_eq_true] at hprepared ⊢
    rcases hprepared with ⟨p, hp, hle⟩ | ⟨p, hp, hle⟩
    · rcases hsplit p hle with htop | hbelow
      · exact .inl (.inl ⟨p, hp, htop⟩)
      · refine .inr ⟨p, ?_, (areBallotsLessAndCompatible_iff.mp hle).1, .inl ⟨p, hp, ?_⟩⟩
        · exact mem_filter.mpr ⟨by simp [hp], hbelow⟩
        · simp
    · rcases hsplit p hle with htop | hbelow
      · exact .inl (.inr ⟨p, hp, htop⟩)
      · refine .inr ⟨p, ?_, (areBallotsLessAndCompatible_iff.mp hle).1, .inr ⟨p, hp, ?_⟩⟩
        · exact mem_filter.mpr ⟨by simp [hp], hbelow⟩
        · simp
  | confirm conf =>
    simp only [hasPreparedBallot] at hprepared ⊢
    rcases hsplit _ hprepared with htop | hbelow
    · exact .inl htop
    · rw [areBallotsLessAndCompatible_iff] at hprepared hbelow
      by_cases hlt : conf.nPrepared < topVote.counter
      · refine .inr ⟨⟨conf.nPrepared, topVote.value⟩, ?_, ?_, ?_⟩
        · simp [candidatesBelow, hlt, ← hbelow.2]
        · rw [← hbelow.2]
          exact hprepared.1
        · rw [areBallotsLessAndCompatible_iff, ← hbelow.2]
          exact ⟨le_rfl, rfl⟩
      · left
        rw [areBallotsLessAndCompatible_iff, ballot_le_iff_of_value_eq hbelow.2.symm]
        exact ⟨not_lt.mp hlt, hbelow.2.symm⟩
  | externalize ext =>
    left
    simp only [hasPreparedBallot, ballotCompatible_iff] at hprepared ⊢
    exact hvalue.symm.trans hprepared
  | nominate nom => simp [hasPreparedBallot] at hprepared

theorem statementVotesForBallot_candidate (hvalue : ballot.value = topVote.value)
    (hvotes : statementVotesForBallot ballot st = true) :
    statementVotesForBallot topVote st = true ∨
      ∃ q ∈ candidatesBelow topVote st, ballot ≤ q ∧ statementVotesForBallot q st = true := by
  obtain ⟨node, slot, pledges⟩ := st
  cases pledges with
  | prepare prep =>
    simp only [statementVotesForBallot, areBallotsLessAndCompatible_iff] at hvotes ⊢
    rcases le_total topVote prep.ballot with hle | hle
    · exact .inl ⟨hle, hvalue.symm.trans hvotes.2⟩
    · refine .inr ⟨prep.ballot, mem_filter.mpr ⟨by simp, ?_⟩, hvotes.1, le_rfl, rfl⟩
      rw [areBallotsLessAndCompatible_iff]
      exact ⟨hle, hvotes.2.symm.trans hvalue⟩
  | confirm conf =>
    left
    simp only [statementVotesForBallot, ballotCompatible_iff] at hvotes ⊢
    exact hvalue.symm.trans hvotes
  | externalize ext =>
    left
    simp only [statementVotesForBallot, ballotCompatible_iff] at hvotes ⊢
    exact hvalue.symm.trans hvotes
  | nominate nom => simp [statementVotesForBallot] at hvotes

/-! ### A common candidate -/

/-- A finite set of statements that each support the top vote, or one of their
own candidates below it, has a single candidate that all of them support. -/
theorem exists_common_candidate (supports : ScpBallot V → ScpStatement N V H → Prop)
    (hdown : ∀ low high st, low ≤ high → low.value = high.value → supports high st →
      supports low st)
    (htop : ballot ≤ topVote)
    [DecidableEq N] (nodes : Finset N) (statement : N → ScpStatement N V H)
    (hsupport : ∀ node ∈ nodes, supports topVote (statement node) ∨
      ∃ q ∈ candidatesBelow topVote (statement node), ballot ≤ q ∧ supports q (statement node)) :
    ∃ q, ballot ≤ q ∧ q ≤ topVote ∧ q.value = topVote.value ∧
      (q = topVote ∨ ∃ node ∈ nodes, q ∈ candidatesBelow topVote (statement node)) ∧
      ∀ node ∈ nodes, supports q (statement node) := by
  induction nodes using Finset.induction_on with
  | empty => exact ⟨topVote, htop, le_rfl, rfl, .inl rfl, by simp⟩
  | insert node nodes hnode ih =>
    obtain ⟨q, hballot, hle, hvalue, hsource, hall⟩ :=
      ih (fun other hother => hsupport other (Finset.mem_insert_of_mem hother))
    have hsource' : q = topVote ∨ ∃ other ∈ insert node nodes,
        q ∈ candidatesBelow topVote (statement other) :=
      hsource.imp_right fun ⟨other, hother, hmem⟩ =>
        ⟨other, Finset.mem_insert_of_mem hother, hmem⟩
    -- Either the new statement supports what the others agreed on, or its own
    -- lower candidate takes over.
    rcases hsupport node (Finset.mem_insert_self node nodes) with hnew | ⟨r, hr, hballot', hnew⟩
    · refine ⟨q, hballot, hle, hvalue, hsource', ?_⟩
      intro other hother
      rcases Finset.mem_insert.mp hother with rfl | hother
      · exact hdown _ _ _ hle hvalue hnew
      · exact hall other hother
    · obtain ⟨hrle, hrvalue⟩ := candidatesBelow_le hr
      rcases le_total q r with hqr | hrq
      · refine ⟨q, hballot, hle, hvalue, hsource', ?_⟩
        intro other hother
        rcases Finset.mem_insert.mp hother with rfl | hother
        · exact hdown _ _ _ hqr (hvalue.trans hrvalue.symm) hnew
        · exact hall other hother
      · refine ⟨r, hballot', hrle, hrvalue, .inr ⟨node, Finset.mem_insert_self node nodes, hr⟩, ?_⟩
        intro other hother
        rcases Finset.mem_insert.mp hother with rfl | hother
        · exact hnew
        · exact hdown _ _ _ hrq (hrvalue.trans hvalue.symm) (hall other hother)

/-- Voting for a ballot or having it prepared. -/
private def supportsPrepared (ballot : ScpBallot V) (st : ScpStatement N V H) : Bool :=
  hasPreparedBallot ballot st || statementVotesForBallot ballot st

private theorem supportsPrepared_mono {st : ScpStatement N V H} (hle : low ≤ high)
    (hvalue : low.value = high.value)
    (hsupports : supportsPrepared high st = true) : supportsPrepared low st = true := by
  unfold supportsPrepared at hsupports ⊢
  rw [Bool.or_eq_true] at hsupports ⊢
  exact hsupports.imp (hasPreparedBallot_mono hle hvalue)
    (statementVotesForBallot_mono hle hvalue)

private theorem supportsPrepared_candidate {ballot topVote : ScpBallot V} {st : ScpStatement N V H}
    (hvalue : ballot.value = topVote.value) (hsupports : supportsPrepared ballot st = true) :
    supportsPrepared topVote st = true ∨
      ∃ q ∈ candidatesBelow topVote st, ballot ≤ q ∧ supportsPrepared q st = true := by
  unfold supportsPrepared at hsupports ⊢
  rcases Bool.or_eq_true_iff.mp hsupports with hprepared | hvotes
  · rcases hasPreparedBallot_candidate hvalue hprepared with htop | ⟨q, hq, hle, hprepared⟩
    · exact .inl (by simp [htop])
    · exact .inr ⟨q, hq, hle, by simp [hprepared]⟩
  · rcases statementVotesForBallot_candidate hvalue hvotes with htop | ⟨q, hq, hle, hvotes⟩
    · exact .inl (by simp [htop])
    · exact .inr ⟨q, hq, hle, by simp [hvotes]⟩

theorem zero_ballot_le {v : V} (hvalue : v = ballot.value) : (⟨0, v⟩ : ScpBallot V) ≤ ballot :=
  (ballot_le_iff_of_value_eq hvalue).mpr (Fin.zero_le _)

variable {interval : U32 × U32}

theorem hasPreparedBallot_of_commitPredicate (hcommit : commitPredicate ballot interval st = true) :
    hasPreparedBallot ⟨0, ballot.value⟩ st = true := by
  obtain ⟨node, slot, pledges⟩ := st
  cases pledges with
  | prepare prep => simp [commitPredicate] at hcommit
  | confirm conf =>
    simp only [commitPredicate, Bool.and_eq_true, ballotCompatible_iff] at hcommit
    simp only [hasPreparedBallot, areBallotsLessAndCompatible_iff]
    exact ⟨zero_ballot_le hcommit.1.1, hcommit.1.1⟩
  | externalize ext =>
    simp only [commitPredicate, Bool.and_eq_true, ballotCompatible_iff] at hcommit
    simpa [hasPreparedBallot] using hcommit.1
  | nominate nom => simp [commitPredicate] at hcommit

theorem statementVotesForBallot_of_votesCommit
    (hvotes : statementVotesCommit ballot interval st = true) :
    statementVotesForBallot ⟨0, ballot.value⟩ st = true := by
  obtain ⟨node, slot, pledges⟩ := st
  cases pledges with
  | prepare prep =>
    simp only [statementVotesCommit, Bool.and_eq_true, ballotCompatible_iff] at hvotes
    simp only [statementVotesForBallot, areBallotsLessAndCompatible_iff]
    exact ⟨zero_ballot_le hvotes.1.1.1, hvotes.1.1.1⟩
  | confirm conf =>
    simp only [statementVotesCommit, Bool.and_eq_true, ballotCompatible_iff] at hvotes
    simpa [statementVotesForBallot] using hvotes.1
  | externalize ext =>
    simp only [statementVotesCommit, Bool.and_eq_true, ballotCompatible_iff] at hvotes
    simpa [statementVotesForBallot] using hvotes.1
  | nominate nom => simp [statementVotesCommit] at hvotes

omit [LinearOrder V] in
theorem exists_topVote_of_hintBallotForCommit (hballot : hintBallotForCommit hint = some ballot) :
    ∃ topVote ∈ collectHintBallots hint, ballot.value = topVote.value := by
  obtain ⟨node, slot, pledges⟩ := hint
  cases pledges with
  | prepare prep =>
    simp only [hintBallotForCommit] at hballot
    split at hballot
    · obtain rfl := Option.some.inj hballot
      exact ⟨prep.ballot, by simp [collectHintBallots], rfl⟩
    · simp at hballot
  | confirm conf =>
    obtain rfl := Option.some.inj hballot
    exact ⟨⟨U32.max, conf.ballot.value⟩, by simp [collectHintBallots], rfl⟩
  | externalize ext =>
    obtain rfl := Option.some.inj hballot
    exact ⟨⟨U32.max, ext.commit.value⟩, by simp [collectHintBallots], rfl⟩
  | nominate nom => simp [hintBallotForCommit] at hballot

variable [DecidableEq N] [DecidableEq H] {ctx : SlotContext N V H} {s : BallotProtocol N V H}
  {hint : ScpStatement N V H}

omit [DecidableEq H] in
/-- The same for the recorded statements of some nodes: the common candidate is
one of the hint's. -/
theorem exists_candidate_of_nodes (supports : ScpBallot V → ScpStatement N V H → Bool)
    (hdown : ∀ low high st, low ≤ high → low.value = high.value → supports high st = true →
      supports low st = true)
    (hcandidate : ∀ ballot topVote st, ballot.value = topVote.value →
      supports ballot st = true → supports topVote st = true ∨
        ∃ q ∈ candidatesBelow topVote st, ballot ≤ q ∧ supports q st = true)
    {node : N} (hhint : s.latestEnvelopes.statement? node = some hint)
    (htop : topVote ∈ collectHintBallots hint)
    (hle : ballot ≤ topVote) (hvalue : ballot.value = topVote.value)
    {test : ScpStatement N V H → Bool}
    (htest : ∀ st, test st = true → supports ballot st = true) :
    ∃ q ∈ getPrepareCandidates s hint, ballot ≤ q ∧
      s.latestEnvelopes.nodesWhere test ⊆ s.latestEnvelopes.nodesWhere (supports q) := by
  classical
  set nodes := s.latestEnvelopes.nodesWhere test
  have hmem : ∀ other ∈ nodes, ∃ st, s.latestEnvelopes.statement? other = some st ∧
      test st = true := fun other hother => Envelopes.mem_nodesWhere.mp hother
  set statement : N → ScpStatement N V H :=
    fun other => (s.latestEnvelopes.statement? other).getD hint
  have hstatement : ∀ other ∈ nodes,
      s.latestEnvelopes.statement? other = some (statement other) ∧
        test (statement other) = true := by
    intro other hother
    obtain ⟨st, hst, htst⟩ := hmem other hother
    simp only [statement, hst, Option.getD_some]
    exact ⟨trivial, htst⟩
  obtain ⟨q, hballot, _, _, hsource, hall⟩ :=
    exists_common_candidate (fun ballot st => supports ballot st = true) hdown hle nodes statement
      (fun other hother => hcandidate _ _ _ hvalue (htest _ (hstatement other hother).2))
  refine ⟨q, ?_, hballot, ?_⟩
  · rw [mem_getPrepareCandidates]
    rcases hsource with rfl | ⟨other, hother, hq⟩
    · exact ⟨q, htop, node, hint, hhint, mem_candidatesBelow_self htop⟩
    · exact ⟨topVote, htop, other, statement other, (hstatement other hother).1, hq⟩
  · intro other hother
    exact Envelopes.mem_nodesWhere.mpr
      ⟨statement other, (hstatement other hother).1, hall other hother⟩

/-- A ratified ballot below one of the hint's has a candidate at or above it
that is accepted as prepared. -/
theorem exists_accepted_of_ratified {node : N}
    (hhint : s.latestEnvelopes.statement? node = some hint)
    (htop : topVote ∈ collectHintBallots hint) (hle : ballot ≤ topVote)
    (hvalue : ballot.value = topVote.value)
    (hratified : federatedRatify ctx s (hasPreparedBallot ballot) = true) :
    ∃ q ∈ getPrepareCandidates s hint, ballot ≤ q ∧ acceptsPrepared ctx s q = true := by
  obtain ⟨q, hq, hballot, hsub⟩ := exists_candidate_of_nodes hasPreparedBallot
    (fun _ _ _ => hasPreparedBallot_mono) (fun _ _ _ => hasPreparedBallot_candidate)
    hhint htop hle hvalue (fun _ h => h)
  refine ⟨q, hq, hballot, ?_⟩
  unfold acceptsPrepared federatedAccept
  refine Bool.or_eq_true_iff.mpr (.inr (isQuorum_mono _ (hsub.trans ?_) hratified))
  intro other hother
  obtain ⟨st, hst, hprepared⟩ := Envelopes.mem_nodesWhere.mp hother
  exact Envelopes.mem_nodesWhere.mpr ⟨st, hst, by simp [hprepared]⟩

/-- An accepted commit of the hint's value has a candidate that is accepted as
prepared. -/
theorem exists_accepted_of_acceptsCommit {node : N}
    (hhint : s.latestEnvelopes.statement? node = some hint)
    (hballot : hintBallotForCommit hint = some ballot)
    (haccepts : acceptsCommit ctx s ballot interval = true) :
    ∃ q ∈ getPrepareCandidates s hint, acceptsPrepared ctx s q = true := by
  obtain ⟨topVote, htop, hvalue⟩ := exists_topVote_of_hintBallotForCommit hballot
  unfold acceptsCommit federatedAccept at haccepts
  unfold acceptsPrepared federatedAccept
  rcases Bool.or_eq_true_iff.mp haccepts with hblocking | hquorum
  · obtain ⟨q, hq, _, hsub⟩ := exists_candidate_of_nodes hasPreparedBallot
      (fun _ _ _ => hasPreparedBallot_mono) (fun _ _ _ => hasPreparedBallot_candidate)
      hhint htop (zero_ballot_le hvalue) hvalue
      (fun _ h => hasPreparedBallot_of_commitPredicate h)
    exact ⟨q, hq, Bool.or_eq_true_iff.mpr (.inl (isVBlocking_mono _ hsub hblocking))⟩
  · have hsupports (st : ScpStatement N V H)
        (h : (commitPredicate ballot interval st || statementVotesCommit ballot interval st) =
          true) : supportsPrepared ⟨0, ballot.value⟩ st = true := by
      unfold supportsPrepared
      rcases Bool.or_eq_true_iff.mp h with haccepted | hvoted
      · rw [hasPreparedBallot_of_commitPredicate haccepted, Bool.true_or]
      · rw [statementVotesForBallot_of_votesCommit hvoted, Bool.or_true]
    obtain ⟨q, hq, _, hsub⟩ := exists_candidate_of_nodes supportsPrepared
      (fun _ _ _ => supportsPrepared_mono) (fun _ _ _ => supportsPrepared_candidate)
      hhint htop (zero_ballot_le hvalue) hvalue hsupports
    exact ⟨q, hq, Bool.or_eq_true_iff.mpr (.inr (isQuorum_mono _ hsub hquorum))⟩

end Henyey.Scp
