import Henyey.Scp.Ballot.Steps

/-!
# Every call is a sequence of small steps

The searches of the attempts end with the guards of the steps. From there each
attempt, and by induction on the fuel each nested call, is a sequence of steps
of the state that it started from.
-/

namespace Henyey.Scp

open Foundation Idle Option

variable {N V H : Type}

/-! ### What the searches find -/

/-- An interval that starts at a counter satisfies the predicate. -/
theorem extendInterval_spec (pred : U32 × U32 → Bool) (boundaries : List U32)
    (candidate : U32 × U32)
    (hcandidate : candidate.1 ≠ 0 → pred candidate = true ∧ candidate.1 ≤ candidate.2)
    (hresult : (extendInterval pred boundaries candidate).1 ≠ 0) :
    pred (extendInterval pred boundaries candidate) = true ∧
      (extendInterval pred boundaries candidate).1 ≤
        (extendInterval pred boundaries candidate).2 := by
  induction boundaries generalizing candidate with
  | nil => exact hcandidate hresult
  | cons boundary rest ih =>
    unfold extendInterval at hresult ⊢
    by_cases hbeyond : candidate.1 ≠ 0 ∧ candidate.2 < boundary
    · rw [if_pos hbeyond] at hresult ⊢
      exact ih candidate hcandidate hresult
    rw [if_neg hbeyond] at hresult ⊢
    dsimp only at hresult ⊢
    set current := if candidate.1 = 0 then (boundary, boundary) else (boundary, candidate.2)
      with hcurrent
    by_cases hpred : pred current = true
    · rw [if_pos hpred] at hresult ⊢
      refine ih current (fun _ => ⟨hpred, ?_⟩) hresult
      rw [hcurrent]
      split
      · exact le_rfl
      next hzero => exact not_lt.mp fun hlt => hbeyond ⟨hzero, hlt⟩
    rw [if_neg hpred] at hresult ⊢
    by_cases hzero : candidate.1 ≠ 0
    · rw [if_pos hzero]
      exact hcandidate hzero
    · rw [if_neg hzero] at hresult ⊢
      exact ih candidate hcandidate hresult

theorem findExtendedInterval_spec {boundaries : List U32} {pred : U32 × U32 → Bool}
    (hresult : (findExtendedInterval boundaries pred).1 ≠ 0) :
    pred (findExtendedInterval boundaries pred) = true ∧
      (findExtendedInterval boundaries pred).1 ≤ (findExtendedInterval boundaries pred).2 :=
  extendInterval_spec pred boundaries.reverse (0, 0) (fun h => absurd rfl h) hresult

variable [LinearOrder V]

theorem interval_ballots_le {interval : U32 × U32} (hle : interval.1 ≤ interval.2) (value : V) :
    (⟨interval.1, value⟩ : ScpBallot V) ≤ ⟨interval.2, value⟩ := by
  have hvalue : (⟨interval.1, value⟩ : ScpBallot V).value = (⟨interval.2, value⟩ : ScpBallot V).value :=
    rfl
  exact (ballot_le_iff_of_value_eq hvalue).mpr hle

variable [DecidableEq N] [DecidableEq H] {s : BallotProtocol N V H}

theorem findHighestConfirmedPrepared_spec {ctx : SlotContext N V H}
    {candidates below : List (ScpBallot V)} {newH : ScpBallot V}
    (hfound : findHighestConfirmedPrepared ctx s candidates = some (newH, below)) :
    newH ∈ candidates ∧ ratifiesPrepared ctx s newH = true ∧ ∀ h ∈ s.highBallot, h < newH := by
  induction candidates with
  | nil => simp [findHighestConfirmedPrepared] at hfound
  | cons ballot rest ih =>
    unfold findHighestConfirmedPrepared at hfound
    split at hfound
    · simp at hfound
    next hhigh =>
      split at hfound
      next hratifies =>
        obtain ⟨rfl, -⟩ := Prod.mk.inj (some.inj hfound)
        refine ⟨List.mem_cons_self, hratifies, ?_⟩
        intro h hh
        rw [mem_def] at hh
        simpa [hh, compare_lt_iff_lt] using hhigh
      · obtain ⟨hmem, hspec⟩ := ih hfound
        exact ⟨List.mem_cons_of_mem _ hmem, hspec⟩

variable {candidates : List (ScpBallot V)}

theorem lowestCommitLoop_le {ctx : SlotContext N V H} {current newH : ScpBallot V}
    {newC : ScpBallot V} (hnewC : newC ≤ newH ∧ newC.value = newH.value) :
    lowestCommitLoop ctx s current newH candidates newC ≤ newH ∧
      (lowestCommitLoop ctx s current newH candidates newC).value = newH.value := by
  induction candidates generalizing newC with
  | nil => exact hnewC
  | cons ballot rest ih =>
    unfold lowestCommitLoop
    split
    · exact hnewC
    · split
      · exact ih hnewC
      next hcompatible =>
        split
        · exact ih (areBallotsLessAndCompatible_iff.mp (Bool.not_eq_false _ ▸ hcompatible))
        · exact hnewC

theorem findLowestCommitBallot_le (ctx : SlotContext N V H) (s : BallotProtocol N V H)
    (below : List (ScpBallot V)) (newH : ScpBallot V) :
    findLowestCommitBallot ctx s below newH ≤ newH ∧
      (findLowestCommitBallot ctx s below newH).value = newH.value := by
  have hfallback : (⟨0, newH.value⟩ : ScpBallot V) ≤ newH := zero_ballot_le rfl
  unfold findLowestCommitBallot
  dsimp only
  split
  · exact lowestCommitLoop_le ⟨hfallback, rfl⟩
  · exact ⟨hfallback, rfl⟩

/-- A commit is only found for a high ballot that is not aborted. -/
theorem findLowestCommitBallot_open {ctx : SlotContext N V H} {below : List (ScpBallot V)}
    {newH : ScpBallot V} (hfound : (findLowestCommitBallot ctx s below newH).counter ≠ 0) :
    highAborted s.toBallots newH = false := by
  unfold findLowestCommitBallot at hfound
  dsimp only at hfound
  split at hfound
  next hguard => simpa using (Bool.and_eq_true_iff.mp hguard).2
  · exact absurd rfl hfound

/-! ### Bookkeeping is idle -/

section

omit [DecidableEq N] [DecidableEq H] [LinearOrder V]

theorem Idle.refl (c : Ballot N V H) : Idle c c :=
  ⟨rfl, rfl, rfl, rfl, [], rfl, by simp⟩

theorem Idle.trans {a b c : Ballot N V H} (hab : Idle a b) (hbc : Idle b c) : Idle a c := by
  obtain ⟨new, hnew, hquiet⟩ := hab.log
  obtain ⟨new', hnew', hquiet'⟩ := hbc.log
  refine ⟨hbc.1.trans hab.1, hbc.2.trans hab.2, hbc.3.trans hab.3, hbc.4.trans hab.4,
    new' ++ new, ?_, ?_⟩
  · rw [hnew', hnew, List.append_assoc]
  · intro e he
    rcases List.mem_append.mp he with he | he
    · exact hquiet' e he
    · exact hquiet e he

theorem Idle.notify (c : Ballot N V H) {e : ScpEvent N V H} (hquiet : e.quiet = true) :
    Idle c (c.notify e) :=
  ⟨rfl, rfl, rfl, rfl, [e], rfl, by simpa using hquiet⟩

theorem Idle.level (level : Nat) (c : Ballot N V H) : Idle c (setMessageLevel level c) :=
  ⟨rfl, rfl, rfl, rfl, [], rfl, by simp⟩

theorem Idle.heard (heard : Bool) (c : Ballot N V H) : Idle c (setHeardFromQuorum heard c) :=
  ⟨rfl, rfl, rfl, rfl, [], rfl, by simp⟩

theorem Idle.ite {c a b : Ballot N V H} {p : Prop} [Decidable p] (ha : Idle c a)
    (hb : Idle c b) : Idle c (if p then a else b) := by
  split
  · exact ha
  · exact hb

end

omit [LinearOrder V] in
theorem checkHeardFromQuorum_idle (ctx : SlotContext N V H) (c : Ballot N V H) :
    Idle c (checkHeardFromQuorum ctx c) := by
  unfold checkHeardFromQuorum
  split
  · exact refl c
  next current _ =>
    have hheard : Idle c ((setHeardFromQuorum true c).notify (.ballotDidHearFromQuorum current)) :=
      (heard true c).trans (notify _ rfl)
    have hstarted := ite (p := c.state.heardFromQuorum = true) (heard true c)
      (ite (p := c.state.phase = .externalize) hheard
        (hheard.trans (notify _ (e := .setupTimer .ballot
          (ctx.driver.computeTimeout current.counter false)) rfl)))
    exact ite (ite (hstarted.trans (notify _ rfl)) hstarted)
      ((heard false c).trans (notify _ rfl))

/-! ### Emission as steps -/

variable [OrderBot V] {ctx : SlotContext N V H} {emit : Emit N V H}

/-- Emission records the state, and whatever follows is made of steps. Once the
slot is externalized only a send can follow. -/
structure Emits (ctx : SlotContext N V H) (emit : Emit N V H) : Prop where
  steps : ∀ {c c' : Ballot N V H}, c.state.Ordered → emit c = .ok c' →
    InnerSteps ctx (recorded ctx true c) c'
  final : ∀ {c c' : Ballot N V H}, c.state.phase = .externalize → emit c = .ok c' →
    c' = recorded ctx true c ∨ c' = sendLatestEnvelope (recorded ctx true c)

variable {result : Bool × Ballot N V H} {c : Ballot N V H}

/-- Giving up a ballot comes to one bump, if it comes to anything. -/
theorem abandonBallot_cases {counter : U32}
    (hresult : abandonBallot ctx emit counter c = .ok result) :
    result = (false, c) ∨ ∃ value next, (c.state.currentBallot = none → next ≠ 0) ∧
      bumpState ctx emit value next c = .ok result := by
  unfold abandonBallot at hresult
  dsimp only at hresult
  split at hresult
  · exact .inl (Except.ok.inj hresult).symm
  next value _ =>
    split at hresult
    · exact .inr ⟨value, _, fun hnone => by simp [hnone], hresult⟩
    next hcounter => exact .inr ⟨value, counter, fun _ => hcounter, hresult⟩

theorem attemptBump_cases (hresult : attemptBump ctx emit c = .ok result) :
    result = (false, c) ∨ ∃ value next, (c.state.currentBallot = none → next ≠ 0) ∧
      bumpState ctx emit value next c = .ok result := by
  unfold attemptBump at hresult
  dsimp only at hresult
  split at hresult
  · exact .inl (Except.ok.inj hresult).symm
  · split at hresult
    · exact .inl (Except.ok.inj hresult).symm
    · split at hresult
      · exact abandonBallot_cases hresult
      · exact .inl (Except.ok.inj hresult).symm

section

variable (hemit : Emits ctx emit)
include hemit

section

variable (hordered : c.state.Ordered)
include hordered

theorem bumpState_steps {arrives : Arrival N V H → Prop} {value : V} {counter : U32}
    (hcounter : c.state.currentBallot = none → counter ≠ 0 ∨ arrives (.bumpTo counter))
    (hresult : bumpState ctx emit value counter c = .ok result) : Steps ctx arrives c result.2 := by
  have hstep : Step ctx arrives c (recorded ctx (bumpValue value counter c).1
      (bumpValue value counter c).2) := .bump c value counter hcounter
  have hordered' := (hstep.change hordered).ordered hordered
  unfold bumpState at hresult
  split at hresult
  · obtain rfl := Except.ok.inj hresult
    exact .refl
  · cases hupdate : updateCurrentValue ⟨counter, c.state.valueOverride.getD value⟩ c with
    | mk updated c₁ =>
      have hvalue : bumpValue value counter c = (updated, c₁) := hupdate
      rw [hvalue] at hstep hordered'
      rw [hupdate] at hresult
      cases updated with
      | false =>
        obtain rfl := Except.ok.inj hresult
        exact .single hstep
      | true =>
        obtain ⟨c₂, hok, hresult⟩ := bind_ok_iff.mp hresult
        obtain rfl := Except.ok.inj hresult
        rw [recorded_toBallots] at hordered'
        exact (Relation.ReflTransGen.head hstep (hemit.steps hordered' hok).steps).tail
          (.idle (checkHeardFromQuorum_idle ctx c₂))

theorem abandonBallot_steps {counter : U32}
    (hresult : abandonBallot ctx emit counter c = .ok result) : InnerSteps ctx c result.2 := by
  obtain rfl | ⟨value, next, hnext, hresult⟩ := abandonBallot_cases hresult
  · exact .refl
  · exact bumpState_steps hemit hordered (fun hnone => .inl (hnext hnone)) hresult

theorem attemptBump_steps
    (hresult : attemptBump ctx emit c = .ok result) : InnerSteps ctx c result.2 := by
  obtain rfl | ⟨value, next, hnext, hresult⟩ := attemptBump_cases hresult
  · exact .refl
  · exact bumpState_steps hemit hordered (fun hnone => .inl (hnext hnone)) hresult

end

theorem bumpLoop_steps (fuel : Nat) (hordered : c.state.Ordered)
    (hresult : bumpLoop ctx emit fuel c = .ok result) : InnerSteps ctx c result.2 := by
  induction fuel generalizing c result with
  | zero => simp [bumpLoop] at hresult
  | succ fuel ih =>
    unfold bumpLoop at hresult
    obtain ⟨⟨bumped, c₁⟩, hbump, hresult⟩ := bind_ok_iff.mp hresult
    have hsteps := attemptBump_steps hemit hordered hbump
    dsimp only at hresult
    split at hresult
    · obtain ⟨⟨again, c₂⟩, hloop, hresult⟩ := bind_ok_iff.mp hresult
      obtain rfl := Except.ok.inj hresult
      have hrest := ih (Steps.ordered hordered hsteps) hloop
      exact hsteps.trans hrest
    · obtain rfl := Except.ok.inj hresult
      exact hsteps

end

/-! ### The attempts as steps -/

variable {ballot : ScpBallot V}

omit [DecidableEq N] [DecidableEq H] [OrderBot V] in
/-- A candidate that is not passed over does some work, and what it did is emitted. -/
theorem setAcceptPrepared_emits (hordered : c.state.Ordered)
    (hskip : skipCandidate c.state.toBallots ballot = false)
    (hresult : setAcceptPrepared emit ballot c = .ok result) :
    result.1 = true ∧ emit (acceptPrepared ballot c) = .ok result.2 := by
  obtain ⟨hwork, hset⟩ := setPrepared_raises (c := noteTransition (.acceptPrepared ballot) c) hskip
  unfold setAcceptPrepared at hresult
  cases hprepared : setPrepared ballot (noteTransition (.acceptPrepared ballot) c) with
  | mk didWork c₁ =>
    rw [hprepared] at hwork hset hresult
    obtain rfl : didWork = true := hwork
    have hcommit : (c₁.state.commit.isSome && c₁.state.highBallot.isNone) = false := by
      have hframe := hset.frame
      have hnone := hordered.commit_none
      simp only [noteTransition_state] at hframe
      simp only [hframe.2.1, hframe.2.2.1]
      cases hhigh : c.state.highBallot with
      | none => simp [hnone hhigh]
      | some high => simp
    have hresult' : (emit (voidAbortedCommit c₁).2 >>= fun c => .ok (true, c)) = .ok result := by
      simpa [hcommit] using hresult
    obtain ⟨c₂, hok, hresult'⟩ := bind_ok_iff.mp hresult'
    obtain rfl := Except.ok.inj hresult'
    have hvoid : acceptPrepared ballot c = (voidAbortedCommit c₁).2 := by
      unfold acceptPrepared
      rw [hprepared]
    exact ⟨rfl, hvoid ▸ hok⟩

/-- Accepting a candidate is one step and what its emission does. -/
theorem setAcceptPrepared_steps (hemit : Emits ctx emit) (hordered : c.state.Ordered)
    (hphase : c.state.phase ≠ .externalize) (hskip : skipCandidate c.state.toBallots ballot = false)
    (haccepts : acceptsPrepared ctx c.state ballot = true)
    (hresult : setAcceptPrepared emit ballot c = .ok result) :
    result.1 = true ∧ InnerSteps ctx c result.2 ∧ ∃ p ∈ result.2.state.prepared, ballot ≤ p := by
  have hstep : Step ctx (fun _ => False) c (recorded ctx true (acceptPrepared ballot c)) :=
    .acceptPrepared c ballot hphase hskip haccepts
  obtain ⟨s, hraises, hs⟩ := acceptPrepared_raises hskip
  have hordered' := (hstep.change hordered).ordered hordered
  obtain ⟨hwork, hok⟩ := setAcceptPrepared_emits hordered hskip hresult
  have hrest := hemit.steps (recorded_toBallots ctx true _ ▸ hordered') hok
  refine ⟨hwork, .head hstep hrest, ?_⟩
  obtain ⟨p, hp, hle, _⟩ := hraises.prepared
  have hp' : p ∈ (recorded ctx true (acceptPrepared ballot c)).state.prepared := by
    rw [recorded_toBallots, hs, (Ballots.voided_frame s).2.1]
    exact hp
  obtain ⟨p', hp', hle'⟩ := Steps.prepared_mono hordered' hrest p hp'
  exact ⟨p', hp', hle.trans hle'⟩

omit [DecidableEq N] [DecidableEq H] [OrderBot V] in
theorem covered_of_skip {s : Ballots V} (hordered : s.Ordered) (hphase : s.phase = .prepare)
    (hskip : skipCandidate s ballot = true) : ∃ p ∈ s.prepared, ballot ≤ p := by
  unfold skipCandidate at hskip
  simp only [hphase, Bool.or_eq_true, Bool.and_eq_true, any_eq_true, ballotCompare_eq,
    bne_iff_ne, ne_eq, compare_gt_iff_gt, not_lt, areBallotsLessAndCompatible_iff] at hskip
  rcases hskip with (⟨hconfirm, _⟩ | ⟨p', hp', hle⟩) | ⟨p, hp, hle, _⟩
  · simp at hconfirm
  · obtain ⟨p, hp, hlt, _⟩ := hordered.prime p' hp'
    exact ⟨p, hp, hle.trans hlt.le⟩
  · exact ⟨p, hp, hle⟩

/-- Trying the candidates downwards takes steps, and in PREPARE leaves no
accepted candidate above `p`. -/
theorem acceptPreparedLoop_steps (hemit : Emits ctx emit) (hsorted : candidates.Pairwise (· ≥ ·))
    (hordered : c.state.Ordered) (hphase : c.state.phase ≠ .externalize)
    (hresult : acceptPreparedLoop ctx emit candidates c = .ok result) :
    InnerSteps ctx c result.2 ∧ (result.2.state.prepared = none → result.2 = c) ∧
      (c.state.phase = .prepare → ∀ q ∈ candidates, acceptsPrepared ctx c.state q = true →
        ∃ p ∈ result.2.state.prepared, q ≤ p) := by
  induction candidates with
  | nil =>
    obtain rfl := Except.ok.inj hresult
    exact ⟨.refl, fun _ => rfl, by simp⟩
  | cons ballot rest ih =>
    obtain ⟨hhead, hrest⟩ := List.pairwise_cons.mp hsorted
    unfold acceptPreparedLoop at hresult
    split at hresult
    next hskip =>
      obtain ⟨hsteps, hsame, hcovers⟩ := ih hrest hresult
      refine ⟨hsteps, hsame, fun hprepare q hq haccepts => ?_⟩
      rcases List.mem_cons.mp hq with rfl | hq
      · obtain ⟨p, hp, hle⟩ := covered_of_skip hordered hprepare hskip
        obtain ⟨p', hp', hle'⟩ := Steps.prepared_mono hordered hsteps p hp
        exact ⟨p', hp', hle.trans hle'⟩
      · exact hcovers hprepare q hq haccepts
    next hskip =>
      rw [Bool.not_eq_true] at hskip
      split at hresult
      next haccepted =>
        obtain ⟨⟨didWork, c₁⟩, hset, hresult⟩ := bind_ok_iff.mp hresult
        obtain ⟨hwork, hsteps, p, hp, hle⟩ :=
          setAcceptPrepared_steps hemit hordered hphase hskip haccepted hset
        obtain rfl : didWork = true := hwork
        obtain rfl := Except.ok.inj hresult
        refine ⟨hsteps, fun hnone => ?_, fun _ q hq _ => ⟨p, hp, ?_⟩⟩
        · rw [mem_def, hnone] at hp
          simp at hp
        rcases List.mem_cons.mp hq with rfl | hq
        · exact hle
        · exact (hhead q hq).trans hle
      next haccepted =>
        obtain ⟨hsteps, hsame, hcovers⟩ := ih hrest hresult
        refine ⟨hsteps, hsame, fun hprepare q hq haccepts => ?_⟩
        rcases List.mem_cons.mp hq with rfl | hq
        · exact absurd haccepts haccepted
        · exact hcovers hprepare q hq haccepts

variable {hint : ScpStatement N V H}

theorem attemptAcceptPrepared_steps (hemit : Emits ctx emit) (hordered : c.state.Ordered)
    (hresult : attemptAcceptPrepared ctx emit hint c = .ok result) :
    InnerSteps ctx c result.2 ∧ (result.2.state.prepared = none → result.2 = c) ∧
      (c.state.phase = .prepare → ∀ q ∈ getPrepareCandidates c.state hint,
        acceptsPrepared ctx c.state q = true → ∃ p ∈ result.2.state.prepared, q ≤ p) := by
  unfold attemptAcceptPrepared at hresult
  split at hresult
  next hphase =>
    obtain rfl := Except.ok.inj hresult
    exact ⟨.refl, fun _ => rfl, fun hprepare => absurd hprepare hphase.1⟩
  next hphase =>
    have hphase' : c.state.phase ≠ .externalize := by
      intro hext
      simp [hext] at hphase
    have hsorted : (getPrepareCandidates c.state hint).reverse.Pairwise (· ≥ ·) :=
      List.pairwise_reverse.mpr (getPrepareCandidates_sorted c.state hint)
    obtain ⟨hsteps, hsame, hcovers⟩ :=
      acceptPreparedLoop_steps hemit hsorted hordered hphase' hresult
    exact ⟨hsteps, hsame, fun hprepare q hq => hcovers hprepare q (List.mem_reverse.mpr hq)⟩

/-- What the later attempts need to know about `p` once the candidates of a
recorded hint have been tried. -/
structure Tried (ctx : SlotContext N V H) (hint : ScpStatement N V H)
    (s : BallotProtocol N V H) : Prop where
  commit : s.prepared = none → ∀ ballot, hintBallotForCommit hint = some ballot →
    ∀ interval, acceptsCommit ctx s ballot interval = false
  ratified : s.phase = .prepare → OwnPrepared ctx s → ∀ topVote ∈ collectHintBallots hint,
    ∀ ballot ≤ topVote, ballot.value = topVote.value → ratifiesPrepared ctx s ballot = true →
      ∃ p ∈ s.prepared, ballot ≤ p

omit [OrderBot V] in
theorem ratifiesPrepared_of_others {s s' : BallotProtocol N V H}
    (hothers : ∀ node, node ≠ ctx.localNodeId →
      s'.latestEnvelopes.statement? node = s.latestEnvelopes.statement? node)
    (hlocal : ctx.localNodeId ∉ s'.latestEnvelopes.nodesWhere (hasPreparedBallot ballot))
    (hratifies : ratifiesPrepared ctx s' ballot = true) : ratifiesPrepared ctx s ballot = true := by
  have hne : ∀ node ∈ s'.latestEnvelopes.nodesWhere (hasPreparedBallot ballot),
      node ≠ ctx.localNodeId := by
    rintro node hnode rfl
    exact hlocal hnode
  have hsub : s'.latestEnvelopes.nodesWhere (hasPreparedBallot ballot) ⊆
      s.latestEnvelopes.nodesWhere (hasPreparedBallot ballot) := by
    intro node hnode
    have hsame := hothers node (hne node hnode)
    rw [Envelopes.mem_nodesWhere] at hnode ⊢
    rwa [← hsame]
  unfold ratifiesPrepared federatedRatify at hratifies ⊢
  refine isQuorum_mono _ hsub ?_
  rw [← isQuorum_congr _ (fun node hnode => ?_)]
  · exact hratifies
  · unfold statementQuorumSetMap
    rw [hothers node (hne node hnode)]

theorem attemptAcceptPrepared_tried (hemit : Emits ctx emit) (hordered : c.state.Ordered) {node : N}
    (hhint : c.state.latestEnvelopes.statement? node = some hint)
    (hresult : attemptAcceptPrepared ctx emit hint c = .ok result) :
    Tried ctx hint result.2.state := by
  obtain ⟨hsteps, hsame, hcovers⟩ := attemptAcceptPrepared_steps hemit hordered hresult
  refine ⟨?_, ?_⟩
  · intro hnone ballot hballot interval
    have hsame := hsame hnone
    rw [hsame] at hnone ⊢
    have hprepare : c.state.phase = .prepare := by
      by_contra hlater
      exact (hordered.confirmed hlater).2.1 hnone
    rw [← Bool.not_eq_true]
    intro haccepts
    obtain ⟨q, hq, haccepted⟩ := exists_accepted_of_acceptsCommit hhint hballot haccepts
    obtain ⟨p, hp, _⟩ := hcovers hprepare q hq haccepted
    rw [hsame, hnone] at hp
    simp at hp
  · intro hprepare hown topVote htop ballot hle hvalue hratifies
    by_cases hlocal : ctx.localNodeId ∈
        result.2.state.latestEnvelopes.nodesWhere (hasPreparedBallot ballot)
    · obtain ⟨st, hst, hprepared⟩ := Envelopes.mem_nodesWhere.mp hlocal
      exact hown st hst ballot hprepared
    · have hratifies' := ratifiesPrepared_of_others
        (fun other hne => InnerSteps.statement?_ne hordered hsteps hne) hlocal hratifies
      obtain ⟨q, hq, hle', haccepted⟩ := exists_accepted_of_ratified hhint htop hle hvalue hratifies'
      have hprepare' : c.state.phase = .prepare := by
        by_contra hlater
        exact Steps.phase_ne_prepare hordered hsteps hlater hprepare
      obtain ⟨p, hp, hqp⟩ := hcovers hprepare' q hq haccepted
      exact ⟨p, hp, hle'.trans hqp⟩

/-- A setter followed by the emission of its result. -/
theorem emitted_steps (hemit : Emits ctx emit) (hordered : c.state.Ordered)
    {change : Bool × Ballot N V H}
    (hstep : Step ctx (fun _ => False) c (recorded ctx change.1 change.2))
    (hresult : (match change with
      | (true, c) => do
        let c ← emit c
        .ok (true, c)
      | (false, c) => .ok (false, c)) = Except.ok result) :
    InnerSteps ctx c result.2 := by
  have hordered' := (hstep.change hordered).ordered hordered
  obtain ⟨didWork, c₁⟩ := change
  cases didWork with
  | true =>
    obtain ⟨c₂, hok, hresult⟩ := bind_ok_iff.mp hresult
    obtain rfl := Except.ok.inj hresult
    rw [recorded_toBallots] at hordered'
    exact .head hstep (hemit.steps hordered' hok)
  | false =>
    obtain rfl := Except.ok.inj hresult
    exact .single hstep

omit [DecidableEq H] [OrderBot V] in
theorem exists_topVote_of_candidate (hmem : ballot ∈ getPrepareCandidates s hint) :
    ∃ topVote ∈ collectHintBallots hint, ballot ≤ topVote ∧ ballot.value = topVote.value := by
  obtain ⟨topVote, htop, node, st, _, hbelow⟩ := mem_getPrepareCandidates.mp hmem
  exact ⟨topVote, htop, candidatesBelow_le hbelow⟩

/-- The guards under which a ballot is confirmed as prepared. -/
structure ConfirmsPrepared (ctx : SlotContext N V H) (hint : ScpStatement N V H)
    (s : BallotProtocol N V H) (newC newH : ScpBallot V) : Prop where
  phase : s.phase = .prepare
  prepared : s.prepared ≠ none
  candidate : newH ∈ getPrepareCandidates s hint
  ratifies : ratifiesPrepared ctx s newH = true
  high : ∀ h ∈ s.highBallot, h < newH
  commit : newC ≤ newH ∧ newC.value = newH.value
  unaborted : newC.counter ≠ 0 → highAborted s.toBallots newH = false

theorem ConfirmsPrepared.step {newC newH : ScpBallot V}
    (hguards : ConfirmsPrepared ctx hint c.state newC newH) (htried : Tried ctx hint c.state) :
    Step ctx (fun _ => False) c
      (recorded ctx (confirmPrepared newC newH c).1 (confirmPrepared newC newH c).2) := by
  obtain ⟨topVote, htop, hle, hvalue⟩ := exists_topVote_of_candidate hguards.candidate
  exact .confirmPrepared c newC newH hguards.phase hguards.prepared hguards.high hguards.ratifies
    hguards.commit
    (fun hown => htried.ratified hguards.phase hown topVote htop newH hle hvalue hguards.ratifies)
    hguards.unaborted

omit [OrderBot V] in
theorem attemptConfirmPrepared_cases
    (hresult : attemptConfirmPrepared ctx emit hint c = .ok result) :
    result = (false, c) ∨ ∃ newC newH, ConfirmsPrepared ctx hint c.state newC newH ∧
      setConfirmPrepared emit newC newH c = .ok result := by
  unfold attemptConfirmPrepared at hresult
  split at hresult
  · exact .inl (Except.ok.inj hresult).symm
  next hphase =>
    split at hresult
    · exact .inl (Except.ok.inj hresult).symm
    next hprepared =>
      rw [isNone_iff_eq_none] at hprepared
      split at hresult
      · exact .inl (Except.ok.inj hresult).symm
      next newH below hfound =>
        obtain ⟨hmem, hratifies, hhigh⟩ := findHighestConfirmedPrepared_spec hfound
        exact .inr ⟨_, newH, ⟨not_not.mp hphase, hprepared, List.mem_reverse.mp hmem, hratifies,
          hhigh, findLowestCommitBallot_le ctx c.state below newH, findLowestCommitBallot_open⟩,
          hresult⟩

/-- The guards under which a commit is accepted. -/
structure AcceptsCommit (ctx : SlotContext N V H) (s : BallotProtocol N V H)
    (ballot newC newH : ScpBallot V) : Prop where
  phase : s.phase ≠ .externalize
  value : newH.value = ballot.value
  commit : newC ≤ newH ∧ newC.value = newH.value
  counter : newC.counter ≠ 0
  confirm : s.phase = .confirm → ∀ h ∈ s.highBallot, h < newH ∧ h.value = newH.value
  accepts : acceptsCommit ctx s ballot (newC.counter, newH.counter) = true

theorem AcceptsCommit.step {newC newH : ScpBallot V}
    (hguards : AcceptsCommit ctx c.state ballot newC newH) (hprepared : c.state.prepared ≠ none) :
    Step ctx (fun _ => False) c
      (recorded ctx (acceptCommit newC newH c).1 (acceptCommit newC newH c).2) :=
  .acceptCommit c newC newH hguards.phase hprepared hguards.commit hguards.counter
    hguards.confirm ⟨ballot, hguards.value.symm, hguards.accepts⟩

omit [OrderBot V] in
theorem attemptAcceptCommit_cases
    (hresult : attemptAcceptCommit ctx emit hint c = .ok result) :
    result = (false, c) ∨ ∃ ballot newC newH, hintBallotForCommit hint = some ballot ∧
      AcceptsCommit ctx c.state ballot newC newH ∧
      setAcceptCommit emit newC newH c = .ok result := by
  unfold attemptAcceptCommit at hresult
  split at hresult
  · exact .inl (Except.ok.inj hresult).symm
  next hphase =>
    have hphase' : c.state.phase ≠ .externalize := by
      intro hext
      simp [hext] at hphase
    split at hresult
    · exact .inl (Except.ok.inj hresult).symm
    next ballot hballot =>
      split at hresult
      · exact .inl (Except.ok.inj hresult).symm
      next hcompatible =>
        dsimp only at hresult
        split at hresult
        · exact .inl (Except.ok.inj hresult).symm
        · split at hresult
          · exact .inl (Except.ok.inj hresult).symm
          next hcounter =>
            obtain ⟨haccepts, hle⟩ := findExtendedInterval_spec hcounter
            set interval := findExtendedInterval (getCommitBoundariesFromStatements c.state ballot)
              (acceptsCommit ctx c.state ballot)
            split at hresult
            next hraises =>
              have hconfirm : c.state.phase = .confirm → ∀ h ∈ c.state.highBallot,
                  h < ⟨interval.2, ballot.value⟩ ∧ h.value = ballot.value := by
                intro hconfirm h hh
                rw [mem_def] at hh
                rcases hraises with hraises | hraises
                · exact absurd hconfirm hraises
                · simp only [hh, counterOrZero, map_some, getD_some] at hraises
                  refine ⟨ballot_lt_iff.mpr (.inl hraises), ?_⟩
                  rw [hh, any_some, not_and, Bool.not_eq_true, Bool.not_eq_false'] at hcompatible
                  exact (ballotCompatible_iff.mp (hcompatible hconfirm)).symm
              exact .inr ⟨ballot, ⟨interval.1, ballot.value⟩, ⟨interval.2, ballot.value⟩, hballot,
                ⟨hphase', rfl, ⟨interval_ballots_le hle ballot.value, rfl⟩, hcounter, hconfirm,
                  haccepts⟩, hresult⟩
            · exact .inl (Except.ok.inj hresult).symm

section

variable (hemit : Emits ctx emit)
include hemit

theorem attemptConfirmPrepared_steps (hordered : c.state.Ordered) (htried : Tried ctx hint c.state)
    (hresult : attemptConfirmPrepared ctx emit hint c = .ok result) :
    InnerSteps ctx c result.2 ∧ (c.state.prepared = none → result.2 = c) := by
  obtain rfl | ⟨newC, newH, hguards, hset⟩ := attemptConfirmPrepared_cases hresult
  · exact ⟨.refl, fun _ => rfl⟩
  · exact ⟨emitted_steps hemit hordered (hguards.step htried) hset,
      fun hnone => absurd hnone hguards.prepared⟩

/-- Without a prepared ballot no commit is acceptable, still after the confirmations. -/
theorem attemptConfirmPrepared_tried (hordered : c.state.Ordered) (htried : Tried ctx hint c.state)
    (hresult : attemptConfirmPrepared ctx emit hint c = .ok result)
    (hnone : result.2.state.prepared = none) (ballot : ScpBallot V)
    (hballot : hintBallotForCommit hint = some ballot) (interval : U32 × U32) :
    acceptsCommit ctx result.2.state ballot interval = false := by
  obtain ⟨hsteps, hsame⟩ := attemptConfirmPrepared_steps hemit hordered htried hresult
  have hnone' : c.state.prepared = none := by
    by_contra hsome
    obtain ⟨p, hp⟩ := ne_none_iff_exists'.mp hsome
    obtain ⟨p', hp', _⟩ := Steps.prepared_mono hordered hsteps p hp
    rw [mem_def, hnone] at hp'
    simp at hp'
  rw [hsame hnone']
  exact htried.commit hnone' ballot hballot interval

theorem attemptAcceptCommit_steps (hordered : c.state.Ordered)
    (htried : c.state.prepared = none → ∀ ballot, hintBallotForCommit hint = some ballot →
      ∀ interval, acceptsCommit ctx c.state ballot interval = false)
    (hresult : attemptAcceptCommit ctx emit hint c = .ok result) : InnerSteps ctx c result.2 := by
  obtain rfl | ⟨ballot, newC, newH, hballot, hguards, hset⟩ := attemptAcceptCommit_cases hresult
  · exact .refl
  · refine emitted_steps hemit hordered (hguards.step fun hnone => ?_) hset
    have haccepts := hguards.accepts
    rw [htried hnone ballot hballot] at haccepts
    cases haccepts

theorem setConfirmCommit_step {newC newH : ScpBallot V}
    (hresult : setConfirmCommit emit newC newH c = .ok result) :
    ∃ c₁, (c₁ = recorded ctx true (confirmCommit newC newH c) ∨
        c₁ = sendLatestEnvelope (recorded ctx true (confirmCommit newC newH c))) ∧
      result = (true, reportExternalized newC.value c₁) := by
  unfold setConfirmCommit at hresult
  obtain ⟨c₁, hok, hresult⟩ := bind_ok_iff.mp hresult
  have hfinal := hemit.final rfl hok
  refine ⟨c₁, hfinal, ?_⟩
  have hcommit : c₁.state.commit = some newC := by
    have hballots : c₁.state.toBallots = (confirmCommit newC newH c).state.toBallots := by
      rcases hfinal with rfl | rfl
      · exact recorded_toBallots ctx true _
      · exact (sendLatestEnvelope_toBallots _).trans (recorded_toBallots ctx true _)
    rw [hballots]
    rfl
  simp only [Traced.modify_state, hcommit] at hresult
  exact (Except.ok.inj hresult).symm

theorem attemptConfirmCommit_steps (hresult : attemptConfirmCommit ctx emit hint c = .ok result) :
    InnerSteps ctx c result.2 := by
  unfold attemptConfirmCommit at hresult
  split at hresult
  · obtain rfl := Except.ok.inj hresult
    exact .refl
  next hphase =>
    rw [not_not] at hphase
    split at hresult
    · obtain rfl := Except.ok.inj hresult
      exact .refl
    · obtain rfl := Except.ok.inj hresult
      exact .refl
    · obtain rfl := Except.ok.inj hresult
      exact .refl
    next high commit _ hcommit _ =>
      split at hresult
      · obtain rfl := Except.ok.inj hresult
        exact .refl
      next ballot hballot =>
        split at hresult
        · obtain rfl := Except.ok.inj hresult
          exact .refl
        next hcompatible =>
          rw [Bool.not_eq_false, ballotCompatible_iff] at hcompatible
          dsimp only at hresult
          split at hresult
          · obtain rfl := Except.ok.inj hresult
            exact .refl
          next hcounter =>
            obtain ⟨hratifies, hle⟩ := findExtendedInterval_spec hcounter
            obtain ⟨c₁, hsend, rfl⟩ := setConfirmCommit_step hemit hresult
            exact .single (.confirmCommit c c₁ _ _ hphase
              ⟨interval_ballots_le hle ballot.value, rfl⟩ hcounter
              ⟨commit, hcommit, hcompatible.symm⟩ ⟨ballot, rfl, hratifies⟩ hsend)

end

/-! ### Advancing as steps -/

/-- Advancing on a recorded statement takes steps. -/
def Advances (ctx : SlotContext N V H) (advance : Advance N V H) : Prop :=
  ∀ {hint : ScpStatement N V H} {c : Ballot N V H} {node : N}, c.state.Ordered →
    c.state.latestEnvelopes.statement? node = some hint →
    ∀ {result : EnvelopeState × Ballot N V H}, advance hint c = .ok result →
      InnerSteps ctx c result.2

theorem emitCurrentState_emits {advance : Advance N V H} (hadvance : Advances ctx advance) :
    Emits ctx (emitCurrentState ctx advance) := by
  have hfinal {c c' : Ballot N V H} (hphase : c.state.phase = .externalize)
      (hok : emitCurrentState ctx advance c = .ok c') :
      c' = recorded ctx true c ∨ c' = sendLatestEnvelope (recorded ctx true c) := by
    unfold emitCurrentState at hok
    unfold recorded
    have hcases := recordCurrentState_cases ctx c
    cases hrecord : recordCurrentState ctx c with
    | mk outcome c₁ =>
      rw [hrecord] at hok hcases
      cases outcome with
      | rejected => exact .inl (Except.ok.inj hok).symm
      | advance hint =>
        cases hcases with
        | advance pledges canEmit validation hpledges hsane hnewer hne => exact absurd hphase hne
      | final => exact .inr (Except.ok.inj hok).symm
  refine ⟨fun {c c'} hordered hok => ?_, hfinal⟩
  unfold emitCurrentState at hok
  have hrecorded : recorded ctx true c = (recordCurrentState ctx c).2 := rfl
  have hballots := recordCurrentState_toBallots ctx c
  have hcases := recordCurrentState_cases ctx c
  rw [hrecorded]
  cases hrecord : recordCurrentState ctx c with
  | mk outcome c₁ =>
    rw [hrecord] at hok hcases hballots
    cases outcome with
    | rejected =>
      obtain rfl := Except.ok.inj hok
      exact .refl
    | final =>
      obtain rfl := Except.ok.inj hok
      exact .single (.send c₁)
    | advance hint =>
      obtain ⟨⟨state, c₂⟩, hnested, hok⟩ := bind_ok_iff.mp hok
      obtain rfl := Except.ok.inj hok
      have hstored : c₁.state.latestEnvelopes.statement? ctx.localNodeId = some hint := by
        cases hcases with
        | advance => simp [storeSelf, createSignedEnvelope]
      have hsteps := hadvance (hballots ▸ hordered) hstored hnested
      exact hsteps.tail (.send c₂)

/-- The stages of an advance: the four attempts, the bump loop at the outermost level, and
what does not touch the decision state. -/
theorem advanceSlot_stages {fuel : Nat} {hint : ScpStatement N V H}
    {result : EnvelopeState × Ballot N V H}
    (hresult : advanceSlot ctx (fuel + 1) hint c = .ok result) :
    ∃ c₀ c₁ c₂ c₃ c₄ c₅ w₁ w₂ w₃ w₄, Idle c c₀ ∧
      attemptAcceptPrepared ctx (emitWith ctx fuel) hint c₀ = .ok (w₁, c₁) ∧
      attemptConfirmPrepared ctx (emitWith ctx fuel) hint c₁ = .ok (w₂, c₂) ∧
      attemptAcceptCommit ctx (emitWith ctx fuel) hint c₂ = .ok (w₃, c₃) ∧
      attemptConfirmCommit ctx (emitWith ctx fuel) hint c₃ = .ok (w₄, c₄) ∧
      (c₅ = c₄ ∨ ∃ bumped, bumpLoop ctx (emitWith ctx fuel) fuel c₄ = .ok (bumped, c₅)) ∧
      InnerSteps ctx c₅ result.2 ∧ result.2.state.toBallots = c₅.state.toBallots := by
  unfold advanceSlot at hresult
  dsimp only at hresult
  split at hresult
  · simp at hresult
  · obtain ⟨⟨w₁, c₁⟩, h₁, hresult⟩ := bind_ok_iff.mp hresult
    obtain ⟨⟨w₂, c₂⟩, h₂, hresult⟩ := bind_ok_iff.mp hresult
    obtain ⟨⟨w₃, c₃⟩, h₃, hresult⟩ := bind_ok_iff.mp hresult
    obtain ⟨⟨w₄, c₄⟩, h₄, hresult⟩ := bind_ok_iff.mp hresult
    have hclosing {bumped : Bool} {c₅ c₆ : Ballot N V H} (hidle : Idle c₅ c₆)
        (hresult : (if (bumped || w₄ || w₃ || w₂ || w₁) = true then
          Except.ok (EnvelopeState.validNew,
            sendLatestEnvelope (setMessageLevel (c₆.state.currentMessageLevel - 1) c₆))
          else Except.ok (EnvelopeState.valid,
            setMessageLevel (c₆.state.currentMessageLevel - 1) c₆)) =
              (Except.ok result : Except Abort _)) :
        InnerSteps ctx c₅ result.2 ∧ result.2.state.toBallots = c₅.state.toBallots := by
      have hlevel := hidle.trans (level (c₆.state.currentMessageLevel - 1) c₆)
      split at hresult
      · obtain rfl := Except.ok.inj hresult
        exact ⟨.tail (.single (.idle hlevel)) (.send _),
          (sendLatestEnvelope_toBallots _).trans hlevel.toBallots⟩
      · obtain rfl := Except.ok.inj hresult
        exact ⟨.single (.idle hlevel), hlevel.toBallots⟩
    dsimp only at hresult
    split at hresult
    · obtain ⟨⟨bumped, c₅⟩, hloop, hresult⟩ := bind_ok_iff.mp hresult
      exact ⟨_, c₁, c₂, c₃, c₄, c₅, w₁, w₂, w₃, w₄, level _ c, h₁, h₂, h₃, h₄,
        .inr ⟨_, hloop⟩, hclosing (checkHeardFromQuorum_idle ctx c₅) hresult⟩
    · exact ⟨_, c₁, c₂, c₃, c₄, c₄, w₁, w₂, w₃, w₄, level _ c, h₁, h₂, h₃, h₄, .inl rfl,
        hclosing (refl c₄) hresult⟩

theorem advanceSlot_advances (ctx : SlotContext N V H) (fuel : Nat) :
    Advances ctx (advanceSlot ctx fuel) := by
  induction fuel with
  | zero =>
    intro hint c node _ _ result hresult
    simp [advanceSlot] at hresult
  | succ fuel ih =>
    intro hint c node hordered hhint result hresult
    have hemit : Emits ctx (emitWith ctx fuel) := emitCurrentState_emits ih
    obtain ⟨c₀, c₁, c₂, c₃, c₄, c₅, w₁, w₂, w₃, w₄, hidle, h₁, h₂, h₃, h₄, h₅, hlast, -⟩ :=
      advanceSlot_stages hresult
    have hordered₀ : c₀.state.Ordered := hidle.toBallots ▸ hordered
    have htried := attemptAcceptPrepared_tried hemit hordered₀ (hidle.latestEnvelopes ▸ hhint) h₁
    have hsteps₁ := (attemptAcceptPrepared_steps hemit hordered₀ h₁).1
    have hordered₁ := Steps.ordered hordered₀ hsteps₁
    have hsteps₂ := (attemptConfirmPrepared_steps hemit hordered₁ htried h₂).1
    have hordered₂ := Steps.ordered hordered₁ hsteps₂
    have hsteps₃ : InnerSteps ctx c₂ c₃ := attemptAcceptCommit_steps hemit hordered₂
      (attemptConfirmPrepared_tried hemit hordered₁ htried h₂) h₃
    have hsteps₄ : InnerSteps ctx c₃ c₄ := attemptConfirmCommit_steps hemit h₄
    have hsteps₅ : InnerSteps ctx c₄ c₅ := by
      obtain rfl | ⟨bumped, hloop⟩ := h₅
      · exact .refl
      · exact bumpLoop_steps hemit fuel
          (Steps.ordered (Steps.ordered hordered₂ hsteps₃) hsteps₄) hloop
    exact .head (.idle hidle)
      (((((hsteps₁.trans hsteps₂).trans hsteps₃).trans hsteps₄).trans hsteps₅).trans hlast)

theorem emitWith_emits (ctx : SlotContext N V H) (fuel : Nat) : Emits ctx (emitWith ctx fuel) :=
  emitCurrentState_emits (advanceSlot_advances ctx fuel)

end Henyey.Scp
