import Henyey.Scp.Ballot.Run

/-!
# The current ballot climbs

What a node does by itself, without a statement from outside, never takes its current
ballot down. The only move that could do so enters CONFIRM on a commit of another value,
and a node that advances on its own statement only finds a commit that it votes for: no
candidate of that statement takes the commit away before.
-/

namespace Henyey.Scp

open Foundation Ballots Steps Option

variable {N V H : Type} [LinearOrder V]

/-- The current ballot is still there, or a higher one. -/
def Ballots.Rises (s s' : Ballots V) : Prop :=
  ∀ b ∈ s.currentBallot, ∃ b' ∈ s'.currentBallot, b ≤ b'

/-- While the node votes to commit, no prepared ballot has aborted the high one. -/
def Ballots.Unaborted (s : Ballots V) : Prop :=
  s.phase = .prepare → s.commit ≠ none → ∀ h ∈ s.highBallot, highAborted s h = false

/-- The current ballot rises, and as long as the phase is PREPARE the vote to commit keeps
its value while the high ballot rises under it. -/
structure Ballots.Climbs (s s' : Ballots V) : Prop where
  rises : s.Rises s'
  prepare : s'.phase = .prepare → s.phase = .prepare
  commit : s'.phase = .prepare → ∀ k ∈ s.commit, (∃ k' ∈ s'.commit, k'.value = k.value) ∧
    ∀ h' ∈ s'.highBallot, ∃ h ∈ s.highBallot, h ≤ h' ∧ h.value = h'.value

section

variable {s s' s'' : Ballots V}

theorem Ballots.rises_of_eq (hcurrent : s'.currentBallot = s.currentBallot) : s.Rises s' :=
  fun b hb => ⟨b, hcurrent ▸ hb, le_rfl⟩

theorem Ballots.rises_of_below {ballot : ScpBallot V} (hbelow : s.below ballot)
    (hcurrent : s'.currentBallot = some ballot) : s.Rises s' :=
  fun b hb => ⟨ballot, hcurrent, (hbelow b hb).le⟩

theorem Ballots.rises_of_raised {ballot : ScpBallot V}
    (hcurrent : s'.currentBallot = if s.below ballot then some ballot else s.currentBallot) :
    s.Rises s' := by
  by_cases hbelow : s.below ballot
  · rw [if_pos hbelow] at hcurrent
    exact rises_of_below hbelow hcurrent
  · rw [if_neg hbelow] at hcurrent
    exact rises_of_eq hcurrent

theorem Ballots.Confirms.rises {newC newH : ScpBallot V} {didWork : Bool}
    (hconfirms : s.Confirms newC newH didWork s') : s.Rises s' := by
  cases hconfirms with
  | incompatibleAbove b hcurrent hvalue hle => exact rises_of_eq rfl
  | incompatibleBelow b hcurrent hvalue hlt =>
    refine rises_of_below (fun b' hb' => ?_) rfl
    rwa [mem_unique hb' hcurrent]
  | compatible hvalue => exact rises_of_raised rfl

/-- Only entering CONFIRM can take the current ballot down. -/
theorem Ballots.Change.rises (hchange : s.Change s') (hlater : s.phase ≠ .prepare) :
    s.Rises s' := by
  cases hchange with
  | same => exact rises_of_eq rfl
  | raise ballot s₁ hphase hraises =>
    exact rises_of_eq ((voided_frame s₁).1.trans hraises.frame.1)
  | confirm newC newH didWork s₁ hphase hnewC hhigh hconfirms => exact hconfirms.rises
  | enterConfirm newC newH hphase => exact absurd hphase hlater
  | raiseCommit newC newH h => exact rises_of_raised rfl
  | externalize newC newH h => exact rises_of_raised rfl
  | bump ballot hphase hbelow hoverride =>
    exact rises_of_below hbelow (bumped_frame s ballot).1

theorem Ballots.Rises.trans (hrises : s.Rises s') (hrises' : s'.Rises s'') : s.Rises s'' := by
  intro b hb
  obtain ⟨b', hb', hle⟩ := hrises b hb
  obtain ⟨b'', hb'', hle'⟩ := hrises' b' hb'
  exact ⟨b'', hb'', hle.trans hle'⟩

namespace Ballots.Climbs

theorem refl (s : Ballots V) : s.Climbs s :=
  ⟨rises_of_eq rfl, id, fun _ k hk => ⟨⟨k, hk, rfl⟩, fun h hh => ⟨h, hh, le_rfl, rfl⟩⟩⟩

theorem trans (hclimbs : s.Climbs s') (hclimbs' : s'.Climbs s'') : s.Climbs s'' where
  rises := hclimbs.rises.trans hclimbs'.rises
  prepare := hclimbs.prepare ∘ hclimbs'.prepare
  commit := by
    intro hphase k hk
    obtain ⟨⟨k', hk', hvalue⟩, hhigh⟩ := hclimbs.commit (hclimbs'.prepare hphase) k hk
    obtain ⟨⟨k'', hk'', hvalue'⟩, hhigh'⟩ := hclimbs'.commit hphase k' hk'
    refine ⟨⟨k'', hk'', hvalue'.trans hvalue⟩, fun h'' hh'' => ?_⟩
    obtain ⟨h', hh', hle', hsame'⟩ := hhigh' h'' hh''
    obtain ⟨h, hh, hle, hsame⟩ := hhigh h' hh'
    exact ⟨h, hh, hle.trans hle', hsame.trans hsame'⟩

/-- Nothing is to be kept of a commit once PREPARE is left. -/
theorem of_later (hrises : s.Rises s') (hlater : s'.phase ≠ .prepare) : s.Climbs s' :=
  ⟨hrises, fun hphase => absurd hphase hlater, fun hphase => absurd hphase hlater⟩

/-- The commit and the high ballot are as they were. -/
theorem of_same (hrises : s.Rises s') (hphase : s'.phase = s.phase)
    (hcommit : s.commit ≠ none → s'.commit = s.commit ∧ s'.highBallot = s.highBallot) :
    s.Climbs s' where
  rises := hrises
  prepare := fun h => hphase ▸ h
  commit := by
    intro _ k hk
    obtain ⟨hsame, hhigh⟩ := hcommit (ne_none_iff_exists'.mpr ⟨k, hk⟩)
    exact ⟨⟨k, hsame ▸ hk, rfl⟩, fun h hh => ⟨h, hhigh ▸ hh, le_rfl, rfl⟩⟩

end Ballots.Climbs

theorem highAborted_eq_false_iff {h : ScpBallot V} : highAborted s h = false ↔
    ∀ p, (p ∈ s.prepared ∨ p ∈ s.preparedPrime) → h.value ≠ p.value → p < h := by
  have hany (o : Option (ScpBallot V)) : o.any (areBallotsLessAndIncompatible h) = false ↔
      ∀ p ∈ o, h.value ≠ p.value → p < h := by
    rw [← Bool.not_eq_true, any_eq_true]
    constructor
    · intro hnone p hp hne
      exact not_le.mp fun hle => hnone ⟨p, hp, areBallotsLessAndIncompatible_iff.mpr ⟨hle, hne⟩⟩
    · rintro hbelow ⟨p, hp, haborts⟩
      obtain ⟨hle, hne⟩ := areBallotsLessAndIncompatible_iff.mp haborts
      exact absurd (hbelow p hp hne) (not_lt.mpr hle)
  rw [highAborted, Bool.or_eq_false_iff, hany, hany]
  exact ⟨fun hbelow p hp => hp.elim (hbelow.1 p) (hbelow.2 p),
    fun hbelow => ⟨fun p hp => hbelow p (.inl hp), fun p hp => hbelow p (.inr hp)⟩⟩

/-- Raising brings in no other ballot. -/
theorem Ballots.Raises.mem {ballot p : ScpBallot V} (hraises : s.Raises ballot s')
    (hp : p ∈ s'.prepared ∨ p ∈ s'.preparedPrime) :
    p = ballot ∨ p ∈ s.prepared ∨ p ∈ s.preparedPrime := by
  cases hraises with
  | first hprepared => exact hp.imp (fun h => (some.inj h).symm) .inr
  | above q hprepared hlt hconfirm =>
    rcases hp with hp | hp
    · exact .inl (some.inj hp).symm
    · dsimp only at hp
      split at hp
      · exact .inr (.inr hp)
      · exact .inr (.inl (hprepared.trans hp))
  | prime q hprepared hlt hvalue hprime hconfirm =>
    rcases hp with hp | hp
    · exact .inr (.inl hp)
    · exact .inl (some.inj hp).symm

/-- The bump of a ballot that the commit admits. -/
theorem Ballots.bumped_of_commit {ballot : ScpBallot V} (hordered : s.Ordered)
    (hcompatible : ∀ k ∈ s.commit, k.value = ballot.value) (hcommit : s.commit ≠ none) :
    s.bumped ballot = { s with currentBallot := some ballot } := by
  obtain ⟨k, hk⟩ := ne_none_iff_exists'.mp hcommit
  obtain ⟨_, _, hsame⟩ := hordered.high_of_commit ⟨k, hk, hcompatible k hk⟩
  exact bumped_of_compatible hsame

end

variable [DecidableEq N] [OrderBot V] [DecidableEq H] {ctx : SlotContext N V H}
  {arrives : Arrival N V H → Prop} {c c' : Ballot N V H}

/-! ### No vote for an aborted ballot -/

theorem Step.unaborted (hordered : c.state.Ordered) (hstep : Step ctx arrives c c')
    (hunaborted : c.state.Unaborted) : c'.state.Unaborted := by
  intro hphase hcommit
  have hprepare : c.state.phase = .prepare := by
    by_contra hlater
    exact (hstep.change hordered).phase_ne_prepare hlater hphase
  cases hstep with
  | idle hidle =>
    rw [hidle.toBallots] at hcommit ⊢
    exact hunaborted hprepare hcommit
  | send =>
    rw [sendLatestEnvelope_toBallots] at hcommit ⊢
    exact hunaborted hprepare hcommit
  | receive envelope harrives hnewer => exact hunaborted hprepare hcommit
  | acceptPrepared ballot _ hskip haccepts =>
    obtain ⟨s, _, heq⟩ := acceptPrepared_raises hskip
    rw [recorded_toBallots, heq] at hcommit ⊢
    unfold voided at hcommit ⊢
    split at hcommit
    · exact absurd rfl hcommit
    next hkept =>
      rw [if_neg hkept]
      intro h hh
      rw [mem_def] at hh
      simpa [hh, isSome_iff_ne_none, hcommit] using hkept
  | confirmPrepared newC newH _ hprepared hhigh hratifies hnewC hcovered hopen =>
    have hconfirms : c.state.Confirms newC newH _ _ := confirmPrepared_confirms hordered hhigh
    rw [recorded_toBallots] at hcommit ⊢
    generalize (Scp.confirmPrepared newC newH c).2.state.toBallots = s' at hconfirms hcommit ⊢
    generalize (Scp.confirmPrepared newC newH c).1 = didWork at hconfirms
    cases hconfirms with
    | incompatibleAbove b hcurrent hvalue hle => exact hunaborted hprepare hcommit
    | incompatibleBelow b hcurrent hvalue hlt => exact absurd rfl hcommit
    | compatible hvalue =>
      intro h hh
      obtain rfl := some.inj hh
      by_cases hset : newC.counter ≠ 0 ∧ c.state.commit = none
      · exact hopen hset.1
      · -- the commit was there before, under a lower high ballot
        have hbefore : c.state.commit ≠ none := by simpa [hset] using hcommit
        obtain ⟨k, hk⟩ := ne_none_iff_exists'.mp hbefore
        obtain ⟨h, hh, _, _⟩ := hordered.commit k hk
        obtain ⟨b, hb, _, hsame⟩ := hordered.high h hh
        have hbelow := highAborted_eq_false_iff.mp (hunaborted hprepare hbefore h hh)
        refine highAborted_eq_false_iff.mpr fun p hp hne => (hbelow p hp ?_).trans (hhigh h hh)
        rwa [hsame, hvalue b hb]
  | acceptCommit newC newH _ hprepared hnewC hcounter hconfirm haccepts =>
    rw [recorded_toBallots, (acceptCommit_prepare newC newH hprepare).2] at hphase
    cases hphase
  | confirmCommit c' newC newH hconfirm hnewC hcounter hcommit hratifies hsend =>
    rw [hprepare] at hconfirm
    cases hconfirm
  | bump value counter hcounter =>
    rw [recorded_toBallots] at hcommit ⊢
    unfold bumpValue at hcommit ⊢
    rcases updateCurrentValue_cases ⟨counter, c.state.valueOverride.getD value⟩ hordered with
      ⟨c₁, _, heq, hr | hr⟩ | ⟨_, _, hcompatible, c₁, _, heq, hr⟩
    · rw [hr] at hcommit ⊢
      rw [heq] at hcommit ⊢
      exact hunaborted hprepare hcommit
    · rw [hr] at hcommit ⊢
      change c₁.state.commit ≠ none at hcommit
      change ∀ h ∈ c₁.state.highBallot, highAborted c₁.state.toBallots h = false
      rw [heq] at hcommit ⊢
      exact hunaborted hprepare hcommit
    · rw [hr] at hcommit ⊢
      change c₁.state.commit ≠ none at hcommit
      change ∀ h ∈ c₁.state.highBallot, highAborted c₁.state.toBallots h = false
      rw [heq] at hcommit ⊢
      have hbefore : c.state.commit ≠ none := by
        intro hnone
        apply hcommit
        unfold bumped
        split
        · rfl
        · exact hnone
      rw [bumped_of_commit hordered hcompatible hbefore]
      exact hunaborted hprepare hbefore

theorem Steps.unaborted (hordered : c.state.Ordered) (hsteps : Steps ctx arrives c c')
    (hunaborted : c.state.Unaborted) : c'.state.Unaborted := by
  induction hsteps with
  | refl => exact hunaborted
  | tail hsteps hstep ih => exact hstep.unaborted (ordered hordered hsteps) ih

theorem BallotRun.unaborted {allowed : Admits N V H} (hrun : BallotRun ctx allowed c) :
    c.state.Unaborted := by
  refine hrun.invariant (fun c => c.state.Unaborted) (fun _ hcommit => absurd rfl hcommit) ?_
  intro driver op start _ _ c c' hordered _ hstep
  exact hstep.unaborted hordered

/-- Once PREPARE is left every step climbs. -/
theorem Steps.climbs (hordered : c.state.Ordered) (hlater : c.state.phase ≠ .prepare)
    (hsteps : Steps ctx arrives c c') : c.state.Climbs c'.state.toBallots := by
  induction hsteps with
  | refl => exact .refl _
  | tail hsteps hstep ih =>
    have hchange := hstep.change (ordered hordered hsteps)
    have hlater' := phase_ne_prepare hordered hsteps hlater
    exact ih.trans (.of_later (hchange.rises hlater') (hchange.phase_ne_prepare hlater'))

/-! ### Advancing on one's own statement -/

/-- What a statement of the node tells of the state it was made in: it votes to commit only
what the state commits to, and nothing it prepares aborts the high ballot. -/
structure OwnHint (hint : ScpStatement N V H) (s : Ballots V) : Prop where
  votes : s.phase = .prepare → ∀ ballot, hintBallotForCommit hint = some ballot →
    ∃ k ∈ s.commit, k.value = ballot.value
  covered : s.phase = .prepare → s.commit ≠ none → ∀ h ∈ s.highBallot,
    ∀ q ∈ collectHintBallots hint, h.value ≠ q.value → q < h

omit [DecidableEq N] [DecidableEq H] in
theorem ownHint_localStatement {s : Ballots V} {pledges : ScpStatementPledges V H} {canEmit : Bool}
    (hpledges : selfPledges ctx s = some (pledges, canEmit)) (hordered : s.Ordered)
    (hunaborted : s.Unaborted) : OwnHint (localStatement ctx pledges) s := by
  by_cases hphase : s.phase = .prepare
  · simp only [selfPledges, hphase, some.injEq, Prod.mk.injEq] at hpledges
    obtain ⟨rfl, -⟩ := hpledges
    refine ⟨fun _ ballot hballot => ?_, fun _ hcommit h hh q hq hne => ?_⟩
    · simp only [localStatement, hintBallotForCommit, bne_iff_ne, ne_eq] at hballot
      split at hballot
      next hvotes =>
        obtain rfl := some.inj hballot
        cases hcommit : s.commit with
        | none => simp [hcommit, counterOrZero] at hvotes
        | some k =>
          obtain ⟨h, hh, _, hvalue⟩ := hordered.commit k hcommit
          obtain ⟨b, hb, _, hsame⟩ := hordered.high h hh
          rw [mem_def] at hb
          exact ⟨k, rfl, by rw [hb]; exact hvalue.trans hsame⟩
      · cases hballot
    · obtain ⟨b, hb, _, hsame⟩ := hordered.high h hh
      have hbelow := highAborted_eq_false_iff.mp (hunaborted hphase hcommit h hh)
      rw [mem_def] at hb
      simp only [localStatement, collectHintBallots, hb, getD_some, List.mem_cons,
        List.mem_append, mem_toList] at hq
      rcases hq with rfl | hq
      · exact absurd hsame hne
      · exact hbelow q hq hne
  · exact ⟨fun h => absurd h hphase, fun h => absurd h hphase⟩

/-- Emission from a state of a run climbs. -/
def EmitClimbs (emit : Emit N V H) : Prop :=
  ∀ {c c' : Ballot N V H}, c.state.Ordered → c.state.Unaborted → emit c = .ok c' →
    c.state.Climbs c'.state.toBallots

variable {emit : Emit N V H} {hint : ScpStatement N V H} {result : Bool × Ballot N V H}
  {s : Ballots V}

omit [OrderBot V] [DecidableEq H] in
/-- A candidate of the own statement that would abort the high ballot lies below it. -/
theorem OwnHint.candidate {ballot h : ScpBallot V} (hown : OwnHint hint s)
    (hstart : s.Climbs c.state.toBallots) (hphase : c.state.phase = .prepare)
    (hcommit : s.commit ≠ none) (hh : h ∈ c.state.highBallot)
    (hcandidate : ballot ∈ getPrepareCandidates c.state hint) (hne : h.value ≠ ballot.value) :
    ballot < h := by
  obtain ⟨topVote, htop, hle, hvalue⟩ := exists_topVote_of_candidate hcandidate
  obtain ⟨k, hk⟩ := ne_none_iff_exists'.mp hcommit
  obtain ⟨h₀, hh₀, hle', hsame⟩ := (hstart.commit hphase k hk).2 h hh
  refine (hle.trans_lt (hown.covered (hstart.prepare hphase) hcommit h₀ hh₀ topVote htop ?_)).trans_le
    hle'
  rwa [hsame, ← hvalue]

section

variable (hemit : EmitClimbs emit)
include hemit

/-- A setter that climbs from where the statement was made, and the emission of its result. -/
theorem emitted_climbs (hordered : c.state.Ordered) (hunaborted : c.state.Unaborted)
    {change : Bool × Ballot N V H}
    (hstep : Step ctx (fun _ => False) c (recorded ctx change.1 change.2))
    (hclimbs : s.Climbs change.2.state.toBallots)
    (hresult : (match change with
      | (true, c) => do
        let c ← emit c
        .ok (true, c)
      | (false, c) => .ok (false, c)) = Except.ok result) :
    s.Climbs result.2.state.toBallots := by
  have hordered' := (hstep.change hordered).ordered hordered
  have hunaborted' := hstep.unaborted hordered hunaborted
  rw [recorded_toBallots] at hordered' hunaborted'
  obtain ⟨didWork, c₁⟩ := change
  cases didWork with
  | true =>
    obtain ⟨c₂, hok, hresult⟩ := bind_ok_iff.mp hresult
    obtain rfl := Except.ok.inj hresult
    exact hclimbs.trans (hemit hordered' hunaborted' hok)
  | false =>
    obtain rfl := Except.ok.inj hresult
    exact hclimbs

theorem bumpState_climbs {value : V} {counter : U32} (hordered : c.state.Ordered)
    (hunaborted : c.state.Unaborted)
    (hcounter : c.state.currentBallot = none → counter ≠ 0)
    (hresult : bumpState ctx emit value counter c = .ok result) :
    c.state.Climbs result.2.state.toBallots := by
  have hstep : Step ctx (fun _ => False) c (recorded ctx (bumpValue value counter c).1
      (bumpValue value counter c).2) := .bump c value counter fun hnone => .inl (hcounter hnone)
  have hordered' := (hstep.change hordered).ordered hordered
  have hunaborted' := hstep.unaborted hordered hunaborted
  rw [recorded_toBallots] at hordered' hunaborted'
  unfold bumpValue at hordered' hunaborted'
  unfold bumpState at hresult
  split at hresult
  · obtain rfl := Except.ok.inj hresult
    exact .refl _
  · rcases updateCurrentValue_cases ⟨counter, c.state.valueOverride.getD value⟩ hordered with
      ⟨c₁, _, heq, hr | hr⟩ | ⟨_, hbelow, hcompatible, c₁, _, heq, hr⟩
    · rw [hr] at hresult
      obtain rfl := Except.ok.inj hresult
      exact heq ▸ .refl _
    · rw [hr] at hresult
      obtain rfl := Except.ok.inj hresult
      change c.state.Climbs c₁.state.toBallots
      exact heq ▸ .refl _
    · rw [hr] at hresult hordered' hunaborted'
      obtain ⟨c₂, hok, hresult⟩ := bind_ok_iff.mp hresult
      obtain rfl := Except.ok.inj hresult
      have hbumped : c.state.Climbs (c.state.bumped ⟨counter, c.state.valueOverride.getD value⟩) := by
        have hframe := bumped_frame c.state.toBallots
          ⟨counter, c.state.valueOverride.getD value⟩
        refine .of_same (rises_of_below hbelow hframe.1) hframe.2.2.2.1 fun hcommit => ?_
        rw [bumped_of_commit hordered hcompatible hcommit]
        exact ⟨rfl, rfl⟩
      have hemitted := hemit hordered' hunaborted' hok
      change c₁.state.Climbs c₂.state.toBallots at hemitted
      rw [heq] at hemitted
      rw [(checkHeardFromQuorum_idle ctx c₂).toBallots]
      exact hbumped.trans hemitted

theorem bumpLoop_climbs (hemits : Emits ctx emit) (fuel : Nat) (hordered : c.state.Ordered) (hunaborted : c.state.Unaborted)
    (hresult : bumpLoop ctx emit fuel c = .ok result) :
    c.state.Climbs result.2.state.toBallots := by
  induction fuel generalizing c result with
  | zero => simp [bumpLoop] at hresult
  | succ fuel ih =>
    unfold bumpLoop at hresult
    obtain ⟨⟨bumped, c₁⟩, hbump, hresult⟩ := bind_ok_iff.mp hresult
    have hsteps : InnerSteps ctx c c₁ := attemptBump_steps hemits hordered hbump
    have hclimbs : c.state.Climbs c₁.state.toBallots := by
      obtain hsame | ⟨value, next, hnext, hbumped⟩ := attemptBump_cases hbump
      · obtain ⟨-, rfl⟩ := Prod.mk.inj hsame
        exact .refl _
      · exact bumpState_climbs hemit hordered hunaborted hnext hbumped
    dsimp only at hresult
    split at hresult
    · obtain ⟨⟨again, c₂⟩, hloop, hresult⟩ := bind_ok_iff.mp hresult
      obtain rfl := Except.ok.inj hresult
      have hrest := ih (ordered hordered hsteps)
        (unaborted hordered hsteps hunaborted) hloop
      exact hclimbs.trans hrest
    · obtain rfl := Except.ok.inj hresult
      exact hclimbs

theorem attemptAcceptPrepared_climbs (hordered : c.state.Ordered) (hunaborted : c.state.Unaborted)
    (hown : OwnHint hint c.state.toBallots) (hphase : c.state.phase = .prepare)
    (hresult : attemptAcceptPrepared ctx emit hint c = .ok result) :
    c.state.Climbs result.2.state.toBallots := by
  have hcandidates : ∀ q ∈ (getPrepareCandidates c.state hint).reverse, c.state.commit ≠ none →
      ∀ h ∈ c.state.highBallot, h.value ≠ q.value → q < h := fun q hq hcommit h hh hne =>
    hown.candidate (.refl _) hphase hcommit hh (List.mem_reverse.mp hq) hne
  unfold attemptAcceptPrepared at hresult
  rw [if_neg fun h => h.1 hphase] at hresult
  generalize (getPrepareCandidates c.state hint).reverse = candidates at hcandidates hresult
  induction candidates with
  | nil =>
    obtain rfl := Except.ok.inj hresult
    exact .refl _
  | cons ballot rest ih =>
    obtain ⟨hballot, hrest⟩ := List.forall_mem_cons.mp hcandidates
    unfold acceptPreparedLoop at hresult
    split at hresult
    · exact ih hrest hresult
    next hskip =>
      rw [Bool.not_eq_true] at hskip
      split at hresult
      next haccepts =>
        obtain ⟨⟨didWork, c₁⟩, hset, hresult⟩ := bind_ok_iff.mp hresult
        obtain ⟨hwork, hok⟩ := setAcceptPrepared_emits hordered hskip hset
        obtain rfl : didWork = true := hwork
        obtain rfl := Except.ok.inj hresult
        have hstep : Step ctx (fun _ => False) c (recorded ctx true (acceptPrepared ballot c)) :=
          .acceptPrepared c ballot (by simp [hphase]) hskip haccepts
        have hordered' := (hstep.change hordered).ordered hordered
        have hunaborted' := hstep.unaborted hordered hunaborted
        rw [recorded_toBallots] at hordered' hunaborted'
        refine Ballots.Climbs.trans ?_ (hemit hordered' hunaborted' hok)
        obtain ⟨s₁, hraises, heq⟩ := acceptPrepared_raises hskip
        obtain ⟨hcurrent, hhigh, hkept, hphase₁, _⟩ := hraises.frame
        rw [heq]
        have hframe := voided_frame s₁
        refine .of_same (rises_of_eq (hframe.1.trans hcurrent))
          (hframe.2.2.2.2.1.trans hphase₁) fun hcommit => ?_
        -- the candidate does not abort the high ballot, so the commit stays
        have hfree : s₁.highBallot.any (highAborted s₁) = false := by
          rw [hhigh, any_eq_false]
          intro h hh
          refine highAborted_eq_false_iff.mpr fun p hp hne => ?_
          have hbelow := highAborted_eq_false_iff.mp (hunaborted hphase hcommit h hh)
          rcases hraises.mem hp with rfl | hp
          · exact hballot hcommit h hh hne
          · exact hbelow p hp hne
        unfold voided
        rw [hfree, Bool.and_false, if_neg Bool.false_ne_true]
        exact ⟨hkept, hhigh⟩
      · exact ih hrest hresult

theorem attemptConfirmPrepared_climbs (hordered : c.state.Ordered) (hunaborted : c.state.Unaborted)
    (htried : Tried ctx hint c.state) (hown : OwnHint hint s)
    (hstart : s.Climbs c.state.toBallots)
    (hresult : attemptConfirmPrepared ctx emit hint c = .ok result) :
    s.Climbs result.2.state.toBallots := by
  obtain rfl | ⟨newC, newH, hguards, hset⟩ := attemptConfirmPrepared_cases hresult
  · exact hstart
  refine emitted_climbs hemit hordered hunaborted (hguards.step htried) ?_ hset
  have hconfirms : c.state.Confirms newC newH _ _ :=
    confirmPrepared_confirms hordered hguards.high
  have hphase := hguards.phase
  generalize (confirmPrepared newC newH c).2.state.toBallots = s' at hconfirms
  generalize (confirmPrepared newC newH c).1 = didWork at hconfirms
  have hkeeps : s'.phase = c.state.phase := by cases hconfirms <;> rfl
  refine ⟨hstart.rises.trans hconfirms.rises, fun _ => hstart.prepare hphase, fun _ k hk => ?_⟩
  obtain ⟨⟨k', hk', hvalue⟩, hhigh⟩ := hstart.commit hphase k hk
  obtain ⟨h, hh, _, _⟩ := hordered.commit k' hk'
  obtain ⟨b, hb, _, hsame⟩ := hordered.high h hh
  cases hconfirms with
  | incompatibleAbove b' hcurrent hne hle => exact ⟨⟨k', hk', hvalue⟩, hhigh⟩
  | incompatibleBelow b' hcurrent hne hlt =>
    obtain rfl := mem_unique hb hcurrent
    have hcommit : s.commit ≠ none := ne_none_iff_exists'.mpr ⟨k, hk⟩
    have hbelow := hown.candidate hstart hphase hcommit hh hguards.candidate (hsame ▸ hne)
    exact absurd hbelow (hguards.high h hh).asymm
  | compatible hcompatible =>
    rw [mem_def] at hk'
    refine ⟨⟨k', by simp [hk'], hvalue⟩, fun h' hh' => ?_⟩
    obtain rfl := some.inj hh'
    obtain ⟨h₀, hh₀, hle, hsame₀⟩ := hhigh h hh
    exact ⟨h₀, hh₀, hle.trans (hguards.high h hh).le, hsame₀.trans (hsame.trans (hcompatible b hb))⟩

theorem attemptAcceptCommit_climbs (hordered : c.state.Ordered) (hunaborted : c.state.Unaborted)
    (htried : c.state.prepared = none → ∀ ballot, hintBallotForCommit hint = some ballot →
      ∀ interval, acceptsCommit ctx c.state ballot interval = false)
    (hown : OwnHint hint s) (hstart : s.Climbs c.state.toBallots)
    (hphase : c.state.phase = .prepare)
    (hresult : attemptAcceptCommit ctx emit hint c = .ok result) :
    s.Climbs result.2.state.toBallots := by
  obtain rfl | ⟨ballot, newC, newH, hballot, hguards, hset⟩ := attemptAcceptCommit_cases hresult
  · exact hstart
  have hprepared : c.state.prepared ≠ none := by
    intro hnone
    have haccepts := hguards.accepts
    rw [htried hnone ballot hballot] at haccepts
    cases haccepts
  refine emitted_climbs hemit hordered hunaborted (hguards.step hprepared) ?_ hset
  -- the node votes for the commit, so its current ballot has that value
  obtain ⟨k, hk, hvalue⟩ := hown.votes (hstart.prepare hphase) ballot hballot
  obtain ⟨k', hk', hvalue'⟩ := (hstart.commit hphase k hk).1
  obtain ⟨h, hh, _, hsame⟩ := hordered.commit k' hk'
  obtain ⟨b, hb, _, hsame'⟩ := hordered.high h hh
  have hcompatible : newH.value = b.value := by
    rw [hguards.value, ← hvalue, ← hvalue', hsame, hsame']
  rw [(acceptCommit_prepare newC newH hphase).2]
  refine .of_later (hstart.rises.trans fun b' hb' => ?_) nofun
  obtain rfl := mem_unique hb hb'
  rw [mem_def] at hb
  simp only [enteringBallot, hb, any_some, areBallotsLessAndCompatible_iff]
  by_cases hle : newH ≤ b
  · exact ⟨b, by simp [hle, hcompatible], le_rfl⟩
  · exact ⟨newH, by simp [hle], (not_le.mp hle).le⟩

end

/-! ### Nested calls -/

/-- Advancing on an own statement climbs. -/
def AdvanceClimbs (ctx : SlotContext N V H) (advance : Advance N V H) : Prop :=
  ∀ {hint : ScpStatement N V H} {c : Ballot N V H}, c.state.Ordered → c.state.Unaborted →
    OwnHint hint c.state.toBallots →
    c.state.latestEnvelopes.statement? ctx.localNodeId = some hint →
    ∀ {result : EnvelopeState × Ballot N V H}, advance hint c = .ok result →
      c.state.Climbs result.2.state.toBallots

theorem emitCurrentState_climbs {advance : Advance N V H} (hadvance : AdvanceClimbs ctx advance) :
    EmitClimbs (emitCurrentState ctx advance) := by
  intro c c' hordered hunaborted hok
  unfold emitCurrentState at hok
  have hballots := recordCurrentState_toBallots ctx c
  have hcases := recordCurrentState_cases ctx c
  cases hrecord : recordCurrentState ctx c with
  | mk outcome c₁ =>
    rw [hrecord] at hok hcases hballots
    cases outcome with
    | rejected =>
      obtain rfl := Except.ok.inj hok
      exact hballots ▸ .refl _
    | final =>
      obtain rfl := Except.ok.inj hok
      rw [sendLatestEnvelope_toBallots]
      exact hballots ▸ .refl _
    | advance hint =>
      obtain ⟨⟨state, c₂⟩, hnested, hok⟩ := bind_ok_iff.mp hok
      obtain rfl := Except.ok.inj hok
      rw [sendLatestEnvelope_toBallots, ← hballots]
      have hown : OwnHint hint c₁.state.toBallots := by
        rw [hballots]
        cases hcases with
        | advance pledges canEmit validation hpledges =>
          exact ownHint_localStatement hpledges hordered hunaborted
      have hstored : c₁.state.latestEnvelopes.statement? ctx.localNodeId = some hint := by
        cases hcases with
        | advance => simp [storeSelf, createSignedEnvelope]
      exact hadvance (hballots ▸ hordered) (hballots ▸ hunaborted) hown hstored hnested

theorem advanceSlot_climbs (ctx : SlotContext N V H) (fuel : Nat) :
    AdvanceClimbs ctx (advanceSlot ctx fuel) := by
  induction fuel with
  | zero =>
    intro hint c _ _ _ _ result hresult
    simp [advanceSlot] at hresult
  | succ fuel ih =>
    intro hint c hordered hunaborted hown hhint result hresult
    have hsteps := advanceSlot_advances ctx (fuel + 1) hordered hhint hresult
    by_cases hphase : c.state.phase = .prepare
    · have hemits := emitWith_emits ctx fuel
      have hemit : EmitClimbs (emitWith ctx fuel) := emitCurrentState_climbs ih
      obtain ⟨c₀, c₁, c₂, c₃, c₄, c₅, w₁, w₂, w₃, w₄, hidle, h₁, h₂, h₃, h₄, h₅, -, hlast⟩ :=
        advanceSlot_stages hresult
      rw [hlast]
      rw [← hidle.toBallots] at hown hunaborted hordered hphase ⊢
      have htried := attemptAcceptPrepared_tried hemits hordered (hidle.latestEnvelopes ▸ hhint) h₁
      have hclimbs₁ := attemptAcceptPrepared_climbs hemit hordered hunaborted hown hphase h₁
      have hsteps₁ := (attemptAcceptPrepared_steps hemits hordered h₁).1
      have hordered₁ := ordered hordered hsteps₁
      have hunaborted₁ := unaborted hordered hsteps₁ hunaborted
      have hclimbs₂ :=
        attemptConfirmPrepared_climbs hemit hordered₁ hunaborted₁ htried hown hclimbs₁ h₂
      have hsteps₂ := (attemptConfirmPrepared_steps hemits hordered₁ htried h₂).1
      have hordered₂ := ordered hordered₁ hsteps₂
      have hunaborted₂ := unaborted hordered₁ hsteps₂ hunaborted₁
      have htried₂ := attemptConfirmPrepared_tried hemits hordered₁ htried h₂
      have hsteps₃ : InnerSteps ctx c₂ c₃ := attemptAcceptCommit_steps hemits hordered₂ htried₂ h₃
      have hordered₃ := ordered hordered₂ hsteps₃
      have hunaborted₃ := unaborted hordered₂ hsteps₃ hunaborted₂
      have hclimbs₃ : c₀.state.Climbs c₃.state.toBallots := by
        by_cases hphase₂ : c₂.state.phase = .prepare
        · exact attemptAcceptCommit_climbs hemit hordered₂ hunaborted₂ htried₂ hown hclimbs₂
            hphase₂ h₃
        · exact hclimbs₂.trans (climbs hordered₂ hphase₂ hsteps₃)
      have hsteps₄ : InnerSteps ctx c₃ c₄ := attemptConfirmCommit_steps hemits h₄
      have hclimbs₄ : c₀.state.Climbs c₄.state.toBallots := by
        by_cases hphase₃ : c₃.state.phase = .confirm
        · exact hclimbs₃.trans (climbs hordered₃ (by simp [hphase₃]) hsteps₄)
        · unfold attemptConfirmCommit at h₄
          rw [if_pos hphase₃] at h₄
          cases h₄
          exact hclimbs₃
      obtain rfl | ⟨bumped, hloop⟩ := h₅
      · exact hclimbs₄
      · exact hclimbs₄.trans (bumpLoop_climbs hemit hemits fuel (ordered hordered₃ hsteps₄)
          (unaborted hordered₃ hsteps₄ hunaborted₃) hloop)
    · exact climbs hordered hphase hsteps

theorem emitWith_climbs (ctx : SlotContext N V H) (fuel : Nat) : EmitClimbs (emitWith ctx fuel) :=
  emitCurrentState_climbs (advanceSlot_climbs ctx fuel)

end Henyey.Scp
