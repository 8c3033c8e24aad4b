import Henyey.Scp.Ballot.Run
import Henyey.Scp.Ballot.Trace

/-!
# When the consistency check passes

Beyond the ordering, which every run keeps, the check asks for a current ballot
with a counter and, after PREPARE, for a commit. Two calls can break that:
confirming a zero ballot before there is a current one, and accepting in
CONFIRM a ballot of another value above `h`.
-/

namespace Henyey.Scp

open Foundation Ballots Option

variable {N V H : Type} [LinearOrder V]

/-- What the consistency check asks for beyond the ordering. -/
structure Ballots.Sound (s : Ballots V) : Prop where
  counter : ∀ b ∈ s.currentBallot, b.counter ≠ 0
  commit : s.phase ≠ .prepare → s.commit ≠ none

omit [LinearOrder V] in
theorem Ballots.sound_new : (new : Ballots V).Sound :=
  ⟨by simp [new], by simp [new]⟩

variable {s : Ballots V}

omit [LinearOrder V] in
theorem checkCurrent_ok_iff : checkCurrent s = .ok () ↔ ∀ b ∈ s.currentBallot, b.counter ≠ 0 := by
  unfold checkCurrent
  cases hb : s.currentBallot with
  | none => simp
  | some b =>
    by_cases hzero : b.counter = 0
    · simp [hzero]
    · simp [hzero]

section

variable (hordered : s.Ordered)
include hordered

theorem checkPhase_ok_iff : checkPhase s = .ok () ↔ (s.phase ≠ .prepare → s.commit ≠ none) := by
  unfold checkPhase
  by_cases hphase : s.phase = .prepare
  · simp [hphase]
  · obtain ⟨⟨high, hhigh, _⟩, hprepared, _⟩ := hordered.confirmed hphase
    obtain ⟨current, hcurrent, _⟩ := hordered.high high hhigh
    rw [mem_def] at hhigh hcurrent
    obtain ⟨prepared, hprepared⟩ := ne_none_iff_exists'.mp hprepared
    cases hcommit : s.commit <;> simp [hphase, hhigh, hcurrent, hprepared]

theorem checkPrepared_ok : checkPrepared s = .ok () := by
  unfold checkPrepared
  split
  next prepared preparedPrime hprepared hprime =>
    obtain ⟨p, hp, hlt, hne⟩ := hordered.prime preparedPrime hprime
    obtain rfl : p = prepared := some.inj (hp.symm.trans hprepared)
    rw [if_pos (areBallotsLessAndIncompatible_iff.mpr ⟨hlt.le, hne⟩)]
  · rfl

theorem checkHigh_ok : checkHigh s = .ok () := by
  unfold checkHigh
  cases hhigh : s.highBallot with
  | none => rfl
  | some high =>
    obtain ⟨current, hcurrent, hle⟩ := hordered.high high hhigh
    rw [mem_def] at hcurrent
    simp only [hcurrent, areBallotsLessAndCompatible_iff.mpr hle, if_true]

theorem checkCommit_ok : checkCommit s = .ok () := by
  unfold checkCommit
  cases hcommit : s.commit with
  | none => rfl
  | some commit =>
    obtain ⟨high, hhigh, hle⟩ := hordered.commit commit hcommit
    obtain ⟨current, hcurrent, hle'⟩ := hordered.high high hhigh
    rw [mem_def] at hhigh hcurrent
    simp only [hhigh, hcurrent, areBallotsLessAndCompatible_iff.mpr hle,
      areBallotsLessAndCompatible_iff.mpr hle', Bool.not_true, Bool.false_eq_true, if_false]

/-- In an ordered state the check passes exactly when the state is sound. -/
theorem checkInvariants_ok_iff : checkInvariants s = .ok () ↔ s.Sound := by
  have hpass (x : Except String Unit) (y : Unit → Except String Unit) :
      (x >>= y) = .ok () ↔ x = .ok () ∧ y () = .ok () := by
    rw [bind_ok_iff]
    exact ⟨fun ⟨_, hx, hy⟩ => ⟨hx, hy⟩, fun ⟨hx, hy⟩ => ⟨(), hx, hy⟩⟩
  unfold checkInvariants
  simp only [hpass, checkPhase_ok_iff hordered, checkCurrent_ok_iff, checkPrepared_ok hordered,
    checkHigh_ok hordered, checkCommit_ok hordered, and_true]
  exact ⟨fun ⟨hcommit, hcounter⟩ => ⟨hcounter, hcommit⟩, fun h => ⟨h.commit, h.counter⟩⟩

theorem errorText_eq_none_iff : errorText (checkInvariants s) = none ↔ s.Sound := by
  rw [← checkInvariants_ok_iff hordered]
  cases checkInvariants s <;> simp [errorText]

end

/-! ### Safe calls -/

/-- Confirming needs a current ballot or a counter; accepting in CONFIRM needs
a ballot that does not abort `h`. -/
def safeTransition (before : Ballots V) : Transition V → Bool
  | .acceptPrepared ballot =>
    before.phase != .confirm ||
      before.highBallot.all (fun high => !areBallotsLessAndIncompatible high ballot)
  | .confirmPrepared _ newH => before.currentBallot.isSome || newH.counter != 0
  | .acceptCommit _ _ => true
  | .confirmCommit _ _ => true

theorem counter_ne_zero_of_le {a b : ScpBallot V} (hle : a ≤ b) (ha : a.counter ≠ 0) :
    b.counter ≠ 0 := by
  intro hzero
  have hle' := ballot_counter_mono hle
  rw [hzero] at hle'
  exact ha (Fin.le_zero_iff.mp hle')

variable {s s' : Ballots V}

/-- Accepting in CONFIRM keeps the commit exactly when the ballot does not abort
`h`. -/
theorem Ballots.Raises.voided_commit {ballot : ScpBallot V} (hordered : s.Ordered)
    (hphase : s.phase = .confirm) (hraises : s.Raises ballot s') :
    s'.voided.commit = if safeTransition s (.acceptPrepared ballot) then s.commit else none := by
  obtain ⟨_, hhigh, hcommit, _⟩ := hraises.frame
  obtain ⟨⟨high, hmem, _⟩, hprepared, hprime⟩ := hordered.confirmed (by simp [hphase])
  rw [mem_def] at hmem
  have hprime' := hraises.prime_eq_none hphase hprime
  have hprepared' : s'.prepared = some ballot := by
    cases hraises with
    | first hnone => exact absurd hnone hprepared
    | above => rfl
    | prime p _ _ _ _ hne => exact absurd hphase hne
  unfold voided safeTransition highAborted
  rw [hcommit, hhigh, hprepared', hprime', hmem, hphase]
  cases habort : areBallotsLessAndIncompatible high ballot <;> cases hc : s.commit <;>
    simp [habort, hcommit, hc]

/-- Accepting a ballot keeps the state sound when the call is safe and breaks it
otherwise. -/
theorem Ballots.Raises.voided_sound {ballot : ScpBallot V} (hordered : s.Ordered)
    (hphase : s.phase ≠ .externalize) (hraises : s.Raises ballot s') :
    (safeTransition s (.acceptPrepared ballot) = true → s.Sound → s'.voided.Sound) ∧
      (safeTransition s (.acceptPrepared ballot) = false → ¬s'.voided.Sound) := by
  obtain ⟨hcurrent, _, _, hphase', _⟩ := hraises.frame
  obtain ⟨hcurrent', _, _, _, hphase'', _⟩ := voided_frame s'
  constructor
  · intro hsafe hsound
    refine ⟨?_, ?_⟩
    · rw [hcurrent', hcurrent]
      exact hsound.counter
    · intro hlater
      rw [hphase'', hphase'] at hlater
      have hconfirm : s.phase = .confirm := by
        cases hs : s.phase <;> simp_all
      rw [hraises.voided_commit hordered hconfirm, if_pos hsafe]
      exact hsound.commit hlater
  · intro hbreaks hsound
    have hconfirm : s.phase = .confirm := by
      by_contra hne
      simp [safeTransition, hne] at hbreaks
    have hcommit := hraises.voided_commit hordered hconfirm
    rw [hbreaks] at hcommit
    refine hsound.commit ?_ hcommit
    rw [hphase'', hphase', hconfirm]
    simp

/-- Confirming a ballot keeps the state sound when the call is safe and breaks
it, with some work done, otherwise. -/
theorem Ballots.Confirms.sound {newC newH : ScpBallot V} {didWork : Bool}
    (hphase : s.phase = .prepare) (hconfirms : s.Confirms newC newH didWork s') :
    (safeTransition s (.confirmPrepared newC newH) = true → s.Sound → s'.Sound) ∧
      (safeTransition s (.confirmPrepared newC newH) = false → didWork = true ∧ ¬s'.Sound) := by
  cases hconfirms with
  | incompatibleAbove b hcurrent hvalue hle =>
    refine ⟨fun _ hsound => ⟨hsound.counter, fun h => absurd hphase h⟩, fun hbreaks => ?_⟩
    simp [safeTransition, hcurrent] at hbreaks
  | incompatibleBelow b hcurrent hvalue hlt =>
    refine ⟨fun _ hsound => ⟨?_, fun h => absurd hphase h⟩, fun hbreaks => ?_⟩
    · intro b' hb'
      obtain rfl := some.inj hb'
      exact counter_ne_zero_of_le hlt.le (hsound.counter b hcurrent)
    · simp [safeTransition, hcurrent] at hbreaks
  | compatible hvalue =>
    cases hcurrent : s.currentBallot with
    | none =>
      have hbelow : s.below newH := by simp [below, hcurrent]
      refine ⟨fun hsafe _ => ⟨?_, fun h => absurd hphase h⟩, fun hbreaks => ⟨rfl, ?_⟩⟩
      · intro b hb
        simp only [hbelow, if_true, mem_some_iff] at hb
        subst hb
        simpa [safeTransition, hcurrent] using hsafe
      · intro hsound
        refine hsound.counter newH (by simp [hbelow]) ?_
        simpa [safeTransition, hcurrent] using hbreaks
    | some b =>
      refine ⟨fun _ hsound => ⟨?_, fun h => absurd hphase h⟩, fun hbreaks => ?_⟩
      · intro b' hb'
        have hb := hsound.counter b hcurrent
        by_cases hbelow : s.below newH
        · simp only [hbelow, if_true, mem_some_iff] at hb'
          subst hb'
          exact counter_ne_zero_of_le (hbelow b hcurrent).le hb
        · simp only [hbelow, if_false, mem_some_iff] at hb'
          exact hb' ▸ hb
      · simp [safeTransition, hcurrent] at hbreaks

theorem Ballots.Sound.enteringBallot (hsound : s.Sound) {newH : ScpBallot V}
    (hcounter : newH.counter ≠ 0) : ∀ b ∈ s.enteringBallot newH, b.counter ≠ 0 := by
  unfold Ballots.enteringBallot
  split
  · exact hsound.counter
  · intro b hb
    exact some.inj hb ▸ hcounter

theorem Ballots.Sound.raisedBallot (hsound : s.Sound) {newH : ScpBallot V}
    (hcounter : newH.counter ≠ 0) :
    ∀ b ∈ (if s.below newH then some newH else s.currentBallot), b.counter ≠ 0 := by
  split
  · intro b hb
    exact some.inj hb ▸ hcounter
  · exact hsound.counter

theorem Ballots.Sound.bumpValue {c : Ballot N V H} (hsound : c.state.Sound)
    (hordered : c.state.Ordered) {value : V} {counter : U32}
    (hcounter : c.state.currentBallot = none → counter ≠ 0) :
    (bumpValue value counter c).2.state.Sound := by
  unfold Scp.bumpValue
  rcases updateCurrentValue_cases ⟨counter, c.state.valueOverride.getD value⟩ hordered with
    ⟨c₁, _, heq, hr | hr⟩ | ⟨hphase, hbelow, hcommit, c₁, _, heq, hr⟩
  · rw [hr, heq]
    exact hsound
  · rw [hr]
    exact heq ▸ hsound
  · rw [hr]
    change c₁.state.toBallots.Sound
    obtain ⟨hcurrent, _, _, hphase', _⟩ := bumped_frame c.state.toBallots
      ⟨counter, c.state.valueOverride.getD value⟩
    rw [heq]
    refine ⟨?_, ?_⟩
    · rw [hcurrent]
      intro b hb
      obtain rfl := some.inj hb
      cases hb : c.state.currentBallot with
      | none => exact hcounter hb
      | some b => exact counter_ne_zero_of_le (hbelow b hb).le (hsound.counter b hb)
    · rw [hphase']
      intro hlater
      have hsame : ∀ h ∈ c.state.highBallot, c.state.valueOverride.getD value = h.value := by
        intro h hh
        rw [hordered.override_value hlater hh]
        rfl
      rw [bumped_of_compatible hsame]
      exact hsound.commit hlater

/-! ### Steps -/

/-- Not a call, and an evaluation only of the given state. -/
def CheckedEvent (s : Ballots V) (e : ScpEvent N V H) : Prop :=
  (∀ before call, e ≠ .transition before call) ∧
    ∀ error, e = .checkInvariants error → error = errorText (checkInvariants s)

theorem checkedEvent_of_quiet (s : Ballots V) {e : ScpEvent N V H} (hquiet : e.quiet = true) :
    CheckedEvent s e := by
  constructor
  · rintro before call rfl
    simp [ScpEvent.quiet] at hquiet
  · rintro error rfl
    simp [ScpEvent.quiet] at hquiet

/-- A step with at most one call: what it adds to the trace, and what the call
does to soundness. -/
structure Accounted (c c' : Ballot N V H) (call : Option (Transition V)) : Prop where
  trace : Appends (fun e => CheckedEvent c'.state.toBallots e ∨
    ∃ k ∈ call, e = .transition c.state.toBallots k) c c'
  noted : ∀ k ∈ call, .transition c.state.toBallots k ∈ c'.log
  sound : (∀ k ∈ call, safeTransition c.state.toBallots k = true) → c.state.Sound → c'.state.Sound
  unsound : ∀ k ∈ call, safeTransition c.state.toBallots k = false → ¬c'.state.Sound ∧
    .checkInvariants (errorText (checkInvariants c'.state.toBallots)) ∈ c'.log

variable {c c' : Ballot N V H}

theorem Accounted.of_no_call (htrace : Appends (CheckedEvent c'.state.toBallots) c c')
    (hsound : c.state.Sound → c'.state.Sound) : Accounted c c' none :=
  ⟨htrace.mono fun e he => .inl he, by simp, fun _ => hsound, by simp⟩

variable [DecidableEq N] [OrderBot V] [DecidableEq H] {ctx : SlotContext N V H}

omit [DecidableEq H] in
theorem checkedEvent_of_record (hsame : s = c.state.toBallots) {e : ScpEvent N V H}
    (hrecord : RecordEvent ctx c e) : CheckedEvent s e := by
  subst hsame
  rcases hrecord with hquiet | rfl | ⟨pledges, canEmit, outcome, hpledges, rfl⟩
  · exact checkedEvent_of_quiet _ hquiet
  · exact ⟨by simp, by simp⟩
  · exact ⟨by simp, by simp⟩

omit [DecidableEq N] [OrderBot V] [DecidableEq H] in
/-- A step that calls a setter, does what follows it, and evaluates the check
when the call was not safe. -/
theorem Accounted.of_call {call : Transition V} {c₁ : Ballot N V H}
    (hkept : Kept (noteTransition call c) c₁)
    (hrest : Appends (CheckedEvent c'.state.toBallots) c₁ c')
    (hsound : safeTransition c.state.toBallots call = true → c.state.Sound → c'.state.Sound)
    (hunsound : safeTransition c.state.toBallots call = false → ¬c'.state.Sound ∧
      .checkInvariants (errorText (checkInvariants c'.state.toBallots)) ∈ c'.log) :
    Accounted c c' (some call) := by
  refine ⟨?_, ?_, fun hsafe => hsound (hsafe call rfl), ?_⟩
  · refine ((transition_appends hkept).mono fun e he => ?_).trans (hrest.mono fun e he => .inl he)
    rcases he with hquiet | rfl
    · exact .inl (checkedEvent_of_quiet _ hquiet)
    · exact .inr ⟨call, rfl, rfl⟩
  · intro k hk
    obtain rfl := some.inj hk
    exact hrest.subset (mem_transition hkept)
  · intro k hk
    obtain rfl := some.inj hk
    exact hunsound

theorem recorded_checked (ctx : SlotContext N V H) (didWork : Bool) (c : Ballot N V H) :
    Appends (CheckedEvent (recorded ctx didWork c).state.toBallots) c (recorded ctx didWork c) :=
  (recorded_appends ctx didWork c).mono fun _ he =>
    checkedEvent_of_record (recorded_toBallots ctx didWork c) he

variable {arrives : Arrival N V H → Prop}

theorem Step.accounted (harrives : ∀ counter, arrives (.bumpTo counter) → counter ≠ 0)
    (hordered : c.state.Ordered) (hstep : Step ctx arrives c c') : ∃ call, Accounted c c' call := by
  have hquiet (c' : Ballot N V H) :
      ∀ e : ScpEvent N V H, e.quiet = true → CheckedEvent c'.state.toBallots e :=
    fun e he => checkedEvent_of_quiet _ he
  cases hstep with
  | idle hidle =>
    refine ⟨none, .of_no_call (hidle.appends.mono (hquiet _)) ?_⟩
    rw [hidle.toBallots]
    exact id
  | send =>
    refine ⟨none, .of_no_call ((sendLatestEnvelope_appends c).mono ?_) ?_⟩
    · rintro e ⟨envelope, rfl⟩
      exact ⟨by simp, by simp⟩
    · rw [sendLatestEnvelope_toBallots]
      exact id
  | receive envelope harrives hnewer => exact ⟨none, .of_no_call (Appends.refl c) id⟩
  | acceptPrepared ballot hphase hskip haccepts =>
    obtain ⟨s, hraises, heq⟩ := acceptPrepared_raises hskip
    obtain ⟨hsound, hunsound⟩ := hraises.voided_sound hordered hphase
    have hballots : (recorded ctx true (Scp.acceptPrepared ballot c)).state.toBallots = s.voided := by
      rw [recorded_toBallots, heq]
    refine ⟨_, .of_call (acceptPrepared_kept ballot c) (recorded_checked ctx true _) ?_ ?_⟩
    · rw [hballots]
      exact hsound
    · intro hbreaks
      refine ⟨hballots ▸ hunsound hbreaks, ?_⟩
      rw [recorded_toBallots]
      exact mem_recorded_check ctx _
  | confirmPrepared newC newH hphase hprepared hhigh hratifies hnewC hcovered =>
    have hconfirms : c.state.Confirms newC newH _ _ := confirmPrepared_confirms hordered hhigh
    obtain ⟨hsound, hunsound⟩ := hconfirms.sound hphase
    refine ⟨_, .of_call (confirmPrepared_kept newC newH c) (recorded_checked ctx _ _) ?_ ?_⟩
    · rw [recorded_toBallots]
      exact hsound
    · intro hbreaks
      obtain ⟨hwork, hunsound⟩ := hunsound hbreaks
      rw [recorded_toBallots, hwork]
      exact ⟨hunsound, mem_recorded_check ctx _⟩
  | acceptCommit newC newH hphase hprepared hnewC hcounter hconfirm haccepts =>
    have hnewH := counter_ne_zero_of_le hnewC.1 hcounter
    refine ⟨_, .of_call (acceptCommit_kept newC newH c) (recorded_checked ctx _ _) ?_
      (by simp [safeTransition])⟩
    rw [recorded_toBallots]
    intro _ hsound
    cases hprepare : c.state.phase with
    | prepare =>
      rw [(acceptCommit_prepare newC newH hprepare).2]
      exact ⟨hsound.enteringBallot hnewH, by simp⟩
    | confirm =>
      rw [(acceptCommit_confirm hprepare (fun h hh => (hconfirm hprepare h hh).1)).2]
      exact ⟨hsound.raisedBallot hnewH, by simp⟩
    | externalize => exact absurd hprepare hphase
  | confirmCommit c₁ newC newH hphase hnewC hcounter hcommit hratifies hsend =>
    obtain ⟨h, _, hsame⟩ := hordered.high_of_commit hcommit
    have hfinal : (reportExternalized newC.value c₁).state.toBallots =
        (Scp.confirmCommit newC newH c).state.toBallots := reported_toBallots hsend newC.value
    refine ⟨_, .of_call (confirmCommit_kept newC newH c) ?_ ?_ (by simp [safeTransition])⟩
    · rw [hfinal]
      have hrecorded := recorded_checked ctx true (Scp.confirmCommit newC newH c)
      rw [recorded_toBallots] at hrecorded
      have hsent : Appends (CheckedEvent (Scp.confirmCommit newC newH c).state.toBallots)
          (Scp.confirmCommit newC newH c) c₁ := by
        rcases hsend with rfl | rfl
        · exact hrecorded
        · refine hrecorded.trans ((sendLatestEnvelope_appends _).mono ?_)
          rintro e ⟨envelope, rfl⟩
          exact ⟨by simp, by simp⟩
      exact hsent.cons rfl ⟨by simp, by simp⟩
    · intro _ hsound
      rw [hfinal, confirmCommit_toBallots hsame]
      exact ⟨hsound.raisedBallot (counter_ne_zero_of_le hnewC.1 hcounter), by simp⟩
  | bump value counter hcounter =>
    have hcounter' : c.state.currentBallot = none → counter ≠ 0 :=
      fun hnone => (hcounter hnone).elim id (harrives counter)
    obtain ⟨c₁, hkept, hresult⟩ := bumpValue_kept value counter hordered
    refine ⟨none, .of_no_call ?_ ?_⟩
    · refine Appends.trans ?_ (recorded_checked ctx _ _)
      rw [recorded_toBallots]
      rcases hresult with hresult | hresult
      · rw [hresult]
        exact hkept.appends.mono (hquiet _)
      · rw [hresult]
        exact (hkept.appends.mono (hquiet _)).cons rfl ⟨by simp, by simp [noteCheck]⟩
    · rw [recorded_toBallots]
      exact fun hsound => hsound.bumpValue hordered hcounter'

/-! ### Runs -/

/-- Every evaluation of the check so far passed. -/
def ChecksPass (c : Ballot N V H) : Prop :=
  ∀ error, .checkInvariants error ∈ c.log → error = none

def CallsSafe (c : Ballot N V H) : Prop :=
  ∀ before call, .transition before call ∈ c.log → safeTransition before call = true

section

omit [DecidableEq N] [OrderBot V] [DecidableEq H]

theorem Accounted.sound_of_safe {call : Option (Transition V)} (hordered : c'.state.Ordered)
    (haccounted : Accounted c c' call) (hsound : c.state.Sound) (hchecks : ChecksPass c)
    (hsafe : CallsSafe c') : c'.state.Sound ∧ ChecksPass c' := by
  have hsound' : c'.state.Sound :=
    haccounted.sound (fun k hk => hsafe _ k (haccounted.noted k hk)) hsound
  refine ⟨hsound', fun error herror => ?_⟩
  rcases haccounted.trace.old_or herror with hold | hnew | ⟨k, _, hk⟩
  · exact hchecks error hold
  · rw [hnew.2 error rfl]
    exact (errorText_eq_none_iff hordered).mpr hsound'
  · simp at hk

/-- A call that was not safe shows up in the very next evaluation. -/
theorem Accounted.safe_of_checks {call : Option (Transition V)} (hordered : c'.state.Ordered)
    (haccounted : Accounted c c' call) (hsafe : CallsSafe c) (hchecks : ChecksPass c') :
    CallsSafe c' := by
  intro before k hk
  rcases haccounted.trace.old_or hk with hold | hnew | ⟨k', hk', heq⟩
  · exact hsafe before k hold
  · exact absurd rfl (hnew.1 before k)
  · obtain ⟨rfl, rfl⟩ := ScpEvent.transition.inj heq
    by_contra hbreaks
    rw [Bool.not_eq_true] at hbreaks
    obtain ⟨hunsound, hmem⟩ := haccounted.unsound k hk' hbreaks
    exact hunsound ((errorText_eq_none_iff hordered).mp (hchecks _ hmem))

end

/-- Statements come in sane, and bumps that are asked for have a counter. -/
def saneOp (ctx : SlotContext N V H) : Admits N V H
  | _, driver, .processEnvelope envelope _ =>
    isStatementSane { ctx with driver := driver } envelope.statement = true
  | _, _, .bumpState _ counter => counter ≠ 0
  | _, _, _ => True

/-- In every run the check passes after the last operation and passed at each
evaluation exactly when every call was safe. A run's beginning is itself a run
with a part of its trace. -/
theorem checkInvariants_iff_callsSafe (hrun : BallotRun ctx (saneOp ctx) c) :
    (checkInvariants c.state.toBallots = .ok () ∧
        ∀ error, .checkInvariants error ∈ c.log → error = none) ↔
      ∀ before call, .transition before call ∈ c.log → safeTransition before call = true := by
  have hinvariant : (CallsSafe c → c.state.Sound ∧ ChecksPass c) ∧
      (ChecksPass c → CallsSafe c) := by
    refine BallotRun.invariant (fun c => (CallsSafe c → c.state.Sound ∧ ChecksPass c) ∧
      (ChecksPass c → CallsSafe c)) ?_ ?_ hrun
    · have hempty (e : ScpEvent N V H) : e ∉ (Ballot.new : Ballot N V H).log := List.not_mem_nil
      exact ⟨fun _ => ⟨sound_new, fun _ he => absurd he (hempty _)⟩,
        fun _ _ _ he => absurd he (hempty _)⟩
    · intro driver op start hstart hsane c c' hordered hsteps hstep hbefore
      have harrives : ∀ counter, op.brings (.bumpTo counter) → counter ≠ 0 := by
        intro counter hbrings
        cases op with
        | bumpState value asked =>
          obtain rfl : counter = asked := hbrings
          exact hsane
        | _ => exact hbrings.elim
      obtain ⟨call, haccounted⟩ := hstep.accounted harrives hordered
      have hordered' := (hstep.change hordered).ordered hordered
      obtain ⟨hsound, hsafe⟩ := hbefore
      refine ⟨fun hcalls => ?_, fun hchecks => ?_⟩
      · have hcalls' : CallsSafe c := fun before k hk =>
          hcalls before k (haccounted.trace.subset hk)
        obtain ⟨hsound', hchecks'⟩ := hsound hcalls'
        exact haccounted.sound_of_safe hordered' hsound' hchecks' hcalls
      · have hchecks' : ChecksPass c := fun error herror =>
          hchecks error (haccounted.trace.subset herror)
        exact haccounted.safe_of_checks hordered' (hsafe hchecks') hchecks
  rw [checkInvariants_ok_iff hrun.ordered]
  exact ⟨fun ⟨_, hchecks⟩ => hinvariant.2 hchecks, hinvariant.1⟩

/-! ### A peer that prepared the zero ballot -/

/-- A node that trusts a single peer. -/
def trustingNode : SlotContext ℕ ℕ Unit := .permissive 0 (simpleQuorumSet 1 [1])

/-- The peer votes for a first ballot and has prepared one of its value. -/
def peerPrepared (counter : U32) : ScpEnvelope ℕ ℕ Unit where
  statement :=
    { nodeId := 1
      slotIndex := 1
      pledges := .prepare
        { quorumSetHash := ()
          ballot := ⟨1, 7⟩
          prepared := some ⟨counter, 7⟩
          preparedPrime := none
          nC := 0
          nH := 0 } }
  signature := []

def zeroPrepared : ScpEnvelope ℕ ℕ Unit := peerPrepared 0

/-- What the node makes of it. -/
def afterZeroPrepared : Except Abort (Ballot ℕ ℕ Unit) :=
  execOp trustingNode 3 (.processEnvelope zeroPrepared .fullyValidated) Ballot.new

theorem afterZeroPrepared_returns : ∃ c, afterZeroPrepared = .ok c ∧
    .checkInvariants (some "current_ballot.counter must not be 0") ∈ c.log := by
  have hcheck : (match afterZeroPrepared with
      | .ok c => decide (.checkInvariants (some "current_ballot.counter must not be 0") ∈ c.log)
      | .error _ => false) = true := by decide +kernel
  split at hcheck
  next c hok => exact ⟨c, hok, of_decide_eq_true hcheck⟩
  · simp at hcheck

theorem zeroPrepared_sane : isStatementSane trustingNode zeroPrepared.statement = true := by
  decide +kernel

theorem afterZeroPrepared_run {c : Ballot ℕ ℕ Unit} (hok : afterZeroPrepared = .ok c) :
    BallotRun trustingNode (saneOp trustingNode) c :=
  .op .new (.permissive (simpleQuorumSet 1 [1])) (.processEnvelope zeroPrepared .fullyValidated)
    zeroPrepared_sane 3 hok

/-- A sane statement makes the check fail while the node's own statement is
built. -/
theorem checkInvariants_fails_after_zero_prepared :
    ¬∀ c : Ballot ℕ ℕ Unit, BallotRun trustingNode (saneOp trustingNode) c →
      checkInvariants c.state.toBallots = .ok () ∧
        ∀ error, .checkInvariants error ∈ c.log → error = none := by
  intro hclaim
  obtain ⟨c, hok, hfails⟩ := afterZeroPrepared_returns
  have hnone := (hclaim c (afterZeroPrepared_run hok)).2 _ hfails
  simp at hnone

/-- What the log and the ballots of a run show when every call was safe. -/
def showsSafeCalls (c : Ballot ℕ ℕ Unit) : Bool :=
  c.state.currentBallot.isSome && c.log.all fun
    | .transition before call => safeTransition before call
    | _ => true

/-- The run that ends there contains a call that was not safe. After the ballot that the
peer votes for is prepared, the check passes. -/
theorem callsSafe_fails_after_zero_prepared :
    (∃ c : Ballot ℕ ℕ Unit, BallotRun trustingNode (saneOp trustingNode) c ∧
      ((checkInvariants c.state.toBallots = .ok () ∧
          ∀ error, .checkInvariants error ∈ c.log → error = none) ↔
        ∀ before call, .transition before call ∈ c.log → safeTransition before call = true)) ∧
      ∃ c : Ballot ℕ ℕ Unit, BallotRun trustingNode (saneOp trustingNode) c ∧
        c.state.currentBallot.isSome ∧ checkInvariants c.state.toBallots = .ok () ∧
          ∀ error, .checkInvariants error ∈ c.log → error = none := by
  constructor
  · obtain ⟨c, hok, _⟩ := afterZeroPrepared_returns
    exact ⟨c, afterZeroPrepared_run hok, checkInvariants_iff_callsSafe (afterZeroPrepared_run hok)⟩
  · have hcheck : ((execOp trustingNode 3 (.processEnvelope (peerPrepared 1) .fullyValidated)
        Ballot.new).toOption.any showsSafeCalls) = true := by decide +kernel
    cases hok : execOp trustingNode 3 (.processEnvelope (peerPrepared 1) .fullyValidated)
        Ballot.new with
    | error e =>
      rw [hok] at hcheck
      cases hcheck
    | ok c =>
      rw [hok] at hcheck
      obtain ⟨hsome, hsafe⟩ := Bool.and_eq_true_iff.mp hcheck
      have hrun : BallotRun trustingNode (saneOp trustingNode) c :=
        .op .new (.permissive (simpleQuorumSet 1 [1])) (.processEnvelope (peerPrepared 1)
          .fullyValidated) (by decide +kernel : isStatementSane trustingNode _ = true) 3 hok
      exact ⟨c, hrun, hsome, (checkInvariants_iff_callsSafe hrun).mpr fun before call hmem =>
        List.all_eq_true.mp hsafe _ hmem⟩

end Henyey.Scp
