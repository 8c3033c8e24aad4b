import Henyey.Scp.Ballot.Changes

/-!
# Changes of the decision state

All that a step can do to the decision state is one of seven changes. Each
keeps `p' < p`, `c ≤ h ≤ b` and, in the later phases, the value that is imposed
on every bump; `p` only grows and phases only advance.
-/

namespace Henyey.Scp.Ballots

open Option

variable {V : Type} [LinearOrder V]
  {s s' : Ballots V} {ballot newC newH : ScpBallot V} {didWork : Bool}

/-- Raising touches `p` and `p'` alone. -/
theorem Raises.frame (hraises : s.Raises ballot s') :
    s'.currentBallot = s.currentBallot ∧ s'.highBallot = s.highBallot ∧
      s'.commit = s.commit ∧ s'.phase = s.phase ∧ s'.valueOverride = s.valueOverride := by
  cases hraises <;> exact ⟨rfl, rfl, rfl, rfl, rfl⟩

theorem Raises.prepared (hraises : s.Raises ballot s') :
    ∃ p ∈ s'.prepared, ballot ≤ p ∧ ∀ q ∈ s.prepared, q ≤ p := by
  cases hraises with
  | first hprepared => exact ⟨ballot, rfl, le_rfl, by simp [hprepared]⟩
  | above p hprepared hlt hconfirm =>
    refine ⟨ballot, rfl, le_rfl, ?_⟩
    intro q hq
    rw [hprepared] at hq
    obtain rfl := some.inj hq
    exact hlt.le
  | prime p hprepared hlt hvalue hprime hconfirm =>
    refine ⟨p, hprepared, hlt.le, ?_⟩
    intro q hq
    rw [hprepared] at hq
    obtain rfl := some.inj hq
    exact le_rfl

theorem Raises.prime_lt (hordered : s.Ordered) (hraises : s.Raises ballot s') :
    ∀ p' ∈ s'.preparedPrime, ∃ p ∈ s'.prepared, p' < p ∧ p'.value ≠ p.value := by
  cases hraises with
  | first hprepared =>
    intro p' hp'
    obtain ⟨p, hp, _⟩ := hordered.prime p' hp'
    simp [hprepared] at hp
  | above p hprepared hlt hconfirm =>
    intro p' hp'
    by_cases hcompatible : ballotCompatible p ballot = true
    · simp only [hcompatible, if_true] at hp'
      obtain ⟨q, hq, hlt', hne⟩ := hordered.prime p' hp'
      rw [hprepared] at hq
      obtain rfl := some.inj hq
      exact ⟨ballot, rfl, hlt'.trans hlt, (ballotCompatible_iff.mp hcompatible) ▸ hne⟩
    · simp only [hcompatible, Bool.false_eq_true, if_false, mem_some_iff] at hp'
      subst hp'
      exact ⟨ballot, rfl, hlt, fun h => hcompatible (ballotCompatible_iff.mpr h)⟩
  | prime p hprepared hlt hvalue hprime hconfirm =>
    intro p' hp'
    obtain rfl := some.inj hp'
    exact ⟨p, hprepared, hlt, hvalue⟩

theorem Raises.prime_eq_none (hraises : s.Raises ballot s') (hphase : s.phase = .confirm)
    (hprime : s.preparedPrime = none) : s'.preparedPrime = none := by
  cases hraises with
  | first => exact hprime
  | above p hprepared hlt hconfirm =>
    have hcompatible : ballotCompatible p ballot = true :=
      ballotCompatible_iff.mpr (hconfirm hphase)
    simp only [hcompatible, if_true]
    exact hprime
  | prime p hprepared hlt hvalue hprime hconfirm => exact absurd hphase hconfirm

theorem Raises.ordered (hordered : s.Ordered) (hphase : s.phase ≠ .externalize)
    (hraises : s.Raises ballot s') : s'.Ordered := by
  obtain ⟨hcurrent, hhigh, hcommit, hphase', hoverride⟩ := hraises.frame
  obtain ⟨p, hp, _⟩ := hraises.prepared
  refine ⟨hraises.prime_lt hordered, ?_, ?_, ?_, ?_⟩
  · rw [hhigh, hcurrent]
    exact hordered.high
  · rw [hcommit, hhigh]
    exact hordered.commit
  · intro hconfirm
    rw [hphase'] at hconfirm
    obtain ⟨hconfirmed, _, hprime⟩ := hordered.confirmed hconfirm
    have hconfirm' : s.phase = .confirm := by
      cases hs : s.phase <;> simp_all
    rw [hhigh, hoverride]
    exact ⟨hconfirmed, by simp [mem_def.mp hp], hraises.prime_eq_none hconfirm' hprime⟩
  · intro hext
    exact absurd (hphase' ▸ hext) hphase

theorem voided_frame (s : Ballots V) :
    s.voided.currentBallot = s.currentBallot ∧ s.voided.prepared = s.prepared ∧
      s.voided.preparedPrime = s.preparedPrime ∧ s.voided.highBallot = s.highBallot ∧
      s.voided.phase = s.phase ∧ s.voided.valueOverride = s.valueOverride ∧
      (s.voided.commit = s.commit ∨ s.voided.commit = none) := by
  unfold voided
  split
  · exact ⟨rfl, rfl, rfl, rfl, rfl, rfl, .inr rfl⟩
  · exact ⟨rfl, rfl, rfl, rfl, rfl, rfl, .inl rfl⟩

theorem Ordered.voided (hordered : s.Ordered) (hphase : s.phase ≠ .externalize) :
    s.voided.Ordered := by
  obtain ⟨hcurrent, hprepared, hprime, hhigh, hphase', hoverride, hcommit⟩ := voided_frame s
  refine ⟨?_, ?_, ?_, ?_, ?_⟩
  · rw [hprime, hprepared]
    exact hordered.prime
  · rw [hhigh, hcurrent]
    exact hordered.high
  · rw [hhigh]
    rcases hcommit with hcommit | hcommit
    · rw [hcommit]
      exact hordered.commit
    · simp [hcommit]
  · rw [hphase', hhigh, hoverride, hprepared, hprime]
    exact hordered.confirmed
  · rw [hphase']
    exact fun hext => absurd hext hphase

theorem Confirms.ordered (hordered : s.Ordered) (hphase : s.phase = .prepare)
    (hnewC : newC ≤ newH ∧ newC.value = newH.value) (hhigh : ∀ h ∈ s.highBallot, h < newH)
    (hconfirms : s.Confirms newC newH didWork s') : s'.Ordered := by
  cases hconfirms with
  | incompatibleAbove b hcurrent hvalue hle =>
    exact ⟨hordered.prime, hordered.high, hordered.commit, fun h => absurd hphase h,
      hordered.externalized⟩
  | incompatibleBelow b hcurrent hvalue hlt =>
    exact ⟨hordered.prime, by simp, by simp, fun h => absurd hphase h, by simp [hphase]⟩
  | compatible hvalue =>
    refine ⟨hordered.prime, ?_, ?_, fun h => absurd hphase h, by simp [hphase]⟩
    · intro h hh
      obtain rfl := some.inj hh
      by_cases hbelow : s.below newH
      · simp [hbelow]
      · simp only [hbelow, if_false]
        unfold below at hbelow
        push Not at hbelow
        obtain ⟨b, hb, hle⟩ := hbelow
        exact ⟨b, hb, hle, (hvalue b hb).symm⟩
    · intro commit hcommit
      refine ⟨newH, rfl, ?_⟩
      by_cases hset : newC.counter ≠ 0 ∧ s.commit = none
      · simp only [hset, ne_eq, not_false_eq_true, and_self, if_true, mem_some_iff]
          at hcommit
        exact hcommit ▸ hnewC
      · simp only [hset, if_false] at hcommit
        obtain ⟨h, hh, hle, hsame⟩ := hordered.commit commit hcommit
        obtain ⟨b, hb, _, hbvalue⟩ := hordered.high h hh
        exact ⟨hle.trans (hhigh h hh).le, (hsame.trans hbvalue).trans (hvalue b hb)⟩

/-- Entering CONFIRM puts the high ballot at or below the current one. -/
theorem Ordered.enterConfirm (hprepared : s.prepared ≠ none)
    (hnewC : newC ≤ newH ∧ newC.value = newH.value) (hcounter : newC.counter ≠ 0) :
    Ordered { s with
      valueOverride := some newH.value
      commit := some newC
      highBallot := some newH
      phase := .confirm
      preparedPrime := none
      currentBallot := s.enteringBallot newH } := by
  refine ⟨by simp, ?_, ?_, ?_, by simp⟩
  · intro h hh
    obtain rfl := some.inj hh
    unfold enteringBallot
    split
    next hany =>
      obtain ⟨b, hb, hle⟩ := (any_eq_true _ _).mp hany
      exact ⟨b, hb, areBallotsLessAndCompatible_iff.mp hle⟩
    · exact ⟨newH, rfl, le_rfl, rfl⟩
  · intro commit hcommit
    obtain rfl := some.inj hcommit
    exact ⟨newH, rfl, hnewC⟩
  · intro _
    refine ⟨⟨newH, rfl, ?_, rfl⟩, hprepared, rfl⟩
    have hle := ballot_counter_mono hnewC.1
    intro hzero
    exact hcounter (Fin.le_zero_iff.mp (hzero ▸ hle))

variable {h : ScpBallot V}

section

variable (hordered : s.Ordered)
include hordered

/-- A current ballot of the high ballot's value is raised to a new high ballot
of that value. -/
theorem Ordered.raised_current (hh : h ∈ s.highBallot) (hvalue : newH.value = h.value) :
    ∃ b ∈ (if s.below newH then some newH else s.currentBallot),
      newH ≤ b ∧ newH.value = b.value := by
  by_cases hbelow : s.below newH
  · exact ⟨newH, by simp [hbelow], le_rfl, rfl⟩
  · rw [if_neg hbelow]
    unfold below at hbelow
    push Not at hbelow
    obtain ⟨b, hb, hle⟩ := hbelow
    obtain ⟨b', hb', _, hsame⟩ := hordered.high h hh
    obtain rfl := mem_unique hb hb'
    exact ⟨b, hb, hle, hvalue.trans hsame⟩

theorem Ordered.override_value (hphase : s.phase ≠ .prepare)
    (hh : h ∈ s.highBallot) : s.valueOverride = some h.value := by
  obtain ⟨⟨h', hh', _, hvalue⟩, _⟩ := hordered.confirmed hphase
  rwa [mem_unique hh hh']

theorem Ordered.raiseCommit (hphase : s.phase = .confirm)
    (hnewC : newC ≤ newH ∧ newC.value = newH.value) (hcounter : newC.counter ≠ 0)
    (hh : h ∈ s.highBallot) (hvalue : newH.value = h.value) (phase : BallotPhase) :
    Ordered { s with
      commit := some newC
      highBallot := some newH
      phase := phase
      currentBallot := if s.below newH then some newH else s.currentBallot } := by
  obtain ⟨_, hprepared, hprime⟩ := hordered.confirmed (by simp [hphase])
  refine ⟨hordered.prime, ?_, ?_, ?_, by simp⟩
  · intro h' hh'
    obtain rfl := some.inj hh'
    exact hordered.raised_current hh hvalue
  · intro commit hcommit
    obtain rfl := some.inj hcommit
    exact ⟨newH, rfl, hnewC⟩
  · intro _
    have hoverride := hordered.override_value (by simp [hphase]) hh
    refine ⟨⟨newH, rfl, ?_, hvalue ▸ hoverride⟩, hprepared, hprime⟩
    have hle := ballot_counter_mono hnewC.1
    intro hzero
    exact hcounter (Fin.le_zero_iff.mp (hzero ▸ hle))

theorem Ordered.bumped (hbelow : s.below ballot)
    (hvalue : ∀ v ∈ s.valueOverride, ballot.value = v) : (s.bumped ballot).Ordered := by
  by_cases hsame : ∀ h ∈ s.highBallot, ballot.value = h.value
  · rw [bumped_of_compatible hsame]
    refine ⟨hordered.prime, ?_, hordered.commit, hordered.confirmed, hordered.externalized⟩
    intro h hh
    obtain ⟨b, hb, hle, _⟩ := hordered.high h hh
    exact ⟨ballot, rfl, hle.trans (hbelow b hb).le, (hsame h hh).symm⟩
  · push Not at hsame
    obtain ⟨h, hh, hne⟩ := hsame
    have hprepare : s.phase = .prepare := by
      by_contra hlater
      exact hne (hvalue _ (hordered.override_value hlater hh))
    rw [bumped_of_incompatible hordered.commit_none]
    · exact ⟨hordered.prime, by simp, by simp, fun h => absurd hprepare h, by simp [hprepare]⟩
    · intro h' hh'
      rwa [mem_unique hh' hh]

end

/-! ### The seven changes -/

/-- What a step can do to the decision state, with the guards under which the
code does it. -/
inductive Change (s : Ballots V) : Ballots V → Prop where
  | same : s.Change s
  | raise (ballot : ScpBallot V) (s₁ : Ballots V) (hphase : s.phase ≠ .externalize)
      (hraises : s.Raises ballot s₁) : s.Change s₁.voided
  | confirm (newC newH : ScpBallot V) (didWork : Bool) (s₁ : Ballots V)
      (hphase : s.phase = .prepare) (hnewC : newC ≤ newH ∧ newC.value = newH.value)
      (hhigh : ∀ h ∈ s.highBallot, h < newH) (hconfirms : s.Confirms newC newH didWork s₁) :
      s.Change s₁
  | enterConfirm (newC newH : ScpBallot V) (hphase : s.phase = .prepare)
      (hprepared : s.prepared ≠ none) (hnewC : newC ≤ newH ∧ newC.value = newH.value)
      (hcounter : newC.counter ≠ 0) :
      s.Change
        { s with
          valueOverride := some newH.value
          commit := some newC
          highBallot := some newH
          phase := .confirm
          preparedPrime := none
          currentBallot := s.enteringBallot newH }
  | raiseCommit (newC newH h : ScpBallot V) (hphase : s.phase = .confirm)
      (hnewC : newC ≤ newH ∧ newC.value = newH.value) (hcounter : newC.counter ≠ 0)
      (hh : h ∈ s.highBallot) (hlt : h < newH) (hvalue : newH.value = h.value) :
      s.Change
        { s with
          commit := some newC
          highBallot := some newH
          phase := .confirm
          currentBallot := if s.below newH then some newH else s.currentBallot }
  | externalize (newC newH h : ScpBallot V) (hphase : s.phase = .confirm)
      (hnewC : newC ≤ newH ∧ newC.value = newH.value) (hcounter : newC.counter ≠ 0)
      (hh : h ∈ s.highBallot) (hvalue : newH.value = h.value) :
      s.Change
        { s with
          commit := some newC
          highBallot := some newH
          phase := .externalize
          currentBallot := if s.below newH then some newH else s.currentBallot }
  | bump (ballot : ScpBallot V) (hphase : s.phase ≠ .externalize) (hbelow : s.below ballot)
      (hoverride : ∀ v ∈ s.valueOverride, ballot.value = v) :
      s.Change (s.bumped ballot)

theorem Change.ordered (hordered : s.Ordered) (hchange : s.Change s') : s'.Ordered := by
  cases hchange with
  | same => exact hordered
  | raise ballot s₁ hphase hraises =>
    refine (hraises.ordered hordered hphase).voided ?_
    rw [hraises.frame.2.2.2.1]
    exact hphase
  | confirm newC newH didWork s₁ hphase hnewC hhigh hconfirms =>
    exact hconfirms.ordered hordered hphase hnewC hhigh
  | enterConfirm newC newH hphase hprepared hnewC hcounter =>
    exact Ordered.enterConfirm hprepared hnewC hcounter
  | raiseCommit newC newH h hphase hnewC hcounter hh hlt hvalue =>
    exact hordered.raiseCommit hphase hnewC hcounter hh hvalue .confirm
  | externalize newC newH h hphase hnewC hcounter hh hvalue =>
    exact hordered.raiseCommit hphase hnewC hcounter hh hvalue .externalize
  | bump ballot hphase hbelow hoverride => exact hordered.bumped hbelow hoverride

theorem bumped_frame (s : Ballots V) (ballot : ScpBallot V) :
    (s.bumped ballot).currentBallot = some ballot ∧ (s.bumped ballot).prepared = s.prepared ∧
      (s.bumped ballot).preparedPrime = s.preparedPrime ∧ (s.bumped ballot).phase = s.phase ∧
      (s.bumped ballot).valueOverride = s.valueOverride := by
  unfold bumped
  split <;> exact ⟨rfl, rfl, rfl, rfl, rfl⟩

theorem Change.prepared_mono (hchange : s.Change s') :
    ∀ p ∈ s.prepared, ∃ p' ∈ s'.prepared, p ≤ p' := by
  intro p hp
  cases hchange with
  | same => exact ⟨p, hp, le_rfl⟩
  | raise ballot s₁ hphase hraises =>
    obtain ⟨p', hp', _, hle⟩ := hraises.prepared
    exact ⟨p', (voided_frame s₁).2.1 ▸ hp', hle p hp⟩
  | confirm newC newH didWork s₁ hphase hnewC hhigh hconfirms =>
    cases hconfirms <;> exact ⟨p, hp, le_rfl⟩
  | enterConfirm newC newH hphase hprepared hnewC hcounter => exact ⟨p, hp, le_rfl⟩
  | raiseCommit newC newH h hphase hnewC hcounter hh hlt hvalue => exact ⟨p, hp, le_rfl⟩
  | externalize newC newH h hphase hnewC hcounter hh hvalue => exact ⟨p, hp, le_rfl⟩
  | bump ballot hphase hbelow hoverride =>
    exact ⟨p, (bumped_frame s ballot).2.1 ▸ hp, le_rfl⟩

theorem Change.phase_ne_prepare (hchange : s.Change s') (hphase : s.phase ≠ .prepare) :
    s'.phase ≠ .prepare := by
  cases hchange with
  | same => exact hphase
  | raise ballot s₁ _ hraises =>
    rw [(voided_frame s₁).2.2.2.2.1, hraises.frame.2.2.2.1]
    exact hphase
  | confirm newC newH didWork s₁ hprepare => exact absurd hprepare hphase
  | enterConfirm newC newH hprepare => exact absurd hprepare hphase
  | raiseCommit => simp
  | externalize => simp
  | bump ballot =>
    rw [(bumped_frame s ballot).2.2.2.1]
    exact hphase

end Henyey.Scp.Ballots
