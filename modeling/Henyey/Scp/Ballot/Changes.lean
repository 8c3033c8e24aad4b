import Henyey.Scp.Ballot.StateMachine

/-!
# What the setters change

Each setter is described by its effect on the decision state, under the guards
with which the attempts call it and the ordering that the decision state keeps.
Everything else, except the heard flag and the trace, stays as it was.
-/

namespace Henyey.Scp

open Ballots Option

variable {N V H : Type}

/-- Events without a consequence for the ballot protocol's own guarantees. -/
def ScpEvent.quiet : ScpEvent N V H → Bool
  | .emitEnvelope _ => false
  | .valueExternalized _ => false
  | .transition _ _ => false
  | .checkInvariants _ => false
  | .selfStatement _ _ _ => false
  | _ => true

/-- Only the decision state and the heard flag changed, and only quiet events
were added. -/
structure Kept (c c' : Ballot N V H) : Prop where
  latestEnvelopes : c'.state.latestEnvelopes = c.state.latestEnvelopes
  lastEnvelope : c'.state.lastEnvelope = c.state.lastEnvelope
  lastEnvelopeEmit : c'.state.lastEnvelopeEmit = c.state.lastEnvelopeEmit
  currentMessageLevel : c'.state.currentMessageLevel = c.state.currentMessageLevel
  fullyValidated : c'.state.fullyValidated = c.state.fullyValidated
  needsStopNomination : c'.state.needsStopNomination = c.state.needsStopNomination
  log : ∃ new, c'.log = new ++ c.log ∧ ∀ e ∈ new, e.quiet = true

namespace Kept

theorem refl (c : Ballot N V H) : Kept c c :=
  ⟨rfl, rfl, rfl, rfl, rfl, rfl, [], rfl, by simp⟩

theorem trans {a b c : Ballot N V H} (hab : Kept a b) (hbc : Kept b c) : Kept a c := by
  obtain ⟨new, hnew, hquiet⟩ := hab.log
  obtain ⟨new', hnew', hquiet'⟩ := hbc.log
  refine ⟨hbc.1.trans hab.1, hbc.2.trans hab.2, hbc.3.trans hab.3, hbc.4.trans hab.4,
    hbc.5.trans hab.5, hbc.6.trans hab.6, new' ++ new, ?_, ?_⟩
  · rw [hnew', hnew, List.append_assoc]
  · intro e he
    rcases List.mem_append.mp he with he | he
    · exact hquiet' e he
    · exact hquiet e he

theorem notify (c : Ballot N V H) {e : ScpEvent N V H} (hquiet : e.quiet = true) :
    Kept c (c.notify e) :=
  ⟨rfl, rfl, rfl, rfl, rfl, rfl, [e], rfl, by simpa using hquiet⟩

theorem update (f : Ballots V → Ballots V) (c : Ballot N V H) : Kept c (updateBallots f c) :=
  ⟨rfl, rfl, rfl, rfl, rfl, rfl, [], rfl, by simp⟩

theorem heard (value : Bool) (c : Ballot N V H) : Kept c (setHeardFromQuorum value c) :=
  ⟨rfl, rfl, rfl, rfl, rfl, rfl, [], rfl, by simp⟩

/-- A change made under a condition. -/
theorem ite {c a b : Ballot N V H} {p : Prop} [Decidable p] (ha : Kept c a) (hb : Kept c b) :
    Kept c (if p then a else b) := by
  split
  · exact ha
  · exact hb

end Kept

theorem ite_heard_toBallots (p : Prop) [Decidable p] (c : Ballot N V H) :
    (if p then setHeardFromQuorum false c else c).state.toBallots = c.state.toBallots := by
  split <;> rfl

variable [LinearOrder V]

/-! ### The ordering of the decision state -/

/-- `p' < p` with different values, `c ≤ h ≤ b` with one value, and in the
later phases a high ballot whose value is imposed on every bump. -/
structure Ballots.Ordered (s : Ballots V) : Prop where
  prime : ∀ p' ∈ s.preparedPrime, ∃ p ∈ s.prepared, p' < p ∧ p'.value ≠ p.value
  high : ∀ h ∈ s.highBallot, ∃ b ∈ s.currentBallot, h ≤ b ∧ h.value = b.value
  commit : ∀ c ∈ s.commit, ∃ h ∈ s.highBallot, c ≤ h ∧ c.value = h.value
  confirmed : s.phase ≠ .prepare →
    (∃ h ∈ s.highBallot, h.counter ≠ 0 ∧ s.valueOverride = some h.value) ∧
      s.prepared ≠ none ∧ s.preparedPrime = none
  externalized : s.phase = .externalize → s.commit ≠ none

theorem Ballots.ordered_new : (new : Ballots V).Ordered :=
  ⟨by simp [new], by simp [new], by simp [new], by simp [new], by simp [new]⟩

/-! ### Bumping -/

/-- The decision state after moving to a ballot. -/
def Ballots.bumped (s : Ballots V) (ballot : ScpBallot V) : Ballots V :=
  if s.highBallot.any (fun high => !ballotCompatible ballot high) then
    { s with currentBallot := some ballot, highBallot := none, commit := none }
  else { s with currentBallot := some ballot }

variable {ballot : ScpBallot V}

theorem Ballots.bumped_of_compatible {s : Ballots V}
    (hsame : ∀ h ∈ s.highBallot, ballot.value = h.value) :
    s.bumped ballot = { s with currentBallot := some ballot } := by
  unfold bumped
  rw [if_neg]
  cases hhigh : s.highBallot with
  | none => simp
  | some high => simpa using hsame high hhigh

theorem Ballots.Ordered.commit_none {s : Ballots V} (hordered : s.Ordered)
    (hhigh : s.highBallot = none) : s.commit = none := by
  by_contra hcommit
  obtain ⟨commit, hcommit⟩ := ne_none_iff_exists'.mp hcommit
  obtain ⟨high, hmem, _⟩ := hordered.commit commit hcommit
  simp [hhigh] at hmem

theorem Ballots.Ordered.high_of_commit {s : Ballots V} (hordered : s.Ordered)
    (hcommit : ∃ commit ∈ s.commit, commit.value = ballot.value) :
    ∃ h ∈ s.highBallot, ∀ h' ∈ s.highBallot, ballot.value = h'.value := by
  obtain ⟨commit, hcommit, hsame⟩ := hcommit
  obtain ⟨h, hh, _, hvalue⟩ := hordered.commit commit hcommit
  refine ⟨h, hh, fun h' hh' => ?_⟩
  rw [mem_unique hh' hh]
  exact hsame.symm.trans hvalue

theorem Ballots.bumped_of_incompatible {s : Ballots V}
    (hcommit : s.highBallot = none → s.commit = none)
    (hdiff : ∀ h ∈ s.highBallot, ballot.value ≠ h.value) :
    s.bumped ballot =
      { s with currentBallot := some ballot, highBallot := none, commit := none } := by
  unfold bumped
  cases hhigh : s.highBallot with
  | some high => simpa using hdiff high hhigh
  | none => simp [hcommit hhigh]

theorem bumpToBallot_kept (ballot : ScpBallot V) (check : Bool) (c : Ballot N V H) :
    Kept c (bumpToBallot ballot check c).2 := by
  unfold bumpToBallot
  split
  · exact Kept.refl c
  · have hstart : Kept c (if c.state.currentBallot.isNone then
        c.notify (.startedBallotProtocol ballot) else c) :=
      Kept.ite (Kept.notify c rfl) (Kept.refl c)
    have hmoved := hstart.trans (Kept.update (fun s => { s with currentBallot := some ballot }) _)
    exact Kept.ite ((Kept.ite (hmoved.trans (Kept.update
      (fun s => { s with highBallot := none, commit := none }) _)) hmoved).trans
        (Kept.heard false _))
      (Kept.ite (hmoved.trans (Kept.update
        (fun s => { s with highBallot := none, commit := none }) _)) hmoved)

theorem bumpToBallot_toBallots (ballot : ScpBallot V) (check : Bool) (c : Ballot N V H) :
    (bumpToBallot ballot check c).2.state.toBallots =
      if check = true ∧ c.state.currentBallot.any (fun b => ballotCompare ballot b != .gt) then
        c.state.toBallots
      else c.state.toBallots.bumped ballot := by
  unfold bumpToBallot
  split
  · rfl
  · have hstart : (if c.state.currentBallot.isNone then
        c.notify (.startedBallotProtocol ballot) else c).state = c.state := by
      split <;> rfl
    dsimp only
    rw [ite_heard_toBallots]
    simp only [updateBallots_toBallots, bumped, hstart]
    split
    · simp only [updateBallots_toBallots, hstart]
    · simp only [updateBallots_toBallots, hstart]

/-- The current ballot is missing or below. -/
def Ballots.below (s : Ballots V) (ballot : ScpBallot V) : Prop :=
  ∀ b ∈ s.currentBallot, b < ballot

instance (s : Ballots V) (ballot : ScpBallot V) : Decidable (s.below ballot) :=
  decidable_of_iff (s.currentBallot.all (fun b => decide (b < ballot)) = true) (by
    unfold below
    cases s.currentBallot <;> simp)

variable {c : Ballot N V H}

theorem bumpToBallot_of_below (check : Bool) (hbelow : c.state.below ballot) :
    (bumpToBallot ballot check c).1 = true ∧
      (bumpToBallot ballot check c).2.state.toBallots = c.state.bumped ballot := by
  have hguard : ¬(check = true ∧
      c.state.currentBallot.any (fun b => ballotCompare ballot b != .gt) = true) := by
    rintro ⟨_, hany⟩
    cases hcurrent : c.state.currentBallot with
    | none => simp [hcurrent] at hany
    | some b =>
      have hlt := hbelow b hcurrent
      simp only [hcurrent, any_some, ballotCompare_eq, bne_iff_ne, ne_eq] at hany
      exact hany (compare_gt_iff_gt.mpr hlt)
  refine ⟨?_, ?_⟩
  · unfold bumpToBallot
    rw [if_neg hguard]
  · rw [bumpToBallot_toBallots, if_neg hguard]

theorem updateCurrentIfNeeded_kept (ballot : ScpBallot V) (c : Ballot N V H) :
    Kept c (updateCurrentIfNeeded ballot c).2 := by
  unfold updateCurrentIfNeeded
  split
  · exact bumpToBallot_kept ballot true c
  · exact Kept.refl c

theorem updateCurrentIfNeeded_guard (ballot : ScpBallot V) (s : Ballots V) :
    s.currentBallot.all (fun b => ballotCompare b ballot == .lt) = true ↔ s.below ballot := by
  unfold below
  cases s.currentBallot <;> simp [compare_lt_iff_lt]

theorem updateCurrentIfNeeded_of_below (hbelow : c.state.below ballot) :
    (updateCurrentIfNeeded ballot c).1 = true ∧
      (updateCurrentIfNeeded ballot c).2.state.toBallots = c.state.bumped ballot := by
  unfold updateCurrentIfNeeded
  rw [if_pos ((updateCurrentIfNeeded_guard ballot _).mpr hbelow)]
  exact bumpToBallot_of_below true hbelow

theorem updateCurrentIfNeeded_of_not_below
    (hbelow : ¬c.state.below ballot) : updateCurrentIfNeeded ballot c = (false, c) := by
  unfold updateCurrentIfNeeded
  rw [if_neg (fun h => hbelow ((updateCurrentIfNeeded_guard ballot _).mp h))]

/-- A high ballot of the target's value survives, and the current ballot only
rises. -/
theorem updateCurrentIfNeeded_of_compatible
    (hsame : ∀ h ∈ c.state.highBallot, ballot.value = h.value) :
    (updateCurrentIfNeeded ballot c).2.state.toBallots =
      { c.state.toBallots with
        currentBallot :=
          if c.state.below ballot then some ballot else c.state.currentBallot } := by
  by_cases hbelow : c.state.below ballot
  · rw [(updateCurrentIfNeeded_of_below hbelow).2, bumped_of_compatible hsame, if_pos hbelow]
  · rw [updateCurrentIfNeeded_of_not_below hbelow, if_neg hbelow]

/-- Bumping for a timeout or a new composite: refused against a commit or
downwards, otherwise the ballot is taken. Unless it is refused at once, the
consistency check is evaluated. -/
theorem updateCurrentValue_cases (ballot : ScpBallot V) (hordered : c.state.Ordered) :
    (∃ c', Kept c c' ∧ c'.state.toBallots = c.state.toBallots ∧
        (updateCurrentValue ballot c = (false, c') ∨
          updateCurrentValue ballot c = (false, noteCheck c'))) ∨
      (c.state.phase ≠ .externalize ∧ c.state.below ballot ∧
        (∀ commit ∈ c.state.commit, commit.value = ballot.value) ∧
        ∃ c', Kept c c' ∧ c'.state.toBallots = c.state.bumped ballot ∧
          updateCurrentValue ballot c = (true, noteCheck c')) := by
  unfold updateCurrentValue
  split
  · exact .inl ⟨c, Kept.refl c, rfl, .inl rfl⟩
  next hphase =>
    have hactive : c.state.phase ≠ .externalize := by
      intro hext
      simp [hext] at hphase
    split
    next hcurrent =>
      have hbelow : c.state.below ballot := by simp [below, hcurrent]
      refine .inr ⟨hactive, hbelow, ?_, _, bumpToBallot_kept ballot true c,
        (bumpToBallot_of_below true hbelow).2, rfl⟩
      intro commit hcommit
      obtain ⟨high, hhigh, _⟩ := hordered.commit commit hcommit
      obtain ⟨b, hb, _⟩ := hordered.high high hhigh
      simp [hcurrent] at hb
    next current hcurrent =>
      split
      · exact .inl ⟨c, Kept.refl c, rfl, .inl rfl⟩
      next hcommit =>
        by_cases hlt : ballotCompare current ballot = .lt
        · rw [if_pos hlt]
          rw [ballotCompare_eq, compare_lt_iff_lt] at hlt
          have hbelow : c.state.below ballot := by
            intro b hb
            rw [hcurrent] at hb
            obtain rfl := some.inj hb
            exact hlt
          refine .inr ⟨hactive, hbelow, ?_, _, bumpToBallot_kept ballot true c,
            (bumpToBallot_of_below true hbelow).2, ?_⟩
          · intro commit hmem
            rw [mem_def] at hmem
            simpa [hmem] using hcommit
          · have hbumped := (bumpToBallot_of_below true hbelow).1
            cases hres : bumpToBallot ballot true c with
            | mk updated c' =>
              rw [hres] at hbumped
              obtain rfl : updated = true := hbumped
              rfl
        · rw [if_neg hlt]
          exact .inl ⟨c, Kept.refl c, rfl, .inr rfl⟩

/-! ### Accepting a ballot as prepared -/

/-- How accepting a ballot changes `p` and `p'`. -/
inductive Ballots.Raises (s : Ballots V) (ballot : ScpBallot V) : Ballots V → Prop where
  | first (hprepared : s.prepared = none) : s.Raises ballot { s with prepared := some ballot }
  | above (p : ScpBallot V) (hprepared : s.prepared = some p) (hlt : p < ballot)
      (hconfirm : s.phase = .confirm → p.value = ballot.value) :
      s.Raises ballot
        { s with
          preparedPrime := if ballotCompatible p ballot then s.preparedPrime else some p
          prepared := some ballot }
  | prime (p : ScpBallot V) (hprepared : s.prepared = some p) (hlt : ballot < p)
      (hvalue : ballot.value ≠ p.value) (hprime : ∀ p' ∈ s.preparedPrime, p' < ballot)
      (hconfirm : s.phase ≠ .confirm) :
      s.Raises ballot { s with preparedPrime := some ballot }

theorem setPrepared_kept (ballot : ScpBallot V) (c : Ballot N V H) :
    Kept c (setPrepared ballot c).2 := by
  have hnotify : Kept c (c.notify (.ballotDidPrepare ballot)) := Kept.notify c rfl
  unfold setPrepared
  split
  · exact hnotify.trans (Kept.update (fun s => { s with prepared := some ballot }) _)
  next current _ =>
    split
    · exact hnotify.trans (Kept.update (fun s =>
        { s with
          preparedPrime := if ballotCompatible current ballot then s.preparedPrime else some current
          prepared := some ballot }) _)
    · split
      · exact hnotify.trans (Kept.update (fun s => { s with preparedPrime := some ballot }) _)
      · exact Kept.refl c
    · exact Kept.refl c

theorem setPrepared_raises (hskip : skipCandidate c.state.toBallots ballot = false) :
    (setPrepared ballot c).1 = true ∧
      c.state.Raises ballot (setPrepared ballot c).2.state.toBallots := by
  simp only [skipCandidate, Bool.or_eq_false_iff, Bool.and_eq_false_iff] at hskip
  obtain ⟨⟨hconfirm, hprime⟩, hprepared⟩ := hskip
  unfold setPrepared
  cases hp : c.state.prepared with
  | none => exact ⟨rfl, .first hp⟩
  | some p =>
    simp only [hp, any_some, areBallotsLessAndCompatible_iff, Bool.eq_false_iff, ne_eq,
      not_and] at hprepared
    have hphase : c.state.phase = .confirm → p ≤ ballot ∧ p.value = ballot.value := by
      intro hphase
      rcases hconfirm with hconfirm | hconfirm
      · simp [hphase] at hconfirm
      · simpa [hp] using hconfirm
    have hprime' : ∀ p' ∈ c.state.preparedPrime, p' < ballot := by
      intro p' hp'
      rw [mem_def] at hp'
      simpa [hp', compare_gt_iff_gt] using hprime
    rcases lt_trichotomy p ballot with hlt | rfl | hgt
    · simp only [ballotCompare_eq, compare_lt_iff_lt.mpr hlt]
      exact ⟨trivial, .above p hp hlt (fun hphase' => (hphase hphase').2)⟩
    · exact absurd rfl (hprepared le_rfl)
    · have hvalue := hprepared hgt.le
      have hupdate : shouldUpdatePrime c.state.toBallots p ballot = true := by
        unfold shouldUpdatePrime
        cases hp' : c.state.preparedPrime with
        | none => rfl
        | some p' =>
          simp [ballotCompatible, compare_lt_iff_lt, hprime' p' hp', Ne.symm hvalue]
      simp only [ballotCompare_eq, compare_gt_iff_gt.mpr hgt, hupdate, if_true]
      exact ⟨trivial, .prime p hp hgt hvalue hprime'
        (fun hphase' => absurd hgt (not_lt.mpr (hphase hphase').1))⟩

/-- The decision state once an aborted commit is dropped. -/
def Ballots.voided (s : Ballots V) : Ballots V :=
  if s.commit.isSome && s.highBallot.any (highAborted s) then { s with commit := none } else s

theorem voidAbortedCommit_kept (c : Ballot N V H) : Kept c (voidAbortedCommit c).2 := by
  unfold voidAbortedCommit
  split
  · exact Kept.update (fun s => { s with commit := none }) c
  · exact Kept.refl c

theorem voidAbortedCommit_toBallots (c : Ballot N V H) :
    (voidAbortedCommit c).2.state.toBallots = c.state.toBallots.voided := by
  unfold voidAbortedCommit voided
  split <;> rfl

/-! ### Confirming a ballot as prepared -/

/-- How confirming a ballot changes the decision state: a current ballot of
another value is only ever overtaken, otherwise `h` is raised. -/
inductive Ballots.Confirms (s : Ballots V) (newC newH : ScpBallot V) : Bool → Ballots V → Prop where
  | incompatibleAbove (b : ScpBallot V) (hcurrent : s.currentBallot = some b)
      (hvalue : b.value ≠ newH.value) (hle : newH ≤ b) :
      s.Confirms newC newH false { s with valueOverride := some newH.value }
  | incompatibleBelow (b : ScpBallot V) (hcurrent : s.currentBallot = some b)
      (hvalue : b.value ≠ newH.value) (hlt : b < newH) :
      s.Confirms newC newH true
        { s with
          valueOverride := some newH.value
          currentBallot := some newH
          highBallot := none
          commit := none }
  | compatible (hvalue : ∀ b ∈ s.currentBallot, b.value = newH.value) :
      s.Confirms newC newH true
        { s with
          valueOverride := some newH.value
          currentBallot := if s.below newH then some newH else s.currentBallot
          highBallot := some newH
          commit := if newC.counter ≠ 0 ∧ s.commit = none then some newC else s.commit }

theorem confirmPreparedCompatible_kept (newC newH : ScpBallot V) (c : Ballot N V H) :
    Kept c (confirmPreparedCompatible newC newH c).2 := by
  unfold confirmPreparedCompatible
  split
  · dsimp only
    split
    · exact Kept.trans (Kept.update _ c) (Kept.notify (updateBallots _ c) rfl)
    · exact Kept.update (fun s => { s with highBallot := _, commit := _ }) c
  · exact Kept.refl c

theorem confirmPrepared_kept (newC newH : ScpBallot V) (c : Ballot N V H) :
    Kept (noteTransition (.confirmPrepared newC newH) c) (confirmPrepared newC newH c).2 :=
  ((Kept.update _ _).trans (confirmPreparedCompatible_kept newC newH _)).trans
    (updateCurrentIfNeeded_kept newH _)

theorem confirmPreparedCompatible_compatible (newC newH : ScpBallot V) (c : Ballot N V H)
    (hvalue : ∀ b ∈ c.state.currentBallot, b.value = newH.value)
    (hhigh : ∀ h ∈ c.state.highBallot, h < newH) :
    (confirmPreparedCompatible newC newH c).1 = true ∧
      (confirmPreparedCompatible newC newH c).2.state.toBallots =
        { c.state.toBallots with
          highBallot := some newH
          commit :=
            if newC.counter ≠ 0 ∧ c.state.commit = none then some newC else c.state.commit } := by
  have hcompatible : c.state.currentBallot.all (fun b => ballotCompatible b newH) = true := by
    cases hb : c.state.currentBallot with
    | none => rfl
    | some b => simpa using hvalue b hb
  have hraise : c.state.highBallot.all (fun high => ballotCompare newH high == .gt) = true := by
    cases hh : c.state.highBallot with
    | none => rfl
    | some h => simpa [compare_gt_iff_gt] using hhigh h hh
  unfold confirmPreparedCompatible
  simp only [hcompatible, hraise, if_true, Bool.true_or, Traced.notify_state,
    updateBallots_toBallots, true_and]
  simp [isNone_iff_eq_none]

variable {newC newH : ScpBallot V}

/-- With the new high ballot above the old one, confirming is one of three
changes. -/
theorem confirmPrepared_confirms (hordered : c.state.Ordered)
    (hhigh : ∀ h ∈ c.state.highBallot, h < newH) :
    c.state.Confirms newC newH (confirmPrepared newC newH c).1
      (confirmPrepared newC newH c).2.state.toBallots := by
  set c₀ := updateBallots (fun s => { s with valueOverride := some newH.value })
    (noteTransition (.confirmPrepared newC newH) c)
  set c₁ := (confirmPreparedCompatible newC newH c₀).2 with hc₁
  have hresult : confirmPrepared newC newH c =
      ((updateCurrentIfNeeded newH c₁).1 || (confirmPreparedCompatible newC newH c₀).1,
        (updateCurrentIfNeeded newH c₁).2) := rfl
  rw [hresult]
  by_cases hvalue : ∀ b ∈ c.state.currentBallot, b.value = newH.value
  · obtain ⟨htrue, heq⟩ := confirmPreparedCompatible_compatible newC newH c₀ hvalue hhigh
    rw [← hc₁] at heq
    have hsame : ∀ h ∈ c₁.state.highBallot, newH.value = h.value := by
      rw [heq]
      simp
    simp only [htrue, Bool.or_true, updateCurrentIfNeeded_of_compatible hsame]
    rw [heq]
    exact .compatible hvalue
  · push Not at hvalue
    obtain ⟨b, hb, hne⟩ := hvalue
    have hskip : confirmPreparedCompatible newC newH c₀ = (false, c₀) := by
      have hb' : c₀.state.currentBallot = some b := hb
      simp [confirmPreparedCompatible, hb', hne]
    have hsame₁ : c₁ = c₀ := by rw [hc₁, hskip]
    rw [hskip, hsame₁]
    have hdiff : ∀ h ∈ c₀.state.highBallot, newH.value ≠ h.value := by
      intro h hh heq
      obtain ⟨b', hb', _, hsame⟩ := hordered.high h hh
      obtain rfl := mem_unique hb hb'
      exact hne (hsame.symm.trans heq.symm)
    have hb' : c₀.state.currentBallot = some b := hb
    have hnone : c₀.state.highBallot = none → c₀.state.commit = none := hordered.commit_none
    by_cases hbelow : b < newH
    · have hbelow' : c₀.state.below newH := by simpa [below, hb'] using hbelow
      rw [(updateCurrentIfNeeded_of_below hbelow').1, (updateCurrentIfNeeded_of_below hbelow').2,
        bumped_of_incompatible hnone hdiff]
      exact .incompatibleBelow b hb hne hbelow
    · have hbelow' : ¬c₀.state.below newH := by simpa [below, hb'] using hbelow
      rw [updateCurrentIfNeeded_of_not_below hbelow']
      exact .incompatibleAbove b hb hne (not_lt.mp hbelow)

/-! ### Accepting and confirming a commit -/

/-- The current ballot when CONFIRM is entered for a high ballot. -/
def Ballots.enteringBallot (s : Ballots V) (newH : ScpBallot V) : Option (ScpBallot V) :=
  if s.currentBallot.any (areBallotsLessAndCompatible newH) then s.currentBallot else some newH

theorem enterConfirm_kept (h : ScpBallot V) (c : Ballot N V H) : Kept c (enterConfirm h c) := by
  unfold enterConfirm
  have hphase := Kept.update (fun s => { s with phase := .confirm }) c
  dsimp only
  split
  · exact (hphase.trans (bumpToBallot_kept h false _)).trans (Kept.update _ _)
  · exact hphase.trans (Kept.update _ _)

theorem enterConfirm_toBallots {newH : ScpBallot V} (hhigh : c.state.highBallot = some newH) :
    (enterConfirm newH c).state.toBallots =
      { c.state.toBallots with
        phase := .confirm
        preparedPrime := none
        currentBallot := c.state.currentBallot.map (fun b =>
          if areBallotsLessAndCompatible newH b then b else newH) } := by
  have hbumped := bumpToBallot_toBallots newH false
    (updateBallots (fun s => { s with phase := .confirm }) c)
  rw [if_neg (by simp), bumped_of_compatible (by simp [hhigh])] at hbumped
  unfold enterConfirm
  cases hb : c.state.currentBallot with
  | none => simp [hb]
  | some b =>
    by_cases hle : areBallotsLessAndCompatible newH b = true
    · simp only [updateBallots_toBallots, hb, any_some, hle, map_some, if_true,
        Bool.not_true, Bool.false_eq_true, if_false]
    · simp only [updateBallots_toBallots, hb, any_some, hle, map_some, if_true,
        Bool.not_false, hbumped, if_false, Bool.false_eq_true]

theorem enterConfirm_update_toBallots {newH : ScpBallot V}
    (hhigh : c.state.highBallot = some newH) :
    (updateCurrentIfNeeded newH (enterConfirm newH c)).2.state.toBallots =
      { c.state.toBallots with
        phase := .confirm
        preparedPrime := none
        currentBallot := c.state.enteringBallot newH } := by
  have hentered := enterConfirm_toBallots hhigh
  rw [updateCurrentIfNeeded_of_compatible (by rw [hentered]; simp [hhigh]), hentered]
  unfold enteringBallot
  cases hb : c.state.currentBallot with
  | none => simp [below]
  | some b =>
    by_cases hle : areBallotsLessAndCompatible newH b = true
    · have hnot : ¬b < newH := not_lt.mpr (areBallotsLessAndCompatible_iff.mp hle).1
      simp only [below, map_some, any_some, hle, if_true, mem_some_iff, forall_eq', hnot, if_false]
    · simp only [below, map_some, any_some, hle, if_false,
        mem_some_iff, forall_eq', lt_self_iff_false, Bool.false_eq_true]

theorem moveCommit_kept (newC newH : ScpBallot V) (c : Ballot N V H) :
    Kept c (moveCommit newC newH c).2 := by
  unfold moveCommit
  split
  · exact Kept.update (fun s => { s with commit := some newC, highBallot := some newH }) c
  · exact Kept.refl c

/-- Moved or not, the pair is in place afterwards. -/
theorem moveCommit_toBallots (newC newH : ScpBallot V) (c : Ballot N V H) :
    (moveCommit newC newH c).2.state.toBallots =
      { c.state.toBallots with commit := some newC, highBallot := some newH } := by
  unfold moveCommit
  split
  · rfl
  next hguard =>
    simp only [Bool.or_eq_true, not_or, Bool.not_eq_true, all_eq_false, ballotCompare_eq,
      bne_eq_false_iff_eq, compare_eq_iff_eq] at hguard
    obtain ⟨⟨high, hhigh, rfl⟩, commit, hcommit, rfl⟩ := hguard
    dsimp only
    rw [← hhigh, ← hcommit]

theorem moveCommit_of_above
    (habove : ∀ h ∈ c.state.highBallot, h < newH) : (moveCommit newC newH c).1 = true := by
  have hmoved : c.state.highBallot.all (fun high => ballotCompare high newH != .eq) = true := by
    cases hh : c.state.highBallot with
    | none => rfl
    | some h => simpa [compare_eq_iff_eq] using (habove h hh).ne
  unfold moveCommit
  rw [hmoved]
  rfl

theorem acceptCommit_kept (newC newH : ScpBallot V) (c : Ballot N V H) :
    Kept (noteTransition (.acceptCommit newC newH) c) (acceptCommit newC newH c).2 := by
  have hmoved := (Kept.update (fun s => { s with valueOverride := some newH.value })
    (noteTransition (.acceptCommit newC newH) c)).trans (moveCommit_kept newC newH _)
  have hentered (c : Ballot N V H) :
      Kept c (if (c.state.phase == .prepare) = true then enterConfirm newH c else c) :=
    Kept.ite (enterConfirm_kept newH c) (Kept.refl c)
  unfold acceptCommit
  dsimp only
  split
  · exact ((hmoved.trans (hentered _)).trans (updateCurrentIfNeeded_kept newH _)).trans
      (Kept.notify _ rfl)
  · exact hmoved.trans (hentered _)

theorem acceptCommit_prepare (newC newH : ScpBallot V) (hphase : c.state.phase = .prepare) :
    (acceptCommit newC newH c).1 = true ∧
      (acceptCommit newC newH c).2.state.toBallots =
        { c.state.toBallots with
          valueOverride := some newH.value
          commit := some newC
          highBallot := some newH
          phase := .confirm
          preparedPrime := none
          currentBallot := c.state.enteringBallot newH } := by
  set c₀ := updateBallots (fun s => { s with valueOverride := some newH.value })
    (noteTransition (.acceptCommit newC newH) c) with hc₀
  set c₁ := (moveCommit newC newH c₀).2 with hc₁
  have hmoved : c₁.state.toBallots =
      { c₀.state.toBallots with commit := some newC, highBallot := some newH } :=
    moveCommit_toBallots newC newH c₀
  have hentering : (c₁.state.phase == .prepare) = true := by
    rw [hmoved]
    simpa [hc₀] using hphase
  have hresult : acceptCommit newC newH c =
      (true, (updateCurrentIfNeeded newH (enterConfirm newH c₁)).2.notify (.acceptedCommit newH)) := by
    unfold acceptCommit
    simp only [← hc₀, ← hc₁, hentering, Bool.or_true, if_true]
  have hhigh : c₁.state.highBallot = some newH := by rw [hmoved]
  rw [hresult]
  refine ⟨rfl, ?_⟩
  rw [Traced.notify_state, enterConfirm_update_toBallots hhigh, hmoved]
  rfl

theorem acceptCommit_confirm (hphase : c.state.phase = .confirm)
    (habove : ∀ h ∈ c.state.highBallot, h < newH) :
    (acceptCommit newC newH c).1 = true ∧
      (acceptCommit newC newH c).2.state.toBallots =
        { c.state.toBallots with
          valueOverride := some newH.value
          commit := some newC
          highBallot := some newH
          currentBallot := if c.state.below newH then some newH else c.state.currentBallot } := by
  set c₀ := updateBallots (fun s => { s with valueOverride := some newH.value })
    (noteTransition (.acceptCommit newC newH) c) with hc₀
  set c₁ := (moveCommit newC newH c₀).2 with hc₁
  have hmoved : c₁.state.toBallots =
      { c₀.state.toBallots with commit := some newC, highBallot := some newH } :=
    moveCommit_toBallots newC newH c₀
  have hfirst : (moveCommit newC newH c₀).1 = true := moveCommit_of_above habove
  have hentering : (c₁.state.phase == .prepare) = false := by
    rw [hmoved]
    simp [hc₀, hphase]
  have hresult : acceptCommit newC newH c =
      (true, (updateCurrentIfNeeded newH c₁).2.notify (.acceptedCommit newH)) := by
    unfold acceptCommit
    simp only [← hc₀, ← hc₁, hentering, hfirst, Bool.or_false, Bool.false_eq_true, if_true,
      if_false]
  rw [hresult]
  refine ⟨rfl, ?_⟩
  rw [Traced.notify_state, updateCurrentIfNeeded_of_compatible (by rw [hmoved]; simp), hmoved]
  rfl

theorem confirmCommit_kept (newC newH : ScpBallot V) (c : Ballot N V H) :
    Kept (noteTransition (.confirmCommit newC newH) c) (confirmCommit newC newH c) :=
  (updateCurrentIfNeeded_kept newH _).trans (Kept.update (fun s =>
    { s with commit := some newC, highBallot := some newH, phase := .externalize }) _)

theorem confirmCommit_toBallots (hsame : ∀ h ∈ c.state.highBallot, newH.value = h.value) :
    (confirmCommit newC newH c).state.toBallots =
      { c.state.toBallots with
        commit := some newC
        highBallot := some newH
        phase := .externalize
        currentBallot := if c.state.below newH then some newH else c.state.currentBallot } := by
  set c₀ := noteTransition (.confirmCommit newC newH) c with hc₀
  have hsame' : ∀ h ∈ c₀.state.highBallot, newH.value = h.value := hsame
  unfold confirmCommit
  rw [updateBallots_toBallots, updateCurrentIfNeeded_of_compatible hsame']
  rfl

end Henyey.Scp
