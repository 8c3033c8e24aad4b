import Henyey.Scp.Ballot.Commitment

/-!
# The node's own statements

The statement of the current state is sane, has values to validate, and every
change of the decision state makes it newer or leaves it as it was. So the
node's own statements are always recorded, and what it emits keeps rising.
-/

namespace Henyey.Scp

open Prod.Lex Ballots Option

variable {N V H : Type} [LinearOrder V]

/-! ### States whose statement is acceptable -/

/-- Nothing happened yet. -/
def Ballots.Fresh (s : Ballots V) : Prop :=
  s.phase = .prepare ∧ s.currentBallot = none ∧ s.prepared = none ∧ s.preparedPrime = none ∧
    s.highBallot = none ∧ s.commit = none

/-- In PREPARE `h` is covered by `p`, an externalized commit has a counter, and
a state that is not fresh has a ballot worth naming. -/
structure Ballots.Sayable (s : Ballots V) : Prop where
  covered : s.phase = .prepare → ∀ h ∈ s.highBallot, ∃ p ∈ s.prepared, h ≤ p
  counter : s.phase = .externalize → ∀ commit ∈ s.commit, commit.counter ≠ 0
  valued : s.Fresh ∨ (∃ b ∈ s.currentBallot, b.counter ≠ 0) ∨ s.prepared ≠ none

theorem counterOrZero_le {low high : Option (ScpBallot V)}
    (hle : ∀ l ∈ low, ∃ h ∈ high, l ≤ h) : counterOrZero low ≤ counterOrZero high := by
  cases hlow : low with
  | none => exact Fin.zero_le _
  | some l =>
    obtain ⟨h, hh, hle⟩ := hle l hlow
    rw [mem_def.mp hh]
    exact ballot_counter_mono hle

section Sane

variable [OrderBot V] {ctx : SlotContext N V H} {s : Ballots V}
  {pledges : ScpStatementPledges V H} {canEmit : Bool}

theorem selfPledges_sane (hordered : s.Ordered) (hsayable : s.Sayable)
    (hpledges : selfPledges ctx s = some (pledges, canEmit)) : pledgesSane true pledges = true := by
  have hcommit : counterOrZero s.commit ≤ counterOrZero s.highBallot :=
    counterOrZero_le fun c hc => (hordered.commit c hc).imp fun _ h => ⟨h.1, h.2.1⟩
  have hhigh : counterOrZero s.highBallot ≤ counterOrZero s.currentBallot :=
    counterOrZero_le fun c hc => (hordered.high c hc).imp fun _ h => ⟨h.1, h.2.1⟩
  unfold selfPledges at hpledges
  split at hpledges
  next hphase =>
    obtain ⟨rfl, -⟩ := Prod.mk.inj (some.inj hpledges)
    have hcounter : (s.currentBallot.getD ⟨0, ⊥⟩).counter = counterOrZero s.currentBallot := by
      cases s.currentBallot <;> rfl
    simp only [pledgesSane, Bool.true_or, Bool.true_and, Bool.and_eq_true, Bool.or_eq_true,
      beq_iff_eq, decide_eq_true_eq, hcounter]
    refine ⟨⟨?_, ?_⟩, ?_⟩
    · split
      next preparedPrime prepared hprime hprepared =>
        obtain ⟨p, hp, hlt, hne⟩ := hordered.prime preparedPrime hprime
        obtain rfl : p = prepared := some.inj (hp.symm.trans hprepared)
        simp [compare_lt_iff_lt.mpr hlt, ballotCompatible, hne]
      · rfl
    · cases hh : s.highBallot with
      | none => exact .inl rfl
      | some h =>
        obtain ⟨p, hp, hle⟩ := hsayable.covered hphase h hh
        rw [mem_def] at hp
        right
        simp only [hp, decide_eq_true_eq]
        exact ballot_counter_mono hle
    · by_cases hzero : counterOrZero s.commit = 0
      · exact .inl hzero
      · right
        refine ⟨⟨?_, hhigh⟩, hcommit⟩
        rw [bne_iff_ne]
        intro hzero'
        rw [hzero'] at hcommit
        exact hzero (Fin.le_zero_iff.mp hcommit)
  next hphase =>
    obtain ⟨current, hcurrent, heq⟩ := map_eq_some_iff.mp hpledges
    obtain ⟨rfl, -⟩ := Prod.mk.inj heq
    obtain ⟨⟨high, hmem, hne, _⟩, _⟩ := hordered.confirmed (by simp [hphase])
    obtain ⟨b, hb, hle, _⟩ := hordered.high high hmem
    obtain rfl : b = current := some.inj (hb.symm.trans hcurrent)
    rw [hcurrent] at hhigh
    simp only [pledgesSane, Bool.and_eq_true, bne_iff_ne, decide_eq_true_eq]
    refine ⟨⟨?_, hhigh⟩, hcommit⟩
    intro hzero
    have hle' := ballot_counter_mono hle
    rw [hzero] at hle'
    exact hne (Fin.le_zero_iff.mp hle')
  next hphase =>
    obtain ⟨commit, hc, heq⟩ := map_eq_some_iff.mp hpledges
    obtain ⟨rfl, -⟩ := Prod.mk.inj heq
    rw [hc] at hcommit
    simp only [pledgesSane, Bool.and_eq_true, bne_iff_ne, decide_eq_true_eq]
    exact ⟨hsayable.counter hphase commit hc, hcommit⟩

variable [DecidableEq N] [DecidableEq H]

/-- The node resolves its own quorum set by itself, so its own statement passes
the sanity check. -/
theorem localStatement_sane (hsane : ctx.localQuorumSet.sane = true) (hordered : s.Ordered)
    (hsayable : s.Sayable) (hpledges : selfPledges ctx s = some (pledges, canEmit)) :
    isStatementSane ctx (localStatement ctx pledges) = true := by
  have hnumbers := selfPledges_sane hordered hsayable hpledges
  have hresolve : resolveQuorumSet ctx (ctx.hashQuorumSet ctx.localQuorumSet) ctx.localNodeId =
      some ctx.localQuorumSet := by simp [resolveQuorumSet]
  unfold isStatementSane
  have hquorumSet : ∃ q, statementQuorumSet ctx (localStatement ctx pledges) = some q ∧
      q.sane = true := by
    unfold selfPledges at hpledges
    split at hpledges
    · obtain ⟨rfl, -⟩ := Prod.mk.inj (some.inj hpledges)
      exact ⟨_, hresolve, hsane⟩
    · obtain ⟨current, _, heq⟩ := map_eq_some_iff.mp hpledges
      obtain ⟨rfl, -⟩ := Prod.mk.inj heq
      exact ⟨_, hresolve, hsane⟩
    · obtain ⟨commit, _, heq⟩ := map_eq_some_iff.mp hpledges
      obtain ⟨rfl, -⟩ := Prod.mk.inj heq
      exact ⟨_, rfl, simpleQuorumSet_singleton_sane _⟩
  obtain ⟨q, hq, hsane⟩ := hquorumSet
  have hself : decide ((localStatement ctx pledges).nodeId = ctx.localNodeId) = true :=
    decide_eq_true rfl
  rw [hq, hself]
  dsimp only
  rw [hsane, Bool.true_and]
  exact hnumbers

omit [DecidableEq N] [DecidableEq H] in
theorem getStatementValues_selfPledges (hsayable : s.Sayable) (hfresh : ¬s.Fresh)
    (hpledges : selfPledges ctx s = some (pledges, canEmit)) :
    getStatementValues (localStatement ctx pledges) ≠ [] := by
  have hmem {v : V} {values : List V} (hv : v ∈ values) : sortedValues values ≠ [] :=
    List.ne_nil_of_mem (mem_sortedValues.mpr hv)
  unfold selfPledges at hpledges
  split at hpledges
  · obtain ⟨rfl, -⟩ := Prod.mk.inj (some.inj hpledges)
    rcases hsayable.valued with hnew | ⟨b, hb, hcounter⟩ | hprepared
    · exact absurd hnew hfresh
    · rw [mem_def] at hb
      apply hmem (v := b.value)
      simp [localStatement, hb, hcounter]
    · obtain ⟨p, hp⟩ := ne_none_iff_exists'.mp hprepared
      apply hmem (v := p.value)
      simp [localStatement, hp]
  · obtain ⟨current, _, heq⟩ := map_eq_some_iff.mp hpledges
    obtain ⟨rfl, -⟩ := Prod.mk.inj heq
    exact hmem (List.mem_singleton.mpr rfl)
  · obtain ⟨commit, _, heq⟩ := map_eq_some_iff.mp hpledges
    obtain ⟨rfl, -⟩ := Prod.mk.inj heq
    exact hmem (List.mem_singleton.mpr rfl)

end Sane

/-! ### Every change makes the statement newer -/

section Newer

variable [OrderBot V] {ctx : SlotContext N V H} {s s' : Ballots V}

def selfStatement (ctx : SlotContext N V H) (s : Ballots V) : Option (ScpStatement N V H) :=
  (selfPledges ctx s).map fun pledges => localStatement ctx pledges.1

/-- The second statement is the first one, or newer. -/
def SameOrNewer (old new : Option (ScpStatement N V H)) : Prop :=
  new = old ∨ ∃ st ∈ old, ∃ st' ∈ new, isNewerBallotSt st st' = true

def preparePledge (ctx : SlotContext N V H) (s : Ballots V) : ScpStatementPrepare V H where
  quorumSetHash := ctx.hashQuorumSet ctx.localQuorumSet
  ballot := s.currentBallot.getD ⟨0, ⊥⟩
  prepared := s.prepared
  preparedPrime := s.preparedPrime
  nC := counterOrZero s.commit
  nH := counterOrZero s.highBallot

def confirmPledge (ctx : SlotContext N V H) (s : Ballots V) (current : ScpBallot V) :
    ScpStatementConfirm V H where
  ballot := current
  nPrepared := counterOrZero s.prepared
  nCommit := counterOrZero s.commit
  nH := counterOrZero s.highBallot
  quorumSetHash := ctx.hashQuorumSet ctx.localQuorumSet

theorem selfStatement_prepare (hphase : s.phase = .prepare) :
    selfStatement ctx s = some (localStatement ctx (.prepare (preparePledge ctx s))) := by
  simp [selfStatement, selfPledges, hphase, preparePledge]

theorem selfStatement_confirm (hphase : s.phase = .confirm) {current : ScpBallot V}
    (hcurrent : s.currentBallot = some current) :
    selfStatement ctx s = some (localStatement ctx (.confirm (confirmPledge ctx s current))) := by
  simp [selfStatement, selfPledges, hphase, hcurrent, confirmPledge]

theorem selfStatement_externalize (hphase : s.phase = .externalize) {commit : ScpBallot V}
    (hcommit : s.commit = some commit) :
    ∃ ext, selfStatement ctx s = some (localStatement ctx (.externalize ext)) :=
  ⟨_, by simp [selfStatement, selfPledges, hphase, hcommit]; rfl⟩

theorem sameOrNewer_prepare (hphase : s.phase = .prepare) (hphase' : s'.phase = .prepare)
    (hkey : preparePledge ctx s' = preparePledge ctx s ∨
      (preparePledge ctx s).key < (preparePledge ctx s').key) :
    SameOrNewer (selfStatement ctx s) (selfStatement ctx s') := by
  rw [selfStatement_prepare hphase, selfStatement_prepare hphase']
  rcases hkey with hsame | hlt
  · left
    rw [hsame]
  · right
    refine ⟨_, rfl, _, rfl, ?_⟩
    rw [localStatement, localStatement, isNewerBallotSt_prepare, isNewerPrepare_iff]
    exact hlt

theorem sameOrNewer_confirm (hphase : s.phase = .confirm) (hphase' : s'.phase = .confirm)
    {current current' : ScpBallot V} (hcurrent : s.currentBallot = some current)
    (hcurrent' : s'.currentBallot = some current')
    (hkey : (confirmPledge ctx s current).key < (confirmPledge ctx s' current').key) :
    SameOrNewer (selfStatement ctx s) (selfStatement ctx s') := by
  rw [selfStatement_confirm hphase hcurrent, selfStatement_confirm hphase' hcurrent']
  right
  refine ⟨_, rfl, _, rfl, ?_⟩
  rw [localStatement, localStatement, isNewerBallotSt_confirm, isNewerConfirm_iff]
  exact hkey

theorem sameOrNewer_of_rank {st st' : ScpStatement N V H} (hst : selfStatement ctx s = some st)
    (hst' : selfStatement ctx s' = some st')
    (hrank : ballotRank st.pledges < ballotRank st'.pledges) :
    SameOrNewer (selfStatement ctx s) (selfStatement ctx s') :=
  .inr ⟨st, hst, st', hst', isNewerBallotSt_of_rank hrank⟩

theorem preparePledge_lt_of_ballot
    (hlt : s.currentBallot.getD ⟨0, ⊥⟩ < s'.currentBallot.getD ⟨0, ⊥⟩) :
    (preparePledge ctx s).key < (preparePledge ctx s').key := by
  unfold ScpStatementPrepare.key
  rw [toLex_lt_toLex]
  exact .inl hlt

/-- What orders PREPARE statements of one current ballot. -/
def Ballots.restKey (s : Ballots V) : WithBot (ScpBallot V) ×ₗ WithBot (ScpBallot V) ×ₗ U32 :=
  toLex (s.prepared, toLex (s.preparedPrime, counterOrZero s.highBallot))

theorem preparePledge_lt_of_rest (hcurrent : s'.currentBallot = s.currentBallot)
    (hlt : s.restKey < s'.restKey) : (preparePledge ctx s).key < (preparePledge ctx s').key := by
  unfold ScpStatementPrepare.key
  rw [toLex_lt_toLex]
  right
  refine ⟨?_, hlt⟩
  change s.currentBallot.getD _ = s'.currentBallot.getD _
  rw [hcurrent]

variable {ballot : ScpBallot V}

omit [OrderBot V] in
theorem Ballots.Raises.restKey_lt (hraises : s.Raises ballot s') : s.restKey < s'.restKey := by
  unfold restKey
  rw [toLex_lt_toLex]
  cases hraises with
  | first hprepared =>
    left
    rw [hprepared]
    exact WithBot.bot_lt_coe ballot
  | above p hprepared hlt hconfirm =>
    left
    rw [hprepared]
    exact WithBot.coe_lt_coe.mpr hlt
  | prime p hprepared hlt hvalue hprime hconfirm =>
    right
    refine ⟨rfl, ?_⟩
    rw [toLex_lt_toLex]
    left
    cases hp' : s.preparedPrime with
    | none => exact WithBot.bot_lt_coe ballot
    | some p' => exact WithBot.coe_lt_coe.mpr (hprime p' hp')

omit [OrderBot V] in
theorem Ballots.restKey_lt_of_high (hprepared : s'.prepared = s.prepared)
    (hprime : s'.preparedPrime = s.preparedPrime)
    (hhigh : counterOrZero s.highBallot < counterOrZero s'.highBallot) :
    s.restKey < s'.restKey := by
  unfold restKey
  rw [toLex_lt_toLex, hprepared, hprime]
  refine .inr ⟨rfl, ?_⟩
  rw [toLex_lt_toLex]
  exact .inr ⟨rfl, hhigh⟩

theorem zero_ballot_bot_le (ballot : ScpBallot V) : (⟨0, ⊥⟩ : ScpBallot V) ≤ ballot := by
  rw [ballot_le_iff]
  rcases (Fin.zero_le ballot.counter).lt_or_eq with hlt | heq
  · exact .inl hlt
  · exact .inr ⟨heq, bot_le⟩

section

variable (hordered : s.Ordered)
include hordered

/-- Accepting a ballot as prepared. In CONFIRM it raises the prepared counter. -/
theorem Ballots.Raises.sameOrNewer (hphase : s.phase ≠ .externalize)
    (hraises : s.Raises ballot s') :
    SameOrNewer (selfStatement ctx s) (selfStatement ctx s'.voided) := by
  obtain ⟨hcurrent, hhigh, _, hphase', _⟩ := hraises.frame
  obtain ⟨hcurrent', hprepared', hprime', hhigh', hphase'', _⟩ := voided_frame s'
  cases hs : s.phase with
  | prepare =>
    apply sameOrNewer_prepare hs (by rw [hphase'', hphase', hs])
    right
    apply preparePledge_lt_of_rest (by rw [hcurrent', hcurrent])
    have hlt := hraises.restKey_lt
    unfold restKey at hlt ⊢
    rwa [hprepared', hprime', hhigh']
  | confirm =>
    obtain ⟨⟨high, hmem, _⟩, hprepared, _⟩ := hordered.confirmed (by simp [hs])
    obtain ⟨b, hb, _⟩ := hordered.high high hmem
    rw [mem_def] at hb
    apply sameOrNewer_confirm hs (by rw [hphase'', hphase', hs]) hb
      (by rw [hcurrent', hcurrent, hb])
    unfold ScpStatementConfirm.key
    rw [toLex_lt_toLex]
    right
    refine ⟨rfl, ?_⟩
    rw [toLex_lt_toLex]
    left
    change counterOrZero s.prepared < counterOrZero s'.voided.prepared
    rw [hprepared']
    cases hraises with
    | first hnone => exact absurd hnone hprepared
    | above p hp hlt hconfirm =>
      rw [hp]
      change p.counter < ballot.counter
      rcases ballot_lt_iff.mp hlt with hlt | ⟨_, hlt⟩
      · exact hlt
      · exact absurd (hconfirm hs) hlt.ne
    | prime p hp hlt hvalue hprime hconfirm => exact absurd hs hconfirm
  | externalize => exact absurd hs hphase

/-- Confirming a ballot as prepared. A zero ballot on top of nothing leaves the
statement as it was. -/
theorem Ballots.Confirms.sameOrNewer {newC newH : ScpBallot V} {didWork : Bool}
    (hphase : s.phase = .prepare) (hnewC : newC ≤ newH ∧ newC.value = newH.value)
    (hhigh : ∀ h ∈ s.highBallot, h < newH) (hconfirms : s.Confirms newC newH didWork s') :
    SameOrNewer (selfStatement ctx s) (selfStatement ctx s') := by
  apply sameOrNewer_prepare hphase (hconfirms.phase.trans hphase)
  cases hconfirms with
  | incompatibleAbove b hcurrent hvalue hle => exact .inl rfl
  | incompatibleBelow b hcurrent hvalue hlt =>
    right
    apply preparePledge_lt_of_ballot
    rw [hcurrent]
    exact hlt
  | compatible hvalue =>
    by_cases hraised : s.currentBallot.getD ⟨0, ⊥⟩ < newH ∧ s.below newH
    · right
      apply preparePledge_lt_of_ballot
      simp only [hraised.2, if_true]
      exact hraised.1
    -- The ballot in the statement stays, so `h` decides.
    have hballot : (if s.below newH then some newH else s.currentBallot).getD ⟨0, ⊥⟩ =
        s.currentBallot.getD ⟨0, ⊥⟩ := by
      by_cases hbelow : s.below newH
      · have hle : newH ≤ s.currentBallot.getD ⟨0, ⊥⟩ :=
          not_lt.mp fun hlt => hraised ⟨hlt, hbelow⟩
        rw [if_pos hbelow]
        cases hb : s.currentBallot with
        | none =>
          rw [hb] at hle
          exact le_antisymm hle (zero_ballot_bot_le newH)
        | some b =>
          rw [hb] at hle
          exact absurd (hbelow b hb) (not_lt.mpr hle)
      · rw [if_neg hbelow]
    have hcounter : counterOrZero s.highBallot < newH.counter ∨
        s.highBallot = none ∧ newH.counter = 0 := by
      cases hh : s.highBallot with
      | none =>
        rcases (Fin.zero_le newH.counter).lt_or_eq with hlt | heq
        · exact .inl hlt
        · exact .inr ⟨rfl, heq.symm⟩
      | some h =>
        left
        obtain ⟨b, hb, _, hsame⟩ := hordered.high h hh
        rcases ballot_lt_iff.mp (hhigh h hh) with hlt | ⟨_, hlt⟩
        · exact hlt
        · exact absurd (hsame.trans (hvalue b hb)) hlt.ne
    rcases hcounter with hlt | ⟨hnone, hzero⟩
    · right
      unfold ScpStatementPrepare.key
      rw [toLex_lt_toLex]
      right
      refine ⟨hballot.symm, ?_⟩
      have hrest : s.restKey < ({ s with highBallot := some newH } : Ballots V).restKey :=
        restKey_lt_of_high rfl rfl hlt
      exact hrest
    · left
      have hnewC' : newC.counter = 0 :=
        Fin.le_zero_iff.mp (hzero ▸ ballot_counter_mono hnewC.1)
      unfold preparePledge
      simp only [hballot, hnone, hnewC', hordered.commit_none hnone, ne_eq, not_true_eq_false,
        false_and, if_false]
      simp [counterOrZero, hzero]

theorem sameOrNewer_raiseCommit (hphase : s.phase = .confirm) {newC newH h : ScpBallot V}
    (hh : h ∈ s.highBallot) (hlt : h < newH) (hvalue : newH.value = h.value) :
    SameOrNewer (selfStatement ctx s) (selfStatement ctx
      { s with
        commit := some newC
        highBallot := some newH
        phase := .confirm
        currentBallot := if s.below newH then some newH else s.currentBallot }) := by
  obtain ⟨b, hb, _⟩ := hordered.high h hh
  rw [mem_def] at hb hh
  have hcounter : counterOrZero s.highBallot < newH.counter := by
    rw [hh]
    rcases ballot_lt_iff.mp hlt with hlt | ⟨_, hlt⟩
    · exact hlt
    · exact absurd hvalue.symm hlt.ne
  by_cases hbelow : s.below newH
  · apply sameOrNewer_confirm hphase rfl hb (if_pos hbelow)
    unfold ScpStatementConfirm.key
    rw [toLex_lt_toLex]
    exact .inl (hbelow b hb)
  · apply sameOrNewer_confirm hphase rfl hb (by rw [if_neg hbelow, hb])
    unfold ScpStatementConfirm.key
    rw [toLex_lt_toLex]
    refine .inr ⟨rfl, ?_⟩
    rw [toLex_lt_toLex]
    exact .inr ⟨rfl, hcounter⟩

/-- Bumping raises the ballot, except for a zero ballot of the empty value where
there was none. -/
theorem sameOrNewer_bump (hphase : s.phase ≠ .externalize) (hbelow : s.below ballot) :
    SameOrNewer (selfStatement ctx s) (selfStatement ctx (s.bumped ballot)) := by
  obtain ⟨hcurrent, hprepared, hprime, hphase', _⟩ := bumped_frame s ballot
  cases hs : s.phase with
  | prepare =>
    apply sameOrNewer_prepare hs (hphase'.trans hs)
    rcases (zero_ballot_bot_le ballot).lt_or_eq with hlt | heq
    · right
      apply preparePledge_lt_of_ballot
      rw [hcurrent]
      cases hb : s.currentBallot with
      | none => exact hlt
      | some b => exact hbelow b hb
    · cases hb : s.currentBallot with
      | some b =>
        have hlt := (zero_ballot_bot_le b).trans_lt (hbelow b hb)
        exact absurd heq hlt.ne
      | none =>
        left
        have hhigh : s.highBallot = none := by
          by_contra hsome
          obtain ⟨h, hh⟩ := ne_none_iff_exists'.mp hsome
          obtain ⟨b, hb', _⟩ := hordered.high h hh
          simp [hb] at hb'
        have hbumped : s.bumped ballot = { s with currentBallot := some ballot } :=
          bumped_of_compatible (by simp [hhigh])
        rw [hbumped]
        unfold preparePledge
        simp [hb, heq]
  | confirm =>
    obtain ⟨⟨high, hmem, _⟩, _⟩ := hordered.confirmed (by simp [hs])
    obtain ⟨b, hb, _⟩ := hordered.high high hmem
    apply sameOrNewer_confirm hs (hphase'.trans hs) hb hcurrent
    unfold ScpStatementConfirm.key
    rw [toLex_lt_toLex]
    exact .inl (hbelow b hb)
  | externalize => exact absurd hs hphase

theorem Ballots.Change.sameOrNewer (hchange : s.Change s') :
    SameOrNewer (selfStatement ctx s) (selfStatement ctx s') := by
  cases hchange with
  | same => exact .inl rfl
  | raise ballot s₁ hphase hraises => exact hraises.sameOrNewer hordered hphase
  | confirm newC newH didWork s₁ hphase hnewC hhigh hconfirms =>
    exact hconfirms.sameOrNewer hordered hphase hnewC hhigh
  | enterConfirm newC newH hphase hprepared hnewC hcounter =>
    have hcurrent : ∃ b, s.enteringBallot newH = some b := by
      unfold enteringBallot
      split
      next hany =>
        obtain ⟨b, hb, _⟩ := (any_eq_true _ _).mp hany
        exact ⟨b, hb⟩
      · exact ⟨newH, rfl⟩
    obtain ⟨b, hb⟩ := hcurrent
    exact sameOrNewer_of_rank (selfStatement_prepare hphase) (selfStatement_confirm rfl hb)
      Nat.zero_lt_one
  | raiseCommit newC newH h hphase hnewC hcounter hh hlt hvalue =>
    exact sameOrNewer_raiseCommit hordered hphase hh hlt hvalue
  | externalize newC newH h hphase hnewC hcounter hh hvalue =>
    obtain ⟨b, hb, _⟩ := hordered.high h hh
    obtain ⟨ext, hext⟩ : ∃ ext, selfStatement ctx
        { s with
          commit := some newC
          highBallot := some newH
          phase := .externalize
          currentBallot := if s.below newH then some newH else s.currentBallot } =
        some (localStatement ctx (.externalize ext)) := selfStatement_externalize rfl rfl
    exact sameOrNewer_of_rank (selfStatement_confirm hphase hb) hext (Nat.lt_succ_self 1)
  | bump ballot hphase hbelow hoverride => exact sameOrNewer_bump hordered hphase hbelow

end

end Newer

/-! ### The parts of a step -/

/-- Neither a send nor a word about the node itself. -/
def ScpEvent.silent : ScpEvent N V H → Bool
  | .emitEnvelope _ => false
  | .selfStatement _ _ _ => false
  | _ => true

omit [LinearOrder V] in
theorem silent_of_quiet {e : ScpEvent N V H} (hquiet : e.quiet = true) : e.silent = true := by
  cases e <;> simp_all [ScpEvent.quiet, ScpEvent.silent]

/-- Nothing that the node says or stores changed. -/
structure Unspoken (c d : Ballot N V H) : Prop where
  latestEnvelopes : d.state.latestEnvelopes = c.state.latestEnvelopes
  lastEnvelope : d.state.lastEnvelope = c.state.lastEnvelope
  lastEnvelopeEmit : d.state.lastEnvelopeEmit = c.state.lastEnvelopeEmit
  log : Appends (fun e => e.silent = true) c d

omit [LinearOrder V] in
theorem Idle.unspoken {c d : Ballot N V H} (hidle : Idle c d) : Unspoken c d :=
  ⟨hidle.latestEnvelopes, hidle.lastEnvelope, hidle.lastEnvelopeEmit,
    hidle.appends.mono fun _ he => silent_of_quiet he⟩

omit [LinearOrder V] in
theorem unspoken_of_kept {c d : Ballot N V H} {call : Transition V}
    (hkept : Kept (noteTransition call c) d) : Unspoken c d := by
  refine ⟨hkept.latestEnvelopes, hkept.lastEnvelope, hkept.lastEnvelopeEmit, ?_⟩
  refine (transition_appends hkept).mono ?_
  rintro e (hquiet | rfl)
  · exact silent_of_quiet hquiet
  · rfl

variable [OrderBot V] [DecidableEq N] [DecidableEq H]

/-- A setter, as far as the node's own statements go. -/
structure Worked (ctx : SlotContext N V H) (didWork : Bool) (c d : Ballot N V H) : Prop where
  unspoken : Unspoken c d
  change : c.state.Change d.state.toBallots
  sayable : c.state.Sayable → (c.state.phase = .prepare → OwnPrepared ctx c.state) → d.state.Sayable
  same : didWork = false → selfStatement ctx d.state.toBallots =
    selfStatement ctx c.state.toBallots ∧ (c.state.Fresh → d.state.Fresh)
  notFresh : didWork = true → ¬d.state.Fresh

/-- A step is made of setters that are recorded, sends, arrivals and silence. -/
inductive Part (ctx : SlotContext N V H) (arrives : Arrival N V H → Prop) :
    Ballot N V H → Ballot N V H → Prop where
  | silent {c d : Ballot N V H} (hunspoken : Unspoken c d)
      (hsame : d.state.toBallots = c.state.toBallots) : Part ctx arrives c d
  | send (c : Ballot N V H) : Part ctx arrives c (sendLatestEnvelope c)
  | receive (c : Ballot N V H) (envelope : ScpEnvelope N V H)
      (harrives : arrives (.statement envelope))
      (hnewer : isNewerStatement c.state envelope.statement.nodeId envelope.statement = true) :
      Part ctx arrives c (c.modify (storeEnvelope envelope))
  | work {c d : Ballot N V H} (didWork : Bool) (hworked : Worked ctx didWork c d) :
      Part ctx arrives c (recorded ctx didWork d)

variable {ctx : SlotContext N V H} {arrives : Arrival N V H → Prop} {c c' : Ballot N V H}

omit [OrderBot V] [DecidableEq H] in
theorem sayable_of_prepared {s : Ballots V} (hprepared : s.prepared ≠ none)
    (hphase : s.phase ≠ .externalize)
    (hcovered : s.phase = .prepare → ∀ h ∈ s.highBallot, ∃ p ∈ s.prepared, h ≤ p) : s.Sayable :=
  ⟨hcovered, fun h => absurd h hphase, .inr (.inr hprepared)⟩

omit [LinearOrder V] [OrderBot V] [DecidableEq N] [DecidableEq H] in
theorem not_fresh_of_prepared {s : Ballots V} (hprepared : s.prepared ≠ none) : ¬s.Fresh :=
  fun hfresh => hprepared hfresh.2.2.1

omit [DecidableEq H] in
theorem worked_acceptPrepared {ballot : ScpBallot V} (hphase : c.state.phase ≠ .externalize)
    (hskip : skipCandidate c.state.toBallots ballot = false) :
    Worked ctx true c (acceptPrepared ballot c) := by
  obtain ⟨s, hraises, heq⟩ := acceptPrepared_raises hskip
  obtain ⟨_, hhigh, _, hphase', _⟩ := hraises.frame
  obtain ⟨_, hprepared, _, hhigh', hphase'', _⟩ := voided_frame s
  obtain ⟨p, hp, _, hmono⟩ := hraises.prepared
  have hsome : (acceptPrepared ballot c).state.prepared ≠ none := by
    rw [heq, hprepared, mem_def.mp hp]
    simp
  refine ⟨unspoken_of_kept (acceptPrepared_kept ballot c), heq ▸ .raise ballot s hphase hraises,
    fun hsayable _ => ?_, by simp, fun _ => not_fresh_of_prepared hsome⟩
  refine sayable_of_prepared hsome ?_ ?_
  · rwa [heq, hphase'', hphase']
  · rw [heq, hphase'', hphase', hhigh', hhigh, hprepared]
    intro hprepare h hh
    obtain ⟨q, hq, hle⟩ := hsayable.covered hprepare h hh
    exact ⟨p, hp, hle.trans (hmono q hq)⟩

variable {newC newH : ScpBallot V}

section

omit [OrderBot V]

variable {s s' : Ballots V} {didWork : Bool}

section

variable (hconfirms : s.Confirms newC newH didWork s')
include hconfirms

theorem Ballots.Confirms.prepared : s'.prepared = s.prepared := by
  cases hconfirms <;> rfl

theorem Ballots.Confirms.high : ∀ h ∈ s'.highBallot, h ∈ s.highBallot ∨ h = newH := by
  intro h hh
  cases hconfirms with
  | incompatibleAbove b hcurrent hvalue hle => exact .inl hh
  | incompatibleBelow b hcurrent hvalue hlt => simp at hh
  | compatible hvalue => exact .inr (some.inj hh).symm

theorem Ballots.Confirms.sayable (hphase : s.phase = .prepare) (hprepared : s.prepared ≠ none)
    (hsayable : s.Sayable) (hcovered : ∃ p ∈ s.prepared, newH ≤ p) : s'.Sayable := by
  apply sayable_of_prepared
  · rw [hconfirms.prepared]
    exact hprepared
  · simp [hconfirms.phase, hphase]
  · intro _ h hh
    rw [hconfirms.prepared]
    rcases hconfirms.high h hh with hold | rfl
    · exact hsayable.covered hphase h hold
    · exact hcovered

end

end

omit [DecidableEq N] [DecidableEq H] in
theorem Ballots.Confirms.selfStatement_eq {s s' : Ballots V}
    (hconfirms : s.Confirms newC newH false s') : selfStatement ctx s' = selfStatement ctx s := by
  cases hconfirms with
  | incompatibleAbove b hcurrent hvalue hle => rfl

section

variable (hordered : c.state.Ordered)
include hordered

omit [DecidableEq H] in
theorem worked_confirmPrepared (hphase : c.state.phase = .prepare)
    (hprepared : c.state.prepared ≠ none) (hhigh : ∀ h ∈ c.state.highBallot, h < newH)
    (hnewC : newC ≤ newH ∧ newC.value = newH.value)
    (hcovered : OwnPrepared ctx c.state → ∃ p ∈ c.state.prepared, newH ≤ p) :
    Worked ctx (confirmPrepared newC newH c).1 c (confirmPrepared newC newH c).2 := by
  have hconfirms : c.state.Confirms newC newH _ _ := confirmPrepared_confirms hordered hhigh
  refine ⟨unspoken_of_kept (confirmPrepared_kept newC newH c),
    .confirm newC newH _ _ hphase hnewC hhigh hconfirms, fun hsayable hown => ?_, ?_, fun _ => ?_⟩
  · exact hconfirms.sayable hphase hprepared hsayable (hcovered (hown hphase))
  · intro hidle
    rw [hidle] at hconfirms
    exact ⟨hconfirms.selfStatement_eq, fun hfresh => absurd hfresh.2.2.1 hprepared⟩
  · apply not_fresh_of_prepared
    rw [hconfirms.prepared]
    exact hprepared

theorem worked_acceptCommit (hphase : c.state.phase ≠ .externalize)
    (hprepared : c.state.prepared ≠ none) (hnewC : newC ≤ newH ∧ newC.value = newH.value)
    (hcounter : newC.counter ≠ 0) (hconfirm : c.state.phase = .confirm →
      ∀ h ∈ c.state.highBallot, h < newH ∧ h.value = newH.value)
    (haccepts : ∃ ballot, ballot.value = newH.value ∧
      acceptsCommit ctx c.state ballot (newC.counter, newH.counter) = true) :
    Worked ctx (acceptCommit newC newH c).1 c (acceptCommit newC newH c).2 := by
  have hstep : Step ctx (fun _ => False) c
      (recorded ctx (acceptCommit newC newH c).1 (acceptCommit newC newH c).2) :=
    .acceptCommit c newC newH hphase hprepared hnewC hcounter hconfirm haccepts
  have hchange := hstep.change hordered
  rw [recorded_toBallots] at hchange
  obtain ⟨hwork, hphase', hprepared'⟩ : (acceptCommit newC newH c).1 = true ∧
      (acceptCommit newC newH c).2.state.phase = .confirm ∧
      (acceptCommit newC newH c).2.state.prepared = c.state.prepared := by
    cases hs : c.state.phase with
    | prepare =>
      obtain ⟨hwork, heq⟩ := acceptCommit_prepare newC newH hs
      rw [heq]
      exact ⟨hwork, rfl, rfl⟩
    | confirm =>
      obtain ⟨hwork, heq⟩ := acceptCommit_confirm hs (fun h hh => (hconfirm hs h hh).1)
      rw [heq]
      exact ⟨hwork, hs, rfl⟩
    | externalize => exact absurd hs hphase
  have hsome : (acceptCommit newC newH c).2.state.prepared ≠ none := hprepared' ▸ hprepared
  refine ⟨unspoken_of_kept (acceptCommit_kept newC newH c), hchange, fun _ _ => ?_, ?_,
    fun _ => not_fresh_of_prepared hsome⟩
  · apply sayable_of_prepared hsome (by simp [hphase'])
    simp [hphase']
  · simp [hwork]

omit [DecidableEq H] in
theorem worked_confirmCommit (hphase : c.state.phase = .confirm)
    (hnewC : newC ≤ newH ∧ newC.value = newH.value) (hcounter : newC.counter ≠ 0)
    (hcommit : ∃ commit ∈ c.state.commit, commit.value = newH.value) :
    Worked ctx true c (confirmCommit newC newH c) := by
  obtain ⟨h, hh, hsame⟩ := hordered.high_of_commit hcommit
  have heq : (confirmCommit newC newH c).state.toBallots = _ := confirmCommit_toBallots hsame
  obtain ⟨_, hprepared, _⟩ := hordered.confirmed (by simp [hphase])
  have hsome : (confirmCommit newC newH c).state.prepared ≠ none := by
    rw [heq]
    exact hprepared
  refine ⟨unspoken_of_kept (confirmCommit_kept newC newH c),
    heq ▸ .externalize newC newH h hphase hnewC hcounter hh (hsame h hh), fun _ _ => ?_, by simp,
    fun _ => not_fresh_of_prepared hsome⟩
  refine ⟨?_, ?_, .inr (.inr hsome)⟩
  · rw [heq]
    simp
  · rw [heq]
    rintro - commit' hcommit'
    obtain rfl := some.inj hcommit'
    exact hcounter

end

omit [OrderBot V] [DecidableEq N] [DecidableEq H] in
/-- A bump from nothing to a real counter, or upwards, can be said. -/
theorem Ballots.Sayable.bumped {s : Ballots V} (hsayable : s.Sayable)
    (hphase : s.phase ≠ .externalize) {ballot : ScpBallot V} (hbelow : s.below ballot)
    (hcounter : s.currentBallot = none → ballot.counter ≠ 0) : (s.bumped ballot).Sayable := by
  obtain ⟨hcurrent, hprepared, _, hphase', _⟩ := bumped_frame s ballot
  have hhigh : ∀ h ∈ (s.bumped ballot).highBallot, h ∈ s.highBallot := by
    intro h hh
    unfold Ballots.bumped at hh
    split at hh
    · simp at hh
    · exact hh
  refine ⟨?_, ?_, .inr ?_⟩
  · rw [hphase', hprepared]
    intro hprepare h hh
    exact hsayable.covered hprepare h (hhigh h hh)
  · rw [hphase']
    intro hext
    exact absurd hext hphase
  · rw [hcurrent, hprepared]
    by_cases hsome : s.prepared = none
    · left
      refine ⟨ballot, rfl, ?_⟩
      cases hb : s.currentBallot with
      | none => exact hcounter hb
      | some b =>
        -- Without `p` the ballot left behind had a real counter already.
        have hb' : b.counter ≠ 0 := by
          rcases hsayable.valued with hfresh | ⟨b', hb', hne⟩ | hprepared'
          · simp [hfresh.2.1] at hb
          · obtain rfl : b' = b := some.inj (hb'.symm.trans hb)
            exact hne
          · exact absurd hsome hprepared'
        have hle := ballot_counter_mono (hbelow b hb).le
        intro hzero
        rw [hzero] at hle
        exact hb' (Fin.le_zero_iff.mp hle)
    · exact .inr hsome

omit [DecidableEq H] in
theorem worked_bump {value : V} {counter : U32} (hordered : c.state.Ordered)
    (hcounter : c.state.currentBallot = none → counter ≠ 0) :
    Worked ctx (bumpValue value counter c).1 c (bumpValue value counter c).2 := by
  have hrefused {c₁ : Ballot N V H} (hkept : Unspoken c c₁)
      (heq : c₁.state.toBallots = c.state.toBallots) : Worked ctx false c c₁ := by
    refine ⟨hkept, heq ▸ .same, fun hsayable _ => heq ▸ hsayable, fun _ => ?_, by simp⟩
    rw [heq]
    exact ⟨rfl, id⟩
  have hunspoken {c₁ : Ballot N V H} (hkept : Kept c c₁) : Unspoken c c₁ :=
    ⟨hkept.latestEnvelopes, hkept.lastEnvelope, hkept.lastEnvelopeEmit,
      hkept.appends.mono fun _ he => silent_of_quiet he⟩
  have hchecked {c₁ : Ballot N V H} (hkept : Kept c c₁) : Unspoken c (noteCheck c₁) :=
    ⟨hkept.latestEnvelopes, hkept.lastEnvelope, hkept.lastEnvelopeEmit,
      (hunspoken hkept).log.cons rfl rfl⟩
  unfold bumpValue
  rcases updateCurrentValue_cases ⟨counter, c.state.valueOverride.getD value⟩ hordered with
    ⟨c₁, hkept, heq, hr | hr⟩ | ⟨hphase, hbelow, _, c₁, hkept, heq, hr⟩
  · rw [hr]
    exact hrefused (hunspoken hkept) heq
  · rw [hr]
    exact hrefused (hchecked hkept) heq
  · rw [hr]
    have hstate : (noteCheck c₁).state.toBallots = c.state.bumped _ := heq
    refine ⟨hchecked hkept, ?_, ?_, by simp, fun _ => ?_⟩
    · rw [hstate]
      refine .bump _ hphase hbelow ?_
      intro v hv
      rw [mem_def.mp hv]
      rfl
    · intro hsayable _
      rw [hstate]
      exact hsayable.bumped hphase hbelow hcounter
    · intro hfresh
      have hnone := hfresh.2.1
      rw [hstate, (bumped_frame _ _).1] at hnone
      simp at hnone

/-- A step in parts: the report of a value comes after the send. -/
theorem Step.parts (hordered : c.state.Ordered)
    (hcounter : ∀ counter, arrives (.bumpTo counter) → counter ≠ 0)
    (hstep : Step ctx arrives c c') : Relation.ReflTransGen (Part ctx arrives) c c' := by
  cases hstep with
  | idle hidle => exact .single (.silent hidle.unspoken hidle.toBallots)
  | send => exact .single (.send c)
  | receive envelope harrives hnewer => exact .single (.receive c envelope harrives hnewer)
  | acceptPrepared ballot hphase hskip haccepts =>
    exact .single (.work true (worked_acceptPrepared hphase hskip))
  | confirmPrepared newC newH hphase hprepared hhigh hratifies hnewC hcovered =>
    exact .single (.work _ (worked_confirmPrepared hordered hphase hprepared hhigh hnewC hcovered))
  | acceptCommit newC newH hphase hprepared hnewC hcounter' hconfirm haccepts =>
    exact .single (.work _ (worked_acceptCommit hordered hphase hprepared hnewC hcounter' hconfirm
      haccepts))
  | confirmCommit c₁ newC newH hphase hnewC hcounter' hcommit hratifies hsend =>
    have hwork : Part ctx arrives c (recorded ctx true (Scp.confirmCommit newC newH c)) :=
      .work true (worked_confirmCommit hordered hphase hnewC hcounter' hcommit)
    have hreport : Part ctx arrives c₁ (reportExternalized newC.value c₁) :=
      .silent ⟨rfl, rfl, rfl, Appends.notify _ rfl⟩ rfl
    rcases hsend with rfl | rfl
    · exact .tail (.single hwork) hreport
    · exact .tail (.tail (.single hwork) (.send _)) hreport
  | bump value counter hnonzero =>
    refine .single (.work _ (worked_bump hordered fun hnone => ?_))
    exact (hnonzero hnone).elim id (hcounter counter)

end Henyey.Scp
