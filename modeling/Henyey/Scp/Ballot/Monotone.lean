import Henyey.Scp.Ballot.SelfStatements

/-!
# Monotone self-statements

What is stored for the node itself is always the statement of the state it is
in, everything the node said before is older, and so is everything it sent.
-/

namespace Henyey.Scp

open Ballot Option

variable {N V H : Type} [LinearOrder V]

/-! ### The order of the node's statements -/

namespace SameOrNewer

variable {a b c : Option (ScpStatement N V H)}

theorem refl (a : Option (ScpStatement N V H)) : SameOrNewer a a := .inl rfl

theorem of_newer {st st' : ScpStatement N V H} (hnewer : isNewerBallotSt st st' = true) :
    SameOrNewer (some st) (some st') :=
  .inr ⟨st, rfl, st', rfl, hnewer⟩

/-- Newer than something at least as new. -/
theorem newer_of_newer {st st' : ScpStatement N V H} (hle : SameOrNewer (some st) b)
    (hnewer : ∀ mid ∈ b, isNewerBallotSt mid st' = true) : isNewerBallotSt st st' = true := by
  rcases hle with rfl | ⟨old, hold, mid, hmid, hnewer'⟩
  · exact hnewer st rfl
  · obtain rfl := some.inj hold
    exact isNewerBallotSt_trans hnewer' (hnewer mid hmid)

end SameOrNewer

variable {st : ScpStatement N V H}

theorem isNewerStatement_iff [DecidableEq N] {s : BallotProtocol N V H} {node : N}
    : isNewerStatement s node st = true ↔
      ∀ old ∈ s.latestEnvelopes.statement? node, isNewerBallotSt old st = true := by
  unfold isNewerStatement
  cases s.latestEnvelopes.statement? node <;> simp

/-! ### The invariant -/

/-- Each envelope is newer than all that were sent before it. -/
def Rising (envelopes : List (ScpEnvelope N V H)) : Prop :=
  envelopes.Pairwise fun later earlier =>
    isNewerBallotSt earlier.statement later.statement = true

variable [OrderBot V] [DecidableEq N] [DecidableEq H]

/-- How the recording of an own statement may go: it is sane, and it is
recorded as newer than what is stored, or it is what is stored. -/
def Heard (ctx : SlotContext N V H) (stored : Option (ScpStatement N V H)) (st : ScpStatement N V H)
    (outcome : SelfOutcome) : Prop :=
  (∀ driver, isStatementSane { ctx with driver := driver } st = true) ∧
    (outcome = .recorded ∧ (∀ old ∈ stored, isNewerBallotSt old st = true) ∨
      outcome = .notNewer ∧ stored = some st)

/-- What is stored for the node is the statement of its state, unless nothing
happened yet. -/
def InStep (ctx : SlotContext N V H) (c : Ballot N V H) : Prop :=
  storedSelf ctx c.state = selfStatement ctx c.state.toBallots ∨
    storedSelf ctx c.state = none ∧ c.state.Fresh

/-- Everything about the node's own statements that a part of a step keeps. -/
structure Speaks (ctx : SlotContext N V H) (c : Ballot N V H) : Prop where
  ordered : c.state.Ordered
  sayable : c.state.Sayable
  said : ∀ st, Said c st → SameOrNewer (some st) (storedSelf ctx c.state)
  heard : ∀ stored st outcome, .selfStatement stored st outcome ∈ c.log →
    Heard ctx stored st outcome
  last : ∀ l ∈ c.state.lastEnvelope, SameOrNewer (some l.statement) (storedSelf ctx c.state)
  sent : ∀ e ∈ c.state.lastEnvelopeEmit, ∃ l ∈ c.state.lastEnvelope,
    l = e ∨ isNewerBallotSt e.statement l.statement = true
  head : (emitted c.log).head? = c.state.lastEnvelopeEmit
  rising : Rising (emitted c.log)

variable {ctx : SlotContext N V H} {arrives : Arrival N V H → Prop} {c d : Ballot N V H}

omit [OrderBot V] in
theorem speaks_new : Speaks ctx (new : Ballot N V H) where
  ordered := Ballots.ordered_new
  sayable := ⟨by simp [new, BallotProtocol.new, Ballots.new],
    by simp [new, BallotProtocol.new, Ballots.new], .inl ⟨rfl, rfl, rfl, rfl, rfl, rfl⟩⟩
  said := by simp [Said, new]
  heard := by simp [new]
  last := by simp [new, BallotProtocol.new]
  sent := by simp [new, BallotProtocol.new]
  head := rfl
  rising := List.Pairwise.nil

omit [OrderBot V] in
theorem Speaks.withDriver (driver : SCPDriver N V H) (hspeaks : Speaks ctx c) :
    Speaks { ctx with driver := driver } c :=
  ⟨hspeaks.ordered, hspeaks.sayable, hspeaks.said, hspeaks.heard, hspeaks.last, hspeaks.sent,
    hspeaks.head, hspeaks.rising⟩

omit [DecidableEq H] in
theorem inStep_new : InStep ctx (new : Ballot N V H) :=
  .inr ⟨by simp [storedSelf, new, BallotProtocol.new], rfl, rfl, rfl, rfl, rfl, rfl⟩

/-! ### Silence, sends and arrivals -/

omit [LinearOrder V] [OrderBot V] [DecidableEq N] [DecidableEq H] in
theorem emittedEnvelope_of_silent {e : ScpEvent N V H} (hsilent : e.silent = true) :
    e.emittedEnvelope = none := by
  cases e <;> simp_all [ScpEvent.silent, ScpEvent.emittedEnvelope]

omit [OrderBot V] [DecidableEq H] in
omit [LinearOrder V] in
theorem Unspoken.storedSelf_eq (hunspoken : Unspoken c d) :
    storedSelf ctx d.state = storedSelf ctx c.state := by
  rw [storedSelf, storedSelf, hunspoken.latestEnvelopes]

omit [OrderBot V] in
theorem Speaks.unspoken (hspeaks : Speaks ctx c) (hunspoken : Unspoken c d)
    (hordered : d.state.Ordered) (hsayable : d.state.Sayable) : Speaks ctx d := by
  have hstored : storedSelf ctx d.state = storedSelf ctx c.state := hunspoken.storedSelf_eq
  have hlog {stored : Option (ScpStatement N V H)} {st : ScpStatement N V H}
      {outcome : SelfOutcome} (hmem : .selfStatement stored st outcome ∈ d.log) :
      .selfStatement stored st outcome ∈ c.log :=
    (hunspoken.log.mem_iff (by simp [ScpEvent.silent])).mp hmem
  have hemitted : emitted d.log = emitted c.log :=
    hunspoken.log.filterMap_eq fun e he => emittedEnvelope_of_silent he
  exact
    { ordered := hordered
      sayable := hsayable
      said := by
        rintro st ⟨stored, outcome, hmem⟩
        rw [hstored]
        exact hspeaks.said st ⟨stored, outcome, hlog hmem⟩
      heard := fun stored st outcome hmem => hspeaks.heard stored st outcome (hlog hmem)
      last := by
        rw [hunspoken.lastEnvelope, hstored]
        exact hspeaks.last
      sent := by
        rw [hunspoken.lastEnvelope, hunspoken.lastEnvelopeEmit]
        exact hspeaks.sent
      head := by
        rw [hemitted, hunspoken.lastEnvelopeEmit]
        exact hspeaks.head
      rising := hemitted ▸ hspeaks.rising }

omit [OrderBot V] [DecidableEq N] [DecidableEq H] in
theorem Rising.cons {envelopes : List (ScpEnvelope N V H)} {envelope : ScpEnvelope N V H}
    (hrising : Rising envelopes) (hnewer : ∀ e ∈ envelopes.head?,
      isNewerBallotSt e.statement envelope.statement = true) : Rising (envelope :: envelopes) := by
  refine List.pairwise_cons.mpr ⟨?_, hrising⟩
  cases envelopes with
  | nil => simp
  | cons last older =>
    have hlast := hnewer last rfl
    obtain ⟨holder, _⟩ := List.pairwise_cons.mp hrising
    intro e he
    rcases List.mem_cons.mp he with rfl | he
    · exact hlast
    · exact isNewerBallotSt_trans (holder e he) hlast

omit [OrderBot V] in
theorem Speaks.send (hspeaks : Speaks ctx c) : Speaks ctx (sendLatestEnvelope c) := by
  rcases sendLatestEnvelope_cases c with h | ⟨envelope, _, hlast, hemit, h⟩
  · rw [h]
    exact hspeaks
  rw [h]
  have hnewer : ∀ e ∈ (emitted c.log).head?,
      isNewerBallotSt e.statement envelope.statement = true := by
    rw [hspeaks.head]
    intro e he
    obtain ⟨l, hl, hcases⟩ := hspeaks.sent e he
    obtain rfl : l = envelope := mem_unique hl hlast
    rcases hcases with rfl | hnewer
    · exact absurd he hemit
    · exact hnewer
  exact
    { __ := hspeaks
      said := by
        rintro st ⟨stored, outcome, hmem⟩
        exact hspeaks.said st ⟨stored, outcome, List.mem_of_ne_of_mem (by simp) hmem⟩
      heard := fun stored st outcome hmem =>
        hspeaks.heard stored st outcome (List.mem_of_ne_of_mem (by simp) hmem)
      sent := by
        intro e he
        obtain rfl := some.inj he
        exact ⟨envelope, hlast, .inl rfl⟩
      head := rfl
      rising := hspeaks.rising.cons hnewer }

omit [OrderBot V] in
/-- The node's own statements come back without effect, the others are kept
apart. -/
theorem Speaks.receive (hspeaks : Speaks ctx c) {envelope : ScpEnvelope N V H}
    (hown : envelope.statement.nodeId = ctx.localNodeId → Said c envelope.statement)
    (hnewer : isNewerStatement c.state envelope.statement.nodeId envelope.statement = true) :
    Speaks ctx (c.modify (storeEnvelope envelope)) ∧
      storedSelf ctx (c.modify (storeEnvelope envelope)).state = storedSelf ctx c.state := by
  have hother : ctx.localNodeId ≠ envelope.statement.nodeId := by
    intro hnode
    have hle := hspeaks.said _ (hown hnode.symm)
    rw [← hnode, isNewerStatement_iff] at hnewer
    have hself := hle.newer_of_newer hnewer
    simp [not_isNewerBallotSt_self] at hself
  have hstored : storedSelf ctx (c.modify (storeEnvelope envelope)).state =
      storedSelf ctx c.state := by
    simp [storedSelf, storeEnvelope, hother]
  refine ⟨?_, hstored⟩
  exact
    { __ := hspeaks
      said := fun st hsaid => hstored ▸ hspeaks.said st hsaid
      last := by
        rw [hstored]
        exact hspeaks.last }

/-! ### Recording a changed state -/

/-- The statement was recorded; what had been prepared to be sent is sent later
or replaced by it. -/
structure RecordedAs (ctx : SlotContext N V H) (st : ScpStatement N V H) (d e : Ballot N V H) :
    Prop where
  toBallots : e.state.toBallots = d.state.toBallots
  stored : storedSelf ctx e.state = some st
  lastEnvelope : e.state.lastEnvelope = d.state.lastEnvelope ∨
    ∃ envelope, e.state.lastEnvelope = some envelope ∧ envelope.statement = st
  lastEnvelopeEmit : e.state.lastEnvelopeEmit = d.state.lastEnvelopeEmit
  log : ∃ mid, Appends (fun e => e.silent = true) d mid ∧
    e.log = .selfStatement (storedSelf ctx d.state) st .recorded :: mid.log

variable {pledges : ScpStatementPledges V H}

omit [LinearOrder V] [OrderBot V] [DecidableEq H] in
theorem recordedAs_storeSelf {canEmit : Bool} (hunspoken : Unspoken c d)
    (hsame : d.state.toBallots = c.state.toBallots) :
    RecordedAs ctx (localStatement ctx pledges) c
      ((d.modify (storeSelf ctx (createSignedEnvelope ctx pledges) canEmit)).notify
        (.selfStatement (storedSelf ctx c.state) (localStatement ctx pledges) .recorded)) where
  toBallots := hsame
  stored := by simp [storedSelf, storeSelf, createSignedEnvelope]
  lastEnvelope := by
    change (if canEmit then some (createSignedEnvelope ctx pledges) else d.state.lastEnvelope) =
        c.state.lastEnvelope ∨ _
    cases canEmit with
    | false => exact .inl hunspoken.lastEnvelope
    | true => exact .inr ⟨createSignedEnvelope ctx pledges, rfl, rfl⟩
  lastEnvelopeEmit := hunspoken.lastEnvelopeEmit
  log := ⟨d, hunspoken.log, rfl⟩

omit [OrderBot V] [DecidableEq N] [DecidableEq H] in
theorem unspoken_validated : Unspoken c (validated ctx st c) := by
  obtain ⟨_, new, hlog, hkind, _⟩ := validateStatementValues_trace ctx.driver st (noteCheck c)
  have hcheck : Appends (fun e : ScpEvent N V H => e.silent = true) c (noteCheck c) :=
    Appends.notify c rfl
  have hstate := validated_state ctx st c
  refine ⟨by rw [hstate], by rw [hstate], by rw [hstate], hcheck.trans ⟨new, hlog, fun e he => ?_⟩⟩
  obtain ⟨value, answer, rfl⟩ := hkind e he
  rfl

omit [OrderBot V] [DecidableEq N] [DecidableEq H] in
omit [LinearOrder V] in
theorem Unspoken.clearValidation (hunspoken : Unspoken c d) (validation : ValidationLevel) :
    Unspoken c (d.modify (Scp.clearValidation validation)) := by
  refine ⟨?_, ?_, ?_, hunspoken.log⟩
  · simpa using hunspoken.latestEnvelopes
  · rw [← hunspoken.lastEnvelope]
    unfold Scp.clearValidation
    simp only [Traced.modify_state]
    split <;> rfl
  · rw [← hunspoken.lastEnvelopeEmit]
    unfold Scp.clearValidation
    simp only [Traced.modify_state]
    split <;> rfl

omit [DecidableEq H] [OrderBot V] [DecidableEq N] in
theorem validate_ne_invalid (hvalues : getStatementValues st ≠ [])
    (hvalid : ∀ value, .validateValue value false .invalid ∉ (validated ctx st c).log) :
    (validateStatementValues ctx.driver st (noteCheck c)).1 ≠ .invalid := by
  obtain ⟨_, new, hlog, _, hinvalid⟩ := validateStatementValues_trace ctx.driver st (noteCheck c)
  intro heq
  rcases hinvalid heq with hnil | ⟨value, hmem⟩
  · exact hvalues hnil
  · apply hvalid value
    unfold validated
    rw [hlog]
    exact List.mem_append_left _ hmem

section

omit [DecidableEq N] [DecidableEq H]

/-- An ordered state has something to say. -/
theorem exists_selfPledges (ctx : SlotContext N V H) {s : Ballots V} (hordered : s.Ordered) :
    ∃ pledges canEmit, selfPledges ctx s = some (pledges, canEmit) := by
  unfold selfPledges
  cases hphase : s.phase with
  | prepare => exact ⟨_, _, rfl⟩
  | confirm =>
    obtain ⟨⟨high, hmem, _⟩, _⟩ := hordered.confirmed (by simp [hphase])
    obtain ⟨b, hb, _⟩ := hordered.high high hmem
    rw [mem_def] at hb
    simp [hb]
  | externalize =>
    obtain ⟨commit, hcommit⟩ := ne_none_iff_exists'.mp (hordered.externalized hphase)
    simp [hcommit]

theorem selfPledges_matchesCommit {s : Ballots V} (hphase : s.phase = .externalize) {canEmit : Bool}
    (hpledges : selfPledges ctx s = some (pledges, canEmit)) :
    statementValueMatchesCommit s (localStatement ctx pledges) = true := by
  unfold selfPledges at hpledges
  rw [hphase] at hpledges
  obtain ⟨commit, hcommit, heq⟩ := map_eq_some_iff.mp hpledges
  obtain ⟨rfl, -⟩ := Prod.mk.inj heq
  simp [statementValueMatchesCommit, localStatement, hcommit]

end

/-- The recording of a sayable state that is not fresh: either its statement is
not newer than the stored one, or it is recorded. -/
theorem recorded_cases (hsane : ctx.localQuorumSet.sane = true) (hordered : d.state.Ordered)
    (hsayable : d.state.Sayable) (hfresh : ¬d.state.Fresh)
    (hvalid : ∀ value, .validateValue value false .invalid ∉ (recorded ctx true d).log) :
    ∃ st ∈ selfStatement ctx d.state.toBallots,
      (∀ driver, isStatementSane { ctx with driver := driver } st = true) ∧
        ((isNewerStatement d.state ctx.localNodeId st = false ∧
            recorded ctx true d = (noteCheck d).notify
              (.selfStatement (storedSelf ctx d.state) st .notNewer)) ∨
          (isNewerStatement d.state ctx.localNodeId st = true ∧
            RecordedAs ctx st d (recorded ctx true d))) := by
  obtain ⟨pledges, canEmit, hpledges⟩ := exists_selfPledges ctx hordered
  have hstatement : localStatement ctx pledges ∈ selfStatement ctx d.state.toBallots := by
    simp [selfStatement, hpledges]
  have hsane' (driver : SCPDriver N V H) :
      isStatementSane { ctx with driver := driver } (localStatement ctx pledges) = true :=
    localStatement_sane hsane hordered hsayable hpledges
  have hvalues := getStatementValues_selfPledges hsayable hfresh hpledges
  have hunique {pledges' : ScpStatementPledges V H} {canEmit' : Bool}
      (hpledges' : selfPledges ctx d.state.toBallots = some (pledges', canEmit')) :
      pledges' = pledges := (Prod.mk.inj (some.inj (hpledges'.symm.trans hpledges))).1
  refine ⟨localStatement ctx pledges, hstatement, hsane', ?_⟩
  have hcases := recordCurrentState_cases ctx d
  change (∀ value, .validateValue value false .invalid ∉ (recordCurrentState ctx d).2.log) at hvalid
  change (_ ∧ (recordCurrentState ctx d).2 = _) ∨ (_ ∧ RecordedAs ctx _ d (recordCurrentState ctx d).2)
  cases hrecord : recordCurrentState ctx d with
  | mk outcome e =>
    rw [hrecord] at hcases hvalid
    cases hcases with
    | unavailable hnone => simp [hnone] at hpledges
    | notSane pledges' canEmit' hpledges' hinsane =>
      obtain rfl := hunique hpledges'
      have hsane' := hsane' ctx.driver
      rw [hinsane] at hsane'
      simp at hsane'
    | notNewer pledges' canEmit' hpledges' hnewer =>
      obtain rfl := hunique hpledges'
      exact .inl ⟨hnewer, rfl⟩
    | invalid pledges' canEmit' hpledges' hinvalid =>
      obtain rfl := hunique hpledges'
      refine absurd hinvalid (validate_ne_invalid hvalues fun value hmem => ?_)
      exact hvalid value (List.mem_cons_of_mem _ hmem)
    | valueMismatch pledges' canEmit' hpledges' hphase hmatches =>
      rw [selfPledges_matchesCommit hphase hpledges'] at hmatches
      simp at hmatches
    | advance pledges' canEmit' validation hpledges' hsane hnewer hphase =>
      obtain rfl := hunique hpledges'
      refine .inr ⟨hnewer, recordedAs_storeSelf ?_ ?_⟩
      · exact unspoken_validated.clearValidation validation
      · simp
    | final pledges' canEmit' hpledges' hsane hnewer hphase =>
      obtain rfl := hunique hpledges'
      refine .inr ⟨hnewer, recordedAs_storeSelf unspoken_validated ?_⟩
      simp

omit [OrderBot V] in
/-- The statement is the stored one: nothing happens. -/
theorem Speaks.repeated (hspeaks : Speaks ctx d)
    (hsane : ∀ driver, isStatementSane { ctx with driver := driver } st = true)
    (hsame : storedSelf ctx d.state = some st) :
    Speaks ctx ((noteCheck d).notify (.selfStatement (storedSelf ctx d.state) st .notNewer)) where
  __ := hspeaks
  said := by
    rintro st' ⟨stored, outcome, hmem⟩
    change SameOrNewer (some st') (storedSelf ctx d.state)
    rcases List.mem_cons.mp hmem with heq | hmem
    · obtain ⟨-, rfl, -⟩ := ScpEvent.selfStatement.inj heq
      rw [hsame]
      exact .refl _
    · exact hspeaks.said st' ⟨stored, outcome, List.mem_of_ne_of_mem (by simp) hmem⟩
  heard := by
    intro stored st' outcome hmem
    rcases List.mem_cons.mp hmem with heq | hmem
    · obtain ⟨rfl, rfl, rfl⟩ := ScpEvent.selfStatement.inj heq
      exact ⟨hsane, .inr ⟨rfl, hsame⟩⟩
    · exact hspeaks.heard stored st' outcome (List.mem_of_ne_of_mem (by simp) hmem)

omit [OrderBot V] in
/-- A newer statement takes the place of the stored one. -/
theorem Speaks.advanced {e : Ballot N V H} (hspeaks : Speaks ctx d)
    (hsane : ∀ driver, isStatementSane { ctx with driver := driver } st = true)
    (hnewer : ∀ old ∈ storedSelf ctx d.state, isNewerBallotSt old st = true)
    (hrecorded : RecordedAs ctx st d e) : Speaks ctx e := by
  obtain ⟨mid, hsilent, hlog⟩ := hrecorded.log
  have hold {stored : Option (ScpStatement N V H)} {st' : ScpStatement N V H}
      {outcome : SelfOutcome} (hmem : .selfStatement stored st' outcome ∈ e.log) :
      (stored = storedSelf ctx d.state ∧ st' = st ∧ outcome = .recorded) ∨
        .selfStatement stored st' outcome ∈ d.log := by
    rw [hlog] at hmem
    rcases List.mem_cons.mp hmem with heq | hmem
    · exact .inl (ScpEvent.selfStatement.inj heq)
    · exact .inr ((hsilent.mem_iff (by simp [ScpEvent.silent])).mp hmem)
  have hraised {old : ScpStatement N V H} (hle : SameOrNewer (some old) (storedSelf ctx d.state)) :
      SameOrNewer (some old) (storedSelf ctx e.state) := by
    rw [hrecorded.stored]
    exact .of_newer (hle.newer_of_newer hnewer)
  have hemitted : emitted e.log = emitted d.log := by
    unfold emitted
    rw [hlog]
    exact hsilent.filterMap_eq fun e he => emittedEnvelope_of_silent he
  exact
    { ordered := hrecorded.toBallots ▸ hspeaks.ordered
      sayable := hrecorded.toBallots ▸ hspeaks.sayable
      said := by
        rintro st' ⟨stored, outcome, hmem⟩
        rcases hold hmem with ⟨-, rfl, -⟩ | hmem
        · rw [hrecorded.stored]
          exact .refl _
        · exact hraised (hspeaks.said st' ⟨stored, outcome, hmem⟩)
      heard := by
        intro stored st' outcome hmem
        rcases hold hmem with ⟨rfl, rfl, rfl⟩ | hmem
        · exact ⟨hsane, .inl ⟨rfl, hnewer⟩⟩
        · exact hspeaks.heard stored st' outcome hmem
      last := by
        intro l hl
        rcases hrecorded.lastEnvelope with hkept | ⟨envelope, hreplaced, heq⟩
        · rw [hkept] at hl
          exact hraised (hspeaks.last l hl)
        · obtain rfl := mem_unique hl hreplaced
          rw [hrecorded.stored, heq]
          exact .refl _
      sent := by
        intro earlier hearlier
        rw [hrecorded.lastEnvelopeEmit] at hearlier
        obtain ⟨l, hl, hcases⟩ := hspeaks.sent earlier hearlier
        rcases hrecorded.lastEnvelope with hkept | ⟨envelope, hreplaced, heq⟩
        · exact ⟨l, hkept ▸ hl, hcases⟩
        · refine ⟨envelope, hreplaced, .inr ?_⟩
          have hnewer' := (hspeaks.last l hl).newer_of_newer hnewer
          rw [heq]
          rcases hcases with rfl | hlt
          · exact hnewer'
          · exact isNewerBallotSt_trans hlt hnewer'
      head := by
        rw [hemitted, hrecorded.lastEnvelopeEmit]
        exact hspeaks.head
      rising := hemitted ▸ hspeaks.rising }

/-- Once the statement of a changed state is recorded, the node is in step
again. -/
theorem Speaks.recorded (hsane : ctx.localQuorumSet.sane = true) (hspeaks : Speaks ctx d)
    (hfresh : ¬d.state.Fresh) (hlag : storedSelf ctx d.state = none ∨
      SameOrNewer (storedSelf ctx d.state) (selfStatement ctx d.state.toBallots))
    (hvalid : ∀ value, .validateValue value false .invalid ∉ (recorded ctx true d).log) :
    Speaks ctx (recorded ctx true d) ∧ InStep ctx (recorded ctx true d) := by
  obtain ⟨st, hst, hsane', ⟨hnewer, heq⟩ | ⟨hnewer, hrecorded⟩⟩ :=
    recorded_cases hsane hspeaks.ordered hspeaks.sayable hfresh hvalid
  · -- Not newer, so the statement is the stored one.
    have hsame : storedSelf ctx d.state = some st := by
      have hne : isNewerStatement d.state ctx.localNodeId st ≠ true := by simp [hnewer]
      rw [ne_eq, isNewerStatement_iff] at hne
      rcases hlag with hnone | hsame | ⟨old, hold, new, hnew, hlt⟩
      · refine absurd (fun old hold => ?_) hne
        change old ∈ storedSelf ctx d.state at hold
        simp [hnone] at hold
      · rw [← hsame]
        exact hst
      · refine absurd (fun old' hold' => ?_) hne
        obtain rfl := mem_unique hold hold'
        obtain rfl := mem_unique hnew hst
        exact hlt
    rw [heq]
    refine ⟨hspeaks.repeated hsane' hsame, .inl ?_⟩
    change storedSelf ctx d.state = selfStatement ctx d.state.toBallots
    rw [hsame]
    exact hst.symm
  · refine ⟨hspeaks.advanced hsane' (isNewerStatement_iff.mp hnewer) hrecorded, .inl ?_⟩
    rw [hrecorded.stored, hrecorded.toBallots]
    exact hst.symm

/-! ### Every part, every step, every run -/

omit [DecidableEq H] in
theorem InStep.ownPrepared (hinStep : InStep ctx c) (hordered : c.state.Ordered)
    (hphase : c.state.phase = .prepare) : OwnPrepared ctx c.state := by
  intro st hst ballot hprepared
  change storedSelf ctx c.state = some st at hst
  rcases hinStep with heq | ⟨hnone, _⟩
  · rw [hst, selfStatement_prepare hphase] at heq
    obtain rfl := some.inj heq
    have hle {p : Option (ScpBallot V)} (hany : p.any (areBallotsLessAndCompatible ballot) = true) :
        ∃ q ∈ p, ballot ≤ q := by
      obtain ⟨q, hq, hcompatible⟩ := (any_eq_true _ _).mp hany
      exact ⟨q, hq, (areBallotsLessAndCompatible_iff.mp hcompatible).1⟩
    rcases (Bool.or_eq_true _ _).mp hprepared with hany | hany
    · exact hle hany
    · obtain ⟨p', hp', hle'⟩ := hle hany
      obtain ⟨p, hp, hlt, _⟩ := hordered.prime p' hp'
      exact ⟨p, hp, hle'.trans hlt.le⟩
  · simp [hnone] at hst

/-- A part keeps the node in step and what it says rising, as long as nobody
else speaks for it and the driver accepts its values. -/
theorem Part.speaks (hsane : ctx.localQuorumSet.sane = true) (hpart : Part ctx arrives c d)
    (hown : ∀ envelope, arrives (.statement envelope) →
      envelope.statement.nodeId = ctx.localNodeId → Said c envelope.statement)
    (hvalid : ∀ value, .validateValue value false .invalid ∉ d.log)
    (hspeaks : Speaks ctx c) (hinStep : InStep ctx c) : Speaks ctx d ∧ InStep ctx d := by
  cases hpart with
  | silent hunspoken hsame =>
    refine ⟨hspeaks.unspoken hunspoken (hsame ▸ hspeaks.ordered) (hsame ▸ hspeaks.sayable), ?_⟩
    rw [InStep, hunspoken.storedSelf_eq, hsame]
    exact hinStep
  | send =>
    refine ⟨hspeaks.send, ?_⟩
    rw [InStep, storedSelf, sendLatestEnvelope_latestEnvelopes, sendLatestEnvelope_toBallots]
    exact hinStep
  | receive envelope harrives hnewer =>
    obtain ⟨hspeaks', hstored⟩ := hspeaks.receive (hown envelope harrives) hnewer
    refine ⟨hspeaks', ?_⟩
    rw [InStep, hstored]
    exact hinStep
  | @work d didWork hworked =>
    have hordered := hworked.change.ordered hspeaks.ordered
    have hsayable := hworked.sayable hspeaks.sayable
      (fun hphase => hinStep.ownPrepared hspeaks.ordered hphase)
    have hchanged := hspeaks.unspoken hworked.unspoken hordered hsayable
    have hstored : storedSelf ctx d.state = storedSelf ctx c.state := hworked.unspoken.storedSelf_eq
    cases didWork with
    | false =>
      obtain ⟨hsame, hfresh⟩ := hworked.same rfl
      refine ⟨hchanged, ?_⟩
      change InStep ctx d
      rw [InStep, hstored, hsame]
      exact hinStep.imp_right (And.imp_right hfresh)
    | true =>
      apply hchanged.recorded hsane (hworked.notFresh rfl) ?_ hvalid
      rw [hstored]
      rcases hinStep with heq | ⟨hnone, _⟩
      · right
        rw [heq]
        exact hworked.change.sameOrNewer hspeaks.ordered
      · exact .inl hnone

theorem Part.subset (hpart : Part ctx arrives c d) {e : ScpEvent N V H} (he : e ∈ c.log) :
    e ∈ d.log := by
  cases hpart with
  | silent hunspoken hsame => exact hunspoken.log.subset he
  | send => exact (sendLatestEnvelope_appends c).subset he
  | receive envelope harrives hnewer => exact he
  | work didWork hworked => exact (recorded_appends ctx _ _).subset (hworked.unspoken.log.subset he)

theorem Said.parts (hsaid : Said c st)
    (hparts : Relation.ReflTransGen (Part ctx arrives) c d) : Said d st := by
  induction hparts with
  | refl => exact hsaid
  | tail hparts hpart ih =>
    obtain ⟨stored, outcome, hmem⟩ := ih
    exact ⟨stored, outcome, hpart.subset hmem⟩

theorem parts_speak (hsane : ctx.localQuorumSet.sane = true)
    (hparts : Relation.ReflTransGen (Part ctx arrives) c d)
    (hown : ∀ envelope, arrives (.statement envelope) →
      envelope.statement.nodeId = ctx.localNodeId → Said c envelope.statement)
    (hvalid : ∀ value, .validateValue value false .invalid ∉ d.log)
    (hspeaks : Speaks ctx c) (hinStep : InStep ctx c) : Speaks ctx d ∧ InStep ctx d := by
  induction hparts with
  | refl => exact ⟨hspeaks, hinStep⟩
  | tail hparts hpart ih =>
    obtain ⟨hspeaks', hinStep'⟩ := ih fun value hmem => hvalid value (hpart.subset hmem)
    refine hpart.speaks hsane (fun envelope harrives hnode => ?_) hvalid hspeaks' hinStep'
    exact (hown envelope harrives hnode).parts hparts

theorem Steps.parts (hordered : c.state.Ordered)
    (hcounter : ∀ counter, arrives (.bumpTo counter) → counter ≠ 0)
    (hsteps : Steps ctx arrives c d) : Relation.ReflTransGen (Part ctx arrives) c d := by
  induction hsteps with
  | refl => exact .refl
  | tail hsteps hstep ih => exact ih.trans (hstep.parts (Steps.ordered hordered hsteps) hcounter)

/-- An envelope in the node's own name comes from the node, and bumps that are
asked for have a counter. -/
def ownOp (ctx : SlotContext N V H) : Admits N V H
  | c, _, .processEnvelope envelope _ =>
    envelope.statement.nodeId = ctx.localNodeId → Said c envelope.statement
  | _, _, .bumpState _ counter => counter ≠ 0
  | _, _, _ => True

/-- In every run under a driver that accepts the node's own values, each own
statement is sane and is recorded as newer or is the stored one, the envelopes
that are sent keep getting newer, and the stored statement is that of the
current state. -/
theorem selfStatements_monotone (hsane : ctx.localQuorumSet.sane = true)
    (hrun : BallotRun ctx (ownOp ctx) c)
    (hvalid : ∀ value, .validateValue value false .invalid ∉ c.log) :
    (∀ stored st outcome, .selfStatement stored st outcome ∈ c.log → Heard ctx stored st outcome) ∧
      Rising (emitted c.log) ∧ InStep ctx c := by
  have hinvariant : (∀ value, .validateValue value false .invalid ∉ c.log) →
      Speaks ctx c ∧ InStep ctx c := by
    refine BallotRun.invariant (fun c => (∀ value, .validateValue value false .invalid ∉ c.log) →
      Speaks ctx c ∧ InStep ctx c) (fun _ => ⟨speaks_new, inStep_new⟩) ?_ hrun
    intro driver op start hstart hallowed c c' hordered hsteps hstep hbefore hvalid
    have hcounter : ∀ counter, op.brings (.bumpTo counter) → counter ≠ 0 := by
      intro counter hbrings
      cases op with
      | bumpState value asked =>
        obtain rfl : counter = asked := hbrings
        exact hallowed
      | _ => exact hbrings.elim
    have hown : ∀ envelope, op.brings (.statement envelope) →
        envelope.statement.nodeId = ctx.localNodeId → Said c envelope.statement := by
      intro envelope hbrings hnode
      cases op with
      | processEnvelope received validation =>
        obtain rfl : envelope = received := hbrings
        exact (hallowed hnode).parts (Steps.parts hstart hcounter hsteps)
      | _ => exact hbrings.elim
    have hparts := hstep.parts hordered hcounter
    have hgrows : ∀ e ∈ c.log, e ∈ c'.log := fun e he => (hstep.appends hordered).subset he
    obtain ⟨hspeaks, hinStep⟩ := hbefore fun value hmem => hvalid value (hgrows _ hmem)
    have hsane' : ({ ctx with driver := driver } : SlotContext N V H).localQuorumSet.sane = true :=
      hsane
    have hspeaks' := parts_speak hsane' hparts hown hvalid (hspeaks.withDriver driver) hinStep
    exact hspeaks'.imp_left fun h => h.withDriver ctx.driver
  obtain ⟨hspeaks, hinStep⟩ := hinvariant hvalid
  exact ⟨hspeaks.heard, hspeaks.rising, hinStep⟩

/-! ### A node that follows its peer -/

/-- The node asks for itself and one peer. -/
def pairedNode : SlotContext ℕ ℕ Unit := .permissive 0 (simpleQuorumSet 2 [0, 1])

def peerExternalized : ScpEnvelope ℕ ℕ Unit where
  statement :=
    { nodeId := 1
      slotIndex := 1
      pledges := .externalize { commit := ⟨1, 7⟩, nH := 1, commitQuorumSetHash := () } }
  signature := []

/-- The node proposes a value and then hears from its peer. -/
def followingRun : Except Abort (Ballot ℕ ℕ Unit × Ballot ℕ ℕ Unit) := do
  let bumped ← execOp pairedNode 8 (.bump 7 false) new
  let followed ← execOp pairedNode 8 (.processEnvelope peerExternalized .fullyValidated) bumped
  .ok (bumped, followed)

theorem followingRun_returns : ∃ c c', execOp pairedNode 8 (.bump 7 false) new = .ok c ∧
    execOp pairedNode 8 (.processEnvelope peerExternalized .fullyValidated) c = .ok c' ∧
      (emitted c'.log).length = 2 ∧ ∀ value, .validateValue value false .invalid ∉ c'.log := by
  have hcheck : (match followingRun with
      | .ok (_, c') => decide ((emitted c'.log).length = 2) && c'.log.all (fun e =>
        match e with
        | .validateValue _ false .invalid => false
        | _ => true)
      | .error _ => false) = true := by decide +kernel
  unfold followingRun at hcheck
  cases hbump : execOp pairedNode 8 (.bump 7 false) new with
  | error e =>
    rw [hbump] at hcheck
    simp [Bind.bind, Except.bind] at hcheck
  | ok c =>
    rw [hbump] at hcheck
    cases hfollow : execOp pairedNode 8 (.processEnvelope peerExternalized .fullyValidated) c with
    | error e =>
      simp [Bind.bind, Except.bind, hfollow] at hcheck
    | ok c' =>
      simp only [Bind.bind, Except.bind, hfollow, Bool.and_eq_true, decide_eq_true_eq,
        List.all_eq_true] at hcheck
      refine ⟨c, c', rfl, hfollow, hcheck.1, fun value hmem => ?_⟩
      have hfine := hcheck.2 _ hmem
      simp at hfine

/-- The two envelopes that the node sent, and everything it said, kept rising. -/
theorem selfStatements_monotone_pairedNode : ∃ c : Ballot ℕ ℕ Unit, (emitted c.log).length = 2 ∧
      (∀ stored st outcome, .selfStatement stored st outcome ∈ c.log →
        Heard pairedNode stored st outcome) ∧ Rising (emitted c.log) ∧ InStep pairedNode c := by
  obtain ⟨c, c', hbump, hfollow, htwice, hvalid⟩ := followingRun_returns
  have hbumped : BallotRun pairedNode (ownOp pairedNode) c :=
    .op .new (.permissive (simpleQuorumSet 2 [0, 1])) (.bump 7 false) trivial 8 hbump
  have hfollowed : BallotRun pairedNode (ownOp pairedNode) c' :=
    .op hbumped (.permissive (simpleQuorumSet 2 [0, 1]))
      (.processEnvelope peerExternalized .fullyValidated)
      (fun hself => absurd hself (by decide)) 8 hfollow
  exact ⟨c', htwice, selfStatements_monotone (by decide +kernel) hfollowed hvalid⟩

end Henyey.Scp
