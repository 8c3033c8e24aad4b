import Henyey.Scp.Slot

/-!
# Externalization is final and reported once

The ballot protocol reports the committed value once, and nothing it decided
changes after that. Each call of a slot ends with the slot showing the value
that was reported.
-/

namespace Henyey.Scp

open Foundation Appends

variable {N V H : Type} [LinearOrder N] [LinearOrder V] [OrderBot V] [DecidableEq H]

section Ballot

variable {ctx : SlotContext N V H} {arrives : Arrival N V H → Prop} {c c' : Ballot N V H}

theorem Steps.reported (hordered : c.state.Ordered) (hsteps : Steps ctx arrives c c')
    (hreported : Reported c) : Reported c' := by
  induction hsteps with
  | refl => exact hreported
  | tail hsteps hstep ih => exact hstep.reported (Steps.ordered hordered hsteps) ih

theorem Steps.final (hordered : c.state.Ordered) (hsteps : Steps ctx arrives c c')
    (hphase : c.state.phase = .externalize) : c'.state.toBallots = c.state.toBallots := by
  induction hsteps with
  | refl => rfl
  | tail hsteps hstep ih =>
    have hchange := hstep.change (Steps.ordered hordered hsteps)
    rw [hchange.final (ih ▸ hphase), ih]

/-- Wherever a commit was confirmed, the decision state is what that call left. -/
def Decided (c : Ballot N V H) : Prop :=
  ∀ before newC newH, .transition before (.confirmCommit newC newH) ∈ c.log →
    c.state.toBallots = before.confirmed newC newH

theorem Step.decided (hordered : c.state.Ordered) (hstep : Step ctx arrives c c')
    (hdecided : Decided c) : Decided c' := by
  intro before newC newH hmem
  rcases (hstep.appends hordered).old_or hmem with hold | hnew
  · have hballots := hdecided before newC newH hold
    have hphase : c.state.phase = .externalize := by
      rw [hballots]
      rfl
    rw [(hstep.change hordered).final hphase, hballots]
  · cases hnew with
    | quiet hquiet => simp [ScpEvent.quiet] at hquiet
    | transition before call hother => exact absurd rfl (hother newC newH)
    | confirmCommit newC newH hbefore hafter => exact hafter

theorem Steps.decided (hordered : c.state.Ordered) (hsteps : Steps ctx arrives c c')
    (hdecided : Decided c) : Decided c' := by
  induction hsteps with
  | refl => exact hdecided
  | tail hsteps hstep ih => exact hstep.decided (Steps.ordered hordered hsteps) ih

end Ballot

omit [LinearOrder N] [LinearOrder V] [OrderBot V] [DecidableEq H] in
theorem reported_eq {σ : Type} {c c' : Traced σ N V H}
    (hlog : Appends (fun e => e.decides = false) c c') : reported c'.log = reported c.log := by
  refine hlog.filterMap_eq fun e he => ?_
  cases e <;> simp_all [ScpEvent.decides, ScpEvent.externalizedValue]

namespace Slot

/-! ### Moves -/

/-- What holds at any moment of a call: the ballot protocol reported what it
committed, and the slot shows nothing else. -/
structure Faithful (c : SlotTrace N V H) : Prop where
  ordered : c.state.ballot.Ordered
  reported : Reported (asBallot c)
  decided : Decided (asBallot c)
  shown : ∀ v ∈ c.state.externalizedValue, v ∈ Scp.reported c.log

omit [LinearOrder N] [OrderBot V] [DecidableEq H] in
theorem Faithful.not_reported {c : SlotTrace N V H} (h : Faithful c)
    (hphase : c.state.ballot.phase ≠ .externalize) : Scp.reported c.log = [] := by
  have hreported := h.reported
  unfold Reported at hreported
  rwa [if_neg (show ¬(asBallot c).state.phase = .externalize from hphase)] at hreported

/-- A part of a call. -/
structure Moves (c c' : SlotTrace N V H) : Prop where
  faithful : Faithful c → Faithful c'
  final : Faithful c → c.state.ballot.phase = .externalize →
    c'.state.ballot.toBallots = c.state.ballot.toBallots

namespace Moves

variable {a b c : SlotTrace N V H}

section

omit [LinearOrder N] [OrderBot V] [DecidableEq H]

theorem refl (c : SlotTrace N V H) : Moves c c := ⟨id, fun _ _ => rfl⟩

theorem trans (hab : Moves a b) (hbc : Moves b c) : Moves a c where
  faithful := fun h => hbc.faithful (hab.faithful h)
  final := by
    intro h hphase
    have hsame := hab.final h hphase
    rw [hbc.final (hab.faithful h) (hsame ▸ hphase), hsame]

/-- Neither the decision nor the report nor what is shown changed. -/
theorem of_same (hballots : b.state.ballot.toBallots = a.state.ballot.toBallots)
    (hlog : Appends (fun e => e.decides = false) a b)
    (hvalue : b.state.externalizedValue = a.state.externalizedValue) : Moves a b where
  faithful := fun h =>
    { ordered := hballots ▸ h.ordered
      reported := by
        have hbefore := h.reported
        unfold Reported asBallot at hbefore ⊢
        dsimp only at hbefore ⊢
        rw [reported_eq hlog, hballots]
        exact hbefore
      decided := by
        intro before newC newH hmem
        change b.state.ballot.toBallots = _
        rw [hballots]
        exact h.decided before newC newH ((hlog.mem_iff (by simp [ScpEvent.decides])).mp hmem)
      shown := by
        rw [hvalue, reported_eq hlog]
        exact h.shown }
  final := fun _ _ => hballots

theorem ite {p : Prop} [Decidable p] (hb : Moves a b) (hc : Moves a c) :
    Moves a (if p then b else c) := by
  split
  · exact hb
  · exact hc

end

theorem of_steps {ctx : SlotContext N V H} {arrives : Arrival N V H → Prop} {ballot : Ballot N V H}
    (hsteps : (asBallot a).state.Ordered → Steps ctx arrives (asBallot a) ballot) :
    Moves a (withBallot a ballot) where
  faithful := fun h =>
    have hsteps := hsteps h.ordered
    { ordered := Steps.ordered h.ordered hsteps
      reported := Steps.reported h.ordered hsteps h.reported
      decided := Steps.decided h.ordered hsteps h.decided
      shown := by
        intro v hv
        have hmem := h.shown v hv
        by_cases hphase : a.state.ballot.phase = .externalize
        · have hbefore := h.reported
          have hafter := Steps.reported h.ordered hsteps h.reported
          have hsame := Steps.final h.ordered hsteps hphase
          unfold Reported at hbefore hafter
          change v ∈ Scp.reported ballot.log
          rw [hafter, hsame, ← hbefore]
          exact hmem
        · simp [h.not_reported hphase] at hmem }
  final := fun h hphase => Steps.final h.ordered (hsteps h.ordered) hphase

omit [OrderBot V] [DecidableEq H] in
/-- The nomination protocol reports nothing. -/
theorem of_extends {n : Nomination N V H} (hextends : Extends (asNomination a) n) :
    Moves a (withNomination a n) :=
  of_same rfl hextends.log rfl

end Moves

variable {ctx : SlotContext N V H} {fuel : Nat} {c c' : SlotTrace N V H}

omit [LinearOrder N] [OrderBot V] [DecidableEq H] in
/-- An externalized ballot protocol's current ballot carries the value that was
reported. -/
theorem Faithful.reported_eq (h : Faithful c) (hphase : c.state.ballot.phase = .externalize) :
    ∃ commit b, c.state.ballot.commit = some commit ∧ c.state.ballot.currentBallot = some b ∧
      b.value = commit.value ∧ Scp.reported c.log = [commit.value] := by
  obtain ⟨commit, hcommit⟩ := Option.ne_none_iff_exists'.mp (h.ordered.externalized hphase)
  obtain ⟨high, hhigh, _, hvalue⟩ := h.ordered.commit commit hcommit
  obtain ⟨b, hb, _, hvalue'⟩ := h.ordered.high high hhigh
  refine ⟨commit, b, hcommit, hb, (hvalue.trans hvalue').symm, ?_⟩
  have hreported := h.reported
  unfold Reported at hreported
  rw [if_pos (show (asBallot c).state.phase = .externalize from hphase)] at hreported
  change Scp.reported (asBallot c).log = _
  rw [hreported]
  change (c.state.ballot.commit.map ScpBallot.value).toList = _
  rw [hcommit]
  rfl

/-! ### Bookkeeping -/

/-- The slot shows what was reported. -/
def Settled (c : SlotTrace N V H) : Prop :=
  c.state.externalizedValue = (Scp.reported c.log).head?

omit [LinearOrder N] [LinearOrder V] [OrderBot V] [DecidableEq H] in
theorem Settled.of_same {a b : SlotTrace N V H} (hsettled : Settled a)
    (hlog : Appends (fun e => e.decides = false) a b)
    (hvalue : b.state.externalizedValue = a.state.externalizedValue) : Settled b := by
  unfold Settled
  rw [hvalue, reported_eq hlog]
  exact hsettled

section

omit [LinearOrder N] [OrderBot V] [DecidableEq H]

theorem propagateBallotClearSlotValidation_moves (c : SlotTrace N V H) :
    Moves c (propagateBallotClearSlotValidation c) := by
  unfold propagateBallotClearSlotValidation
  dsimp only
  split <;> exact .of_same rfl (refl _) rfl

theorem stopNominationIfNeeded_moves (c : SlotTrace N V H) :
    Moves c (stopNominationIfNeeded c) := by
  unfold stopNominationIfNeeded
  dsimp only
  split
  · exact .of_same rfl (notify c rfl) rfl
  · exact .of_same rfl (refl _) rfl

end

omit [LinearOrder V] [OrderBot V] [DecidableEq H] in
theorem maybeSetGotVBlocking_same (ctx : SlotContext N V H) (c : SlotTrace N V H) :
    (maybeSetGotVBlocking ctx c).state.ballot = c.state.ballot ∧
      (maybeSetGotVBlocking ctx c).state.externalizedValue = c.state.externalizedValue ∧
      Appends (fun e => e.decides = false) c (maybeSetGotVBlocking ctx c) := by
  unfold maybeSetGotVBlocking
  split <;> exact ⟨rfl, rfl, refl c⟩

omit [LinearOrder N] [OrderBot V] [DecidableEq H] in
theorem maybeRecordExternalization_settles (h : Faithful c) :
    Faithful (maybeRecordExternalization c) ∧ Settled (maybeRecordExternalization c) ∧
      (maybeRecordExternalization c).state.ballot = c.state.ballot := by
  by_cases hphase : c.state.ballot.phase = .externalize
  · obtain ⟨commit, b, hcommit, hb, hvalue, hreported⟩ := h.reported_eq hphase
    cases hshown : c.state.externalizedValue with
    | some v =>
      have hskip : maybeRecordExternalization c = c := by
        simp [maybeRecordExternalization, hshown]
      rw [hskip]
      refine ⟨h, ?_, rfl⟩
      have hmem := h.shown v hshown
      rw [hreported, List.mem_singleton] at hmem
      rw [Settled, hshown, hreported, hmem]
      rfl
    | none =>
      have hexternalized : ballotExternalizedValue c.state.ballot = some commit.value := by
        simp [ballotExternalizedValue, hphase, hb, hvalue]
      have hrecord : maybeRecordExternalization c =
          ((c.modify fun s => { s with externalizedValue := some commit.value }).notify
            (.stopTimer .nomination)).notify (.stopTimer .ballot) := by
        simp [maybeRecordExternalization, hphase, hshown, syncExternalizedValueFromBallot,
          hexternalized]
      rw [hrecord]
      refine ⟨⟨h.ordered, h.reported, ?_, ?_⟩, ?_, rfl⟩
      · intro before newC newH hmem
        apply h.decided before newC newH
        -- the two events that were added stop timers
        exact List.mem_of_ne_of_mem (by simp) (List.mem_of_ne_of_mem (by simp) hmem)
      · intro v hv
        obtain rfl := Option.some.inj hv
        change commit.value ∈ Scp.reported c.log
        simp [hreported]
      · change some commit.value = (Scp.reported c.log).head?
        rw [hreported]
        rfl
  · have hskip : maybeRecordExternalization c = c := by
      simp [maybeRecordExternalization, hphase]
    have hreported := h.not_reported hphase
    rw [hskip]
    refine ⟨h, ?_, rfl⟩
    unfold Settled
    rw [hreported]
    refine Option.eq_none_iff_forall_not_mem.mpr fun v hv => ?_
    have hmem := h.shown v hv
    simp [hreported] at hmem

omit [OrderBot V] [DecidableEq H] in
theorem runPostEmitBookkeeping_moves (ctx : SlotContext N V H) (c : SlotTrace N V H) :
    Moves c (runPostEmitBookkeeping ctx c) ∧
      (Faithful c → Settled (runPostEmitBookkeeping ctx c)) := by
  have hbefore := (propagateBallotClearSlotValidation_moves c).trans
    (stopNominationIfNeeded_moves _)
  set c₁ := stopNominationIfNeeded (propagateBallotClearSlotValidation c) with hc₁
  have hrecorded : Moves c₁ (maybeRecordExternalization c₁) :=
    ⟨fun h => (maybeRecordExternalization_settles h).1,
      fun h _ => congrArg _ (maybeRecordExternalization_settles h).2.2⟩
  obtain ⟨hballot, hvalue, hlog⟩ := maybeSetGotVBlocking_same ctx (maybeRecordExternalization c₁)
  have hrun : runPostEmitBookkeeping ctx c =
      maybeSetGotVBlocking ctx (maybeRecordExternalization c₁) := rfl
  rw [hrun]
  refine ⟨(hbefore.trans hrecorded).trans (.of_same (by rw [hballot]) hlog hvalue), ?_⟩
  intro h
  obtain ⟨_, hsettled, _⟩ := maybeRecordExternalization_settles (hbefore.faithful h)
  exact hsettled.of_same hlog hvalue

/-! ### Calls -/

/-- A call keeps everything faithful, changes nothing that was final, and ends
settled. -/
structure Settles (c c' : SlotTrace N V H) : Prop where
  moves : Moves c c'
  settled : Faithful c → Settled c → Settled c'

omit [LinearOrder N] [OrderBot V] [DecidableEq H] in
theorem Settles.refl (c : SlotTrace N V H) : Settles c c := ⟨.refl c, fun _ h => h⟩

omit [OrderBot V] [DecidableEq H] in
theorem Settles.of_bookkeeping (hmoves : Moves c c') :
    Settles c (runPostEmitBookkeeping ctx c') := by
  obtain ⟨hbookkeeping, hsettled⟩ := runPostEmitBookkeeping_moves ctx c'
  exact ⟨hmoves.trans hbookkeeping, fun h _ => hsettled (hmoves.faithful h)⟩

/-- An operation of the ballot protocol inside a slot. -/
theorem Moves.of_execOp {op : BallotOp N V H} {ballot : Ballot N V H}
    (hresult : execOp ctx fuel op (asBallot c) = .ok ballot) : Moves c (withBallot c ballot) :=
  .of_steps fun hordered => execOp_steps hordered hresult

section

omit [LinearOrder N] [OrderBot V] [DecidableEq H]

theorem syncCompositeCandidate_moves (c : SlotTrace N V H) : Moves c (syncCompositeCandidate c) :=
  .of_same rfl (refl _) rfl

theorem validateStatementValues_undecided {σ : Type} (driver : SCPDriver N V H)
    (statement : ScpStatement N V H) (c : Traced σ N V H) :
    (validateStatementValues driver statement c).2.state = c.state ∧
      Appends (fun e => e.decides = false) c (validateStatementValues driver statement c).2 := by
  obtain ⟨hstate, new, hlog, hkind, _⟩ := validateStatementValues_trace driver statement c
  refine ⟨hstate, new, hlog, ?_⟩
  intro e he
  obtain ⟨value, answer, rfl⟩ := hkind e he
  rfl

end

variable {result : EnvelopeState × SlotTrace N V H} {envelope : ScpEnvelope N V H}

theorem processBallotEnvelope_moves
    (hresult : processBallotEnvelope ctx fuel envelope c = .ok result) : Moves c result.2 := by
  unfold processBallotEnvelope at hresult
  split at hresult
  · obtain rfl := Except.ok.inj hresult
    exact .refl c
  · split at hresult
    · obtain rfl := Except.ok.inj hresult
      exact .refl c
    · obtain ⟨hstate, hlog⟩ :=
        validateStatementValues_undecided ctx.driver envelope.statement c
      have hvalidated : Moves c (validateStatementValues ctx.driver envelope.statement c).2 :=
        .of_same (by rw [hstate]) hlog (by rw [hstate])
      dsimp only at hresult
      split at hresult
      · obtain rfl := Except.ok.inj hresult
        exact hvalidated
      · obtain ⟨⟨state, ballot⟩, hprocessed, hok⟩ := bind_ok_iff.mp hresult
        obtain rfl := Except.ok.inj hok
        have hexec : execOp ctx fuel (.processEnvelope envelope
            (validateStatementValues ctx.driver envelope.statement c).1)
            (asBallot (syncCompositeCandidate
              (validateStatementValues ctx.driver envelope.statement c).2)) = .ok ballot :=
          map_snd_ok_iff.mpr ⟨state, hprocessed⟩
        refine ((hvalidated.trans (syncCompositeCandidate_moves _)).trans (.of_execOp hexec)).trans ?_
        exact .ite (.of_same rfl (refl _) rfl) (.refl _)

theorem checkNominationToBallot_moves (hresult : checkNominationToBallot ctx fuel c = .ok c') :
    Moves c c' := by
  unfold checkNominationToBallot at hresult
  split at hresult
  · obtain rfl := Except.ok.inj hresult
    exact .refl c
  · split at hresult
    · obtain rfl := Except.ok.inj hresult
      exact .refl c
    next composite hcomposite =>
      obtain ⟨⟨bumped, ballot⟩, hbumped, hok⟩ := bind_ok_iff.mp hresult
      obtain rfl := Except.ok.inj hok
      have hexec : execOp ctx fuel (.bump composite false)
          (asBallot (c.notify (.stopTimer .nomination))) = .ok ballot :=
        map_snd_ok_iff.mpr ⟨bumped, hbumped⟩
      have hstopped : Moves c (c.notify (.stopTimer .nomination)) :=
        .of_same rfl (notify c rfl) rfl
      exact hstopped.trans (.of_execOp hexec)

theorem dispatchEnvelope_moves
    (hresult : dispatchEnvelope ctx fuel envelope c = .ok result) : Moves c result.2 := by
  unfold dispatchEnvelope at hresult
  split at hresult
  · obtain ⟨⟨state, n⟩, hnominated, hok⟩ := bind_ok_iff.mp hresult
    obtain rfl := Except.ok.inj hok
    exact .of_extends (processNomination_extends ctx hnominated)
  · exact processBallotEnvelope_moves hresult

theorem processEnvelope_settles
    (hresult : processEnvelope ctx fuel envelope c = .ok result) : Settles c result.2 := by
  unfold processEnvelope at hresult
  obtain ⟨⟨state, c₁⟩, hprotocol, hrest⟩ := bind_ok_iff.mp hresult
  obtain ⟨c₂, hcheck, hok⟩ := bind_ok_iff.mp hrest
  obtain rfl := Except.ok.inj hok
  have hprocessed : Moves c c₁ := dispatchEnvelope_moves hprotocol
  refine .of_bookkeeping ((hprocessed.trans ?_).trans (checkNominationToBallot_moves hcheck))
  exact .ite (.of_same rfl (refl _) rfl) (.refl _)

variable {result : Bool × SlotTrace N V H}

theorem nominate_settles {value prevValue : V} {timedout : Bool}
    (hresult : nominate ctx fuel value prevValue timedout c = .ok result) : Settles c result.2 := by
  unfold nominate at hresult
  split at hresult
  · obtain rfl := Except.ok.inj hresult
    exact .refl c
  · split at hresult
    · obtain rfl := Except.ok.inj hresult
      exact .refl c
    · obtain ⟨⟨voted, n⟩, hnominated, hrest⟩ := bind_ok_iff.mp hresult
      obtain ⟨c₁, hcheck, hok⟩ := bind_ok_iff.mp hrest
      obtain rfl := Except.ok.inj hok
      have hstarted : Moves c (c.modify fun s => { s with nominationStarted := true }) :=
        .of_same rfl (refl _) rfl
      have hmoves : Moves c c₁ :=
        (hstarted.trans (.of_extends (nominate_extends ctx hnominated))).trans
          (checkNominationToBallot_moves hcheck)
      have hkept : Settles c (runPostEmitBookkeeping ctx c₁) := .of_bookkeeping hmoves
      unfold setupNominationTimer
      dsimp only
      split
      · have htimer : Appends (fun e => e.decides = false) (runPostEmitBookkeeping ctx c₁)
            ((runPostEmitBookkeeping ctx c₁).notify (.setupTimer .nomination
              (ctx.driver.computeTimeout
                (runPostEmitBookkeeping ctx c₁).state.nomination.round true))) :=
          notify _ rfl
        exact ⟨hkept.moves.trans (.of_same rfl htimer rfl),
          fun h hsettled => (hkept.settled h hsettled).of_same htimer rfl⟩
      · exact hkept

theorem Settles.of_execOp {op : BallotOp N V H} {ballot : Ballot N V H} {c₁ : SlotTrace N V H}
    (hbefore : Moves c c₁) (hresult : execOp ctx fuel op (asBallot c₁) = .ok ballot) :
    Settles c (runPostEmitBookkeeping ctx (withBallot c₁ ballot)) :=
  .of_bookkeeping (hbefore.trans (.of_execOp hresult))

theorem bumpBallotOnTimeout_settles
    (hresult : bumpBallotOnTimeout ctx fuel c = .ok result) : Settles c result.2 := by
  unfold bumpBallotOnTimeout at hresult
  split at hresult
  · obtain rfl := Except.ok.inj hresult
    exact .refl c
  · obtain ⟨⟨bumped, ballot⟩, hbumped, hok⟩ := bind_ok_iff.mp hresult
    obtain rfl := Except.ok.inj hok
    have hexec : execOp ctx fuel (.bumpTimeout c.state.nomination.latestComposite)
        (asBallot (c.notify (.timerExpired .ballot))) = .ok ballot :=
      map_snd_ok_iff.mpr ⟨bumped, hbumped⟩
    exact .of_execOp (.of_same rfl (notify c rfl) rfl) hexec

omit [OrderBot V] in
theorem restoreFullyValidated_settles (c : SlotTrace N V H) :
    Settles c (restoreFullyValidated c) := by
  unfold restoreFullyValidated
  split
  · exact .refl c
  · have hsent : Appends (fun e => e.decides = false) (asBallot (setFullyValidated true c))
        (sendLatestEnvelope (asBallot (setFullyValidated true c))) := by
      refine (sendLatestEnvelope_appends _).mono ?_
      rintro e ⟨envelope, rfl⟩
      rfl
    have hballot := sendLatestEnvelope_toBallots (asBallot (setFullyValidated true c))
    have hdeferred := emitDeferred_extends (asNomination (withBallot (setFullyValidated true c)
      (sendLatestEnvelope (asBallot (setFullyValidated true c)))))
    obtain ⟨sent, hsentLog, hsentKind⟩ := hsent
    obtain ⟨deferred, hdeferredLog, hdeferredKind⟩ := hdeferred.log
    have hlog : Appends (fun e => e.decides = false) c (withNomination
        (withBallot (setFullyValidated true c)
          (sendLatestEnvelope (asBallot (setFullyValidated true c))))
        (emitDeferred (asNomination (withBallot (setFullyValidated true c)
          (sendLatestEnvelope (asBallot (setFullyValidated true c))))))) := by
      refine ⟨deferred ++ sent, ?_, ?_⟩
      · change (emitDeferred _).log = _
        rw [hdeferredLog, List.append_assoc]
        exact congrArg _ hsentLog
      · intro e he
        rcases List.mem_append.mp he with he | he
        · exact hdeferredKind e he
        · exact hsentKind e he
    exact ⟨.of_same hballot hlog rfl, fun _ hsettled => hsettled.of_same hlog rfl⟩

theorem execSlot_settles {op : SlotOp N V H} (hresult : execSlot ctx fuel op c = .ok c') :
    Settles c c' := by
  cases op with
  | processEnvelope envelope =>
    obtain ⟨state, hok⟩ := map_snd_ok_iff.mp hresult
    exact processEnvelope_settles hok
  | nominate value prevValue timedout =>
    obtain ⟨voted, hok⟩ := map_snd_ok_iff.mp hresult
    exact nominate_settles hok
  | stopNomination =>
    obtain rfl := Except.ok.inj hresult
    have hstopped : Appends (fun e => e.decides = false) c (stopNomination c) :=
      notify c rfl
    exact ⟨.of_same rfl hstopped rfl, fun _ hsettled => hsettled.of_same hstopped rfl⟩
  | bumpBallotOnTimeout =>
    obtain ⟨bumped, hok⟩ := map_snd_ok_iff.mp hresult
    exact bumpBallotOnTimeout_settles hok
  | abandonBallot counter =>
    obtain ⟨bumped, hok⟩ := map_snd_ok_iff.mp hresult
    obtain ⟨⟨bumped', ballot⟩, habandoned, hok⟩ := bind_ok_iff.mp hok
    obtain ⟨rfl, rfl⟩ := Prod.mk.inj (Except.ok.inj hok)
    have hexec : execOp ctx fuel (.abandonBallot counter)
        (asBallot (syncCompositeCandidate c)) = .ok ballot :=
      map_snd_ok_iff.mpr ⟨_, habandoned⟩
    exact .of_execOp (syncCompositeCandidate_moves c) hexec
  | bumpState value counter =>
    obtain ⟨bumped, hok⟩ := map_snd_ok_iff.mp hresult
    obtain ⟨⟨bumped', ballot⟩, hbumped, hok⟩ := bind_ok_iff.mp hok
    obtain ⟨rfl, rfl⟩ := Prod.mk.inj (Except.ok.inj hok)
    have hexec : execOp ctx fuel (.bumpState value counter) (asBallot c) = .ok ballot :=
      map_snd_ok_iff.mpr ⟨_, hbumped⟩
    exact .of_execOp (.refl c) hexec
  | forceBumpState value =>
    obtain ⟨bumped, hok⟩ := map_snd_ok_iff.mp hresult
    obtain ⟨⟨bumped', ballot⟩, hbumped, hok⟩ := bind_ok_iff.mp hok
    obtain ⟨rfl, rfl⟩ := Prod.mk.inj (Except.ok.inj hok)
    have hexec : execOp ctx fuel (.bump value true) (asBallot c) = .ok ballot :=
      map_snd_ok_iff.mpr ⟨_, hbumped⟩
    exact .of_execOp (.refl c) hexec
  | restoreFullyValidated =>
    obtain rfl := Except.ok.inj hresult
    exact restoreFullyValidated_settles c

/-! ### Runs -/

/-- One call that returned, under any driver. -/
def SlotCall (ctx : SlotContext N V H) (c c' : SlotTrace N V H) : Prop :=
  ∃ driver fuel op, execSlot { ctx with driver := driver } fuel op c = .ok c'

/-- The states of a slot that was not forced to externalize. -/
inductive SlotRun (ctx : SlotContext N V H) : SlotTrace N V H → Prop where
  | new (isValidator : Bool) : SlotRun ctx ⟨Slot.new isValidator, []⟩
  | call {c c' : SlotTrace N V H} (hrun : SlotRun ctx c) (hcall : SlotCall ctx c c') :
      SlotRun ctx c'

theorem SlotCall.settles (hcall : SlotCall ctx c c') : Settles c c' := by
  obtain ⟨driver, fuel, op, hresult⟩ := hcall
  exact execSlot_settles hresult

omit [LinearOrder N] [OrderBot V] [DecidableEq H] in
theorem faithful_new (isValidator : Bool) :
    Faithful (⟨Slot.new isValidator, []⟩ : SlotTrace N V H) where
  ordered := Ballots.ordered_new
  reported := rfl
  decided := by
    intro before newC newH hmem
    exact absurd hmem List.not_mem_nil
  shown := by simp [Slot.new]

theorem SlotRun.settled (hrun : SlotRun ctx c) : Faithful c ∧ Settled c := by
  induction hrun with
  | new isValidator => exact ⟨faithful_new isValidator, rfl⟩
  | call hrun hcall ih =>
    obtain ⟨hfaithful, hsettled⟩ := ih
    have hcall := hcall.settles
    exact ⟨hcall.moves.faithful hfaithful, hcall.settled hfaithful hsettled⟩

/-- Any number of calls is one part of a run. -/
theorem SlotCalls.moves (hcalls : Relation.ReflTransGen (SlotCall ctx) c c') : Moves c c' := by
  induction hcalls with
  | refl => exact .refl c
  | tail hcalls hcall ih => exact ih.trans hcall.settles.moves

/-- At most one value is reported; the slot shows it, the ballot protocol stands
in EXTERNALIZE on it, and the decision is the one that was confirmed and stays. -/
theorem externalization_final (hrun : SlotRun ctx c) :
    (Scp.reported c.log).length ≤ 1 ∧
      c.state.externalizedValue = (Scp.reported c.log).head? ∧
      (∀ v ∈ Scp.reported c.log, c.state.ballot.phase = .externalize ∧
        c.state.ballot.commit.map ScpBallot.value = some v ∧
        c.state.ballot.currentBallot.map ScpBallot.value = some v) ∧
      (∀ before newC newH, .transition before (.confirmCommit newC newH) ∈ c.log →
        c.state.ballot.toBallots = before.confirmed newC newH) ∧
      (Scp.reported c.log ≠ [] → ∀ c', Relation.ReflTransGen (SlotCall ctx) c c' →
        c'.state.ballot.toBallots = c.state.ballot.toBallots ∧
          Scp.reported c'.log = Scp.reported c.log) := by
  obtain ⟨hfaithful, hsettled⟩ := hrun.settled
  by_cases hphase : c.state.ballot.phase = .externalize
  · obtain ⟨commit, b, hcommit, hb, hvalue, hreported⟩ := hfaithful.reported_eq hphase
    refine ⟨by simp [hreported], hsettled, ?_, hfaithful.decided, ?_⟩
    · intro v hv
      rw [hreported, List.mem_singleton] at hv
      simp [hphase, hcommit, hb, hvalue, hv]
    · intro _ c' hcalls
      have hmoves := SlotCalls.moves hcalls
      have hsame := hmoves.final hfaithful hphase
      refine ⟨hsame, ?_⟩
      -- the report is the commit, and the commit is final
      have hphase' : c'.state.ballot.phase = .externalize := by rw [hsame, hphase]
      obtain ⟨commit', _, hcommit', _, _, hreported'⟩ :=
        (hmoves.faithful hfaithful).reported_eq hphase'
      rw [hsame, hcommit] at hcommit'
      rw [hreported, hreported', Option.some.inj hcommit']
  · have hreported : Scp.reported c.log = [] := hfaithful.not_reported hphase
    refine ⟨by simp [hreported], hsettled, by simp [hreported], hfaithful.decided, ?_⟩
    exact fun hne => absurd hreported hne

end Slot

/-! ### A slot of a node that is alone -/

/-- The node trusts itself only. -/
def soloNode : SlotContext ℕ ℕ Unit := .permissive 0 (simpleQuorumSet 1 [0])

theorem soloRun_returns : ∃ c, execSlot soloNode 20 (.forceBumpState 7) ⟨Slot.new true, []⟩ =
    .ok c ∧
    reported c.log = [7] := by
  have hcheck : (match execSlot soloNode 20 (.forceBumpState 7) ⟨Slot.new true, []⟩ with
      | .ok c => decide (reported c.log = [7])
      | .error _ => false) = true := by decide +kernel
  cases hresult : execSlot soloNode 20 (.forceBumpState 7) ⟨Slot.new true, []⟩ with
  | error e => simp [hresult] at hcheck
  | ok c => exact ⟨c, rfl, by simpa [hresult] using hcheck⟩

/-- The lonely node decides at once and shows its value. -/
theorem externalization_final_soloNode : ∃ c : SlotTrace ℕ ℕ Unit,
    reported c.log = [7] ∧ c.state.externalizedValue = some 7 ∧
      c.state.ballot.phase = .externalize := by
  obtain ⟨c, hresult, hreported⟩ := soloRun_returns
  have hrun : Slot.SlotRun soloNode c := .call (.new true) ⟨_, 20, _, hresult⟩
  obtain ⟨_, hshown, hdecided, _⟩ := Slot.externalization_final hrun
  exact ⟨c, hreported, by rw [hshown, hreported]; rfl, (hdecided 7 (by simp [hreported])).1⟩

end Henyey.Scp
