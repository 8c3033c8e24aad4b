import Henyey.Scp.Ballot.Ordering
import Henyey.Scp.Ballot.Recording
import Henyey.Scp.Ballot.Candidates

/-!
# Small steps

However the calls nest, a call of the ballot protocol is a sequence of small
steps: a setter followed by the recording of its result, the arrival of a
statement, a send, or bookkeeping. Each step carries the guards under which the
code takes it.
-/

namespace Henyey.Scp

variable {N V H : Type} [DecidableEq N] [LinearOrder V] [OrderBot V] [DecidableEq H]

/-- Nothing that matters to the protocol's guarantees changed. -/
structure Idle (c c' : Ballot N V H) : Prop where
  toBallots : c'.state.toBallots = c.state.toBallots
  latestEnvelopes : c'.state.latestEnvelopes = c.state.latestEnvelopes
  lastEnvelope : c'.state.lastEnvelope = c.state.lastEnvelope
  lastEnvelopeEmit : c'.state.lastEnvelopeEmit = c.state.lastEnvelopeEmit
  log : ∃ new, c'.log = new ++ c.log ∧ ∀ e ∈ new, e.quiet = true

/-- The state after a setter that did some work has been recorded. -/
def recorded (ctx : SlotContext N V H) (didWork : Bool) (c : Ballot N V H) : Ballot N V H :=
  if didWork then (recordCurrentState ctx c).2 else c

def acceptPrepared (ballot : ScpBallot V) (c : Ballot N V H) : Ballot N V H :=
  (voidAbortedCommit (setPrepared ballot (noteTransition (.acceptPrepared ballot) c)).2).2

/-- The state change of a bump: a confirmed value overrides the proposed one. -/
def bumpValue (value : V) (counter : U32) (c : Ballot N V H) : Bool × Ballot N V H :=
  updateCurrentValue ⟨counter, c.state.valueOverride.getD value⟩ c

def reportExternalized (value : V) (c : Ballot N V H) : Ballot N V H :=
  (c.modify fun s => { s with needsStopNomination := true }).notify (.valueExternalized value)

/-- What the stored local statement prepared is covered by `p`. -/
def OwnPrepared (ctx : SlotContext N V H) (s : BallotProtocol N V H) : Prop :=
  ∀ st, s.latestEnvelopes.statement? ctx.localNodeId = some st →
    ∀ ballot, hasPreparedBallot ballot st = true → ∃ p ∈ s.prepared, ballot ≤ p

/-- What a step takes from outside: a statement, or the counter of a bump that
was asked for. -/
inductive Arrival (N V H : Type) where
  | statement (envelope : ScpEnvelope N V H)
  | bumpTo (counter : U32)

/-- One small step of a node, given what may arrive. -/
inductive Step (ctx : SlotContext N V H) (arrives : Arrival N V H → Prop) :
    Ballot N V H → Ballot N V H → Prop where
  | idle {c c' : Ballot N V H} (hidle : Idle c c') : Step ctx arrives c c'
  | send (c : Ballot N V H) : Step ctx arrives c (sendLatestEnvelope c)
  | receive (c : Ballot N V H) (envelope : ScpEnvelope N V H)
      (harrives : arrives (.statement envelope))
      (hnewer : isNewerStatement c.state envelope.statement.nodeId envelope.statement = true) :
      Step ctx arrives c (c.modify (storeEnvelope envelope))
  | acceptPrepared (c : Ballot N V H) (ballot : ScpBallot V)
      (hphase : c.state.phase ≠ .externalize)
      (hskip : skipCandidate c.state.toBallots ballot = false)
      (haccepts : acceptsPrepared ctx c.state ballot = true) :
      Step ctx arrives c (recorded ctx true (acceptPrepared ballot c))
  | confirmPrepared (c : Ballot N V H) (newC newH : ScpBallot V)
      (hphase : c.state.phase = .prepare) (hprepared : c.state.prepared ≠ none)
      (hhigh : ∀ h ∈ c.state.highBallot, h < newH)
      (hratifies : ratifiesPrepared ctx c.state newH = true)
      (hnewC : newC ≤ newH ∧ newC.value = newH.value)
      (hcovered : OwnPrepared ctx c.state → ∃ p ∈ c.state.prepared, newH ≤ p)
      (hopen : newC.counter ≠ 0 → highAborted c.state.toBallots newH = false) :
      Step ctx arrives c
        (recorded ctx (confirmPrepared newC newH c).1 (confirmPrepared newC newH c).2)
  | acceptCommit (c : Ballot N V H) (newC newH : ScpBallot V)
      (hphase : c.state.phase ≠ .externalize) (hprepared : c.state.prepared ≠ none)
      (hnewC : newC ≤ newH ∧ newC.value = newH.value) (hcounter : newC.counter ≠ 0)
      (hconfirm : c.state.phase = .confirm →
        ∀ h ∈ c.state.highBallot, h < newH ∧ h.value = newH.value)
      (haccepts : ∃ ballot, ballot.value = newH.value ∧
        acceptsCommit ctx c.state ballot (newC.counter, newH.counter) = true) :
      Step ctx arrives c
        (recorded ctx (acceptCommit newC newH c).1 (acceptCommit newC newH c).2)
  | confirmCommit (c c' : Ballot N V H) (newC newH : ScpBallot V)
      (hphase : c.state.phase = .confirm)
      (hnewC : newC ≤ newH ∧ newC.value = newH.value) (hcounter : newC.counter ≠ 0)
      (hcommit : ∃ commit ∈ c.state.commit, commit.value = newH.value)
      (hratifies : ∃ ballot, ballot.value = newH.value ∧
        ratifiesCommit ctx c.state ballot (newC.counter, newH.counter) = true)
      (hsend : c' = recorded ctx true (confirmCommit newC newH c) ∨
        c' = sendLatestEnvelope (recorded ctx true (confirmCommit newC newH c))) :
      Step ctx arrives c (reportExternalized newC.value c')
  | bump (c : Ballot N V H) (value : V) (counter : U32)
      (hcounter : c.state.currentBallot = none → counter ≠ 0 ∨ arrives (.bumpTo counter)) :
      Step ctx arrives c
        (recorded ctx (bumpValue value counter c).1 (bumpValue value counter c).2)

/-- Any number of small steps. -/
abbrev Steps (ctx : SlotContext N V H) (arrives : Arrival N V H → Prop) :
    Ballot N V H → Ballot N V H → Prop :=
  Relation.ReflTransGen (Step ctx arrives)

/-- Steps that take nothing from outside. -/
abbrev InnerSteps (ctx : SlotContext N V H) : Ballot N V H → Ballot N V H → Prop :=
  Steps ctx (fun _ => False)

variable {ctx : SlotContext N V H} {c c' : Ballot N V H}

theorem Step.mono {arrives arrives' : Arrival N V H → Prop}
    (hmono : ∀ arrival, arrives arrival → arrives' arrival)
    (hstep : Step ctx arrives c c') : Step ctx arrives' c c' := by
  cases hstep with
  | idle hidle => exact .idle hidle
  | send => exact .send c
  | receive envelope harrives hnewer => exact .receive c envelope (hmono _ harrives) hnewer
  | acceptPrepared ballot hphase hskip haccepts => exact .acceptPrepared c ballot hphase hskip haccepts
  | confirmPrepared newC newH hphase hprepared hhigh hratifies hnewC hcovered hopen =>
    exact .confirmPrepared c newC newH hphase hprepared hhigh hratifies hnewC hcovered hopen
  | acceptCommit newC newH hphase hprepared hnewC hcounter hconfirm haccepts =>
    exact .acceptCommit c newC newH hphase hprepared hnewC hcounter hconfirm haccepts
  | confirmCommit c' newC newH hphase hnewC hcounter hcommit hratifies hsend =>
    exact .confirmCommit c c' newC newH hphase hnewC hcounter hcommit hratifies hsend
  | bump value counter hcounter => 
      exact .bump c value counter (fun hnone => (hcounter hnone).imp_right (hmono _))

theorem InnerSteps.steps {arrives : Arrival N V H → Prop}
    (hsteps : InnerSteps ctx c c') : Steps ctx arrives c c' :=
  Relation.ReflTransGen.mono (fun _ _ => Step.mono (fun _ => False.elim)) _ _ hsteps

/-! ### The ordering is invariant -/

@[simp]
theorem recorded_toBallots (ctx : SlotContext N V H) (didWork : Bool) (c : Ballot N V H) :
    (recorded ctx didWork c).state.toBallots = c.state.toBallots := by
  unfold recorded
  split
  · exact recordCurrentState_toBallots ctx c
  · rfl

omit [DecidableEq N] [OrderBot V] [DecidableEq H] in
theorem acceptPrepared_raises {ballot : ScpBallot V} {c : Ballot N V H}
    (hskip : skipCandidate c.state.toBallots ballot = false) :
    ∃ s, c.state.Raises ballot s ∧ (acceptPrepared ballot c).state.toBallots = s.voided :=
  ⟨_, (setPrepared_raises (c := noteTransition (.acceptPrepared ballot) c) hskip).2,
    voidAbortedCommit_toBallots _⟩

omit [OrderBot V] in
theorem sendLatestEnvelope_toBallots (c : Ballot N V H) :
    (sendLatestEnvelope c).state.toBallots = c.state.toBallots := by
  rcases sendLatestEnvelope_cases c with h | ⟨envelope, _, _, _, h⟩
  · rw [h]
  · rw [h]
    rfl

omit [OrderBot V] in
theorem sendLatestEnvelope_latestEnvelopes (c : Ballot N V H) :
    (sendLatestEnvelope c).state.latestEnvelopes = c.state.latestEnvelopes := by
  rcases sendLatestEnvelope_cases c with h | ⟨envelope, _, _, _, h⟩
  · rw [h]
  · rw [h]
    rfl

theorem reported_toBallots {newC newH : ScpBallot V}
    (hsend : c' = recorded ctx true (confirmCommit newC newH c) ∨
      c' = sendLatestEnvelope (recorded ctx true (confirmCommit newC newH c))) (value : V) :
    (reportExternalized value c').state.toBallots = (confirmCommit newC newH c).state.toBallots := by
  rcases hsend with rfl | rfl
  · exact recorded_toBallots ctx true _
  · exact (sendLatestEnvelope_toBallots _).trans (recorded_toBallots ctx true _)

variable {ctx : SlotContext N V H} {arrives : Arrival N V H → Prop} {c c' : Ballot N V H}

section

variable (hordered : c.state.Ordered)
include hordered

theorem Step.change (hstep : Step ctx arrives c c') : c.state.Change c'.state.toBallots := by
  cases hstep with
  | idle hidle => exact hidle.toBallots ▸ .same
  | send => exact (sendLatestEnvelope_toBallots c) ▸ .same
  | receive envelope harrives hnewer => exact .same
  | acceptPrepared ballot hphase hskip haccepts =>
    obtain ⟨s, hraises, heq⟩ := acceptPrepared_raises hskip
    rw [recorded_toBallots, heq]
    exact .raise ballot s hphase hraises
  | confirmPrepared newC newH hphase hprepared hhigh hratifies hnewC hcovered =>
    rw [recorded_toBallots]
    exact .confirm newC newH _ _ hphase hnewC hhigh (confirmPrepared_confirms hordered hhigh)
  | acceptCommit newC newH hphase hprepared hnewC hcounter hconfirm haccepts =>
    rw [recorded_toBallots]
    cases hprepare : c.state.phase with
    | prepare =>
      rw [(acceptCommit_prepare newC newH hprepare).2]
      exact .enterConfirm newC newH hprepare hprepared hnewC hcounter
    | confirm =>
      obtain ⟨⟨h, hh, _⟩, _⟩ := hordered.confirmed (by simp [hprepare])
      obtain ⟨hlt, hvalue⟩ := hconfirm hprepare h hh
      have hchange := Ballots.Change.raiseCommit newC newH h hprepare hnewC hcounter hh hlt
        hvalue.symm
      have hoverride : c.state.valueOverride = some newH.value :=
        hvalue ▸ hordered.override_value (by simp [hprepare]) hh
      rw [(acceptCommit_confirm hprepare (fun h' hh' => (hconfirm hprepare h' hh').1)).2]
      rw [hoverride, ← hprepare] at hchange
      exact hchange
    | externalize => exact absurd hprepare hphase
  | confirmCommit c' newC newH hphase hnewC hcounter hcommit hratifies hsend =>
    obtain ⟨h, hh, hsame⟩ := hordered.high_of_commit hcommit
    rw [reported_toBallots hsend, confirmCommit_toBallots hsame]
    exact .externalize newC newH h hphase hnewC hcounter hh (hsame h hh)
  | bump value counter hcounter =>
    rw [recorded_toBallots]
    rcases updateCurrentValue_cases ⟨counter, c.state.valueOverride.getD value⟩ hordered with
      ⟨c₁, _, heq, hr | hr⟩ | ⟨hphase, hbelow, _, c₁, _, heq, hr⟩
    · rw [bumpValue, hr, heq]
      exact .same
    · rw [bumpValue, hr]
      exact heq ▸ .same
    · rw [bumpValue, hr]
      change c.state.Change c₁.state.toBallots
      rw [heq]
      refine .bump _ hphase hbelow ?_
      intro v hv
      rw [Option.mem_def.mp hv]
      rfl

section

variable (hsteps : Steps ctx arrives c c')
include hsteps

theorem Steps.ordered : c'.state.Ordered := by
  induction hsteps with
  | refl => exact hordered
  | tail _ hstep ih => exact (hstep.change ih).ordered ih

theorem Steps.prepared_mono : ∀ p ∈ c.state.prepared, ∃ p' ∈ c'.state.prepared, p ≤ p' := by
  intro p hp
  induction hsteps with
  | refl => exact ⟨p, hp, le_rfl⟩
  | tail hsteps hstep ih =>
    obtain ⟨p', hp', hle⟩ := ih
    obtain ⟨p'', hp'', hle'⟩ := (hstep.change (Steps.ordered hordered hsteps)).prepared_mono p' hp'
    exact ⟨p'', hp'', hle.trans hle'⟩

theorem Steps.phase_ne_prepare (hphase : c.state.phase ≠ .prepare) : c'.state.phase ≠ .prepare := by
  induction hsteps with
  | refl => exact hphase
  | tail hsteps hstep ih => exact (hstep.change (Steps.ordered hordered hsteps)).phase_ne_prepare ih

end

end

/-! ### What the steps leave alone -/

theorem recorded_statement?_ne {didWork : Bool} {node : N} (hne : node ≠ ctx.localNodeId) :
    (recorded ctx didWork c).state.latestEnvelopes.statement? node =
      c.state.latestEnvelopes.statement? node := by
  unfold recorded
  split
  · exact recordCurrentState_statement?_ne ctx c hne
  · rfl

section

omit [DecidableEq N] [OrderBot V] [DecidableEq H]

theorem acceptPrepared_kept (ballot : ScpBallot V) (c : Ballot N V H) :
    Kept (noteTransition (.acceptPrepared ballot) c) (acceptPrepared ballot c) :=
  (setPrepared_kept ballot _).trans (voidAbortedCommit_kept _)

/-- A bump changes the decision state, and may evaluate the consistency check
on the way out. -/
theorem bumpValue_kept (value : V) (counter : U32) (hordered : c.state.Ordered) :
    ∃ c₁, Kept c c₁ ∧
      ((bumpValue value counter c).2 = c₁ ∨ (bumpValue value counter c).2 = noteCheck c₁) := by
  unfold bumpValue
  rcases updateCurrentValue_cases ⟨counter, c.state.valueOverride.getD value⟩ hordered with
    ⟨c₁, hkept, _, hr | hr⟩ | ⟨_, _, _, c₁, hkept, _, hr⟩
  · exact ⟨c₁, hkept, .inl (by rw [hr])⟩
  · exact ⟨c₁, hkept, .inr (by rw [hr])⟩
  · exact ⟨c₁, hkept, .inr (by rw [hr])⟩

theorem bumpValue_latestEnvelopes (value : V) (counter : U32) (hordered : c.state.Ordered) :
    (bumpValue value counter c).2.state.latestEnvelopes = c.state.latestEnvelopes := by
  obtain ⟨c₁, hkept, hr | hr⟩ := bumpValue_kept value counter hordered
  · rw [hr, hkept.latestEnvelopes]
  · rw [hr]
    exact hkept.latestEnvelopes

end

/-- Without an arrival the other nodes' statements stay. -/
theorem Step.statement?_ne (hordered : c.state.Ordered) (hstep : Step ctx (fun _ => False) c c')
    {node : N} (hne : node ≠ ctx.localNodeId) :
    c'.state.latestEnvelopes.statement? node = c.state.latestEnvelopes.statement? node := by
  cases hstep with
  | idle hidle => rw [hidle.latestEnvelopes]
  | send => rw [sendLatestEnvelope_latestEnvelopes]
  | receive envelope harrives hnewer => exact harrives.elim
  | acceptPrepared ballot hphase hskip haccepts =>
    rw [recorded_statement?_ne hne, (acceptPrepared_kept ballot c).latestEnvelopes]
    rfl
  | confirmPrepared newC newH hphase hprepared hhigh hratifies hnewC hcovered =>
    rw [recorded_statement?_ne hne, (confirmPrepared_kept newC newH c).latestEnvelopes]
    rfl
  | acceptCommit newC newH hphase hprepared hnewC hcounter hconfirm haccepts =>
    rw [recorded_statement?_ne hne, (acceptCommit_kept newC newH c).latestEnvelopes]
    rfl
  | confirmCommit c' newC newH hphase hnewC hcounter hcommit hratifies hsend =>
    have hrecorded :
        (recorded ctx true (Scp.confirmCommit newC newH c)).state.latestEnvelopes.statement?
        node = c.state.latestEnvelopes.statement? node := by
      rw [recorded_statement?_ne hne, (confirmCommit_kept newC newH c).latestEnvelopes]
      rfl
    rcases hsend with rfl | rfl
    · exact hrecorded
    · change (sendLatestEnvelope _).state.latestEnvelopes.statement? node = _
      rw [sendLatestEnvelope_latestEnvelopes, hrecorded]
  | bump value counter hcounter =>
    rw [recorded_statement?_ne hne, bumpValue_latestEnvelopes value counter hordered]

theorem InnerSteps.statement?_ne (hordered : c.state.Ordered) (hsteps : InnerSteps ctx c c')
    {node : N} (hne : node ≠ ctx.localNodeId) :
    c'.state.latestEnvelopes.statement? node = c.state.latestEnvelopes.statement? node := by
  induction hsteps with
  | refl => rfl
  | tail hsteps hstep ih => rw [hstep.statement?_ne (Steps.ordered hordered hsteps) hne, ih]

end Henyey.Scp
