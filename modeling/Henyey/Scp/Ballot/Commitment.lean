import Henyey.Scp.Ballot.Run
import Henyey.Scp.Ballot.Trace

/-!
# Commitment and finality

Once a node has accepted a commit, the value of its high ballot never changes.
What it says about itself carries that value, and what it reports as
externalized is the committed value, once.
-/

namespace Henyey.Scp

variable {N V H : Type} [LinearOrder V]

def Ballots.Committed (s : Ballots V) (value : V) : Prop :=
  s.phase ≠ .prepare ∧ ∃ h ∈ s.highBallot, h.value = value

namespace Ballots

variable {s s' : Ballots V} {value : V}

omit [LinearOrder V] in
theorem Committed.unique {value' : V} (hcommitted : s.Committed value)
    (hcommitted' : s.Committed value') : value = value' := by
  obtain ⟨_, h, hh, rfl⟩ := hcommitted
  obtain ⟨_, h', hh', rfl⟩ := hcommitted'
  rw [Option.mem_unique hh hh']

theorem Change.committed (hordered : s.Ordered) (hchange : s.Change s')
    (hcommitted : s.Committed value) : s'.Committed value := by
  obtain ⟨hphase, high, hhigh, rfl⟩ := hcommitted
  refine ⟨hchange.phase_ne_prepare hphase, ?_⟩
  cases hchange with
  | same => exact ⟨high, hhigh, rfl⟩
  | raise ballot s₁ _ hraises =>
    rw [(voided_frame s₁).2.2.2.1, hraises.frame.2.1]
    exact ⟨high, hhigh, rfl⟩
  | confirm newC newH didWork s₁ hprepare => exact absurd hprepare hphase
  | enterConfirm newC newH hprepare => exact absurd hprepare hphase
  | raiseCommit newC newH h _ _ _ hh _ hvalue =>
    rw [Option.mem_unique hhigh hh]
    exact ⟨newH, rfl, hvalue⟩
  | externalize newC newH h _ _ _ hh hvalue =>
    rw [Option.mem_unique hhigh hh]
    exact ⟨newH, rfl, hvalue⟩
  | bump ballot _ _ hoverride =>
    have hsame : ∀ h ∈ s.highBallot, ballot.value = h.value := fun h hh =>
      hoverride h.value (hordered.override_value hphase hh)
    rw [bumped_of_compatible hsame]
    exact ⟨high, hhigh, rfl⟩

theorem Change.final (hchange : s.Change s') (hphase : s.phase = .externalize) : s' = s := by
  cases hchange with
  | same => rfl
  | raise ballot s₁ hne => exact absurd hphase hne
  | confirm newC newH didWork s₁ hprepare => simp [hphase] at hprepare
  | enterConfirm newC newH hprepare => simp [hphase] at hprepare
  | raiseCommit newC newH h hconfirm => simp [hphase] at hconfirm
  | externalize newC newH h hconfirm => simp [hphase] at hconfirm
  | bump ballot hne => exact absurd hphase hne

theorem Confirms.phase {newC newH : ScpBallot V} {didWork : Bool}
    (hconfirms : s.Confirms newC newH didWork s') : s'.phase = s.phase := by
  cases hconfirms <;> rfl

theorem Ordered.commit_committed (hordered : s.Ordered) (hphase : s.phase ≠ .prepare)
    {commit : ScpBallot V} (hcommit : commit ∈ s.commit) : s.Committed commit.value := by
  obtain ⟨h, hh, _, hvalue⟩ := hordered.commit commit hcommit
  exact ⟨hphase, h, hh, hvalue.symm⟩

theorem Ordered.current_committed (hordered : s.Ordered) (hphase : s.phase ≠ .prepare)
    {current : ScpBallot V} (hcurrent : current ∈ s.currentBallot) : s.Committed current.value := by
  obtain ⟨⟨h, hh, _⟩, _⟩ := hordered.confirmed hphase
  obtain ⟨b, hb, _, hvalue⟩ := hordered.high h hh
  rw [Option.mem_unique hcurrent hb]
  exact ⟨hphase, h, hh, hvalue⟩

end Ballots

/-! ### What a node has said about itself -/

/-- The node built this statement about itself. -/
def Said (c : Ballot N V H) (st : ScpStatement N V H) : Prop :=
  ∃ stored outcome, .selfStatement stored st outcome ∈ c.log

def ScpStatementPledges.truthful (hash : H) (s : Ballots V) : ScpStatementPledges V H → Prop
  | .prepare prep => prep.quorumSetHash = hash
  | .confirm conf => conf.quorumSetHash = hash ∧ s.Committed conf.ballot.value
  | .externalize ext => s.phase = .externalize ∧ s.Committed ext.commit.value
  | .nominate _ => False

/-- The statement comes from the node and is still true of its state. -/
def Truthful (node : N) (hash : H) (s : Ballots V) (st : ScpStatement N V H) : Prop :=
  st.nodeId = node ∧ st.pledges.truthful hash s

variable {st : ScpStatement N V H}

theorem Truthful.change {node : N} {hash : H} {s s' : Ballots V} (hordered : s.Ordered)
    (hchange : s.Change s') (htruthful : Truthful node hash s st) : Truthful node hash s' st := by
  obtain ⟨hnode, hpledges⟩ := htruthful
  refine ⟨hnode, ?_⟩
  cases hst : st.pledges with
  | prepare prep =>
    rw [hst] at hpledges
    exact hpledges
  | confirm conf =>
    rw [hst] at hpledges
    exact ⟨hpledges.1, hchange.committed hordered hpledges.2⟩
  | externalize ext =>
    rw [hst] at hpledges
    obtain rfl := hchange.final hpledges.1
    exact hpledges
  | nominate nom =>
    rw [hst] at hpledges
    exact hpledges.elim

variable [OrderBot V]

theorem truthful_selfPledges {ctx : SlotContext N V H} {s : Ballots V} (hordered : s.Ordered)
    {pledges : ScpStatementPledges V H} {canEmit : Bool}
    (hpledges : selfPledges ctx s = some (pledges, canEmit)) :
    Truthful ctx.localNodeId (ctx.hashQuorumSet ctx.localQuorumSet) s
      (localStatement ctx pledges) := by
  refine ⟨rfl, ?_⟩
  change pledges.truthful _ s
  unfold selfPledges at hpledges
  split at hpledges
  · obtain ⟨rfl, -⟩ := Prod.mk.inj (Option.some.inj hpledges)
    rfl
  next hphase =>
    obtain ⟨current, hcurrent, heq⟩ := Option.map_eq_some_iff.mp hpledges
    obtain ⟨rfl, -⟩ := Prod.mk.inj heq
    exact ⟨rfl, hordered.current_committed (by simp [hphase]) hcurrent⟩
  next hphase =>
    obtain ⟨commit, hcommit, heq⟩ := Option.map_eq_some_iff.mp hpledges
    obtain ⟨rfl, -⟩ := Prod.mk.inj heq
    exact ⟨hphase, hordered.commit_committed (by simp [hphase]) hcommit⟩

/-! ### What one step adds to the trace -/

variable [DecidableEq N] [DecidableEq H] {ctx : SlotContext N V H} {c c' : Ballot N V H}

/-- The decision state after confirming a commit. -/
def Ballots.confirmed (s : Ballots V) (newC newH : ScpBallot V) : Ballots V :=
  { s with
    commit := some newC
    highBallot := some newH
    phase := .externalize
    currentBallot := if s.below newH then some newH else s.currentBallot }

/-- An event that a step can add. What a node says describes the state that the
step led to, and a value is reported on entering EXTERNALIZE. -/
inductive StepEvent (ctx : SlotContext N V H) (c c' : Ballot N V H) : ScpEvent N V H → Prop where
  | quiet {e : ScpEvent N V H} (hquiet : e.quiet = true) : StepEvent ctx c c' e
  | check (error : Option String) : StepEvent ctx c c' (.checkInvariants error)
  | transition (before : Ballots V) (call : Transition V)
      (hother : ∀ newC newH, call ≠ .confirmCommit newC newH) :
      StepEvent ctx c c' (.transition before call)
  | confirmCommit (newC newH : ScpBallot V) (hbefore : c.state.phase = .confirm)
      (hafter : c'.state.toBallots = c.state.toBallots.confirmed newC newH) :
      StepEvent ctx c c' (.transition c.state.toBallots (.confirmCommit newC newH))
  | emit (envelope : ScpEnvelope N V H) : StepEvent ctx c c' (.emitEnvelope envelope)
  | externalized (value : V) (hbefore : c.state.phase = .confirm)
      (hphase : c'.state.phase = .externalize) : StepEvent ctx c c' (.valueExternalized value)
  | said (stored : Option (ScpStatement N V H)) (pledges : ScpStatementPledges V H)
      (canEmit : Bool) (outcome : SelfOutcome)
      (hpledges : selfPledges ctx c'.state.toBallots = some (pledges, canEmit)) :
      StepEvent ctx c c' (.selfStatement stored (localStatement ctx pledges) outcome)

variable {e : ScpEvent N V H}

omit [DecidableEq H] in
theorem stepEvent_of_record {d : Ballot N V H} (hsame : c'.state.toBallots = d.state.toBallots)
    (hrecord : RecordEvent ctx d e) : StepEvent ctx c c' e := by
  rcases hrecord with hquiet | rfl | ⟨pledges, canEmit, outcome, hpledges, rfl⟩
  · exact .quiet hquiet
  · exact .check _
  · exact .said _ pledges canEmit outcome (hsame ▸ hpledges)

theorem setter_appends {call : Transition V} {d : Ballot N V H} {didWork : Bool}
    (hcall : StepEvent ctx c c' (.transition c.state.toBallots call))
    (hkept : Kept (noteTransition call c) d) (hsame : c'.state.toBallots = d.state.toBallots) :
    Appends (StepEvent ctx c c') c (recorded ctx didWork d) := by
  refine ((transition_appends hkept).mono ?_).trans ((recorded_appends ctx didWork d).mono ?_)
  · rintro e (hquiet | rfl)
    · exact .quiet hquiet
    · exact hcall
  · intro e he
    exact stepEvent_of_record hsame he

variable {arrives : Arrival N V H → Prop}

theorem Step.appends (hordered : c.state.Ordered) (hstep : Step ctx arrives c c') :
    Appends (StepEvent ctx c c') c c' := by
  cases hstep with
  | idle hidle => exact hidle.appends.mono fun e he => .quiet he
  | send =>
    refine (sendLatestEnvelope_appends c).mono ?_
    rintro e ⟨envelope, rfl⟩
    exact .emit envelope
  | receive envelope harrives hnewer => exact Appends.refl c
  | acceptPrepared ballot hphase hskip haccepts =>
    exact setter_appends (.transition _ _ (by simp)) (acceptPrepared_kept ballot c)
      (recorded_toBallots ctx true _)
  | confirmPrepared newC newH hphase hprepared hhigh hratifies hnewC hcovered =>
    exact setter_appends (.transition _ _ (by simp)) (confirmPrepared_kept newC newH c)
      (recorded_toBallots ctx _ _)
  | acceptCommit newC newH hphase hprepared hnewC hcounter hconfirm haccepts =>
    exact setter_appends (.transition _ _ (by simp)) (acceptCommit_kept newC newH c)
      (recorded_toBallots ctx _ _)
  | confirmCommit c₁ newC newH hphase hnewC hcounter hcommit hratifies hsend =>
    have hsame := reported_toBallots hsend newC.value
    obtain ⟨_, _, hvalue⟩ := hordered.high_of_commit hcommit
    have hconfirmed : (Scp.confirmCommit newC newH c).state.toBallots =
        c.state.toBallots.confirmed newC newH := confirmCommit_toBallots hvalue
    have hrecorded : Appends (StepEvent ctx c (reportExternalized newC.value c₁)) c
        (recorded ctx true (Scp.confirmCommit newC newH c)) :=
      setter_appends (.confirmCommit newC newH hphase (hsame.trans hconfirmed))
        (confirmCommit_kept newC newH c) hsame
    have hsent : Appends (StepEvent ctx c (reportExternalized newC.value c₁)) c c₁ := by
      rcases hsend with rfl | rfl
      · exact hrecorded
      · refine hrecorded.trans ((sendLatestEnvelope_appends _).mono ?_)
        rintro e ⟨envelope, rfl⟩
        exact .emit envelope
    refine hsent.cons rfl (.externalized newC.value hphase ?_)
    rw [hsame]
    rfl
  | bump value counter hcounter =>
    obtain ⟨c₁, hkept, hresult⟩ := bumpValue_kept value counter hordered
    have hbumped : Appends (StepEvent ctx c (recorded ctx (bumpValue value counter c).1
        (bumpValue value counter c).2)) c (bumpValue value counter c).2 := by
      rcases hresult with hresult | hresult
      · rw [hresult]
        exact hkept.appends.mono fun e he => .quiet he
      · rw [hresult]
        exact (hkept.appends.mono fun e he => .quiet he).cons rfl (.check _)
    refine hbumped.trans ((recorded_appends ctx _ _).mono fun e he => ?_)
    exact stepEvent_of_record (recorded_toBallots ctx _ _) he

theorem Step.said (hordered : c.state.Ordered) (hstep : Step ctx arrives c c')
    (hbefore : ∀ st, Said c st → Truthful ctx.localNodeId
      (ctx.hashQuorumSet ctx.localQuorumSet) c.state.toBallots st) :
    ∀ st, Said c' st → Truthful ctx.localNodeId (ctx.hashQuorumSet ctx.localQuorumSet)
      c'.state.toBallots st := by
  rintro st ⟨stored, outcome, hmem⟩
  have hchange := hstep.change hordered
  rcases (hstep.appends hordered).old_or hmem with hold | hnew
  · exact (hbefore st ⟨stored, outcome, hold⟩).change hordered hchange
  · cases hnew with
    | quiet hquiet => simp [ScpEvent.quiet] at hquiet
    | said stored pledges canEmit outcome hpledges =>
      exact truthful_selfPledges (hchange.ordered hordered) hpledges

/-! ### What is stored for a node -/

theorem recorded_statement? (ctx : SlotContext N V H) (didWork : Bool) (c : Ballot N V H) {node : N}
    (hst : (recorded ctx didWork c).state.latestEnvelopes.statement? node = some st) :
    c.state.latestEnvelopes.statement? node = some st ∨
      node = ctx.localNodeId ∧ Said (recorded ctx didWork c) st := by
  by_cases hnode : node = ctx.localNodeId
  · subst hnode
    unfold recorded at hst ⊢
    split at hst
    next hwork =>
      rw [if_pos hwork]
      have hcases := recordCurrentState_cases ctx c
      cases hrecord : recordCurrentState ctx c with
      | mk outcome c' =>
        rw [hrecord] at hcases hst
        cases hcases with
        | unavailable => exact .inl hst
        | notSane => exact .inl hst
        | notNewer => exact .inl hst
        | invalid pledges => exact .inl (by simpa using hst)
        | valueMismatch pledges => exact .inl (by simpa using hst)
        | advance pledges canEmit validation =>
          right
          obtain rfl : localStatement ctx pledges = st := by
            simpa [storeSelf, createSignedEnvelope] using hst
          exact ⟨rfl, _, _, List.mem_cons_self⟩
        | final pledges canEmit =>
          right
          obtain rfl : localStatement ctx pledges = st := by
            simpa [storeSelf, createSignedEnvelope] using hst
          exact ⟨rfl, _, _, List.mem_cons_self⟩
    · exact .inl hst
  · rw [recorded_statement?_ne hnode] at hst
    exact .inl hst

/-- What is stored after a step was stored before, was said by the node itself,
or arrived. -/
theorem Step.statement?_cases (hordered : c.state.Ordered) (hstep : Step ctx arrives c c')
    {node : N} (hst : c'.state.latestEnvelopes.statement? node = some st) :
    c.state.latestEnvelopes.statement? node = some st ∨
      (node = ctx.localNodeId ∧ Said c' st) ∨
        ∃ envelope, arrives (.statement envelope) ∧ envelope.statement = st ∧ node = st.nodeId := by
  have hrecord {didWork : Bool} {d : Ballot N V H}
      (hkept : d.state.latestEnvelopes = c.state.latestEnvelopes)
      (hst : (recorded ctx didWork d).state.latestEnvelopes.statement? node = some st) :
      c.state.latestEnvelopes.statement? node = some st ∨
        node = ctx.localNodeId ∧ Said (recorded ctx didWork d) st := by
    rw [← hkept]
    exact recorded_statement? ctx didWork d hst
  cases hstep with
  | idle hidle =>
    rw [hidle.latestEnvelopes] at hst
    exact .inl hst
  | send =>
    rw [sendLatestEnvelope_latestEnvelopes] at hst
    exact .inl hst
  | receive envelope harrives hnewer =>
    by_cases hnode : node = envelope.statement.nodeId
    · subst hnode
      obtain rfl : envelope.statement = st := by simpa [storeEnvelope] using hst
      exact .inr (.inr ⟨envelope, harrives, rfl, rfl⟩)
    · left
      simpa [storeEnvelope, hnode] using hst
  | acceptPrepared ballot hphase hskip haccepts =>
    exact (hrecord (acceptPrepared_kept ballot c).latestEnvelopes hst).imp_right .inl
  | confirmPrepared newC newH hphase hprepared hhigh hratifies hnewC hcovered =>
    exact (hrecord (confirmPrepared_kept newC newH c).latestEnvelopes hst).imp_right .inl
  | acceptCommit newC newH hphase hprepared hnewC hcounter hconfirm haccepts =>
    exact (hrecord (acceptCommit_kept newC newH c).latestEnvelopes hst).imp_right .inl
  | confirmCommit c₁ newC newH hphase hnewC hcounter hcommit hratifies hsend =>
    have hkept := (confirmCommit_kept newC newH c).latestEnvelopes
    have hgrows : ∀ e ∈ (recorded ctx true (Scp.confirmCommit newC newH c)).log,
        e ∈ (reportExternalized newC.value c₁).log := by
      intro e he
      apply List.mem_cons_of_mem
      rcases hsend with rfl | rfl
      · exact he
      · exact (sendLatestEnvelope_appends _).subset he
    have hst' : (recorded ctx true
        (Scp.confirmCommit newC newH c)).state.latestEnvelopes.statement? node = some st := by
      rcases hsend with rfl | rfl
      · exact hst
      · change (sendLatestEnvelope _).state.latestEnvelopes.statement? node = some st at hst
        rwa [sendLatestEnvelope_latestEnvelopes] at hst
    rcases hrecord hkept hst' with hold | ⟨hnode, stored, outcome, hmem⟩
    · exact .inl hold
    · exact .inr (.inl ⟨hnode, stored, outcome, hgrows _ hmem⟩)
  | bump value counter hcounter =>
    exact (hrecord (bumpValue_latestEnvelopes value counter hordered) hst).imp_right .inl

/-! ### What is reported -/

/-- The committed value was reported once, on entering EXTERNALIZE. -/
def Reported (c : Ballot N V H) : Prop :=
  reported c.log =
    if c.state.phase = .externalize then (c.state.commit.map ScpBallot.value).toList else []

omit [LinearOrder V] [OrderBot V] [DecidableEq N] [DecidableEq H] in
theorem externalizedValue_of_quiet (hquiet : e.quiet = true) : e.externalizedValue = none := by
  cases e <;> simp_all [ScpEvent.quiet, ScpEvent.externalizedValue]

omit [DecidableEq N] [DecidableEq H] in
theorem StepEvent.externalizedValue_eq_none (hevent : StepEvent ctx c c' e)
    (hphase : c.state.phase = .confirm → c'.state.phase ≠ .externalize) :
    e.externalizedValue = none := by
  cases hevent with
  | quiet hquiet => exact externalizedValue_of_quiet hquiet
  | externalized value hbefore hafter => exact absurd hafter (hphase hbefore)
  | _ => rfl

theorem Step.enters_externalize (hordered : c.state.Ordered) (hstep : Step ctx arrives c c')
    (hbefore : c.state.phase ≠ .externalize) (hafter : c'.state.phase = .externalize) :
    ∃ newC newH c₁, (c₁ = recorded ctx true (Scp.confirmCommit newC newH c) ∨
        c₁ = sendLatestEnvelope (recorded ctx true (Scp.confirmCommit newC newH c))) ∧
      c' = reportExternalized newC.value c₁ ∧
      ∃ ballot interval, ballot.value = newH.value ∧
        ratifiesCommit ctx c.state ballot interval = true := by
  cases hstep with
  | idle hidle => exact absurd (hidle.toBallots ▸ hafter) hbefore
  | send => exact absurd (sendLatestEnvelope_toBallots c ▸ hafter) hbefore
  | receive => exact absurd hafter hbefore
  | acceptPrepared ballot hphase hskip haccepts =>
    obtain ⟨s, hraises, heq⟩ := acceptPrepared_raises hskip
    rw [recorded_toBallots, heq, (Ballots.voided_frame s).2.2.2.2.1, hraises.frame.2.2.2.1]
      at hafter
    exact absurd hafter hbefore
  | confirmPrepared newC newH hphase hprepared hhigh hratifies hnewC hcovered =>
    have hconfirms : c.state.Confirms newC newH _ _ := confirmPrepared_confirms hordered hhigh
    rw [recorded_toBallots] at hafter
    exact absurd (hconfirms.phase ▸ hafter) hbefore
  | acceptCommit newC newH hphase hprepared hnewC hcounter hconfirm haccepts =>
    rw [recorded_toBallots] at hafter
    cases hprepare : c.state.phase with
    | prepare =>
      rw [(acceptCommit_prepare newC newH hprepare).2] at hafter
      simp at hafter
    | confirm =>
      rw [(acceptCommit_confirm hprepare (fun h hh => (hconfirm hprepare h hh).1)).2] at hafter
      exact absurd hafter hbefore
    | externalize => exact absurd hprepare hphase
  | confirmCommit c₁ newC newH hphase hnewC hcounter hcommit hratifies hsend =>
    obtain ⟨ballot, hvalue, hratifies⟩ := hratifies
    exact ⟨newC, newH, c₁, hsend, rfl, ballot, _, hvalue, hratifies⟩
  | bump value counter hcounter =>
    rw [recorded_toBallots] at hafter
    unfold bumpValue at hafter
    rcases updateCurrentValue_cases ⟨counter, c.state.valueOverride.getD value⟩ hordered with
      ⟨c₁, _, heq, hr | hr⟩ | ⟨_, _, _, c₁, _, heq, hr⟩
    · rw [hr, heq] at hafter
      exact absurd hafter hbefore
    · rw [hr] at hafter
      exact absurd (heq ▸ hafter) hbefore
    · rw [hr] at hafter
      change c₁.state.toBallots.phase = .externalize at hafter
      rw [heq, (Ballots.bumped_frame _ _).2.2.2.1] at hafter
      exact absurd hafter hbefore

theorem Step.reported (hordered : c.state.Ordered) (hstep : Step ctx arrives c c')
    (hbefore : Reported c) : Reported c' := by
  unfold Reported at hbefore ⊢
  have happends := hstep.appends hordered
  have hchange := hstep.change hordered
  by_cases hphase : c.state.phase = .externalize
  · have hsame := hchange.final hphase
    have hnone : ∀ e, StepEvent ctx c c' e → e.externalizedValue = none := fun e he =>
      he.externalizedValue_eq_none (by simp [hphase])
    unfold Scp.reported at hbefore ⊢
    rw [happends.filterMap_eq hnone, hsame, hbefore]
  · rw [if_neg hphase] at hbefore
    by_cases hafter : c'.state.phase = .externalize
    · obtain ⟨newC, newH, c₁, hsend, rfl, _⟩ := hstep.enters_externalize hordered hphase hafter
      -- The recording and the send that come first report nothing.
      have hconfirmed : Appends (fun e => e.externalizedValue = none) c
          (Scp.confirmCommit newC newH c) := by
        refine (transition_appends (confirmCommit_kept newC newH c)).mono ?_
        rintro e (hquiet | rfl)
        · exact externalizedValue_of_quiet hquiet
        · rfl
      have hrecorded : Appends (fun e => e.externalizedValue = none) c
          (recorded ctx true (Scp.confirmCommit newC newH c)) := by
        refine hconfirmed.trans ((recorded_appends ctx true _).mono ?_)
        rintro e (hquiet | rfl | ⟨_, _, _, _, rfl⟩)
        · exact externalizedValue_of_quiet hquiet
        · rfl
        · rfl
      have hsilent : Appends (fun e => e.externalizedValue = none) c c₁ := by
        rcases hsend with rfl | rfl
        · exact hrecorded
        · refine hrecorded.trans ((sendLatestEnvelope_appends _).mono ?_)
          rintro e ⟨envelope, rfl⟩
          rfl
      have hlog : Scp.reported c₁.log = [] := by
        unfold Scp.reported at hbefore ⊢
        rw [hsilent.filterMap_eq (fun e he => he), hbefore]
      have hcommit : (reportExternalized newC.value c₁).state.commit = some newC := by
        rw [reported_toBallots hsend]
        rfl
      rw [if_pos hafter, hcommit]
      unfold Scp.reported at hlog ⊢
      rw [reportExternalized, Traced.notify_log, List.filterMap_cons, Traced.modify_log, hlog]
      rfl
    · have hnone : ∀ e, StepEvent ctx c c' e → e.externalizedValue = none := fun e he =>
        he.externalizedValue_eq_none (fun _ => hafter)
      unfold Scp.reported at hbefore ⊢
      rw [happends.filterMap_eq hnone, if_neg hafter, hbefore]

end Henyey.Scp
