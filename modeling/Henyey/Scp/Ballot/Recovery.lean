import Henyey.Scp.Ballot.Consistency
import Henyey.Scp.Ballot.Monotone

/-!
# Recovery from the last envelope

After a crash the node takes up the ballot protocol from the envelope it stored last.
The envelope names the high ballot and the commit by their counters only, CONFIRM drops
the value of `p`, and EXTERNALIZE drops `b` and `p`. So the state comes back as it was
exactly if nothing that matters was dropped; what the node says next is in any case
what it said before.
-/

namespace Henyey.Scp

open Foundation Ballot Option

variable {N V H : Type}

/-- Why recovery fails: it comes too late, or it is called with a nomination. -/
inductive RecoveryFailure where
  | refused (message : String)
  | unreachable
deriving DecidableEq

section Code

variable [DecidableEq N] [LinearOrder V]

/-- Keep the envelope as the last one, which was sent before the crash. -/
def rememberEnvelope (envelope : ScpEnvelope N V H) (s : BallotProtocol N V H) :
    BallotProtocol N V H :=
  { s with
    latestEnvelopes := s.latestEnvelopes.insert envelope.statement.nodeId envelope
    lastEnvelope := some envelope
    lastEnvelopeEmit := some envelope }

/-- A ballot of which only the counter is kept, zero meaning that there is none. -/
def ballotOfCounter (counter : U32) (value : V) (otherwise : Option (ScpBallot V)) :
    Option (ScpBallot V) :=
  if counter ≠ 0 then some ⟨counter, value⟩ else otherwise

def setStateFromEnvelope (envelope : ScpEnvelope N V H) (c : Ballot N V H) :
    Except RecoveryFailure (Ballot N V H) :=
  if c.state.currentBallot.isSome then
    .error (.refused "Cannot set state after starting ballot protocol")
  else
    match envelope.statement.pledges with
    | .prepare prep =>
      let (_, c) := bumpToBallot prep.ballot true c
      .ok ((updateBallots (fun s =>
        { s with
          prepared := prep.prepared
          preparedPrime := prep.preparedPrime
          commit := ballotOfCounter prep.nC prep.ballot.value s.commit
          highBallot := ballotOfCounter prep.nH prep.ballot.value s.highBallot
          phase := .prepare }) c).modify (rememberEnvelope envelope))
    | .confirm conf =>
      let (_, c) := bumpToBallot conf.ballot true c
      .ok ((updateBallots (fun s =>
        { s with
          prepared := some ⟨conf.nPrepared, conf.ballot.value⟩
          preparedPrime := none
          commit := some ⟨conf.nCommit, conf.ballot.value⟩
          highBallot := some ⟨conf.nH, conf.ballot.value⟩
          phase := .confirm }) c).modify (rememberEnvelope envelope))
    | .externalize ext =>
      let c := updateBallots (fun s =>
        { s with
          commit := some ext.commit
          highBallot := some ⟨ext.nH, ext.commit.value⟩ }) c
      let (_, c) := bumpToBallot ⟨U32.max, ext.commit.value⟩ true c
      .ok ((updateBallots (fun s =>
        { s with
          prepared := some ⟨U32.max, ext.commit.value⟩
          phase := .externalize }) c).modify (rememberEnvelope envelope))
    | .nominate _ => .error .unreachable

end Code

/-! ### What comes back -/

/-- The ballots and the phase are back as they were. `p'` matters in PREPARE alone, and
nothing looks at `b` any more in EXTERNALIZE. -/
structure Ballots.RestoredAs (s r : Ballots V) : Prop where
  phase : r.phase = s.phase
  prepared : r.prepared = s.prepared
  preparedPrime : s.phase = .prepare → r.preparedPrime = s.preparedPrime
  commit : r.commit = s.commit
  highBallot : r.highBallot = s.highBallot
  currentBallot : s.phase ≠ .externalize → r.currentBallot = s.currentBallot

/-- Nothing that matters is dropped by the envelope of the state: in PREPARE the ballots
have counters, in CONFIRM there is a commit and `p` is of its value, and in EXTERNALIZE
`p` is the last ballot of it. -/
def Ballots.Recoverable (s : Ballots V) : Prop :=
  match s.phase with
  | .prepare => (∀ b ∈ s.currentBallot, b.counter ≠ 0) ∧ ∀ h ∈ s.highBallot, h.counter ≠ 0
  | .confirm => s.commit ≠ none ∧ ∀ p ∈ s.prepared, ∀ h ∈ s.highBallot, p.value = h.value
  | .externalize => ∀ commit ∈ s.commit, s.prepared = some ⟨U32.max, commit.value⟩

variable [DecidableEq N] [LinearOrder V] [OrderBot V]

/-- A fresh protocol recovers from the envelope: it succeeds with a consistent state in
which all is as it was, and whose statement is that of the envelope. -/
def Recovers (ctx : SlotContext N V H) (envelope : ScpEnvelope N V H) (s : Ballots V) : Prop :=
  ∃ r, setStateFromEnvelope envelope new = .ok r ∧
    checkInvariants r.state.toBallots = .ok () ∧ s.RestoredAs r.state.toBallots ∧
    selfStatement ctx r.state.toBallots = some envelope.statement

variable {ctx : SlotContext N V H} {envelope : ScpEnvelope N V H} {s : Ballots V}

/-! ### The state after recovery -/

section Restored

variable {N V H : Type} [DecidableEq N] [LinearOrder V] {envelope : ScpEnvelope N V H}

theorem bumpToBallot_first {N V H : Type} [LinearOrder V] {c : Ballot N V H} {ballot : ScpBallot V}
    (hcurrent : c.state.currentBallot = none)
    (hsame : ∀ h ∈ c.state.highBallot, ballot.value = h.value) :
    (bumpToBallot ballot true c).2.state.toBallots =
      { c.state.toBallots with currentBallot := some ballot } := by
  have hbelow : c.state.below ballot := by
    intro b hb
    rw [hcurrent] at hb
    cases hb
  rw [(bumpToBallot_of_below true hbelow).2, Ballots.bumped_of_compatible hsame]

/-- What PREPARE brings back. -/
def preparedBallots (prep : ScpStatementPrepare V H) : Ballots V where
  currentBallot := some prep.ballot
  prepared := prep.prepared
  preparedPrime := prep.preparedPrime
  highBallot := ballotOfCounter prep.nH prep.ballot.value none
  commit := ballotOfCounter prep.nC prep.ballot.value none
  phase := .prepare
  valueOverride := none

/-- What CONFIRM brings back. -/
def confirmedBallots (conf : ScpStatementConfirm V H) : Ballots V where
  currentBallot := some conf.ballot
  prepared := some ⟨conf.nPrepared, conf.ballot.value⟩
  preparedPrime := none
  highBallot := some ⟨conf.nH, conf.ballot.value⟩
  commit := some ⟨conf.nCommit, conf.ballot.value⟩
  phase := .confirm
  valueOverride := none

/-- What EXTERNALIZE brings back. -/
def externalizedBallots (ext : ScpStatementExternalize V H) : Ballots V where
  currentBallot := some ⟨U32.max, ext.commit.value⟩
  prepared := some ⟨U32.max, ext.commit.value⟩
  preparedPrime := none
  highBallot := some ⟨ext.nH, ext.commit.value⟩
  commit := some ext.commit
  phase := .externalize
  valueOverride := none

theorem setStateFromEnvelope_prepare {prep : ScpStatementPrepare V H}
    (hpledges : envelope.statement.pledges = .prepare prep) :
    ∃ r, setStateFromEnvelope envelope new = .ok r ∧ r.state.toBallots = preparedBallots prep := by
  refine ⟨_, by rw [setStateFromEnvelope, if_neg (by simp [new, BallotProtocol.new,
    Ballots.new]), hpledges], ?_⟩
  have hfirst := @bumpToBallot_first N V H _ new prep.ballot rfl
    (by simp [new, BallotProtocol.new, Ballots.new])
  simp only [Traced.modify_state, rememberEnvelope, updateBallots_toBallots, hfirst]
  rfl

theorem setStateFromEnvelope_confirm {conf : ScpStatementConfirm V H}
    (hpledges : envelope.statement.pledges = .confirm conf) :
    ∃ r, setStateFromEnvelope envelope new = .ok r ∧ r.state.toBallots = confirmedBallots conf := by
  refine ⟨_, by rw [setStateFromEnvelope, if_neg (by simp [new, BallotProtocol.new,
    Ballots.new]), hpledges], ?_⟩
  have hfirst := @bumpToBallot_first N V H _ new conf.ballot rfl
    (by simp [new, BallotProtocol.new, Ballots.new])
  simp only [Traced.modify_state, rememberEnvelope, updateBallots_toBallots, hfirst]
  rfl

theorem setStateFromEnvelope_externalize {ext : ScpStatementExternalize V H}
    (hpledges : envelope.statement.pledges = .externalize ext) :
    ∃ r, setStateFromEnvelope envelope new = .ok r ∧
      r.state.toBallots = externalizedBallots ext := by
  refine ⟨_, by rw [setStateFromEnvelope, if_neg (by simp [new, BallotProtocol.new,
    Ballots.new]), hpledges], ?_⟩
  have hfirst := @bumpToBallot_first N V H _ (updateBallots (fun s =>
      { s with
        commit := some ext.commit
        highBallot := some ⟨ext.nH, ext.commit.value⟩ }) new)
    ⟨U32.max, ext.commit.value⟩ rfl (by simp)
  simp only [Traced.modify_state, rememberEnvelope, updateBallots_toBallots, hfirst]
  rfl

end Restored

/-! ### When the state is back as it was -/

section Lossless

variable {V : Type}

theorem counterOrZero_ballotOfCounter (counter : U32) (value : V) :
    counterOrZero (ballotOfCounter counter value none) = counter := by
  unfold ballotOfCounter
  split
  · rfl
  next hzero => exact (not_not.mp hzero).symm

theorem ballotOfCounter_eq_iff {ballot : Option (ScpBallot V)} {value : V}
    (hvalue : ∀ b ∈ ballot, b.value = value) :
    ballotOfCounter (counterOrZero ballot) value none = ballot ↔ ∀ b ∈ ballot, b.counter ≠ 0 := by
  cases ballot with
  | none => simp [counterOrZero, ballotOfCounter]
  | some b =>
    obtain rfl : b.value = value := hvalue b rfl
    change (if b.counter ≠ 0 then some b else none) = some b ↔ _
    split
    next hcounter => simpa using hcounter
    next hzero => simpa using not_not.mp hzero

theorem some_counterOrZero_eq_iff {ballot : Option (ScpBallot V)} {value : V} :
    some ⟨counterOrZero ballot, value⟩ = ballot ↔ ballot ≠ none ∧ ∀ b ∈ ballot, b.value = value := by
  cases ballot with
  | none => simp
  | some b =>
    obtain ⟨counter, own⟩ := b
    simp [counterOrZero, eq_comm]

variable [LinearOrder V]

theorem Ballots.Ordered.highBallot_value {s : Ballots V} (hordered : s.Ordered) {b : ScpBallot V}
    (hcurrent : s.currentBallot = some b) : ∀ h ∈ s.highBallot, h.value = b.value := by
  intro h hh
  obtain ⟨b', hb', -, hvalue⟩ := hordered.high h hh
  rwa [mem_unique hb' hcurrent] at hvalue

theorem Ballots.Ordered.commit_value {s : Ballots V} (hordered : s.Ordered) {b : ScpBallot V}
    (hcurrent : s.currentBallot = some b) : ∀ commit ∈ s.commit, commit.value = b.value := by
  intro commit hcommit
  obtain ⟨h, hh, -, hvalue⟩ := hordered.commit commit hcommit
  rw [hvalue, hordered.highBallot_value hcurrent h hh]

/-- The check does not look at the value that is imposed on bumps. -/
theorem checkInvariants_restored {s r : Ballots V} (hrestored : s.RestoredAs r)
    (hphase : s.phase ≠ .externalize) (hprime : r.preparedPrime = s.preparedPrime) :
    checkInvariants r = checkInvariants s := by
  obtain ⟨hsame, hprepared, -, hcommit, hhigh, hcurrent⟩ := hrestored
  have hcurrent := hcurrent hphase
  unfold checkInvariants checkPhase checkCurrent checkPrepared checkHigh checkCommit
  rw [hsame, hprepared, hcommit, hhigh, hcurrent, hprime]

theorem checkCurrent_of_checkInvariants {s : Ballots V} (hcheck : checkInvariants s = .ok ()) :
    ∀ b ∈ s.currentBallot, b.counter ≠ 0 := by
  unfold checkInvariants at hcheck
  obtain ⟨_, _, hcheck⟩ := bind_ok_iff.mp hcheck
  obtain ⟨_, hcurrent, _⟩ := bind_ok_iff.mp hcheck
  exact checkCurrent_ok_iff.mp hcurrent

theorem checkInvariants_externalizedBallots {H : Type} {ext : ScpStatementExternalize V H}
    (hcounter : ext.nH ≠ 0) (hle : ext.commit ≤ ⟨ext.nH, ext.commit.value⟩) :
    checkInvariants (externalizedBallots ext) = .ok () := by
  have hlast : (⟨ext.nH, ext.commit.value⟩ : ScpBallot V) ≤ ⟨U32.max, ext.commit.value⟩ := by
    rw [ballot_le_iff]
    rcases lt_or_eq_of_le (Fin.le_last ext.nH) with hlt | heq
    · exact .inl hlt
    · exact .inr ⟨heq, le_rfl⟩
  have hordered : ({ externalizedBallots ext with
      valueOverride := some ext.commit.value } : Ballots V).Ordered := by
    refine ⟨nofun, ?_, ?_, fun _ => ⟨⟨_, rfl, hcounter, rfl⟩, nofun, rfl⟩, fun _ => nofun⟩
    · rintro h ⟨⟩
      exact ⟨_, rfl, hlast, rfl⟩
    · rintro commit ⟨⟩
      exact ⟨_, rfl, hle, rfl⟩
  refine (checkInvariants_ok_iff hordered).mpr ⟨?_, fun _ => nofun⟩
  rintro b ⟨⟩
  exact Fin.last_pos.ne'

end Lossless

theorem recovers_iff_of_restored {restored : Ballots V}
    (hrestored : ∃ r, setStateFromEnvelope envelope new = .ok r ∧ r.state.toBallots = restored) :
    Recovers ctx envelope s ↔ checkInvariants restored = .ok () ∧ s.RestoredAs restored ∧
      selfStatement ctx restored = some envelope.statement := by
  obtain ⟨r, hok, rfl⟩ := hrestored
  constructor
  · rintro ⟨r', hok', hrecovers⟩
    obtain rfl : r = r' := Except.ok.inj (hok.symm.trans hok')
    exact hrecovers
  · exact fun hrecovers => ⟨r, hok, hrecovers⟩

theorem recovers_iff_of_prepare (hordered : s.Ordered) (hphase : s.phase = .prepare)
    (hcommitted : ∀ commit ∈ s.commit, commit.counter ≠ 0) {b : ScpBallot V}
    (hcurrent : s.currentBallot = some b)
    (hstatement : envelope.statement = localStatement ctx (.prepare (preparePledge ctx s))) :
    Recovers ctx envelope s ↔ s.Recoverable := by
  have hballot : (preparePledge ctx s).ballot = b := by
    unfold preparePledge
    rw [hcurrent]
    rfl
  have hhighValue := hordered.highBallot_value hcurrent
  have hcommitValue := hordered.commit_value hcurrent
  have hcommit : (preparedBallots (preparePledge ctx s)).commit = s.commit := by
    change ballotOfCounter (counterOrZero s.commit) (preparePledge ctx s).ballot.value none = _
    rw [hballot]
    exact (ballotOfCounter_eq_iff hcommitValue).mpr hcommitted
  -- a counter of zero reads as no ballot
  have hhigh : (preparedBallots (preparePledge ctx s)).highBallot = s.highBallot ↔
      ∀ h ∈ s.highBallot, h.counter ≠ 0 := by
    change ballotOfCounter (counterOrZero s.highBallot) (preparePledge ctx s).ballot.value none =
      _ ↔ _
    rw [hballot]
    exact ballotOfCounter_eq_iff hhighValue
  have hself : selfStatement ctx (preparedBallots (preparePledge ctx s)) =
      some envelope.statement := by
    rw [hstatement, selfStatement_prepare rfl]
    unfold preparePledge preparedBallots
    simp only [counterOrZero_ballotOfCounter, getD_some]
  rw [recovers_iff_of_restored (setStateFromEnvelope_prepare (congrArg (·.pledges) hstatement))]
  unfold Ballots.Recoverable
  rw [hphase]
  constructor
  · rintro ⟨hcheck, hrestored, -⟩
    have hcounter := checkCurrent_of_checkInvariants hcheck
    rw [hrestored.currentBallot (by simp [hphase])] at hcounter
    exact ⟨hcounter, hhigh.mp hrestored.highBallot⟩
  · rintro ⟨hcounter, hcounters⟩
    have hrestored : s.RestoredAs (preparedBallots (preparePledge ctx s)) :=
      ⟨hphase.symm, rfl, fun _ => rfl, hcommit, hhigh.mpr hcounters, fun _ => by
        rw [hcurrent]
        exact congrArg some hballot⟩
    refine ⟨?_, hrestored, hself⟩
    rw [checkInvariants_restored hrestored (by simp [hphase]) rfl, checkInvariants_ok_iff hordered]
    exact ⟨hcounter, fun hlater => absurd hphase hlater⟩

/-- In CONFIRM there has to be a commit, and `p` has to be of its value. -/
theorem recovers_iff_of_confirm (hordered : s.Ordered) (hphase : s.phase = .confirm)
    {b : ScpBallot V} (hcurrent : s.currentBallot = some b)
    (hstatement : envelope.statement = localStatement ctx (.confirm (confirmPledge ctx s b))) :
    Recovers ctx envelope s ↔ s.Recoverable := by
  have hlater : s.phase ≠ .prepare := by simp [hphase]
  obtain ⟨⟨h, hh, hcounter, -⟩, hprepared, hprime⟩ := hordered.confirmed hlater
  have hhighValue := hordered.highBallot_value hcurrent
  have hcommitValue := hordered.commit_value hcurrent
  have hhigh : (confirmedBallots (confirmPledge ctx s b)).highBallot = s.highBallot :=
    some_counterOrZero_eq_iff.mpr ⟨ne_none_iff_exists'.mpr ⟨h, hh⟩, hhighValue⟩
  have hcommit : (confirmedBallots (confirmPledge ctx s b)).commit = s.commit ↔ s.commit ≠ none :=
    some_counterOrZero_eq_iff.trans (and_iff_left hcommitValue)
  -- `p` comes back with the value of the current ballot, which is that of `h`
  have hprepared' : (confirmedBallots (confirmPledge ctx s b)).prepared = s.prepared ↔
      ∀ p ∈ s.prepared, ∀ h ∈ s.highBallot, p.value = h.value := by
    refine some_counterOrZero_eq_iff.trans ((and_iff_right hprepared).trans ?_)
    refine forall₂_congr fun p _ => ⟨fun hvalue h' hh' => ?_, fun hvalue => ?_⟩
    · exact hvalue.trans (hhighValue h' hh').symm
    · exact (hvalue h hh).trans (hhighValue h hh)
  have hself : selfStatement ctx (confirmedBallots (confirmPledge ctx s b)) =
      some envelope.statement := by
    rw [hstatement]
    exact selfStatement_confirm rfl rfl
  rw [recovers_iff_of_restored (setStateFromEnvelope_confirm (congrArg (·.pledges) hstatement))]
  unfold Ballots.Recoverable
  rw [hphase]
  constructor
  · rintro ⟨-, hrestored, -⟩
    exact ⟨hcommit.mp hrestored.commit, hprepared'.mp hrestored.prepared⟩
  · rintro ⟨hset, hvalue⟩
    have hrestored : s.RestoredAs (confirmedBallots (confirmPledge ctx s b)) :=
      ⟨hphase.symm, hprepared'.mpr hvalue, fun hprepare => absurd hprepare hlater,
        hcommit.mpr hset, hhigh, fun _ => hcurrent.symm⟩
    refine ⟨?_, hrestored, hself⟩
    rw [checkInvariants_restored hrestored (by simp [hphase]) hprime.symm,
      checkInvariants_ok_iff hordered]
    refine ⟨fun b' hb' => ?_, fun _ => hset⟩
    obtain ⟨b'', hb'', hle, -⟩ := hordered.high h hh
    rw [mem_unique hb' hb'']
    exact counter_ne_zero_of_le hle hcounter

theorem recovers_iff_of_externalize (hordered : s.Ordered) (hphase : s.phase = .externalize)
    {commit : ScpBallot V} (hcommit : s.commit = some commit)
    (hstatement : envelope.statement = localStatement ctx (.externalize
      { commit := commit
        nH := counterOrZero s.highBallot
        commitQuorumSetHash := ctx.hashQuorumSet ctx.localQuorumSet })) :
    Recovers ctx envelope s ↔ s.Recoverable := by
  obtain ⟨h, hh, hle, hvalue⟩ := hordered.commit commit hcommit
  have hcounter : h.counter ≠ 0 := by
    obtain ⟨⟨h', hh', hcounter, -⟩, -⟩ := hordered.confirmed (by simp [hphase])
    rwa [mem_unique hh hh']
  have hhigh : some ⟨counterOrZero s.highBallot, commit.value⟩ = s.highBallot := by
    refine some_counterOrZero_eq_iff.mpr ⟨ne_none_iff_exists'.mpr ⟨h, hh⟩, ?_⟩
    intro h' hh'
    rw [mem_unique hh' hh, hvalue]
  have hhighEq : (⟨counterOrZero s.highBallot, commit.value⟩ : ScpBallot V) = h :=
    some.inj (hhigh.trans hh)
  rw [recovers_iff_of_restored (setStateFromEnvelope_externalize
    (congrArg (·.pledges) hstatement))]
  unfold Ballots.Recoverable
  rw [hphase]
  constructor
  · rintro ⟨-, hrestored, -⟩ commit' hcommit'
    rw [mem_unique hcommit' hcommit]
    exact hrestored.prepared.symm
  · intro hprepared
    refine ⟨?_, ⟨hphase.symm, (hprepared commit hcommit).symm, ?_, hcommit.symm, hhigh, ?_⟩, ?_⟩
    · rw [← hhighEq] at hcounter hle
      exact checkInvariants_externalizedBallots hcounter hle
    · exact fun hprepare => by simp [hphase] at hprepare
    · exact fun hext => absurd hphase hext
    · rw [hstatement]
      simp [selfStatement, selfPledges, externalizedBallots, counterOrZero]

theorem recovers_iff (hordered : s.Ordered) (hcommitted : ∀ commit ∈ s.commit, commit.counter ≠ 0)
    {pledges : ScpStatementPledges V H} (hpledges : selfPledges ctx s = some (pledges, true))
    (hstatement : envelope.statement = localStatement ctx pledges) :
    Recovers ctx envelope s ↔ s.Recoverable := by
  unfold selfPledges at hpledges
  cases hphase : s.phase with
  | prepare =>
    rw [hphase] at hpledges
    obtain ⟨rfl, hsome⟩ := Prod.mk.inj (some.inj hpledges)
    obtain ⟨b, hcurrent⟩ := isSome_iff_exists.mp hsome
    exact recovers_iff_of_prepare hordered hphase hcommitted hcurrent hstatement
  | confirm =>
    rw [hphase] at hpledges
    obtain ⟨b, hcurrent, heq⟩ := map_eq_some_iff.mp hpledges
    obtain ⟨rfl, -⟩ := Prod.mk.inj heq
    exact recovers_iff_of_confirm hordered hphase hcurrent hstatement
  | externalize =>
    rw [hphase] at hpledges
    obtain ⟨commit, hcommit, heq⟩ := map_eq_some_iff.mp hpledges
    obtain ⟨rfl, -⟩ := Prod.mk.inj heq
    exact recovers_iff_of_externalize hordered hphase hcommit hstatement

omit [DecidableEq N] in
/-- What votes to prepare a ballot, and has one prepared, has counters. -/
theorem recoverable_of_prepare {prep : ScpStatementPrepare V H}
    (hpledges : selfPledges ctx s = some (.prepare prep, true)) (hballot : prep.ballot.counter ≠ 0)
    (hhigh : prep.nH ≠ 0) : s.Recoverable := by
  unfold selfPledges at hpledges
  unfold Ballots.Recoverable
  cases hphase : s.phase with
  | prepare =>
    rw [hphase] at hpledges
    obtain ⟨hprep, -⟩ := Prod.mk.inj (some.inj hpledges)
    cases hprep
    refine ⟨fun b hb => ?_, fun h hh => ?_⟩
    · rwa [mem_def.mp hb] at hballot
    · rwa [mem_def.mp hh] at hhigh
  | _ =>
    rw [hphase] at hpledges
    obtain ⟨_, -, heq⟩ := map_eq_some_iff.mp hpledges
    cases heq

/-! ### The envelope that a run stored last -/

section Runs

theorem Appends.suffix {N V H : Type} {c d : Ballot N V H} {P : ScpEvent N V H → Prop}
    (happends : Appends P c d) : c.log <:+ d.log := by
  obtain ⟨new, hlog, -⟩ := happends
  exact ⟨new, hlog.symm⟩

theorem Ballots.Change.commit_counter {V : Type} [LinearOrder V] {s s' : Ballots V}
    (hchange : s.Change s') (hbefore : ∀ commit ∈ s.commit, commit.counter ≠ 0) :
    ∀ commit ∈ s'.commit, commit.counter ≠ 0 := by
  intro commit hcommit
  cases hchange with
  | same => exact hbefore commit hcommit
  | raise ballot s₁ hphase hraises =>
    rcases (voided_frame s₁).2.2.2.2.2.2 with hsame | hnone
    · rw [hsame, hraises.frame.2.2.1] at hcommit
      exact hbefore commit hcommit
    · rw [hnone] at hcommit
      cases hcommit
  | confirm newC newH didWork s₁ hphase hnewC hhigh hconfirms =>
    cases hconfirms with
    | incompatibleAbove b hcurrent hvalue hle => exact hbefore commit hcommit
    | incompatibleBelow b hcurrent hvalue hlt => cases hcommit
    | compatible hvalue =>
      simp only at hcommit
      split at hcommit
      next hset =>
        obtain rfl := some.inj hcommit
        exact hset.1
      · exact hbefore commit hcommit
  | enterConfirm newC newH hphase hprepared hnewC hcounter =>
    obtain rfl := some.inj hcommit
    exact hcounter
  | raiseCommit newC newH h hphase hnewC hcounter =>
    obtain rfl := some.inj hcommit
    exact hcounter
  | externalize newC newH h hphase hnewC hcounter =>
    obtain rfl := some.inj hcommit
    exact hcounter
  | bump ballot hphase hbelow hoverride =>
    unfold bumped at hcommit
    split at hcommit
    · cases hcommit
    · exact hbefore commit hcommit

variable [DecidableEq H] {arrives : Arrival N V H → Prop} {allowed : Admits N V H}
  {c d : Ballot N V H}

theorem Part.change (hpart : Part ctx arrives c d) : c.state.Change d.state.toBallots := by
  cases hpart with
  | silent hunspoken hsame => exact hsame ▸ .same
  | send => exact (sendLatestEnvelope_toBallots c) ▸ .same
  | receive envelope harrives hnewer => exact .same
  | work didWork hworked =>
    rw [recorded_toBallots]
    exact hworked.change

theorem recorded_lastEnvelope (didWork : Bool) (d : Ballot N V H) :
    (recorded ctx didWork d).state.lastEnvelope = d.state.lastEnvelope ∨
      ∃ pledges, selfPledges ctx d.state.toBallots = some (pledges, true) ∧
        (recorded ctx didWork d).state.lastEnvelope = some (createSignedEnvelope ctx pledges) := by
  cases didWork with
  | false => exact .inl rfl
  | true =>
    change (recordCurrentState ctx d).2.state.lastEnvelope = _ ∨
      ∃ pledges, _ ∧ (recordCurrentState ctx d).2.state.lastEnvelope = _
    have hvalidated (statement : ScpStatement N V H) :
        (validated ctx statement d).state.lastEnvelope = d.state.lastEnvelope :=
      unspoken_validated.lastEnvelope
    have hcases := recordCurrentState_cases ctx d
    cases hrecord : recordCurrentState ctx d with
    | mk outcome e =>
      rw [hrecord] at hcases
      cases hcases with
      | unavailable hnone => exact .inl rfl
      | notSane pledges canEmit hpledges hinsane => exact .inl rfl
      | notNewer pledges canEmit hpledges hnewer => exact .inl rfl
      | invalid pledges canEmit hpledges hinvalid => exact .inl (hvalidated _)
      | valueMismatch pledges canEmit hpledges hphase hmatches => exact .inl (hvalidated _)
      | advance pledges canEmit validation hpledges hsane hnewer hphase =>
        cases canEmit with
        | false =>
          exact .inl (unspoken_validated.clearValidation validation).lastEnvelope
        | true => exact .inr ⟨pledges, hpledges, rfl⟩
      | final pledges canEmit hpledges hsane hnewer hphase =>
        cases canEmit with
        | false => exact .inl (hvalidated _)
        | true => exact .inr ⟨pledges, hpledges, rfl⟩

/-- The run that led to a state passed another one, whose envelope was stored there. -/
structure BuiltIn (ctx : SlotContext N V H) (allowed : Admits N V H) (envelope : ScpEnvelope N V H)
    (d c : Ballot N V H) : Prop where
  passed : ∃ driver op start before didWork, BallotRun ctx allowed start ∧
    allowed start driver op ∧
    Relation.ReflTransGen (Part { ctx with driver := driver } op.brings) start before ∧
    Worked { ctx with driver := driver } didWork before d ∧
    (recorded { ctx with driver := driver } didWork d).state.lastEnvelope = some envelope ∧
    (recorded { ctx with driver := driver } didWork d).log <:+ c.log
  stated : ∃ pledges, selfPledges ctx d.state.toBallots = some (pledges, true) ∧
    envelope.statement = localStatement ctx pledges

/-- A commit has a counter, and the last envelope was built in a state of the run. -/
structure Recalls (ctx : SlotContext N V H) (allowed : Admits N V H) (c : Ballot N V H) : Prop where
  ordered : c.state.Ordered
  committed : ∀ commit ∈ c.state.commit, commit.counter ≠ 0
  built : ∀ envelope, c.state.lastEnvelope = some envelope → ∃ d,
    BuiltIn ctx allowed envelope d c ∧ d.state.Ordered ∧
      ∀ commit ∈ d.state.commit, commit.counter ≠ 0

theorem recalls_new : Recalls ctx allowed (new : Ballot N V H) :=
  ⟨Ballots.ordered_new, nofun, nofun⟩

theorem Recalls.extend (hrecalls : Recalls ctx allowed c)
    (hchange : c.state.Change d.state.toBallots)
    (hlast : d.state.lastEnvelope = c.state.lastEnvelope) (hlog : c.log <:+ d.log) :
    Recalls ctx allowed d where
  ordered := hchange.ordered hrecalls.ordered
  committed := hchange.commit_counter hrecalls.committed
  built envelope henvelope := by
    obtain ⟨e, ⟨hpassed, hstated⟩, hordered⟩ := hrecalls.built envelope (hlast ▸ henvelope)
    obtain ⟨driver, op, start, before, didWork, hstart, hallowed, hparts, hworked, hstored,
      hsuffix⟩ := hpassed
    exact ⟨e, ⟨⟨driver, op, start, before, didWork, hstart, hallowed, hparts, hworked, hstored,
      hsuffix.trans hlog⟩, hstated⟩, hordered⟩

/-- A part of a step stores the envelope of the state it comes to, or none. -/
theorem Recalls.part {driver : SCPDriver N V H} {op : BallotOp N V H} {start : Ballot N V H}
    (hstart : BallotRun ctx allowed start) (hallowed : allowed start driver op)
    (hparts : Relation.ReflTransGen (Part { ctx with driver := driver } op.brings) start c)
    (hpart : Part { ctx with driver := driver } op.brings c d) (hrecalls : Recalls ctx allowed c) :
    Recalls ctx allowed d := by
  have hchange := hpart.change
  cases hpart with
  | silent hunspoken hsame =>
    exact hrecalls.extend hchange hunspoken.lastEnvelope hunspoken.log.suffix
  | send =>
    refine hrecalls.extend hchange ?_ (sendLatestEnvelope_appends c).suffix
    rcases sendLatestEnvelope_cases c with hsame | ⟨envelope, -, -, -, hsent⟩
    · rw [hsame]
    · rw [hsent]
      rfl
  | receive envelope harrives hnewer =>
    exact hrecalls.extend hchange rfl (List.suffix_refl _)
  | @work e didWork hworked =>
    have hlog := hworked.unspoken.log.suffix.trans
      (recorded_appends { ctx with driver := driver } didWork e).suffix
    rcases (recorded_lastEnvelope didWork e :
        (recorded { ctx with driver := driver } didWork e).state.lastEnvelope = _ ∨ _) with
      hsame | ⟨pledges, hpledges, hstored⟩
    · exact hrecalls.extend hchange (hsame.trans hworked.unspoken.lastEnvelope) hlog
    · refine ⟨hchange.ordered hrecalls.ordered, hchange.commit_counter hrecalls.committed,
        fun envelope henvelope => ⟨e, ⟨⟨driver, op, start, c, didWork, hstart, hallowed,
          hparts, hworked, henvelope, List.suffix_refl _⟩, pledges, hpledges, ?_⟩,
            hworked.change.ordered hrecalls.ordered,
            hworked.change.commit_counter hrecalls.committed⟩⟩
      rw [← some.inj (hstored.symm.trans henvelope)]
      rfl

theorem recalls_of_run (hcounter : ∀ c driver value, ¬allowed c driver (.bumpState value 0))
    (hrun : BallotRun ctx allowed c) : Recalls ctx allowed c := by
  induction hrun with
  | new => exact recalls_new
  | op hrun driver op hallowed fuel hop ih =>
    have hnonzero : ∀ counter, op.brings (.bumpTo counter) → counter ≠ 0 := by
      rintro counter hbrings rfl
      cases op with
      | bumpState value asked =>
        obtain rfl : 0 = asked := hbrings
        exact hcounter _ driver value hallowed
      | _ => exact hbrings.elim
    have hparts := Steps.parts hrun.ordered hnonzero (execOp_steps hrun.ordered hop)
    clear hop
    induction hparts with
    | refl => exact ih
    | tail hparts hpart ihParts => exact ihParts.part hrun hallowed hparts hpart

/-- In every run the last envelope was built in a state that the run passed, and a fresh
protocol recovers that state from it exactly if it is recoverable. -/
theorem recovers_iff_recoverable (hrun : BallotRun ctx (saneOp ctx) c)
    (hlast : c.state.lastEnvelope = some envelope) :
    ∃ d, BuiltIn ctx (saneOp ctx) envelope d c ∧
      (Recovers ctx envelope d.state.toBallots ↔ d.state.Recoverable) := by
  have hrecalls := recalls_of_run (fun _ _ _ h => h rfl) hrun
  obtain ⟨d, hbuilt, hordered, hcommitted⟩ := hrecalls.built envelope hlast
  obtain ⟨pledges, hpledges, hstatement⟩ := hbuilt.stated
  exact ⟨d, hbuilt, recovers_iff hordered hcommitted hpledges hstatement⟩

end Runs

/-! ### A ballot without a counter -/

/-- The node trusts either of two peers. -/
def eitherNode : SlotContext ℕ ℕ Unit := .permissive 0 (simpleQuorumSet 1 [1, 2])

def afterEitherPrepared (counter : U32) : Except Abort (Ballot ℕ ℕ Unit) :=
  execOp eitherNode 6 (.processEnvelope (peerPrepared counter) .fullyValidated) new

/-- The last envelope votes to prepare, and of the vote the test holds. -/
def storesPrepare (test : ScpStatementPrepare ℕ Unit → Bool) (c : Ballot ℕ ℕ Unit) : Bool :=
  c.state.lastEnvelope.any fun envelope =>
    match envelope.statement.pledges with
    | .prepare prep => test prep
    | _ => false

theorem afterEitherPrepared_returns {counter : U32} {test : ScpStatementPrepare ℕ Unit → Bool}
    (hcheck : (afterEitherPrepared counter).toOption.any (storesPrepare test) = true) :
    ∃ c envelope prep, afterEitherPrepared counter = .ok c ∧
      c.state.lastEnvelope = some envelope ∧ envelope.statement.pledges = .prepare prep ∧
        test prep = true := by
  cases hok : afterEitherPrepared counter with
  | error e =>
    rw [hok] at hcheck
    cases hcheck
  | ok c =>
    rw [hok] at hcheck
    change c.state.lastEnvelope.any _ = true at hcheck
    obtain ⟨envelope, hlast, hprep⟩ := (any_eq_true _ _).mp hcheck
    cases hpledges : envelope.statement.pledges with
    | prepare prep =>
      rw [hpledges] at hprep
      exact ⟨c, envelope, prep, rfl, hlast, hpledges, hprep⟩
    | _ =>
      rw [hpledges] at hprep
      cases hprep

theorem afterEitherPrepared_zero : ∃ c envelope prep, afterEitherPrepared 0 = .ok c ∧
    c.state.lastEnvelope = some envelope ∧ envelope.statement.pledges = .prepare prep ∧
      decide (prep.ballot.counter = 0) = true :=
  afterEitherPrepared_returns (by decide +kernel)

theorem afterEitherPrepared_run {counter : U32} {c : Ballot ℕ ℕ Unit}
    (hsane : isStatementSane eitherNode (peerPrepared counter).statement = true)
    (hok : afterEitherPrepared counter = .ok c) : BallotRun eitherNode (saneOp eitherNode) c :=
  .op .new eitherNode.driver (.processEnvelope (peerPrepared counter) .fullyValidated) hsane 6 hok

/-- The ballot without a counter is not one to recover, the first one is. -/
theorem recovers_iff_recoverable_either :
    (∃ (c : Ballot ℕ ℕ Unit) (envelope : ScpEnvelope ℕ ℕ Unit),
      c.state.lastEnvelope = some envelope ∧
        ∃ d, BuiltIn eitherNode (saneOp eitherNode) envelope d c ∧
          (Recovers eitherNode envelope d.state.toBallots ↔ d.state.Recoverable)) ∧
      ∃ (c : Ballot ℕ ℕ Unit) (envelope : ScpEnvelope ℕ ℕ Unit) (d : Ballot ℕ ℕ Unit),
        c.state.lastEnvelope = some envelope ∧ BuiltIn eitherNode (saneOp eitherNode) envelope d c ∧
          Recovers eitherNode envelope d.state.toBallots := by
  constructor
  · obtain ⟨c, envelope, prep, hok, hlast, -⟩ := afterEitherPrepared_zero
    exact ⟨c, envelope, hlast,
      recovers_iff_recoverable (afterEitherPrepared_run (by decide +kernel) hok) hlast⟩
  · obtain ⟨c, envelope, prep, hok, hlast, hpledges, hcounters⟩ :=
      @afterEitherPrepared_returns 1 (fun prep => prep.ballot.counter != 0 && prep.nH != 0)
        (by decide +kernel)
    obtain ⟨d, hbuilt, hrecovers⟩ :=
      recovers_iff_recoverable (afterEitherPrepared_run (by decide +kernel) hok) hlast
    refine ⟨c, envelope, d, hlast, hbuilt, hrecovers.mpr ?_⟩
    obtain ⟨pledges, hself, hstatement⟩ := hbuilt.stated
    obtain rfl : pledges = .prepare prep := by
      rw [← hpledges, hstatement]
      rfl
    simp only [Bool.and_eq_true, bne_iff_ne] at hcounters
    exact recoverable_of_prepare hself hcounters.1 hcounters.2

/-- The node does not recover from the envelope it stored. -/
theorem recovers_fails_after_zero_prepared :
    ¬∀ (c : Ballot ℕ ℕ Unit) (envelope : ScpEnvelope ℕ ℕ Unit),
      BallotRun eitherNode (saneOp eitherNode) c → c.state.lastEnvelope = some envelope →
        ∀ d, BuiltIn eitherNode (saneOp eitherNode) envelope d c →
          Recovers eitherNode envelope d.state.toBallots := by
  intro hclaim
  obtain ⟨c, envelope, prep, hok, hlast, hpledges, hzero⟩ := afterEitherPrepared_zero
  have hrun := afterEitherPrepared_run (by decide +kernel) hok
  obtain ⟨d, hbuilt, -⟩ := (recalls_of_run (fun _ _ _ h => h rfl) hrun).built envelope hlast
  have hrecovers := hclaim c envelope hrun hlast d hbuilt
  obtain ⟨hcheck, -⟩ := (recovers_iff_of_restored (setStateFromEnvelope_prepare hpledges)).mp
    hrecovers
  exact checkCurrent_of_checkInvariants hcheck prep.ballot rfl (of_decide_eq_true hzero)

end Henyey.Scp
