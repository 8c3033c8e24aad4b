import Henyey.Scp.Ballot.Statements

/-!
# Statements of the node about itself

The node builds a statement from its state, puts it through the same gates as
a received one, records it and advances on it. Advancing is a parameter here:
the state machine ties the recursion.
-/

namespace Henyey.Scp

variable {N V H : Type} [DecidableEq N] [LinearOrder V] [OrderBot V] [DecidableEq H]

/-- Hand the last own envelope to the driver, at most once, outside recursion
and only while everything is validated. -/
def sendLatestEnvelope (c : Ballot N V H) : Ballot N V H :=
  if c.state.currentMessageLevel ≠ 0 then c
  else if c.state.fullyValidated = false then c
  else
    match c.state.lastEnvelope with
    | none => c
    | some envelope =>
      if c.state.lastEnvelopeEmit = some envelope then c
      else
        (c.modify fun s => { s with lastEnvelopeEmit := some envelope }).notify
          (.emitEnvelope envelope)

omit [OrderBot V] in
theorem sendLatestEnvelope_cases (c : Ballot N V H) :
    sendLatestEnvelope c = c ∨
      ∃ envelope, c.state.currentMessageLevel = 0 ∧ c.state.lastEnvelope = some envelope ∧
        c.state.lastEnvelopeEmit ≠ some envelope ∧
        sendLatestEnvelope c =
          (c.modify fun s => { s with lastEnvelopeEmit := some envelope }).notify
            (.emitEnvelope envelope) := by
  unfold sendLatestEnvelope
  split
  · exact .inl rfl
  next hlevel =>
    split
    · exact .inl rfl
    · split
      · exact .inl rfl
      next envelope hlast =>
        split
        · exact .inl rfl
        next hemit => exact .inr ⟨envelope, not_not.mp hlevel, hlast, hemit, rfl⟩

def counterOrZero (ballot : Option (ScpBallot V)) : U32 :=
  (ballot.map ScpBallot.counter).getD 0

/-- The pledge that describes the current state, and whether its envelope may
be sent. Without a ballot the node pledges the zero ballot of the empty value. -/
def selfPledges (ctx : SlotContext N V H) (s : Ballots V) :
    Option (ScpStatementPledges V H × Bool) :=
  match s.phase with
  | .prepare =>
    some (.prepare
      { quorumSetHash := ctx.hashQuorumSet ctx.localQuorumSet
        ballot := s.currentBallot.getD ⟨0, ⊥⟩
        prepared := s.prepared
        preparedPrime := s.preparedPrime
        nC := counterOrZero s.commit
        nH := counterOrZero s.highBallot }, s.currentBallot.isSome)
  | .confirm =>
    s.currentBallot.map fun ballot =>
      (.confirm
        { ballot := ballot
          nPrepared := counterOrZero s.prepared
          nCommit := counterOrZero s.commit
          nH := counterOrZero s.highBallot
          quorumSetHash := ctx.hashQuorumSet ctx.localQuorumSet }, true)
  | .externalize =>
    s.commit.map fun commit =>
      (.externalize
        { commit := commit
          nH := counterOrZero s.highBallot
          commitQuorumSetHash := ctx.hashQuorumSet ctx.localQuorumSet }, true)

def localStatement (ctx : SlotContext N V H) (pledges : ScpStatementPledges V H) :
    ScpStatement N V H :=
  { nodeId := ctx.localNodeId, slotIndex := ctx.slotIndex, pledges := pledges }

def createSignedEnvelope (ctx : SlotContext N V H) (pledges : ScpStatementPledges V H) :
    ScpEnvelope N V H :=
  { statement := localStatement ctx pledges
    signature := ctx.driver.signEnvelope (localStatement ctx pledges) }

def statementValueMatchesCommit (s : Ballots V) (statement : ScpStatement N V H) : Bool :=
  match s.commit with
  | none => false
  | some commit =>
    match statement.pledges with
    | .prepare prep => commit.value == prep.ballot.value
    | .confirm conf => commit.value == conf.ballot.value
    | .externalize ext => commit.value == ext.commit.value
    | .nominate _ => false

/-- Whether the recorded statement still has to be advanced on. -/
inductive Recorded (N V H : Type) where
  | rejected
  | advance (hint : ScpStatement N V H)
  | final

/-- Keep an own envelope as the latest one of the local node. -/
def storeSelf (ctx : SlotContext N V H) (envelope : ScpEnvelope N V H) (canEmit : Bool)
    (s : BallotProtocol N V H) : BallotProtocol N V H :=
  { s with
    latestEnvelopes := s.latestEnvelopes.insert ctx.localNodeId envelope
    lastEnvelope := if canEmit then some envelope else s.lastEnvelope }

/-- A MaybeValid answer about the node's own values withdraws validation from
the whole slot. -/
def clearValidation (validation : ValidationLevel) (s : BallotProtocol N V H) :
    BallotProtocol N V H :=
  if validation.clearsFullyValidated then
    { s with fullyValidated := false, needsClearSlotValidation := true }
  else s

/-- An evaluation of the consistency check. -/
def noteCheck (c : Ballot N V H) : Ballot N V H :=
  c.notify (.checkInvariants (errorText (checkInvariants c.state.toBallots)))

def recordCurrentState (ctx : SlotContext N V H) (c : Ballot N V H) :
    Recorded N V H × Ballot N V H :=
  let c := noteCheck c
  match selfPledges ctx c.state.toBallots with
  | none => (.rejected, c)
  | some (pledges, canEmit) =>
    let envelope := createSignedEnvelope ctx pledges
    let statement := envelope.statement
    let stored := c.state.latestEnvelopes.statement? ctx.localNodeId
    if isStatementSane ctx statement = false then
      (.rejected, c.notify (.selfStatement stored statement .notSane))
    else if isNewerStatement c.state ctx.localNodeId statement = false then
      (.rejected, c.notify (.selfStatement stored statement .notNewer))
    else
      let (validation, c) := validateStatementValues ctx.driver statement c
      if validation = .invalid then
        (.rejected, c.notify (.selfStatement stored statement .invalid))
      else if c.state.phase ≠ .externalize then
        (.advance statement,
          ((c.modify (clearValidation validation)).modify
            (storeSelf ctx envelope canEmit)).notify
              (.selfStatement stored statement .recorded))
      else if statementValueMatchesCommit c.state.toBallots statement = false then
        (.rejected, c.notify (.selfStatement stored statement .valueMismatch))
      else
        (.final,
          (c.modify (storeSelf ctx envelope canEmit)).notify
            (.selfStatement stored statement .recorded))

/-- How the state machine advances on a statement. -/
abbrev Advance (N V H : Type) : Type :=
  ScpStatement N V H → Ballot N V H → Except Abort (EnvelopeState × Ballot N V H)

/-- Record the current state, advance on the new statement, then send. -/
def emitCurrentState (ctx : SlotContext N V H) (advance : Advance N V H) (c : Ballot N V H) :
    Except Abort (Ballot N V H) :=
  match recordCurrentState ctx c with
  | (.rejected, c) => .ok c
  | (.advance hint, c) => do
    let (_, c) ← advance hint c
    .ok (sendLatestEnvelope c)
  | (.final, c) => .ok (sendLatestEnvelope c)

end Henyey.Scp
