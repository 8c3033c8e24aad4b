import Henyey.Scp.Nomination.Monotone
import Henyey.Scp.Ballot.Commitment

/-!
# Slots

A slot runs nomination and ballot protocol side by side over one trace, starts
the ballot protocol from the first composite value, and mirrors the
externalized value after every call.
-/

namespace Henyey.Scp

structure Slot (N V H : Type) where
  isValidator : Bool
  nomination : NominationProtocol N V H
  ballot : BallotProtocol N V H
  envelopes : List (N × List (ScpEnvelope N V H))
  externalizedValue : Option V
  nominationStarted : Bool
  fullyValidated : Bool
  gotVBlocking : Bool

/-- A slot with the trace of its driver calls. -/
abbrev SlotTrace (N V H : Type) : Type := Traced (Slot N V H) N V H

namespace Slot

variable {N V H : Type}

def new (isValidator : Bool) : Slot N V H where
  isValidator := isValidator
  nomination := { (NominationProtocol.new : NominationProtocol N V H) with
    fullyValidated := isValidator }
  ballot := { (BallotProtocol.new : BallotProtocol N V H) with fullyValidated := isValidator }
  envelopes := []
  externalizedValue := none
  nominationStarted := false
  fullyValidated := isValidator
  gotVBlocking := false

/-! ### The protocols of a slot -/

def asBallot (c : SlotTrace N V H) : Ballot N V H := ⟨c.state.ballot, c.log⟩

def withBallot (c : SlotTrace N V H) (b : Ballot N V H) : SlotTrace N V H :=
  ⟨{ c.state with ballot := b.state }, b.log⟩

def asNomination (c : SlotTrace N V H) : Nomination N V H := ⟨c.state.nomination, c.log⟩

def withNomination (c : SlotTrace N V H) (n : Nomination N V H) : SlotTrace N V H :=
  ⟨{ c.state with nomination := n.state }, n.log⟩

def setFullyValidated (validated : Bool) (c : SlotTrace N V H) : SlotTrace N V H :=
  c.modify fun s =>
    { s with
      fullyValidated := validated
      nomination := { s.nomination with fullyValidated := validated }
      ballot := { s.ballot with fullyValidated := validated } }

/-- Keep a valid envelope with the earlier ones of its node. -/
def recordEnvelope [DecidableEq N] (node : N) (envelope : ScpEnvelope N V H) :
    List (N × List (ScpEnvelope N V H)) → List (N × List (ScpEnvelope N V H))
  | [] => [(node, [envelope])]
  | (other, history) :: rest =>
    if other = node then (other, history ++ [envelope]) :: rest
    else (other, history) :: recordEnvelope node envelope rest

def ballotExternalizedValue (s : BallotProtocol N V H) : Option V :=
  if s.phase = .externalize then s.currentBallot.map ScpBallot.value else none

/-! ### Bookkeeping after a call -/

/-- A clearing of validation inside the ballot protocol reaches the slot. -/
def propagateBallotClearSlotValidation (c : SlotTrace N V H) : SlotTrace N V H :=
  let (needed, b) := takeNeedsClearSlotValidation (asBallot c)
  let c := withBallot c b
  if needed ∧ c.state.externalizedValue = none then
    c.modify fun s =>
      { s with
        fullyValidated := false
        nomination := { s.nomination with fullyValidated := false } }
  else c

/-- Stop nomination once the ballot protocol asked for it. -/
def stopNominationIfNeeded (c : SlotTrace N V H) : SlotTrace N V H :=
  let (needed, b) := takeNeedsStopNomination (asBallot c)
  let c := withBallot c b
  if needed then
    (withNomination c (stopNomination (asNomination c))).notify (.stopTimer .nomination)
  else c

def syncExternalizedValueFromBallot (c : SlotTrace N V H) : SlotTrace N V H :=
  match ballotExternalizedValue c.state.ballot with
  | none => c
  | some value => c.modify fun s => { s with externalizedValue := some value }

/-- Record the externalized value once and stop the timers. -/
def maybeRecordExternalization (c : SlotTrace N V H) : SlotTrace N V H :=
  if c.state.ballot.phase ≠ .externalize ∨ c.state.externalizedValue.isSome then c
  else if (ballotExternalizedValue c.state.ballot).isSome then
    ((syncExternalizedValueFromBallot c).notify (.stopTimer .nomination)).notify
      (.stopTimer .ballot)
  else c

variable [DecidableEq N]

def hasLatestMessageFrom (s : Slot N V H) (node : N) : Bool :=
  (s.ballot.latestEnvelopes.lookup node).isSome ||
    (s.nomination.latestNominations.lookup node).isSome

def maybeSetGotVBlocking (ctx : SlotContext N V H) (c : SlotTrace N V H) : SlotTrace N V H :=
  if c.state.gotVBlocking then c
  else
    let heardNodes := (allNodes ctx.localQuorumSet).toFinset.filter
      (fun node => hasLatestMessageFrom c.state node = true)
    c.modify fun s => { s with gotVBlocking := isVBlocking ctx.localQuorumSet heardNodes }

def runPostEmitBookkeeping (ctx : SlotContext N V H) (c : SlotTrace N V H) : SlotTrace N V H :=
  maybeSetGotVBlocking ctx
    (maybeRecordExternalization (stopNominationIfNeeded (propagateBallotClearSlotValidation c)))

/-! ### Calls -/

end Slot

namespace Slot

variable {N V H : Type} [LinearOrder N] [LinearOrder V] [OrderBot V] [DecidableEq H]
  (ctx : SlotContext N V H) (fuel : Nat)

def syncCompositeCandidate (c : SlotTrace N V H) : SlotTrace N V H :=
  withBallot c (setCompositeCandidate c.state.nomination.latestComposite (asBallot c))

/-- The ballot protocol learns a statement that is sane, fresh and of values
that the driver does not reject. -/
def processBallotEnvelope (envelope : ScpEnvelope N V H) (c : SlotTrace N V H) :
    Except Abort (EnvelopeState × SlotTrace N V H) :=
  if isStatementSane ctx envelope.statement = false then .ok (.invalid, c)
  else if isNewerStatement c.state.ballot envelope.statement.nodeId envelope.statement = false then
    .ok (.invalid, c)
  else
    let (validation, c) := validateStatementValues ctx.driver envelope.statement c
    if validation = .invalid then .ok (.invalid, c)
    else do
      let c := syncCompositeCandidate c
      let (result, b) ← Scp.processEnvelope ctx fuel envelope validation (asBallot c)
      let c := withBallot c b
      .ok (result,
        if result ≠ .invalid ∧ validation.clearsFullyValidated ∧
            c.state.externalizedValue = none then setFullyValidated false c
        else c)

def processNominationEnvelope (envelope : ScpEnvelope N V H) (c : SlotTrace N V H) :
    Except Abort (EnvelopeState × SlotTrace N V H) := do
  let (result, n) ← processNomination ctx fuel envelope (asNomination c)
  .ok (result, withNomination c n)

/-- Start the ballot protocol once nomination has a composite value. -/
def checkNominationToBallot (c : SlotTrace N V H) : Except Abort (SlotTrace N V H) :=
  if c.state.ballot.currentBallot.isSome then .ok c
  else
    match c.state.nomination.latestComposite with
    | none => .ok c
    | some composite => do
      let c := c.notify (.stopTimer .nomination)
      let (_, b) ← bump ctx fuel composite false (asBallot c)
      .ok (withBallot c b)

/-- Each protocol takes its own statements. -/
def dispatchEnvelope (envelope : ScpEnvelope N V H) (c : SlotTrace N V H) :
    Except Abort (EnvelopeState × SlotTrace N V H) :=
  match envelope.statement.pledges with
  | .nominate _ => processNominationEnvelope ctx fuel envelope c
  | _ => processBallotEnvelope ctx fuel envelope c

def processEnvelope (envelope : ScpEnvelope N V H) (c : SlotTrace N V H) :
    Except Abort (EnvelopeState × SlotTrace N V H) := do
  let (result, c) ← dispatchEnvelope ctx fuel envelope c
  let c :=
    if result.isValid then
      c.modify fun s =>
        { s with envelopes := recordEnvelope envelope.statement.nodeId envelope s.envelopes }
    else c
  let c ← checkNominationToBallot ctx fuel c
  .ok (result, runPostEmitBookkeeping ctx c)

/-- Nomination goes on until there are candidates: its timer is set again. -/
def setupNominationTimer (c : SlotTrace N V H) : SlotTrace N V H :=
  if c.state.nomination.started ∧ c.state.nomination.stopped = false ∧
      c.state.nomination.candidates.isEmpty then
    c.notify (.setupTimer .nomination (ctx.driver.computeTimeout c.state.nomination.round true))
  else c

def nominate (value prevValue : V) (timedout : Bool) (c : SlotTrace N V H) :
    Except Abort (Bool × SlotTrace N V H) :=
  if c.state.isValidator = false then .ok (false, c)
  else if c.state.externalizedValue.isSome then .ok (false, c)
  else do
    let c := c.modify fun s => { s with nominationStarted := true }
    let (result, n) ← Scp.nominate ctx fuel value prevValue timedout (asNomination c)
    let c ← checkNominationToBallot ctx fuel (withNomination c n)
    .ok (result, setupNominationTimer ctx (runPostEmitBookkeeping ctx c))

def stopNomination (c : SlotTrace N V H) : SlotTrace N V H :=
  (withNomination c (Scp.stopNomination (asNomination c))).notify (.stopTimer .nomination)

def bumpBallotOnTimeout (c : SlotTrace N V H) : Except Abort (Bool × SlotTrace N V H) :=
  if c.state.isValidator = false then .ok (false, c)
  else do
    let c := c.notify (.timerExpired .ballot)
    let (result, b) ← bumpTimeout ctx fuel c.state.nomination.latestComposite (asBallot c)
    .ok (result, runPostEmitBookkeeping ctx (withBallot c b))

def abandonBallot (counter : U32) (c : SlotTrace N V H) :
    Except Abort (Bool × SlotTrace N V H) := do
  let c := syncCompositeCandidate c
  let (result, b) ← Scp.abandonBallot ctx (emitWith ctx fuel) counter (asBallot c)
  .ok (result, runPostEmitBookkeeping ctx (withBallot c b))

def bumpState (value : V) (counter : U32) (c : SlotTrace N V H) :
    Except Abort (Bool × SlotTrace N V H) := do
  let (result, b) ← Scp.bumpState ctx (emitWith ctx fuel) value counter (asBallot c)
  .ok (result, runPostEmitBookkeeping ctx (withBallot c b))

def forceBumpState (value : V) (c : SlotTrace N V H) : Except Abort (Bool × SlotTrace N V H) := do
  let (result, b) ← bump ctx fuel value true (asBallot c)
  .ok (result, runPostEmitBookkeeping ctx (withBallot c b))

/-- Validation is complete again: send what was held back. -/
def restoreFullyValidated (c : SlotTrace N V H) : SlotTrace N V H :=
  if c.state.fullyValidated then c
  else
    let c := setFullyValidated true c
    let c := withBallot c (sendLatestEnvelope (asBallot c))
    withNomination c (emitDeferred (asNomination c))

end Slot

/-- What a herder does with a slot. -/
inductive SlotOp (N V H : Type) where
  | processEnvelope (envelope : ScpEnvelope N V H)
  | nominate (value prevValue : V) (timedout : Bool)
  | stopNomination
  | bumpBallotOnTimeout
  | abandonBallot (counter : U32)
  | bumpState (value : V) (counter : U32)
  | forceBumpState (value : V)
  | restoreFullyValidated

/-- Perform one operation; only the state it leads to matters here. -/
def execSlot {N V H : Type} [LinearOrder N] [LinearOrder V] [OrderBot V] [DecidableEq H]
    (ctx : SlotContext N V H) (fuel : Nat) (op : SlotOp N V H) (c : SlotTrace N V H) :
    Except Abort (SlotTrace N V H) :=
  match op with
  | .processEnvelope envelope => (Slot.processEnvelope ctx fuel envelope c).map Prod.snd
  | .nominate value prevValue timedout =>
    (Slot.nominate ctx fuel value prevValue timedout c).map Prod.snd
  | .stopNomination => .ok (Slot.stopNomination c)
  | .bumpBallotOnTimeout => (Slot.bumpBallotOnTimeout ctx fuel c).map Prod.snd
  | .abandonBallot counter => (Slot.abandonBallot ctx fuel counter c).map Prod.snd
  | .bumpState value counter => (Slot.bumpState ctx fuel value counter c).map Prod.snd
  | .forceBumpState value => (Slot.forceBumpState ctx fuel value c).map Prod.snd
  | .restoreFullyValidated => .ok (Slot.restoreFullyValidated c)

end Henyey.Scp
