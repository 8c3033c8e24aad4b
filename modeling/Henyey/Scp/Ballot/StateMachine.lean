import Henyey.Scp.Ballot.Envelope

/-!
# The transitions of the ballot protocol

Each attempt looks for something that the recorded statements now support,
changes the decision state and emits it. Emission re-enters `advanceSlot` on
the node's own new statement; the fuel counts nested re-entries and the
iterations of the bump loop.
-/

namespace Henyey.Scp

variable {N V H : Type} [DecidableEq N] [LinearOrder V] [OrderBot V] [DecidableEq H]

/-- How a transition emits the state it reached. -/
abbrev Emit (N V H : Type) : Type := Ballot N V H → Except Abort (Ballot N V H)

/-! ### Bumping -/

/-- Move to a ballot. A high ballot of another value is forgotten together
with the commit. -/
def bumpToBallot (ballot : ScpBallot V) (check : Bool) (c : Ballot N V H) : Bool × Ballot N V H :=
  if check = true ∧ c.state.currentBallot.any (fun b => ballotCompare ballot b != .gt) then
    (false, c)
  else
    let gotBumped : Bool :=
      match c.state.currentBallot with
      | none => true
      | some current => current.counter != ballot.counter
    let c :=
      if c.state.currentBallot.isNone then c.notify (.startedBallotProtocol ballot) else c
    let c := updateBallots (fun s => { s with currentBallot := some ballot }) c
    let c :=
      if c.state.highBallot.any (fun high => !ballotCompatible ballot high) then
        updateBallots (fun s => { s with highBallot := none, commit := none }) c
      else c
    (true, if gotBumped then setHeardFromQuorum false c else c)

def updateCurrentIfNeeded (ballot : ScpBallot V) (c : Ballot N V H) : Bool × Ballot N V H :=
  if c.state.currentBallot.all (fun b => ballotCompare b ballot == .lt) then
    bumpToBallot ballot true c
  else (false, c)

/-- Bump for a timeout or a new composite value: never against a commit, never
downwards. The consistency check is evaluated on the way out. -/
def updateCurrentValue (ballot : ScpBallot V) (c : Ballot N V H) : Bool × Ballot N V H :=
  if c.state.phase ≠ .prepare ∧ c.state.phase ≠ .confirm then (false, c)
  else
    match c.state.currentBallot with
    | none =>
      let (_, c) := bumpToBallot ballot true c
      (true, noteCheck c)
    | some current =>
      if c.state.commit.any (fun commit => !ballotCompatible commit ballot) then (false, c)
      else
        let (updated, c) :=
          if ballotCompare current ballot = .lt then bumpToBallot ballot true c else (false, c)
        (updated, noteCheck c)

/-- Bump to a counter. A confirmed value overrides the proposed one. -/
def bumpState (ctx : SlotContext N V H) (emit : Emit N V H) (value : V) (counter : U32)
    (c : Ballot N V H) : Except Abort (Bool × Ballot N V H) :=
  if c.state.phase ≠ .prepare ∧ c.state.phase ≠ .confirm then .ok (false, c)
  else
    match updateCurrentValue ⟨counter, c.state.valueOverride.getD value⟩ c with
    | (false, c) => .ok (false, c)
    | (true, c) => do
      let c ← emit c
      .ok (true, checkHeardFromQuorum ctx c)

/-- Give up the current ballot for a counter, zero meaning the next one. The
composite candidate comes first, then the current value. -/
def abandonBallot (ctx : SlotContext N V H) (emit : Emit N V H) (counter : U32)
    (c : Ballot N V H) : Except Abort (Bool × Ballot N V H) :=
  let value :=
    (c.state.compositeCandidate.filter (fun v => v ≠ ⊥)).or
      (c.state.currentBallot.map ScpBallot.value)
  match value with
  | none => .ok (false, c)
  | some value =>
    if counter = 0 then
      bumpState ctx emit value
        ((c.state.currentBallot.map (fun b => b.counter + 1)).getD 1) c
    else bumpState ctx emit value counter c

/-- Follow a blocking set to the lowest counter it is not all ahead of. -/
def attemptBump (ctx : SlotContext N V H) (emit : Emit N V H) (c : Ballot N V H) :
    Except Abort (Bool × Ballot N V H) :=
  if c.state.phase ≠ .prepare ∧ c.state.phase ≠ .confirm then .ok (false, c)
  else
    let localCounter := counterOrZero c.state.currentBallot
    if hasVblockingSubsetStrictlyAheadOf ctx c.state localCounter = false then .ok (false, c)
    else
      let counters :=
        sortedValues ((c.state.latestEnvelopes.statements.map statementBallotCounter).filter
          (fun counter => decide (localCounter < counter)))
      match counters.find? (fun counter =>
        !hasVblockingSubsetStrictlyAheadOf ctx c.state counter) with
      | some counter => abandonBallot ctx emit counter c
      | none => .ok (false, c)

/-! ### Accepting a ballot as prepared -/

/-- A ballot below `p` becomes `p'` when there is none yet, or when it is above
`p'` and of another value than `p`. -/
def shouldUpdatePrime (s : Ballots V) (current ballot : ScpBallot V) : Bool :=
  match s.preparedPrime with
  | none => true
  | some preparedPrime =>
    ballotCompare preparedPrime ballot == .lt && !ballotCompatible current ballot

/-- Raise `p`, keeping the old one as `p'` when its value differs, or raise
`p'`. -/
def setPrepared (ballot : ScpBallot V) (c : Ballot N V H) : Bool × Ballot N V H :=
  match c.state.prepared with
  | none =>
    (true, updateBallots (fun s => { s with prepared := some ballot })
      (c.notify (.ballotDidPrepare ballot)))
  | some current =>
    match ballotCompare current ballot with
    | .lt =>
      (true, updateBallots (fun s =>
        { s with
          preparedPrime :=
            if ballotCompatible current ballot then s.preparedPrime else some current
          prepared := some ballot }) (c.notify (.ballotDidPrepare ballot)))
    | .gt =>
      if shouldUpdatePrime c.state.toBallots current ballot then
        (true, updateBallots (fun s => { s with preparedPrime := some ballot })
          (c.notify (.ballotDidPrepare ballot)))
      else (false, c)
    | .eq => (false, c)

/-- The high ballot is below and incompatible with a prepared one. -/
def highAborted (s : Ballots V) (high : ScpBallot V) : Bool :=
  s.prepared.any (areBallotsLessAndIncompatible high) ||
    s.preparedPrime.any (areBallotsLessAndIncompatible high)

def voidAbortedCommit (c : Ballot N V H) : Bool × Ballot N V H :=
  if c.state.commit.isSome && c.state.highBallot.any (highAborted c.state.toBallots) then
    (true, updateBallots (fun s => { s with commit := none }) c)
  else (false, c)

/-- Record the call of a setter. -/
def noteTransition (call : Transition V) (c : Ballot N V H) : Ballot N V H :=
  c.notify (.transition c.state.toBallots call)

omit [DecidableEq N] [LinearOrder V] [OrderBot V] [DecidableEq H] in
@[simp]
theorem noteTransition_state (call : Transition V) (c : Ballot N V H) :
    (noteTransition call c).state = c.state := rfl

/-- Accept a ballot as prepared. A commit without a high ballot returns before
emitting. -/
def setAcceptPrepared (emit : Emit N V H) (ballot : ScpBallot V) (c : Ballot N V H) :
    Except Abort (Bool × Ballot N V H) :=
  let (prepared, c) := setPrepared ballot (noteTransition (.acceptPrepared ballot) c)
  if c.state.commit.isSome && c.state.highBallot.isNone then .ok (prepared, c)
  else
    let (voided, c) := voidAbortedCommit c
    if voided || prepared then do
      let c ← emit c
      .ok (true, c)
    else .ok (false, c)

/-- A candidate is passed over when it cannot raise `p` or `p'`. In CONFIRM
only ballots above and compatible with `p` count. -/
def skipCandidate (s : Ballots V) (ballot : ScpBallot V) : Bool :=
  (s.phase == .confirm &&
      s.prepared.any (fun prepared => !areBallotsLessAndCompatible prepared ballot)) ||
    s.preparedPrime.any (fun preparedPrime => ballotCompare ballot preparedPrime != .gt) ||
    s.prepared.any (fun prepared => areBallotsLessAndCompatible ballot prepared)

def acceptsPrepared (ctx : SlotContext N V H) (s : BallotProtocol N V H)
    (ballot : ScpBallot V) : Bool :=
  federatedAccept ctx s (statementVotesForBallot ballot) (hasPreparedBallot ballot)

/-- Try the candidates from the highest down until one does some work. -/
def acceptPreparedLoop (ctx : SlotContext N V H) (emit : Emit N V H) :
    List (ScpBallot V) → Ballot N V H → Except Abort (Bool × Ballot N V H)
  | [], c => .ok (false, c)
  | ballot :: rest, c =>
    if skipCandidate c.state.toBallots ballot then acceptPreparedLoop ctx emit rest c
    else if acceptsPrepared ctx c.state ballot then do
      let (didWork, c) ← setAcceptPrepared emit ballot c
      if didWork then .ok (true, c) else acceptPreparedLoop ctx emit rest c
    else acceptPreparedLoop ctx emit rest c

def attemptAcceptPrepared (ctx : SlotContext N V H) (emit : Emit N V H) (hint : ScpStatement N V H)
    (c : Ballot N V H) : Except Abort (Bool × Ballot N V H) :=
  if c.state.phase ≠ .prepare ∧ c.state.phase ≠ .confirm then .ok (false, c)
  else acceptPreparedLoop ctx emit (getPrepareCandidates c.state hint).reverse c

/-! ### Confirming a ballot as prepared -/

def ratifiesPrepared (ctx : SlotContext N V H) (s : BallotProtocol N V H)
    (ballot : ScpBallot V) : Bool :=
  federatedRatify ctx s (hasPreparedBallot ballot)

/-- The highest ratified candidate above `h`, with the candidates from it
down. The candidates come in decreasing order. -/
def findHighestConfirmedPrepared (ctx : SlotContext N V H) (s : BallotProtocol N V H) :
    List (ScpBallot V) → Option (ScpBallot V × List (ScpBallot V))
  | [] => none
  | ballot :: rest =>
    if s.highBallot.any (fun high => ballotCompare high ballot != .lt) then none
    else if ratifiesPrepared ctx s ballot then some (ballot, ballot :: rest)
    else findHighestConfirmedPrepared ctx s rest

/-- Walk down from the new high ballot while candidates stay ratified and not
below the current ballot. -/
def lowestCommitLoop (ctx : SlotContext N V H) (s : BallotProtocol N V H)
    (current newH : ScpBallot V) : List (ScpBallot V) → ScpBallot V → ScpBallot V
  | [], newC => newC
  | ballot :: rest, newC =>
    if ballotCompare ballot current = .lt then newC
    else if areBallotsLessAndCompatible ballot newH = false then
      lowestCommitLoop ctx s current newH rest newC
    else if ratifiesPrepared ctx s ballot then
      lowestCommitLoop ctx s current newH rest ballot
    else newC

/-- The lowest ballot to commit below the new high ballot; counter zero when
there is none. -/
def findLowestCommitBallot (ctx : SlotContext N V H) (s : BallotProtocol N V H)
    (below : List (ScpBallot V)) (newH : ScpBallot V) : ScpBallot V :=
  let fallback : ScpBallot V := ⟨0, newH.value⟩
  if s.commit.isNone && !highAborted s.toBallots newH then
    lowestCommitLoop ctx s (s.currentBallot.getD fallback) newH below fallback
  else fallback

/-- The part of confirming that raises `h` and sets `c`, when the current
ballot is compatible. -/
def confirmPreparedCompatible (newC newH : ScpBallot V) (c : Ballot N V H) : Bool × Ballot N V H :=
  if c.state.currentBallot.all (fun b => ballotCompatible b newH) then
    let raiseHigh := c.state.highBallot.all (fun high => ballotCompare newH high == .gt)
    let setCommit := newC.counter != 0 && c.state.commit.isNone
    let c := updateBallots (fun s =>
      { s with
        highBallot := if raiseHigh then some newH else s.highBallot
        commit := if setCommit then some newC else s.commit }) c
    if raiseHigh || setCommit then (true, c.notify (.ballotDidConfirm newH)) else (false, c)
  else (false, c)

/-- The state change of confirming, before emission. -/
def confirmPrepared (newC newH : ScpBallot V) (c : Ballot N V H) : Bool × Ballot N V H :=
  let c := noteTransition (.confirmPrepared newC newH) c
  let (didWork, c) :=
    confirmPreparedCompatible newC newH
      (updateBallots (fun s => { s with valueOverride := some newH.value }) c)
  let (updated, c) := updateCurrentIfNeeded newH c
  (updated || didWork, c)

def setConfirmPrepared (emit : Emit N V H) (newC newH : ScpBallot V) (c : Ballot N V H) :
    Except Abort (Bool × Ballot N V H) :=
  match confirmPrepared newC newH c with
  | (true, c) => do
    let c ← emit c
    .ok (true, c)
  | (false, c) => .ok (false, c)

def attemptConfirmPrepared (ctx : SlotContext N V H) (emit : Emit N V H) (hint : ScpStatement N V H)
    (c : Ballot N V H) : Except Abort (Bool × Ballot N V H) :=
  if c.state.phase ≠ .prepare then .ok (false, c)
  else if c.state.prepared.isNone then .ok (false, c)
  else
    match findHighestConfirmedPrepared ctx c.state
      (getPrepareCandidates c.state hint).reverse with
    | none => .ok (false, c)
    | some (newH, below) =>
      setConfirmPrepared emit (findLowestCommitBallot ctx c.state below newH) newH c

/-! ### Accepting and confirming a commit -/

def hintBallotForCommit (hint : ScpStatement N V H) : Option (ScpBallot V) :=
  match hint.pledges with
  | .prepare prep => if prep.nC != 0 then some ⟨prep.nH, prep.ballot.value⟩ else none
  | .confirm conf => some ⟨conf.nH, conf.ballot.value⟩
  | .externalize ext => some ⟨ext.nH, ext.commit.value⟩
  | .nominate _ => none

/-- The counters at which one statement's commit interval starts or ends. -/
def commitBoundaries (ballot : ScpBallot V) (statement : ScpStatement N V H) : List U32 :=
  match statement.pledges with
  | .prepare prep =>
    if ballotCompatible ballot prep.ballot && prep.nC != 0 then [prep.nC, prep.nH] else []
  | .confirm conf =>
    if ballotCompatible ballot conf.ballot then [conf.nCommit, conf.nH] else []
  | .externalize ext =>
    if ballotCompatible ballot ext.commit then [ext.commit.counter, ext.nH, U32.max] else []
  | .nominate _ => []

def getCommitBoundariesFromStatements (s : BallotProtocol N V H) (ballot : ScpBallot V) :
    List U32 :=
  sortedValues (s.latestEnvelopes.statements.flatMap (commitBoundaries ballot))

/-- Extend an interval downwards over the boundaries, given in decreasing
order, while the predicate holds; a first coordinate of zero means none yet. -/
def extendInterval (pred : U32 × U32 → Bool) : List U32 → U32 × U32 → U32 × U32
  | [], candidate => candidate
  | boundary :: rest, candidate =>
    if candidate.1 ≠ 0 ∧ candidate.2 < boundary then extendInterval pred rest candidate
    else
      let current := if candidate.1 = 0 then (boundary, boundary) else (boundary, candidate.2)
      if pred current then extendInterval pred rest current
      else if candidate.1 ≠ 0 then candidate
      else extendInterval pred rest candidate

def findExtendedInterval (boundaries : List U32) (pred : U32 × U32 → Bool) : U32 × U32 :=
  extendInterval pred boundaries.reverse (0, 0)

def acceptsCommit (ctx : SlotContext N V H) (s : BallotProtocol N V H) (ballot : ScpBallot V)
    (interval : U32 × U32) : Bool :=
  federatedAccept ctx s (statementVotesCommit ballot interval) (commitPredicate ballot interval)

def ratifiesCommit (ctx : SlotContext N V H) (s : BallotProtocol N V H) (ballot : ScpBallot V)
    (interval : U32 × U32) : Bool :=
  federatedRatify ctx s (commitPredicate ballot interval)

/-- The first acceptance of a commit enters CONFIRM: the current ballot moves
to `h` unless it is already above it, and `p'` is dropped. -/
def enterConfirm (h : ScpBallot V) (c : Ballot N V H) : Ballot N V H :=
  let c := updateBallots (fun s => { s with phase := .confirm }) c
  let c :=
    if c.state.currentBallot.any (fun current => !areBallotsLessAndCompatible h current) then
      (bumpToBallot h false c).2
    else c
  updateBallots (fun s => { s with preparedPrime := none }) c

/-- Take over a new pair of commit and high ballot. -/
def moveCommit (newC newH : ScpBallot V) (c : Ballot N V H) : Bool × Ballot N V H :=
  if c.state.highBallot.all (fun high => ballotCompare high newH != .eq) ||
      c.state.commit.all (fun commit => ballotCompare commit newC != .eq) then
    (true, updateBallots (fun s => { s with commit := some newC, highBallot := some newH }) c)
  else (false, c)

/-- The state change of accepting a commit, before emission. -/
def acceptCommit (newC newH : ScpBallot V) (c : Ballot N V H) : Bool × Ballot N V H :=
  let c := noteTransition (.acceptCommit newC newH) c
  let (moved, c) :=
    moveCommit newC newH (updateBallots (fun s => { s with valueOverride := some newH.value }) c)
  let entering : Bool := c.state.phase == .prepare
  let c := if entering then enterConfirm newH c else c
  if moved || entering then
    (true, (updateCurrentIfNeeded newH c).2.notify (.acceptedCommit newH))
  else (false, c)

def setAcceptCommit (emit : Emit N V H) (newC newH : ScpBallot V) (c : Ballot N V H) :
    Except Abort (Bool × Ballot N V H) :=
  match acceptCommit newC newH c with
  | (true, c) => do
    let c ← emit c
    .ok (true, c)
  | (false, c) => .ok (false, c)

def attemptAcceptCommit (ctx : SlotContext N V H) (emit : Emit N V H) (hint : ScpStatement N V H)
    (c : Ballot N V H) : Except Abort (Bool × Ballot N V H) :=
  if c.state.phase ≠ .prepare ∧ c.state.phase ≠ .confirm then .ok (false, c)
  else
    match hintBallotForCommit hint with
    | none => .ok (false, c)
    | some ballot =>
      if c.state.phase = .confirm ∧
          c.state.highBallot.any (fun high => !ballotCompatible ballot high) then
        .ok (false, c)
      else
        let boundaries := getCommitBoundariesFromStatements c.state ballot
        if boundaries.isEmpty then .ok (false, c)
        else
          let candidate := findExtendedInterval boundaries (acceptsCommit ctx c.state ballot)
          if candidate.1 = 0 then .ok (false, c)
          else if c.state.phase ≠ .confirm ∨ counterOrZero c.state.highBallot < candidate.2 then
            setAcceptCommit emit ⟨candidate.1, ballot.value⟩ ⟨candidate.2, ballot.value⟩ c
          else .ok (false, c)

/-- The state change of confirming a commit, before emission. -/
def confirmCommit (newC newH : ScpBallot V) (c : Ballot N V H) : Ballot N V H :=
  let c := noteTransition (.confirmCommit newC newH) c
  updateBallots (fun s =>
    { s with commit := some newC, highBallot := some newH, phase := .externalize })
    (updateCurrentIfNeeded newH c).2

/-- Confirm a commit: the value is final, nomination is to stop, and the
driver learns the value. -/
def setConfirmCommit (emit : Emit N V H) (newC newH : ScpBallot V) (c : Ballot N V H) :
    Except Abort (Bool × Ballot N V H) := do
  let c ← emit (confirmCommit newC newH c)
  let c := c.modify fun s => { s with needsStopNomination := true }
  match c.state.commit with
  | some commit => .ok (true, c.notify (.valueExternalized commit.value))
  | none => .error .missingCommit

def attemptConfirmCommit (ctx : SlotContext N V H) (emit : Emit N V H) (hint : ScpStatement N V H)
    (c : Ballot N V H) : Except Abort (Bool × Ballot N V H) :=
  if c.state.phase ≠ .confirm then .ok (false, c)
  else
    match c.state.highBallot, c.state.commit, hint.pledges with
    | none, _, _ => .ok (false, c)
    | _, none, _ => .ok (false, c)
    | _, _, .prepare _ => .ok (false, c)
    | some _, some commit, _ =>
      match hintBallotForCommit hint with
      | none => .ok (false, c)
      | some ballot =>
        if ballotCompatible ballot commit = false then .ok (false, c)
        else
          let candidate :=
            findExtendedInterval (getCommitBoundariesFromStatements c.state ballot)
              (ratifiesCommit ctx c.state ballot)
          if candidate.1 = 0 then .ok (false, c)
          else
            setConfirmCommit emit ⟨candidate.1, ballot.value⟩ ⟨candidate.2, ballot.value⟩ c

/-! ### Advancing -/

/-- Bump until nothing is left to follow. -/
def bumpLoop (ctx : SlotContext N V H) (emit : Emit N V H) :
    Nat → Ballot N V H → Except Abort (Bool × Ballot N V H)
  | 0, _ => .error .outOfFuel
  | fuel + 1, c => do
    let (bumped, c) ← attemptBump ctx emit c
    if bumped then do
      let (_, c) ← bumpLoop ctx emit fuel c
      .ok (true, c)
    else .ok (false, c)

/-- The four attempts in their order, then the bump loop at the outermost
level. -/
def advanceSlot (ctx : SlotContext N V H) :
    Nat → ScpStatement N V H → Ballot N V H → Except Abort (EnvelopeState × Ballot N V H)
  | 0, _, _ => .error .outOfFuel
  | fuel + 1, hint, c =>
    let emit : Emit N V H := emitCurrentState ctx (advanceSlot ctx fuel)
    let c := setMessageLevel (c.state.currentMessageLevel + 1) c
    if maxProtocolTransitions ≤ c.state.currentMessageLevel then .error .maxTransitions
    else do
      let (acceptedPrepared, c) ← attemptAcceptPrepared ctx emit hint c
      let (confirmedPrepared, c) ← attemptConfirmPrepared ctx emit hint c
      let (acceptedCommit, c) ← attemptAcceptCommit ctx emit hint c
      let (confirmedCommit, c) ← attemptConfirmCommit ctx emit hint c
      let (bumped, c) ←
        if c.state.currentMessageLevel = 1 then do
          let (bumped, c) ← bumpLoop ctx emit fuel c
          .ok (bumped, checkHeardFromQuorum ctx c)
        else .ok (false, c)
      let c := setMessageLevel (c.state.currentMessageLevel - 1) c
      if bumped || confirmedCommit || acceptedCommit || confirmedPrepared ||
          acceptedPrepared then
        .ok (.validNew, sendLatestEnvelope c)
      else .ok (.valid, c)

/-- Emission with a given amount of fuel for the recursion. -/
def emitWith (ctx : SlotContext N V H) (fuel : Nat) : Emit N V H :=
  emitCurrentState ctx (advanceSlot ctx fuel)

/-! ### Operations -/

/-- Start the ballot protocol with a value from nomination. -/
def bump (ctx : SlotContext N V H) (fuel : Nat) (value : V) (force : Bool)
    (c : Ballot N V H) : Except Abort (Bool × Ballot N V H) :=
  if force = false ∧ c.state.currentBallot.isSome then .ok (false, c)
  else
    bumpState ctx (emitWith ctx fuel) value
      ((c.state.currentBallot.map (fun b => b.counter + 1)).getD 1) c

def bumpTimeout (ctx : SlotContext N V H) (fuel : Nat) (compositeCandidate : Option V)
    (c : Ballot N V H) : Except Abort (Bool × Ballot N V H) :=
  abandonBallot ctx (emitWith ctx fuel) 0
    (c.modify fun s =>
      { s with
        timerExpCount := U32.saturatingSucc s.timerExpCount
        compositeCandidate := compositeCandidate })

/-- Keep a statement as the latest one of its node. -/
def storeEnvelope (envelope : ScpEnvelope N V H) (s : BallotProtocol N V H) :
    BallotProtocol N V H :=
  { s with latestEnvelopes := s.latestEnvelopes.insert envelope.statement.nodeId envelope }

/-- Process a received statement: it must be a fresh ballot statement, and
after externalization it must carry the committed value. -/
def processEnvelope (ctx : SlotContext N V H) (fuel : Nat) (envelope : ScpEnvelope N V H)
    (validation : ValidationLevel) (c : Ballot N V H) :
    Except Abort (EnvelopeState × Ballot N V H) :=
  match envelope.statement.pledges with
  | .nominate _ => .ok (.invalid, c)
  | _ =>
    if isNewerStatement c.state envelope.statement.nodeId envelope.statement = false then
      .ok (.invalid, c)
    else if c.state.phase = .externalize then
      if statementValueMatchesCommit c.state.toBallots envelope.statement then
        .ok (.valid, c.modify (storeEnvelope envelope))
      else .ok (.invalid, c)
    else
      let c :=
        if validation.clearsFullyValidated then
          c.modify fun s => { s with fullyValidated := false }
        else c
      advanceSlot ctx fuel envelope.statement (c.modify (storeEnvelope envelope))

end Henyey.Scp
