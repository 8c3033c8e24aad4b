import Henyey.Scp.Normalization
import Henyey.Scp.Ballot.State

/-!
# The nomination protocol

Nodes vote for values, accept them and confirm them as candidates. A node's
statement carries its votes and accepted values; emitting one runs the
promotions again and may emit a newer one first.
-/

namespace Henyey.Scp

/-- The state of the protocol; candidates and leaders are kept in increasing
order. -/
structure NominationProtocol (N V H : Type) where
  round : U32
  votes : List V
  accepted : List V
  candidates : List V
  started : Bool
  stopped : Bool
  latestComposite : Option V
  previousValue : Option V
  timerExpCount : U32
  latestNominations : Envelopes N V H
  roundLeaders : List N
  lastEnvelope : Option (ScpEnvelope N V H)
  lastEnvelopeEmit : Option (ScpEnvelope N V H)
  fullyValidated : Bool

/-- A nomination protocol with the trace of its slot. -/
abbrev Nomination (N V H : Type) : Type := Traced (NominationProtocol N V H) N V H

def NominationProtocol.new {N V H : Type} : NominationProtocol N V H where
  round := 0
  votes := []
  accepted := []
  candidates := []
  started := false
  stopped := false
  latestComposite := none
  previousValue := none
  timerExpCount := 0
  latestNominations := ∅
  roundLeaders := []
  lastEnvelope := none
  lastEnvelopeEmit := none
  fullyValidated := true

variable {N V H : Type} [LinearOrder N] [LinearOrder V] [DecidableEq H]

/-! ### Statements -/

/-- Every old vote and accepted value is kept and something was added. -/
def isNewerNomination (oldNom newNom : ScpNomination V H) : Bool :=
  let oldVotes := oldNom.votes.toFinset
  let oldAccepted := oldNom.accepted.toFinset
  let newVotes := newNom.votes.toFinset
  let newAccepted := newNom.accepted.toFinset
  let votesGrew := decide (oldVotes ⊆ newVotes) && decide (oldVotes.card < newVotes.card)
  let acceptedGrew :=
    decide (oldAccepted ⊆ newAccepted) && decide (oldAccepted.card < newAccepted.card)
  (decide (oldVotes ⊆ newVotes) && decide (oldAccepted ⊆ newAccepted)) &&
    (votesGrew || acceptedGrew)

/-- Strictly increasing. -/
def isSortedUnique : List V → Bool
  | a :: b :: rest => decide (a < b) && isSortedUnique (b :: rest)
  | _ => true

def isSaneNomination (nomination : ScpNomination V H) : Bool :=
  if nomination.votes.isEmpty && nomination.accepted.isEmpty then false
  else isSortedUnique nomination.votes && isSortedUnique nomination.accepted

def isNewerNominationInternal (s : NominationProtocol N V H) (nodeId : N)
    (nomination : ScpNomination V H) : Bool :=
  match s.latestNominations.statement? nodeId with
  | none => true
  | some existing =>
    match existing.pledges with
    | .nominate existingNom => isNewerNomination existingNom nomination
    | _ => true

/-- Add a value that is not there yet; whether it was added. -/
def insertUnique (values : List V) (value : V) : Bool × List V :=
  if value ∈ values then (false, values) else (true, values ++ [value])

def insertOrdered {α : Type} [LinearOrder α] (a : α) (members : List α) : List α :=
  if a ∈ members then members else members.orderedInsert (· ≤ ·) a

/-- Add a vote; whether it is new. -/
def insertVote (value : V) (c : Nomination N V H) : Bool × Nomination N V H :=
  let (inserted, votes) := insertUnique c.state.votes value
  (inserted, c.modify fun s => { s with votes := votes })

def insertAccepted (value : V) (c : Nomination N V H) : Bool × Nomination N V H :=
  let (inserted, accepted) := insertUnique c.state.accepted value
  (inserted, c.modify fun s => { s with accepted := accepted })

/-- Add a vote and announce it when it is new. -/
def announceVote (value : V) (c : Nomination N V H) : Bool × Nomination N V H :=
  let (inserted, c) := insertVote value c
  if inserted then (true, c.notify (.nominatingValue value)) else (false, c)

/-! ### Support for a value -/

def getNodesWithValue (s : NominationProtocol N V H) (value : V)
    (field : ScpNomination V H → List V) : Finset N :=
  s.latestNominations.nodesWhere fun st =>
    match st.pledges with
    | .nominate nom => decide (value ∈ field nom)
    | _ => false

/-- The quorum set that a nomination announces, by its hash, or the node's own
one if the hash fits. -/
def nominationQuorumSet (ctx : SlotContext N V H) (node : N) (statement : ScpStatement N V H) :
    Option (ScpQuorumSet N) :=
  match statement.pledges with
  | .nominate nom =>
    match ctx.driver.getQuorumSetByHash nom.quorumSetHash with
    | some quorumSet => some quorumSet
    | none =>
      (ctx.driver.getQuorumSet node).filter fun quorumSet =>
        ctx.hashQuorumSet quorumSet = nom.quorumSetHash
  | _ => none

/-- Quorum sets of the recorded nominations; the local node is always there. -/
def nominationQuorumSetMap (ctx : SlotContext N V H) (s : NominationProtocol N V H) (node : N) :
    Option (ScpQuorumSet N) :=
  match (s.latestNominations.statement? node).bind (nominationQuorumSet ctx node) with
  | some quorumSet => some quorumSet
  | none => if node = ctx.localNodeId then some ctx.localQuorumSet else none

def shouldAcceptValue (ctx : SlotContext N V H) (s : NominationProtocol N V H) (value : V) : Bool :=
  let voters := getNodesWithValue s value ScpNomination.votes
  let acceptors := getNodesWithValue s value ScpNomination.accepted
  isVBlocking ctx.localQuorumSet acceptors ||
    isQuorum ctx.localQuorumSet (voters ∪ acceptors) (nominationQuorumSetMap ctx s)

def shouldRatifyValue (ctx : SlotContext N V H) (s : NominationProtocol N V H) (value : V) : Bool :=
  isQuorum ctx.localQuorumSet (getNodesWithValue s value ScpNomination.accepted)
    (nominationQuorumSetMap ctx s)

/-! ### Values from the driver -/

def extractValidValue (driver : SCPDriver N V H) (value : V) (c : Nomination N V H) :
    Option V × Nomination N V H :=
  (driver.extractValidValue c.log value, c.notify (.extractValidValue value))

/-- The value itself when it is fully validated, else what the driver can make
of it. -/
def validCandidate (driver : SCPDriver N V H) (value : V) (c : Nomination N V H) :
    Option V × Nomination N V H :=
  let (level, c) := validateValue driver value true c
  match level with
  | .fullyValidated => (some value, c)
  | _ => extractValidValue driver value c

def hashValue (ctx : SlotContext N V H) (s : NominationProtocol N V H) (value : V) : Nat :=
  ctx.driver.computeValueHash (s.previousValue.getD value) s.round value

/-- What the search for a new vote found so far. -/
structure NewValue (V : Type) where
  foundValid : Bool
  best : Option (Nat × V)

/-- The later of two values with the same hash wins. -/
def NewValue.offer (found : NewValue V) (hash : Nat) (candidate : V) : NewValue V :=
  match found.best with
  | none => { found with best := some (hash, candidate) }
  | some (bestHash, _) =>
    if bestHash ≤ hash then { found with best := some (hash, candidate) } else found

def considerValue (ctx : SlotContext N V H) (value : V) (found : NewValue V)
    (c : Nomination N V H) : NewValue V × Nomination N V H :=
  match validCandidate ctx.driver value c with
  | (none, c) => (found, c)
  | (some candidate, c) =>
    let found := { found with foundValid := true }
    if candidate ∈ c.state.votes then (found, c)
    else (found.offer (hashValue ctx c.state candidate) candidate, c)

def considerValues (ctx : SlotContext N V H) :
    List V → NewValue V → Nomination N V H → NewValue V × Nomination N V H
  | [], found, c => (found, c)
  | value :: rest, found, c =>
    let (found, c) := considerValue ctx value found c
    considerValues ctx rest found c

/-- The valid value of highest hash that is not voted for yet. Votes count only
when no accepted value is valid. -/
def getNewValueFromNomination (ctx : SlotContext N V H) (nomination : ScpNomination V H)
    (c : Nomination N V H) : Option V × Nomination N V H :=
  let (found, c) := considerValues ctx nomination.accepted ⟨false, none⟩ c
  let (found, c) :=
    if found.foundValid then (found, c) else considerValues ctx nomination.votes found c
  (found.best.map Prod.snd, c)

/-! ### Round leaders -/

def getNodePriority (ctx : SlotContext N V H) (quorumSet : ScpQuorumSet N) (prevValue : V)
    (round : U32) (node : N) : Nat :=
  let weight := ctx.driver.getNodeWeight node quorumSet (decide (node = ctx.localNodeId))
  if weight = 0 then 0
  else if ctx.driver.computeHashNode prevValue false round node ≤ weight then
    ctx.driver.computeHashNode prevValue true round node
  else 0

/-- The nodes of highest priority among the local node and the given ones. -/
def topLeaders (localNodeId : N) (priority : N → Nat) (nodes : List N) : List N :=
  let (topPriority, newLeaders) :=
    nodes.foldl (fun (topPriority, newLeaders) node =>
      let newLeaders := if topPriority < priority node then [] else newLeaders
      let topPriority := max topPriority (priority node)
      (topPriority,
        if priority node = topPriority ∧ 0 < priority node then insertOrdered node newLeaders
        else newLeaders))
      (priority localNodeId, [localNodeId])
  if topPriority = 0 then [] else newLeaders

/-- Raise the round until a new leader appears; the source gives up after a
thousand rounds. -/
def electLeaders (ctx : SlotContext N V H) (quorumSet : ScpQuorumSet N) (prevValue : V)
    (maxLeaderCount : Nat) : Nat → U32 → List N → Except Abort (U32 × List N)
  | 0, _, _ => .error .stuckLeaders
  | remaining + 1, round, roundLeaders =>
    if roundLeaders.length < maxLeaderCount then
      let newLeaders := topLeaders ctx.localNodeId
        (getNodePriority ctx quorumSet prevValue round) (allNodes quorumSet)
      let grown := newLeaders.foldl (fun leaders node => insertOrdered node leaders) roundLeaders
      if grown.length ≠ roundLeaders.length then .ok (round, grown)
      else
        electLeaders ctx quorumSet prevValue maxLeaderCount remaining (U32.saturatingSucc round)
          roundLeaders
    else .ok (round, roundLeaders)

def updateRoundLeaders (ctx : SlotContext N V H) (prevValue : V) (c : Nomination N V H) :
    Except Abort (Nomination N V H) := do
  let normalized := normalizeQuorumSetWithRemove ctx.localQuorumSet (some ctx.localNodeId)
  let localCount := if 0 < ctx.driver.getNodeWeight ctx.localNodeId normalized true then 1 else 0
  let maxLeaderCount := localCount + (allNodes normalized).countP
    (fun node => decide (0 < ctx.driver.getNodeWeight node normalized false))
  let (round, roundLeaders) ←
    electLeaders ctx normalized prevValue maxLeaderCount 1000 c.state.round c.state.roundLeaders
  .ok (c.modify fun s => { s with round := round, roundLeaders := roundLeaders })

/-! ### Promotion -/

/-- Accept a value, which is then voted for as well. -/
def acceptValue (value : V) (c : Nomination N V H) : Bool × Nomination N V H :=
  let (inserted, c) := insertAccepted value c
  if inserted then (true, (insertVote value c).2) else (false, c)

/-- Accept a supported value that is fully validated; vote for what the driver
can extract from another one. -/
def promoteVote (ctx : SlotContext N V H) (value : V) (c : Nomination N V H) :
    Bool × Nomination N V H :=
  let (level, c) := validateValue ctx.driver value true c
  match level with
  | .fullyValidated => acceptValue value c
  | _ =>
    match extractValidValue ctx.driver value c with
    | (some extracted, c) => insertVote extracted c
    | (none, c) => (false, c)

/-- Promote the votes that have enough support. -/
def acceptVotes (ctx : SlotContext N V H) : List V → Nomination N V H → Bool × Nomination N V H
  | [], c => (false, c)
  | value :: rest, c =>
    if value ∈ c.state.accepted then acceptVotes ctx rest c
    else if shouldAcceptValue ctx c.state value = false then acceptVotes ctx rest c
    else
      let (modified, c) := promoteVote ctx value c
      let (modified', c) := acceptVotes ctx rest c
      (modified || modified', c)

def ratifyAccepted (ctx : SlotContext N V H) : List V → Nomination N V H → Bool × Nomination N V H
  | [], c => (false, c)
  | value :: rest, c =>
    if value ∈ c.state.candidates then ratifyAccepted ctx rest c
    else if shouldRatifyValue ctx c.state value = true then
      let c := (c.modify fun s => { s with candidates := insertOrdered value s.candidates }).notify
        (.stopTimer .nomination)
      (true, (ratifyAccepted ctx rest c).2)
    else ratifyAccepted ctx rest c

/-- Promote votes to accepted and accepted values to candidates: whether votes
or accepted values changed, and whether there are new candidates. -/
def attemptPromote (ctx : SlotContext N V H) (votesToCheck : List V) (c : Nomination N V H) :
    (Bool × Bool) × Nomination N V H :=
  let (modified, c) := acceptVotes ctx votesToCheck c
  let (newCandidates, c) := ratifyAccepted ctx c.state.accepted c
  ((modified, newCandidates), c)

def updateComposite (ctx : SlotContext N V H) (c : Nomination N V H) : Nomination N V H :=
  if c.state.candidates.isEmpty then c
  else
    let composite := ctx.driver.combineCandidates c.log c.state.candidates
    let c := c.notify (.combineCandidates c.state.candidates)
    match composite with
    | none => c
    | some composite =>
      if c.state.latestComposite = some composite then c
      else
        (c.notify (.updatedCandidateValue composite)).modify fun s =>
          { s with latestComposite := some composite }

/-! ### Emission -/

/-- The statement of the current votes and accepted values. -/
def selfNomination (ctx : SlotContext N V H) (s : NominationProtocol N V H) :
    ScpNomination V H where
  quorumSetHash := ctx.hashQuorumSet ctx.localQuorumSet
  votes := sortedValues s.votes
  accepted := sortedValues s.accepted

def nominationEnvelope (ctx : SlotContext N V H) (nomination : ScpNomination V H) :
    ScpEnvelope N V H :=
  let statement : ScpStatement N V H :=
    { nodeId := ctx.localNodeId, slotIndex := ctx.slotIndex, pledges := .nominate nomination }
  { statement := statement, signature := ctx.driver.signEnvelope statement }

def recordNomination (nodeId : N) (envelope : ScpEnvelope N V H) (c : Nomination N V H) :
    Nomination N V H :=
  c.modify fun s => { s with latestNominations := s.latestNominations.insert nodeId envelope }

/-- Whether an own statement is newer than the last one. -/
def newerThanLast (s : NominationProtocol N V H) (nomination : ScpNomination V H) : Bool :=
  match s.lastEnvelope with
  | none => true
  | some last =>
    match last.statement.pledges with
    | .nominate lastNom => isNewerNomination lastNom nomination
    | _ => true

/-- Keep an own envelope that is still newer than the last one, and send it if
everything is validated. -/
def publishNomination (envelope : ScpEnvelope N V H) (nomination : ScpNomination V H)
    (c : Nomination N V H) : Nomination N V H :=
  if newerThanLast c.state nomination then
    let c := c.modify fun s => { s with lastEnvelope := some envelope }
    if c.state.fullyValidated ∧ c.state.lastEnvelopeEmit ≠ some envelope then
      (c.modify fun s => { s with lastEnvelopeEmit := some envelope }).notify
        (.emitEnvelope envelope)
    else c
  else c

/-- Emit when something changed. -/
def emitIf (emit : Nomination N V H → Except Abort (Nomination N V H)) (modified : Bool)
    (c : Nomination N V H) : Except Abort (Nomination N V H) :=
  if modified then emit c else .ok c

/-- What a node does with its own statement: promote on it, emit what changed,
and then combine new candidates. -/
def selfProcess (ctx : SlotContext N V H)
    (emit : Nomination N V H → Except Abort (Nomination N V H)) (votes : List V)
    (c : Nomination N V H) : Except Abort (Nomination N V H) :=
  if c.state.started then do
    let ((modified, newCandidates), c) := attemptPromote ctx votes c
    let c ← emitIf emit modified c
    .ok (if newCandidates then updateComposite ctx c else c)
  else .ok c

/-- Record the statement of the current state and promote on it, which may emit
a newer one, before publishing it. -/
def emitNomination (ctx : SlotContext N V H) :
    Nat → Nomination N V H → Except Abort (Nomination N V H)
  | 0, _ => .error .outOfFuel
  | fuel + 1, c =>
    let nomination := selfNomination ctx c.state
    let envelope := nominationEnvelope ctx nomination
    if isNewerNominationInternal c.state ctx.localNodeId nomination = false then .ok c
    else if isSaneNomination nomination = false then .ok c
    else do
      let c := recordNomination ctx.localNodeId envelope c
      let c ← selfProcess ctx (emitNomination ctx fuel) nomination.votes c
      .ok (publishNomination envelope nomination c)

/-! ### The calls of a slot -/

/-- Vote for the new value that a nomination offers. -/
def adoptValue (ctx : SlotContext N V H) (nomination : ScpNomination V H)
    (c : Nomination N V H) : Bool × Nomination N V H :=
  match getNewValueFromNomination ctx nomination c with
  | (some newVote, c) => announceVote newVote c
  | (none, c) => (false, c)

/-- Take one new value from each leader's nomination. -/
def adoptLeaderValues (ctx : SlotContext N V H) :
    List N → Nomination N V H → Bool × Nomination N V H
  | [], c => (false, c)
  | leader :: rest, c =>
    let (updated, c) :=
      match (c.state.latestNominations.statement? leader).map ScpStatement.pledges with
      | some (.nominate nom) => adoptValue ctx nom c
      | _ => (false, c)
    let (updated', c) := adoptLeaderValues ctx rest c
    (updated || updated', c)

/-- The own value, without its upgrades after too many timeouts, and whether to
vote for it. -/
def ownVote (ctx : SlotContext N V H) (s : NominationProtocol N V H) (value : V) : Bool × V :=
  if ctx.driver.getUpgradeNominationTimeoutLimit ≤ s.timerExpCount ∧
      s.votes.all ctx.driver.hasUpgrades then
    (true, (ctx.driver.stripAllUpgrades value).getD value)
  else (s.votes.isEmpty, value)

def voteAsLeader (ctx : SlotContext N V H) (value : V) (c : Nomination N V H) :
    Bool × Nomination N V H :=
  if ctx.localNodeId ∉ c.state.roundLeaders then (false, c)
  else
    let (shouldVote, value) := ownVote ctx c.state value
    if shouldVote then
      let (level, c) := validateValue ctx.driver value true c
      if level = .invalid then (false, c) else announceVote value c
    else (false, c)

def nominate (ctx : SlotContext N V H) (fuel : Nat) (value prevValue : V) (timedout : Bool)
    (c : Nomination N V H) : Except Abort (Bool × Nomination N V H) :=
  if c.state.stopped then .ok (false, c)
  else if c.state.candidates.isEmpty = false then .ok (false, c)
  else
    let c :=
      if timedout then
        c.modify fun s => { s with timerExpCount := U32.saturatingSucc s.timerExpCount }
      else c
    if timedout ∧ c.state.started = false then .ok (false, c)
    else do
      let c ← updateRoundLeaders ctx prevValue <| c.modify fun s =>
        { s with
          started := true
          previousValue := some prevValue
          round := U32.saturatingSucc s.round }
      let (adopted, c) := adoptLeaderValues ctx c.state.roundLeaders c
      let (voted, c) := voteAsLeader ctx value c
      let updated := voted || adopted
      let c ← emitIf (emitNomination ctx fuel) updated c
      .ok (updated, c)

/-- Take a new value from a leader's nomination while there are no candidates. -/
def adoptFromLeader (ctx : SlotContext N V H) (nodeId : N) (nomination : ScpNomination V H)
    (c : Nomination N V H) : Bool × Nomination N V H :=
  if c.state.candidates.isEmpty ∧ nodeId ∈ c.state.roundLeaders then adoptValue ctx nomination c
  else (false, c)

/-- What a started protocol does with a nomination that was just recorded. -/
def reactToNomination (ctx : SlotContext N V H) (fuel : Nat) (nodeId : N)
    (nomination : ScpNomination V H) (c : Nomination N V H) :
    Except Abort (Bool × Nomination N V H) := do
  let ((modified, newCandidates), c) := attemptPromote ctx nomination.votes c
  let (adopted, c) := adoptFromLeader ctx nodeId nomination c
  let c ← emitIf (emitNomination ctx fuel) (modified || adopted) c
  .ok (modified || adopted || newCandidates, if newCandidates then updateComposite ctx c else c)

def processNomination (ctx : SlotContext N V H) (fuel : Nat) (envelope : ScpEnvelope N V H)
    (c : Nomination N V H) : Except Abort (EnvelopeState × Nomination N V H) :=
  match envelope.statement.pledges with
  | .nominate nomination =>
    let nodeId := envelope.statement.nodeId
    if isNewerNominationInternal c.state nodeId nomination = false then .ok (.invalid, c)
    else if isSaneNomination nomination = false then .ok (.invalid, c)
    else
      let c := recordNomination nodeId envelope c
      if c.state.started then do
        let (stateChanged, c) ← reactToNomination ctx fuel nodeId nomination c
        .ok (if stateChanged then .validNew else .valid, c)
      else .ok (.valid, c)
  | _ => .ok (.invalid, c)

def stopNomination (c : Nomination N V H) : Nomination N V H :=
  c.modify fun s => { s with stopped := true, started := false }

def setNominationValidated (fullyValidated : Bool) (c : Nomination N V H) : Nomination N V H :=
  c.modify fun s => { s with fullyValidated := fullyValidated }

/-- Send the last own envelope once it may be sent. -/
def emitDeferred (c : Nomination N V H) : Nomination N V H :=
  if c.state.fullyValidated = false then c
  else
    match c.state.lastEnvelope with
    | none => c
    | some envelope =>
      if c.state.lastEnvelopeEmit = some envelope then c
      else
        (c.modify fun s => { s with lastEnvelopeEmit := some envelope }).notify
          (.emitEnvelope envelope)

/-- Take up the votes and accepted values of a saved envelope. -/
def setNominationFromEnvelope (envelope : ScpEnvelope N V H) (c : Nomination N V H) :
    Bool × Nomination N V H :=
  if c.state.started then (false, c)
  else
    match envelope.statement.pledges with
    | .nominate nomination =>
      (true, c.modify fun s =>
        { s with
          votes := nomination.votes
          accepted := nomination.accepted
          latestNominations := s.latestNominations.insert envelope.statement.nodeId envelope
          lastEnvelope := some envelope })
    | _ => (false, c)

end Henyey.Scp
