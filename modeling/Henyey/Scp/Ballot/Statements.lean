import Henyey.Scp.Ballot.State

/-!
# Reading statements: sanity, quorum sets, candidates and federated voting

Everything here only reads the state. A statement names its quorum set by
hash, except that an externalized node stands for itself alone.
-/

namespace Henyey.Scp

variable {N V H : Type} [DecidableEq N] [LinearOrder V] [DecidableEq H]

def isNewerStatement (s : BallotProtocol N V H) (nodeId : N) (statement : ScpStatement N V H) :
    Bool :=
  match s.latestEnvelopes.statement? nodeId with
  | none => true
  | some existing => isNewerBallotSt existing statement

/-- The local set, then the cache by hash, then the node's announced set. -/
def resolveQuorumSet (ctx : SlotContext N V H) (provided : H) (nodeId : N) :
    Option (ScpQuorumSet N) :=
  if nodeId = ctx.localNodeId ∧ ctx.hashQuorumSet ctx.localQuorumSet = provided then
    some ctx.localQuorumSet
  else
    match ctx.driver.getQuorumSetByHash provided with
    | some quorumSet => some quorumSet
    | none =>
      match ctx.driver.getQuorumSet nodeId with
      | some quorumSet =>
        if ctx.hashQuorumSet quorumSet = provided then some quorumSet else none
      | none => none

def statementQuorumSet (ctx : SlotContext N V H) (statement : ScpStatement N V H) :
    Option (ScpQuorumSet N) :=
  match statement.pledges with
  | .externalize _ => some (simpleQuorumSet 1 [statement.nodeId])
  | .prepare prep => resolveQuorumSet ctx prep.quorumSetHash statement.nodeId
  | .confirm conf => resolveQuorumSet ctx conf.quorumSetHash statement.nodeId
  | .nominate _ => none

/-- The numeric constraints on a pledge. Only the node itself may announce a
zero ballot. -/
def pledgesSane (isSelf : Bool) : ScpStatementPledges V H → Bool
  | .prepare prep =>
    (isSelf || prep.ballot.counter != 0) &&
      (match prep.preparedPrime, prep.prepared with
        | some preparedPrime, some prepared =>
          ballotCompare preparedPrime prepared == .lt &&
            !ballotCompatible preparedPrime prepared
        | _, _ => true) &&
      (prep.nH == 0 ||
        match prep.prepared with
        | some prepared => decide (prep.nH ≤ prepared.counter)
        | none => false) &&
      (prep.nC == 0 ||
        (prep.nH != 0 && decide (prep.nH ≤ prep.ballot.counter) && decide (prep.nC ≤ prep.nH)))
  | .confirm conf =>
    conf.ballot.counter != 0 && decide (conf.nH ≤ conf.ballot.counter) &&
      decide (conf.nCommit ≤ conf.nH)
  | .externalize ext => ext.commit.counter != 0 && decide (ext.commit.counter ≤ ext.nH)
  | .nominate _ => false

def isStatementSane (ctx : SlotContext N V H) (statement : ScpStatement N V H) : Bool :=
  match statementQuorumSet ctx statement with
  | none => false
  | some quorumSet =>
    quorumSet.sane && pledgesSane (statement.nodeId = ctx.localNodeId) statement.pledges

/-- Validate the values one by one, stopping at the first invalid one. -/
def validateValues {σ : Type} (driver : SCPDriver N V H) :
    ValidationLevel → List V → Traced σ N V H → ValidationLevel × Traced σ N V H
  | level, [], c => (level, c)
  | level, value :: rest, c =>
    let (next, c) := validateValue driver value false c
    let level := minValidationLevel level next
    if level = .invalid then (level, c) else validateValues driver level rest c

def validateStatementValues {σ : Type} (driver : SCPDriver N V H) (statement : ScpStatement N V H)
    (c : Traced σ N V H) : ValidationLevel × Traced σ N V H :=
  match getStatementValues statement with
  | [] => (.invalid, c)
  | values => validateValues driver .fullyValidated values c

/-! ### Prepare candidates -/

def collectHintBallots (hint : ScpStatement N V H) : List (ScpBallot V) :=
  match hint.pledges with
  | .prepare prep => prep.ballot :: (prep.prepared.toList ++ prep.preparedPrime.toList)
  | .confirm conf => [⟨conf.nPrepared, conf.ballot.value⟩, ⟨U32.max, conf.ballot.value⟩]
  | .externalize ext => [⟨U32.max, ext.commit.value⟩]
  | .nominate _ => []

def candidatesBelow (topVote : ScpBallot V) (statement : ScpStatement N V H) : List (ScpBallot V) :=
  match statement.pledges with
  | .prepare prep =>
    (prep.ballot :: (prep.prepared.toList ++ prep.preparedPrime.toList)).filter
      (fun ballot => areBallotsLessAndCompatible ballot topVote)
  | .confirm conf =>
    if ballotCompatible topVote conf.ballot then
      topVote :: (if conf.nPrepared < topVote.counter then
        [⟨conf.nPrepared, topVote.value⟩] else [])
    else []
  | .externalize ext => if ballotCompatible topVote ext.commit then [topVote] else []
  | .nominate _ => []

/-- Candidate ballots in increasing order, each once. -/
def getPrepareCandidates (s : BallotProtocol N V H) (hint : ScpStatement N V H) :
    List (ScpBallot V) :=
  (((collectHintBallots hint).flatMap (fun topVote =>
    s.latestEnvelopes.statements.flatMap (candidatesBelow topVote))).dedup).insertionSort (· ≤ ·)

/-! ### Votes -/

def commitPredicate (ballot : ScpBallot V) (interval : U32 × U32)
    (statement : ScpStatement N V H) : Bool :=
  match statement.pledges with
  | .confirm conf =>
    ballotCompatible ballot conf.ballot && decide (conf.nCommit ≤ interval.1) &&
      decide (interval.2 ≤ conf.nH)
  | .externalize ext =>
    ballotCompatible ballot ext.commit && decide (ext.commit.counter ≤ interval.1)
  | _ => false

def statementVotesCommit (ballot : ScpBallot V) (interval : U32 × U32)
    (statement : ScpStatement N V H) : Bool :=
  match statement.pledges with
  | .prepare prep =>
    ballotCompatible ballot prep.ballot && prep.nC != 0 && decide (prep.nC ≤ interval.1) &&
      decide (interval.2 ≤ prep.nH)
  | .confirm conf => ballotCompatible ballot conf.ballot && decide (conf.nCommit ≤ interval.1)
  | .externalize ext =>
    ballotCompatible ballot ext.commit && decide (ext.commit.counter ≤ interval.1)
  | .nominate _ => false

def statementVotesForBallot (ballot : ScpBallot V) (statement : ScpStatement N V H) : Bool :=
  match statement.pledges with
  | .prepare prep => areBallotsLessAndCompatible ballot prep.ballot
  | .confirm conf => ballotCompatible ballot conf.ballot
  | .externalize ext => ballotCompatible ballot ext.commit
  | .nominate _ => false

def hasPreparedBallot (ballot : ScpBallot V) (statement : ScpStatement N V H) : Bool :=
  match statement.pledges with
  | .prepare prep =>
    prep.prepared.any (areBallotsLessAndCompatible ballot) ||
      prep.preparedPrime.any (areBallotsLessAndCompatible ballot)
  | .confirm conf => areBallotsLessAndCompatible ballot ⟨conf.nPrepared, conf.ballot.value⟩
  | .externalize ext => ballotCompatible ballot ext.commit
  | .nominate _ => false

def statementBallotCounter (statement : ScpStatement N V H) : U32 :=
  match statement.pledges with
  | .prepare prep => prep.ballot.counter
  | .confirm conf => conf.ballot.counter
  | .externalize _ => U32.max
  | .nominate _ => 0

def hasVblockingSubsetStrictlyAheadOf (ctx : SlotContext N V H) (s : BallotProtocol N V H)
    (counter : U32) : Bool :=
  isVBlocking ctx.localQuorumSet
    (s.latestEnvelopes.nodesWhere (fun st => decide (counter < statementBallotCounter st)))

/-- Quorum sets of the recorded statements, and the local one when the local
statement gives none. -/
def statementQuorumSetMap (ctx : SlotContext N V H) (s : BallotProtocol N V H) (node : N) :
    Option (ScpQuorumSet N) :=
  match (s.latestEnvelopes.statement? node).bind (statementQuorumSet ctx) with
  | some quorumSet => some quorumSet
  | none => if node = ctx.localNodeId then some ctx.localQuorumSet else none

/-- A blocking set accepted, or a quorum voted for or accepted. -/
def federatedAccept (ctx : SlotContext N V H) (s : BallotProtocol N V H)
    (voted accepted : ScpStatement N V H → Bool) : Bool :=
  isVBlocking ctx.localQuorumSet (s.latestEnvelopes.nodesWhere accepted) ||
    isQuorum ctx.localQuorumSet
      (s.latestEnvelopes.nodesWhere (fun st => accepted st || voted st))
      (statementQuorumSetMap ctx s)

/-- A quorum voted. -/
def federatedRatify (ctx : SlotContext N V H) (s : BallotProtocol N V H)
    (voted : ScpStatement N V H → Bool) : Bool :=
  isQuorum ctx.localQuorumSet (s.latestEnvelopes.nodesWhere voted) (statementQuorumSetMap ctx s)

/-- Start or stop the ballot timer by whether a quorum is at the current
counter. -/
def checkHeardFromQuorum (ctx : SlotContext N V H) (c : Ballot N V H) : Ballot N V H :=
  match c.state.currentBallot with
  | none => c
  | some current =>
    let atCounter : ScpStatement N V H → Bool := fun st =>
      match st.pledges with
      | .prepare prep => decide (current.counter ≤ prep.ballot.counter)
      | .confirm _ => true
      | .externalize _ => true
      | .nominate _ => false
    let quorumSets : N → Option (ScpQuorumSet N) := fun node =>
      (c.state.latestEnvelopes.statement? node).bind (statementQuorumSet ctx)
    if isQuorum ctx.localQuorumSet (c.state.latestEnvelopes.nodesWhere atCounter)
        quorumSets then
      let old := c.state.heardFromQuorum
      let c := setHeardFromQuorum true c
      let c :=
        if old then c
        else
          let c := c.notify (.ballotDidHearFromQuorum current)
          if c.state.phase = .externalize then c
          else c.notify (.setupTimer .ballot (ctx.driver.computeTimeout current.counter false))
      if c.state.phase = .externalize then c.notify (.stopTimer .ballot) else c
    else
      (setHeardFromQuorum false c).notify (.stopTimer .ballot)

end Henyey.Scp
