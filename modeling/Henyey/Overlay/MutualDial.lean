import Henyey.Foundation.Exploration

/-!
# Two nodes that dial each other

Each node runs a dialer on the connection it opened and an acceptor on the one it
received. The tasks share the node's reservations, its registered peer and its pool
counts, and read what the other end of their connection sent. A connection delivers what
was sent before it was closed; a send on a closed connection may still succeed.
-/

namespace Henyey.Overlay

/-- Who opened the connection, seen from the node. -/
inductive ConnectionDirection where
  | outbound
  | inbound
deriving DecidableEq

namespace ConnectionDirection

def opposite : ConnectionDirection → ConnectionDirection
  | outbound => inbound
  | inbound => outbound

end ConnectionDirection

namespace MutualDial

/-- Where the task of one end stands: in `handshake`, in `connect_to_discovered_peer` or
`handle_accepted_inbound_peer`, or returned. -/
inductive Stage where
  | sendHello
  | recvHello
  | sendAuth
  | recvAuth
  | sendMore -- authenticated, the flow control messages are still to send
  | failing -- the handshake failed after the reservation, which is removed
  | accept -- the handshake succeeded
  | promoted -- counted as authenticated, not registered yet
  | duplicate -- refused and closed before the promotion
  | refused -- refused and closed by `try_register_peer`
  | registered -- the reservation is still to release
  | running
  | leaving -- `run_peer_loop` returned
  | returned
  | turnedAway -- returned because of a reservation
  | sendFailed -- returned because a flow control message was not sent
deriving DecidableEq

/-- The handshake messages of an end, sent in this order. -/
inductive Sent where
  | nothing
  | hello
  | auth
deriving DecidableEq

/-- One end of a connection. Generations count from the node's counter at the start. -/
structure PeerEnd where
  stage : Stage
  holdsPendingPeerId : Bool
  generation : ℕ
  sent : Sent
  closed : Bool
deriving DecidableEq

/-- What a node keeps about the other node, with its two tasks. -/
structure Node where
  outbound : PeerEnd
  inbound : PeerEnd
  pendingPeerId : Option ConnectionDirection
  pendingAddress : Bool
  peer : Option (ConnectionDirection × ℕ)
  nextPeerGeneration : ℕ
  outboundPending : ℕ
  outboundAuthenticated : ℕ
  inboundPending : ℕ
  inboundAuthenticated : ℕ
deriving DecidableEq

/-- What a task did in a step. -/
inductive Branch where
  | sent
  | received
  | reserved
  | bypassed
  | turnedAway
  | failed
  | sendFailed
  | dropped
  | accepted
  | duplicate
  | registered
  | refused
  | released
  | left
  | cleanedUp
deriving DecidableEq

namespace Node

def peerEnd (n : Node) : ConnectionDirection → PeerEnd
  | .outbound => n.outbound
  | .inbound => n.inbound

def setEnd (n : Node) (d : ConnectionDirection) (e : PeerEnd) : Node :=
  match d with
  | .outbound => { n with outbound := e }
  | .inbound => { n with inbound := e }

/-- Moves the task on. -/
def goto (n : Node) (d : ConnectionDirection) (stage : Stage) : Node :=
  n.setEnd d { n.peerEnd d with stage }

/-- Drops the connection. -/
def close (n : Node) (d : ConnectionDirection) : Node :=
  n.setEnd d { n.peerEnd d with closed := true }

def send (n : Node) (d : ConnectionDirection) (message : Sent) : Node :=
  n.setEnd d { n.peerEnd d with sent := message }

/-! ### The shared state -/

/-- The reservation goes in with the flag that says who holds it. -/
def reservePeerId (n : Node) (d : ConnectionDirection) : Node :=
  let n := { n with pendingPeerId := some d }
  n.setEnd d { n.peerEnd d with holdsPendingPeerId := true }

def releasePeerId (n : Node) : Node :=
  { n with pendingPeerId := none }

/-- `handshake` after an error and the inbound task release what they hold. -/
def releaseHeld (n : Node) (d : ConnectionDirection) : Node :=
  if (n.peerEnd d).holdsPendingPeerId then n.releasePeerId else n

/-- The outbound task releases the reservation without asking who holds it. -/
def releaseAfter (n : Node) (d : ConnectionDirection) : Node :=
  match d with
  | .outbound => n.releasePeerId
  | .inbound => n.releaseHeld .inbound

/-- Only the outbound task reserved an address. -/
def releaseAddress (n : Node) (d : ConnectionDirection) : Node :=
  match d with
  | .outbound => { n with pendingAddress := false }
  | .inbound => n

/-! ### The pool of a direction -/

def releasePending (n : Node) (d : ConnectionDirection) : Node :=
  match d with
  | .outbound => { n with outboundPending := n.outboundPending - 1 }
  | .inbound => { n with inboundPending := n.inboundPending - 1 }

def releaseAuthenticated (n : Node) (d : ConnectionDirection) : Node :=
  match d with
  | .outbound => { n with outboundAuthenticated := n.outboundAuthenticated - 1 }
  | .inbound => { n with inboundAuthenticated := n.inboundAuthenticated - 1 }

/-- `try_accept_authenticated_peer` when no slot limit stands in the way. -/
def promote (n : Node) (d : ConnectionDirection) : Node :=
  match d with
  | .outbound =>
    { n with
      outboundPending := n.outboundPending - 1
      outboundAuthenticated := n.outboundAuthenticated + 1 }
  | .inbound =>
    { n with
      inboundPending := n.inboundPending - 1
      inboundAuthenticated := n.inboundAuthenticated + 1 }

/-! ### The steps of a task -/

/-- `handshake` returned an error, which it does with the connection dropped. -/
def drop (n : Node) (d : ConnectionDirection) (stage : Stage) : Node :=
  (((n.close d).goto d stage).releaseAddress d).releasePending d

/-- A receive at the end of the stream, or a send, fails once the other end is closed. -/
def failures (n : Node) (d : ConnectionDirection) (remote : PeerEnd) : List (Branch × Node) :=
  if remote.closed then [(.failed, (n.releaseHeld d).goto d .failing)] else []

/-- The duplicate check of `handshake` once the HELLO names the other node. -/
def reserveOrReject (n : Node) : ConnectionDirection → Branch × Node
  | .outbound =>
    match n.pendingPeerId with
    | some _ => (.turnedAway, n.drop .outbound .turnedAway)
    | none => (.reserved, (n.reservePeerId .outbound).goto .outbound .sendAuth)
  | .inbound =>
    match n.pendingPeerId with
    | some .inbound => (.turnedAway, n.drop .inbound .turnedAway)
    | some .outbound => (.bypassed, n.goto .inbound .sendHello)
    | none => (.reserved, (n.reservePeerId .inbound).goto .inbound .sendHello)

/-- The tiebreaker of `try_register_peer`: the node with the higher id keeps its outbound
connection. -/
def newWins (localIsHigher : Bool) : ConnectionDirection → Bool
  | .outbound => localIsHigher
  | .inbound => !localIsHigher

/-- `try_register_peer`: every call takes a generation; the result says whether the new
handle is in place. -/
def tryRegisterPeer (n : Node) (localIsHigher : Bool) (d : ConnectionDirection) : Bool × Node :=
  let generation := n.nextPeerGeneration
  let n := { n with nextPeerGeneration := generation + 1 }
  let inserted :=
    ({ n with peer := some (d, generation) }).setEnd d { n.peerEnd d with generation }
  match n.peer with
  | none => (true, inserted)
  | some (existing, _) =>
    if existing = d then (false, n)
    else if newWins localIsHigher d then (true, inserted)
    else (false, n)

/-- `cleanup_peer` leaves the entry of another generation alone. -/
def cleanupPeer (n : Node) (generation : ℕ) : Node :=
  match n.peer with
  | some (_, installed) => if installed = generation then { n with peer := none } else n
  | none => n

/-- What the task may do next, given the other end of its connection. The initiator sends
first; the responder answers. -/
def moves (n : Node) (localIsHigher : Bool) (d : ConnectionDirection) (remote : PeerEnd) :
    List (Branch × Node) :=
  match (n.peerEnd d).stage with
  | .sendHello =>
    let after := match d with
      | .outbound => Stage.recvHello
      | .inbound => Stage.recvAuth
    (.sent, (n.send d .hello).goto d after) :: n.failures d remote
  | .recvHello =>
    match remote.sent with
    | .nothing => n.failures d remote
    | _ => [n.reserveOrReject d]
  | .sendAuth =>
    let after := match d with
      | .outbound => Stage.recvAuth
      | .inbound => Stage.sendMore
    (.sent, (n.send d .auth).goto d after) :: n.failures d remote
  | .recvAuth =>
    match remote.sent with
    | .auth =>
      let after := match d with
        | .outbound => Stage.sendMore
        | .inbound => Stage.sendAuth
      [(.received, n.goto d after)]
    | _ => n.failures d remote
  | .sendMore =>
    -- an error here leaves `handshake` without a look at the reservation
    (.sent, n.goto d .accept) ::
      if remote.closed then
        [(.sendFailed, n.drop d .sendFailed)]
      else []
  | .failing => [(.dropped, n.drop d .returned)]
  | .accept =>
    let n := n.releaseAddress d
    if n.peer.map Prod.fst = some d then [(.duplicate, (n.close d).goto d .duplicate)]
    else [(.accepted, (n.promote d).goto d .promoted)]
  | .promoted =>
    match n.tryRegisterPeer localIsHigher d with
    | (true, n) => [(.registered, n.goto d .registered)]
    | (false, n) => [(.refused, (n.close d).goto d .refused)]
  | .duplicate => [(.released, ((n.releaseAfter d).releasePending d).goto d .returned)]
  | .refused => [(.released, ((n.releaseAfter d).releaseAuthenticated d).goto d .returned)]
  | .registered => [(.released, (n.releaseAfter d).goto d .running)]
  | .running =>
    -- a replaced handle closes nothing: the loop holds a sender of its own channel
    if remote.closed then [(.left, (n.close d).goto d .leaving)] else []
  | .leaving =>
    [(.cleanedUp, ((n.cleanupPeer (n.peerEnd d).generation).releaseAuthenticated d).goto d
      .returned)]
  | .returned => []
  | .turnedAway => []
  | .sendFailed => []

/-- A node that dialed and was dialed, before any task ran. -/
def start : Node where
  outbound := ⟨.sendHello, false, 0, .nothing, false⟩
  inbound := ⟨.recvHello, false, 0, .nothing, false⟩
  pendingPeerId := none
  pendingAddress := true
  peer := none
  nextPeerGeneration := 0
  outboundPending := 1
  outboundAuthenticated := 0
  inboundPending := 1
  inboundAuthenticated := 0

end Node

/-! ### The two nodes -/

inductive Side where
  | a
  | b
deriving DecidableEq

def Side.other : Side → Side
  | a => b
  | b => a

structure State where
  a : Node
  b : Node
deriving DecidableEq

namespace State

def node (s : State) : Side → Node
  | .a => s.a
  | .b => s.b

def setNode (s : State) (side : Side) (n : Node) : State :=
  match side with
  | .a => { s with a := n }
  | .b => { s with b := n }

def start : State := ⟨Node.start, Node.start⟩

end State

/-- A step: whose task, on which of its connections, and what it did. -/
structure Label where
  side : Side
  direction : ConnectionDirection
  branch : Branch
deriving DecidableEq

namespace State

/-- The steps of one task. The outbound end of a node faces the inbound end of the other. -/
def endMoves (s : State) (localIsHigher : Side → Bool) (side : Side) (d : ConnectionDirection) :
    List (Label × State) :=
  ((s.node side).moves (localIsHigher side) d ((s.node side.other).peerEnd d.opposite)).map
    fun move => (⟨side, d, move.1⟩, s.setNode side move.2)

/-- The steps of all four tasks. -/
def moves (s : State) (localIsHigher : Side → Bool) : List (Label × State) :=
  s.endMoves localIsHigher .a .outbound ++ s.endMoves localIsHigher .a .inbound ++
    s.endMoves localIsHigher .b .outbound ++ s.endMoves localIsHigher .b .inbound

end State

/-- A run with the state before each step and what the step did. -/
inductive Run (localIsHigher : Side → Bool) : State → List (State × Label) → State → Prop where
  | nil (s : State) : Run localIsHigher s [] s
  | cons {s t u : State} {label : Label} {steps : List (State × Label)}
      (hstep : (label, t) ∈ s.moves localIsHigher) (hrest : Run localIsHigher t steps u) :
      Run localIsHigher s ((s, label) :: steps) u

/-- Ids are compared as the numbers their bytes spell. -/
def localIsHigher (ids : Side → ℕ) (side : Side) : Bool :=
  decide (ids side.other < ids side)

end MutualDial

end Henyey.Overlay
