import Henyey.Auth.Network

/-!
# The handshake of two nodes

Both ends of one connection, in the order in which each runs its steps: the initiator sends
first, the responder answers. Frames arrive in order and unchanged, whenever they do.
-/

namespace Henyey.Auth

/-- Where an end is: the next step of its handshake, or past it. It stops after an error of
the peer, and when it rejects a frame. -/
inductive HandshakeStage where
  | sendHello
  | recvHello
  | sendAuth
  | recvAuth
  | authenticated
  | stopped
  | rejected (e : OverlayError)
deriving DecidableEq

/-- One end: its session, the HELLO it received, what it sent, and how much it received. -/
structure HandshakeEnd where
  session : Session
  stage : HandshakeStage
  peerHello : Option Hello
  sent : List AuthenticatedMessage
  received : ℕ

/-- What an end starts with. -/
structure EndSetup where
  localNode : LocalNode
  weCalledRemote : Bool
  expiration : ℕ
  nonce : ℕ

namespace EndSetup

def ctx (setup : EndSetup) : AuthContext :=
  .new setup.localNode setup.weCalledRemote setup.expiration setup.nonce

def start (setup : EndSetup) : HandshakeEnd where
  session := .new setup.localNode setup.weCalledRemote setup.expiration setup.nonce
  stage := if setup.weCalledRemote then .sendHello else .recvHello
  peerHello := none
  sent := []
  received := 0

end EndSetup

namespace HandshakeEnd

def reject (self : HandshakeEnd) (e : OverlayError) : HandshakeEnd :=
  { self with stage := .rejected e }

/-- The responder sends its HELLO before it checks what the peer's advertises. -/
def sendHello (self : HandshakeEnd) : HandshakeEnd :=
  let ctx := self.session.ctx
  let sent := self.sent ++ [AuthContext.wrapUnauthenticated (.hello ctx.createHello)]
  let self := { self with session := { self.session with ctx := ctx.helloSent }, sent }
  if ctx.weCalledRemote then { self with stage := .recvHello }
  else
    match self.peerHello with
    | none => self.reject (.invalidMessage "no Hello received")
    | some hello =>
      match self.session.ctx.validateHelloPhase2 hello with
      | .error e => self.reject e
      | .ok () => { self with stage := .recvAuth }

def recvHello (self : HandshakeEnd) (frame : AuthenticatedMessage) (now : ℕ) : HandshakeEnd :=
  match self.session.unwrap frame with
  | (session, .error e) => { self with session }.reject e
  | (session, .ok (.hello hello)) =>
    match session.ctx.processHelloPhase1 hello now with
    | (ctx, .error e) => { self with session := { session with ctx } }.reject e
    | (ctx, .ok ()) =>
      let self :=
        { self with
          session := { session with ctx }
          peerHello := some hello
          received := self.received + 1 }
      if ctx.weCalledRemote then
        match ctx.validateHelloPhase2 hello with
        | .error e => self.reject e
        | .ok () => { self with stage := .sendAuth }
      else { self with stage := .sendHello }
  | (session, .ok _) => { self with session }.reject (.invalidMessage "expected Hello")

def sendAuth (self : HandshakeEnd) : HandshakeEnd :=
  match self.session.wrap (.auth 200) with
  | (session, .error e) => { self with session }.reject e
  | (session, .ok frame) =>
    { self with
      session := { session with ctx := session.ctx.authSent }
      sent := self.sent ++ [frame]
      stage := if session.ctx.weCalledRemote then .recvAuth else .authenticated }

def recvAuth (self : HandshakeEnd) (frame : AuthenticatedMessage) : HandshakeEnd :=
  match self.session.unwrap frame with
  | (session, .error e) => { self with session }.reject e
  | (session, .ok (.auth flags)) =>
    if flags ≠ 200 then
      { self with session }.reject (.invalidMessage
        ("Auth message missing flow control flag, got flags=" ++ toString flags))
    else
      match session.ctx.processAuth with
      | (ctx, .error e) => { self with session := { session with ctx } }.reject e
      | (ctx, .ok ()) =>
        { self with
          session := { session with ctx }
          received := self.received + 1
          stage := if ctx.weCalledRemote then .authenticated else .sendAuth }
  | (session, .ok (.errorMsg text)) =>
    { self with session }.reject (.invalidMessage ("peer sent ERROR: msg=" ++ text))
  | (session, .ok _) => { self with session }.reject (.invalidMessage "expected Auth")

def send (self : HandshakeEnd) (message : StellarMessage) : HandshakeEnd :=
  match self.session.wrap message with
  | (session, .error e) => { self with session }.reject e
  | (session, .ok frame) => { self with session, sent := self.sent ++ [frame] }

/-- An error of the peer ends the connection. -/
def recv (self : HandshakeEnd) (frame : AuthenticatedMessage) : HandshakeEnd :=
  match self.session.unwrap frame with
  | (session, .error e) => { self with session }.reject e
  | (session, .ok message) =>
    { self with
      session
      received := self.received + 1
      stage := if message.isError then .stopped else self.stage }

/-- The next step of an end: its handshake, or what it sends or receives after it. A step
that receives waits for the next frame of the peer. -/
def advance (self peer : HandshakeEnd) (now : ℕ) (outgoing : Option StellarMessage) :
    Option HandshakeEnd :=
  match self.stage with
  | .sendHello => some self.sendHello
  | .recvHello => peer.sent[self.received]?.map fun frame => self.recvHello frame now
  | .sendAuth => some self.sendAuth
  | .recvAuth => peer.sent[self.received]?.map self.recvAuth
  | .authenticated =>
    match outgoing with
    | some message => some (self.send message)
    | none => peer.sent[self.received]?.map self.recv
  | .stopped => none
  | .rejected _ => none

end HandshakeEnd

/-- Two nodes of one network, whose configurations accept each other. -/
structure HandshakePair where
  initiator : EndSetup
  responder : EndSetup
  called : initiator.weCalledRemote = true
  answered : responder.weCalledRemote = false
  network : initiator.localNode.networkId = responder.localNode.networkId
  distinct : initiator.localNode.secretKey ≠ responder.localNode.secretKey
  initiatorRange : initiator.localNode.overlayMinVersion ≤ initiator.localNode.overlayVersion
  responderRange : responder.localNode.overlayMinVersion ≤ responder.localNode.overlayVersion
  initiatorFits : responder.localNode.overlayMinVersion ≤ initiator.localNode.overlayVersion
  responderFits : initiator.localNode.overlayMinVersion ≤ responder.localNode.overlayVersion
  initiatorPort : 0 < initiator.localNode.listeningPort ∧ initiator.localNode.listeningPort ≤ 65535
  responderPort : 0 < responder.localNode.listeningPort ∧ responder.localNode.listeningPort ≤ 65535

/-- The states of the two ends when frames are only delayed, with the clock of the end that
makes each step. In time, no HELLO is processed after its certificate has expired. -/
inductive HandshakePair.Run (pair : HandshakePair) (inTime : Bool) :
    HandshakeEnd → HandshakeEnd → Prop where
  | start : Run pair inTime pair.initiator.start pair.responder.start
  | initiator {initiator responder initiator' : HandshakeEnd}
      (hrun : Run pair inTime initiator responder) (now : ℕ) (outgoing : Option StellarMessage)
      (hnow : inTime = true → initiator.stage = .recvHello → now < pair.responder.expiration)
      (hadvance : initiator.advance responder now outgoing = some initiator') :
      Run pair inTime initiator' responder
  | responder {initiator responder responder' : HandshakeEnd}
      (hrun : Run pair inTime initiator responder) (now : ℕ) (outgoing : Option StellarMessage)
      (hnow : inTime = true → responder.stage = .recvHello → now < pair.initiator.expiration)
      (hadvance : responder.advance initiator now outgoing = some responder') :
      Run pair inTime initiator responder'

end Henyey.Auth
