import Henyey.Auth.Context

/-!
# Sessions under a network adversary

Honest nodes run any number of sessions with one X25519 key each. The adversary sees every
frame, keeps what it likes, and delivers whatever it can make: it has all keys that are
not of honest nodes, and every MAC that some frame carried. A session is found under its
nonce.
-/

namespace Henyey.Auth

/-- The honest nodes; no two share a secret key. -/
structure HonestNodes where
  IsHonest : LocalNode → Prop
  bySecretKey : ∀ a b, IsHonest a → IsHonest b → a.secretKey = b.secretKey → a = b
  byX25519Secret : ∀ a b, IsHonest a → IsHonest b → a.x25519Secret = b.x25519Secret → a = b

namespace HonestNodes

/-- The adversary holds one of the secrets that the key comes from. -/
def Known (nodes : HonestNodes) (key : HmacSha256Key) : Prop :=
  ∃ secret ∈ key.ikm.sharedSecret, ∀ node, nodes.IsHonest node → node.x25519Secret ≠ secret

def Signable (nodes : HonestNodes) : Signature → Prop
  | .ofSigner key data => ∀ node, nodes.IsHonest node → node.secretKey = key →
      data.pubkey = .ofSecret node.x25519Secret
  | .garbage => True

end HonestNodes

/-- A context, the messages that it wrapped, and those other than errors that it returned
once it had keys. -/
structure Session where
  ctx : AuthContext
  wrapped : List StellarMessage
  returned : List StellarMessage

namespace Session

def new (localNode : LocalNode) (weCalledRemote : Bool) (expiration nonce : ℕ) : Session where
  ctx := .new localNode weCalledRemote expiration nonce
  wrapped := []
  returned := []

def wrap (session : Session) (message : StellarMessage) :
    Session × Except OverlayError AuthenticatedMessage :=
  match session.ctx.wrapMessage message with
  | (ctx, .ok frame) => ({ session with ctx, wrapped := session.wrapped ++ [message] }, .ok frame)
  | (ctx, .error e) => ({ session with ctx }, .error e)

def unwrap (session : Session) (frame : AuthenticatedMessage) :
    Session × Except OverlayError StellarMessage :=
  match session.ctx.unwrapMessage frame with
  | (ctx, .ok message) =>
    let returned :=
      if session.ctx.recvMacKey.isSome ∧ message.isError = false then session.returned ++ [message]
      else session.returned
    ({ session with ctx, returned }, .ok message)
  | (ctx, .error e) => ({ session with ctx }, .error e)

/-- Take a frame for the peer's HELLO. -/
def recvHello (session : Session) (frame : AuthenticatedMessage) (now : ℕ) : Session :=
  match session.unwrap frame with
  | (session, .ok (.hello hello)) =>
    { session with ctx := (session.ctx.processHelloPhase1 hello now).1 }
  | (session, _) => session

/-- Take a frame for the peer's AUTH. -/
def recvAuth (session : Session) (frame : AuthenticatedMessage) : Session :=
  match session.unwrap frame with
  | (session, .ok (.auth flags)) =>
    if flags = 200 then { session with ctx := session.ctx.processAuth.1 } else session
  | (session, _) => session

end Session

/-- The sessions of the honest nodes, and every frame that they sent. -/
structure Network where
  sessions : ℕ → Option Session
  log : List AuthenticatedMessage

inductive NetworkAction where
  | connect (localNode : LocalNode) (weCalledRemote : Bool) (expiration nonce : ℕ)
  | sendHello (nonce : ℕ)
  | sendRaw (nonce : ℕ) (message : StellarMessage)
  | send (nonce : ℕ) (message : StellarMessage)
  | authSent (nonce : ℕ)
  | recvHello (nonce : ℕ) (frame : AuthenticatedMessage) (now : ℕ)
  | recvAuth (nonce : ℕ) (frame : AuthenticatedMessage)
  | recv (nonce : ℕ) (frame : AuthenticatedMessage)

namespace Network

def new : Network where
  sessions _ := none
  log := []

def set (net : Network) (nonce : ℕ) (session : Session) : Network :=
  { net with sessions := Function.update net.sessions nonce (some session) }

def step (net : Network) : NetworkAction → Option Network
  | .connect localNode weCalledRemote expiration nonce =>
    match net.sessions nonce with
    | none => some (net.set nonce (.new localNode weCalledRemote expiration nonce))
    | some _ => none
  | .sendHello nonce =>
    (net.sessions nonce).map fun session =>
      { net.set nonce { session with ctx := session.ctx.helloSent } with
        log := AuthContext.wrapUnauthenticated (.hello session.ctx.createHello) :: net.log }
  | .sendRaw nonce message =>
    (net.sessions nonce).map fun _ =>
      { net with log := AuthContext.wrapUnauthenticated message :: net.log }
  | .send nonce message =>
    (net.sessions nonce).map fun session =>
      match session.wrap message with
      | (session, .ok frame) => { net.set nonce session with log := frame :: net.log }
      | (session, .error _) => net.set nonce session
  | .authSent nonce =>
    (net.sessions nonce).map fun session =>
      net.set nonce { session with ctx := session.ctx.authSent }
  | .recvHello nonce frame now =>
    (net.sessions nonce).map fun session => net.set nonce (session.recvHello frame now)
  | .recvAuth nonce frame =>
    (net.sessions nonce).map fun session => net.set nonce (session.recvAuth frame)
  | .recv nonce frame =>
    (net.sessions nonce).map fun session => net.set nonce (session.unwrap frame).1

/-- The adversary can make the frame: its MAC from a key that it knows or from a frame that
it saw, and a certificate in it with signatures that there are. -/
structure CanMake (nodes : HonestNodes) (net : Network) (frame : AuthenticatedMessage) : Prop where
  mac : ∀ key sequence message, frame.mac = .compute key sequence message →
    nodes.Known key ∨ ∃ seen ∈ net.log, seen.mac = frame.mac
  cert : ∀ hello, frame.message = .hello hello → nodes.Signable hello.cert.sig

def Allowed (nodes : HonestNodes) (net : Network) : NetworkAction → Prop
  | .connect localNode _ _ _ => nodes.IsHonest localNode
  | .recvHello _ frame _ => net.CanMake nodes frame
  | .recvAuth _ frame => net.CanMake nodes frame
  | .recv _ frame => net.CanMake nodes frame
  | _ => True

/-- The states that the network can reach. -/
inductive Run (nodes : HonestNodes) : Network → Prop where
  | start : Run nodes .new
  | step {net net' : Network} (hrun : Run nodes net) (action : NetworkAction)
      (hallowed : net.Allowed nodes action) (hstep : net.step action = some net') : Run nodes net'

end Network

end Henyey.Auth
