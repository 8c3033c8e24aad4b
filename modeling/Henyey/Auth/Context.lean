import Mathlib.Data.Sym.Sym2

/-!
# Authentication of a connection

The cryptography is symbolic: a signature names its signer and what it signs, a shared
secret its two key holders, a MAC its key and what it covers. Secret keys are numbers.
Sequence numbers wrap around. Ledger version and version text, which nothing reads, are
left out.
-/

namespace Henyey.Auth

/-- An Ed25519 public key as received. -/
inductive PublicKey where
  | ofSecret (key : ℕ)
  | malformed
deriving DecidableEq

/-- An X25519 public key as received; a point of small order gives a shared secret of zeros. -/
inductive X25519Public where
  | ofSecret (key : ℕ)
  | smallOrder
deriving DecidableEq

/-- What a certificate's signature covers. -/
structure CertData where
  networkId : ℕ
  expiration : ℕ
  pubkey : X25519Public
deriving DecidableEq

inductive Signature where
  | ofSigner (key : ℕ) (data : CertData)
  | garbage
deriving DecidableEq

structure AuthCert where
  pubkey : X25519Public
  expiration : ℕ
  sig : Signature
deriving DecidableEq

structure Hello where
  overlayVersion : ℕ
  overlayMinVersion : ℕ
  networkId : ℕ
  listeningPort : ℤ
  peerId : PublicKey
  cert : AuthCert
  nonce : ℕ
deriving DecidableEq

inductive StellarMessage where
  | hello (hello : Hello)
  | auth (flags : ℕ)
  | errorMsg (text : String)
  | other (content : ℕ)
deriving DecidableEq

def StellarMessage.isError : StellarMessage → Bool
  | errorMsg _ => true
  | _ => false

/-- The input of the key extraction. -/
structure Ikm where
  sharedSecret : Sym2 ℕ
  aPub : X25519Public
  bPub : X25519Public
deriving DecidableEq

/-- A key expanded from what was extracted, a prefix and two nonces. -/
structure HmacSha256Key where
  ikm : Ikm
  keyPrefix : ℕ
  nonce₁ : ℕ
  nonce₂ : ℕ
deriving DecidableEq

inductive HmacSha256Mac where
  | compute (key : HmacSha256Key) (sequence : ℕ) (message : StellarMessage)
  | zero
  | garbage
deriving DecidableEq

structure AuthenticatedMessage where
  sequence : ℕ
  message : StellarMessage
  mac : HmacSha256Mac
deriving DecidableEq

inductive OverlayError where
  | authenticationFailed (message : String)
  | macVerificationFailed
  | versionMismatch (message : String)
  | networkMismatch
  | invalidMessage (message : String)
deriving DecidableEq

/-- A node: its two secret keys, and what it is configured for. -/
structure LocalNode where
  secretKey : ℕ
  x25519Secret : ℕ
  networkId : ℕ
  overlayVersion : ℕ
  overlayMinVersion : ℕ
  listeningPort : ℤ
deriving DecidableEq

def makeAuthCert (node : LocalNode) (expiration : ℕ) : AuthCert :=
  let pubkey := X25519Public.ofSecret node.x25519Secret
  { pubkey, expiration, sig := .ofSigner node.secretKey ⟨node.networkId, expiration, pubkey⟩ }

/-- A certificate is valid until it expires, on its network, and for its signer. -/
def AuthCert.verify (cert : AuthCert) (networkId peerKey now : ℕ) : Except OverlayError Unit :=
  if cert.expiration ≤ now then .error (.authenticationFailed "auth cert expired")
  else if cert.sig = .ofSigner peerKey ⟨networkId, cert.expiration, cert.pubkey⟩ then .ok ()
  else .error (.authenticationFailed "invalid auth cert signature")

inductive AuthState where
  | initial
  | helloSent
  | helloReceived
  | authSent
  | authenticated
deriving DecidableEq

def AuthState.name : AuthState → String
  | initial => "Initial"
  | helloSent => "HelloSent"
  | helloReceived => "HelloReceived"
  | authSent => "AuthSent"
  | authenticated => "Authenticated"

structure AuthContext where
  localNode : LocalNode
  ourAuthCert : AuthCert
  ourNonce : ℕ
  peerNonce : Option ℕ
  peerId : Option ℕ
  sendMacKey : Option HmacSha256Key
  recvMacKey : Option HmacSha256Key
  sendSequence : ℕ
  recvSequence : ℕ
  state : AuthState
  weCalledRemote : Bool
deriving DecidableEq

namespace AuthContext

/-- A context with the certificate of the process and a nonce of its own. -/
def new (localNode : LocalNode) (weCalledRemote : Bool) (expiration ourNonce : ℕ) :
    AuthContext where
  localNode
  ourAuthCert := makeAuthCert localNode expiration
  ourNonce
  peerNonce := none
  peerId := none
  sendMacKey := none
  recvMacKey := none
  sendSequence := 0
  recvSequence := 0
  state := .initial
  weCalledRemote

def createHello (ctx : AuthContext) : Hello where
  overlayVersion := ctx.localNode.overlayVersion
  overlayMinVersion := ctx.localNode.overlayMinVersion
  networkId := ctx.localNode.networkId
  listeningPort := ctx.localNode.listeningPort
  peerId := .ofSecret ctx.localNode.secretKey
  cert := ctx.ourAuthCert
  nonce := ctx.ourNonce

/-- The keys to send and to receive with. The caller is A; it sends under prefix 0. -/
def deriveMacKeys (ctx : AuthContext) (sharedSecret : Sym2 ℕ) (peerPub : X25519Public)
    (peerNonce : ℕ) : HmacSha256Key × HmacSha256Key :=
  let ourPublic := X25519Public.ofSecret ctx.localNode.x25519Secret
  let ikm : Ikm :=
    if ctx.weCalledRemote then ⟨sharedSecret, ourPublic, peerPub⟩
    else ⟨sharedSecret, peerPub, ourPublic⟩
  let (sendPrefix, recvPrefix) := if ctx.weCalledRemote then (0, 1) else (1, 0)
  (⟨ikm, sendPrefix, ctx.ourNonce, peerNonce⟩, ⟨ikm, recvPrefix, peerNonce, ctx.ourNonce⟩)

/-- Check the certificate and derive the keys. The nonce of the peer is taken before the
shared secret is checked. -/
def processHelloPhase1 (ctx : AuthContext) (hello : Hello) (now : ℕ) :
    AuthContext × Except OverlayError Unit :=
  if ctx.state ≠ .initial ∧ ctx.state ≠ .helloSent then
    (ctx, .error (.authenticationFailed
      ("process_hello called in invalid state " ++ ctx.state.name ++
        " (expected Initial or HelloSent)")))
  else
    match hello.peerId with
    | .malformed => (ctx, .error (.authenticationFailed "invalid peer public key"))
    | .ofSecret peerKey =>
      match hello.cert.verify ctx.localNode.networkId peerKey now with
      | .error e => (ctx, .error e)
      | .ok () =>
        let ctx := { ctx with peerNonce := some hello.nonce }
        match hello.cert.pubkey with
        | .smallOrder =>
          (ctx, .error (.authenticationFailed
            "small-order public key produced all-zeros shared secret"))
        | .ofSecret peerSecret =>
          let keys := ctx.deriveMacKeys s(ctx.localNode.x25519Secret, peerSecret)
            hello.cert.pubkey hello.nonce
          ({ ctx with
              peerId := some peerKey
              sendMacKey := some keys.1
              recvMacKey := some keys.2
              state := .helloReceived }, .ok ())

/-- The checks of a HELLO that a responder makes after its own HELLO has gone out. -/
def validateHelloPhase2 (ctx : AuthContext) (hello : Hello) : Except OverlayError Unit :=
  if hello.overlayVersion < hello.overlayMinVersion then
    .error (.versionMismatch ("peer overlay version range malformed: min " ++
      toString hello.overlayMinVersion ++ " > max " ++ toString hello.overlayVersion))
  else if hello.overlayVersion < ctx.localNode.overlayMinVersion then
    .error (.versionMismatch ("peer overlay version " ++ toString hello.overlayVersion ++
      " below minimum " ++ toString ctx.localNode.overlayMinVersion))
  else if ctx.localNode.overlayVersion < hello.overlayMinVersion then
    .error (.versionMismatch ("peer overlay min version " ++ toString hello.overlayMinVersion ++
      " above our maximum " ++ toString ctx.localNode.overlayVersion))
  else if ctx.peerId = some ctx.localNode.secretKey then
    .error (.invalidMessage "connecting to self")
  else if hello.networkId ≠ ctx.localNode.networkId then .error .networkMismatch
  else if hello.listeningPort ≤ 0 ∨ 65535 < hello.listeningPort then
    .error (.invalidMessage "bad address")
  else .ok ()

def helloSent (ctx : AuthContext) : AuthContext :=
  if ctx.state = .initial then { ctx with state := .helloSent } else ctx

def authSent (ctx : AuthContext) : AuthContext :=
  if ctx.state = .helloReceived then { ctx with state := .authSent } else ctx

def processAuth (ctx : AuthContext) : AuthContext × Except OverlayError Unit :=
  if ctx.state ≠ .helloReceived ∧ ctx.state ≠ .authSent then
    (ctx, .error (.authenticationFailed
      ("process_auth called in invalid state " ++ ctx.state.name ++
        " (expected HelloReceived or AuthSent)")))
  else ({ ctx with state := .authenticated }, .ok ())

/-- A frame under the next sequence number. AUTH is wrapped in the same way. -/
def wrapMessage (ctx : AuthContext) (message : StellarMessage) :
    AuthContext × Except OverlayError AuthenticatedMessage :=
  match ctx.sendMacKey with
  | none => (ctx, .error (.authenticationFailed "send key not established"))
  | some key =>
    ({ ctx with sendSequence := (ctx.sendSequence + 1) % 2 ^ 64 },
      .ok ⟨ctx.sendSequence, message, .compute key ctx.sendSequence message⟩)

def wrapUnauthenticated (message : StellarMessage) : AuthenticatedMessage :=
  ⟨0, message, .zero⟩

/-- Without a key, and for errors, nothing is checked. The sequence number goes on only
after the MAC was checked. -/
def unwrapMessage (ctx : AuthContext) (frame : AuthenticatedMessage) :
    AuthContext × Except OverlayError StellarMessage :=
  match ctx.recvMacKey with
  | none => (ctx, .ok frame.message)
  | some key =>
    if frame.message.isError then (ctx, .ok frame.message)
    else if frame.sequence ≠ ctx.recvSequence then
      (ctx, .error (.authenticationFailed ("sequence mismatch: expected " ++
        toString ctx.recvSequence ++ ", got " ++ toString frame.sequence)))
    else if frame.mac ≠ .compute key frame.sequence frame.message then
      (ctx, .error .macVerificationFailed)
    else ({ ctx with recvSequence := (ctx.recvSequence + 1) % 2 ^ 64 }, .ok frame.message)

def receiving (ctx : AuthContext) : Option HmacSha256Key × ℕ × AuthState :=
  (ctx.recvMacKey, ctx.recvSequence, ctx.state)

variable {ctx : AuthContext}

theorem unwrapMessage_rejected {frame : AuthenticatedMessage} {e : OverlayError}
    (hrejected : (ctx.unwrapMessage frame).2 = .error e) :
    (ctx.unwrapMessage frame).1.receiving = ctx.receiving := by
  unfold unwrapMessage at hrejected ⊢
  split
  · rfl
  next hkey =>
    rw [hkey] at hrejected
    dsimp only at hrejected
    split
    · rfl
    · split
      · rfl
      · split
        · rfl
        next hnew hsequence hmac =>
          rw [if_neg hnew, if_neg hsequence, if_neg hmac] at hrejected
          cases hrejected

theorem processHelloPhase1_rejected {hello : Hello} {now : ℕ} {e : OverlayError}
    (hrejected : (ctx.processHelloPhase1 hello now).2 = .error e) :
    (ctx.processHelloPhase1 hello now).1.receiving = ctx.receiving := by
  unfold processHelloPhase1 at hrejected ⊢
  split
  · rfl
  next hstate =>
    rw [if_neg hstate] at hrejected
    split
    · rfl
    next peerKey hpeer =>
      rw [hpeer] at hrejected
      dsimp only at hrejected ⊢
      split
      · rfl
      next hverify =>
        rw [hverify] at hrejected
        dsimp only at hrejected ⊢
        split
        · rfl
        next peerSecret hpubkey =>
          rw [hpubkey] at hrejected
          cases hrejected

end AuthContext

end Henyey.Auth
