import Henyey.Auth.Network

/-!
# What arrives was sent

A MAC under a key that the adversary does not know was made by the one session that sends
under that key. What a session returns after the exchange of HELLOs is a beginning of what
that session wrapped, as long as its sequence numbers have not come round.
-/

namespace Henyey.Auth

open Network List Option
open AuthContext

variable {nodes : HonestNodes} {net net' : Network} {nonce now : ℕ} {session : Session}
  {key : HmacSha256Key} {frame : AuthenticatedMessage} {message : StellarMessage}

/-- What was wrapped under a key; a session sends under its own nonce first. -/
def Network.wrappedUnder (net : Network) (key : HmacSha256Key) : List StellarMessage :=
  match net.sessions key.nonce₁ with
  | some session => if session.ctx.sendMacKey = some key then session.wrapped else []
  | none => []

/-- The keys of a session come from a peer's certificate; that of an honest peer holds its
own key. -/
structure Derived (nodes : HonestNodes) (ctx : AuthContext) (peerKey peerSecret peerNonce : ℕ) :
    Prop where
  peerId : ctx.peerId = some peerKey
  sendMacKey : ctx.sendMacKey = some (ctx.deriveMacKeys
    s(ctx.localNode.x25519Secret, peerSecret) (.ofSecret peerSecret) peerNonce).1
  recvMacKey : ctx.recvMacKey = some (ctx.deriveMacKeys
    s(ctx.localNode.x25519Secret, peerSecret) (.ofSecret peerSecret) peerNonce).2
  honest : ∀ node, nodes.IsHonest node → node.secretKey = peerKey → peerSecret = node.x25519Secret

/-- Either there are no keys yet and nothing was exchanged, or the keys are there for good. -/
inductive Stage (nodes : HonestNodes) (session : Session) : Prop where
  | unkeyed (hsend : session.ctx.sendMacKey = none) (hrecv : session.ctx.recvMacKey = none)
      (hwrapped : session.wrapped = []) (hreturned : session.returned = [])
      (hrecvSequence : session.ctx.recvSequence = 0)
  | keyed (peerKey peerSecret peerNonce : ℕ)
      (hderived : Derived nodes session.ctx peerKey peerSecret peerNonce)
      (hstate : session.ctx.state ≠ .initial ∧ session.ctx.state ≠ .helloSent)

/-- What holds of a session by itself. -/
structure SessionSound (nodes : HonestNodes) (nonce : ℕ) (session : Session) : Prop where
  ourNonce : session.ctx.ourNonce = nonce
  localNode : nodes.IsHonest session.ctx.localNode
  sendSequence : session.ctx.sendSequence = session.wrapped.length % 2 ^ 64
  recvSequence : session.ctx.recvSequence = session.returned.length % 2 ^ 64
  stage : Stage nodes session

/-- What a session returned is what was wrapped under its key. -/
def Received (nodes : HonestNodes) (net : Network) (session : Session) : Prop :=
  ∀ key, session.ctx.recvMacKey = some key → ¬nodes.Known key →
    (net.wrappedUnder key).length < 2 ^ 64 → session.returned <+: net.wrappedUnder key

/-- A MAC that was sent covers a message that was wrapped, under its number. -/
def Logged (net : Network) (frame : AuthenticatedMessage) : Prop :=
  ∀ key sequence message, frame.mac = .compute key sequence message →
    ∃ i, (net.wrappedUnder key)[i]? = some message ∧ i % 2 ^ 64 = sequence

structure Network.Sound (nodes : HonestNodes) (net : Network) : Prop where
  session : ∀ nonce session, net.sessions nonce = some session → SessionSound nodes nonce session
  received : ∀ nonce session, net.sessions nonce = some session → Received nodes net session
  logged : ∀ frame ∈ net.log, Logged net frame

/-! ### Changes of one session -/

theorem Network.set_sessions_self : (net.set nonce session).sessions nonce = some session :=
  Function.update_self ..

theorem Network.set_sessions_ne {other : ℕ} (hne : other ≠ nonce) :
    (net.set nonce session).sessions other = net.sessions other :=
  Function.update_of_ne hne ..

/-- What was wrapped under any key goes on. -/
def Network.Grows (net net' : Network) : Prop :=
  ∀ key, net.wrappedUnder key <+: net'.wrappedUnder key

theorem Received.grows (hreceived : Received nodes net session) (hgrows : net.Grows net') :
    Received nodes net' session := by
  intro key hkey hsecret hlength
  have hbefore := (hgrows key).length_le
  exact (hreceived key hkey hsecret (by omega)).trans (hgrows key)

theorem Logged.grows (hlogged : Logged net frame) (hgrows : net.Grows net') :
    Logged net' frame := by
  intro key sequence message hmac
  obtain ⟨i, hi, hsequence⟩ := hlogged key sequence message hmac
  obtain ⟨rest, hrest⟩ := hgrows key
  refine ⟨i, ?_, hsequence⟩
  rw [← hrest, List.getElem?_append_left (List.getElem?_eq_some_iff.mp hi).1, hi]

variable {log : List AuthenticatedMessage}

theorem Network.grows_set (hkept : ∀ before, net.sessions nonce = some before →
      before.wrapped <+: session.wrapped ∧
        (before.ctx.sendMacKey = session.ctx.sendMacKey ∨ before.wrapped = []))
    : net.Grows { net.set nonce session with log } := by
  intro key
  by_cases hnonce : key.nonce₁ = nonce
  · unfold wrappedUnder
    change _ <+: match (net.set nonce session).sessions key.nonce₁ with
      | some session => if session.ctx.sendMacKey = some key then session.wrapped else []
      | none => []
    rw [hnonce, set_sessions_self]
    cases hbefore : net.sessions nonce with
    | none => exact nil_prefix
    | some before =>
      obtain ⟨hwrapped, hsame | hnil⟩ := hkept before hbefore
      · dsimp only
        rw [← hsame]
        split
        · exact hwrapped
        · exact nil_prefix
      · simp only [hnil, ite_self]
        exact nil_prefix
  · unfold wrappedUnder
    change _ <+: match (net.set nonce session).sessions key.nonce₁ with
      | some session => if session.ctx.sendMacKey = some key then session.wrapped else []
      | none => []
    rw [set_sessions_ne hnonce]

theorem Network.Sound.set (hsound : net.Sound nodes) (hsession : SessionSound nodes nonce session)
    (hreceived : Received nodes { net.set nonce session with log } session)
    (hkept : ∀ before, net.sessions nonce = some before →
      before.wrapped <+: session.wrapped ∧
        (before.ctx.sendMacKey = session.ctx.sendMacKey ∨ before.wrapped = []))
    (hlogged : ∀ frame ∈ log, frame ∈ net.log ∨ Logged { net.set nonce session with log } frame) :
    Network.Sound nodes { net.set nonce session with log } := by
  have hgrows : net.Grows { net.set nonce session with log } := grows_set hkept
  refine ⟨fun other found hfound => ?_, fun other found hfound => ?_, fun frame hmem => ?_⟩
  · by_cases hother : other = nonce
    · subst hother
      obtain rfl := some.inj (set_sessions_self.symm.trans hfound)
      exact hsession
    · exact hsound.session other found ((set_sessions_ne hother).symm.trans hfound)
  · by_cases hother : other = nonce
    · subst hother
      obtain rfl := some.inj (set_sessions_self.symm.trans hfound)
      exact hreceived
    · exact (hsound.received other found
        ((set_sessions_ne hother).symm.trans hfound)).grows hgrows
  · rcases hlogged frame hmem with hold | hnew
    · exact (hsound.logged frame hold).grows hgrows
    · exact hnew

theorem logged_unauthenticated : Logged net (wrapUnauthenticated message) := nofun

/-! ### Contexts -/

variable {ctx : AuthContext} {peerKey peerSecret peerNonce : ℕ}

section

variable (hderived : Derived nodes ctx peerKey peerSecret peerNonce)
include hderived

theorem Derived.congr {ctx' : AuthContext} (hnode : ctx'.localNode = ctx.localNode)
    (hrole : ctx'.weCalledRemote = ctx.weCalledRemote) (hnonce : ctx'.ourNonce = ctx.ourNonce)
    (hpeer : ctx'.peerId = ctx.peerId) (hsend : ctx'.sendMacKey = ctx.sendMacKey)
    (hrecv : ctx'.recvMacKey = ctx.recvMacKey) :
    Derived nodes ctx' peerKey peerSecret peerNonce where
  peerId := hpeer.trans hderived.peerId
  sendMacKey := by
    rw [hsend, hderived.sendMacKey]
    unfold deriveMacKeys
    rw [hnode, hrole, hnonce]
  recvMacKey := by
    rw [hrecv, hderived.recvMacKey]
    unfold deriveMacKeys
    rw [hnode, hrole, hnonce]
  honest := hderived.honest

theorem Derived.sendNonce (hkey : ctx.sendMacKey = some key) : key.nonce₁ = ctx.ourNonce := by
  obtain rfl := some.inj (hkey.symm.trans hderived.sendMacKey)
  unfold deriveMacKeys
  split <;> rfl

end

theorem processHelloPhase1_cases (ctx : AuthContext) (hello : Hello) (now : ℕ) :
    (ctx.processHelloPhase1 hello now).1 = ctx ∨
    (ctx.processHelloPhase1 hello now).1 = { ctx with peerNonce := some hello.nonce } ∨
    ∃ peerKey peerSecret, (ctx.state = .initial ∨ ctx.state = .helloSent) ∧
      hello.peerId = .ofSecret peerKey ∧ hello.cert.pubkey = .ofSecret peerSecret ∧
      hello.cert.verify ctx.localNode.networkId peerKey now = .ok () ∧
      (ctx.processHelloPhase1 hello now).1 =
        { ctx with
          peerNonce := some hello.nonce
          peerId := some peerKey
          sendMacKey := some (ctx.deriveMacKeys s(ctx.localNode.x25519Secret, peerSecret)
            (.ofSecret peerSecret) hello.nonce).1
          recvMacKey := some (ctx.deriveMacKeys s(ctx.localNode.x25519Secret, peerSecret)
            (.ofSecret peerSecret) hello.nonce).2
          state := .helloReceived } := by
  unfold processHelloPhase1
  split
  · exact .inl rfl
  next hstate =>
    split
    · exact .inl rfl
    next peerKey hpeer =>
      split
      · exact .inl rfl
      next hverify =>
        split
        · exact .inr (.inl rfl)
        next peerSecret hpubkey =>
          refine .inr (.inr ⟨peerKey, peerSecret, ?_, hpeer, hpubkey, hverify, ?_⟩)
          · by_contra hneither
            push Not at hneither
            exact hstate hneither
          · dsimp only
            rw [hpubkey]
            rfl

theorem SessionSound.processHello (hsession : SessionSound nodes nonce session) {hello : Hello}
    (hcert : nodes.Signable hello.cert.sig) :
    SessionSound nodes nonce
      { session with ctx := (session.ctx.processHelloPhase1 hello now).1 } := by
  rcases processHelloPhase1_cases session.ctx hello now with
    hsame | hnonce | ⟨peerKey, peerSecret, hstate, hpeer, hpubkey, hverify, hkeys⟩
  · rw [hsame]
    exact hsession
  · rw [hnonce]
    refine ⟨hsession.ourNonce, hsession.localNode, hsession.sendSequence, hsession.recvSequence, ?_⟩
    cases hsession.stage with
    | unkeyed hsend hrecv hwrapped hreturned hrecvSequence =>
      exact .unkeyed hsend hrecv hwrapped hreturned hrecvSequence
    | keyed peerKey peerSecret peerNonce hderived hstate =>
      exact .keyed _ _ _ (hderived.congr rfl rfl rfl rfl rfl rfl) hstate
  · rw [hkeys]
    refine ⟨hsession.ourNonce, hsession.localNode, hsession.sendSequence, hsession.recvSequence,
      .keyed peerKey peerSecret hello.nonce ⟨rfl, rfl, rfl, fun node hnode hsecret => ?_⟩
        ⟨nofun, nofun⟩⟩
    -- an honest signer vouches for its own key only
    unfold AuthCert.verify at hverify
    split at hverify
    · cases hverify
    · split at hverify
      next hsig =>
        rw [hsig] at hcert
        have hown := hcert node hnode hsecret
        rw [hpubkey] at hown
        exact X25519Public.ofSecret.inj hown
      · cases hverify

theorem unwrap_cases (session : Session) (frame : AuthenticatedMessage) :
    (session.unwrap frame).1 = session ∨
    ∃ key, session.ctx.recvMacKey = some key ∧ frame.sequence = session.ctx.recvSequence ∧
      frame.mac = .compute key frame.sequence frame.message ∧
      (session.unwrap frame).1 =
        { session with
          ctx := { session.ctx with recvSequence := (session.ctx.recvSequence + 1) % 2 ^ 64 }
          returned := session.returned ++ [frame.message] } := by
  unfold Session.unwrap unwrapMessage
  cases hkey : session.ctx.recvMacKey with
  | none => exact .inl (by simp)
  | some key =>
    dsimp only
    by_cases herror : frame.message.isError = true
    · exact .inl (by simp [herror])
    · rw [if_neg herror]
      by_cases hsequence : frame.sequence = session.ctx.recvSequence
      · rw [if_neg (not_not.mpr hsequence)]
        by_cases hmac : frame.mac = .compute key frame.sequence frame.message
        · rw [if_neg (not_not.mpr hmac)]
          exact .inr ⟨key, rfl, hsequence, hmac, by simp [herror, hkey]⟩
        · rw [if_pos hmac]
          exact .inl rfl
      · rw [if_pos hsequence]
        exact .inl rfl

theorem unwrap_message (hresult : (session.unwrap frame).2 = .ok message) :
    frame.message = message := by
  unfold Session.unwrap unwrapMessage at hresult
  cases hkey : session.ctx.recvMacKey with
  | none =>
    rw [hkey] at hresult
    exact Except.ok.inj hresult
  | some key =>
    rw [hkey] at hresult
    dsimp only at hresult
    split at hresult
    next hok =>
      split at hok
      · obtain rfl := (Except.ok.inj (Prod.mk.inj hok).2)
        exact Except.ok.inj hresult
      · split at hok
        · cases hok
        · split at hok
          · cases hok
          · obtain rfl := (Except.ok.inj (Prod.mk.inj hok).2)
            exact Except.ok.inj hresult
    · cases hresult

theorem SessionSound.unwrap (hsession : SessionSound nodes nonce session)
    (frame : AuthenticatedMessage) : SessionSound nodes nonce (session.unwrap frame).1 := by
  rcases unwrap_cases session frame with hsame | ⟨key, hkey, _, _, haccepted⟩
  · rw [hsame]
    exact hsession
  · rw [haccepted]
    refine ⟨hsession.ourNonce, hsession.localNode, hsession.sendSequence, ?_, ?_⟩
    · change (session.ctx.recvSequence + 1) % 2 ^ 64 =
        (session.returned ++ [frame.message]).length % 2 ^ 64
      rw [hsession.recvSequence, length_append, Nat.mod_add_mod]
      rfl
    · cases hsession.stage with
      | unkeyed hsend hrecv => rw [hrecv] at hkey; cases hkey
      | keyed peerKey peerSecret peerNonce hderived hstate =>
        exact .keyed _ _ _ (hderived.congr rfl rfl rfl rfl rfl rfl) hstate

/-- An accepted frame carries the next message that was wrapped under the key. -/
theorem Received.unwrap (hsound : net.Sound nodes) (hfound : net.sessions nonce = some session)
    (hframe : net.CanMake nodes frame) : Received nodes net (session.unwrap frame).1 := by
  have hreceived := hsound.received nonce session hfound
  rcases unwrap_cases session frame with hsame | ⟨key, hkey, hsequence, hmac, haccepted⟩
  · rw [hsame]
    exact hreceived
  · rw [haccepted]
    intro key' hkey' hsecret hlength
    obtain rfl := some.inj (hkey.symm.trans hkey')
    have hfront := hreceived key hkey hsecret hlength
    have hshorter := hfront.length_le
    obtain ⟨rest, hrest⟩ := hfront
    rcases hframe.mac key frame.sequence frame.message hmac with hknown | ⟨seen, hseen, hsame⟩
    · exact absurd hknown hsecret
    · obtain ⟨i, hi, hnumber⟩ := hsound.logged seen hseen key frame.sequence frame.message
        (hsame.trans hmac)
      have hbound : i < (net.wrappedUnder key).length := (List.getElem?_eq_some_iff.mp hi).1
      -- below the wrap-around the number is the position
      have hnext : i = session.returned.length := by
        rw [hsequence, (hsound.session nonce session hfound).recvSequence] at hnumber
        rw [Nat.mod_eq_of_lt (by omega), Nat.mod_eq_of_lt (by omega)] at hnumber
        exact hnumber
      subst hnext
      change session.returned ++ [frame.message] <+: net.wrappedUnder key
      rw [← hrest, List.getElem?_append_right le_rfl, Nat.sub_self] at hi
      cases rest with
      | nil => cases hi
      | cons next rest =>
        obtain rfl := some.inj hi
        rw [← hrest]
        exact ⟨rest, by simp⟩

/-! ### Steps -/

theorem kept_of_eq {before : Session} (hfound : net.sessions nonce = some before)
    (hwrapped : session.wrapped = before.wrapped)
    (hkeys : session.ctx.sendMacKey = before.ctx.sendMacKey ∨ before.wrapped = []) :
    ∀ found, net.sessions nonce = some found → found.wrapped <+: session.wrapped ∧
      (found.ctx.sendMacKey = session.ctx.sendMacKey ∨ found.wrapped = []) := by
  intro found hsame
  obtain rfl := some.inj (hfound.symm.trans hsame)
  rw [hwrapped]
  exact ⟨prefix_rfl, hkeys.imp_left Eq.symm⟩

theorem Network.Sound.advance (hsound : net.Sound nodes) {before : Session}
    (hfound : net.sessions nonce = some before) (hsession : SessionSound nodes nonce session)
    (hreceived : Received nodes net session) (hwrapped : session.wrapped = before.wrapped)
    (hkeys : session.ctx.sendMacKey = before.ctx.sendMacKey ∨ before.wrapped = []) :
    Network.Sound nodes (net.set nonce session) := by
  have hkept := kept_of_eq hfound hwrapped hkeys
  change Network.Sound nodes { net.set nonce session with log := net.log }
  exact hsound.set hsession (hreceived.grows (grows_set hkept)) hkept
    fun _ hmem => .inl hmem

theorem SessionSound.withState (hsession : SessionSound nodes nonce session) {state : AuthState}
    (hstate : session.ctx.state ≠ .initial ∧ session.ctx.state ≠ .helloSent →
      state ≠ .initial ∧ state ≠ .helloSent) :
    SessionSound nodes nonce { session with ctx := { session.ctx with state } } := by
  refine ⟨hsession.ourNonce, hsession.localNode, hsession.sendSequence, hsession.recvSequence, ?_⟩
  cases hsession.stage with
  | unkeyed hsend hrecv hwrapped hreturned hrecvSequence =>
    exact .unkeyed hsend hrecv hwrapped hreturned hrecvSequence
  | keyed peerKey peerSecret peerNonce hderived hkeyed =>
    exact .keyed _ _ _ (hderived.congr rfl rfl rfl rfl rfl rfl) (hstate hkeyed)

theorem unwrap_kept (session : Session) (frame : AuthenticatedMessage) :
    (session.unwrap frame).1.wrapped = session.wrapped ∧
      (session.unwrap frame).1.ctx.sendMacKey = session.ctx.sendMacKey := by
  rcases unwrap_cases session frame with hsame | ⟨_, _, _, _, haccepted⟩
  · rw [hsame]
    exact ⟨rfl, rfl⟩
  · rw [haccepted]
    exact ⟨rfl, rfl⟩

theorem processHello_kept (hsession : SessionSound nodes nonce session) (hello : Hello) (now : ℕ) :
    (session.ctx.processHelloPhase1 hello now).1.sendMacKey = session.ctx.sendMacKey ∨
      session.wrapped = [] := by
  rcases processHelloPhase1_cases session.ctx hello now with
    hsame | hnonce | ⟨_, _, hstate, _, _, _, _⟩
  · exact .inl (by rw [hsame])
  · exact .inl (by rw [hnonce])
  · cases hsession.stage with
    | unkeyed _ _ hwrapped => exact .inr hwrapped
    | keyed _ _ _ _ hkeyed => exact absurd hstate (by simp [hkeyed])

theorem Received.processHello (hreceived : Received nodes net session)
    (hsession : SessionSound nodes nonce session) (hello : Hello) (now : ℕ) :
    Received nodes net { session with ctx := (session.ctx.processHelloPhase1 hello now).1 } := by
  rcases processHelloPhase1_cases session.ctx hello now with
    hsame | hnonce | ⟨_, _, hstate, _, _, _, _⟩
  · rw [hsame]
    exact hreceived
  · rw [hnonce]
    exact hreceived
  · cases hsession.stage with
    | unkeyed _ _ _ hreturned =>
      intro key _ _ _
      change session.returned <+: _
      rw [hreturned]
      exact nil_prefix
    | keyed _ _ _ _ hkeyed => exact absurd hstate (by simp [hkeyed])

theorem Network.Sound.recvHello (hsound : net.Sound nodes)
    (hfound : net.sessions nonce = some session) (hframe : net.CanMake nodes frame) :
    Network.Sound nodes (net.set nonce (session.recvHello frame now)) := by
  have hsession := (hsound.session nonce session hfound).unwrap frame
  have hreceived := Received.unwrap hsound hfound hframe
  obtain ⟨hwrapped, hkey⟩ := unwrap_kept session frame
  unfold Session.recvHello
  split
  next unwrapped hello hresult =>
    have hcert := hframe.cert hello (unwrap_message (by rw [hresult]))
    rw [hresult] at hsession hreceived hwrapped hkey
    refine hsound.advance hfound (hsession.processHello hcert)
      (hreceived.processHello hsession hello now) hwrapped ?_
    rcases processHello_kept hsession hello now with hsame | hnil
    · exact .inl (hsame.trans hkey)
    · exact .inr (hwrapped.symm.trans hnil)
  next unwrapped result hresult =>
    rw [hresult] at hsession hreceived hwrapped hkey
    exact hsound.advance hfound hsession hreceived hwrapped (.inl hkey)

theorem Network.Sound.recvAuth (hsound : net.Sound nodes)
    (hfound : net.sessions nonce = some session) (hframe : net.CanMake nodes frame) :
    Network.Sound nodes (net.set nonce (session.recvAuth frame)) := by
  have hsession := (hsound.session nonce session hfound).unwrap frame
  have hreceived := Received.unwrap hsound hfound hframe
  obtain ⟨hwrapped, hkey⟩ := unwrap_kept session frame
  unfold Session.recvAuth
  split
  next unwrapped flags hresult =>
    rw [hresult] at hsession hreceived hwrapped hkey
    split
    · unfold processAuth
      split
      · exact hsound.advance hfound hsession hreceived hwrapped (.inl hkey)
      · exact hsound.advance hfound (hsession.withState fun _ => ⟨nofun, nofun⟩) hreceived hwrapped
          (.inl hkey)
    · exact hsound.advance hfound hsession hreceived hwrapped (.inl hkey)
  next unwrapped result hresult =>
    rw [hresult] at hsession hreceived hwrapped hkey
    exact hsound.advance hfound hsession hreceived hwrapped (.inl hkey)

theorem wrap_unkeyed (hkey : session.ctx.sendMacKey = none) : session.wrap message =
    (session, .error (.authenticationFailed "send key not established")) := by
  unfold Session.wrap wrapMessage
  rw [hkey]

theorem wrap_keyed (hkey : session.ctx.sendMacKey = some key) : session.wrap message =
    ({ session with
        ctx := { session.ctx with sendSequence := (session.ctx.sendSequence + 1) % 2 ^ 64 }
        wrapped := session.wrapped ++ [message] },
      .ok ⟨session.ctx.sendSequence, message, .compute key session.ctx.sendSequence message⟩) := by
  unfold Session.wrap wrapMessage
  split
  next ctx frame hwrap =>
    split at hwrap
    · cases hwrap
    next found hfound =>
      obtain rfl := some.inj (hkey.symm.trans hfound)
      obtain ⟨rfl, hframe⟩ := Prod.mk.inj hwrap
      obtain rfl := Except.ok.inj hframe
      rfl
  next ctx e hwrap =>
    rw [hkey] at hwrap
    cases hwrap

section

variable (hsound : net.Sound nodes)
include hsound

/-- Wrapping adds a message and logs its MAC under its number. -/
theorem Network.Sound.send (hfound : net.sessions nonce = some session)
    (hkey : session.ctx.sendMacKey = some key) (message : StellarMessage) :
    Network.Sound nodes
      { net.set nonce
          { session with
            ctx := { session.ctx with sendSequence := (session.ctx.sendSequence + 1) % 2 ^ 64 }
            wrapped := session.wrapped ++ [message] } with
        log := ⟨session.ctx.sendSequence, message,
          .compute key session.ctx.sendSequence message⟩ :: net.log } := by
  have hsession := hsound.session nonce session hfound
  have hkept : ∀ found, net.sessions nonce = some found →
      found.wrapped <+: session.wrapped ++ [message] ∧
        (found.ctx.sendMacKey = session.ctx.sendMacKey ∨ found.wrapped = []) := by
    intro found hsame
    obtain rfl := some.inj (hfound.symm.trans hsame)
    exact ⟨prefix_append .., .inl rfl⟩
  refine hsound.set ⟨hsession.ourNonce, hsession.localNode, ?_, hsession.recvSequence, ?_⟩
    ((hsound.received nonce session hfound).grows (grows_set hkept)) hkept
    fun frame hmem => ?_
  · change (session.ctx.sendSequence + 1) % 2 ^ 64 = (session.wrapped ++ [message]).length % 2 ^ 64
    rw [hsession.sendSequence, length_append, Nat.mod_add_mod]
    rfl
  · cases hsession.stage with
    | unkeyed hsend => rw [hsend] at hkey; cases hkey
    | keyed peerKey peerSecret peerNonce hderived hstate =>
      exact .keyed _ _ _ (hderived.congr rfl rfl rfl rfl rfl rfl) hstate
  · rcases mem_cons.mp hmem with rfl | hmem
    · refine .inr fun key' sequence' message' hmac => ?_
      obtain ⟨rfl, rfl, rfl⟩ := HmacSha256Mac.compute.inj hmac
      refine ⟨session.wrapped.length, ?_, hsession.sendSequence.symm⟩
      -- the key starts with the nonce of this session
      have hnonce : key.nonce₁ = nonce := by
        cases hsession.stage with
        | unkeyed hsend => rw [hsend] at hkey; cases hkey
        | keyed peerKey peerSecret peerNonce hderived =>
          exact (hderived.sendNonce hkey).trans hsession.ourNonce
      have hunder : wrappedUnder
          { net.set nonce
              { session with
                ctx := { session.ctx with
                  sendSequence := (session.ctx.sendSequence + 1) % 2 ^ 64 }
                wrapped := session.wrapped ++ [message] } with
            log := ⟨session.ctx.sendSequence, message,
              .compute key session.ctx.sendSequence message⟩ :: net.log } key =
          session.wrapped ++ [message] := by
        unfold wrappedUnder
        dsimp only
        rw [hnonce, set_sessions_self]
        exact if_pos hkey
      rw [hunder, List.getElem?_append_right le_rfl, Nat.sub_self]
      rfl
    · exact .inl hmem

theorem Network.Sound.connect (hfound : net.sessions nonce = none) {localNode : LocalNode}
    (hnode : nodes.IsHonest localNode) (weCalledRemote : Bool)
    (expiration : ℕ) : Network.Sound nodes
      (net.set nonce (.new localNode weCalledRemote expiration nonce)) := by
  have hkept : ∀ found, net.sessions nonce = some found →
      found.wrapped <+: (Session.new localNode weCalledRemote expiration nonce).wrapped ∧
        (found.ctx.sendMacKey =
          (Session.new localNode weCalledRemote expiration nonce).ctx.sendMacKey ∨
            found.wrapped = []) := by
    intro found hsame
    rw [hfound] at hsame
    cases hsame
  refine Network.Sound.set hsound ⟨rfl, hnode, rfl, rfl, .unkeyed rfl rfl rfl rfl rfl⟩ nofun hkept
    fun _ hmem => .inl hmem

theorem Network.Sound.raw (message : StellarMessage) :
    Network.Sound nodes { net with log := wrapUnauthenticated message :: net.log } := by
  refine ⟨hsound.session, hsound.received, fun frame hmem => ?_⟩
  rcases mem_cons.mp hmem with rfl | hmem
  · exact logged_unauthenticated
  · exact hsound.logged frame hmem

theorem Network.Sound.step {action : NetworkAction} (hallowed : net.Allowed nodes action)
    (hstep : net.step action = some net') : net'.Sound nodes := by
  cases action with
  | connect localNode weCalledRemote expiration nonce =>
    simp only [Network.step] at hstep
    cases hfound : net.sessions nonce with
    | some session => rw [hfound] at hstep; cases hstep
    | none =>
      rw [hfound] at hstep
      obtain rfl := some.inj hstep
      exact hsound.connect hfound hallowed weCalledRemote expiration
  | sendHello nonce =>
    obtain ⟨session, hfound, rfl⟩ := map_eq_some_iff.mp hstep
    suffices hsent :
        (net.set nonce { session with ctx := session.ctx.helloSent }).Sound nodes from hsent.raw _
    unfold helloSent
    split
    next hinitial =>
      exact hsound.advance hfound ((hsound.session nonce session hfound).withState
        fun hstate => absurd hinitial hstate.1) (hsound.received nonce session hfound) rfl
        (.inl rfl)
    · exact hsound.advance hfound (hsound.session nonce session hfound)
        (hsound.received nonce session hfound) rfl (.inl rfl)
  | sendRaw nonce message =>
    obtain ⟨session, hfound, rfl⟩ := map_eq_some_iff.mp hstep
    exact hsound.raw message
  | send nonce message =>
    obtain ⟨session, hfound, rfl⟩ := map_eq_some_iff.mp hstep
    cases hkey : session.ctx.sendMacKey with
    | none =>
      rw [wrap_unkeyed hkey]
      exact hsound.advance hfound (hsound.session nonce session hfound)
        (hsound.received nonce session hfound) rfl (.inl rfl)
    | some key =>
      rw [wrap_keyed hkey]
      exact hsound.send hfound hkey message
  | authSent nonce =>
    obtain ⟨session, hfound, rfl⟩ := map_eq_some_iff.mp hstep
    unfold AuthContext.authSent
    split
    · exact hsound.advance hfound ((hsound.session nonce session hfound).withState
        fun _ => ⟨nofun, nofun⟩) (hsound.received nonce session hfound) rfl (.inl rfl)
    · exact hsound.advance hfound (hsound.session nonce session hfound)
        (hsound.received nonce session hfound) rfl (.inl rfl)
  | recvHello nonce frame now =>
    obtain ⟨session, hfound, rfl⟩ := map_eq_some_iff.mp hstep
    exact hsound.recvHello hfound hallowed
  | recvAuth nonce frame =>
    obtain ⟨session, hfound, rfl⟩ := map_eq_some_iff.mp hstep
    exact hsound.recvAuth hfound hallowed
  | recv nonce frame =>
    obtain ⟨session, hfound, rfl⟩ := map_eq_some_iff.mp hstep
    obtain ⟨hwrapped, hkey⟩ := unwrap_kept session frame
    exact hsound.advance hfound ((hsound.session nonce session hfound).unwrap frame)
      (Received.unwrap hsound hfound hallowed) hwrapped (.inl hkey)

end

theorem Network.Run.sound (hrun : net.Run nodes) : net.Sound nodes := by
  induction hrun with
  | start =>
    refine ⟨fun nonce session hfound => ?_, fun nonce session hfound => ?_, fun frame hmem => ?_⟩
    · cases hfound
    · cases hfound
    · cases hmem
  | step hrun action hallowed hstep ih => exact ih.step hallowed hstep

/-- The session that sends under the key of an honest peer is one of that peer, in the
other role. -/
theorem sender_of_key {sender : Session} {senderNonce : ℕ} {node : LocalNode}
    (hsession : SessionSound nodes nonce session) (hsender : SessionSound nodes senderNonce sender)
    (hkey : session.ctx.recvMacKey = some key) (hsend : sender.ctx.sendMacKey = some key)
    (hnode : nodes.IsHonest node) (hpeer : session.ctx.peerId = some node.secretKey) :
    sender.ctx.localNode = node ∧ sender.ctx.weCalledRemote = !session.ctx.weCalledRemote := by
  cases hsession.stage with
  | unkeyed _ hrecv => rw [hrecv] at hkey; cases hkey
  | keyed peerKey peerSecret peerNonce hderived =>
    cases hsender.stage with
    | unkeyed hnone => rw [hnone] at hsend; cases hsend
    | keyed peerKey' peerSecret' peerNonce' hderived' =>
      obtain rfl := some.inj (hpeer.symm.trans hderived.peerId)
      have hown := hderived.honest node hnode rfl
      have hsame := some.inj (hderived.recvMacKey.symm.trans
        (hkey.trans (hsend.symm.trans hderived'.sendMacKey)))
      unfold deriveMacKeys at hsame
      -- the prefix tells the role, and the role tells where the sender's own key stands
      have hpeerPub : X25519Public.ofSecret peerSecret =
          .ofSecret sender.ctx.localNode.x25519Secret ∧
          sender.ctx.weCalledRemote = !session.ctx.weCalledRemote := by
        cases hrole : session.ctx.weCalledRemote <;>
          cases hrole' : sender.ctx.weCalledRemote <;> simp [hrole, hrole'] at hsame ⊢
        · exact hsame.1.2.1
        · exact hsame.1.2.2
      refine ⟨nodes.byX25519Secret _ _ hsender.localNode hnode ?_, hpeerPub.2⟩
      rw [← hown]
      exact (X25519Public.ofSecret.inj hpeerPub.1).symm

/-- What a session returned from an honest peer is a beginning of what that peer's session
under the same key wrapped in the other direction, unless that came round to the first
sequence number. -/
theorem returned_prefix (hrun : net.Run nodes) (hfound : net.sessions nonce = some session)
    (hkey : session.ctx.recvMacKey = some key) {node : LocalNode} (hnode : nodes.IsHonest node)
    (hpeer : session.ctx.peerId = some node.secretKey) :
    session.returned = [] ∨ ∃ sender, net.sessions key.nonce₁ = some sender ∧
      sender.ctx.localNode = node ∧ sender.ctx.sendMacKey = some key ∧
      sender.ctx.weCalledRemote = !session.ctx.weCalledRemote ∧
      (sender.wrapped.length < 2 ^ 64 → session.returned <+: sender.wrapped) := by
  have hsound := hrun.sound
  have hsession := hsound.session nonce session hfound
  have hsecret : ¬nodes.Known key := by
    cases hsession.stage with
    | unkeyed _ hrecv => rw [hrecv] at hkey; cases hkey
    | keyed peerKey peerSecret peerNonce hderived =>
      obtain rfl := some.inj (hpeer.symm.trans hderived.peerId)
      have hown := hderived.honest node hnode rfl
      obtain rfl := some.inj (hkey.symm.trans hderived.recvMacKey)
      rintro ⟨secret, hmem, hforeign⟩
      have hpair : secret ∈ s(session.ctx.localNode.x25519Secret, peerSecret) := by
        unfold deriveMacKeys at hmem
        split at hmem <;> exact hmem
      rcases Sym2.mem_iff.mp hpair with rfl | rfl
      · exact hforeign _ hsession.localNode rfl
      · exact hforeign node hnode hown.symm
  have hreceived := hsound.received nonce session hfound key hkey hsecret
  unfold wrappedUnder at hreceived
  split at hreceived
  next sender hsender =>
    split at hreceived
    next hsend =>
      obtain ⟨hlocal, hrole⟩ := sender_of_key hsession (hsound.session _ sender hsender) hkey hsend
        hnode hpeer
      exact .inr ⟨sender, hsender, hlocal, hsend, hrole, hreceived⟩
    · exact .inl (prefix_nil.mp (hreceived (by decide)))
  · exact .inl (prefix_nil.mp (hreceived (by decide)))

end Henyey.Auth
