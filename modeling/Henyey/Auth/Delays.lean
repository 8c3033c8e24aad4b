import Henyey.Auth.Handshake

/-!
# Frames that are only delayed

The two ends derive matching keys, and each frame finds its receiver at its number, in
whatever order the ends make their steps. Nothing is rejected, unless a certificate has
expired before its HELLO is processed.
-/

namespace Henyey.Auth

open AuthContext EndSetup Option

namespace EndSetup

def hello (setup : EndSetup) : Hello := setup.ctx.createHello

def helloFrame (setup : EndSetup) : AuthenticatedMessage :=
  wrapUnauthenticated (.hello setup.hello)

/-- The keys to send and to receive with. -/
def keys (own peer : EndSetup) : HmacSha256Key × HmacSha256Key :=
  own.ctx.deriveMacKeys s(own.localNode.x25519Secret, peer.localNode.x25519Secret)
    (.ofSecret peer.localNode.x25519Secret) peer.nonce

/-- The context once the peer's HELLO was processed. -/
def keyedCtx (own peer : EndSetup) (state : AuthState) (sendSequence recvSequence : ℕ) :
    AuthContext :=
  { own.ctx with
    peerNonce := some peer.nonce
    peerId := some peer.localNode.secretKey
    sendMacKey := some (own.keys peer).1
    recvMacKey := some (own.keys peer).2
    state
    sendSequence
    recvSequence }

def frame (own peer : EndSetup) (i : ℕ) (message : StellarMessage) : AuthenticatedMessage :=
  ⟨i % 2 ^ 64, message, .compute (own.keys peer).1 (i % 2 ^ 64) message⟩

/-- What an end has sent: its HELLO, and what it wrapped under the numbers in order. -/
def sentFrames (own peer : EndSetup) (wrapped : List StellarMessage) : List AuthenticatedMessage :=
  own.helloFrame :: wrapped.mapIdx (own.frame peer)

/-- The peer's advertised configuration passes the checks. -/
structure Accepts (own peer : EndSetup) : Prop where
  opposite : peer.weCalledRemote = !own.weCalledRemote
  network : peer.localNode.networkId = own.localNode.networkId
  distinct : peer.localNode.secretKey ≠ own.localNode.secretKey
  range : peer.localNode.overlayMinVersion ≤ peer.localNode.overlayVersion
  notBelow : own.localNode.overlayMinVersion ≤ peer.localNode.overlayVersion
  notAbove : peer.localNode.overlayMinVersion ≤ own.localNode.overlayVersion
  port : 0 < peer.localNode.listeningPort ∧ peer.localNode.listeningPort ≤ 65535

end EndSetup

variable {own peer : EndSetup} {self self' other : HandshakeEnd} {now : ℕ}

theorem keys_match (hopposite : peer.weCalledRemote = !own.weCalledRemote) :
    (own.keys peer).2 = (peer.keys own).1 := by
  unfold keys deriveMacKeys ctx new
  cases hrole : own.weCalledRemote <;> simp [hopposite, hrole, Sym2.eq_swap]

/-- What belongs to each step between the HELLOs and the end of the handshake. -/
inductive KeyedAt : Bool → HandshakeStage → AuthState → List StellarMessage → ℕ → Prop where
  | callerSends : KeyedAt true .sendAuth .helloReceived [] 1
  | callerWaits : KeyedAt true .recvAuth .authSent [.auth 200] 1
  | answererWaits : KeyedAt false .recvAuth .helloReceived [] 1
  | answererSends : KeyedAt false .sendAuth .authenticated [] 2
  | done {role : Bool} {rest : List StellarMessage} {received : ℕ} (hreceived : 2 ≤ received) :
      KeyedAt role .authenticated .authenticated (.auth 200 :: rest) received

/-- What an end can be like if it never rejects a frame. -/
inductive EndSound (own peer : EndSetup) : HandshakeEnd → Prop where
  | start : EndSound own peer own.start
  | called (hrole : own.weCalledRemote = true) : EndSound own peer
      { session := ⟨{ own.ctx with state := .helloSent }, [], []⟩
        stage := .recvHello
        peerHello := none
        sent := [own.helloFrame]
        received := 0 }
  | answers (hrole : own.weCalledRemote = false) (returned : List StellarMessage) :
      EndSound own peer
        { session := ⟨own.keyedCtx peer .helloReceived 0 0, [], returned⟩
          stage := .sendHello
          peerHello := some peer.hello
          sent := []
          received := 1 }
  | keyed {stage : HandshakeStage} {state : AuthState} {wrapped : List StellarMessage}
      {received : ℕ}
      (hat : KeyedAt own.weCalledRemote stage state wrapped received)
      (returned : List StellarMessage) : EndSound own peer
        { session :=
            ⟨own.keyedCtx peer state (wrapped.length % 2 ^ 64) ((received - 1) % 2 ^ 64), wrapped,
              returned⟩
          stage
          peerHello := some peer.hello
          sent := own.sentFrames peer wrapped
          received }
  | stopped (rest returned : List StellarMessage) (recvSequence received : ℕ) : EndSound own peer
      { session :=
          ⟨own.keyedCtx peer .authenticated ((rest.length + 1) % 2 ^ 64) recvSequence,
            .auth 200 :: rest, returned⟩
        stage := .stopped
        peerHello := some peer.hello
        sent := own.sentFrames peer (.auth 200 :: rest)
        received }

theorem KeyedAt.head {role : Bool} {stage : HandshakeStage} {state : AuthState}
    {wrapped : List StellarMessage} {received : ℕ}
    (hat : KeyedAt role stage state wrapped received) :
    wrapped = [] ∨ ∃ rest, wrapped = .auth 200 :: rest := by
  cases hat with
  | callerSends => exact .inl rfl
  | callerWaits => exact .inr ⟨[], rfl⟩
  | answererWaits => exact .inl rfl
  | answererSends => exact .inl rfl
  | done => exact .inr ⟨_, rfl⟩

theorem EndSound.sent (hsound : EndSound own peer self) {i : ℕ} {frame : AuthenticatedMessage}
    (hframe : self.sent[i]? = some frame) :
    (i = 0 ∧ frame = own.helloFrame) ∨
      ∃ j message, i = j + 1 ∧ frame = own.frame peer j message ∧
        (j = 0 → message = .auth 200) := by
  have hsent : self.sent = [] ∨ ∃ wrapped, self.sent = own.sentFrames peer wrapped ∧
      (wrapped = [] ∨ ∃ rest, wrapped = .auth 200 :: rest) := by
    cases hsound with
    | start => exact .inl rfl
    | called => exact .inr ⟨[], rfl, .inl rfl⟩
    | answers => exact .inl rfl
    | keyed hat => exact .inr ⟨_, rfl, hat.head⟩
    | stopped rest => exact .inr ⟨_, rfl, .inr ⟨rest, rfl⟩⟩
  rcases hsent with hnone | ⟨wrapped, hsent, hhead⟩
  · rw [hnone] at hframe
    cases hframe
  · rw [hsent] at hframe
    cases i with
    | zero => exact .inl ⟨rfl, (some.inj hframe).symm⟩
    | succ j =>
      unfold sentFrames at hframe
      rw [List.getElem?_cons_succ, List.getElem?_mapIdx] at hframe
      obtain ⟨message, hmessage, rfl⟩ := map_eq_some_iff.mp hframe
      refine .inr ⟨j, message, rfl, rfl, ?_⟩
      rintro rfl
      rcases hhead with rfl | ⟨rest, rfl⟩
      · cases hmessage
      · exact (some.inj hmessage).symm

/-! ### Steps -/

theorem processHelloPhase1_hello (haccepts : own.Accepts peer) (hnow : now < peer.expiration)
    {state : AuthState} (hstate : state = .initial ∨ state = .helloSent) :
    processHelloPhase1 { own.ctx with state } peer.hello now =
      (own.keyedCtx peer .helloReceived 0 0, .ok ()) := by
  have hverify : AuthCert.verify (makeAuthCert peer.localNode peer.expiration)
      own.localNode.networkId peer.localNode.secretKey now = .ok () := by
    unfold AuthCert.verify makeAuthCert
    rw [if_neg (by simpa using hnow), if_pos (by rw [haccepts.network])]
  unfold processHelloPhase1
  rw [if_neg (by rcases hstate with rfl | rfl <;> simp)]
  simp only [hello, createHello, ctx, new, hverify]
  rfl

theorem validateHelloPhase2_hello (haccepts : own.Accepts peer) (state : AuthState)
    (sendSequence recvSequence : ℕ) :
    (own.keyedCtx peer state sendSequence recvSequence).validateHelloPhase2 peer.hello =
      .ok () := by
  obtain ⟨hpositive, hport⟩ := haccepts.port
  unfold validateHelloPhase2
  refine (if_neg (not_lt.mpr haccepts.range)).trans ?_
  refine (if_neg (not_lt.mpr haccepts.notBelow)).trans ?_
  refine (if_neg (not_lt.mpr haccepts.notAbove)).trans ?_
  refine (if_neg fun hself => haccepts.distinct (some.inj hself)).trans ?_
  refine (if_neg (not_not.mpr haccepts.network)).trans ?_
  exact if_neg (not_or.mpr ⟨not_le.mpr hpositive, not_lt.mpr hport⟩)

/-- The frame of the number that an end waits for is accepted. -/
theorem unwrap_frame (hopposite : peer.weCalledRemote = !own.weCalledRemote) {state : AuthState}
    {sendSequence j : ℕ} {wrapped returned : List StellarMessage} {message : StellarMessage}
    (hmessage : message.isError = false) :
    Session.unwrap ⟨own.keyedCtx peer state sendSequence (j % 2 ^ 64), wrapped, returned⟩
        (peer.frame own j message) =
      (⟨own.keyedCtx peer state sendSequence ((j + 1) % 2 ^ 64), wrapped, returned ++ [message]⟩,
        .ok message) := by
  unfold Session.unwrap unwrapMessage EndSetup.frame
  simp only [keyedCtx, keys_match hopposite, hmessage, ne_eq, not_true_eq_false, if_false,
    Bool.false_eq_true, isSome_some, and_self, if_true, Nat.mod_add_mod]

theorem unwrap_error {ctx : AuthContext} {wrapped returned : List StellarMessage}
    {frame : AuthenticatedMessage} (herror : frame.message.isError = true) :
    Session.unwrap ⟨ctx, wrapped, returned⟩ frame =
      (⟨ctx, wrapped, returned⟩, .ok frame.message) := by
  unfold Session.unwrap unwrapMessage
  cases ctx.recvMacKey with
  | none => simp [herror]
  | some key => simp [herror]

theorem wrap_frame (own peer : EndSetup) (state : AuthState) (recvSequence : ℕ)
    (wrapped returned : List StellarMessage) (message : StellarMessage) :
    Session.wrap ⟨own.keyedCtx peer state (wrapped.length % 2 ^ 64) recvSequence, wrapped, returned⟩
        message =
      (⟨own.keyedCtx peer state ((wrapped ++ [message]).length % 2 ^ 64) recvSequence,
        wrapped ++ [message], returned⟩, .ok (own.frame peer wrapped.length message)) := by
  unfold Session.wrap wrapMessage EndSetup.frame
  simp only [keyedCtx, List.length_append, List.length_singleton, Nat.mod_add_mod]

theorem sentFrames_append (own peer : EndSetup) (wrapped : List StellarMessage)
    (message : StellarMessage) :
    own.sentFrames peer wrapped ++ [own.frame peer wrapped.length message] =
      own.sentFrames peer (wrapped ++ [message]) := by
  unfold sentFrames
  rw [List.mapIdx_append]
  simp

theorem EndSound.recvHello (haccepts : own.Accepts peer) (hnow : now < peer.expiration)
    {state : AuthState} (hstate : state = .initial ∨ state = .helloSent)
    {sent : List AuthenticatedMessage}
    (hsent : sent = if own.weCalledRemote then [own.helloFrame] else []) :
    EndSound own peer
      (HandshakeEnd.recvHello
        { session := ⟨{ own.ctx with state }, [], []⟩
          stage := .recvHello
          peerHello := none
          sent
          received := 0 } peer.helloFrame now) := by
  have hprocess := processHelloPhase1_hello haccepts hnow hstate
  have hunwrap : Session.unwrap ⟨{ own.ctx with state }, [], []⟩ peer.helloFrame =
      (⟨{ own.ctx with state }, [], []⟩, .ok (.hello peer.hello)) := rfl
  unfold HandshakeEnd.recvHello
  simp only [hunwrap, hprocess]
  have hrole : (own.keyedCtx peer .helloReceived 0 0).weCalledRemote = own.weCalledRemote := rfl
  rw [hrole, validateHelloPhase2_hello haccepts]
  subst hsent
  cases hcalled : own.weCalledRemote with
  | true =>
    have hat : KeyedAt own.weCalledRemote .sendAuth .helloReceived [] 1 :=
      hcalled ▸ .callerSends
    exact .keyed hat []
  | false => exact .answers hcalled []

theorem EndSound.first (hother : EndSound peer own other) {frame : AuthenticatedMessage}
    (hframe : other.sent[0]? = some frame) : frame = peer.helloFrame := by
  rcases hother.sent hframe with ⟨_, hhello⟩ | ⟨j, _, hzero, _⟩
  · exact hhello
  · cases hzero

theorem EndSound.next (hother : EndSound peer own other) {received : ℕ} (hreceived : 1 ≤ received)
    {frame : AuthenticatedMessage} (hframe : other.sent[received]? = some frame) :
    ∃ message, frame = peer.frame own (received - 1) message ∧
      (received = 1 → message = .auth 200) := by
  rcases hother.sent hframe with ⟨rfl, _⟩ | ⟨j, message, rfl, hsame, hauth⟩
  · cases hreceived
  · exact ⟨message, hsame, fun hone => hauth (by omega)⟩

theorem EndSound.recvAuth (haccepts : own.Accepts peer) {state : AuthState}
    {wrapped : List StellarMessage} (hat : KeyedAt own.weCalledRemote .recvAuth state wrapped 1)
    (returned : List StellarMessage) :
    EndSound own peer
      (HandshakeEnd.recvAuth
        { session := ⟨own.keyedCtx peer state (wrapped.length % 2 ^ 64) ((1 - 1) % 2 ^ 64), wrapped,
            returned⟩
          stage := .recvAuth
          peerHello := some peer.hello
          sent := own.sentFrames peer wrapped
          received := 1 } (peer.frame own 0 (.auth 200))) := by
  have hunwrap := @unwrap_frame own peer haccepts.opposite state (wrapped.length % 2 ^ 64) 0 wrapped
    returned (.auth 200) rfl
  unfold HandshakeEnd.recvAuth
  simp only [Nat.sub_self, hunwrap, ne_eq, not_true_eq_false, if_false]
  generalize hrole : own.weCalledRemote = role at hat
  have hcalled (state : AuthState) (sendSequence recvSequence : ℕ) :
      (own.keyedCtx peer state sendSequence recvSequence).weCalledRemote = role := hrole
  cases hat with
  | callerWaits =>
    have hdone : KeyedAt own.weCalledRemote .authenticated .authenticated [.auth 200] 2 :=
      .done le_rfl
    have hkeyed : EndSound own peer _ := .keyed hdone (returned ++ [.auth 200])
    simpa [processAuth, hcalled, keyedCtx, ctx, new, hrole] using hkeyed
  | answererWaits =>
    have hsends : KeyedAt own.weCalledRemote .sendAuth .authenticated [] 2 :=
      hrole ▸ .answererSends
    have hkeyed : EndSound own peer _ := .keyed hsends (returned ++ [.auth 200])
    simpa [processAuth, hcalled, keyedCtx, ctx, new, hrole] using hkeyed

theorem EndSound.sendAuth {state : AuthState} {wrapped : List StellarMessage} {received : ℕ}
    (hat : KeyedAt own.weCalledRemote .sendAuth state wrapped received)
    (returned : List StellarMessage) :
    EndSound own peer
      (HandshakeEnd.sendAuth
        { session := ⟨own.keyedCtx peer state (wrapped.length % 2 ^ 64) ((received - 1) % 2 ^ 64),
            wrapped, returned⟩
          stage := .sendAuth
          peerHello := some peer.hello
          sent := own.sentFrames peer wrapped
          received }) := by
  unfold HandshakeEnd.sendAuth
  simp only [wrap_frame, sentFrames_append]
  generalize hrole : own.weCalledRemote = role at hat
  cases hat with
  | callerSends =>
    have hwaits : KeyedAt own.weCalledRemote .recvAuth .authSent [.auth 200] 1 :=
      hrole ▸ .callerWaits
    have hkeyed : EndSound own peer _ := .keyed hwaits returned
    simpa [authSent, keyedCtx, ctx, new, hrole]
      using hkeyed
  | answererSends =>
    have hdone : KeyedAt own.weCalledRemote .authenticated .authenticated [.auth 200] 2 :=
      .done le_rfl
    have hkeyed : EndSound own peer _ := .keyed hdone returned
    simpa [authSent, keyedCtx, ctx, new, hrole]
      using hkeyed

theorem EndSound.send {rest returned : List StellarMessage} {received : ℕ}
    (hreceived : 2 ≤ received) (message : StellarMessage) :
    EndSound own peer
      (HandshakeEnd.send
        { session := ⟨own.keyedCtx peer .authenticated
            ((.auth 200 :: rest : List StellarMessage).length % 2 ^ 64)
            ((received - 1) % 2 ^ 64), .auth 200 :: rest, returned⟩
          stage := .authenticated
          peerHello := some peer.hello
          sent := own.sentFrames peer (.auth 200 :: rest)
          received } message) := by
  unfold HandshakeEnd.send
  simp only [wrap_frame, sentFrames_append]
  exact .keyed (.done hreceived) returned

theorem EndSound.recv (haccepts : own.Accepts peer) {rest returned : List StellarMessage}
    {received : ℕ} (hreceived : 2 ≤ received) (message : StellarMessage) :
    EndSound own peer
      (HandshakeEnd.recv
        { session := ⟨own.keyedCtx peer .authenticated
            ((.auth 200 :: rest : List StellarMessage).length % 2 ^ 64)
            ((received - 1) % 2 ^ 64), .auth 200 :: rest, returned⟩
          stage := .authenticated
          peerHello := some peer.hello
          sent := own.sentFrames peer (.auth 200 :: rest)
          received } (peer.frame own (received - 1) message)) := by
  unfold HandshakeEnd.recv
  cases herror : message.isError with
  | true =>
    have hframe : (peer.frame own (received - 1) message).message.isError = true := herror
    have hsame : (peer.frame own (received - 1) message).message = message := rfl
    simp only [unwrap_error hframe, hsame, herror, if_true]
    exact .stopped rest returned _ (received + 1)
  | false =>
    have hkeyed : EndSound own peer _ :=
      .keyed (KeyedAt.done (Nat.le_succ_of_le hreceived) :
        KeyedAt own.weCalledRemote .authenticated .authenticated (.auth 200 :: rest)
          (received + 1)) (returned ++ [message])
    have hnext : received - 1 + 1 = received := Nat.sub_add_cancel (Nat.le_of_succ_le hreceived)
    rw [unwrap_frame haccepts.opposite herror, hnext]
    simpa [herror] using hkeyed

/-- One step of an end, beside a peer that has not rejected anything either. -/
theorem EndSound.advance (hself : EndSound own peer self) (hother : EndSound peer own other)
    (haccepts : own.Accepts peer) {outgoing : Option StellarMessage}
    (hnow : self.stage = .recvHello → now < peer.expiration)
    (hadvance : self.advance other now outgoing = some self') : EndSound own peer self' := by
  cases hself with
  | start =>
    cases hrole : own.weCalledRemote with
    | true =>
      simp only [HandshakeEnd.advance, EndSetup.start, hrole, if_true] at hadvance
      obtain rfl := some.inj hadvance
      have hcalled : EndSound own peer _ := .called hrole
      simpa [HandshakeEnd.sendHello, EndSetup.start, Session.new, new,
        helloSent, ctx, helloFrame, hello, hrole]
        using hcalled
    | false =>
      simp only [HandshakeEnd.advance, EndSetup.start, hrole] at hadvance
      obtain ⟨frame, hframe, rfl⟩ := map_eq_some_iff.mp hadvance
      obtain rfl := hother.first hframe
      have hin : now < peer.expiration := hnow (by simp [EndSetup.start, hrole])
      have hrecv := @EndSound.recvHello own peer now haccepts hin .initial (.inl rfl) []
        (by simp [hrole])
      simpa [EndSetup.start, Session.new, ctx, new, hrole] using hrecv
  | called hrole =>
    obtain ⟨frame, hframe, rfl⟩ := map_eq_some_iff.mp hadvance
    obtain rfl := hother.first hframe
    exact .recvHello haccepts (hnow rfl) (.inr rfl) (by simp [hrole])
  | answers hrole returned =>
    obtain rfl := some.inj hadvance
    have hwaits : KeyedAt own.weCalledRemote .recvAuth .helloReceived [] 1 :=
      hrole ▸ .answererWaits
    have hkeyed : EndSound own peer _ := .keyed hwaits returned
    have hhello : helloSent (own.keyedCtx peer .helloReceived 0 0) =
        own.keyedCtx peer .helloReceived 0 0 := rfl
    have hcalled : (own.keyedCtx peer .helloReceived 0 0).weCalledRemote = false := hrole
    unfold HandshakeEnd.sendHello
    simp only [hhello, hcalled, validateHelloPhase2_hello haccepts]
    exact hkeyed
  | @keyed stage state wrapped received hat returned =>
    generalize hrole : own.weCalledRemote = role at hat
    cases hat with
    | callerSends =>
      obtain rfl := some.inj hadvance
      exact .sendAuth (hrole ▸ .callerSends) returned
    | callerWaits =>
      obtain ⟨frame, hframe, rfl⟩ := map_eq_some_iff.mp hadvance
      obtain ⟨message, rfl, hauth⟩ := hother.next le_rfl hframe
      obtain rfl := hauth rfl
      exact .recvAuth haccepts (hrole ▸ .callerWaits) returned
    | answererWaits =>
      obtain ⟨frame, hframe, rfl⟩ := map_eq_some_iff.mp hadvance
      obtain ⟨message, rfl, hauth⟩ := hother.next le_rfl hframe
      obtain rfl := hauth rfl
      exact .recvAuth haccepts (hrole ▸ .answererWaits) returned
    | answererSends =>
      obtain rfl := some.inj hadvance
      exact .sendAuth (hrole ▸ .answererSends) returned
    | done hreceived =>
      cases outgoing with
      | some message =>
        obtain rfl := some.inj hadvance
        exact .send hreceived message
      | none =>
        obtain ⟨frame, hframe, rfl⟩ := map_eq_some_iff.mp hadvance
        obtain ⟨message, rfl, _⟩ := hother.next (Nat.le_of_succ_le hreceived) hframe
        exact .recv haccepts hreceived message
  | stopped rest returned recvSequence received => cases hadvance

/-! ### Runs -/

theorem HandshakePair.initiatorAccepts (pair : HandshakePair) :
    pair.initiator.Accepts pair.responder where
  opposite := by rw [pair.called, pair.answered]; rfl
  network := pair.network.symm
  distinct := pair.distinct.symm
  range := pair.responderRange
  notBelow := pair.responderFits
  notAbove := pair.initiatorFits
  port := pair.responderPort

theorem HandshakePair.responderAccepts (pair : HandshakePair) :
    pair.responder.Accepts pair.initiator where
  opposite := by rw [pair.called, pair.answered]; rfl
  __ := pair
  range := pair.initiatorRange
  notBelow := pair.initiatorFits
  notAbove := pair.responderFits
  port := pair.initiatorPort

variable {pair : HandshakePair} {initiator responder : HandshakeEnd}

theorem HandshakePair.Run.sound (hrun : pair.Run true initiator responder) :
    EndSound pair.initiator pair.responder initiator ∧
      EndSound pair.responder pair.initiator responder := by
  induction hrun with
  | start => exact ⟨.start, .start⟩
  | initiator hrun now outgoing hnow hadvance ih =>
    exact ⟨ih.1.advance ih.2 pair.initiatorAccepts (hnow rfl) hadvance, ih.2⟩
  | responder hrun now outgoing hnow hadvance ih =>
    exact ⟨ih.1, ih.2.advance ih.1 pair.responderAccepts (hnow rfl) hadvance⟩

/-- The end sent its HELLO and then, in order from 0 on, what it wrapped, AUTH first. -/
def HandshakeEnd.InOrder (self : HandshakeEnd) : Prop :=
  ∀ i frame, self.sent[i + 1]? = some frame →
    frame.sequence = i % 2 ^ 64 ∧ self.session.wrapped[i]? = some frame.message ∧
      (i = 0 → frame.message = .auth 200)

theorem EndSound.inOrder (hsound : EndSound own peer self) : self.InOrder := by
  intro i frame hframe
  have hlisted (wrapped : List StellarMessage)
      (hmem : (own.sentFrames peer wrapped)[i + 1]? = some frame) :
      frame.sequence = i % 2 ^ 64 ∧ wrapped[i]? = some frame.message := by
    unfold sentFrames at hmem
    rw [List.getElem?_cons_succ, List.getElem?_mapIdx] at hmem
    obtain ⟨message, hmessage, rfl⟩ := map_eq_some_iff.mp hmem
    exact ⟨rfl, hmessage⟩
  have hauth : i = 0 → frame.message = .auth 200 := by
    rintro rfl
    rcases hsound.sent hframe with ⟨hzero, _⟩ | ⟨j, message, hj, rfl, hfirst⟩
    · cases hzero
    · exact hfirst (by omega)
  cases hsound with
  | start => cases hframe
  | called => cases hframe
  | answers => cases hframe
  | keyed hat => exact ⟨(hlisted _ hframe).1, (hlisted _ hframe).2, hauth⟩
  | stopped rest => exact ⟨(hlisted _ hframe).1, (hlisted _ hframe).2, hauth⟩

theorem EndSound.sendMacKey (hsound : EndSound own peer self) :
    (self.session.ctx.sendMacKey = none ∧ self.session.ctx.recvMacKey = none) ∨
      (self.session.ctx.sendMacKey = some (own.keys peer).1 ∧
        self.session.ctx.recvMacKey = some (own.keys peer).2) := by
  cases hsound with
  | start => exact .inl ⟨rfl, rfl⟩
  | called => exact .inl ⟨rfl, rfl⟩
  | answers => exact .inr ⟨rfl, rfl⟩
  | keyed => exact .inr ⟨rfl, rfl⟩
  | stopped => exact .inr ⟨rfl, rfl⟩

theorem KeyedAt.not_rejected {role : Bool} {stage : HandshakeStage} {state : AuthState}
    {wrapped : List StellarMessage} {received : ℕ} (hat : KeyedAt role stage state wrapped received)
    (e : OverlayError) : stage ≠ .rejected e := by
  cases hat <;> exact nofun

theorem EndSound.not_rejected (hsound : EndSound own peer self) (e : OverlayError) :
    self.stage ≠ .rejected e := by
  cases hsound with
  | start =>
    unfold EndSetup.start
    dsimp only
    split <;> exact nofun
  | called => exact nofun
  | answers => exact nofun
  | keyed hat => exact hat.not_rejected e
  | stopped => exact nofun

end Henyey.Auth
