import Henyey.Auth.Channel
import Henyey.Auth.Delays

/-!
# The authenticated channel

What honest ends return is what honest ends wrapped, and delays alone break nothing, as
long as certificates are in time and sequence numbers do not come round.
-/

namespace Henyey.Auth

open List

/-- Both ends of a connection are as they should be: neither has rejected a frame, the keys
match, and AUTH has number 0 and every later message the next. -/
structure InStep (initiator responder : HandshakeEnd) : Prop where
  initiatorAccepts : ∀ e, initiator.stage ≠ .rejected e
  responderAccepts : ∀ e, responder.stage ≠ .rejected e
  initiatorKeys : ∀ key ∈ initiator.session.ctx.sendMacKey,
    ∀ key' ∈ responder.session.ctx.recvMacKey, key = key'
  responderKeys : ∀ key ∈ responder.session.ctx.sendMacKey,
    ∀ key' ∈ initiator.session.ctx.recvMacKey, key = key'
  initiatorOrder : initiator.InOrder
  responderOrder : responder.InOrder

theorem keys_agree {own peer : EndSetup} {self other : HandshakeEnd}
    (hself : EndSound own peer self) (hother : EndSound peer own other)
    (hopposite : peer.weCalledRemote = !own.weCalledRemote) :
    ∀ key ∈ other.session.ctx.sendMacKey, ∀ key' ∈ self.session.ctx.recvMacKey, key = key' := by
  intro key hkey key' hkey'
  rcases hself.sendMacKey with ⟨_, hnone⟩ | ⟨_, hrecv⟩
  · rw [hnone] at hkey'
    cases hkey'
  · rcases hother.sendMacKey with ⟨hnone, _⟩ | ⟨hsend, _⟩
    · rw [hnone] at hkey
      cases hkey
    · obtain rfl := Option.some.inj (hsend.symm.trans hkey)
      obtain rfl := Option.some.inj (hrecv.symm.trans hkey')
      exact (keys_match hopposite).symm

/-- Whatever the adversary does, what a session returned from an honest peer is a beginning
of what that peer wrapped for it, until the numbers come round; rejected frames change
nothing that is received with; and if frames are only delayed, and every HELLO is processed
before its certificate expires, nothing is rejected. -/
theorem authenticated_channel (nodes : HonestNodes) :
    (∀ net nonce session key node, Network.Run nodes net → net.sessions nonce = some session →
      session.ctx.recvMacKey = some key → nodes.IsHonest node →
      session.ctx.peerId = some node.secretKey →
        session.returned = [] ∨ ∃ sender, net.sessions key.nonce₁ = some sender ∧
          sender.ctx.localNode = node ∧ sender.ctx.sendMacKey = some key ∧
          sender.ctx.weCalledRemote = !session.ctx.weCalledRemote ∧
          (sender.wrapped.length < 2 ^ 64 → session.returned <+: sender.wrapped)) ∧
    (∀ (ctx : AuthContext) frame e, (ctx.unwrapMessage frame).2 = .error e →
      (ctx.unwrapMessage frame).1.receiving = ctx.receiving) ∧
    (∀ (ctx : AuthContext) hello now e, (ctx.processHelloPhase1 hello now).2 = .error e →
      (ctx.processHelloPhase1 hello now).1.receiving = ctx.receiving) ∧
    ∀ (pair : HandshakePair) initiator responder, pair.Run true initiator responder →
      InStep initiator responder := by
  refine ⟨fun net nonce session key node hrun hfound hkey hnode hpeer => ?_,
    fun ctx frame e hrejected => ?_, fun ctx hello now e hrejected => ?_,
    fun pair initiator responder hrun => ?_⟩
  · exact returned_prefix hrun hfound hkey hnode hpeer
  · exact AuthContext.unwrapMessage_rejected hrejected
  · exact AuthContext.processHelloPhase1_rejected hrejected
  · obtain ⟨hinitiator, hresponder⟩ := hrun.sound
    exact
      { initiatorAccepts := hinitiator.not_rejected
        responderAccepts := hresponder.not_rejected
        initiatorKeys := keys_agree hresponder hinitiator pair.responderAccepts.opposite
        responderKeys := keys_agree hinitiator hresponder pair.initiatorAccepts.opposite
        initiatorOrder := hinitiator.inOrder
        responderOrder := hresponder.inOrder }

/-! ### Two nodes -/

def alice : LocalNode := ⟨1, 11, 0, 41, 38, 11625⟩

def bob : LocalNode := ⟨2, 12, 0, 41, 38, 11625⟩

def aliceCalls : EndSetup := ⟨alice, true, 100, 1⟩

def bobAnswers : EndSetup := ⟨bob, false, 100, 2⟩

def aliceAndBob : HonestNodes where
  IsHonest node := node = alice ∨ node = bob
  bySecretKey a b ha hb hsame := by
    rcases ha with rfl | rfl <;> rcases hb with rfl | rfl <;> first | rfl | cases hsame
  byX25519Secret a b ha hb hsame := by
    rcases ha with rfl | rfl <;> rcases hb with rfl | rfl <;> first | rfl | cases hsame

def aliceAndBobPair : HandshakePair where
  initiator := aliceCalls
  responder := bobAnswers
  called := rfl
  answered := rfl
  network := rfl
  distinct := by decide
  initiatorRange := by decide
  responderRange := by decide
  initiatorFits := by decide
  responderFits := by decide
  initiatorPort := by decide
  responderPort := by decide

theorem bobAcceptsAlice : bobAnswers.Accepts aliceCalls := aliceAndBobPair.responderAccepts

theorem canMake_hello (net : Network) {setup : EndSetup}
    (hsetup : aliceAndBob.IsHonest setup.localNode) : net.CanMake aliceAndBob setup.helloFrame where
  mac _ _ _ hmac := by cases hmac
  cert hello hmessage := by
    obtain rfl := StellarMessage.hello.inj hmessage
    intro node hnode hkey
    rw [aliceAndBob.bySecretKey node setup.localNode hnode hsetup hkey]

/-- Alice has wrapped one message n times, and Bob has returned all of them. -/
structure Talking (n : ℕ) (net : Network) : Prop where
  run : Network.Run aliceAndBob net
  alice : net.sessions 1 = some ⟨aliceCalls.keyedCtx bobAnswers .helloReceived (n % 2 ^ 64) 0,
    replicate n (.other 0), []⟩
  bob : net.sessions 2 = some ⟨bobAnswers.keyedCtx aliceCalls .helloReceived 0 (n % 2 ^ 64), [],
    replicate n (.other 0)⟩
  first : 0 < n → aliceCalls.frame bobAnswers 0 (.other 0) ∈ net.log

theorem talking_start : ∃ net, Talking 0 net := by
  have hstart : Network.Run aliceAndBob .new := .start
  have hconnected := (hstart.step (.connect alice true 100 1) (.inl rfl) rfl).step
    (.connect bob false 100 2) (.inr rfl) rfl
  have hgreeted := (hconnected.step (.recvHello 2 aliceCalls.helloFrame 0)
    (canMake_hello _ (.inl rfl)) rfl).step (.recvHello 1 bobAnswers.helloFrame 0)
    (canMake_hello _ (.inr rfl)) rfl
  exact ⟨_, hgreeted, rfl, rfl, nofun⟩

theorem canMake_sent {net : Network} {frame : AuthenticatedMessage} (hmem : frame ∈ net.log)
    (hother : ∀ hello, frame.message ≠ .hello hello) : net.CanMake aliceAndBob frame where
  mac _ _ _ _ := .inr ⟨frame, hmem, rfl⟩
  cert hello hmessage := absurd hmessage (hother hello)

theorem Talking.send {n : ℕ} {net : Network} (htalking : Talking n net) :
    net.step (.send 1 (.other 0)) = some
      { net.set 1 ⟨aliceCalls.keyedCtx bobAnswers .helloReceived ((n + 1) % 2 ^ 64) 0,
          replicate (n + 1) (.other 0), []⟩ with
        log := aliceCalls.frame bobAnswers n (.other 0) :: net.log } := by
  have hwrap := wrap_frame aliceCalls bobAnswers .helloReceived 0 (replicate n (.other 0)) []
    (.other 0)
  rw [← replicate_succ', length_replicate, length_replicate] at hwrap
  simp only [Network.step, htalking.alice, Option.map_some, hwrap]

/-- A frame under the number that Bob waits for, sent before, is returned. -/
theorem talking_recv {n i : ℕ} {net : Network}
    (hbob : net.sessions 2 = some ⟨bobAnswers.keyedCtx aliceCalls .helloReceived 0 (n % 2 ^ 64), [],
      replicate n (.other 0)⟩) (hnumber : i % 2 ^ 64 = n % 2 ^ 64) :
    net.step (.recv 2 (aliceCalls.frame bobAnswers i (.other 0))) = some
      (net.set 2 ⟨bobAnswers.keyedCtx aliceCalls .helloReceived 0 ((n + 1) % 2 ^ 64), [],
        replicate (n + 1) (.other 0)⟩) := by
  have hsame : aliceCalls.frame bobAnswers i (.other 0) =
      aliceCalls.frame bobAnswers n (.other 0) := by
    unfold EndSetup.frame
    rw [hnumber]
  have hunwrap := @unwrap_frame bobAnswers aliceCalls bobAcceptsAlice.opposite .helloReceived 0 n []
    (replicate n (.other 0)) (.other 0) rfl
  rw [← replicate_succ'] at hunwrap
  simp only [Network.step, hbob, Option.map_some, hsame, hunwrap]

theorem talking (n : ℕ) : ∃ net, Talking n net := by
  induction n with
  | zero => exact talking_start
  | succ n ih =>
    obtain ⟨net, htalking⟩ := ih
    have hsent := htalking.run.step (.send 1 (.other 0)) trivial htalking.send
    have hreceived := hsent.step (.recv 2 (aliceCalls.frame bobAnswers n (.other 0)))
      (canMake_sent mem_cons_self fun hello hmessage => by cases hmessage)
      (talking_recv htalking.bob rfl)
    refine ⟨_, hreceived, rfl, rfl, fun _ => ?_⟩
    cases n with
    | zero => exact mem_cons_self
    | succ n => exact mem_cons_of_mem _ (htalking.first (Nat.succ_pos n))

/-- Bob returns what Alice wrapped for him, and when Alice has sent AUTH the two ends are in
step. -/
theorem authenticated_channel_aliceAndBob :
    (∃ net session, Network.Run aliceAndBob net ∧ net.sessions 2 = some session ∧
      session.returned = [.other 0] ∧ ∃ sender, net.sessions 1 = some sender ∧
        sender.ctx.localNode = alice ∧ session.returned <+: sender.wrapped) ∧
    ∃ initiator responder, aliceAndBobPair.Run true initiator responder ∧
      initiator.stage = .recvAuth ∧ responder.stage = .recvAuth ∧
      InStep initiator responder := by
  obtain ⟨hfront, _, _, hdelays⟩ := authenticated_channel aliceAndBob
  refine ⟨?_, ?_⟩
  · obtain ⟨net, htalking⟩ := talking 1
    refine ⟨net, _, htalking.run, htalking.bob, rfl, ?_⟩
    rcases hfront net 2 _ _ alice htalking.run htalking.bob rfl (.inl rfl) rfl with
      hnil | ⟨sender, hsender, hnode, _, _, hreturned⟩
    · cases hnil
    · obtain rfl := Option.some.inj (htalking.alice.symm.trans hsender)
      exact ⟨_, htalking.alice, rfl, hreturned (by decide)⟩
  · have hhellos : aliceAndBobPair.Run true _ _ :=
      (((HandshakePair.Run.start.initiator 0 none (fun _ _ => by decide) rfl).responder 0 none
        (fun _ _ => by decide) rfl).responder 0 none (fun _ _ => by decide) rfl).initiator 0 none
        (fun _ _ => by decide) rfl
    have hrun := hhellos.initiator 0 none (fun _ _ => by decide) rfl
    exact ⟨_, _, hrun, rfl, rfl, hdelays _ _ _ hrun⟩

/-- Once the numbers have come round, a frame can be replayed; and a HELLO whose certificate
has expired on the way is rejected. -/
theorem authenticated_channel_limits :
    (∃ net session sender key, Network.Run aliceAndBob net ∧ net.sessions 2 = some session ∧
      session.ctx.recvMacKey = some key ∧ session.ctx.peerId = some alice.secretKey ∧
      net.sessions key.nonce₁ = some sender ∧ sender.ctx.sendMacKey = some key ∧
      ¬session.returned <+: sender.wrapped) ∧
    ∃ initiator responder, aliceAndBobPair.Run false initiator responder ∧
      responder.stage = .rejected (.authenticationFailed "auth cert expired") := by
  refine ⟨?_, ?_⟩
  · have hreplay (n : ℕ) (hround : 0 % 2 ^ 64 = n % 2 ^ 64) (hpos : 0 < n) :
        ∃ net session sender key, Network.Run aliceAndBob net ∧ net.sessions 2 = some session ∧
          session.ctx.recvMacKey = some key ∧ session.ctx.peerId = some alice.secretKey ∧
          net.sessions key.nonce₁ = some sender ∧ sender.ctx.sendMacKey = some key ∧
          ¬session.returned <+: sender.wrapped := by
      obtain ⟨net, htalking⟩ := talking n
      have hreceived := htalking.run.step (.recv 2 (aliceCalls.frame bobAnswers 0 (.other 0)))
        (canMake_sent (htalking.first hpos) fun hello hmessage => by cases hmessage)
        (talking_recv htalking.bob hround)
      refine ⟨_, _, _, _, hreceived, rfl, rfl, rfl, htalking.alice,
        congrArg some (keys_match bobAcceptsAlice.opposite).symm, fun hfront => ?_⟩
      have hlength := hfront.length_le
      simp only [length_replicate] at hlength
      omega
    exact hreplay (2 ^ 64) (by rw [Nat.zero_mod, Nat.mod_self]) (Nat.two_pow_pos 64)
  · have hrun : aliceAndBobPair.Run false _ _ :=
      (HandshakePair.Run.start.initiator 0 none (fun h => by cases h) rfl).responder 100 none
        (fun h => by cases h) rfl
    exact ⟨_, _, hrun, rfl⟩

end Henyey.Auth
