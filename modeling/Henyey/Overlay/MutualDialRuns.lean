import Mathlib.Data.List.Induction
import Henyey.Overlay.MutualDial

/-!
# Where a mutual dial ends

Whatever the order of the steps, the two nodes settle on one connection, with two
exceptions: both dialers can be turned away because the other node's HELLO reserved first
on either side, and an end whose flow control message cannot be sent leaves its
reservation behind.
-/

namespace Henyey.Overlay.MutualDial

open Foundation Node List State

/-! ### What the end of a run should be -/

/-- The node runs this connection and knows it as the registered one. A connection that it
replaced may still run beside it. -/
structure Node.Settled (n : Node) (d : ConnectionDirection) : Prop where
  registered : n.peer = some (d, (n.peerEnd d).generation)
  runs : (n.peerEnd d).stage = .running
  opened : (n.peerEnd d).closed = false
  unreserved : n.pendingPeerId = none
  addressFree : n.pendingAddress = false
  nonePending : n.outboundPending = 0 ∧ n.inboundPending = 0
  outboundCounted : n.outboundAuthenticated = if n.outbound.stage = .running then 1 else 0
  inboundCounted : n.inboundAuthenticated = if n.inbound.stage = .running then 1 else 0

instance (n : Node) (d : ConnectionDirection) : Decidable (n.Settled d) :=
  decidable_of_iff
    (n.peer = some (d, (n.peerEnd d).generation) ∧ (n.peerEnd d).stage = .running ∧
      (n.peerEnd d).closed = false ∧ n.pendingPeerId = none ∧ n.pendingAddress = false ∧
      (n.outboundPending = 0 ∧ n.inboundPending = 0) ∧
      n.outboundAuthenticated = (if n.outbound.stage = .running then 1 else 0) ∧
      n.inboundAuthenticated = if n.inbound.stage = .running then 1 else 0)
    ⟨fun ⟨h₁, h₂, h₃, h₄, h₅, h₆, h₇, h₈⟩ => ⟨h₁, h₂, h₃, h₄, h₅, h₆, h₇, h₈⟩,
      fun ⟨h₁, h₂, h₃, h₄, h₅, h₆, h₇, h₈⟩ => ⟨h₁, h₂, h₃, h₄, h₅, h₆, h₇, h₈⟩⟩

/-- Both nodes are left with the connection that `dialer` opened. -/
def State.SettledOn (s : State) (dialer : Side) : Prop :=
  (s.node dialer).Settled .outbound ∧ (s.node dialer.other).Settled .inbound

def State.Converged (s : State) : Prop :=
  s.SettledOn .a ∨ s.SettledOn .b

instance (s : State) (dialer : Side) : Decidable (s.SettledOn dialer) :=
  inferInstanceAs (Decidable (_ ∧ _))

instance (s : State) : Decidable s.Converged :=
  inferInstanceAs (Decidable (_ ∨ _))

/-- A task takes away only the reservation it holds and the entry it registered. An entry
is replaced only by the connection that the tiebreaker keeps. -/
def Node.TakesOwn (n n' : Node) (localIsHigher : Bool) (d : ConnectionDirection) : Prop :=
  (n'.pendingPeerId = n.pendingPeerId ∨ n.pendingPeerId = none ∨
    n.pendingPeerId = some d ∧ (n.peerEnd d).holdsPendingPeerId = true) ∧
  (n'.peer = n.peer ∨ n.peer = none ∨ n.peer = some (d, (n.peerEnd d).generation) ∨
    n'.peer ≠ none ∧ newWins localIsHigher d = true)

instance (n n' : Node) (localIsHigher : Bool) (d : ConnectionDirection) :
    Decidable (n.TakesOwn n' localIsHigher d) :=
  inferInstanceAs (Decidable (_ ∧ _))

/-- The step of a label from one state to another. -/
def State.TakesOwn (s t : State) (localIsHigher : Side → Bool) (label : Label) : Prop :=
  (s.node label.side).TakesOwn (t.node label.side) (localIsHigher label.side) label.direction

instance (s t : State) (localIsHigher : Side → Bool) (label : Label) :
    Decidable (s.TakesOwn t localIsHigher label) :=
  inferInstanceAs (Decidable (Node.TakesOwn _ _ _ _))

/-! ### What goes wrong -/

/-- A dialer that reads the answer to its HELLO finds no reservation, or the other dialer was
not turned away before. -/
def State.KeepsOne (s : State) (label : Label) : Prop :=
  label.direction = .outbound → (s.node label.side).outbound.stage = .recvHello →
    (s.node label.side.other).inbound.sent ≠ .nothing →
    (s.node label.side).pendingPeerId ≠ none →
    (s.node label.side.other).outbound.stage ≠ .turnedAway

/-- When the transport reports that a flow control message was not sent, the end holds no
reservation. -/
def State.StrandsNone (s : State) (label : Label) : Prop :=
  ((s.node label.side).peerEnd label.direction).stage = .sendMore → label.branch = .sendFailed →
    ((s.node label.side).peerEnd label.direction).holdsPendingPeerId = false

def State.Spares (s : State) (label : Label) : Prop :=
  s.KeepsOne label ∧ s.StrandsNone label

instance (s : State) (label : Label) : Decidable (s.Spares label) :=
  inferInstanceAs (Decidable ((_ → _ → _ → _ → _) ∧ (_ → _ → _)))

/-- An end that returned and still holds the reservation. -/
def PeerEnd.stranded (e : PeerEnd) : Bool :=
  decide (e.stage = .sendFailed) && e.holdsPendingPeerId

/-- A connection can still be settled on, and every reservation is held by a task that
releases it. -/
def State.spared (s : State) : Bool :=
  !(decide (s.a.outbound.stage = .turnedAway) && decide (s.b.outbound.stage = .turnedAway)) &&
    !(s.a.outbound.stranded || s.a.inbound.stranded ||
      s.b.outbound.stranded || s.b.inbound.stranded)

/-! ### What is explored -/

/-- What is checked of a state and of the steps from it. -/
def State.good (localIsHigher : Side → Bool) (s : State) : Bool :=
  (!(s.moves localIsHigher).isEmpty || decide s.Converged == s.spared) &&
    (s.moves localIsHigher).all fun move =>
      decide (s.TakesOwn move.2 localIsHigher move.1) &&
        (move.2.spared == (s.spared && decide (s.Spares move.1)))

/-! ### The exploration -/

instance : Forced Stage where
  forced
    | .sendHello, rest => rest .sendHello
    | .recvHello, rest => rest .recvHello
    | .sendAuth, rest => rest .sendAuth
    | .recvAuth, rest => rest .recvAuth
    | .sendMore, rest => rest .sendMore
    | .failing, rest => rest .failing
    | .accept, rest => rest .accept
    | .promoted, rest => rest .promoted
    | .duplicate, rest => rest .duplicate
    | .refused, rest => rest .refused
    | .registered, rest => rest .registered
    | .running, rest => rest .running
    | .leaving, rest => rest .leaving
    | .returned, rest => rest .returned
    | .turnedAway, rest => rest .turnedAway
    | .sendFailed, rest => rest .sendFailed
  forced_eq value _ := by cases value <;> rfl

instance : Forced Sent where
  forced
    | .nothing, rest => rest .nothing
    | .hello, rest => rest .hello
    | .auth, rest => rest .auth
  forced_eq value _ := by cases value <;> rfl

instance : Forced ConnectionDirection where
  forced
    | .outbound, rest => rest .outbound
    | .inbound, rest => rest .inbound
  forced_eq value _ := by cases value <;> rfl

instance : Forced PeerEnd where
  forced e rest :=
    match e with
    | ⟨stage, holdsPendingPeerId, generation, sent, closed⟩ =>
      forced stage fun stage => forced holdsPendingPeerId fun holdsPendingPeerId =>
      forced generation fun generation => forced sent fun sent => forced closed fun closed =>
        rest ⟨stage, holdsPendingPeerId, generation, sent, closed⟩
  forced_eq _ _ := by simp only [forced_eq]

instance : Forced Node where
  forced n rest :=
    match n with
    | ⟨outbound, inbound, pendingPeerId, pendingAddress, peer, nextPeerGeneration,
        outboundPending, outboundAuthenticated, inboundPending, inboundAuthenticated⟩ =>
        forced outbound fun outbound => forced inbound fun inbound =>
        forced pendingPeerId fun pendingPeerId => forced pendingAddress fun pendingAddress =>
        forced peer fun peer => forced nextPeerGeneration fun nextPeerGeneration =>
        forced outboundPending fun outboundPending =>
        forced outboundAuthenticated fun outboundAuthenticated =>
        forced inboundPending fun inboundPending =>
        forced inboundAuthenticated fun inboundAuthenticated =>
          rest ⟨outbound, inbound, pendingPeerId, pendingAddress, peer, nextPeerGeneration,
            outboundPending, outboundAuthenticated, inboundPending, inboundAuthenticated⟩
  forced_eq _ _ := by simp only [forced_eq]

instance : Forced State where
  forced s rest :=
    match s with
    | ⟨a, b⟩ => forced a fun a => forced b fun b => rest ⟨a, b⟩
  forced_eq s _ := by
    cases s with
    | mk a b => exact (forced_eq a _).trans (forced_eq b _)

/-- Most states differ in where their tasks stand. -/
def Node.key (n : Node) : ℕ :=
  let reserved := match n.pendingPeerId with
    | none => 0
    | some .outbound => 1
    | some .inbound => 2
  let registered := match n.peer with
    | none => 0
    | some (.outbound, generation) => 1 + 2 * generation
    | some (.inbound, generation) => 2 + 2 * generation
  n.outbound.stage.ctorIdx + 16 * (n.inbound.stage.ctorIdx + 16 * (reserved + 4 * registered))

def explorer (localIsHigher : Side → Bool) : Explorer State where
  next s := (s.moves localIsHigher).map Prod.snd
  key s := s.a.key + 65536 * s.b.key

/-- The tiebreaker knows nothing of the ids but which node has the higher one. -/
def higherAt (top side : Side) : Bool :=
  decide (side = top)

/-- One of the orders, computed. -/
theorem explored : (explorer (higherAt .a)).explore (good (higherAt .a)) 35 .start = true := by
  decide +kernel

/-! ### The other order -/

/-- The nodes change places. -/
def State.mirror (s : State) : State := ⟨s.b, s.a⟩

def Label.mirror (label : Label) : Label := { label with side := label.side.other }

theorem endMoves_mirror (s : State) (side : Side) (d : ConnectionDirection) :
    s.mirror.endMoves (higherAt .a) side.other d =
      (s.endMoves (higherAt .b) side d).map fun move => (move.1.mirror, move.2.mirror) := by
  cases side <;> unfold endMoves <;> rw [map_map] <;> rfl

variable {label : Label}

theorem mem_moves_mirror {s t : State} (hstep : (label, t) ∈ s.moves (higherAt .b)) :
    (label.mirror, t.mirror) ∈ s.mirror.moves (higherAt .a) := by
  have hend {side : Side} {d : ConnectionDirection}
      (hmem : (label, t) ∈ s.endMoves (higherAt .b) side d) :
      (label.mirror, t.mirror) ∈ s.mirror.endMoves (higherAt .a) side.other d := by
    rw [endMoves_mirror]
    exact mem_map_of_mem hmem
  unfold State.moves at hstep ⊢
  simp only [mem_append] at hstep ⊢
  rcases hstep with ((haOut | haIn) | hbOut) | hbIn
  · exact .inl (.inr (hend haOut))
  · exact .inr (hend haIn)
  · exact .inl (.inl (.inl (hend hbOut)))
  · exact .inl (.inl (.inr (hend hbIn)))

theorem isEmpty_moves_mirror (s : State) :
    (s.mirror.moves (higherAt .a)).isEmpty = (s.moves (higherAt .b)).isEmpty := by
  have hend (side : Side) (d : ConnectionDirection) :
      s.mirror.endMoves (higherAt .a) side.other d = [] ↔ s.endMoves (higherAt .b) side d = [] := by
    rw [endMoves_mirror, map_eq_nil_iff]
  have haOut := hend .a .outbound
  have haIn := hend .a .inbound
  have hbOut := hend .b .outbound
  have hbIn := hend .b .inbound
  unfold Side.other at haOut haIn hbOut hbIn
  dsimp only at haOut haIn hbOut hbIn
  rw [Bool.eq_iff_iff, List.isEmpty_iff, List.isEmpty_iff]
  unfold State.moves
  simp only [List.append_eq_nil_iff]
  rw [haOut, haIn, hbOut, hbIn]
  constructor
  · rintro ⟨⟨⟨hbOut, hbIn⟩, haOut⟩, haIn⟩
    exact ⟨⟨⟨haOut, haIn⟩, hbOut⟩, hbIn⟩
  · rintro ⟨⟨⟨haOut, haIn⟩, hbOut⟩, hbIn⟩
    exact ⟨⟨⟨hbOut, hbIn⟩, haOut⟩, haIn⟩

theorem spared_mirror (s : State) : s.mirror.spared = s.spared := by
  unfold spared mirror
  dsimp only
  ac_rfl

theorem spares_mirror (s : State) (label : Label) :
    s.mirror.Spares label.mirror ↔ s.Spares label := by
  rcases label with ⟨side, d, branch⟩
  cases side <;> rfl

/-- What is checked of a state holds of it when it holds with the nodes in each other's
places. -/
theorem good_of_mirror {s : State} (hgood : s.mirror.good (higherAt .a) = true) :
    s.good (higherAt .b) = true := by
  have hconverged : decide s.mirror.Converged = decide s.Converged :=
    decide_eq_decide.mpr or_comm
  unfold good at hgood ⊢
  rw [isEmpty_moves_mirror, hconverged, spared_mirror, Bool.and_eq_true] at hgood
  rw [Bool.and_eq_true]
  refine ⟨hgood.1, all_eq_true.mpr ?_⟩
  rintro ⟨label, t⟩ hstep
  have hmirror := all_eq_true.mp hgood.2 _ (mem_moves_mirror hstep)
  rw [Bool.and_eq_true, decide_eq_true_iff, beq_iff_eq, spared_mirror,
    decide_eq_decide.mpr (spares_mirror s label)] at hmirror
  rw [Bool.and_eq_true, decide_eq_true_iff, beq_iff_eq]
  refine ⟨?_, hmirror.2⟩
  rcases label with ⟨side, d, branch⟩
  cases side <;> exact hmirror.1

theorem exists_top {ids : Side → ℕ} (hids : ids .a ≠ ids .b) :
    ∃ top, localIsHigher ids = higherAt top := by
  rcases Nat.lt_or_gt_of_ne hids with hlt | hgt
  · refine ⟨.b, ?_⟩
    funext side
    cases side <;> simp [localIsHigher, higherAt, Side.other, hlt, Nat.lt_asymm hlt]
  · refine ⟨.a, ?_⟩
    funext side
    cases side <;> simp [localIsHigher, higherAt, Side.other, hgt, Nat.lt_asymm hgt]

/-! ### From the states to the runs -/

variable {higher : Side → Bool} {s t : State} {steps : List (State × Label)}

theorem Run.walk (hrun : Run higher s steps t) : Walk (explorer higher).next steps.length s t := by
  induction hrun with
  | nil s => exact .nil s
  | cons hstep _ ih => exact .cons (mem_map_of_mem hstep) ih

theorem Run.mirror (hrun : Run (higherAt .b) s steps t) :
    Run (higherAt .a) s.mirror (steps.map fun step => (step.1.mirror, step.2.mirror))
      t.mirror := by
  generalize hhigher : higherAt .b = higher at hrun
  induction hrun with
  | nil s => exact .nil s.mirror
  | cons hstep _ ih =>
    subst hhigher
    exact .cons (mem_moves_mirror hstep) ih

/-- What the exploration says of a state that a run reaches. -/
theorem good_of_run {top : Side} (hrun : Run (higherAt top) .start steps s) :
    steps.length < 35 ∧ s.good (higherAt top) = true := by
  cases top with
  | a => exact Explorer.of_explore explored hrun.walk
  | b =>
    obtain ⟨hshort, hgood⟩ := Explorer.of_explore explored hrun.mirror.walk
    rw [length_map] at hshort
    exact ⟨hshort, good_of_mirror hgood⟩

section

variable (hgood : s.good higher = true)
include hgood

theorem takesOwn_of_good (hstep : (label, t) ∈ s.moves higher) : s.TakesOwn t higher label := by
  rw [good, Bool.and_eq_true] at hgood
  have hchecked := all_eq_true.mp hgood.2 _ hstep
  rw [Bool.and_eq_true] at hchecked
  exact of_decide_eq_true hchecked.1

/-- A step spoils a run just when it does not meet the condition. -/
theorem spared_of_good (hstep : (label, t) ∈ s.moves higher) :
    t.spared = true ↔ s.spared = true ∧ s.Spares label := by
  rw [good, Bool.and_eq_true] at hgood
  have hchecked := all_eq_true.mp hgood.2 _ hstep
  rw [Bool.and_eq_true, beq_iff_eq] at hchecked
  rw [hchecked.2, Bool.and_eq_true, decide_eq_true_iff]

theorem converged_iff_of_good (hdone : s.moves higher = []) : s.Converged ↔ s.spared = true := by
  rw [good, hdone, Bool.and_eq_true] at hgood
  have hsame : decide s.Converged = s.spared := eq_of_beq hgood.1
  rw [← hsame, decide_eq_true_iff]

end

/-- The last step of a run starts where the steps before it end. -/
theorem Run.of_append_singleton {last : State × Label}
    (hrun : Run higher s (steps ++ [last]) t) :
    Run higher s steps last.1 ∧ (last.2, t) ∈ last.1.moves higher := by
  induction steps generalizing s with
  | nil =>
    cases hrun with
    | cons hstep hrest =>
      cases hrest
      exact ⟨.nil _, hstep⟩
  | cons step steps ih =>
    cases hrun with
    | cons hstep hrest =>
      obtain ⟨hbefore, hlast⟩ := ih hrest
      exact ⟨.cons hstep hbefore, hlast⟩

/-- The end of a run is spared just when every step of it met the condition. -/
theorem spared_iff {top : Side} (hrun : Run (higherAt top) .start steps s) :
    s.spared = true ↔ ∀ step ∈ steps, step.1.Spares step.2 := by
  induction steps using reverseRecOn generalizing s with
  | nil =>
    cases hrun
    have hstart : start.spared = true := by decide
    simp [hstart]
  | append_singleton steps step ih =>
    obtain ⟨hbefore, hstep⟩ := hrun.of_append_singleton
    rw [spared_of_good (good_of_run hbefore).2 hstep, ih hbefore]
    simp [or_imp, forall_and]

/-! ### The result -/

/-- A mutual dial ends, and with no step left the nodes have settled on one connection just
when every step met the condition. On the way no task takes away what belongs to another. -/
theorem mutualDial_converges {ids : Side → ℕ} (hids : ids .a ≠ ids .b)
    {steps : List (State × Label)} {s : State} (hrun : Run (localIsHigher ids) .start steps s) :
    steps.length < 35 ∧
      (s.moves (localIsHigher ids) = [] → (s.Converged ↔ ∀ step ∈ steps, step.1.Spares step.2)) ∧
      ∀ label t, (label, t) ∈ s.moves (localIsHigher ids) →
        s.TakesOwn t (localIsHigher ids) label := by
  -- of the ids only their order is looked at, and both orders are explored
  obtain ⟨top, htop⟩ := exists_top hids
  rw [htop] at hrun ⊢
  obtain ⟨hshort, hgood⟩ := good_of_run hrun
  refine ⟨hshort, ?_, fun label t hstep => takesOwn_of_good hgood hstep⟩
  intro hdone
  rw [converged_iff_of_good hgood hdone]
  exact spared_iff hrun

/-! ### Runs to replay -/

/-- The steps with these labels and the state after them. -/
def State.follow (localIsHigher : Side → Bool) :
    List Label → State → Option (List (State × Label) × State)
  | [], s => some ([], s)
  | label :: labels, s => do
    let move ← (s.moves localIsHigher).find? fun move => decide (move.1 = label)
    let (steps, t) ← move.2.follow localIsHigher labels
    return ((s, label) :: steps, t)

theorem run_of_follow {labels : List Label} (hfollow : s.follow higher labels = some (steps, t)) :
    Run higher s steps t := by
  induction labels generalizing s steps with
  | nil =>
    cases hfollow
    exact .nil _
  | cons label labels ih =>
    obtain ⟨⟨label', next⟩, hfind, hfollow⟩ := Option.bind_eq_some_iff.mp hfollow
    obtain ⟨⟨later, u⟩, hlater, hfollow⟩ := Option.bind_eq_some_iff.mp hfollow
    cases hfollow
    have hlabel := find?_some hfind
    rw [decide_eq_true_iff] at hlabel
    subst hlabel
    exact .cons (mem_of_find?_eq_some hfind) (ih hlater)

/-- Both HELLOs arrive before either reply. -/
def crossingHellos : List Label :=
  [⟨.a, .outbound, .sent⟩, ⟨.b, .outbound, .sent⟩, ⟨.a, .inbound, .reserved⟩,
    ⟨.b, .inbound, .reserved⟩, ⟨.a, .inbound, .sent⟩, ⟨.b, .inbound, .sent⟩,
    ⟨.a, .outbound, .turnedAway⟩, ⟨.b, .outbound, .turnedAway⟩, ⟨.a, .inbound, .failed⟩,
    ⟨.a, .inbound, .dropped⟩, ⟨.b, .inbound, .failed⟩, ⟨.b, .inbound, .dropped⟩]

/-- The connection that `b` dialed is registered at both nodes, then the one that `a` dialed
replaces it at both. -/
def settledOnA : List Label :=
  [⟨.a, .outbound, .sent⟩, ⟨.b, .outbound, .sent⟩, ⟨.a, .inbound, .reserved⟩,
    ⟨.a, .inbound, .sent⟩, ⟨.b, .outbound, .reserved⟩, ⟨.b, .inbound, .bypassed⟩,
    ⟨.b, .inbound, .sent⟩, ⟨.b, .outbound, .sent⟩, ⟨.a, .inbound, .received⟩,
    ⟨.a, .inbound, .sent⟩, ⟨.a, .inbound, .sent⟩, ⟨.a, .inbound, .accepted⟩,
    ⟨.a, .inbound, .registered⟩, ⟨.a, .inbound, .released⟩, ⟨.a, .outbound, .reserved⟩,
    ⟨.a, .outbound, .sent⟩, ⟨.b, .inbound, .received⟩, ⟨.b, .inbound, .sent⟩,
    ⟨.a, .outbound, .received⟩, ⟨.a, .outbound, .sent⟩, ⟨.a, .outbound, .accepted⟩,
    ⟨.a, .outbound, .registered⟩, ⟨.a, .outbound, .released⟩, ⟨.b, .outbound, .received⟩,
    ⟨.b, .outbound, .sent⟩, ⟨.b, .outbound, .accepted⟩, ⟨.b, .outbound, .registered⟩,
    ⟨.b, .outbound, .released⟩, ⟨.b, .inbound, .sent⟩, ⟨.b, .inbound, .accepted⟩,
    ⟨.b, .inbound, .registered⟩, ⟨.b, .inbound, .released⟩]

/-- The connection that `a` dialed is registered at both nodes. Then `b` goes on with its own
one, which `a` refuses and closes before `b` has sent its flow control message. -/
def strandedAtB : List Label :=
  [⟨.a, .outbound, .sent⟩, ⟨.b, .outbound, .sent⟩, ⟨.b, .inbound, .reserved⟩,
    ⟨.b, .inbound, .sent⟩, ⟨.a, .outbound, .reserved⟩, ⟨.a, .inbound, .bypassed⟩,
    ⟨.a, .inbound, .sent⟩, ⟨.a, .outbound, .sent⟩, ⟨.b, .inbound, .received⟩,
    ⟨.b, .inbound, .sent⟩, ⟨.b, .inbound, .sent⟩, ⟨.b, .inbound, .accepted⟩,
    ⟨.b, .inbound, .registered⟩, ⟨.b, .inbound, .released⟩, ⟨.a, .outbound, .received⟩,
    ⟨.a, .outbound, .sent⟩, ⟨.a, .outbound, .accepted⟩, ⟨.a, .outbound, .registered⟩,
    ⟨.a, .outbound, .released⟩, ⟨.b, .outbound, .reserved⟩, ⟨.b, .outbound, .sent⟩,
    ⟨.a, .inbound, .received⟩, ⟨.a, .inbound, .sent⟩, ⟨.a, .inbound, .sent⟩,
    ⟨.a, .inbound, .accepted⟩, ⟨.a, .inbound, .refused⟩, ⟨.a, .inbound, .released⟩,
    ⟨.b, .outbound, .received⟩, ⟨.b, .outbound, .sendFailed⟩]

def twoIds : Side → ℕ
  | .a => 2
  | .b => 1

/-- The state that a replay ends in has no step left. -/
def endsIn (labels : List Label) (check : State → Bool) : Bool :=
  match start.follow (localIsHigher twoIds) labels with
  | some (_, s) => (s.moves (localIsHigher twoIds)).isEmpty && check s
  | none => false

theorem of_endsIn {labels : List Label} {check : State → Bool}
    (hends : endsIn labels check = true) :
    ∃ steps s, Run (localIsHigher twoIds) .start steps s ∧ s.moves (localIsHigher twoIds) = [] ∧
      check s = true := by
  rw [endsIn] at hends
  split at hends
  next steps s hfollow =>
    rw [Bool.and_eq_true, List.isEmpty_iff] at hends
    exact ⟨steps, s, run_of_follow hfollow, hends⟩
  · exact absurd hends Bool.false_ne_true

/-- One run settles on the connection that the tiebreaker keeps; the replaced one still runs. -/
theorem mutualDial_converges_settledOnA :
    ∃ steps s, Run (localIsHigher twoIds) .start steps s ∧ s.SettledOn .a ∧
      s.a.inbound.stage = .running ∧ s.b.outbound.stage = .running ∧
      ∀ step ∈ steps, step.1.Spares step.2 := by
  -- the node `a` has the higher id, so its outbound connection is kept
  have hends : endsIn settledOnA (fun s => decide (s.SettledOn .a ∧
      s.a.inbound.stage = .running ∧ s.b.outbound.stage = .running)) = true := by
    decide +kernel
  obtain ⟨steps, s, hrun, hdone, hcheck⟩ := of_endsIn hends
  obtain ⟨hsettled, hreplaced⟩ := of_decide_eq_true hcheck
  have hspares := ((mutualDial_converges (by decide) hrun).2.1 hdone).mp (.inl hsettled)
  exact ⟨steps, s, hrun, hsettled, hreplaced.1, hreplaced.2, hspares⟩

/-- Two runs that do not converge: in the first no connection is left, in the second the
node `b` keeps a reservation that nobody holds. -/
theorem mutualDial_diverges :
    (∃ steps s, Run (localIsHigher twoIds) .start steps s ∧
      s.moves (localIsHigher twoIds) = [] ∧ ¬ s.Converged ∧ s.a.peer = none ∧ s.b.peer = none) ∧
    ∃ steps s, Run (localIsHigher twoIds) .start steps s ∧
      s.moves (localIsHigher twoIds) = [] ∧ ¬ s.Converged ∧ s.b.pendingPeerId = some .outbound := by
  have hcrossing : endsIn crossingHellos
      (fun s => decide (¬ s.Converged ∧ s.a.peer = none ∧ s.b.peer = none)) = true := by
    decide +kernel
  have hstranded : endsIn strandedAtB
      (fun s => decide (¬ s.Converged ∧ s.b.pendingPeerId = some .outbound)) = true := by
    decide +kernel
  obtain ⟨steps, s, hrun, hdone, hlost⟩ := of_endsIn hcrossing
  obtain ⟨steps', t, hrun', hdone', hkept⟩ := of_endsIn hstranded
  exact ⟨⟨steps, s, hrun, hdone, of_decide_eq_true hlost⟩,
    ⟨steps', t, hrun', hdone', of_decide_eq_true hkept⟩⟩

end Henyey.Overlay.MutualDial
