import Henyey.Scp.Ballot.Simulation

/-!
# Runs of one ballot protocol

A run is any sequence of operations on a fresh protocol. The driver may change
between operations, and only operations that return are part of a run.
-/

namespace Henyey.Scp

variable {N V H : Type} [DecidableEq N] [LinearOrder V] [OrderBot V] [DecidableEq H]

/-- What a slot does with its ballot protocol. -/
inductive BallotOp (N V H : Type) where
  | processEnvelope (envelope : ScpEnvelope N V H) (validation : ValidationLevel)
  | bump (value : V) (force : Bool)
  | bumpState (value : V) (counter : U32)
  | bumpTimeout (compositeCandidate : Option V)
  | abandonBallot (counter : U32)
  | setCompositeCandidate (value : Option V)
  | setFullyValidated (fullyValidated : Bool)
  | sendLatestEnvelope
  | takeNeedsStopNomination
  | takeNeedsClearSlotValidation

def setCompositeCandidate (value : Option V) (c : Ballot N V H) : Ballot N V H :=
  c.modify fun s => { s with compositeCandidate := value }

def setFullyValidated (fullyValidated : Bool) (c : Ballot N V H) : Ballot N V H :=
  c.modify fun s => { s with fullyValidated := fullyValidated }

def takeNeedsStopNomination (c : Ballot N V H) : Bool × Ballot N V H :=
  (c.state.needsStopNomination, c.modify fun s => { s with needsStopNomination := false })

def takeNeedsClearSlotValidation (c : Ballot N V H) : Bool × Ballot N V H :=
  (c.state.needsClearSlotValidation, c.modify fun s => { s with needsClearSlotValidation := false })

/-- Perform one operation; only the state it leads to matters here. -/
def execOp (ctx : SlotContext N V H) (fuel : Nat) (op : BallotOp N V H) (c : Ballot N V H) :
    Except Abort (Ballot N V H) :=
  match op with
  | .processEnvelope envelope validation =>
    (processEnvelope ctx fuel envelope validation c).map Prod.snd
  | .bump value force => (bump ctx fuel value force c).map Prod.snd
  | .bumpState value counter =>
    (bumpState ctx (emitWith ctx fuel) value counter c).map Prod.snd
  | .bumpTimeout compositeCandidate => (bumpTimeout ctx fuel compositeCandidate c).map Prod.snd
  | .abandonBallot counter => (abandonBallot ctx (emitWith ctx fuel) counter c).map Prod.snd
  | .setCompositeCandidate value => .ok (setCompositeCandidate value c)
  | .setFullyValidated fullyValidated => .ok (setFullyValidated fullyValidated c)
  | .sendLatestEnvelope => .ok (sendLatestEnvelope c)
  | .takeNeedsStopNomination => .ok (takeNeedsStopNomination c).2
  | .takeNeedsClearSlotValidation => .ok (takeNeedsClearSlotValidation c).2

/-- What an operation lets in from outside. -/
def BallotOp.brings : BallotOp N V H → Arrival N V H → Prop
  | .processEnvelope envelope _, .statement arrived => arrived = envelope
  | .bumpState _ counter, .bumpTo asked => asked = counter
  | _, _ => False

variable {ctx : SlotContext N V H} {fuel : Nat} {c c' : Ballot N V H}

section

variable (hordered : c.state.Ordered)
include hordered

/-- Receiving keeps the statement and advances on it. -/
theorem processEnvelope_steps {envelope : ScpEnvelope N V H} {validation : ValidationLevel}
    {arrives : Arrival N V H → Prop} (harrives : arrives (.statement envelope))
    {result : EnvelopeState × Ballot N V H}
    (hresult : processEnvelope ctx fuel envelope validation c = .ok result) :
    Steps ctx arrives c result.2 := by
  unfold processEnvelope at hresult
  split at hresult
  · obtain rfl := Except.ok.inj hresult
    exact .refl
  · split at hresult
    · obtain rfl := Except.ok.inj hresult
      exact .refl
    next hnewer =>
      rw [Bool.not_eq_false] at hnewer
      split at hresult
      · split at hresult
        · obtain rfl := Except.ok.inj hresult
          exact .single (.receive c envelope harrives hnewer)
        · obtain rfl := Except.ok.inj hresult
          exact .refl
      · set c₀ := (if validation.clearsFullyValidated = true then
          c.modify fun s => { s with fullyValidated := false } else c) with hc₀
        have hidle : Idle c c₀ :=
          Idle.ite ⟨rfl, rfl, rfl, rfl, [], rfl, by simp⟩ (Idle.refl c)
        have hnewer₀ : isNewerStatement c₀.state envelope.statement.nodeId envelope.statement =
            true := by
          unfold isNewerStatement at hnewer ⊢
          rwa [hidle.latestEnvelopes]
        have hstored : (c₀.modify (storeEnvelope envelope)).state.latestEnvelopes.statement?
            envelope.statement.nodeId = some envelope.statement := by
          simp [storeEnvelope]
        have hordered₀ : (c₀.modify (storeEnvelope envelope)).state.Ordered := by
          change c₀.state.toBallots.Ordered
          rw [hidle.toBallots]
          exact hordered
        have hadvance := advanceSlot_advances ctx fuel hordered₀ hstored hresult
        exact .head (.idle hidle) (.head (.receive c₀ envelope harrives hnewer₀) hadvance.steps)

theorem bumpTimeout_steps {compositeCandidate : Option V} {result : Bool × Ballot N V H}
    (hresult : bumpTimeout ctx fuel compositeCandidate c = .ok result) :
    InnerSteps ctx c result.2 := by
  unfold bumpTimeout at hresult
  set c₀ := c.modify fun s =>
    { s with
      timerExpCount := U32.saturatingSucc s.timerExpCount
      compositeCandidate := compositeCandidate } with hc₀
  have hidle : Idle c c₀ := ⟨rfl, rfl, rfl, rfl, [], rfl, by simp⟩
  have hordered₀ : c₀.state.Ordered := hordered
  exact .head (.idle hidle) (abandonBallot_steps (emitWith_emits ctx fuel) hordered₀ hresult)

theorem execOp_steps {op : BallotOp N V H}
    (hresult : execOp ctx fuel op c = .ok c') : Steps ctx op.brings c c' := by
  have hemit := emitWith_emits ctx fuel
  cases op with
  | processEnvelope envelope validation =>
    obtain ⟨state, hok⟩ := map_snd_ok_iff.mp hresult
    have harrives : (BallotOp.processEnvelope envelope validation).brings (.statement envelope) :=
      rfl
    have hsteps := processEnvelope_steps hordered harrives hok
    exact hsteps
  | bump value force =>
    obtain ⟨bumped, hok⟩ := map_snd_ok_iff.mp hresult
    unfold bump at hok
    split at hok
    · obtain ⟨-, rfl⟩ := Prod.mk.inj (Except.ok.inj hok)
      exact .refl
    · exact bumpState_steps hemit hordered (fun hnone => .inl (by simp [hnone])) hok
  | bumpState value counter =>
    obtain ⟨bumped, hok⟩ := map_snd_ok_iff.mp hresult
    have harrives : (BallotOp.bumpState value counter : BallotOp N V H).brings (.bumpTo counter) :=
      rfl
    have hsteps := bumpState_steps hemit hordered (fun _ => .inr harrives) hok
    exact hsteps
  | bumpTimeout compositeCandidate =>
    obtain ⟨bumped, hok⟩ := map_snd_ok_iff.mp hresult
    have hsteps := bumpTimeout_steps hordered hok
    exact hsteps.steps
  | abandonBallot counter =>
    obtain ⟨bumped, hok⟩ := map_snd_ok_iff.mp hresult
    have hsteps := abandonBallot_steps hemit hordered hok
    exact hsteps.steps
  | setCompositeCandidate value =>
    obtain rfl := Except.ok.inj hresult
    exact .single (.idle ⟨rfl, rfl, rfl, rfl, [], rfl, by simp⟩)
  | setFullyValidated fullyValidated =>
    obtain rfl := Except.ok.inj hresult
    exact .single (.idle ⟨rfl, rfl, rfl, rfl, [], rfl, by simp⟩)
  | sendLatestEnvelope =>
    obtain rfl := Except.ok.inj hresult
    exact .single (.send c)
  | takeNeedsStopNomination =>
    obtain rfl := Except.ok.inj hresult
    exact .single (.idle ⟨rfl, rfl, rfl, rfl, [], rfl, by simp⟩)
  | takeNeedsClearSlotValidation =>
    obtain rfl := Except.ok.inj hresult
    exact .single (.idle ⟨rfl, rfl, rfl, rfl, [], rfl, by simp⟩)

end

/-! ### Runs -/

/-- A protocol that has not started. -/
def Ballot.new : Ballot N V H := ⟨BallotProtocol.new, []⟩

/-- Which operations may be performed in a state, under a driver. -/
abbrev Admits (N V H : Type) : Type :=
  Ballot N V H → SCPDriver N V H → BallotOp N V H → Prop

/-- The states that allowed operations reach from a fresh protocol, the driver
being free to change in between. -/
inductive BallotRun (ctx : SlotContext N V H) (allowed : Admits N V H) : Ballot N V H → Prop where
  | new : BallotRun ctx allowed Ballot.new
  | op {c c' : Ballot N V H} (hrun : BallotRun ctx allowed c) (driver : SCPDriver N V H)
      (op : BallotOp N V H) (hallowed : allowed c driver op) (fuel : Nat)
      (hop : execOp { ctx with driver := driver } fuel op c = .ok c') : BallotRun ctx allowed c'

variable {allowed : Admits N V H}

theorem BallotRun.ordered (hrun : BallotRun ctx allowed c) : c.state.Ordered := by
  induction hrun with
  | new => exact Ballots.ordered_new
  | op hrun driver op hallowed fuel hop ih => exact Steps.ordered ih (execOp_steps ih hop)

/-- What holds of a fresh protocol and is kept by every small step under the
arrivals of an operation that was allowed where it started holds in every run. -/
theorem BallotRun.invariant (invariant : Ballot N V H → Prop) (hnew : invariant Ballot.new)
    (hstep : ∀ (driver : SCPDriver N V H) (op : BallotOp N V H) (start : Ballot N V H),
      start.state.Ordered → allowed start driver op → ∀ c c' : Ballot N V H, c.state.Ordered →
        Steps { ctx with driver := driver } op.brings start c →
        Step { ctx with driver := driver } op.brings c c' → invariant c → invariant c')
    (hrun : BallotRun ctx allowed c) : invariant c := by
  induction hrun with
  | new => exact hnew
  | op hrun driver op hallowed fuel hop ih =>
    have hsteps := execOp_steps hrun.ordered hop
    clear hop
    induction hsteps with
    | refl => exact ih
    | tail hsteps hlast ih' =>
      exact hstep driver op _ hrun.ordered hallowed _ _ (Steps.ordered hrun.ordered hsteps)
        hsteps hlast ih'

end Henyey.Scp
