import Henyey.Scp.Ballot.Climbing
import Henyey.Scp.Ballot.Consistency

/-!
# The next counter

Three calls ask for the ballot after the current one. The counter is computed by an
addition that is not checked: a build with overflow checks stops at the last counter,
the other wraps around to zero. The current ballot itself never goes down in such a
call.
-/

namespace Henyey.Scp

variable {N V H : Type}

/-- The counter after the current ballot's, under overflow checks. -/
def nextCounter (current : Option (ScpBallot V)) : Option U32 :=
  match current with
  | none => some 1
  | some b => if b.counter.val + 1 < 2 ^ 32 then some (b.counter + 1) else none

def Ballots.AtLastCounter (s : Ballots V) : Prop :=
  ∃ b ∈ s.currentBallot, b.counter.val = 2 ^ 32 - 1

theorem nextCounter_eq_none_iff {s : Ballots V} :
    nextCounter s.currentBallot = none ↔ s.AtLastCounter := by
  unfold nextCounter Ballots.AtLastCounter
  cases s.currentBallot with
  | none => simp
  | some b =>
    have hlt := b.counter.isLt
    simp only [Option.mem_some_iff, exists_eq_left']
    split
    · exact ⟨nofun, fun h => by omega⟩
    · exact ⟨fun _ => by omega, fun _ => rfl⟩

/-- Where the addition does not overflow, both builds compute the same. -/
theorem nextCounter_eq_some {s : Ballots V} (hfits : ¬s.AtLastCounter) :
    nextCounter s.currentBallot = some ((s.currentBallot.map fun b => b.counter + 1).getD 1) := by
  cases hnext : nextCounter s.currentBallot with
  | none => exact absurd (nextCounter_eq_none_iff.mp hnext) hfits
  | some counter =>
    unfold nextCounter at hnext
    cases hcurrent : s.currentBallot with
    | none =>
      rw [hcurrent] at hnext
      exact hnext.symm
    | some b =>
      rw [hcurrent] at hnext
      simp only at hnext
      split at hnext
      · exact hnext.symm
      · cases hnext

section Rising

variable [LinearOrder V]

/-- The move that a bump makes by itself, before anything is emitted. -/
theorem bumpValue_rises {c : Ballot N V H} (value : V) (counter : U32)
    (hordered : c.state.Ordered) : c.state.Rises (bumpValue value counter c).2.state.toBallots := by
  unfold bumpValue
  rcases updateCurrentValue_cases ⟨counter, c.state.valueOverride.getD value⟩ hordered with
    ⟨c₁, _, heq, hr | hr⟩ | ⟨_, hbelow, _, c₁, _, heq, hr⟩
  · rw [hr]
    exact Ballots.rises_of_eq (congrArg Ballots.currentBallot heq)
  · rw [hr]
    exact Ballots.rises_of_eq (congrArg Ballots.currentBallot heq)
  · rw [hr]
    refine Ballots.rises_of_below hbelow ?_
    change c₁.state.currentBallot = _
    rw [heq]
    exact (Ballots.bumped_frame _ _).1

end Rising

def BallotOp.takesNext : BallotOp N V H → Prop
  | .bump _ _ => True
  | .bumpTimeout _ => True
  | .abandonBallot counter => counter = 0
  | _ => False

/-- The call gets to computing the next counter from a current ballot. A bump that is
not forced keeps the ballot there is. -/
def BallotOp.computesNext : BallotOp N V H → Prop
  | .bump _ force => force = true
  | _ => True

variable [DecidableEq N] [LinearOrder V] [OrderBot V] [DecidableEq H]

/-- Bump, with overflow checks; `none` if the addition overflows. -/
def bumpChecked (ctx : SlotContext N V H) (fuel : Nat) (value : V) (force : Bool)
    (c : Ballot N V H) : Option (Except Abort (Bool × Ballot N V H)) :=
  if force = false ∧ c.state.currentBallot.isSome then some (.ok (false, c))
  else
    (nextCounter c.state.currentBallot).map fun counter =>
      bumpState ctx (emitWith ctx fuel) value counter c

/-- Give up the current ballot for the next one, with overflow checks. -/
def abandonChecked (ctx : SlotContext N V H) (fuel : Nat) (c : Ballot N V H) :
    Option (Except Abort (Bool × Ballot N V H)) :=
  let value :=
    (c.state.compositeCandidate.filter (fun v => v ≠ ⊥)).or
      (c.state.currentBallot.map ScpBallot.value)
  match value with
  | none => some (.ok (false, c))
  | some value =>
    (nextCounter c.state.currentBallot).map fun counter =>
      bumpState ctx (emitWith ctx fuel) value counter c

/-- Perform one operation in a build with overflow checks. -/
def execChecked (ctx : SlotContext N V H) (fuel : Nat) (op : BallotOp N V H) (c : Ballot N V H) :
    Option (Except Abort (Ballot N V H)) :=
  match op with
  | .bump value force => (bumpChecked ctx fuel value force c).map (·.map Prod.snd)
  | .bumpTimeout compositeCandidate =>
    (abandonChecked ctx fuel (c.modify fun s =>
      { s with
        timerExpCount := U32.saturatingSucc s.timerExpCount
        compositeCandidate := compositeCandidate })).map (·.map Prod.snd)
  | .abandonBallot counter =>
    if counter = 0 then (abandonChecked ctx fuel c).map (·.map Prod.snd)
    else some ((abandonBallot ctx (emitWith ctx fuel) counter c).map Prod.snd)
  | op => some (execOp ctx fuel op c)

variable {ctx : SlotContext N V H} {fuel : Nat} {c c' : Ballot N V H}

theorem bumpChecked_eq {value : V} {force : Bool}
    (hfits : ¬(force = true ∧ c.state.AtLastCounter)) :
    bumpChecked ctx fuel value force c = some (bump ctx fuel value force c) := by
  unfold bumpChecked bump
  split
  · rfl
  next hasks =>
    have hnext : ¬c.state.AtLastCounter := by
      rintro ⟨b, hb, hlast⟩
      rw [Option.mem_def] at hb
      refine hfits ⟨?_, b, hb, hlast⟩
      simpa [hb] using hasks
    rw [nextCounter_eq_some hnext]
    rfl

theorem abandonChecked_eq (hfits : ¬c.state.AtLastCounter) :
    abandonChecked ctx fuel c = some (abandonBallot ctx (emitWith ctx fuel) 0 c) := by
  unfold abandonChecked abandonBallot
  simp only [if_true, nextCounter_eq_some hfits]
  -- both look at the same value
  generalize (c.state.compositeCandidate.filter (fun v => decide (v ≠ ⊥))).or
    (c.state.currentBallot.map ScpBallot.value) = found
  cases found with
  | none => rfl
  | some value => rfl

theorem bumpChecked_eq_none {value : V} {force : Bool} (hforce : force = true)
    (hlast : c.state.AtLastCounter) : bumpChecked ctx fuel value force c = none := by
  unfold bumpChecked
  rw [if_neg (fun h => by simp [hforce] at h), nextCounter_eq_none_iff.mpr hlast]
  rfl

theorem abandonChecked_eq_none (hlast : c.state.AtLastCounter) :
    abandonChecked ctx fuel c = none := by
  have hnext := nextCounter_eq_none_iff.mpr hlast
  obtain ⟨b, hb, -⟩ := hlast
  rw [Option.mem_def] at hb
  unfold abandonChecked
  rw [hnext, hb]
  cases c.state.compositeCandidate.filter fun v => v ≠ ⊥ <;> rfl

/-- A build with overflow checks does the same as the other, exactly if the call does
not come to the last counter. -/
theorem execChecked_eq_iff {op : BallotOp N V H} (htakes : op.takesNext) :
    execChecked ctx fuel op c = some (execOp ctx fuel op c) ↔
      ¬(op.computesNext ∧ c.state.AtLastCounter) := by
  constructor
  · rintro hsame ⟨hcomputes, hlast⟩
    have hnone : execChecked ctx fuel op c = none := by
      cases op with
      | bump value force => exact Option.map_eq_none_iff.mpr (bumpChecked_eq_none hcomputes hlast)
      | bumpTimeout compositeCandidate =>
        exact Option.map_eq_none_iff.mpr (abandonChecked_eq_none hlast)
      | abandonBallot counter =>
        obtain rfl : counter = 0 := htakes
        exact Option.map_eq_none_iff.mpr (abandonChecked_eq_none hlast)
      | _ => exact htakes.elim
    rw [hnone] at hsame
    cases hsame
  · intro hfits
    cases op with
    | bump value force => exact Option.map_eq_some_iff.mpr ⟨_, bumpChecked_eq hfits, rfl⟩
    | bumpTimeout compositeCandidate =>
      exact Option.map_eq_some_iff.mpr
        ⟨_, abandonChecked_eq fun h => hfits ⟨trivial, h⟩, rfl⟩
    | abandonBallot counter =>
      obtain rfl : counter = 0 := htakes
      exact Option.map_eq_some_iff.mpr
        ⟨_, abandonChecked_eq fun h => hfits ⟨trivial, h⟩, rfl⟩
    | _ => exact htakes.elim

/-! ### The current ballot does not go down -/

/-- A call for the next ballot climbs, with all that follows from it. -/
theorem execOp_climbs {op : BallotOp N V H} (htakes : op.takesNext) (hordered : c.state.Ordered)
    (hunaborted : c.state.Unaborted) (hop : execOp ctx fuel op c = .ok c') :
    c.state.Climbs c'.state.toBallots := by
  have hemit : EmitClimbs (emitWith ctx fuel) := emitWith_climbs ctx fuel
  have habandon {c₀ : Ballot N V H} {result : Bool × Ballot N V H}
      (hok : abandonBallot ctx (emitWith ctx fuel) 0 c₀ = .ok result)
      (hsame : c₀.state.toBallots = c.state.toBallots) : c.state.Climbs result.2.state.toBallots := by
    obtain rfl | ⟨value, next, hnext, hbumped⟩ := abandonBallot_cases hok
    · exact hsame ▸ .refl _
    · rw [← hsame] at hordered hunaborted ⊢
      exact bumpState_climbs hemit hordered hunaborted hnext hbumped
  cases op with
  | bump value force =>
    obtain ⟨bumped, hok⟩ := map_snd_ok_iff.mp hop
    unfold bump at hok
    split at hok
    · obtain ⟨-, rfl⟩ := Prod.mk.inj (Except.ok.inj hok)
      exact .refl _
    · exact bumpState_climbs hemit hordered hunaborted (fun hnone => by simp [hnone]) hok
  | bumpTimeout compositeCandidate =>
    obtain ⟨bumped, hok⟩ := map_snd_ok_iff.mp hop
    unfold bumpTimeout at hok
    exact habandon hok rfl
  | abandonBallot counter =>
    obtain rfl : counter = 0 := htakes
    obtain ⟨bumped, hok⟩ := map_snd_ok_iff.mp hop
    exact habandon hok rfl
  | _ => exact htakes.elim

/-- In a state of any run, a call for the next ballot computes its counter without an
overflow, and moves up, exactly if it does not start from the last counter. However
it is called, the move is upwards, and so is all that follows from it. -/
theorem nextCounter_fits_iff (hrun : BallotRun ctx (saneOp ctx) c) (driver : SCPDriver N V H)
    (fuel : Nat) (op : BallotOp N V H) (htakes : op.takesNext) :
    (execChecked { ctx with driver := driver } fuel op c =
          some (execOp { ctx with driver := driver } fuel op c) ∧
        (∀ value counter, c.state.Rises (bumpValue value counter c).2.state.toBallots) ∧
        ∀ c', execOp { ctx with driver := driver } fuel op c = .ok c' →
          c.state.Rises c'.state.toBallots) ↔
      ¬(op.computesNext ∧ c.state.AtLastCounter) := by
  rw [execChecked_eq_iff htakes]
  refine ⟨And.left, fun hfits => ⟨hfits, fun value counter => ?_, fun c' hop => ?_⟩⟩
  · exact bumpValue_rises value counter hrun.ordered
  · exact (execOp_climbs htakes hrun.ordered hrun.unaborted hop).rises

/-! ### A node of three that hears of an externalized value -/

/-- The node needs both of its peers. -/
def threeNode : SlotContext ℕ ℕ Unit := .permissive 0 (simpleQuorumSet 3 [0, 1, 2])

/-- One peer has externalized, which blocks any other value. -/
def blockingExternalized : ScpEnvelope ℕ ℕ Unit where
  statement :=
    { nodeId := 1
      slotIndex := 1
      pledges := .externalize { commit := ⟨1, 7⟩, nH := 1, commitQuorumSetHash := () } }
  signature := []

def afterExternalized : Except Abort (Ballot ℕ ℕ Unit) :=
  execOp threeNode 8 (.processEnvelope blockingExternalized .fullyValidated) Ballot.new

/-- The node follows to the last counter and stays in CONFIRM. -/
theorem afterExternalized_returns : ∃ c, afterExternalized = .ok c ∧
    c.state.phase = .confirm ∧ c.state.currentBallot = some ⟨4294967295, 7⟩ := by
  have hcheck : (match afterExternalized with
      | .ok c => decide (c.state.phase = .confirm ∧ c.state.currentBallot = some ⟨4294967295, 7⟩)
      | .error _ => false) = true := by decide +kernel
  split at hcheck
  next c hok => exact ⟨c, hok, of_decide_eq_true hcheck⟩
  · cases hcheck

theorem blockingExternalized_sane :
    isStatementSane threeNode blockingExternalized.statement = true := by
  decide +kernel

theorem afterExternalized_run {c : Ballot ℕ ℕ Unit} (hok : afterExternalized = .ok c) :
    BallotRun threeNode (saneOp threeNode) c :=
  .op .new (.permissive (simpleQuorumSet 3 [0, 1, 2]))
    (.processEnvelope blockingExternalized .fullyValidated) blockingExternalized_sane 8 hok

/-- The ballot timer of that node asks for a counter that there is not. -/
theorem nextCounter_overflows :
    ¬∀ c : Ballot ℕ ℕ Unit, BallotRun threeNode (saneOp threeNode) c →
      ∀ op : BallotOp ℕ ℕ Unit, op.takesNext →
        execChecked threeNode 8 op c = some (execOp threeNode 8 op c) := by
  intro hclaim
  obtain ⟨c, hok, -, hcurrent⟩ := afterExternalized_returns
  have htakes : (.bumpTimeout none : BallotOp ℕ ℕ Unit).takesNext := trivial
  have hfits := hclaim c (afterExternalized_run hok) (.bumpTimeout none) htakes
  exact (execChecked_eq_iff htakes).mp hfits ⟨trivial, ⟨4294967295, 7⟩, hcurrent, rfl⟩

/-- Before, the timer would have done what it should. -/
theorem nextCounter_fits_new :
    execChecked threeNode 8 (.bump 7 true) Ballot.new =
      some (execOp threeNode 8 (.bump 7 true) Ballot.new) := by
  have hfits : ¬(BallotOp.computesNext (.bump 7 true : BallotOp ℕ ℕ Unit) ∧
      (Ballot.new : Ballot ℕ ℕ Unit).state.AtLastCounter) := by
    rintro ⟨-, b, hb, -⟩
    cases hb
  have hrun : BallotRun threeNode (saneOp threeNode) Ballot.new := .new
  exact ((nextCounter_fits_iff hrun threeNode.driver 8 (.bump 7 true) trivial).mpr hfits).1

end Henyey.Scp
