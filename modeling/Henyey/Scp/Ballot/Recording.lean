import Henyey.Scp.Ballot.Changes

/-!
# Recording the node's own statement

The recording of the current state ends in one of seven ways. In each of them
the decision state and the other nodes' statements stay as they were.
-/

namespace Henyey.Scp

variable {N V H : Type} [LinearOrder V]

/-! ### Validating the values of a statement -/

theorem minValidationLevel_eq_invalid {left right : ValidationLevel}
    (hinvalid : minValidationLevel left right = .invalid) : left = .invalid ∨ right = .invalid := by
  cases left <;> cases right <;> simp [minValidationLevel] at hinvalid ⊢

omit [LinearOrder V] in
/-- Validation only asks the driver; an invalid result comes from one invalid
answer. -/
theorem validateValues_trace {σ : Type} (driver : SCPDriver N V H) (level : ValidationLevel)
    (values : List V) (c : Traced σ N V H) :
    (validateValues driver level values c).2.state = c.state ∧
      ∃ new, (validateValues driver level values c).2.log = new ++ c.log ∧
        (∀ e ∈ new, ∃ value answer, e = .validateValue value false answer) ∧
        ((validateValues driver level values c).1 = .invalid → level ≠ .invalid →
          ∃ value, .validateValue value false .invalid ∈ new) := by
  induction values generalizing level c with
  | nil =>
    refine ⟨rfl, [], rfl, by simp, ?_⟩
    intro hinvalid hlevel
    exact absurd hinvalid hlevel
  | cons value rest ih =>
    set answer := driver.validateValue c.log value false with hanswer
    set c' := c.notify (.validateValue value false answer) with hc'
    simp only [validateValues, validateValue, ← hanswer, ← hc']
    split
    next hinvalid =>
      refine ⟨rfl, [.validateValue value false answer], rfl, ?_, ?_⟩
      · intro e he
        exact ⟨value, answer, by simpa using he⟩
      · intro _ hlevel
        rcases minValidationLevel_eq_invalid hinvalid with h | h
        · exact absurd h hlevel
        · exact ⟨value, by simp [h]⟩
    next hvalid =>
      obtain ⟨hstate, new, hlog, hnew, hexists⟩ := ih (minValidationLevel level answer) c'
      refine ⟨hstate, new ++ [.validateValue value false answer], ?_, ?_, ?_⟩
      · rw [hlog, List.append_assoc]
        rfl
      · intro e he
        rcases List.mem_append.mp he with he | he
        · exact hnew e he
        · exact ⟨value, answer, by simpa using he⟩
      · intro hinvalid _
        obtain ⟨value', hmem⟩ := hexists hinvalid hvalid
        exact ⟨value', List.mem_append_left _ hmem⟩

theorem validateStatementValues_trace {σ : Type} (driver : SCPDriver N V H)
    (statement : ScpStatement N V H) (c : Traced σ N V H) :
    (validateStatementValues driver statement c).2.state = c.state ∧
      ∃ new, (validateStatementValues driver statement c).2.log = new ++ c.log ∧
        (∀ e ∈ new, ∃ value answer, e = .validateValue value false answer) ∧
        ((validateStatementValues driver statement c).1 = .invalid →
          getStatementValues statement = [] ∨
            ∃ value, .validateValue value false .invalid ∈ new) := by
  unfold validateStatementValues
  split
  next hnil => exact ⟨rfl, [], rfl, by simp, fun _ => .inl hnil⟩
  · obtain ⟨hstate, new, hlog, hnew, hexists⟩ :=
      validateValues_trace driver .fullyValidated (getStatementValues statement) c
    exact ⟨hstate, new, hlog, hnew, fun hinvalid => .inr (hexists hinvalid (by simp))⟩

omit [LinearOrder V] in
@[simp]
theorem clearValidation_toBallots (validation : ValidationLevel) (s : BallotProtocol N V H) :
    (clearValidation validation s).toBallots = s.toBallots := by
  unfold clearValidation
  split <;> rfl

omit [LinearOrder V] in
@[simp]
theorem clearValidation_latestEnvelopes (validation : ValidationLevel) (s : BallotProtocol N V H) :
    (clearValidation validation s).latestEnvelopes = s.latestEnvelopes := by
  unfold clearValidation
  split <;> rfl

/-- The state and trace after the values of an own statement were validated. -/
def validated (ctx : SlotContext N V H) (statement : ScpStatement N V H) (c : Ballot N V H) :
    Ballot N V H :=
  (validateStatementValues ctx.driver statement (noteCheck c)).2

@[simp]
theorem validated_state (ctx : SlotContext N V H) (statement : ScpStatement N V H)
    (c : Ballot N V H) : (validated ctx statement c).state = c.state :=
  (validateStatementValues_trace ctx.driver statement (noteCheck c)).1

variable [DecidableEq N] [OrderBot V] [DecidableEq H]

/-! ### The seven ways of recording -/

/-- The statement stored for the local node. -/
def storedSelf (ctx : SlotContext N V H) (s : BallotProtocol N V H) : Option (ScpStatement N V H) :=
  s.latestEnvelopes.statement? ctx.localNodeId

inductive RecordCases (ctx : SlotContext N V H) (c : Ballot N V H) :
    Recorded N V H × Ballot N V H → Prop where
  | unavailable (hpledges : selfPledges ctx c.state.toBallots = none) :
      RecordCases ctx c (.rejected, noteCheck c)
  | notSane (pledges : ScpStatementPledges V H) (canEmit : Bool)
      (hpledges : selfPledges ctx c.state.toBallots = some (pledges, canEmit))
      (hsane : isStatementSane ctx (localStatement ctx pledges) = false) :
      RecordCases ctx c (.rejected, (noteCheck c).notify
        (.selfStatement (storedSelf ctx c.state) (localStatement ctx pledges) .notSane))
  | notNewer (pledges : ScpStatementPledges V H) (canEmit : Bool)
      (hpledges : selfPledges ctx c.state.toBallots = some (pledges, canEmit))
      (hnewer : isNewerStatement c.state ctx.localNodeId (localStatement ctx pledges) = false) :
      RecordCases ctx c (.rejected, (noteCheck c).notify
        (.selfStatement (storedSelf ctx c.state) (localStatement ctx pledges) .notNewer))
  | invalid (pledges : ScpStatementPledges V H) (canEmit : Bool)
      (hpledges : selfPledges ctx c.state.toBallots = some (pledges, canEmit))
      (hinvalid : (validateStatementValues ctx.driver (localStatement ctx pledges)
        (noteCheck c)).1 = .invalid) :
      RecordCases ctx c (.rejected, (validated ctx (localStatement ctx pledges) c).notify
        (.selfStatement (storedSelf ctx c.state) (localStatement ctx pledges) .invalid))
  | valueMismatch (pledges : ScpStatementPledges V H) (canEmit : Bool)
      (hpledges : selfPledges ctx c.state.toBallots = some (pledges, canEmit))
      (hphase : c.state.phase = .externalize)
      (hmatches : statementValueMatchesCommit c.state.toBallots (localStatement ctx pledges) =
        false) :
      RecordCases ctx c (.rejected, (validated ctx (localStatement ctx pledges) c).notify
        (.selfStatement (storedSelf ctx c.state) (localStatement ctx pledges) .valueMismatch))
  | advance (pledges : ScpStatementPledges V H) (canEmit : Bool) (validation : ValidationLevel)
      (hpledges : selfPledges ctx c.state.toBallots = some (pledges, canEmit))
      (hsane : isStatementSane ctx (localStatement ctx pledges) = true)
      (hnewer : isNewerStatement c.state ctx.localNodeId (localStatement ctx pledges) = true)
      (hphase : c.state.phase ≠ .externalize) :
      RecordCases ctx c (.advance (localStatement ctx pledges),
        (((validated ctx (localStatement ctx pledges) c).modify
          (clearValidation validation)).modify
            (storeSelf ctx (createSignedEnvelope ctx pledges) canEmit)).notify
          (.selfStatement (storedSelf ctx c.state) (localStatement ctx pledges) .recorded))
  | final (pledges : ScpStatementPledges V H) (canEmit : Bool)
      (hpledges : selfPledges ctx c.state.toBallots = some (pledges, canEmit))
      (hsane : isStatementSane ctx (localStatement ctx pledges) = true)
      (hnewer : isNewerStatement c.state ctx.localNodeId (localStatement ctx pledges) = true)
      (hphase : c.state.phase = .externalize) :
      RecordCases ctx c (.final,
        ((validated ctx (localStatement ctx pledges) c).modify
            (storeSelf ctx (createSignedEnvelope ctx pledges) canEmit)).notify
          (.selfStatement (storedSelf ctx c.state) (localStatement ctx pledges) .recorded))

variable (ctx : SlotContext N V H) (c : Ballot N V H)

theorem recordCurrentState_cases : RecordCases ctx c (recordCurrentState ctx c) := by
  unfold recordCurrentState
  dsimp only
  split
  next hpledges => exact .unavailable hpledges
  next pledges canEmit hpledges =>
    split
    next hsane => exact .notSane pledges canEmit hpledges hsane
    next hsane =>
      rw [Bool.not_eq_false] at hsane
      split
      next hnewer => exact .notNewer pledges canEmit hpledges hnewer
      next hnewer =>
        rw [Bool.not_eq_false] at hnewer
        have hstate : (validated ctx (localStatement ctx pledges) c).state = c.state :=
          (validateStatementValues_trace ctx.driver (localStatement ctx pledges)
            (noteCheck c)).1
        split
        next hinvalid => exact .invalid pledges canEmit hpledges hinvalid
        · split
          next hphase =>
            exact .advance pledges canEmit _ hpledges hsane hnewer (hstate ▸ hphase)
          next hphase =>
            have hphase' : c.state.phase = .externalize := hstate ▸ not_not.mp hphase
            split
            next hmatches =>
              exact .valueMismatch pledges canEmit hpledges hphase' (hstate ▸ hmatches)
            · exact .final pledges canEmit hpledges hsane hnewer hphase'

@[simp]
theorem recordCurrentState_toBallots :
    (recordCurrentState ctx c).2.state.toBallots = c.state.toBallots := by
  cases hcases : recordCurrentState ctx c with
  | mk outcome c' =>
    have h := hcases ▸ recordCurrentState_cases ctx c
    cases h <;> simp [noteCheck, storeSelf]

theorem recordCurrentState_statement?_ne {node : N} (hne : node ≠ ctx.localNodeId) :
    (recordCurrentState ctx c).2.state.latestEnvelopes.statement? node =
      c.state.latestEnvelopes.statement? node := by
  cases hcases : recordCurrentState ctx c with
  | mk outcome c' =>
    have h := hcases ▸ recordCurrentState_cases ctx c
    cases h <;> simp [noteCheck, storeSelf, hne]

end Henyey.Scp
