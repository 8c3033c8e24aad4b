import Henyey.Scp.Ballot.Steps

/-!
# What the trace gains

The trace only grows. Each setter and each recording adds events of known
kinds.
-/

namespace Henyey.Scp

variable {N V H : Type} {c c' : Ballot N V H}

theorem Kept.appends (hkept : Kept c c') : Appends (fun e => e.quiet = true) c c' :=
  hkept.log

theorem Idle.appends (hidle : Idle c c') : Appends (fun e => e.quiet = true) c c' :=
  hidle.log

variable [DecidableEq N] [LinearOrder V] [OrderBot V] [DecidableEq H]

/-- What recording a state may add: judgements of the driver, the outcome of the
consistency check, and the fate of the statement of that state. -/
def RecordEvent (ctx : SlotContext N V H) (c : Ballot N V H) (e : ScpEvent N V H) : Prop :=
  e.quiet = true ∨ e = .checkInvariants (errorText (checkInvariants c.state.toBallots)) ∨
    ∃ pledges canEmit outcome, selfPledges ctx c.state.toBallots = some (pledges, canEmit) ∧
      e = .selfStatement (storedSelf ctx c.state) (localStatement ctx pledges) outcome

section

variable (ctx : SlotContext N V H)
include ctx

omit [DecidableEq H] in
theorem validated_appends (statement : ScpStatement N V H)
    (c : Ballot N V H) : Appends (RecordEvent ctx c) c (validated ctx statement c) := by
  obtain ⟨_, new, hlog, hkind, _⟩ :=
    validateStatementValues_trace ctx.driver statement (noteCheck c)
  have hcheck : Appends (RecordEvent ctx c) c (noteCheck c) := Appends.notify c (.inr (.inl rfl))
  refine hcheck.trans ⟨new, hlog, fun e he => .inl ?_⟩
  obtain ⟨value, answer, rfl⟩ := hkind e he
  rfl

theorem recordCurrentState_appends (c : Ballot N V H) :
    Appends (RecordEvent ctx c) c (recordCurrentState ctx c).2 := by
  have hcheck : Appends (RecordEvent ctx c) c (noteCheck c) := Appends.notify c (.inr (.inl rfl))
  have hself {pledges : ScpStatementPledges V H} {canEmit : Bool} (outcome : SelfOutcome)
      (hpledges : selfPledges ctx c.state.toBallots = some (pledges, canEmit)) :
      RecordEvent ctx c
        (.selfStatement (storedSelf ctx c.state) (localStatement ctx pledges) outcome) :=
    .inr (.inr ⟨pledges, canEmit, outcome, hpledges, rfl⟩)
  have hcases := recordCurrentState_cases ctx c
  cases hrecord : recordCurrentState ctx c with
  | mk outcome c' =>
    rw [hrecord] at hcases
    cases hcases with
    | unavailable hpledges => exact hcheck
    | notSane pledges canEmit hpledges hsane => exact hcheck.trans (Appends.notify _ (hself _ hpledges))
    | notNewer pledges canEmit hpledges hnewer =>
      exact hcheck.trans (Appends.notify _ (hself _ hpledges))
    | invalid pledges canEmit hpledges hinvalid =>
      exact (validated_appends ctx _ c).trans (Appends.notify _ (hself _ hpledges))
    | valueMismatch pledges canEmit hpledges hphase hmatches =>
      exact (validated_appends ctx _ c).trans (Appends.notify _ (hself _ hpledges))
    | advance pledges canEmit validation hpledges hsane hnewer hphase =>
      exact (validated_appends ctx _ c).cons rfl (hself _ hpledges)
    | final pledges canEmit hpledges hsane hnewer hphase =>
      exact (validated_appends ctx _ c).cons rfl (hself _ hpledges)

theorem recorded_appends (didWork : Bool) (c : Ballot N V H) :
    Appends (RecordEvent ctx c) c (recorded ctx didWork c) := by
  unfold recorded
  split
  · exact recordCurrentState_appends ctx c
  · exact Appends.refl c

theorem mem_recorded_check (c : Ballot N V H) :
    .checkInvariants (errorText (checkInvariants c.state.toBallots)) ∈
      (recorded ctx true c).log := by
  have hcheck : .checkInvariants (errorText (checkInvariants c.state.toBallots)) ∈
      (noteCheck c).log := List.mem_cons_self
  have hvalidated (statement : ScpStatement N V H) :
      .checkInvariants (errorText (checkInvariants c.state.toBallots)) ∈
        (validated ctx statement c).log := by
    obtain ⟨_, new, hlog, _⟩ := validateStatementValues_trace ctx.driver statement (noteCheck c)
    unfold validated
    rw [hlog]
    exact List.mem_append_right _ hcheck
  have hcases := recordCurrentState_cases ctx c
  change _ ∈ (recordCurrentState ctx c).2.log
  cases hrecord : recordCurrentState ctx c with
  | mk outcome c' =>
    rw [hrecord] at hcases
    cases hcases with
    | unavailable => exact hcheck
    | notSane => exact List.mem_cons_of_mem _ hcheck
    | notNewer => exact List.mem_cons_of_mem _ hcheck
    | invalid pledges => exact List.mem_cons_of_mem _ (hvalidated _)
    | valueMismatch pledges => exact List.mem_cons_of_mem _ (hvalidated _)
    | advance pledges => exact List.mem_cons_of_mem _ (hvalidated _)
    | final pledges => exact List.mem_cons_of_mem _ (hvalidated _)

end

section

omit [DecidableEq N] [LinearOrder V] [OrderBot V] [DecidableEq H]

theorem transition_appends {call : Transition V} (hkept : Kept (noteTransition call c) c') :
    Appends (fun e => e.quiet = true ∨ e = .transition c.state.toBallots call) c c' := by
  have hnoted : Appends (fun e => e.quiet = true ∨ e = .transition c.state.toBallots call) c
      (noteTransition call c) := Appends.notify c (.inr rfl)
  exact hnoted.trans (hkept.appends.mono fun e he => .inl he)

theorem mem_transition {call : Transition V}
    (hkept : Kept (noteTransition call c) c') : .transition c.state.toBallots call ∈ c'.log :=
  hkept.appends.subset List.mem_cons_self

end

omit [OrderBot V] in
theorem sendLatestEnvelope_appends (c : Ballot N V H) :
    Appends (fun e => ∃ envelope, e = .emitEnvelope envelope) c (sendLatestEnvelope c) := by
  rcases sendLatestEnvelope_cases c with h | ⟨envelope, _, _, _, h⟩
  · rw [h]
    exact Appends.refl c
  · rw [h]
    exact ⟨[.emitEnvelope envelope], rfl, by simp⟩

end Henyey.Scp
