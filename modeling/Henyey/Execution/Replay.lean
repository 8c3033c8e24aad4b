import Henyey.Execution.Closing
import Mathlib.Data.List.Pairwise

/-!
# Replay protection

The sequence number of an account is a counter that only moves up: what operations,
transactions, phases and closes do to it is proved in turn. Over a run no number is spent
twice, and no account is ever below a number that was spent on it.
-/

namespace Henyey.Execution

open SameNumbers List

open Foundation (AllRounds Ensures)
open Foundation.Ratchet (Advances Protected Mark)

variable {α η ω : Type} [DecidableEq α] [DecidableEq η] {rules : Rules α η ω} {ctx : Context α}
  {snapshot accounts delta : Accounts α η} {tx : Transaction α η ω}

/-! ### Transactions -/

theorem runOperations_moves {executeOther : ExecuteOther α η ω} {txSource : α}
    (operations : List (Option α × Operation α ω)) (state last : LedgerState α η)
    (history reached : List (Accounts α η)) (allSuccess : Bool)
    (h : runOperations executeOther ctx txSource operations state history allSuccess =
      .ok (last, reached)) :
    ∃ new, reached = history ++ new ∧
      Moves ctx.ledgerSeq state.accounts last.accounts (new.map .reached) := by
  induction operations generalizing state history allSuccess with
  | nil =>
    unfold runOperations at h
    split at h
    · cases h
      exact ⟨[], (append_nil _).symm, Moves.of_keeps (Keeps.refl _)⟩
    · cases h
  | cons operation rest ih =>
    obtain ⟨opSource, op⟩ := operation
    unfold runOperations at h
    split at h
    · cases h
    next next result hexecuted =>
      split at h
      · obtain ⟨new, hnew, hmoves⟩ := ih _ _ _ h
        have hkeeps : Keeps ctx.ledgerSeq state.accounts next.accounts :=
          executeOperation_keeps _ hexecuted
        refine ⟨next.accounts :: new, by rw [hnew, append_assoc, singleton_append], ?_⟩
        exact (Moves.of_keeps hkeeps).then_reached.trans hmoves
      · exact ih _ _ _ h

theorem applyBody_moves {operationsValid : Bool} :
    Ensures (fun result => Moves ctx.ledgerSeq accounts result.1 (result.2.map .reached))
      (applyBody rules ctx accounts tx operationsValid) := by
  unfold applyBody
  split
  · refine .bind (Ensures.result _) fun ran hrun => .ok ?_
    obtain ⟨state, history⟩ := ran
    obtain ⟨new, hnew, hmoves⟩ := runOperations_moves _ _ _ _ _ _ hrun
    rw [nil_append] at hnew
    subst hnew
    exact hmoves
  · exact .error

/-- The executor sees what its delta has. -/
structure Executor.Intact (executor : Executor α η) : Prop where
  delta_eq : executor.delta = executor.accounts
  none_lost : executor.lost = []

section Intact

variable {executor : Executor α η} (hintact : executor.Intact)
include hintact

omit [DecidableEq η] in
theorem Executor.Intact.reload_eq : executor.reload rules ctx snapshot tx = executor := by
  obtain ⟨accounts, delta, lost⟩ := executor
  obtain ⟨-, rfl⟩ := hintact
  simp [Executor.reload]

theorem Executor.Intact.write (after : Accounts α η) : (executor.write after).Intact where
  delta_eq := by
    funext id
    show applyToDelta executor.accounts after executor.delta id = after id
    rw [hintact.delta_eq]
    unfold applyToDelta
    split
    next hsame => exact hsame.symm
    · rfl
  none_lost := hintact.none_lost

omit [DecidableEq η] in
/-- Where all that was created is new, a rollback is exact. -/
theorem Executor.Intact.rollback_eq {createdAccounts : List α}
    (hnew : ∀ id ∈ createdAccounts, executor.accounts id = none) :
    executor.rollback createdAccounts = executor := by
  have hremoved : (fun id => if id ∈ createdAccounts then none else executor.accounts id) =
      executor.accounts := by
    funext id
    split
    next hmem => exact (hnew id hmem).symm
    · rfl
  have hnone : (createdAccounts.filter fun id => (executor.accounts id).isSome) = [] :=
    filter_eq_nil_iff.mpr fun id hmem => by simp [hnew id hmem]
  unfold Executor.rollback
  rw [hremoved, hnone, append_nil]

theorem executeTransaction_moves (hregular : Regular rules ctx snapshot executor tx) :
    Ensures (fun result => result.1.Intact ∧
        Moves ctx.ledgerSeq executor.accounts result.1.accounts result.2)
      (executeTransaction rules ctx snapshot executor tx) := by
  unfold executeTransaction
  rw [hintact.reload_eq]
  refine .bind (fun result hresult =>
    And.intro hresult (preApply_moves hregular.wrapper result hresult)) ?_
  rintro ⟨mutated, validated⟩ ⟨hpre, hmutated⟩
  have hpreApplied := hintact.write mutated
  cases validated with
  | none => exact .ok ⟨hpreApplied, hmutated.then_reached⟩
  | some operationsValid =>
    dsimp only
    cases hbody : applyBody rules ctx mutated tx operationsValid with
    | ok applied =>
      have hmoves := applyBody_moves applied hbody
      exact .ok ⟨hpreApplied.write applied.1, hmutated.then_reached.trans hmoves⟩
    | error createdAccounts =>
      have hnew : ∀ id ∈ createdAccounts, (executor.write mutated).accounts id = none := by
        have hnone := hregular.none_again
        unfold createdAgain at hnone
        rw [hpre] at hnone
        dsimp only at hnone
        rw [hbody] at hnone
        intro id hid
        have habsent : mutated id = none := by simpa using filter_eq_nil_iff.mp hnone id hid
        exact habsent
      dsimp only
      rw [hpreApplied.rollback_eq hnew]
      exact .ok ⟨hpreApplied, hmutated.then_reached⟩

end Intact

omit [DecidableEq α] [DecidableEq η] in
/-- A loop keeps of its state and events what each of its steps keeps. -/
theorem foldEvents_ensures {σ β : Type} (inv : σ → List (Event α η) → Prop) {safe : σ → β → Prop}
    {step : σ → β → Except TxError (σ × List (Event α η))}
    (hstep : ∀ state item, safe state item → ∀ events, inv state events →
      Ensures (fun result => inv result.1 (events ++ result.2)) (step state item))
    (items : List β) (start : σ) (hstart : inv start [])
    (hsafe : AllSteps safe step items start) :
    Ensures (fun result => inv result.1 result.2) (foldEvents step items start) := by
  refine Ensures.foldlM_of_rounds ?_ items (start, []) hstart hsafe
  rintro ⟨state, events⟩ item hinv hitem
  exact .bind (hstep state item hitem events hinv) fun next hnext => .ok hnext

/-! ### Fees -/

theorem deductFeeFromAccount_ensures {id : α} {fee : Int} :
    Ensures (SameNumbers accounts) (deductFeeFromAccount accounts id fee) := by
  unfold deductFeeFromAccount
  split
  · exact .ok (refl _)
  next entry hentry =>
    exact .bind AccountEntry.subBalance_ensures fun paid hpaid => .ok (set hentry hpaid)

theorem processFeeOnly_ensures : Ensures (SameNumbers accounts) (processFeeOnly accounts tx) := by
  unfold processFeeOnly
  split_ifs
  · exact .error
  · exact .error
  · exact .ok (refl _)
  · exact deductFeeFromAccount_ensures

theorem processFees_ensures {ledger : Ledger α η} {close : Close α η ω} :
    Ensures (SameNumbers ledger.accounts) (processFees ledger close) := by
  unfold processFees
  split
  · refine Ensures.foldlM ?_ _ _ (refl ledger.accounts)
    exact fun accounts _ haccounts => processFeeOnly_ensures.mono fun _ h => haccounts.trans h
  · refine Ensures.foldlM ?_ _ _ (refl ledger.accounts)
    exact fun accounts _ haccounts =>
      deductFeeFromAccount_ensures.mono fun _ h => haccounts.trans h

theorem applyRefund_same {id : α} {refund : Int} :
    SameNumbers accounts (applyRefund accounts id refund) := by
  unfold applyRefund
  split
  · split
    · exact refl _
    next entry hentry =>
      split
      · exact refl _
      next paid hpaid => exact set hentry (AccountEntry.addBalance_ensures _ hpaid)
  · exact refl _

theorem applyRefunds_same (rules : Rules α η ω) (txs : List (Transaction α η ω))
    (accounts : Accounts α η) : SameNumbers accounts (applyRefunds rules accounts txs) := by
  unfold applyRefunds
  induction txs generalizing accounts with
  | nil => exact refl _
  | cons tx rest ih => exact applyRefund_same.trans (ih _)

/-! ### The classic phase -/

theorem classicPhase_moves {ledger : Ledger α η} {close : Close α η ω}
    (hregular : RegularClose rules ledger close) :
    Ensures (fun result => Moves (ledger.ledgerSeq + 1) ledger.accounts result.1 result.2)
      (classicPhase rules ledger close) := by
  refine .bind (fun charged hcharged => And.intro hcharged (processFees_ensures charged hcharged))
    fun charged ⟨hprocessed, hcharged⟩ => ?_
  have hfold : Ensures (fun result => result.1.Intact ∧
        Moves (ledger.ledgerSeq + 1) charged result.1.accounts result.2)
      (foldEvents (executeTransaction rules (close.context ledger) ledger.accounts) close.classic
        ⟨charged, charged, []⟩) := by
    refine foldEvents_ensures (fun executor events => executor.Intact ∧
        Moves (ledger.ledgerSeq + 1) charged executor.accounts events)
      (fun executor tx htx events ⟨hintact, hmoves⟩ => ?_) _ _ ⟨⟨rfl, rfl⟩, Moves.of_keeps (Keeps.refl _)⟩ (hregular.classic charged hprocessed)
    exact (executeTransaction_moves hintact htx).mono fun _ h => ⟨h.1, hmoves.trans h.2⟩
  refine .bind hfold fun ⟨executor, events⟩ ⟨hintact, hevents⟩ => .ok ?_
  have hmoves : Moves (ledger.ledgerSeq + 1) ledger.accounts executor.delta events := by
    rw [hintact.delta_eq]
    exact (Moves.of_keeps (Keeps.of_sameNumbers hcharged)).trans hevents
  show Moves _ _ (if close.soroban.isNone then _ else _) _
  split
  · exact hmoves.then_keeps (Keeps.of_sameNumbers (applyRefunds_same _ _ _))
  · exact hmoves

/-! ### The Soroban phase -/

def SamePresence (before after : Accounts α η) : Prop :=
  ∀ id, after id = none ↔ before id = none

namespace SamePresence

variable {before mid after : Accounts α η}

section

omit [DecidableEq α] [DecidableEq η]

theorem refl (accounts : Accounts α η) : SamePresence accounts accounts := fun _ => Iff.rfl

theorem trans (h : SamePresence before mid) (h' : SamePresence mid after) :
    SamePresence before after := fun id => (h' id).trans (h id)

theorem of_sameNumbers (h : SameNumbers before after) : SamePresence before after := by
  intro id
  rw [← Option.map_eq_none_iff (f := AccountEntry.seqNum), h id, Option.map_eq_none_iff]

end

theorem bumpSourceSequence : SamePresence accounts (bumpSourceSequence ctx accounts tx) := by
  unfold Execution.bumpSourceSequence
  split
  · exact refl _
  next entry hentry =>
    intro id
    by_cases hid : id = tx.source
    · subst hid
      simp [Accounts.set, hentry]
    · rw [Accounts.set, Function.update_of_ne hid]

theorem preApply :
    Ensures (fun result => SamePresence accounts result.1)
      (preApply rules ctx snapshot accounts tx) := by
  have hinner (wrapped : Accounts α η) :
      Ensures (SamePresence wrapped) (innerPreapplyMutations ctx wrapped tx) :=
    (removeOneTimeSigners _ _ _).mono fun _ h =>
      bumpSourceSequence.trans (of_sameNumbers h)
  have hwrapped : Ensures (SameNumbers accounts) (removeFeeSourceSigner accounts tx) :=
    removeFeeSourceSigner_ensures
  unfold Execution.preApply
  split
  next failure _ =>
    split
    · refine .bind hwrapped fun wrapped hsame => ?_
      exact .bind (hinner wrapped) fun mutated h => .ok ((of_sameNumbers hsame).trans h)
    · exact .ok (refl _)
  · refine .bind hwrapped fun wrapped hsame => ?_
    exact .bind (hinner wrapped) fun mutated h => .ok ((of_sameNumbers hsame).trans h)

end SamePresence

def Event.IsCheck : Event α η → Prop
  | .checked _ => True
  | .reached _ => False

omit [DecidableEq α] [DecidableEq η] in
theorem checkEvents_isCheck : ∀ e ∈ checkEvents rules ctx snapshot accounts tx, e.IsCheck := by
  intro e he
  unfold checkEvents at he
  split at he
  · rw [mem_singleton.mp he]
    trivial
  · exact absurd he not_mem_nil

variable {id : α}

omit [DecidableEq η] in
theorem Event.mark_spent {e : Event α η} {m : Mark Int} (hcheck : e.IsCheck)
    (hmark : e.mark id = some m) : m.spent = true := by
  cases e with
  | reached _ => exact hcheck.elim
  | checked check =>
    simp only [Event.mark, Option.ite_none_right_eq_some, Option.some.injEq] at hmark
    rw [← hmark.2]

theorem marksOf_eq_nil {ledgerSeq : Nat} {loaded after : Accounts α η} {events : List (Event α η)}
    (hmoves : Moves ledgerSeq loaded after events) (hsame : after id = loaded id)
    (hchecks : ∀ e ∈ events, e.IsCheck) : marksOf id events = [] := by
  refine eq_nil_iff_forall_not_mem.mpr fun m hm => ?_
  obtain ⟨e, he, hmark⟩ := mem_filterMap.mp hm
  have hadvances := hmoves id
  rw [seqOf, seqOf, hsame] at hadvances
  have hunspent := hadvances.none_spent hm
  rw [Event.mark_spent (hchecks e he) hmark] at hunspent
  cases hunspent

variable {entry : AccountEntry α η}

theorem applyToDelta_of_some (after : Accounts α η) {loaded : Accounts α η}
    (hloaded : loaded = loadFromDelta delta snapshot) (hentry : delta id = some entry) :
    loaded id = delta id ∧ applyToDelta loaded after delta id = after id := by
  have heq : loaded id = delta id := by rw [hloaded, loadFromDelta, hentry, Option.some_or]
  refine ⟨heq, ?_⟩
  unfold applyToDelta
  split
  next hsame => rw [hsame, heq]
  · rfl

theorem foldEvents_preApply_moves {txs : List (Transaction α η ω)} {start : Accounts α η}
    (hwrappers : AllSteps
      (fun accounts tx => wrapperFailsLate rules ctx snapshot accounts tx = false)
      (preApplyOne rules ctx snapshot) txs start) :
    Ensures (fun result => Moves ctx.ledgerSeq start result.1 result.2 ∧ ∀ e ∈ result.2, e.IsCheck)
      (foldEvents (preApplyOne rules ctx snapshot) txs start) := by
  refine foldEvents_ensures (fun accounts events =>
      Moves ctx.ledgerSeq start accounts events ∧ ∀ e ∈ events, e.IsCheck)
    (fun accounts tx htx events ⟨hmoves, hchecks⟩ => ?_) _ _ ⟨Moves.of_keeps (Keeps.refl _), fun _ he => absurd he not_mem_nil⟩ hwrappers
  refine .bind (preApply_moves htx) fun _ hnext => .ok ⟨hmoves.trans hnext, fun e he => ?_⟩
  rcases mem_append.mp he with he | he
  · exact hchecks e he
  · exact checkEvents_isCheck e he

theorem foldEvents_preApply_presence (rules : Rules α η ω) (ctx : Context α)
    (snapshot : Accounts α η) (txs : List (Transaction α η ω)) (start : Accounts α η) :
    Ensures (fun result => SamePresence start result.1)
      (foldEvents (preApplyOne rules ctx snapshot) txs start) := by
  have hall : AllSteps (fun _ _ => True) (preApplyOne rules ctx snapshot) txs start :=
    Foundation.allRounds_of_forall (fun _ _ => trivial) txs _
  refine foldEvents_ensures (fun accounts _ => SamePresence start accounts)
    (fun accounts item _ events hsame => ?_) txs start (SamePresence.refl start) hall
  exact .bind SamePresence.preApply fun _ h => .ok (hsame.trans h)

/-- Where no deleted account is written, validating all Soroban transactions moves the
numbers that the delta holds, and it deletes no account. -/
theorem preParallelApply_moves {txs : List (Transaction α η ω)}
    (hwrappers : AllSteps
      (fun accounts tx => wrapperFailsLate rules ctx snapshot accounts tx = false)
      (preApplyOne rules ctx snapshot) txs (loadFromDelta delta snapshot)) :
    Ensures (fun result => (∀ id, result.1 id = none → delta id = none) ∧
        ((∀ id, delta id = none → result.1 id = none) →
          Moves ctx.ledgerSeq delta result.1 result.2))
      (preParallelApply rules ctx snapshot delta txs) := by
  have hfold := foldEvents_preApply_moves hwrappers
  have hpresence := foldEvents_preApply_presence rules ctx snapshot txs
    (loadFromDelta delta snapshot)
  refine .bind (fun result hresult => And.intro (hfold result hresult) (hpresence result hresult))
    fun ⟨after, events⟩ ⟨⟨hmoves, hchecks⟩, hsame⟩ => .ok ⟨fun id hgone => ?_, fun habsent id => ?_⟩
  · by_contra hpresent
    obtain ⟨entry, hentry⟩ := Option.ne_none_iff_exists'.mp hpresent
    obtain ⟨hloaded, happlied⟩ := applyToDelta_of_some after rfl hentry
    exact hpresent (hloaded.symm.trans ((hsame id).mp (happlied.symm.trans hgone)))
  show Advances _ (seqOf delta id) (seqOf (applyToDelta _ after delta) id) _
  cases hentry : delta id with
  | some entry =>
    obtain ⟨hloaded, happlied⟩ := applyToDelta_of_some after rfl hentry
    rw [seqOf, seqOf, happlied, ← hloaded]
    exact hmoves id
  | none =>
    have hgone : applyToDelta (loadFromDelta delta snapshot) after delta id = none :=
      habsent id hentry
    have hunchanged : after id = loadFromDelta delta snapshot id := by
      by_contra hchanged
      rw [applyToDelta, if_neg hchanged] at hgone
      exact hchanged (hgone.trans ((hsame id).mp hgone).symm)
    rw [seqOf, seqOf, hgone, hentry, marksOf_eq_nil hmoves hunchanged hchecks]
    exact Advances.refl _ _

theorem executeStage_some (rules : Rules α η ω) (ctx : Context α) (snapshot : Accounts α η)
    (stage : List (Transaction α η ω)) (hentry : delta id = some entry) :
    ∃ entry', executeStage rules ctx snapshot delta stage id = some entry' ∧
      entry'.seqNum = entry.seqNum := by
  have hloaded : loadFromDelta delta snapshot = loadFromDelta delta snapshot := rfl
  obtain ⟨hloaded, happlied⟩ := applyToDelta_of_some
    ((loadFromDelta delta snapshot).rewrite
      (rules.clusters ctx (loadFromDelta delta snapshot) stage)) hloaded hentry
  unfold executeStage
  rw [happlied]
  exact (rewrite _ _).exists_entry (hloaded.trans hentry)

theorem foldl_executeStage_some (rules : Rules α η ω) (ctx : Context α) (snapshot : Accounts α η)
    (stages : List (List (Transaction α η ω))) (delta : Accounts α η)
    (hentry : delta id = some entry) :
    ∃ entry', stages.foldl (executeStage rules ctx snapshot) delta id = some entry' ∧
      entry'.seqNum = entry.seqNum := by
  induction stages generalizing delta entry with
  | nil => exact ⟨entry, hentry, rfl⟩
  | cons stage rest ih =>
    obtain ⟨entry', hstage, hseq⟩ := executeStage_some rules ctx snapshot stage hentry
    obtain ⟨last, hlast, hseq'⟩ := ih _ hstage
    exact ⟨last, hlast, hseq'.trans hseq⟩

theorem executed_some (rules : Rules α η ω) (ctx : Context α) (snapshot : Accounts α η)
    (stages : List (List (Transaction α η ω))) (delta : Accounts α η)
    (hentry : delta id = some entry) :
    ∃ entry', applyRefunds rules (stages.foldl (executeStage rules ctx snapshot) delta)
        stages.flatten id = some entry' ∧ entry'.seqNum = entry.seqNum := by
  obtain ⟨executed, hexecuted, hseq⟩ := foldl_executeStage_some rules ctx snapshot stages delta
    hentry
  obtain ⟨refunded, hrefunded, hseq'⟩ := (applyRefunds_same rules _ _).exists_entry hexecuted
  exact ⟨refunded, hrefunded, hseq'.trans hseq⟩

theorem executeSorobanParallelPhase_moves (ctx : Context α)
    (stages : List (List (Transaction α η ω)))
    (hwrappers : AllSteps
      (fun accounts tx => wrapperFailsLate rules ctx snapshot accounts tx = false)
      (preApplyOne rules ctx snapshot) stages.flatten (loadFromDelta delta snapshot)) :
    Ensures (fun result => (∀ id, delta id = none → result.1 id = none) →
        Moves ctx.ledgerSeq delta result.1 result.2)
      (executeSorobanParallelPhase rules ctx snapshot delta stages) := by
  refine .bind (preParallelApply_moves hwrappers) fun ⟨preApplied, events⟩ ⟨hpresent, hmoves⟩ =>
    .ok fun habsent => ?_
  have hnone (id : α) (hdelta : delta id = none) : preApplied id = none := by
    by_contra hrevived
    obtain ⟨entry, hentry⟩ := Option.ne_none_iff_exists'.mp hrevived
    obtain ⟨last, hlast, _⟩ := executed_some rules ctx snapshot stages preApplied hentry
    exact Option.some_ne_none last (hlast.symm.trans (habsent id hdelta))
  refine (hmoves hnone).then_keeps (Keeps.of_sameNumbers fun id => ?_)
  show (applyRefunds rules (stages.foldl (executeStage rules ctx snapshot) preApplied)
    stages.flatten id).map _ = (preApplied id).map _
  cases hentry : preApplied id with
  | none => exact congrArg _ (habsent id (hpresent id hentry))
  | some entry =>
    obtain ⟨last, hlast, hseq⟩ := executed_some rules ctx snapshot stages preApplied hentry
    rw [hlast, Option.map_some, Option.map_some, hseq]

/-! ### Closes and runs -/

theorem closeLedger_moves {ledger : Ledger α η} {close : Close α η ω}
    (hregular : RegularClose rules ledger close) :
    Ensures (fun result => result.1.ledgerSeq = ledger.ledgerSeq + 1 ∧
        Moves (ledger.ledgerSeq + 1) ledger.accounts result.1.accounts result.2)
      (closeLedger rules ledger close) := by
  refine .bind (Ensures.result _) fun classic hclassic => ?_
  refine .bind (Ensures.result _) fun soroban hsoroban => .ok ⟨rfl, ?_⟩
  have hfirst : Moves (ledger.ledgerSeq + 1) ledger.accounts classic.1 classic.2 :=
    classicPhase_moves hregular classic hclassic
  have habsent := hregular.unrevived classic hclassic soroban hsoroban
  have hsecond : Moves (ledger.ledgerSeq + 1) classic.1 soroban.1 soroban.2 := by
    unfold sorobanPhase at hsoroban
    split at hsoroban
    · cases hsoroban
      exact Moves.of_keeps (Keeps.refl _)
    next stages hstages =>
      exact executeSorobanParallelPhase_moves (close.context ledger) stages
        (hregular.soroban stages hstages classic hclassic) soroban hsoroban habsent
  have hupgraded : Keeps (ledger.ledgerSeq + 1) soroban.1
      (soroban.1.rewrite (rules.upgrades (close.context ledger))) :=
    Keeps.of_sameNumbers (rewrite _ _)
  exact ((hfirst.trans hsecond).then_keeps hupgraded).then_reached

theorem startingSeq_mono {first second : Nat} (h : first ≤ second) :
    startingSeq first ≤ startingSeq second := by
  unfold startingSeq
  omega

theorem closeLedgers_protected (id : α) (ledger last : Ledger α η) (closes : List (Close α η ω))
    (events : List (Event α η)) (hrun : closeLedgers rules ledger closes = .ok (last, events))
    (hregular : RegularRun rules ledger closes) (marks : List (Mark Int))
    (hstart : Protected (startingSeq ledger.ledgerSeq) (seqOf ledger.accounts id) marks) :
    Protected (startingSeq last.ledgerSeq) (seqOf last.accounts id) (marks ++ marksOf id events) := by
  induction closes generalizing ledger events marks with
  | nil =>
    cases hrun
    rwa [marksOf, filterMap_nil, append_nil]
  | cons close rest ih =>
    unfold closeLedgers at hrun
    cases hclose : closeLedger rules ledger close with
    | error _ => rw [hclose] at hrun; cases hrun
    | ok closed =>
      obtain ⟨next, first⟩ := closed
      cases hlater : closeLedgers rules next rest with
      | error _ =>
        rw [hclose] at hrun
        change (closeLedgers rules next rest >>= _) = _ at hrun
        rw [hlater] at hrun
        cases hrun
      | ok ran =>
        obtain ⟨final, later⟩ := ran
        rw [hclose] at hrun
        change (closeLedgers rules next rest >>= _) = _ at hrun
        rw [hlater] at hrun
        cases hrun
        obtain ⟨hseq, hmoves⟩ := closeLedger_moves hregular.1 _ hclose
        have hraised := hstart.raise_floor (startingSeq_mono (Nat.le_succ ledger.ledgerSeq))
        have hnext := hmoves id marks hraised
        rw [← hseq] at hnext
        have hlast := ih next later hlater (hregular.2 _ hclose) _ hnext
        rwa [append_assoc, marksOf, marksOf, ← filterMap_append] at hlast

end Henyey.Execution
