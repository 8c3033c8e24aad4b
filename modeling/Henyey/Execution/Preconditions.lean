import Henyey.Execution.Operations

/-!
# Validation and the pre-apply phase

A transaction passes the sequence check or fails before it. What fails after it still
consumes its number, but for two failures of a fee-bump wrapper, which leave the inner
transaction untouched, against the comment that follows the check.
-/

namespace Henyey.Execution

open Foundation (Ensures)
open Foundation.Ratchet (Advances Mark)

variable {α η ω : Type} [DecidableEq α] [DecidableEq η]

inductive TransactionResultCode where
  | txBadSeq | txNoAccount | txInsufficientFee | txTooEarly | txTooLate | txMalformed
  | txBadMinSeqAgeOrGap | txBadAuth | txBadAuthExtra | txFrozenKeyAccessed
  | txInsufficientBalance | txSorobanInvalid | txFailed
deriving DecidableEq

/-- A transaction; one with a `feeSource` is the inner transaction of a fee bump. -/
structure Transaction (α η ω : Type) where
  feeSource : Option α
  source : α
  seqNum : Int
  minSeqNum : Option Int
  minSeqAge : Nat
  minSeqLedgerGap : Nat
  feeToCharge : Int
  outerHash : η
  innerHash : η
  operations : List (Option α × Operation α ω)

namespace Transaction

variable (tx : Transaction α η ω)

def isFeeBump : Bool := tx.feeSource.isSome

def feeSourceId : α := tx.feeSource.getD tx.source

/-- The source of the transaction and those of its operations, each once. -/
def sourceAccounts : List α := (tx.source :: tx.operations.filterMap (·.1)).dedup

def signerRemovalHash : η := if tx.isFeeBump then tx.innerHash else tx.outerHash

end Transaction

/-- The checks and effects that read and assign no sequence number: whatever the code
decides there, and whatever the Soroban clusters, the refunds and the upgrades do. -/
structure Rules (α η ω : Type) where
  preSeqNum : Context α → Transaction α η ω → Option TransactionResultCode
  resourceFee : Context α → Transaction α η ω → Option TransactionResultCode
  inclusionFee : Context α → Transaction α η ω → Option TransactionResultCode
  outerAuth : Accounts α η → Transaction α η ω → Bool
  bounds : Context α → Transaction α η ω → Option TransactionResultCode
  signatures : AccountEntry α η → AccountEntry α η → Transaction α η ω →
    Option TransactionResultCode
  feeSourceFrozen : Transaction α η ω → Bool
  accessesFrozenKey : Transaction α η ω → Bool
  operationsValid : Context α → Accounts α η → Transaction α η ω → Bool
  executeOther : ExecuteOther α η ω
  /-- Whether a transaction finds an account that a rollback has dropped at the start of
  the ledger again; it depends on the way the account was loaded before. -/
  findsAgain : Context α → Transaction α η ω → α → Bool
  clusters : Context α → Accounts α η → List (Transaction α η ω) →
    α → AccountEntry α η → AccountEntry α η
  refund : Transaction α η ω → Int
  upgrades : Context α → α → AccountEntry α η → AccountEntry α η

structure ValidationFailure where
  code : TransactionResultCode
  pastSeqCheck : Bool
  feeBumpOuterFailure : Bool
deriving DecidableEq

namespace ValidationFailure

def preSeqFail (code : TransactionResultCode) : ValidationFailure := ⟨code, false, false⟩

def postSeqFail (code : TransactionResultCode) : ValidationFailure := ⟨code, true, false⟩

def feeBumpOuterFail (code : TransactionResultCode) : ValidationFailure := ⟨code, false, true⟩

def outerIf (isFeeBump : Bool) (code : TransactionResultCode) : ValidationFailure :=
  if isFeeBump then feeBumpOuterFail code else preSeqFail code

end ValidationFailure

open ValidationFailure

/-! ### validate_preconditions -/

def require (failure : TransactionResultCode → ValidationFailure)
    (check : Option TransactionResultCode) : Except ValidationFailure Unit :=
  match check with
  | some code => .error (failure code)
  | none => .ok ()

def loadAccount (accounts : Accounts α η) (id : α) (failure : ValidationFailure) :
    Except ValidationFailure (AccountEntry α η) :=
  match accounts id with
  | none => .error failure
  | some entry => .ok entry

/-- Everything before the sequence check. A fee bump pays and authorises its wrapper
before the bounds of the inner transaction are read; a resource fee that is declared too
low is a failure of the inner transaction. -/
def loadSources (rules : Rules α η ω) (ctx : Context α) (snapshot accounts : Accounts α η)
    (tx : Transaction α η ω) : Except ValidationFailure (AccountEntry α η × AccountEntry α η) := do
  require (outerIf tx.isFeeBump) (rules.preSeqNum ctx tx)
  require preSeqFail (rules.resourceFee ctx tx)
  match tx.feeSource with
  | some feeSource => do
    require feeBumpOuterFail (rules.inclusionFee ctx tx)
    let feeSourceAccount ← loadAccount accounts feeSource (feeBumpOuterFail .txNoAccount)
    require feeBumpOuterFail
      (if (snapshot feeSource).isSome && !rules.outerAuth snapshot tx then some .txBadAuth else none)
    require preSeqFail (rules.bounds ctx tx)
    let sourceAccount ← loadAccount accounts tx.source (preSeqFail .txNoAccount)
    return (feeSourceAccount, sourceAccount)
  | none => do
    require preSeqFail (rules.bounds ctx tx)
    require preSeqFail (rules.inclusionFee ctx tx)
    let sourceAccount ← loadAccount accounts tx.source (preSeqFail .txNoAccount)
    return (sourceAccount, sourceAccount)

def isBadSeq (accountSeq : Int) (tx : Transaction α η ω) : Bool :=
  match tx.minSeqNum with
  | some minSeq => accountSeq < minSeq || accountSeq ≥ tx.seqNum
  | none => accountSeq = i64Max || accountSeq + 1 ≠ tx.seqNum

def checkSequence (ctx : Context α) (sourceAccount : AccountEntry α η) (tx : Transaction α η ω) :
    Except ValidationFailure Unit :=
  if ctx.ledgerSeq ≤ i32Max ∧ tx.seqNum = startingSeq ctx.ledgerSeq then
    .error (preSeqFail .txBadSeq)
  else if isBadSeq sourceAccount.seqNum tx then .error (preSeqFail .txBadSeq)
  else .ok ()

def isTooEarlyForAccount (ctx : Context α) (sourceAccount : AccountEntry α η)
    (tx : Transaction α η ω) : Bool :=
  (tx.minSeqAge > 0 &&
    (tx.minSeqAge > ctx.closeTime || ctx.closeTime - tx.minSeqAge < sourceAccount.seqTime)) ||
  (tx.minSeqLedgerGap > 0 &&
    (tx.minSeqLedgerGap > ctx.ledgerSeq ||
      ctx.ledgerSeq - tx.minSeqLedgerGap < sourceAccount.seqLedger))

/-- The reserve of an account and what its offers hold, beyond its balance. The fee has
been taken already. -/
def isInsufficientBalance (ctx : Context α) (entry : AccountEntry α η) : Bool :=
  entry.balance - (2 + entry.numSubEntries + entry.numSponsoring - entry.numSponsored) *
    ctx.baseReserve - entry.sellingLiabilities < 0

/-- Everything after the sequence check. -/
def checkPastSequence (rules : Rules α η ω) (ctx : Context α)
    (feeSourceAccount sourceAccount : AccountEntry α η) (tx : Transaction α η ω) :
    Except ValidationFailure Unit := do
  require postSeqFail
    (if isTooEarlyForAccount ctx sourceAccount tx then some .txBadMinSeqAgeOrGap else none)
  require postSeqFail (rules.signatures feeSourceAccount sourceAccount tx)
  require feeBumpOuterFail
    (if tx.isFeeBump && rules.feeSourceFrozen tx then some .txFrozenKeyAccessed else none)
  require postSeqFail
    (if rules.accessesFrozenKey tx then some .txFrozenKeyAccessed else none)
  require (if tx.isFeeBump then feeBumpOuterFail else postSeqFail)
    (if isInsufficientBalance ctx feeSourceAccount then some .txInsufficientBalance else none)

def validatePreconditions (rules : Rules α η ω) (ctx : Context α) (snapshot accounts : Accounts α η)
    (tx : Transaction α η ω) : Except ValidationFailure Unit := do
  let (feeSourceAccount, sourceAccount) ← loadSources rules ctx snapshot accounts tx
  checkSequence ctx sourceAccount tx
  checkPastSequence rules ctx feeSourceAccount sourceAccount tx

/-! ### The pre-apply phase -/

def removeFeeSourceSigner (accounts : Accounts α η) (tx : Transaction α η ω) :
    Except TxError (Accounts α η) :=
  match tx.feeSource with
  | some feeSource => removeAccountSigner accounts feeSource (.preAuthTx tx.outerHash)
  | none => .ok accounts

def bumpSourceSequence (ctx : Context α) (accounts : Accounts α η) (tx : Transaction α η ω) :
    Accounts α η :=
  match accounts tx.source with
  | none => accounts
  | some entry => accounts.set tx.source
      (({ entry with seqNum := tx.seqNum } : AccountEntry α η).updateSeqInfo ctx.ledgerSeq
        ctx.closeTime)

def innerPreapplyMutations (ctx : Context α) (accounts : Accounts α η) (tx : Transaction α η ω) :
    Except TxError (Accounts α η) :=
  removeOneTimeSignersFromAllSources (bumpSourceSequence ctx accounts tx) tx.signerRemovalHash
    tx.sourceAccounts

/-- What the pre-apply phase leaves, and for a transaction that validation let through
whether its operations are to be applied. -/
def preApply (rules : Rules α η ω) (ctx : Context α) (snapshot accounts : Accounts α η)
    (tx : Transaction α η ω) : Except TxError (Accounts α η × Option Bool) :=
  match validatePreconditions rules ctx snapshot accounts tx with
  | .error failure =>
    if failure.pastSeqCheck then do
      let wrapped ← removeFeeSourceSigner accounts tx
      let mutated ← innerPreapplyMutations ctx wrapped tx
      return (mutated, none)
    else .ok (accounts, none)
  | .ok () => do
    let wrapped ← removeFeeSourceSigner accounts tx
    let mutated ← innerPreapplyMutations ctx wrapped tx
    return (mutated, some (rules.operationsValid ctx wrapped tx))

/-! ### Sequence checks -/

/-- A transaction that passed the sequence check. -/
structure SeqCheck (α : Type) where
  source : α
  seqNum : Int
deriving DecidableEq

/-- What a run of closes goes through. -/
inductive Event (α η : Type) where
  | checked (check : SeqCheck α)
  | reached (accounts : Accounts α η)

def passesSequenceCheck (rules : Rules α η ω) (ctx : Context α) (snapshot accounts : Accounts α η)
    (tx : Transaction α η ω) : Bool :=
  match loadSources rules ctx snapshot accounts tx with
  | .error _ => false
  | .ok (_, sourceAccount) => (checkSequence ctx sourceAccount tx).isOk

/-- The wrapper of a fee bump fails after the sequence check was passed. -/
def wrapperFailsLate (rules : Rules α η ω) (ctx : Context α) (snapshot accounts : Accounts α η)
    (tx : Transaction α η ω) : Bool :=
  passesSequenceCheck rules ctx snapshot accounts tx &&
    match validatePreconditions rules ctx snapshot accounts tx with
    | .error failure => failure.feeBumpOuterFailure
    | .ok () => false

def checkEvents (rules : Rules α η ω) (ctx : Context α) (snapshot accounts : Accounts α η)
    (tx : Transaction α η ω) : List (Event α η) :=
  if passesSequenceCheck rules ctx snapshot accounts tx then
    [.checked ⟨tx.source, tx.seqNum⟩]
  else []

def Event.mark (id : α) : Event α η → Option (Mark Int)
  | .checked check =>
    if check.source = id then some ⟨check.seqNum, true⟩ else none
  | .reached accounts => (seqOf accounts id).map fun number => ⟨number, false⟩

def marksOf (id : α) (events : List (Event α η)) : List (Mark Int) :=
  events.filterMap (Event.mark id)

omit [DecidableEq η] in
theorem marksOf_singleton (id : α) (event : Event α η) :
    marksOf id [event] = (event.mark id).toList := by
  unfold marksOf
  cases h : event.mark id <;> simp [h]

/-- Every account goes from the one state to the other as its number may, with the marks
that the events leave. -/
def Moves (ledgerSeq : Nat) (before after : Accounts α η) (events : List (Event α η)) : Prop :=
  ∀ id, Advances (startingSeq ledgerSeq) (seqOf before id) (seqOf after id) (marksOf id events)

namespace Moves

variable {ledgerSeq : Nat} {before mid after accounts : Accounts α η}
  {events first second : List (Event α η)}

omit [DecidableEq η] in
theorem of_keeps (h : Keeps ledgerSeq before after) : Moves ledgerSeq before after [] := h

omit [DecidableEq η] in
theorem trans (h : Moves ledgerSeq before mid first) (h' : Moves ledgerSeq mid after second) :
    Moves ledgerSeq before after (first ++ second) := by
  intro id
  rw [marksOf, List.filterMap_append]
  exact (h id).trans (h' id)

theorem reached (accounts : Accounts α η) :
    Moves ledgerSeq accounts accounts [.reached accounts] := by
  intro id
  rw [marksOf_singleton, Event.mark]
  cases seqOf accounts id with
  | none => exact Advances.refl _ _
  | some number => exact Advances.note _ _

theorem then_keeps (h : Moves ledgerSeq before mid events) (h' : Keeps ledgerSeq mid after) :
    Moves ledgerSeq before after events := by
  rw [← List.append_nil events]
  exact h.trans (of_keeps h')

theorem then_reached (h : Moves ledgerSeq before after events) :
    Moves ledgerSeq before after (events ++ [.reached after]) :=
  h.trans (reached after)

end Moves

section PreApply

variable {rules : Rules α η ω} {ctx : Context α} {snapshot accounts : Accounts α η}
  {tx : Transaction α η ω} {feeSourceAccount sourceAccount entry : AccountEntry α η}

omit [DecidableEq α] [DecidableEq η] in
theorem loadAccount_eq_ok {id : α} {failure : ValidationFailure}
    (h : loadAccount accounts id failure = .ok entry) : accounts id = some entry := by
  unfold loadAccount at h
  split at h
  · cases h
  next found hfound =>
    cases h
    exact hfound

def FailsWith (property : ValidationFailure → Prop) {β : Type}
    (program : Except ValidationFailure β) : Prop :=
  ∀ failure, program = .error failure → property failure

namespace FailsWith

variable {property : ValidationFailure → Prop} {β γ : Type}

theorem ok {value : β} : FailsWith property (.ok value : Except ValidationFailure β) := by
  intro failure h
  cases h

theorem error {failure : ValidationFailure} (h : property failure) :
    FailsWith property (.error failure : Except ValidationFailure β) := by
  intro failure' h'
  cases h'
  exact h

theorem bind {first : Except ValidationFailure β} {next : β → Except ValidationFailure γ}
    (hfirst : FailsWith property first) (hnext : ∀ value, FailsWith property (next value)) :
    FailsWith property (first >>= next) := by
  cases first with
  | ok value => exact hnext value
  | error failure => exact error (hfirst failure rfl)

theorem require {failure : TransactionResultCode → ValidationFailure}
    {check : Option TransactionResultCode} (h : ∀ code, property (failure code)) :
    FailsWith property (require failure check) := by
  cases check with
  | none => exact ok
  | some code => exact error (h code)

omit [DecidableEq α] [DecidableEq η] in
theorem loadAccount {id : α} {failure : ValidationFailure} (h : property failure) :
    FailsWith property (loadAccount accounts id failure) := by
  unfold Execution.loadAccount
  split
  · exact error h
  · exact ok

end FailsWith

/-- A failure before the sequence check leaves the account alone. -/
def Early (failure : ValidationFailure) : Prop := failure.pastSeqCheck = false

theorem loadSources_early : FailsWith Early (loadSources rules ctx snapshot accounts tx) := by
  have houter (code : TransactionResultCode) : Early (outerIf tx.isFeeBump code) := by
    unfold outerIf
    split <;> rfl
  unfold loadSources
  refine .bind (.require houter) fun _ => ?_
  refine .bind (.require fun _ => rfl) fun _ => ?_
  split
  next feeSource _ =>
    refine .bind (.require fun _ => rfl) fun _ => ?_
    refine .bind (.loadAccount rfl) fun _ => ?_
    refine .bind (.require fun _ => rfl) fun _ => ?_
    refine .bind (.require fun _ => rfl) fun _ => ?_
    exact .bind (.loadAccount rfl) fun _ => .ok
  · refine .bind (.require fun _ => rfl) fun _ => ?_
    refine .bind (.require fun _ => rfl) fun _ => ?_
    exact .bind (.loadAccount rfl) fun _ => .ok

section

omit [DecidableEq α] [DecidableEq η]

/-- A failure after the sequence check spends the number, or is one of a wrapper. -/
theorem checkPastSequence_late :
    FailsWith (fun failure => failure.pastSeqCheck = true ∨ failure.feeBumpOuterFailure = true)
      (checkPastSequence rules ctx feeSourceAccount sourceAccount tx) := by
  unfold checkPastSequence
  refine .bind (.require fun _ => .inl rfl) fun _ => ?_
  refine .bind (.require fun _ => .inl rfl) fun _ => ?_
  refine .bind (.require fun _ => .inr rfl) fun _ => ?_
  refine .bind (.require fun _ => .inl rfl) fun _ => ?_
  split
  · exact .require fun _ => .inr rfl
  · exact .require fun _ => .inl rfl

theorem checkSequence_early : FailsWith Early (checkSequence ctx sourceAccount tx) := by
  unfold checkSequence
  split_ifs
  · exact .error rfl
  · exact .error rfl
  · exact .ok

end

theorem loadSources_source :
    Ensures (fun loaded => accounts tx.source = some loaded.2)
      (loadSources rules ctx snapshot accounts tx) := by
  unfold loadSources
  refine .skip fun _ => ?_
  refine .skip fun _ => ?_
  split
  next feeSource _ =>
    refine .skip fun _ => ?_
    refine .skip fun _ => ?_
    refine .skip fun _ => ?_
    refine .skip fun _ => ?_
    exact .bind (Ensures.result _) fun _ hfound => .ok (loadAccount_eq_ok hfound)
  · refine .skip fun _ => ?_
    refine .skip fun _ => ?_
    exact .bind (Ensures.result _) fun _ hfound => .ok (loadAccount_eq_ok hfound)

omit [DecidableEq α] [DecidableEq η] in
theorem checkSequence_above (h : checkSequence ctx sourceAccount tx = .ok ()) :
    sourceAccount.seqNum < tx.seqNum := by
  unfold checkSequence at h
  split_ifs at h with _ hbad
  unfold isBadSeq at hbad
  split at hbad
  · simp only [Bool.or_eq_true, decide_eq_true_eq, not_or] at hbad; omega
  · simp only [Bool.or_eq_true, decide_eq_true_eq, not_or, not_not] at hbad; omega

theorem removeFeeSourceSigner_ensures :
    Ensures (SameNumbers accounts) (removeFeeSourceSigner accounts tx) := by
  unfold removeFeeSourceSigner
  split
  · exact SameNumbers.removeAccountSigner _ _ _
  · exact .ok (SameNumbers.refl _)

omit [DecidableEq η] in
theorem bumpSourceSequence_eq (hentry : accounts tx.source = some entry) :
    bumpSourceSequence ctx accounts tx = Function.update accounts tx.source
      (some (({ entry with seqNum := tx.seqNum } : AccountEntry α η).updateSeqInfo ctx.ledgerSeq
        ctx.closeTime)) := by
  unfold bumpSourceSequence
  rw [hentry]
  rfl

/-- The pre-apply mutations spend the number of a transaction that is above it. -/
theorem innerPreapplyMutations_spends (ledgerSeq : Nat) {entry : AccountEntry α η}
    (hentry : accounts tx.source = some entry) (hlt : entry.seqNum < tx.seqNum) :
    Ensures (fun after => Moves ledgerSeq accounts after [.checked ⟨tx.source, tx.seqNum⟩])
      (innerPreapplyMutations ctx accounts tx) := by
  refine (SameNumbers.removeOneTimeSigners _ _ _).mono fun after hafter => ?_
  refine Moves.then_keeps ?_ (Keeps.of_sameNumbers hafter)
  intro id
  rw [marksOf_singleton, Event.mark, bumpSourceSequence_eq hentry]
  by_cases hid : tx.source = id
  · subst hid
    rw [if_pos rfl, seqOf, seqOf, hentry, Function.update_self]
    exact Advances.spend hlt
  · rw [if_neg hid, seqOf, seqOf, Function.update_of_ne fun h => hid h.symm]
    exact Advances.refl _ _

/-- Both pre-apply mutations together. -/
theorem mutations_spend {β : Type} {ledgerSeq : Nat} {result : Accounts α η → Accounts α η → β}
    {project : β → Accounts α η}
    (hproject : ∀ wrapped mutated, project (result wrapped mutated) = mutated)
    (hentry : accounts tx.source = some entry) (hlt : entry.seqNum < tx.seqNum) :
    Ensures (fun after =>
        Moves ledgerSeq accounts (project after) [.checked ⟨tx.source, tx.seqNum⟩])
      (removeFeeSourceSigner accounts tx >>= fun wrapped =>
        innerPreapplyMutations ctx wrapped tx >>= fun mutated => .ok (result wrapped mutated)) := by
  refine .bind removeFeeSourceSigner_ensures fun wrapped hwrapped => ?_
  obtain ⟨entry', hentry', hseq⟩ := hwrapped.exists_entry hentry
  refine .bind (innerPreapplyMutations_spends ledgerSeq hentry' (hseq ▸ hlt))
    fun mutated hmutated => .ok ?_
  rw [hproject, ← List.nil_append [Event.checked _]]
  exact (Moves.of_keeps (Keeps.of_sameNumbers hwrapped)).trans hmutated

/-- Where the wrapper does not fail late, a transaction that passes the sequence check
spends its number. -/
theorem preApply_moves (hwrapper : wrapperFailsLate rules ctx snapshot accounts tx = false) :
    Ensures (fun result => Moves ctx.ledgerSeq accounts result.1
        (checkEvents rules ctx snapshot accounts tx))
      (preApply rules ctx snapshot accounts tx) := by
  unfold wrapperFailsLate at hwrapper
  unfold preApply checkEvents
  unfold passesSequenceCheck at hwrapper ⊢
  cases hload : loadSources rules ctx snapshot accounts tx with
  | error failure =>
    have hearly : failure.pastSeqCheck = false := loadSources_early failure hload
    have hvalidate : validatePreconditions rules ctx snapshot accounts tx = .error failure := by
      unfold validatePreconditions
      rw [hload]
      rfl
    simp only [hvalidate, hearly, Bool.false_eq_true, if_false]
    exact .ok (Moves.of_keeps (Keeps.refl _))
  | ok loaded =>
    obtain ⟨feeSourceAccount, sourceAccount⟩ := loaded
    have hentry : accounts tx.source = some sourceAccount := loadSources_source _ hload
    have hsteps : validatePreconditions rules ctx snapshot accounts tx =
        (checkSequence ctx sourceAccount tx >>= fun _ =>
          checkPastSequence rules ctx feeSourceAccount sourceAccount tx) := by
      unfold validatePreconditions
      rw [hload]
      rfl
    cases hcheck : checkSequence ctx sourceAccount tx with
    | error failure =>
      have hearly : failure.pastSeqCheck = false := checkSequence_early failure hcheck
      rw [hcheck] at hsteps
      have hvalidate : validatePreconditions rules ctx snapshot accounts tx = .error failure :=
        hsteps
      simp only [hvalidate, hearly, Bool.false_eq_true, if_false, hcheck]
      exact .ok (Moves.of_keeps (Keeps.refl _))
    | ok _ =>
      have hlt : sourceAccount.seqNum < tx.seqNum := checkSequence_above hcheck
      rw [hcheck] at hsteps
      rw [hload] at hwrapper
      simp only [hcheck] at hwrapper ⊢
      cases hvalidate : validatePreconditions rules ctx snapshot accounts tx with
      | error failure =>
        rw [hvalidate] at hwrapper
        have houter : failure.feeBumpOuterFailure = false := hwrapper
        have hpast : failure.pastSeqCheck = true := by
          have hlate := checkPastSequence_late failure (hsteps.symm.trans hvalidate)
          simpa [houter] using hlate
        simp only [hpast, if_true]
        exact mutations_spend (fun _ _ => rfl) hentry hlt
      | ok _ => exact mutations_spend (fun _ _ => rfl) hentry hlt

end PreApply

end Henyey.Execution
