import Henyey.Foundation.Hoare
import Henyey.Ledger.Checkpoint

/-!
# The ledger during its close

Upgrades read the snapshot through the delta of the close and write to the delta.
A program that fails leaves in the delta what it has recorded before.
-/

namespace Henyey.Upgrading

open Foundation Ledger

variable {I D S α : Type}

inductive UpgradeError where
  | ledger (error : LedgerError)
  | internal (message : String)
  | upgradeError (message : String)

/-- The delta of a close over the snapshot that the close began with. -/
structure CloseLedgerState (I D : Type) where
  snapshot : LedgerMap I D
  current : LedgerDelta I D
  ledgerSeq : U32

/-- What upgrades write: the ledger, and the Soroban state that is held in memory. -/
structure CloseState (I D S : Type) where
  ltx : CloseLedgerState I D
  sorobanState : S

/-- A program of the close; what it wrote stays when it fails. -/
abbrev CloseM (I D S : Type) : Type → Type := EStateM UpgradeError (CloseState I D S)

/-- Current delta first, then the snapshot. -/
def CloseLedgerState.getEntry (ltx : CloseLedgerState I D) (key : LedgerKey I) :
    Option (LedgerEntry I D) :=
  match ltx.current.changes key with
  | some change => change.visibleEntry
  | none => ltx.snapshot key

/-- Read through the close. -/
def getEntry (key : LedgerKey I) : CloseM I D S (Option (LedgerEntry I D)) :=
  fun s => .ok (s.ltx.getEntry key) s

variable [DecidableEq I]

/-- Record one operation in the delta. -/
def record (op : LedgerOp I D) : CloseM I D S Unit := fun s =>
  match s.ltx.current.record op with
  | .ok current => .ok () { s with ltx := { s.ltx with current := current } }
  | .error error => .error (.ledger error) s

def recordCreate (entry : LedgerEntry I D) : CloseM I D S Unit := record (.create entry)

def recordUpdate (previous current : LedgerEntry I D) : CloseM I D S Unit :=
  record (.update previous current)

omit [DecidableEq I] in
def recordFeePoolDelta (amount : Int64) : CloseM I D S Unit := fun s =>
  .ok () { s with ltx := { s.ltx with current := s.ltx.current.recordFeePoolDelta amount } }

variable [DecidableEq D]

/-- Run a program and tell what it has changed; the changes of a failing program
stay, they are only not told. -/
def captureEntryChanges (program : CloseM I D S α) :
    CloseM I D S (α × List (LedgerEntryChange I D)) := do
  let cp := (← get).ltx.current.checkpoint
  let result ← program
  return (result, (← get).ltx.current.changesSince cp)

/-! ### What a program of the close leaves -/

section

omit [DecidableEq D]

/-- No state: a program does not fail. -/
def never (_ : CloseState I D S) : Prop := False

/-- Readers see the entry under its key, and nothing else has changed. -/
structure Wrote (entry : LedgerEntry I D) (before after : CloseState I D S) : Prop where
  getEntry : after.ltx.getEntry =
    Function.update before.ltx.getEntry (entryToKey entry) (some entry)
  sorobanState : after.sorobanState = before.sorobanState

variable {s : CloseState I D S}

/-- An operation that the delta accepts is seen under its key. -/
theorem triple_record {op : LedgerOp I D} {entry : LedgerEntry I D} {current : LedgerDelta I D}
    {change : EntryChange I D} (hrecord : s.ltx.current.record op = .ok current)
    (hchanges : current.changes =
      Function.update s.ltx.current.changes (entryToKey entry) (some change))
    (hvisible : change.visibleEntry = some entry) :
    Triple (· = s) (record op) (fun _ reached => Wrote entry s reached) never := by
  rintro start rfl
  rw [record, hrecord]
  refine ⟨funext fun key => ?_, rfl⟩
  by_cases hkey : key = entryToKey entry
  · subst hkey
    simp [CloseLedgerState.getEntry, hchanges, hvisible]
  · simp [CloseLedgerState.getEntry, hchanges, hkey]

/-- A creation is never refused. -/
theorem triple_recordCreate (entry : LedgerEntry I D) :
    Triple (· = s) (recordCreate entry) (fun _ reached => Wrote entry s reached) never := by
  obtain ⟨current, change, hrecord, hchanges, hvisible⟩ : ∃ current change,
      s.ltx.current.recordCreate entry = .ok current ∧ current.changes =
        Function.update s.ltx.current.changes (entryToKey entry) (some change) ∧
          change.visibleEntry = some entry := by
    unfold LedgerDelta.recordCreate
    dsimp only
    split <;> exact ⟨_, _, rfl, rfl, rfl⟩
  exact triple_record hrecord hchanges hvisible

/-- An update is refused for a TTL entry only. -/
theorem triple_recordUpdate (previous : LedgerEntry I D) {entry : LedgerEntry I D}
    (hkey : (entryToKey entry).isTtl = false) :
    Triple (· = s) (recordUpdate previous entry) (fun _ reached => Wrote entry s reached)
      never := by
  obtain ⟨current, change, hrecord, hchanges, hvisible⟩ : ∃ current change,
      s.ltx.current.recordUpdate previous entry = .ok current ∧ current.changes =
        Function.update s.ltx.current.changes (entryToKey entry) (some change) ∧
          change.visibleEntry = some entry := by
    simp only [LedgerDelta.recordUpdate, mergeTtlCurrent, hkey, if_true]
    split <;> exact ⟨_, _, rfl, rfl, rfl⟩
  exact triple_record hrecord hchanges hvisible

omit [DecidableEq I] in
theorem triple_recordFeePoolDelta (amount : Int64) :
    Triple (· = s) (recordFeePoolDelta amount)
      (fun _ reached => reached.ltx.getEntry = s.ltx.getEntry ∧
        reached.sorobanState = s.sorobanState) never := by
  rintro start rfl
  exact ⟨rfl, rfl⟩

omit [DecidableEq I] in
theorem triple_getEntry (key : LedgerKey I) :
    Triple (· = s) (getEntry key)
      (fun entry reached => reached = s ∧ entry = s.ltx.getEntry key) never := by
  rintro start rfl
  exact ⟨rfl, rfl⟩

end

/-- Telling the changes leaves what the program leaves. -/
theorem triple_captureEntryChanges {program : CloseM I D S α}
    {pre kept failed : CloseState I D S → Prop}
    (hprogram : Triple pre program (fun _ => kept) failed) :
    Triple pre (captureEntryChanges program) (fun _ => kept) failed := by
  unfold captureEntryChanges
  refine .bind .get fun before => ?_
  refine .bind (hprogram.strengthen fun _ h => h.2) fun value => ?_
  exact .bind .get fun after => .pure fun _ h => h.2

end Henyey.Upgrading
