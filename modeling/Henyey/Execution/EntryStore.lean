import Mathlib.Data.Finset.Basic

/-!
# Rolling back entries

The entries of one type, with snapshots of what the keys held when a transaction first touched
them. An operation that fails, and every speculative path, is rolled back to a savepoint.
-/

namespace Henyey.Execution

open Function

variable {K V : Type} [DecidableEq K]

/-- Untracked keys have no snapshot; the snapshot of a key that did not exist is `some none`. -/
structure EntryStore (K V : Type) where
  entries : K → Option V
  snapshots : K → Option (Option V)
  created : Finset K
  modified : List K

structure EntryStoreSavepoint (K V : Type) where
  snapshots : K → Option (Option V)
  preValues : K → Option (Option V)
  created : Finset K
  modifiedLen : ℕ

namespace EntryStore

section Store

variable (store : EntryStore K V) (key : K) (value : V)

def ensureSnapshot : EntryStore K V :=
  match store.snapshots key with
  | some (some _) => store
  | _ => { store with snapshots := update store.snapshots key (some (store.entries key)) }

def ensureSnapshotOnFirst : EntryStore K V :=
  if (store.snapshots key).isNone then
    { store with snapshots := update store.snapshots key (some (store.entries key)) }
  else store

def trackModified (track : Bool) : EntryStore K V :=
  if track ∧ key ∉ store.modified then { store with modified := store.modified ++ [key] }
  else store

def insert : EntryStore K V :=
  { store with entries := update store.entries key (some value) }

/-- Write through the reference that is handed out. -/
def getMut : EntryStore K V :=
  if (store.entries key).isSome then
    ((store.ensureSnapshot key).trackModified key true).insert key value
  else store

def insertCreated : EntryStore K V :=
  let tracked := if (store.snapshots key).isNone then
    { store with snapshots := update store.snapshots key (some none) } else store
  ({ tracked with created := Insert.insert key tracked.created }.insert key value).trackModified
    key true

def insertUpdated (track : Bool) : EntryStore K V :=
  ((store.ensureSnapshotOnFirst key).insert key value).trackModified key track

def removeDeleted (track : Bool) : EntryStore K V :=
  let snapped := store.ensureSnapshotOnFirst key
  { snapped with entries := update snapped.entries key none }.trackModified key track

/-- Entries come from the ledger, unless the transaction has seen their keys. -/
def load (ledger : K → Option V) : EntryStore K V :=
  if (store.entries key).isNone ∧ (store.snapshots key).isNone then
    { store with entries := update store.entries key (ledger key) }
  else store

def createSavepoint : EntryStoreSavepoint K V :=
  ⟨store.snapshots, fun key => (store.snapshots key).map fun _ => store.entries key,
    store.created, store.modified.length⟩

def rollbackToSavepoint (sp : EntryStoreSavepoint K V) : EntryStore K V where
  entries key := (sp.preValues key).getD <|
    if (sp.snapshots key).isNone then (store.snapshots key).getD (store.entries key)
    else store.entries key
  snapshots := sp.snapshots
  created := sp.created
  modified := store.modified.take sp.modifiedLen

/-- Of a failed transaction. -/
def rollback : EntryStore K V where
  entries key :=
    match store.snapshots key with
    | none => store.entries key
    | some snapshot => if key ∈ store.created then none else snapshot.or (store.entries key)
  snapshots _ := none
  created := ∅
  modified := []

end Store

/-- What operations do to a store. Entries are loaded before; an attempt is rolled back to its
savepoint when it fails. -/
inductive Program (K V : Type) where
  | done
  | getMut (key : K) (value : V) (rest : Program K V)
  | create (key : K) (value : V) (rest : Program K V)
  | update (key : K) (value : V) (track : Bool) (rest : Program K V)
  | delete (key : K) (track : Bool) (rest : Program K V)
  | attempt (inner : Program K V) (failed : Bool) (rest : Program K V)

variable (ledger : K → Option V)

def run : Program K V → EntryStore K V → EntryStore K V
  | .done, store => store
  | .getMut key value rest, store => run rest ((store.load key ledger).getMut key value)
  | .create key value rest, store => run rest ((store.load key ledger).insertCreated key value)
  | .update key value track rest, store =>
    run rest ((store.load key ledger).insertUpdated key value track)
  | .delete key track rest, store => run rest ((store.load key ledger).removeDeleted key track)
  | .attempt inner failed rest, store =>
    let tried := run inner store
    run rest (if failed then tried.rollbackToSavepoint store.createSavepoint else tried)

/-- No key is created that exists. A key that was created after `start` is not handed out for
writing, which would make its first value its snapshot. -/
def Careful (start : EntryStore K V) : Program K V → EntryStore K V → Prop
  | .done, _ => True
  | .getMut key value rest, store =>
    (store.snapshots key = some none → (start.snapshots key).isSome) ∧
      Careful start rest ((store.load key ledger).getMut key value)
  | .create key value rest, store => (store.load key ledger).entries key = none ∧
      Careful start rest ((store.load key ledger).insertCreated key value)
  | .update key value track rest, store =>
    Careful start rest ((store.load key ledger).insertUpdated key value track)
  | .delete key track rest, store =>
    Careful start rest ((store.load key ledger).removeDeleted key track)
  | .attempt inner failed rest, store => Careful start inner store ∧
    Careful start rest (if failed then
      (run ledger inner store).rollbackToSavepoint store.createSavepoint
    else run ledger inner store)

/-- What a lookup finds. -/
def view (store : EntryStore K V) (key : K) : Option V :=
  if (store.snapshots key).isNone then (store.entries key).or (ledger key) else store.entries key

variable {ledger} {start store after : EntryStore K V} {key : K} {value : V}

@[simp]
theorem trackModified_entries (track : Bool) :
    (store.trackModified key track).entries = store.entries := by
  unfold trackModified
  split <;> rfl

@[simp]
theorem trackModified_snapshots (track : Bool) :
    (store.trackModified key track).snapshots = store.snapshots := by
  unfold trackModified
  split <;> rfl

theorem prefix_trackModified (store : EntryStore K V) (key : K) (track : Bool) :
    store.modified <+: (store.trackModified key track).modified := by
  unfold trackModified
  split
  · exact List.prefix_append _ _
  · exact List.prefix_rfl

@[simp]
theorem ensureSnapshot_eq : (store.ensureSnapshot key).entries = store.entries ∧
    (store.ensureSnapshot key).modified = store.modified := by
  unfold ensureSnapshot
  split <;> exact ⟨rfl, rfl⟩

@[simp]
theorem ensureSnapshotOnFirst_eq : store.ensureSnapshotOnFirst key = { store with
    snapshots := update store.snapshots key
      (some ((store.snapshots key).getD (store.entries key))) } := by
  cases hsnapshot : store.snapshots key with
  | none => simp [ensureSnapshotOnFirst, hsnapshot]
  | some snapshot =>
    have hsame := update_eq_self key store.snapshots
    rw [hsnapshot] at hsame
    simp [ensureSnapshotOnFirst, hsnapshot, hsame]

@[simp]
theorem load_eq : (store.load key ledger).snapshots = store.snapshots ∧
    (store.load key ledger).modified = store.modified := by
  unfold load
  split <;> exact ⟨rfl, rfl⟩

/-- What was found at the start is still known. -/
structure Since (ledger : K → Option V) (start store : EntryStore K V) : Prop where
  tracked : ∀ key, (start.snapshots key).isSome → (store.snapshots key).isSome
  known : ∀ key, start.snapshots key = none →
    (store.snapshots key).getD (view ledger store key) = view ledger start key
  modified : start.modified <+: store.modified

/-- One key is touched. -/
theorem Since.touch (since : Since ledger start store) (key : K)
    (hother : ∀ other, other ≠ key → after.entries other = (store.load key ledger).entries other ∧
      after.snapshots other = store.snapshots other)
    (hself : after.snapshots key = store.snapshots key ∧ (store.snapshots key).isSome ∨
      store.snapshots key = none ∧
        after.snapshots key = some ((store.load key ledger).entries key) ∨
      (start.snapshots key).isSome ∧ (after.snapshots key).isSome)
    (hmodified : store.modified <+: after.modified) : Since ledger start after := by
  have hloaded : store.snapshots key = none →
      (store.load key ledger).entries key = view ledger store key := by
    intro hnone
    unfold load view
    cases hentry : store.entries key <;> simp [hnone, hentry]
  refine ⟨fun other hstart => ?_, fun other hstart => ?_, since.modified.trans hmodified⟩
  · have htracked := since.tracked other hstart
    by_cases heq : other = key
    · subst heq
      obtain ⟨hsame, -⟩ | ⟨hnone, -⟩ | ⟨-, hsome⟩ := hself
      · rwa [hsame]
      · simp [hnone] at htracked
      · exact hsome
    · rwa [(hother other heq).2]
  · have hknown := since.known other hstart
    by_cases heq : other = key
    · subst heq
      obtain ⟨hsame, hsome⟩ | ⟨hnone, hfirst⟩ | ⟨hsome, -⟩ := hself
      · obtain ⟨snapshot, hsnapshot⟩ := Option.isSome_iff_exists.mp hsome
        rw [hsame]
        simpa [hsnapshot] using hknown
      · simpa [hfirst, hloaded hnone, hnone] using hknown
      · simp [hstart] at hsome
    · obtain ⟨hentries, hsnapshots⟩ := hother other heq
      have hsame : (store.load key ledger).entries other = store.entries other := by
        unfold load
        split <;> simp [heq]
      rwa [hsnapshots, view, hsnapshots, hentries, hsame]

section

omit [DecidableEq K]

theorem Since.refl (start : EntryStore K V) : Since ledger start start :=
  ⟨fun _ hsome => hsome, fun key hnone => by simp [hnone], List.prefix_rfl⟩

/-- A rollback to the savepoint finds what was found there. -/
theorem Since.rollback (since : Since ledger start store) :
    view ledger (store.rollbackToSavepoint start.createSavepoint) = view ledger start ∧
      (store.rollbackToSavepoint start.createSavepoint).modified = start.modified := by
  constructor
  · funext key
    cases hstart : start.snapshots key with
    | some snapshot => simp [view, rollbackToSavepoint, createSavepoint, hstart]
    | none =>
      have hknown := since.known key hstart
      cases hnow : store.snapshots key <;> simp only [hnow, Option.getD_none, Option.getD_some,
        view, Option.isNone_none, if_true, hstart] at hknown
      all_goals
        simp [view, rollbackToSavepoint, createSavepoint, hstart, hnow, hknown, Option.or_assoc]
  · obtain ⟨later, hlater⟩ := since.modified
    simp [rollbackToSavepoint, createSavepoint, ← hlater]

/-- A rolled back attempt leaves no trace. -/
theorem Since.attempt (since : Since ledger start store) (tried : Since ledger store after) :
    Since ledger start (after.rollbackToSavepoint store.createSavepoint) := by
  obtain ⟨hview, hmodified⟩ := tried.rollback
  refine ⟨since.tracked, fun key hstart => ?_, hmodified ▸ since.modified⟩
  rw [hview]
  exact since.known key hstart

end

theorem Careful.mono {program : Program K V} {later : EntryStore K V}
    (hlater : ∀ key, (start.snapshots key).isSome → (later.snapshots key).isSome)
    (careful : Careful ledger start program store) : Careful ledger later program store := by
  induction program generalizing store with
  | done => trivial
  | getMut key value rest ih => exact ⟨fun hnone => hlater key (careful.1 hnone), ih careful.2⟩
  | create key value rest ih => exact ⟨careful.1, ih careful.2⟩
  | update key value track rest ih => exact ih careful
  | delete key track rest ih => exact ih careful
  | attempt inner failed rest ihInner ihRest => exact ⟨ihInner careful.1, ihRest careful.2⟩

theorem load_of_none (hnone : (store.load key ledger).entries key = none) :
    store.load key ledger = store := by
  by_cases hunseen : (store.entries key).isNone ∧ (store.snapshots key).isNone
  · rw [load, if_pos hunseen] at hnone ⊢
    have hledger : ledger key = none := by simpa using hnone
    rw [hledger, ← Option.isNone_iff_eq_none.mp hunseen.1, update_eq_self]
  · rw [load, if_neg hunseen]

theorem since_run (program : Program K V) (since : Since ledger start store)
    (careful : Careful ledger start program store) :
    Since ledger start (run ledger program store) := by
  induction program generalizing start store with
  | done => exact since
  | getMut key value rest ih =>
    refine ih ?_ careful.2
    by_cases hsome : ((store.load key ledger).entries key).isSome
    · -- A key that was created since is not handed out.
      rw [getMut, if_pos hsome]
      refine since.touch key (fun other hne => ?_) ?_ ?_
      · refine ⟨by simp [insert, hne], ?_⟩
        unfold ensureSnapshot
        split <;> simp [insert, hne]
      · unfold ensureSnapshot
        rcases hsnapshot : store.snapshots key with _ | _ | snapshot
        · simp [insert, hsnapshot]
        · simp [insert, hsnapshot, careful.1 hsnapshot]
        · simp [insert, hsnapshot]
      · exact List.IsPrefix.trans (by simp) (prefix_trackModified _ key true)
    · rwa [getMut, if_neg hsome, load_of_none (by simpa using hsome)]
  | create key value rest ih =>
    refine ih (since.touch key (fun other hne => ?_) ?_ ?_) careful.2
    · unfold insertCreated
      split <;> simp [insert, hne]
    · unfold insertCreated
      cases hsnapshot : store.snapshots key <;> simp [insert, hsnapshot, careful.1]
    · unfold insertCreated
      exact List.IsPrefix.trans (by split <;> simp [insert]) (prefix_trackModified _ key true)
  | update key value track rest ih =>
    refine ih (since.touch key (fun other hne => ?_) ?_ ?_) careful
    · simp [insertUpdated, insert, hne]
    · cases hsnapshot : store.snapshots key <;> simp [insertUpdated, insert, hsnapshot]
    · exact List.IsPrefix.trans (by simp [insert]) (prefix_trackModified _ key track)
  | delete key track rest ih =>
    refine ih (since.touch key (fun other hne => ?_) ?_ ?_) careful
    · simp [removeDeleted, hne]
    · cases hsnapshot : store.snapshots key <;> simp [removeDeleted, hsnapshot]
    · exact List.IsPrefix.trans (by simp) (prefix_trackModified _ key track)
  | attempt inner failed rest ihInner ihRest =>
    refine ihRest ?_ careful.2
    cases failed with
    | false => exact ihInner since careful.1
    | true => exact since.attempt (ihInner (Since.refl store) (careful.1.mono since.tracked))

/-- A failed attempt leaves what lookups find and what is tracked as it was. -/
theorem attempt_exact (ledger : K → Option V) (store : EntryStore K V) (program : Program K V)
    (careful : Careful ledger store program store) :
    let after := (run ledger program store).rollbackToSavepoint store.createSavepoint
    view ledger after = view ledger store ∧ after.snapshots = store.snapshots ∧
      after.created = store.created ∧ after.modified = store.modified := by
  obtain ⟨hview, hmodified⟩ := (since_run program (Since.refl store) careful).rollback
  exact ⟨hview, rfl, rfl, hmodified⟩

theorem attempt_exact_nested : view (fun _ : ℕ => some 3) ((run (fun _ => some 3)
    (.getMut 1 4 (.attempt (.delete 1 false (.create 1 5 .done)) true (.update 2 6 true .done)))
    ⟨fun _ => none, fun _ => none, ∅, []⟩).rollbackToSavepoint
      (createSavepoint ⟨fun _ => none, fun _ => none, ∅, []⟩)) = fun _ => some 3 :=
  (attempt_exact (fun _ : ℕ => some 3) ⟨fun _ => none, fun _ => none, ∅, []⟩
    (.getMut 1 4 (.attempt (.delete 1 false (.create 1 5 .done)) true (.update 2 6 true .done)))
    ⟨by decide, ⟨by decide, trivial⟩, trivial⟩).1

/-- An entry that was created and handed out survives the rollback. -/
example : view (fun _ : ℕ => none) ((run (fun _ => none) (.create 1 4 (.getMut 1 5 .done))
    ⟨fun _ => none, fun _ => none, ∅, []⟩).rollbackToSavepoint
      (createSavepoint ⟨fun _ => none, fun _ => none, ∅, []⟩)) 1 = some 4 := by
  decide

/-- A failed transaction restores what it found exactly if every key that counts as created was
found as it is in the ledger and nothing is left at other keys that did not exist. -/
theorem rollback_iff (hfresh : ∀ key, start.snapshots key = none) (program : Program K V)
    (careful : Careful ledger start program start) :
    let after := run ledger program start
    view ledger after.rollback = view ledger start ↔
      ∀ key snapshot, after.snapshots key = some snapshot →
        if key ∈ after.created then ledger key = view ledger start key
        else snapshot = none → after.entries key = none := by
  intro after
  have since : Since ledger start after := since_run program (Since.refl start) careful
  rw [funext_iff]
  refine forall_congr' fun key => ?_
  have hknown := since.known key (hfresh key)
  cases hsnapshot : after.snapshots key with
  | none => simpa [view, rollback, hsnapshot] using hknown
  | some snapshot =>
    replace hknown : snapshot = view ledger start key := by simpa [hsnapshot] using hknown
    rw [← hknown]
    by_cases hcreated : key ∈ after.created
    · simp [hcreated, view, rollback, hsnapshot]
    · cases snapshot with
      | some value => simp [hcreated, view, rollback, hsnapshot]
      | none =>
        have hledger : ledger key = none := by
          simp only [view, hfresh key, Option.isNone_none, if_true] at hknown
          exact (Option.or_eq_none_iff.mp hknown.symm).2
        simp [hcreated, view, rollback, hsnapshot, hledger]

/-- What an earlier transaction wrote is lost when it is deleted and created anew. -/
theorem rollback_iff_recreated : view (fun _ : ℕ => some 3)
    (run (fun _ => some 3) (.delete 1 false (.create 1 5 .done))
      ⟨fun _ => some 4, fun _ => none, ∅, []⟩).rollback ≠
        view (fun _ => some 3) ⟨fun _ => some 4, fun _ => none, ∅, []⟩ := fun hsame =>
  absurd ((rollback_iff (fun _ => rfl) (.delete 1 false (.create 1 5 .done))
    ⟨by decide, trivial⟩).mp hsame 1 (some 4) (by decide)) (by decide)

end EntryStore

end Henyey.Execution
