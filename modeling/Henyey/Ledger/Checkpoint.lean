import Henyey.Foundation.Writes
import Henyey.Ledger.Coalescing

/-!
# Changes since a checkpoint

The difference of a delta to one of its checkpoints leads from what readers saw
then to what they see now.
-/

namespace Henyey.Ledger

open Foundation LedgerEntryChange

variable {I D : Type} [DecidableEq I]

/-- What readers see under a key with a change on top of the ledger. -/
def viewOf (change : Option (EntryChange I D)) (before : Option (LedgerEntry I D)) :
    Option (LedgerEntry I D) :=
  match change with
  | some change => change.visibleEntry
  | none => before

/-- What readers see through a delta. -/
def LedgerDelta.view (d : LedgerDelta I D) (pre : LedgerMap I D) : LedgerMap I D := fun key =>
  viewOf (d.changes key) (pre key)

omit [DecidableEq I] in
/-- What a line of metadata writes; states only remind of the entry before. -/
def LedgerEntryChange.write : LedgerEntryChange I D →
    Option (LedgerKey I × Option (LedgerEntry I D))
  | .created entry => some (entryToKey entry, some entry)
  | .updated entry => some (entryToKey entry, some entry)
  | .removed key => some (key, none)
  | .state _ => none

def LedgerMap.applyChanges (map : LedgerMap I D) (changes : List (LedgerEntryChange I D)) :
    LedgerMap I D :=
  applyWrites (changes.filterMap write) map

variable {pre : LedgerMap I D} {s s' : Performed I D} {d d' : LedgerDelta I D}

variable [DecidableEq D]

/-- What the first phase writes under a key: the change now, if it shows another
entry than the change at the checkpoint. -/
def writtenSince (before after : Option (EntryChange I D)) : Option (Option (LedgerEntry I D)) :=
  match after, before with
  | none, _ => none
  | some change, some cpChange =>
    if cpChange.visibleEntry = change.visibleEntry then none else some change.visibleEntry
  | some change, none => some change.visibleEntry

omit [DecidableEq I] [DecidableEq D] in
/-- What the second phase writes under a key: its entry has vanished. -/
def vanishedSince (before after : Option (EntryChange I D)) : Option (Option (LedgerEntry I D)) :=
  match after, before.bind EntryChange.visibleEntry with
  | none, some _ => some none
  | _, _ => none

variable {key : LedgerKey I}

theorem emitDiff_writes {before after : Option (LedgerEntry I D)}
    (hkey : ∀ e ∈ after, entryToKey e = key) :
    (emitDiff key before after).filterMap write =
      if before = after then [] else [(key, after)] := by
  cases before with
  | none =>
    cases after with
    | none => rfl
    | some v2 => simp [emitDiff, write, hkey v2 rfl]
  | some v1 =>
    cases after with
    | none => simp [emitDiff, List.filterMap_cons, write]
    | some v2 =>
      by_cases hsame : v1 = v2
      · simp [emitDiff, hsame]
      · simp [emitDiff, hsame, List.filterMap_cons, write, hkey v2 rfl]

section

omit [DecidableEq I] [DecidableEq D]

theorem emitNewEntry_writes {change : EntryChange I D} (hunder : change.Under key) :
    (emitNewEntry change).filterMap write = [(key, change.visibleEntry)] := by
  cases change with
  | created entry =>
    simp [emitNewEntry, write, EntryChange.visibleEntry, show entryToKey entry = key from hunder]
  | updated previous current =>
    simp [emitNewEntry, List.filterMap_cons, write, EntryChange.visibleEntry,
      show entryToKey current = key from hunder.2]
  | deleted previous =>
    simp [emitNewEntry, List.filterMap_cons, write, EntryChange.visibleEntry,
      show entryToKey previous = key from hunder]

theorem visibleEntry_under {change : EntryChange I D}
    (hunder : change.Under key) : ∀ e ∈ change.visibleEntry, entryToKey e = key := by
  intro e he
  cases change with
  | created entry => exact Option.some.inj he ▸ hunder
  | updated previous current => exact Option.some.inj he ▸ hunder.2
  | deleted previous => cases he

theorem flatMap_writes {keys : List (LedgerKey I)}
    {emit : LedgerKey I → List (LedgerEntryChange I D)}
    {value : LedgerKey I → Option (Option (LedgerEntry I D))}
    (hemit : ∀ key ∈ keys, (emit key).filterMap write =
      ((value key).map fun written => (key, written)).toList) :
    (keys.flatMap emit).filterMap write = pointWrites keys value := by
  induction keys with
  | nil => rfl
  | cons key keys ih =>
    have hhead := hemit key List.mem_cons_self
    have htail := ih fun k hk => hemit k (List.mem_cons_of_mem _ hk)
    rw [List.flatMap_cons, List.filterMap_append, hhead, htail, pointWrites,
      pointWrites, List.filterMap_cons]
    cases value key <;> rfl

end

theorem changesSince_writes (hd : d.WellFormed) (hd' : d'.WellFormed) :
    (d'.changesSince d.checkpoint).filterMap write =
      pointWrites d'.changeOrder (fun key => writtenSince (d.changes key) (d'.changes key)) ++
        pointWrites d.changeOrder (fun key => vanishedSince (d.changes key) (d'.changes key)) := by
  have hsame (key : LedgerKey I) : d.checkpoint.entries key = d.changes key := rfl
  unfold LedgerDelta.changesSince
  rw [List.filterMap_append]
  congr 1
  · refine flatMap_writes fun key _ => ?_
    cases hchange : d'.changes key with
    | none => rfl
    | some change =>
      have hunder := hd'.under key change hchange
      dsimp only
      rw [hsame]
      cases d.changes key with
      | none => exact emitNewEntry_writes hunder
      | some cpChange =>
        dsimp only [writtenSince]
        rw [emitDiff_writes (visibleEntry_under hunder)]
        split <;> rfl
  · refine flatMap_writes fun key _ => ?_
    cases hchange : d'.changes key with
    | some change => rfl
    | none =>
      have hunder := hd.under key
      rw [if_neg (by simp), hsame]
      cases hbefore : (d.changes key).bind EntryChange.visibleEntry with
      | none => simp [vanishedSince, hbefore]
      | some v1 =>
        obtain ⟨change, hchange', hvisible⟩ := Option.bind_eq_some_iff.mp hbefore
        have hkey := visibleEntry_under (hunder change hchange') v1 hvisible
        simp [vanishedSince, hbefore, List.filterMap_cons, write, hkey]

theorem view_since {before now now' : Option (LedgerEntry I D)} {touched touched' : Bool}
    {change change' : Option (EntryChange I D)} (hchange : Coalesced before now touched change)
    (hchange' : Coalesced before now' touched' change')
    (htouched : touched = true → touched' = true) :
    (vanishedSince change change').getD
        ((writtenSince change change').getD (viewOf change before)) = viewOf change' before := by
  cases change' with
  | some change' =>
    -- the key is in the delta now: the first phase compares the views
    cases change with
    | none => rfl
    | some change =>
      by_cases hvisible : change.visibleEntry = change'.visibleEntry
      · simp [vanishedSince, writtenSince, viewOf, hvisible]
      · simp [vanishedSince, writtenSince, viewOf, hvisible]
  | none =>
    cases hchange' with
    | unchanged hsame' hvoid' =>
      -- the key is not in the delta now: it was created and deleted again
      cases hchange with
      | unchanged hsame hvoid => rfl
      | created hbefore _ _ => simp [vanishedSince, viewOf, EntryChange.visibleEntry, hbefore]
      | updated hbefore _ ht => simp [hvoid' (htouched ht)] at hbefore
      | deleted hbefore _ ht => simp [hvoid' (htouched ht)] at hbefore

theorem applyChanges_changesSince (htracks : Tracks pre s d) (htracks' : Tracks pre s' d')
    (htouched : ∀ key, s.touched key = true → s'.touched key = true) :
    (d.view pre).applyChanges (d'.changesSince d.checkpoint) = d'.view pre := by
  have hlisted : ∀ key, (writtenSince (d.changes key) (d'.changes key)).isSome →
      key ∈ d'.changeOrder := by
    intro key hwritten
    rw [htracks'.wellFormed.listed]
    cases hchange : d'.changes key with
    | none => simp [writtenSince, hchange] at hwritten
    | some change => rfl
  have hlisted' : ∀ key, (vanishedSince (d.changes key) (d'.changes key)).isSome →
      key ∈ d.changeOrder := by
    intro key hvanished
    rw [htracks.wellFormed.listed]
    cases hchange : d.changes key with
    | none =>
      rw [hchange] at hvanished
      cases d'.changes key <;> simp [vanishedSince] at hvanished
    | some change => rfl
  unfold LedgerMap.applyChanges
  rw [changesSince_writes htracks.wellFormed htracks'.wellFormed, applyWrites_append]
  funext key
  rw [applyWrites_pointWrites htracks.wellFormed.nodup hlisted',
    applyWrites_pointWrites htracks'.wellFormed.nodup hlisted]
  exact view_since (htracks.coalesced key) (htracks'.coalesced key) (htouched key)

end Henyey.Ledger
