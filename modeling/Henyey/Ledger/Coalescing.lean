import Henyey.Ledger.Delta

/-!
# Coalescing the changes of a key

A delta keeps one change for each key. Whatever was recorded, that change tells
what the ledger had and what it has now. An update cannot shorten the life of a
TTL entry of the ledger that was written before.
-/

namespace Henyey.Ledger

open EntryChange

variable {I D : Type}

/-- One recorded operation. -/
inductive LedgerOp (I D : Type) where
  | create (entry : LedgerEntry I D)
  | update (previous current : LedgerEntry I D)
  | delete (entry : LedgerEntry I D)
deriving DecidableEq

namespace LedgerOp

def key : LedgerOp I D → LedgerKey I
  | create entry => entryToKey entry
  | update _ current => entryToKey current
  | delete entry => entryToKey entry

def refused : LedgerOp I D → Bool
  | delete entry => entry.data.isConfigSetting
  | _ => false

def Legal (map : LedgerMap I D) : LedgerOp I D → Prop
  | create entry => map (entryToKey entry) = none
  | update previous current =>
    entryToKey previous = entryToKey current ∧ (map (entryToKey current)).isSome
  | delete entry => (map (entryToKey entry)).isSome

instance [DecidableEq I] [DecidableEq D] (map : LedgerMap I D) (op : LedgerOp I D) :
    Decidable (op.Legal map) := by
  cases op <;> unfold Legal <;> infer_instance

end LedgerOp

/-- Of two writes to one TTL entry, the one that lives longer; of other writes,
the last. -/
def later (existing incoming : LedgerEntry I D) : LedgerEntry I D :=
  if (entryToKey incoming).isTtl ∧ incoming.liveUntil ≤ existing.liveUntil then existing
  else incoming

variable {existing incoming : LedgerEntry I D}

section

variable (hkey : entryToKey existing = entryToKey incoming)
include hkey

theorem mergeTtlCurrent_eq :
    mergeTtlCurrent (entryToKey incoming) existing incoming = .ok (later existing incoming) := by
  unfold mergeTtlCurrent later
  split
  next hother => simp [hother]
  next httl =>
    rw [Bool.not_eq_false] at httl
    obtain ⟨_, old, hold⟩ := liveUntil_of_isTtl (hkey ▸ httl)
    obtain ⟨_, new, hnew⟩ := liveUntil_of_isTtl httl
    by_cases hlt : old < new
    · simp [hold, hnew, httl, LedgerEntry.liveUntil, hlt]
    · simp [hold, hnew, httl, LedgerEntry.liveUntil, hlt, not_lt.mp hlt]

theorem entryToKey_later : entryToKey (later existing incoming) = entryToKey incoming := by
  unfold later
  split
  · exact hkey
  · rfl

end

/-! ### One key -/

def EntryChange.recorded : LedgerOp I D → Option (EntryChange I D) → Option (EntryChange I D)
  | .create entry, some (.updated previous _) => some (.updated previous entry)
  | .create entry, some (.deleted previous) => some (.updated previous entry)
  | .create entry, _ => some (.created entry)
  | .update _ current, some (.created _) => some (.created current)
  | .update _ current, some (.updated orig existing) => some (.updated orig (later existing current))
  | .update _ current, some (.deleted orig) => some (.updated orig current)
  | .update previous current, none => some (.updated previous current)
  | .delete _, some (.created _) => none
  | .delete _, some (.updated previous _) => some (.deleted previous)
  | .delete _, some (.deleted previous) => some (.deleted previous)
  | .delete entry, none => some (.deleted entry)

def EntryChange.Under (key : LedgerKey I) : EntryChange I D → Prop
  | .created entry => entryToKey entry = key
  | .updated previous current => entryToKey previous = key ∧ entryToKey current = key
  | .deleted previous => entryToKey previous = key

namespace LedgerDelta

variable [DecidableEq I]

/-- The keys are listed once each, and every change lies under its own key. -/
structure WellFormed (d : LedgerDelta I D) : Prop where
  nodup : d.changeOrder.Nodup
  listed : ∀ key, key ∈ d.changeOrder ↔ (d.changes key).isSome
  under : ∀ key, ∀ change ∈ d.changes key, change.Under key

omit [DecidableEq I] in
theorem wellFormed_new (ledgerSeq : U32) : (new ledgerSeq : LedgerDelta I D).WellFormed where
  nodup := List.nodup_nil
  listed := by simp [new]
  under := by simp [new]

/-- A delta that differs in one key only. -/
structure Replaces (key : LedgerKey I) (change : Option (EntryChange I D))
    (d d' : LedgerDelta I D) : Prop where
  changes : d'.changes = Function.update d.changes key change
  wellFormed : d.WellFormed → (∀ c ∈ change, c.Under key) → d'.WellFormed
  ledgerSeq : d'.ledgerSeq = d.ledgerSeq
  feePoolDelta : d'.feePoolDelta = d.feePoolDelta
  totalCoinsDelta : d'.totalCoinsDelta = d.totalCoinsDelta

variable {d d' : LedgerDelta I D} {key : LedgerKey I} {change : EntryChange I D}

theorem under_update {changes : LedgerKey I → Option (EntryChange I D)}
    {change : Option (EntryChange I D)} (hunder : ∀ k, ∀ c ∈ changes k, c.Under k)
    (hchange : ∀ c ∈ change, c.Under key) :
    ∀ k, ∀ c ∈ Function.update changes key change k, c.Under k := by
  intro k c hc
  by_cases hk : k = key
  · subst hk
    rw [Function.update_self] at hc
    exact hchange c hc
  · rw [Function.update_of_ne hk] at hc
    exact hunder k c hc

theorem insert_replaces (hsome : d.changes key = some change) (change' : EntryChange I D) :
    d.Replaces key (some change') (d.insert key change') where
  changes := rfl
  wellFormed := fun hd hunder =>
    { nodup := hd.nodup
      listed := by
        intro k
        by_cases hk : k = key
        · subst hk
          simp [insert, hd.listed, hsome]
        · simp [insert, hd.listed, Function.update_of_ne hk]
      under := under_update hd.under hunder }
  ledgerSeq := rfl
  feePoolDelta := rfl
  totalCoinsDelta := rfl

theorem push_replaces (hnone : d.changes key = none) :
    d.Replaces key (some change) (d.push key change) where
  changes := rfl
  wellFormed := fun hd hunder =>
    have hfresh : key ∉ d.changeOrder := by simp [hd.listed, hnone]
    { nodup := by
        refine List.Nodup.append hd.nodup (List.nodup_singleton key) ?_
        simpa using hfresh
      listed := by
        intro k
        by_cases hk : k = key
        · subst hk
          simp [push, insert]
        · simp [push, insert, hd.listed, hk]
      under := under_update hd.under hunder }
  ledgerSeq := rfl
  feePoolDelta := rfl
  totalCoinsDelta := rfl

theorem remove_replaces : d.Replaces key none (d.remove key) where
  changes := rfl
  wellFormed := fun hd hunder =>
    { nodup := hd.nodup.filter _
      listed := by
        intro k
        by_cases hk : k = key
        · subst hk
          simp [remove]
        · simp [remove, hd.listed, hk]
      under := under_update hd.under hunder }
  ledgerSeq := rfl
  feePoolDelta := rfl
  totalCoinsDelta := rfl

theorem Replaces.same (hsame : d.changes key = some change) : d.Replaces key (some change) d where
  changes := by rw [← hsame, Function.update_eq_self]
  wellFormed := fun hd _ => hd
  ledgerSeq := rfl
  feePoolDelta := rfl
  totalCoinsDelta := rfl

theorem recordCreate_replaces (entry : LedgerEntry I D) :
    ∃ d', d.recordCreate entry = .ok d' ∧ d.Replaces (entryToKey entry)
      (recorded (.create entry) (d.changes (entryToKey entry))) d' := by
  unfold recordCreate
  dsimp only
  cases hchange : d.changes (entryToKey entry) with
  | none => exact ⟨_, rfl, push_replaces hchange⟩
  | some change =>
    cases change with
    | created _ => exact ⟨_, rfl, insert_replaces hchange _⟩
    | updated previous _ => exact ⟨_, rfl, insert_replaces hchange _⟩
    | deleted previous => exact ⟨_, rfl, insert_replaces hchange _⟩

theorem recordUpdate_replaces (hd : d.WellFormed) (previous current : LedgerEntry I D) :
    ∃ d', d.recordUpdate previous current = .ok d' ∧ d.Replaces (entryToKey current)
      (recorded (.update previous current) (d.changes (entryToKey current))) d' := by
  unfold recordUpdate
  dsimp only
  cases hchange : d.changes (entryToKey current) with
  | none => exact ⟨_, rfl, push_replaces hchange⟩
  | some change =>
    cases change with
    | created _ => exact ⟨_, rfl, insert_replaces hchange _⟩
    | updated orig existing =>
      -- the entries of a change have its key, so a TTL meets a TTL
      have hunder := hd.under _ _ hchange
      dsimp only
      rw [mergeTtlCurrent_eq hunder.2]
      exact ⟨_, rfl, insert_replaces hchange _⟩
    | deleted orig => exact ⟨_, rfl, insert_replaces hchange _⟩

theorem recordDelete_replaces {entry : LedgerEntry I D}
    (haccepted : entry.data.isConfigSetting = false) :
    ∃ d', d.recordDelete entry = .ok d' ∧ d.Replaces (entryToKey entry)
      (recorded (.delete entry) (d.changes (entryToKey entry))) d' := by
  unfold recordDelete
  rw [haccepted]
  dsimp only
  cases hchange : d.changes (entryToKey entry) with
  | none => exact ⟨_, rfl, push_replaces hchange⟩
  | some change =>
    cases change with
    | created _ => exact ⟨_, rfl, remove_replaces⟩
    | updated previous _ => exact ⟨_, rfl, insert_replaces hchange _⟩
    | deleted previous => exact ⟨_, rfl, .same hchange⟩

def record (op : LedgerOp I D) (d : LedgerDelta I D) : Except LedgerError (LedgerDelta I D) :=
  match op with
  | .create entry => d.recordCreate entry
  | .update previous current => d.recordUpdate previous current
  | .delete entry => d.recordDelete entry

theorem record_replaces (hd : d.WellFormed) {op : LedgerOp I D} (haccepted : op.refused = false) :
    ∃ d', d.record op = .ok d' ∧ d.Replaces op.key (recorded op (d.changes op.key)) d' := by
  cases op with
  | create entry => exact recordCreate_replaces entry
  | update previous current => exact recordUpdate_replaces hd previous current
  | delete entry => exact recordDelete_replaces haccepted

theorem record_refused {op : LedgerOp I D} (hrefused : op.refused = true) :
    d.record op = .error (.invalidEntry "cannot delete ConfigSetting entries") := by
  cases op with
  | create entry => simp [LedgerOp.refused] at hrefused
  | update previous current => simp [LedgerOp.refused] at hrefused
  | delete entry =>
    have hdata : entry.data.isConfigSetting = true := hrefused
    simp [record, recordDelete, hdata]

/-- Record one operation after the other; a refused one records nothing. -/
def recordAll (ops : List (LedgerOp I D)) (d : LedgerDelta I D) : LedgerDelta I D :=
  ops.foldl (fun d op =>
    match d.record op with
    | .ok d' => d'
    | .error _ => d) d

end LedgerDelta

/-! ### Performing the operations -/

variable [DecidableEq I]

def LedgerOp.perform (op : LedgerOp I D) (map : LedgerMap I D) : LedgerMap I D :=
  match op with
  | .create entry => Function.update map (entryToKey entry) (some entry)
  | .update _ current => Function.update map (entryToKey current) (some current)
  | .delete entry => Function.update map (entryToKey entry) none

/-- A map under recorded operations, with the keys written so far. -/
structure Performed (I D : Type) where
  map : LedgerMap I D
  touched : LedgerKey I → Bool

namespace Performed

def start (pre : LedgerMap I D) : Performed I D where
  map := pre
  touched _ := false

def write (s : Performed I D) (key : LedgerKey I) (entry : Option (LedgerEntry I D)) :
    Performed I D where
  map := Function.update s.map key entry
  touched := Function.update s.touched key true

@[simp]
theorem write_map (s : Performed I D) (key : LedgerKey I) (entry : Option (LedgerEntry I D)) :
    (s.write key entry).map = Function.update s.map key entry := rfl

@[simp]
theorem write_touched (s : Performed I D) (key : LedgerKey I) (entry : Option (LedgerEntry I D)) :
    (s.write key entry).touched = Function.update s.touched key true := rfl

/-- What an update leaves: an entry of the ledger that was written before keeps
the longer life. -/
def updated (pre : LedgerMap I D) (s : Performed I D) (current : LedgerEntry I D) :
    LedgerEntry I D :=
  if (pre (entryToKey current)).isSome ∧ s.touched (entryToKey current) then
    match s.map (entryToKey current) with
    | some existing => later existing current
    | none => current
  else current

/-- Perform one operation with the rules of the delta. -/
def step (pre : LedgerMap I D) (s : Performed I D) (op : LedgerOp I D) : Performed I D :=
  if op.refused then s
  else
    match op with
    | .create entry => s.write (entryToKey entry) (some entry)
    | .update _ current => s.write (entryToKey current) (some (updated pre s current))
    | .delete entry => s.write (entryToKey entry) none

def all (pre : LedgerMap I D) (ops : List (LedgerOp I D)) (s : Performed I D) : Performed I D :=
  ops.foldl (step pre) s

/-- Each operation is legal when its turn comes. -/
def Legal (pre : LedgerMap I D) : List (LedgerOp I D) → Performed I D → Prop
  | [], _ => True
  | op :: ops, s => op.Legal s.map ∧ Legal pre ops (s.step pre op)

theorem legal_append {pre : LedgerMap I D} {before after : List (LedgerOp I D)}
    {s : Performed I D} :
    Legal pre (before ++ after) s ↔ Legal pre before s ∧ Legal pre after (s.all pre before) := by
  induction before generalizing s with
  | nil => simp [Legal, all]
  | cons op ops ih =>
    simp only [List.cons_append, Legal, ih, and_assoc]
    rfl

instance [DecidableEq D] (pre : LedgerMap I D) (ops : List (LedgerOp I D)) (s : Performed I D) :
    Decidable (Legal pre ops s) := by
  induction ops generalizing s with
  | nil => exact .isTrue trivial
  | cons op ops ih =>
    have := ih (s.step pre op)
    unfold Legal
    infer_instance

end Performed

/-! ### What a delta knows -/

/-- The change of one key: what it was at the start of the ledger, what it is
now, and whether it was written. -/
inductive Coalesced (before now : Option (LedgerEntry I D)) (touched : Bool) :
    Option (EntryChange I D) → Prop where
  | unchanged (hsame : now = before) (hvoid : touched = true → before = none) :
      Coalesced before now touched none
  | created {entry : LedgerEntry I D} (hbefore : before = none) (hnow : now = some entry)
      (htouched : touched = true) : Coalesced before now touched (some (.created entry))
  | updated {previous current : LedgerEntry I D} (hbefore : before.isSome)
      (hnow : now = some current) (htouched : touched = true) :
      Coalesced before now touched (some (.updated previous current))
  | deleted {previous : LedgerEntry I D} (hbefore : before.isSome) (hnow : now = none)
      (htouched : touched = true) : Coalesced before now touched (some (.deleted previous))

/-- A delta that recorded what was performed since the start of its ledger. -/
structure Tracks (pre : LedgerMap I D) (s : Performed I D) (d : LedgerDelta I D) : Prop where
  wellFormed : d.WellFormed
  coalesced : ∀ key, Coalesced (pre key) (s.map key) (s.touched key) (d.changes key)

omit [DecidableEq I] in
theorem tracks_new (pre : LedgerMap I D) (ledgerSeq : U32) :
    Tracks pre (.start pre) (.new ledgerSeq) where
  wellFormed := LedgerDelta.wellFormed_new ledgerSeq
  coalesced := fun _ => .unchanged rfl (by simp [Performed.start])

variable {pre : LedgerMap I D} {s : Performed I D} {d : LedgerDelta I D} {op : LedgerOp I D}

namespace Performed

/-- What an accepted operation leaves under its key. -/
def result (pre : LedgerMap I D) (s : Performed I D) : LedgerOp I D → Option (LedgerEntry I D)
  | .create entry => some entry
  | .update _ current => some (updated pre s current)
  | .delete _ => none

theorem step_accepted (haccepted : op.refused = false) :
    s.step pre op = s.write op.key (result pre s op) := by
  unfold step
  rw [haccepted]
  cases op <;> rfl

theorem step_refused (hrefused : op.refused = true) : s.step pre op = s := by
  unfold step
  rw [hrefused]
  rfl

/-- Written keys stay written. -/
theorem touched_all {ops : List (LedgerOp I D)} {key : LedgerKey I}
    (htouched : s.touched key = true) : (s.all pre ops).touched key = true := by
  induction ops generalizing s with
  | nil => exact htouched
  | cons op ops ih =>
    apply ih
    cases hrefused : op.refused with
    | true => rwa [step_refused hrefused]
    | false =>
      rw [step_accepted hrefused, write_touched]
      by_cases hkey : key = op.key
      · rw [hkey, Function.update_self]
      · rwa [Function.update_of_ne hkey]

end Performed

variable {change : Option (EntryChange I D)}

omit [DecidableEq I] in
theorem Coalesced.record (hlegal : op.Legal s.map)
    (hchange : Coalesced (pre op.key) (s.map op.key) (s.touched op.key) change) :
    Coalesced (pre op.key) (s.result pre op) true (recorded op change) := by
  cases op with
  | create entry =>
    have habsent : s.map (entryToKey entry) = none := hlegal
    cases hchange with
    | unchanged hsame hvoid => exact .created (hsame.symm.trans habsent) rfl rfl
    | created hbefore hnow htouched => exact .created hbefore rfl rfl
    | updated hbefore hnow htouched => exact .updated hbefore rfl rfl
    | deleted hbefore hnow htouched => exact .updated hbefore rfl rfl
  | update previous current =>
    have hpresent : (s.map (entryToKey current)).isSome := hlegal.2
    change Coalesced _ (some (Performed.updated pre s current)) _ _
    cases hchange with
    | unchanged hsame hvoid =>
      have hbefore : (pre (entryToKey current)).isSome :=
        (congrArg Option.isSome hsame).symm.trans hpresent
      -- the first write of an entry of the ledger
      have hfirst : s.touched (entryToKey current) = false := by
        by_contra htouched
        have hnone := hvoid (Bool.eq_true_of_not_eq_false htouched)
        simp only [LedgerOp.key] at hnone
        simp [hnone] at hbefore
      exact .updated hbefore (by simp [Performed.updated, hfirst]) rfl
    | created hbefore hnow htouched =>
      simp only [LedgerOp.key] at hbefore
      exact .created hbefore (by simp [Performed.updated, hbefore]) rfl
    | updated hbefore hnow htouched =>
      simp only [LedgerOp.key] at hbefore hnow htouched
      exact .updated hbefore (by simp [Performed.updated, hbefore, hnow, htouched]) rfl
    | deleted hbefore hnow htouched =>
      simp only [LedgerOp.key] at hnow
      simp [hnow] at hpresent
  | delete entry =>
    have hpresent : (s.map (entryToKey entry)).isSome := hlegal
    cases hchange with
    | unchanged hsame hvoid =>
      have hbefore : (pre (entryToKey entry)).isSome :=
        (congrArg Option.isSome hsame).symm.trans hpresent
      exact .deleted hbefore rfl rfl
    | created hbefore hnow htouched => exact .unchanged hbefore.symm fun _ => hbefore
    | updated hbefore hnow htouched => exact .deleted hbefore rfl rfl
    | deleted hbefore hnow htouched =>
      simp only [LedgerOp.key] at hnow
      simp [hnow] at hpresent

omit [DecidableEq I] in
theorem under_recorded {map : LedgerMap I D} (hlegal : op.Legal map)
    (hunder : ∀ c ∈ change, c.Under op.key) : ∀ c ∈ recorded op change, c.Under op.key := by
  cases change with
  | none =>
    cases op with
    | create entry => simp [recorded, EntryChange.Under, LedgerOp.key]
    | update previous current =>
      simpa [recorded, EntryChange.Under, LedgerOp.key] using hlegal.1
    | delete entry => simp [recorded, EntryChange.Under, LedgerOp.key]
  | some change =>
    have hchange := hunder change rfl
    cases op with
    | create entry =>
      cases change <;> simp_all [recorded, EntryChange.Under, LedgerOp.key]
    | update previous current =>
      cases change with
      | created entry => simp [recorded, EntryChange.Under, LedgerOp.key]
      | updated orig existing =>
        have hlater := entryToKey_later hchange.2
        simpa [recorded, EntryChange.Under, LedgerOp.key, hlater] using hchange.1
      | deleted orig =>
        simpa [recorded, EntryChange.Under, LedgerOp.key] using hchange
    | delete entry =>
      cases change <;> simp_all [recorded, EntryChange.Under, LedgerOp.key]

theorem Tracks.record (htracks : Tracks pre s d) (hlegal : op.Legal s.map)
    (haccepted : op.refused = false) :
    ∃ d', d.record op = .ok d' ∧ Tracks pre (s.step pre op) d' ∧
      d.Replaces op.key (recorded op (d.changes op.key)) d' := by
  obtain ⟨d', hrecord, hreplaces⟩ := LedgerDelta.record_replaces htracks.wellFormed haccepted
  refine ⟨d', hrecord, ⟨?_, ?_⟩, hreplaces⟩
  · exact hreplaces.wellFormed htracks.wellFormed
      (under_recorded hlegal (htracks.wellFormed.under _))
  · intro key
    rw [Performed.step_accepted haccepted, hreplaces.changes]
    by_cases hkey : key = op.key
    · subst hkey
      simpa [Performed.write] using (htracks.coalesced op.key).record hlegal
    · simpa [Performed.write, Function.update_of_ne hkey] using htracks.coalesced key

theorem Tracks.recordAll {ops : List (LedgerOp I D)} (htracks : Tracks pre s d)
    (hlegal : Performed.Legal pre ops s) :
    Tracks pre (s.all pre ops) (d.recordAll ops) ∧ (d.recordAll ops).ledgerSeq = d.ledgerSeq := by
  induction ops generalizing s d with
  | nil => exact ⟨htracks, rfl⟩
  | cons op ops ih =>
    obtain ⟨hop, hops⟩ := hlegal
    change Tracks pre ((s.step pre op).all pre ops) _ ∧ _
    cases hrefused : op.refused with
    | false =>
      obtain ⟨d', hrecord, htracks', hreplaces⟩ := htracks.record hop hrefused
      have hrest : d.recordAll (op :: ops) = d'.recordAll ops := by
        simp [LedgerDelta.recordAll, hrecord]
      rw [hrest, ← hreplaces.ledgerSeq]
      exact ih htracks' hops
    | true =>
      have hrest : d.recordAll (op :: ops) = d.recordAll ops := by
        simp [LedgerDelta.recordAll, LedgerDelta.record_refused hrefused]
      rw [hrest]
      rw [Performed.step_refused hrefused] at hops ⊢
      exact ih htracks hops

end Henyey.Ledger
