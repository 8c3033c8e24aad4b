import Henyey.Ttl.State

/-!
# What operations do to a lifetime

A key shows its entry's lifetime and its deferred bump, and what counts is the greater of the
two. Each operation changes the keys that it reports, and no other.
-/

namespace Henyey.Ttl

open List NormalizedLedgerChange

variable {κ : Type} [DecidableEq κ]

/-- The lifetime after a change that the host reports. -/
def NormalizedLedgerChange.lifetime (change : NormalizedLedgerChange κ) (before : Option Nat) :
    Option Nat :=
  match change.readOnly, change.hasNewValue, change.ttlNewLiveUntilLedger with
  | true, _, none => before
  | true, _, some v => before.map (max · v)
  | false, true, some v => some (before.elim v (max · v))
  | false, _, _ => none

/-- A deletion that is reported with a lifetime. It is left to the write footprint. -/
def NormalizedLedgerChange.leftOut (change : NormalizedLedgerChange κ) : Bool :=
  !change.readOnly && !change.hasNewValue && change.ttlNewLiveUntilLedger.isSome

namespace LedgerStateManager

/-! ### What a key shows -/

/-- The lifetime of an entry, its deferred bump, and whether it was created in the ledger. -/
def view (state : LedgerStateManager κ) (key : κ) : Option Nat × Option Nat × Prop :=
  (state.ttlEntries key, state.deferredRoTtlBumps key, key ∈ state.delta.created.map Prod.fst)

/-- The lifetime of an entry with its deferred bump. -/
def due (state : LedgerStateManager κ) (key : κ) : Option Nat :=
  (state.ttlEntries key).map fun ttl => max ttl ((state.deferredRoTtlBumps key).getD 0)

omit [DecidableEq κ] in
theorem due_of_view {s s' : LedgerStateManager κ} {key : κ} (h : s.view key = s'.view key) :
    s.due key = s'.due key := by
  unfold view at h
  unfold due
  rw [(Prod.mk.inj h).1, (Prod.mk.inj (Prod.mk.inj h).2).1]

section Frame

variable {s : LedgerStateManager κ} {key other : κ}

section

variable (hne : other ≠ key)
include hne

theorem view_createTtl (v : Nat) : (s.createTtl key v).view other = s.view other := by
  unfold view createTtl TxChangeLog.recordCreate
  simp [Function.update_of_ne hne, hne]

theorem view_updateTtl (v : Nat) : (s.updateTtl key v).view other = s.view other := by
  unfold view updateTtl
  split
  · rfl
  · simp [Function.update_of_ne hne]

theorem view_deleteTtl : (s.deleteTtl key).view other = s.view other := by
  unfold view deleteTtl TxChangeLog.recordDelete
  simp only [Function.update_of_ne hne]
  split <;> rfl

theorem view_recordRo (v : Nat) : (s.recordRoTtlBumpForMeta key v).view other = s.view other := by
  unfold view recordRoTtlBumpForMeta keepHighest TxChangeLog.recordUpdate
  split
  · rfl
  · split
    · rfl
    · simp [Function.update_of_ne hne]

theorem view_createOrUpdate (v : Nat) : (s.createOrUpdateTtl key v).view other = s.view other := by
  unfold createOrUpdateTtl
  split
  · exact view_updateTtl hne v
  · exact view_createTtl hne v

theorem view_applyChange (hot : Finset κ) (kind : StorageChangeKind) :
    (s.applySorobanStorageChange hot key kind).view other = s.view other := by
  unfold applySorobanStorageChange
  split
  · rfl
  · split
    · rfl
    · split
      · split
        · exact view_updateTtl hne _
        · exact view_createTtl hne _
      · split
        · exact view_createOrUpdate hne _
        · split
          · exact view_createTtl hne _
          · rfl
  · split
    · rfl
    · split
      · exact view_recordRo hne _
      · exact view_createOrUpdate hne _
  · exact view_deleteTtl hne

end

end Frame

/-! ### What the host reports -/

/-- What the host reports of an entry, given the lifetime before. -/
structure LegalChange (s : LedgerStateManager κ) (hot : Finset κ) (readWrite : List κ)
    (change : NormalizedLedgerChange κ) : Prop where
  readOnly : change.readOnly = true ↔ change.key ∉ readWrite
  kept : change.readOnly = true → change.hasNewValue = false
  written : change.hasNewValue = true → ∃ v, change.ttlNewLiveUntilLedger = some v ∧ 0 < v ∧
    ∀ ttl, s.ttlEntries change.key = some ttl → ttl ≤ v
  gone : change.leftOut = true → s.ttlExtended change = false
  live : change.readOnly = true → ∀ ttl, s.ttlEntries change.key = some ttl → s.ledgerSeq ≤ ttl
  archived : change.key ∈ hot → change.readOnly = false ∧ s.ttlEntries change.key = none ∧
    change.key ∉ s.delta.created.map Prod.fst

/-- A lifetime that is longer than now is longer than at the start of the ledger. -/
def Noticed (s : LedgerStateManager κ) (change : NormalizedLedgerChange κ) : Prop :=
  ∀ v ttl, change.ttlNewLiveUntilLedger = some v → s.ttlEntries change.key = some ttl → ttl < v →
    (s.ttlBucketListSnapshot change.key).getD 0 < v

section Change

variable {s s0 : LedgerStateManager κ} {hot : Finset κ} {readWrite : List κ}
  {change : NormalizedLedgerChange κ}

def applyChange (s0 : LedgerStateManager κ) (hot : Finset κ) (s : LedgerStateManager κ)
    (change : NormalizedLedgerChange κ) : LedgerStateManager κ :=
  match s0.mapStorageChange change with
  | some kind => s.applySorobanStorageChange hot change.key kind
  | none => s

variable {key : κ}

section

variable (hnone : s.deferredRoTtlBumps key = none)
include hnone

theorem due_createTtl (v : Nat) : (s.createTtl key v).due key = some v := by
  unfold due createTtl
  simp [hnone]

theorem due_updateTtl (v : Nat) : (s.updateTtl key v).due key = some v := by
  unfold due updateTtl
  split
  next h => simp [h, hnone]
  · simp [hnone]

theorem due_createOrUpdate (v : Nat) : (s.createOrUpdateTtl key v).due key = some v := by
  unfold createOrUpdateTtl
  split
  · exact due_updateTtl hnone v
  · exact due_createTtl hnone v

end

theorem due_deleteTtl : (s.deleteTtl key).due key = none := by
  unfold due deleteTtl
  simp

/-- A deferred bump counts at once. -/
theorem due_recordRo (key : κ) (v : Nat) :
    (s.recordRoTtlBumpForMeta key v).due key = (s.due key).map (max · v) := by
  unfold due recordRoTtlBumpForMeta
  cases httl : s.ttlEntries key with
  | none => simp [httl]
  | some ttl =>
    dsimp only
    split
    next hsame =>
      subst hsame
      simp only [httl, Option.map_some, Option.some.injEq]
      omega
    · simp only [keepHighest, Function.update_self, httl, Option.map_some, Option.getD_some,
        Option.some.injEq]
      omega

/-- Such a deletion changes nothing. -/
theorem applyChange_leftOut (hsnapshot : s.ttlBucketListSnapshot = s0.ttlBucketListSnapshot)
    (hlegal : LegalChange s hot readWrite change) (hleft : change.leftOut = true) :
    s0.mapStorageChange change = none ∧ applyChange s0 hot s change = s := by
  have hextended : s0.ttlExtended change = false := by
    have hgone := hlegal.gone hleft
    unfold ttlExtended at hgone ⊢
    rwa [hsnapshot] at hgone
  unfold leftOut at hleft
  simp only [Bool.and_eq_true, Bool.not_eq_true'] at hleft
  obtain ⟨v, hv⟩ := Option.isSome_iff_exists.mp hleft.2
  have hmapped : s0.mapStorageChange change = none := by
    unfold mapStorageChange
    simp [hleft.1, hv, hextended]
  unfold applyChange
  rw [hmapped]
  exact ⟨rfl, rfl⟩

/-- Any other change of the host has the effect that it reports. -/
theorem due_applyChange (hsnapshot : s.ttlBucketListSnapshot = s0.ttlBucketListSnapshot)
    (hlegal : LegalChange s hot readWrite change) (hnoticed : Noticed s change)
    (hflushed : change.key ∈ readWrite → s.deferredRoTtlBumps change.key = none) :
    (applyChange s0 hot s change).due change.key =
      if change.leftOut then s.due change.key else change.lifetime (s.due change.key) := by
  split
  next hleft => rw [(applyChange_leftOut hsnapshot hlegal hleft).2]
  next hleft =>
  obtain ⟨key, readOnly, hasNewValue, liveUntil⟩ := change
  obtain ⟨hreadOnly, hkept, hwritten, -, -, harchived⟩ := hlegal
  unfold Noticed at hnoticed
  rw [hsnapshot] at hnoticed
  unfold leftOut at hleft
  dsimp only at *
  unfold applyChange mapStorageChange ttlExtended NormalizedLedgerChange.lifetime
  cases readOnly with
  | true =>
    rw [hkept rfl]
    cases liveUntil with
    | none => rfl
    | some v =>
      have hhot : key ∉ hot := fun hmem => by
        have := (harchived hmem).1
        cases this
      by_cases hextended : (s0.ttlBucketListSnapshot key).getD 0 < v
      · simp only [hextended, decide_true, Bool.not_true, Bool.false_and, Bool.or_true,
          Bool.false_eq_true, if_true, if_false]
        unfold applySorobanStorageChange
        simp only [(Nat.zero_lt_of_lt hextended).ne', hhot, or_self, if_false, if_true]
        exact due_recordRo key v
      · simp only [hextended, decide_false, Bool.not_true, Bool.false_and, Bool.or_self,
          Bool.false_eq_true, if_false]
        -- the bump is dropped, as the entry lives as long already
        unfold due
        cases httl : s.ttlEntries key with
        | none => rfl
        | some ttl =>
          have hle : v ≤ ttl := by
            by_contra hlt
            exact hextended (hnoticed v ttl rfl httl (by omega))
          simp only [Option.map_some, Option.some.injEq]
          omega
  | false =>
    have hmem : key ∈ readWrite := by
      by_contra hnot
      cases hreadOnly.mpr hnot
    have hnone := hflushed hmem
    cases hasNewValue with
    | false =>
      cases liveUntil with
      | none =>
        simp only [Bool.not_false, Bool.and_self, Bool.or_true, Bool.or_false, Bool.true_or,
          if_true, Bool.false_eq_true, if_false]
        exact due_deleteTtl
      | some v => exact absurd rfl hleft
    | true =>
      obtain ⟨v, rfl, hpositive, hlonger⟩ := hwritten rfl
      simp only [Bool.true_or, if_true]
      unfold applySorobanStorageChange
      simp only [hpositive.ne', if_false]
      by_cases hhot : key ∈ hot
      · obtain ⟨-, habsent, hfresh⟩ := harchived hhot
        rw [if_pos hhot, if_neg hfresh, due_createTtl hnone]
        unfold due
        rw [habsent]
        rfl
      · rw [if_neg hhot]
        have hdue : s.due key = s.ttlEntries key := by
          unfold due
          rw [hnone]
          cases s.ttlEntries key <;> simp
        rw [hdue]
        split
        · rw [due_createOrUpdate hnone]
          cases httl : s.ttlEntries key with
          | none => rfl
          | some ttl => exact congrArg some (max_eq_right (hlonger ttl httl)).symm
        next hnot =>
          split
          next habsent =>
            rw [due_createTtl hnone, habsent]
            rfl
          next hsome =>
            rw [hdue]
            cases httl : s.ttlEntries key with
            | none => exact absurd httl hsome
            | some ttl =>
              have hle := hlonger ttl httl
              have hnotLonger : ¬ ttl < v := fun hlt => hnot (by
                simpa using hnoticed v ttl rfl httl hlt)
              exact congrArg some (max_eq_left (not_lt.mp hnotLonger)).symm

end Change

section Changes

variable {s s' s0 : LedgerStateManager κ} {hot : Finset κ} {readWrite : List κ}
  {change : NormalizedLedgerChange κ} {changes : List (NormalizedLedgerChange κ)} {key : κ}

theorem view_applyChange_of_ne (hne : key ≠ change.key) :
    (applyChange s0 hot s change).view key = s.view key := by
  unfold applyChange
  split
  · exact view_applyChange hne hot _
  · rfl

/-- What no operation changes. -/
def SameLedger (s s' : LedgerStateManager κ) : Prop :=
  s'.ledgerSeq = s.ledgerSeq ∧ s'.ttlBucketListSnapshot = s.ttlBucketListSnapshot

theorem sameLedger_createTtl (v : Nat) : SameLedger s (s.createTtl key v) := ⟨rfl, rfl⟩

theorem sameLedger_updateTtl (v : Nat) : SameLedger s (s.updateTtl key v) := by
  unfold updateTtl
  split <;> exact ⟨rfl, rfl⟩

theorem sameLedger_createOrUpdate (v : Nat) : SameLedger s (s.createOrUpdateTtl key v) := by
  unfold createOrUpdateTtl
  split
  · exact sameLedger_updateTtl v
  · exact sameLedger_createTtl v

theorem sameLedger_recordRo (v : Nat) : SameLedger s (s.recordRoTtlBumpForMeta key v) := by
  unfold recordRoTtlBumpForMeta
  split
  · exact ⟨rfl, rfl⟩
  · split <;> exact ⟨rfl, rfl⟩

theorem sameLedger_applyChange : SameLedger s (applyChange s0 hot s change) := by
  unfold applyChange
  split
  · unfold applySorobanStorageChange
    split
    · exact ⟨rfl, rfl⟩
    · split
      · exact ⟨rfl, rfl⟩
      · split
        · split
          · exact sameLedger_updateTtl _
          · exact sameLedger_createTtl _
        · split
          · exact sameLedger_createOrUpdate _
          · split
            · exact sameLedger_createTtl _
            · exact ⟨rfl, rfl⟩
    · split
      · exact ⟨rfl, rfl⟩
      · split
        · exact sameLedger_recordRo _
        · exact sameLedger_createOrUpdate _
    · exact ⟨rfl, rfl⟩
  · exact ⟨rfl, rfl⟩

omit [DecidableEq κ] in
theorem LegalChange.congr (hlegal : LegalChange s hot readWrite change) (hsame : SameLedger s s')
    (hview : s'.view change.key = s.view change.key) : LegalChange s' hot readWrite change := by
  unfold view at hview
  obtain ⟨httl, hrest⟩ := Prod.mk.inj hview
  obtain ⟨-, hcreated⟩ := Prod.mk.inj hrest
  obtain ⟨hreadOnly, hkept, hwritten, hgone, hlive, harchived⟩ := hlegal
  refine ⟨hreadOnly, hkept, ?_, ?_, ?_, ?_⟩
  · rw [httl]
    exact hwritten
  · unfold ttlExtended
    rw [hsame.2]
    exact hgone
  · rw [httl, hsame.1]
    exact hlive
  · rw [httl]
    intro hmem
    obtain ⟨hrw, hnone, hnot⟩ := harchived hmem
    exact ⟨hrw, hnone, fun hin => hnot (hcreated ▸ hin)⟩

omit [DecidableEq κ] in
theorem Noticed.congr (hnoticed : Noticed s change) (hsame : SameLedger s s')
    (hview : s'.view change.key = s.view change.key) : Noticed s' change := by
  unfold Noticed at hnoticed ⊢
  rw [(Prod.mk.inj hview).1, hsame.2]
  exact hnoticed

/-- The changes of an invocation, each under its own key. -/
structure LegalChanges (s : LedgerStateManager κ) (hot : Finset κ) (readWrite : List κ)
    (changes : List (NormalizedLedgerChange κ)) : Prop where
  distinct : (changes.map (·.key)).Nodup
  legal : ∀ change ∈ changes, LegalChange s hot readWrite change

theorem view_foldl_changes (hnot : key ∉ changes.map (·.key)) :
    (changes.foldl (applyChange s0 hot) s).view key = s.view key := by
  induction changes generalizing s with
  | nil => rfl
  | cons change changes ih =>
    rw [map_cons, mem_cons, not_or] at hnot
    rw [foldl_cons, ih hnot.2, view_applyChange_of_ne hnot.1]

theorem LegalChanges.tail (hlegal : LegalChanges s hot readWrite (change :: changes)) :
    LegalChanges (applyChange s0 hot s change) hot readWrite changes := by
  obtain ⟨hhead, htail⟩ := nodup_cons.mp hlegal.distinct
  refine ⟨htail, fun later hlater => ?_⟩
  refine (hlegal.legal later (mem_cons_of_mem _ hlater)).congr sameLedger_applyChange
    (view_applyChange_of_ne fun heq => hhead ?_)
  exact mem_map.mpr ⟨later, hlater, heq⟩

theorem due_foldl_changes (hsnapshot : s.ttlBucketListSnapshot = s0.ttlBucketListSnapshot)
    (hlegal : LegalChanges s hot readWrite changes) (hnoticed : ∀ c ∈ changes, Noticed s c)
    (hflushed : ∀ c ∈ changes, c.key ∈ readWrite → s.deferredRoTtlBumps c.key = none) (key : κ) :
    (changes.foldl (applyChange s0 hot) s).due key =
      match changes.find? (·.key = key) with
      | some change =>
        if change.leftOut then s.due key else change.lifetime (s.due key)
      | none => s.due key := by
  induction changes generalizing s with
  | nil => rfl
  | cons change changes ih =>
    obtain ⟨hhead, -⟩ := nodup_cons.mp hlegal.distinct
    rw [foldl_cons]
    by_cases hkey : change.key = key
    · subst hkey
      rw [find?_cons_of_pos (by simp), due_of_view (view_foldl_changes hhead)]
      exact due_applyChange hsnapshot (hlegal.legal _ mem_cons_self)
        (hnoticed _ mem_cons_self) (hflushed _ mem_cons_self)
    · have hview {later : NormalizedLedgerChange κ} (hlater : later ∈ changes) :
          (applyChange s0 hot s change).view later.key = s.view later.key :=
        view_applyChange_of_ne fun heq => hhead (mem_map.mpr ⟨later, hlater, heq⟩)
      rw [find?_cons_of_neg (by simpa using hkey),
        ih (sameLedger_applyChange.2.trans hsnapshot) hlegal.tail
          (fun later hlater => (hnoticed later (mem_cons_of_mem _ hlater)).congr
            sameLedger_applyChange (hview hlater))
          fun later hlater hmem =>
            (Prod.mk.inj (Prod.mk.inj (hview hlater)).2).1.trans
              (hflushed later (mem_cons_of_mem _ hlater) hmem),
        due_of_view (view_applyChange_of_ne (Ne.symm hkey))]

end Changes

/-! ### The operations -/

section Operations

variable {s : LedgerStateManager κ} {key other : κ} {v : Nat} {keys : List κ}

theorem view_deleteContractEntry (hne : other ≠ key) :
    (s.deleteContractEntry key).view other = s.view other := by
  unfold deleteContractEntry
  split
  · exact view_deleteTtl hne
  · rfl

theorem due_deleteContractEntry : (s.deleteContractEntry key).due key = none := by
  unfold deleteContractEntry
  split
  · exact due_deleteTtl
  next hnone =>
    unfold due
    rw [Option.not_isSome_iff_eq_none.mp hnone]
    rfl

/-- What the host did not return is deleted. -/
theorem due_foldl_delete (spared : κ → Prop) [DecidablePred spared] (keys : List κ) :
    (keys.foldl (fun s k => if spared k then s else s.deleteContractEntry k) s).due key =
      if key ∈ keys ∧ ¬ spared key then none else s.due key := by
  induction keys generalizing s with
  | nil => simp
  | cons k keys ih =>
    rw [foldl_cons, ih]
    by_cases hkey : key = k
    · subst hkey
      by_cases hspared : spared key
      · simp [hspared]
      · simp [hspared, due_deleteContractEntry]
    · have hsame : (if spared k then s else s.deleteContractEntry k).due key = s.due key := by
        split
        · rfl
        · exact due_of_view (view_deleteContractEntry hkey)
      simp [hsame, hkey]

theorem view_extendTtl (hne : other ≠ key) : (s.extendTtl key v).view other = s.view other := by
  have hrewrite (entries : List (κ × Nat)) :
      (TxChangeLog.rewriteFirst key v entries).map Prod.fst = entries.map Prod.fst := by
    induction entries with
    | nil => rfl
    | cons entry entries ih =>
      unfold TxChangeLog.rewriteFirst
      split
      next hsame => simp [hsame]
      · simp [ih]
  unfold view extendTtl TxChangeLog.updateCreatedTtl
  split
  · rfl
  · split
    · split
      · simp [Function.update_of_ne hne, hrewrite]
      · simp [Function.update_of_ne hne]
    · rfl

theorem ttl_extendTtl (s : LedgerStateManager κ) (key : κ) (v : Nat) :
    (s.extendTtl key v).ttlEntries key = (s.ttlEntries key).map (max · v) ∧
      (s.extendTtl key v).deferredRoTtlBumps = s.deferredRoTtlBumps := by
  unfold extendTtl
  cases httl : s.ttlEntries key with
  | none => simp [httl]
  | some ttl =>
    dsimp only
    split
    next hlt =>
      split
      · simp [max_eq_right hlt.le]
      · simp [max_eq_right hlt.le]
    next hnot =>
      rw [httl]
      exact ⟨congrArg some (max_eq_left (by omega)).symm, rfl⟩

/-- An entry is live. -/
def live (s : LedgerStateManager κ) (key : κ) : Bool :=
  match s.ttlEntries key with
  | some ttl => decide (s.ledgerSeq ≤ ttl)
  | none => false

omit [DecidableEq κ] in
theorem live_eq {ttl : Nat} (httl : s.ttlEntries key = some ttl) :
    s.live key = decide (s.ledgerSeq ≤ ttl) := by
  unfold live
  rw [httl]

theorem sameLedger_extendTtl : SameLedger s (s.extendTtl key v) := by
  unfold extendTtl
  split
  · exact ⟨rfl, rfl⟩
  · split
    · split <;> exact ⟨rfl, rfl⟩
    · exact ⟨rfl, rfl⟩

theorem sameLedger_extendEntry : SameLedger s (extendEntry v s key) := by
  unfold extendEntry
  split
  · exact ⟨rfl, rfl⟩
  · split
    · exact ⟨rfl, rfl⟩
    · split
      · exact ⟨rfl, rfl⟩
      · exact sameLedger_extendTtl

theorem view_extendEntry (hne : other ≠ key) : (extendEntry v s key).view other = s.view other := by
  unfold extendEntry
  split
  · rfl
  · split
    · rfl
    · split
      · rfl
      · exact view_extendTtl hne

theorem ttl_extendEntry (s : LedgerStateManager κ) (key : κ) (v : Nat) :
    (extendEntry v s key).ttlEntries key =
        (if s.live key then (s.ttlEntries key).map (max · v) else s.ttlEntries key) ∧
      (extendEntry v s key).deferredRoTtlBumps = s.deferredRoTtlBumps := by
  unfold extendEntry
  cases httl : s.ttlEntries key with
  | none => simp [httl]
  | some ttl =>
    dsimp only
    rw [live_eq httl]
    by_cases hexpired : ttl < s.ledgerSeq
    · simp [hexpired, httl]
    · rw [if_neg hexpired, if_pos (decide_eq_true (not_lt.mp hexpired))]
      split
      next hle =>
        rw [httl]
        exact ⟨congrArg some (max_eq_left hle).symm, rfl⟩
      · obtain ⟨hextended, hbumps⟩ := ttl_extendTtl s key v
        rw [httl] at hextended
        exact ⟨hextended, hbumps⟩

theorem due_extendEntry : (extendEntry v s key).due key =
    if s.live key then (s.due key).map (max · v) else s.due key := by
  obtain ⟨httl, hbumps⟩ := ttl_extendEntry s key v
  unfold due
  rw [httl, hbumps]
  split
  · cases s.ttlEntries key with
    | none => rfl
    | some ttl =>
      simp only [Option.map_some, Option.some.injEq]
      omega
  · rfl

omit [DecidableEq κ] in
theorem live_congr {s' : LedgerStateManager κ} (hsame : SameLedger s s')
    (hview : s'.view key = s.view key) : s'.live key = s.live key := by
  unfold live
  rw [(Prod.mk.inj hview).1, hsame.1]

theorem live_extendEntry : (extendEntry v s key).live key = s.live key := by
  obtain ⟨httl, -⟩ := ttl_extendEntry s key v
  cases hlive : s.live key with
  | false =>
    rw [hlive, if_neg Bool.false_ne_true] at httl
    unfold live at hlive ⊢
    rw [httl, sameLedger_extendEntry.1]
    exact hlive
  | true =>
    rw [hlive, if_pos rfl] at httl
    cases hsome : s.ttlEntries key with
    | none =>
      unfold live at hlive
      rw [hsome] at hlive
      cases hlive
    | some ttl =>
      rw [hsome] at httl
      rw [live_eq hsome, decide_eq_true_iff] at hlive
      rw [live_eq httl, sameLedger_extendEntry.1]
      exact decide_eq_true (hlive.trans (le_max_left _ _))

theorem due_foldl_extend (keys : List κ) :
    (keys.foldl (extendEntry v) s).due key =
      if key ∈ keys ∧ s.live key = true then (s.due key).map (max · v) else s.due key := by
  induction keys generalizing s with
  | nil => simp
  | cons k keys ih =>
    rw [foldl_cons, ih]
    by_cases hkey : key = k
    · subst hkey
      rw [live_extendEntry, due_extendEntry]
      cases s.live key with
      | false => simp
      | true =>
        simp only [and_true, mem_cons_self, if_true]
        split
        · rw [Option.map_map]
          congr 1
          funext ttl
          simp
        · rfl
    · rw [live_congr sameLedger_extendEntry (view_extendEntry hkey),
        due_of_view (view_extendEntry hkey)]
      simp [hkey]

theorem sameLedger_restoreEntry : SameLedger s (restoreEntry v s key) := by
  unfold restoreEntry
  split
  · exact ⟨rfl, rfl⟩
  · split
    · exact ⟨rfl, rfl⟩
    · exact sameLedger_updateTtl v

theorem view_restoreEntry (hne : other ≠ key) :
    (restoreEntry v s key).view other = s.view other := by
  unfold restoreEntry
  split
  · rfl
  · split
    · rfl
    · exact view_updateTtl hne v

theorem deferred_restoreEntry : (restoreEntry v s key).deferredRoTtlBumps =
    s.deferredRoTtlBumps := by
  unfold restoreEntry updateTtl
  split
  · rfl
  · split
    · rfl
    · split <;> rfl

theorem due_restoreEntry (hnone : s.deferredRoTtlBumps key = none) :
    (restoreEntry v s key).due key =
      if (s.due key).isSome ∧ s.live key = false then some v else s.due key := by
  unfold restoreEntry
  cases httl : s.ttlEntries key with
  | none =>
    have hdue : s.due key = none := by
      unfold due
      rw [httl]
      rfl
    simp [hdue]
  | some ttl =>
    have hsome : (s.due key).isSome := by
      unfold due
      rw [httl]
      rfl
    dsimp only
    rw [live_eq httl]
    by_cases hlive : s.ledgerSeq ≤ ttl
    · simp [hlive]
    · rw [if_neg hlive, if_pos ⟨hsome, decide_eq_false hlive⟩]
      exact due_updateTtl hnone v

omit [DecidableEq κ] in
theorem live_of_due (hnone : s.deferredRoTtlBumps key = none) :
    s.live key = (s.due key).any (s.ledgerSeq ≤ ·) := by
  unfold due live
  rw [hnone]
  cases s.ttlEntries key <;> simp

section

variable (hnone : ∀ key ∈ keys, s.deferredRoTtlBumps key = none)
include hnone

theorem due_foldl_restore (hlive : s.ledgerSeq ≤ v) :
    (keys.foldl (restoreEntry v) s).due key =
      if key ∈ keys ∧ (s.due key).isSome ∧ s.live key = false then some v else s.due key := by
  induction keys generalizing s with
  | nil => simp
  | cons k keys ih =>
    have hseq : (restoreEntry v s k).ledgerSeq ≤ v := sameLedger_restoreEntry.1.trans_le hlive
    rw [foldl_cons, ih (fun key hmem => by
      rw [deferred_restoreEntry]
      exact hnone key (mem_cons_of_mem _ hmem)) hseq]
    by_cases hkey : key = k
    · subst hkey
      have hbumps := hnone key mem_cons_self
      have hdue := due_restoreEntry (v := v) hbumps
      rw [live_of_due (by rwa [deferred_restoreEntry]), hdue, live_of_due hbumps,
        sameLedger_restoreEntry.1]
      cases s.due key with
      | none => simp
      | some ttl =>
        by_cases hle : s.ledgerSeq ≤ ttl
        · simp [hle]
        · simp [hle, hlive]
    · rw [live_congr sameLedger_restoreEntry (view_restoreEntry hkey),
        due_of_view (view_restoreEntry hkey)]
      simp [hkey]

/-- Entries come back from the archive. -/
theorem due_foldl_create :
    (keys.foldl (fun s key => s.createTtl key v) s).due key =
      if key ∈ keys then some v else s.due key := by
  induction keys generalizing s with
  | nil => simp
  | cons k keys ih =>
    rw [foldl_cons, ih (s := s.createTtl k v) fun key hmem => hnone key (mem_cons_of_mem _ hmem)]
    by_cases hkey : key = k
    · subst hkey
      simp [due_createTtl (hnone key mem_cons_self)]
    · rw [due_of_view (view_createTtl hkey v)]
      simp [hkey]

end

theorem deferred_foldl_create :
    (keys.foldl (fun s key => s.createTtl key v) s).deferredRoTtlBumps = s.deferredRoTtlBumps := by
  induction keys generalizing s with
  | nil => rfl
  | cons k keys ih => exact ih

theorem snapshot_foldl_create :
    (keys.foldl (fun s key => s.createTtl key v) s).ttlBucketListSnapshot =
      s.ttlBucketListSnapshot := by
  induction keys generalizing s with
  | nil => rfl
  | cons k keys ih => exact ih

theorem view_foldl_create (hnot : key ∉ keys) :
    (keys.foldl (fun s key => s.createTtl key v) s).view key = s.view key := by
  induction keys generalizing s with
  | nil => rfl
  | cons k keys ih =>
    rw [mem_cons, not_or] at hnot
    rw [foldl_cons, ih hnot.2, view_createTtl hnot.1]

theorem ledgerSeq_foldl_create :
    (keys.foldl (fun s key => s.createTtl key v) s).ledgerSeq = s.ledgerSeq := by
  induction keys generalizing s with
  | nil => rfl
  | cons k keys ih => exact ih

end Operations

/-! ### What an operation does to a lifetime -/

/-- The lifetime of a key after a successful operation: what the host reports, an extension of
what is live, or a restored entry. -/
def lifetime (s : LedgerStateManager κ) (op : Operation κ) (key : κ) (before : Option Nat) :
    Option Nat :=
  match op with
  | .invokeHostFunction changes readWrite _ =>
    match changes.find? (·.key = key) with
    | some change => change.lifetime before
    | none => if key ∈ readWrite then none else before
  | .extendFootprintTtl readOnly newLiveUntil =>
    if key ∈ readOnly ∧ s.live key = true then before.map (max · newLiveUntil) else before
  | .restoreFootprint readWrite hotArchiveRestores newTtl =>
    if key ∈ hotArchiveRestores then some newTtl
    else if key ∈ readWrite ∧ before.isSome ∧ s.live key = false then some newTtl else before

def LegalOperation (s : LedgerStateManager κ) : Operation κ → Prop
  | .invokeHostFunction changes readWrite hot =>
    LegalChanges s hot readWrite changes ∧
      ∀ key ∈ hot, key ∉ changes.map (·.key) → s.ttlEntries key = none
  | .extendFootprintTtl _ _ => True
  | .restoreFootprint readWrite hotArchiveRestores newTtl =>
    s.ledgerSeq ≤ newTtl ∧ ∀ key ∈ hotArchiveRestores, key ∈ readWrite ∧ s.ttlEntries key = none

def NoticedOperation (s : LedgerStateManager κ) : Operation κ → Prop
  | .invokeHostFunction changes _ _ => ∀ change ∈ changes, Noticed s change
  | _ => True

section Perform

variable {s s0 : LedgerStateManager κ} {hot : Finset κ} {readWrite : List κ}
  {changes : List (NormalizedLedgerChange κ)} {key : κ}

theorem foldl_mapped (s0 : LedgerStateManager κ) (hot : Finset κ)
    (changes : List (NormalizedLedgerChange κ)) (s : LedgerStateManager κ) :
    (changes.filterMap fun change =>
        (s0.mapStorageChange change).map fun kind => (change.key, kind)).foldl
        (fun s change => s.applySorobanStorageChange hot change.1 change.2) s =
      changes.foldl (applyChange s0 hot) s := by
  induction changes generalizing s with
  | nil => rfl
  | cons change changes ih =>
    rw [filterMap_cons, foldl_cons]
    unfold applyChange
    cases s0.mapStorageChange change with
    | none => exact ih s
    | some kind => exact ih _

theorem perform_invoke (s : LedgerStateManager κ) (changes : List (NormalizedLedgerChange κ))
    (readWrite : List κ) (hot : Finset κ) :
    ∃ returned : List κ,
      (∀ key, key ∈ returned ↔ ∃ change ∈ changes, change.key = key ∧
        ∃ kind, s.mapStorageChange change = some kind ∧ kind ≠ .deleted) ∧
      s.perform (.invokeHostFunction changes readWrite hot) =
        readWrite.foldl (fun s key => if key ∈ returned ∨ key ∈ hot then s
          else s.deleteContractEntry key) (changes.foldl (applyChange s hot) s) := by
  refine ⟨((changes.filterMap fun change =>
      (s.mapStorageChange change).map fun kind => (change.key, kind)).filter
        fun change => change.2 ≠ .deleted).map Prod.fst, fun key => ?_, ?_⟩
  · simp only [mem_map, mem_filter, mem_filterMap, decide_eq_true_eq, Prod.exists,
      Option.map_eq_some_iff, Prod.mk.injEq]
    constructor
    · rintro ⟨key', kind, ⟨⟨change, hmem, kind', hkind, hkey, rfl⟩, hne⟩, rfl⟩
      exact ⟨change, hmem, hkey, kind', hkind, hne⟩
    · rintro ⟨change, hmem, hkey, kind, hkind, hne⟩
      exact ⟨key, kind, ⟨⟨change, hmem, kind, hkind, hkey, rfl⟩, hne⟩, rfl⟩
  · unfold perform applySorobanStorageChanges
    dsimp only
    rw [foldl_mapped]

theorem due_perform_invoke (hlegal : LegalChanges s hot readWrite changes)
    (harchived : ∀ key ∈ hot, key ∉ changes.map (·.key) → s.ttlEntries key = none)
    (hnoticed : ∀ change ∈ changes, Noticed s change)
    (hflushed : ∀ key ∈ readWrite, s.deferredRoTtlBumps key = none) (key : κ) :
    (s.perform (.invokeHostFunction changes readWrite hot)).due key =
      s.lifetime (.invokeHostFunction changes readWrite hot) key (s.due key) := by
  obtain ⟨returned, hreturned, hperform⟩ := perform_invoke s changes readWrite hot
  rw [hperform, due_foldl_delete, due_foldl_changes rfl hlegal hnoticed
    fun change hmem hrw => hflushed _ hrw]
  unfold lifetime
  dsimp only
  cases hfind : changes.find? (·.key = key) with
  | none =>
    dsimp only
    have hnot : ∀ change ∈ changes, change.key ≠ key := by
      simpa using find?_eq_none.mp hfind
    have hunreturned : key ∉ returned := by
      rw [hreturned]
      rintro ⟨change, hmem, hkey, -⟩
      exact hnot change hmem hkey
    by_cases hhot : key ∈ hot
    · have habsent : s.due key = none := by
        unfold due
        rw [harchived key hhot fun hmem => by
          obtain ⟨change, hchange, hkey⟩ := mem_map.mp hmem
          exact hnot change hchange hkey]
        rfl
      simp [habsent]
    · simp [hunreturned, hhot]
  | some change =>
    dsimp only
    have hmem := mem_of_find?_eq_some hfind
    have hkey : change.key = key := by simpa using find?_some hfind
    have hchange := hlegal.legal change hmem
    by_cases hleft : change.leftOut = true
    · -- the footprint deletes what was not returned
      have hunreturned : key ∉ returned := by
        rw [hreturned]
        rintro ⟨other, hother, hsame, kind, hkind, -⟩
        obtain rfl := inj_on_of_nodup_map hlegal.distinct hother hmem (hsame.trans hkey.symm)
        rw [(applyChange_leftOut rfl hchange hleft).1] at hkind
        cases hkind
      unfold leftOut at hleft
      simp only [Bool.and_eq_true, Bool.not_eq_true'] at hleft
      have hrw : key ∈ readWrite := by
        by_contra hnot
        exact absurd (hchange.readOnly.mpr (hkey ▸ hnot)) (by simp [hleft])
      have hgone : change.lifetime (s.due key) = none := by
        unfold NormalizedLedgerChange.lifetime
        simp [hleft]
      rw [hgone]
      by_cases hhot : key ∈ hot
      · have habsent : s.due key = none := by
          unfold due
          rw [← hkey, (hchange.archived (hkey ▸ hhot)).2.1]
          rfl
        simp [habsent]
      · simp [hrw, hunreturned, hhot]
    rw [if_neg hleft]
    refine ite_eq_right_iff.mpr ?_
    rintro ⟨hrw, hspared⟩
    rw [not_or] at hspared
    have hreadOnly : change.readOnly = false := by
      cases hcase : change.readOnly with
      | false => rfl
      | true => exact absurd (hkey ▸ hrw) (hchange.readOnly.mp hcase)
    -- what was returned with a value is not deleted
    cases hvalue : change.hasNewValue with
    | false =>
      unfold NormalizedLedgerChange.lifetime
      rw [hreadOnly, hvalue]
    | true =>
      refine absurd ((hreturned key).mpr ⟨change, hmem, hkey, ?_⟩) hspared.1
      unfold mapStorageChange
      simp [hvalue]

theorem due_perform {op : Operation κ} (hlegal : s.LegalOperation op)
    (hnoticed : s.NoticedOperation op)
    (hflushed : ∀ key ∈ op.writeFootprint, s.deferredRoTtlBumps key = none) (key : κ) :
    (s.perform op).due key = s.lifetime op key (s.due key) := by
  cases op with
  | invokeHostFunction changes readWrite hot =>
    exact due_perform_invoke hlegal.1 hlegal.2 hnoticed hflushed key
  | extendFootprintTtl readOnly newLiveUntil => exact due_foldl_extend readOnly
  | restoreFootprint readWrite hotArchiveRestores newTtl =>
    obtain ⟨hseq, harchived⟩ := hlegal
    have hcreated : (hotArchiveRestores.foldl (fun s key => s.createTtl key newTtl) s).due key =
        if key ∈ hotArchiveRestores then some newTtl else s.due key :=
      due_foldl_create fun k hk => hflushed k (harchived k hk).1
    unfold perform lifetime
    dsimp only
    rw [due_foldl_restore (fun k hk => by
      rw [deferred_foldl_create]
      exact hflushed k hk) (by rwa [ledgerSeq_foldl_create]), hcreated]
    by_cases hhot : key ∈ hotArchiveRestores
    · have hlive : (hotArchiveRestores.foldl (fun s key => s.createTtl key newTtl) s).live key =
          true := by
        rw [live_of_due (by
          rw [deferred_foldl_create]
          exact hflushed key (harchived key hhot).1), hcreated, ledgerSeq_foldl_create,
          if_pos hhot]
        exact decide_eq_true hseq
      simp [hhot, hlive]
    · rw [live_congr ⟨ledgerSeq_foldl_create, snapshot_foldl_create⟩ (view_foldl_create hhot)]
      simp [hhot]

end Perform

end LedgerStateManager

end Henyey.Ttl
