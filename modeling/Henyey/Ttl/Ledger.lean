import Henyey.Ttl.Lifetimes

/-!
# Lifetimes over a ledger

A transaction that fails is undone, as the state remembers what it was before. What succeeds
adds up to the lifetimes at the end of the ledger.
-/

namespace Henyey.Ttl

open Function List Option

variable {κ : Type} [DecidableEq κ]

/-- A log that has only been appended to. -/
structure TxChangeLog.Extends (old log : TxChangeLog κ) : Prop where
  created : old.created <+: log.created
  updated : old.updated <+: log.updated
  deleted : old.deleted <+: log.deleted
  changeOrder : old.changeOrder <+: log.changeOrder

namespace TxChangeLog

variable {old log : TxChangeLog κ}

section

omit [DecidableEq κ]

theorem Extends.refl (log : TxChangeLog κ) : log.Extends log :=
  ⟨prefix_rfl, prefix_rfl, prefix_rfl, prefix_rfl⟩

section

variable (h : old.Extends log)
include h

theorem Extends.recordCreate (keyHash : κ) (liveUntil : Nat) :
    old.Extends (log.recordCreate keyHash liveUntil) :=
  ⟨h.created.trans (prefix_append _ _), h.updated, h.deleted,
    h.changeOrder.trans (prefix_append _ _)⟩

theorem Extends.recordUpdate (keyHash : κ) (liveUntil : Nat) :
    old.Extends (log.recordUpdate keyHash liveUntil) :=
  ⟨h.created, h.updated.trans (prefix_append _ _), h.deleted,
    h.changeOrder.trans (prefix_append _ _)⟩

theorem Extends.recordDelete (keyHash : κ) : old.Extends (log.recordDelete keyHash) :=
  ⟨h.created, h.updated, h.deleted.trans (prefix_append _ _),
    h.changeOrder.trans (prefix_append _ _)⟩

theorem Extends.truncateTo : log.truncateTo old.snapshotLengths = old := by
  unfold TxChangeLog.truncateTo snapshotLengths
  dsimp only
  rw [← prefix_iff_eq_take.mp h.created, ← prefix_iff_eq_take.mp h.updated,
    ← prefix_iff_eq_take.mp h.deleted, ← prefix_iff_eq_take.mp h.changeOrder]

end

end

end TxChangeLog

namespace LedgerStateManager

/-- The state remembers what it was when the operation began. -/
structure Within (before state : LedgerStateManager κ) : Prop where
  ledgerSeq : state.ledgerSeq = before.ledgerSeq
  bucketList : state.ttlBucketListSnapshot = before.ttlBucketListSnapshot
  deltaSnapshot : state.deltaSnapshot = before.deltaSnapshot
  bumpsSnapshot : state.deferredRoTtlBumpsSnapshot = before.deferredRoTtlBumpsSnapshot
  delta : before.delta.Extends state.delta
  untouched : ∀ {key}, state.ttlSnapshots key = none → state.ttlEntries key = before.ttlEntries key
  saved : ∀ {key value}, state.ttlSnapshots key = some value → value = before.ttlEntries key
  fresh : ∀ {key}, key ∈ state.createdTtl → before.ttlEntries key = none
  absent : ∀ {key}, key ∉ state.createdTtl → before.ttlEntries key = none →
    state.ttlEntries key = none

variable {before state : LedgerStateManager κ}

omit [DecidableEq κ] in
theorem Within.refl (hsnapshots : state.ttlSnapshots = fun _ => none)
    (hcreated : state.createdTtl = ∅) : Within state state where
  ledgerSeq := rfl
  bucketList := rfl
  deltaSnapshot := rfl
  bumpsSnapshot := rfl
  delta := .refl _
  untouched := fun _ => rfl
  saved := fun hsaved => by
    rw [hsnapshots] at hsaved
    cases hsaved
  fresh := fun hmem => by
    rw [hcreated] at hmem
    exact absurd hmem (Finset.notMem_empty _)
  absent := fun _ hnone => hnone

section

variable (h : Within before state)
include h

variable {key : κ}

theorem Within.write {value : Option Nat} {created : Finset κ} {log : TxChangeLog κ}
    {modified : List κ} (hlog : before.delta.Extends log) (hcreated : created = state.createdTtl ∨
      created = insert key state.createdTtl ∧ before.ttlEntries key = none)
    (hvalue : value = none ∨ key ∈ created ∨ before.ttlEntries key ≠ none)
    {saved : Option Nat} (hsaved : saved = state.ttlEntries key ∨ saved = before.ttlEntries key) :
    Within before { state with
      ttlSnapshots := saveSnapshot state.ttlSnapshots key saved
      ttlEntries := update state.ttlEntries key value
      createdTtl := created
      delta := log
      modifiedTtl := modified } where
  __ := h
  delta := hlog
  untouched := by
    intro other hnone
    dsimp only at hnone ⊢
    unfold saveSnapshot at hnone
    by_cases hsame : other = key
    · subst hsame
      split at hnone
      next hsome =>
        rw [hnone] at hsome
        cases hsome
      · rw [update_self] at hnone
        cases hnone
    · rw [update_of_ne hsame]
      apply h.untouched
      split at hnone
      · exact hnone
      · rwa [update_of_ne hsame] at hnone
  saved := by
    intro other old hold
    dsimp only at hold
    unfold saveSnapshot at hold
    split at hold
    · exact h.saved hold
    next hunsaved =>
      by_cases hsame : other = key
      · subst hsame
        rw [update_self, some.injEq] at hold
        rw [not_isSome_iff_eq_none] at hunsaved
        rw [← hold]
        rcases hsaved with hnow | hthen
        · rw [hnow, h.untouched hunsaved]
        · exact hthen
      · rw [update_of_ne hsame] at hold
        exact h.saved hold
  fresh := by
    intro other hmem
    dsimp only at hmem
    rcases hcreated with hold | ⟨hnew, hnone⟩
    · rw [hold] at hmem
      exact h.fresh hmem
    · rw [hnew] at hmem
      rcases Finset.mem_insert.mp hmem with rfl | hmem
      · exact hnone
      · exact h.fresh hmem
  absent := by
    intro other hnot hnone
    dsimp only at hnot ⊢
    by_cases hsame : other = key
    · subst hsame
      rw [update_self]
      rcases hvalue with hvalue | hmem | hbefore
      · exact hvalue
      · exact absurd hmem hnot
      · exact absurd hnone hbefore
    · rw [update_of_ne hsame]
      apply h.absent _ hnone
      rcases hcreated with hold | ⟨hnew, -⟩
      · rwa [hold] at hnot
      · rw [hnew] at hnot
        exact fun hmem => hnot (Finset.mem_insert_of_mem hmem)

theorem Within.createTtl (hnone : before.ttlEntries key = none) (liveUntil : Nat) :
    Within before (state.createTtl key liveUntil) :=
  h.write (h.delta.recordCreate _ _) (.inr ⟨rfl, hnone⟩) (.inr (.inl (Finset.mem_insert_self _ _)))
    (.inr hnone.symm)

theorem Within.updateTtl (hsome : before.ttlEntries key ≠ none ∨ key ∈ state.createdTtl)
    (liveUntil : Nat) : Within before (state.updateTtl key liveUntil) := by
  unfold LedgerStateManager.updateTtl
  split
  · exact h
  · exact h.write h.delta (.inl rfl) (.inr hsome.symm) (.inl rfl)

theorem Within.deleteTtl (key : κ) : Within before (state.deleteTtl key) := by
  unfold LedgerStateManager.deleteTtl
  dsimp only
  refine h.write ?_ (.inl rfl) (.inl rfl) (.inl rfl)
  split
  · exact h.delta.recordDelete _
  · exact h.delta

theorem Within.recordRoTtlBumpForMeta (key : κ) (liveUntil : Nat) :
    Within before (state.recordRoTtlBumpForMeta key liveUntil) := by
  unfold LedgerStateManager.recordRoTtlBumpForMeta
  split
  · exact h
  · split
    · exact h
    · exact ⟨h.ledgerSeq, h.bucketList, h.deltaSnapshot, h.bumpsSnapshot,
        h.delta.recordUpdate _ _, h.untouched, h.saved, h.fresh, h.absent⟩

theorem Within.extendTtl (hold : key ∉ state.createdTtl)
    (liveUntil : Nat) : Within before (state.extendTtl key liveUntil) := by
  unfold LedgerStateManager.extendTtl
  split
  · exact h
  next existing hexisting =>
    split
    · refine h.write h.delta (.inl rfl) (.inr (.inr ?_)) (.inl hexisting.symm)
      intro hnone
      rw [h.absent hold hnone] at hexisting
      cases hexisting
    · exact h

end

theorem extends_recordModified {old log : TxChangeLog κ} (hlog : old.Extends log) (key : κ) :
    old.Extends (state.recordModified log key) := by
  unfold recordModified
  split
  · exact hlog
  · split
    · split
      · exact hlog
      · exact hlog.recordUpdate _ _
    · exact hlog

theorem Within.flushModifiedEntries (h : Within before state) :
    Within before state.flushModifiedEntries := by
  have hdelta {keys : List κ} {log : TxChangeLog κ} (hlog : before.delta.Extends log) :
      before.delta.Extends (keys.foldl state.recordModified log) := by
    induction keys generalizing log with
    | nil => exact hlog
    | cons key keys ih => exact ih (extends_recordModified hlog key)
  exact ⟨h.ledgerSeq, h.bucketList, h.deltaSnapshot, h.bumpsSnapshot, hdelta h.delta,
    h.untouched, h.saved, h.fresh, h.absent⟩

/-- Nothing that a transaction did is left after a rollback. -/
theorem Within.rollback (h : Within before state)
    (hdelta : before.deltaSnapshot = some before.delta.snapshotLengths)
    (hbumps : before.deferredRoTtlBumpsSnapshot = some before.deferredRoTtlBumps) :
    state.rollback.ttlEntries = before.ttlEntries ∧
      state.rollback.deferredRoTtlBumps = before.deferredRoTtlBumps ∧
      state.rollback.delta = before.delta := by
  refine ⟨?_, ?_, ?_⟩
  · funext key
    change state.rollbackEntries key = _
    unfold rollbackEntries
    cases hsnapshot : state.ttlSnapshots key with
    | none => exact h.untouched hsnapshot
    | some saved =>
      dsimp only
      split
      next hcreated => exact (h.fresh hcreated).symm
      next hnot =>
        rw [h.saved hsnapshot]
        cases hbefore : before.ttlEntries key with
        | none => exact h.absent hnot hbefore
        | some _ => rfl
  · unfold LedgerStateManager.rollback
    dsimp only
    rw [h.bumpsSnapshot, hbumps]
    rfl
  · unfold LedgerStateManager.rollback
    dsimp only
    rw [h.deltaSnapshot, hdelta]
    exact h.delta.truncateTo

/-! ### Transactions that fail -/

section Undo

variable {before s s0 : LedgerStateManager κ} {hot : Finset κ} {readWrite keys : List κ}
  {change : NormalizedLedgerChange κ} {changes : List (NormalizedLedgerChange κ)} {key : κ}
  {v : Nat}

section

variable (h : Within before s)
include h

theorem Within.createOrUpdate (hsame : s.ttlEntries key = before.ttlEntries key) :
    Within before (s.createOrUpdateTtl key v) := by
  unfold createOrUpdateTtl
  split
  next hsome =>
    refine h.updateTtl (.inl fun hnone => ?_) v
    rw [hsame, hnone] at hsome
    cases hsome
  next hnot => exact h.createTtl (hsame ▸ not_isSome_iff_eq_none.mp hnot) v

theorem Within.applyChange (hlegal : LegalChange s hot readWrite change)
    (hsame : s.ttlEntries change.key = before.ttlEntries change.key) :
    Within before (applyChange s0 hot s change) := by
  unfold LedgerStateManager.applyChange
  split
  · unfold applySorobanStorageChange
    split
    · exact h
    · split
      · exact h
      · split
        next hhot =>
          obtain ⟨-, hnone, hfresh⟩ := hlegal.archived hhot
          rw [if_neg hfresh]
          exact h.createTtl (hsame ▸ hnone) _
        · split
          · exact h.createOrUpdate hsame
          · split
            next hnone => exact h.createTtl (hsame ▸ hnone) _
            · exact h
    · split
      · exact h
      · split
        · exact h.recordRoTtlBumpForMeta _ _
        · exact h.createOrUpdate hsame
    · exact h.deleteTtl _
  · exact h

theorem Within.foldl_changes (hlegal : LegalChanges s hot readWrite changes)
    (hsame : ∀ change ∈ changes, s.ttlEntries change.key = before.ttlEntries change.key) :
    Within before (changes.foldl (LedgerStateManager.applyChange s0 hot) s) := by
  induction changes generalizing s with
  | nil => exact h
  | cons change changes ih =>
    obtain ⟨hhead, -⟩ := nodup_cons.mp hlegal.distinct
    refine ih (h.applyChange (hlegal.legal _ mem_cons_self)
      (hsame _ mem_cons_self)) hlegal.tail fun later hlater => ?_
    have hview : (LedgerStateManager.applyChange s0 hot s change).view later.key =
        s.view later.key :=
      view_applyChange_of_ne fun heq => hhead (mem_map.mpr ⟨later, hlater, heq⟩)
    exact (Prod.mk.inj hview).1.trans (hsame later (mem_cons_of_mem _ hlater))

theorem Within.foldl_delete (spared : κ → Prop) [DecidablePred spared] :
    Within before
      (keys.foldl (fun s k => if spared k then s else s.deleteContractEntry k) s) := by
  induction keys generalizing s with
  | nil => exact h
  | cons k keys ih =>
    apply ih
    dsimp only
    split
    · exact h
    · unfold deleteContractEntry
      split
      · exact h.deleteTtl k
      · exact h

theorem Within.foldl_extend (hcreated : s.createdTtl = ∅) :
    Within before (keys.foldl (extendEntry v) s) := by
  induction keys generalizing s with
  | nil => exact h
  | cons k keys ih =>
    have hextended : Within before (s.extendTtl k v) :=
      h.extendTtl (by rw [hcreated]; exact Finset.notMem_empty k) v
    have hstill : (s.extendTtl k v).createdTtl = ∅ := by
      unfold LedgerStateManager.extendTtl
      split
      · exact hcreated
      · split
        · split <;> exact hcreated
        · exact hcreated
    rw [foldl_cons]
    unfold extendEntry
    split
    · exact ih h hcreated
    · split
      · exact ih h hcreated
      · split
        · exact ih h hcreated
        · exact ih hextended hstill

theorem Within.foldl_create (hnone : ∀ key ∈ keys, before.ttlEntries key = none) :
    Within before (keys.foldl (fun s key => s.createTtl key v) s) := by
  induction keys generalizing s with
  | nil => exact h
  | cons k keys ih =>
    exact ih (h.createTtl (hnone k mem_cons_self) v)
      fun key hmem => hnone key (mem_cons_of_mem _ hmem)

theorem Within.foldl_restore : Within before (keys.foldl (restoreEntry v) s) := by
  induction keys generalizing s with
  | nil => exact h
  | cons k keys ih =>
    rw [foldl_cons]
    apply ih
    unfold restoreEntry
    split
    · exact h
    next ttl hsome =>
      split
      · exact h
      · refine h.updateTtl ?_ v
        by_cases hcreated : k ∈ s.createdTtl
        · exact .inr hcreated
        · refine .inl fun hnone => ?_
          rw [h.absent hcreated hnone] at hsome
          cases hsome

end

/-- Whatever an operation does can be undone. -/
theorem Within.perform {op : Operation κ} (hsnapshots : s.ttlSnapshots = fun _ => none)
    (hcreated : s.createdTtl = ∅) (hlegal : s.LegalOperation op) : Within s (s.perform op) := by
  have hstart : Within s s := .refl hsnapshots hcreated
  cases op with
  | invokeHostFunction changes readWrite hot =>
    obtain ⟨returned, -, hperform⟩ := perform_invoke s changes readWrite hot
    rw [hperform]
    exact (hstart.foldl_changes hlegal.1 fun _ _ => rfl).foldl_delete _
  | extendFootprintTtl readOnly newLiveUntil => exact hstart.foldl_extend hcreated
  | restoreFootprint readWrite hotArchiveRestores newTtl =>
    exact (hstart.foldl_create fun key hmem => (hlegal.2 key hmem).2).foldl_restore

end Undo

/-! ### Between transactions -/

/-- A state that no transaction is changing. -/
structure Between (s : LedgerStateManager κ) : Prop where
  saved : ∀ {key value}, s.ttlSnapshots key = some value → value = s.ttlEntries key
  created : s.createdTtl = ∅

section Execution

variable {s : LedgerStateManager κ} {key other : κ} {v : Nat} {keys : List κ}

theorem Between.applyBump (h : Between s) : Between (s.applyBump key v) := by
  unfold LedgerStateManager.applyBump updateTtlNoDelta
  split
  · split
    · split
      · exact h
      · refine ⟨?_, h.created⟩
        intro k value hvalue
        dsimp only at hvalue ⊢
        by_cases hkey : k = key
        · subst hkey
          rw [update_self] at hvalue ⊢
          exact (some.inj hvalue).symm
        · rw [update_of_ne hkey] at hvalue ⊢
          exact h.saved hvalue
    · exact h
  · exact h

theorem ttl_applyBump (s : LedgerStateManager κ) (key other : κ) (v : Nat) :
    (s.applyBump key v).ttlEntries other =
        (if other = key then (s.ttlEntries key).map (max · v) else s.ttlEntries other) ∧
      (s.applyBump key v).deferredRoTtlBumps = s.deferredRoTtlBumps ∧
      (s.applyBump key v).delta = s.delta := by
  unfold LedgerStateManager.applyBump updateTtlNoDelta
  cases httl : s.ttlEntries key with
  | none =>
    refine ⟨?_, rfl, rfl⟩
    by_cases hkey : other = key
    · subst hkey
      simp [httl]
    · simp [hkey]
  | some ttl =>
    dsimp only
    split
    next hlt =>
      rw [if_neg (by simpa using hlt.ne)]
      refine ⟨?_, rfl, rfl⟩
      by_cases hkey : other = key
      · subst hkey
        simp [max_eq_right hlt.le]
      · simp [hkey]
    next hnot =>
      refine ⟨?_, rfl, rfl⟩
      split
      next heq =>
        rw [heq, httl]
        exact congrArg some (max_eq_left (not_lt.mp hnot)).symm
      · rfl

theorem Between.flushRoTtlBump (h : Between s) (key : κ) : Between (s.flushRoTtlBump key) := by
  unfold LedgerStateManager.flushRoTtlBump
  split
  · exact Between.applyBump ⟨h.saved, h.created⟩
  · exact h

theorem flushRoTtlBump_spec (s : LedgerStateManager κ) (key : κ) :
    (∀ other, (s.flushRoTtlBump key).due other = s.due other) ∧
      (∀ other, (s.flushRoTtlBump key).deferredRoTtlBumps other =
        if other = key then none else s.deferredRoTtlBumps other) ∧
      (s.flushRoTtlBump key).delta = s.delta := by
  unfold LedgerStateManager.flushRoTtlBump
  cases hbump : s.deferredRoTtlBumps key with
  | none =>
    refine ⟨fun _ => rfl, fun other => ?_, rfl⟩
    by_cases hkey : other = key
    · subst hkey
      simp [hbump]
    · simp [hkey]
  | some bumped =>
    have hspec := ttl_applyBump { s with
      deferredRoTtlBumps := update s.deferredRoTtlBumps key none } key
    refine ⟨fun other => ?_, fun other => ?_, ?_⟩
    · obtain ⟨httl, hbumps, -⟩ := hspec other bumped
      unfold due
      rw [httl, hbumps]
      dsimp only
      by_cases hkey : other = key
      · subst hkey
        rw [if_pos rfl, update_self, hbump, Option.map_map]
        congr 1
        funext ttl
        simp
      · rw [if_neg hkey, update_of_ne hkey]
    · dsimp only
      rw [(hspec other bumped).2.1]
      dsimp only
      by_cases hkey : other = key
      · subst hkey
        simp
      · simp [hkey]
    · exact (hspec key bumped).2.2

theorem flushForWrite_spec (hbetween : Between s) (keys : List κ) :
    Between (s.flushRoTtlBumpsForWriteFootprint keys) ∧
      (∀ other, (s.flushRoTtlBumpsForWriteFootprint keys).due other = s.due other) ∧
      (∀ other, (s.flushRoTtlBumpsForWriteFootprint keys).deferredRoTtlBumps other =
        if other ∈ keys then none else s.deferredRoTtlBumps other) ∧
      (s.flushRoTtlBumpsForWriteFootprint keys).delta = s.delta := by
  unfold flushRoTtlBumpsForWriteFootprint
  induction keys generalizing s with
  | nil => exact ⟨hbetween, fun _ => rfl, fun _ => by simp, rfl⟩
  | cons key keys ih =>
    obtain ⟨hdue, hbumps, hdelta⟩ := flushRoTtlBump_spec s key
    obtain ⟨hbetween', hdue', hbumps', hdelta'⟩ := ih (hbetween.flushRoTtlBump key)
    refine ⟨hbetween', fun other => (hdue' other).trans (hdue other), fun other => ?_,
      hdelta'.trans hdelta⟩
    rw [foldl_cons, hbumps', hbumps]
    by_cases hmem : other ∈ keys
    · simp [hmem]
    · by_cases hkey : other = key <;> simp [hmem, hkey]

def executed (s : LedgerStateManager κ) (op : Operation κ) : LedgerStateManager κ :=
  (s.beginTransaction op).preApply

theorem delta_flushModified (hbetween : Between s) : s.flushModifiedEntries.delta = s.delta := by
  unfold LedgerStateManager.flushModifiedEntries
  dsimp only
  have hrecord (log : TxChangeLog κ) (key : κ) : s.recordModified log key = log := by
    unfold recordModified
    split
    · rfl
    · split
      next before entry hsaved hentry =>
        have hsame := hbetween.saved hsaved
        rw [hentry, some.injEq] at hsame
        rw [if_pos hsame.symm]
      · rfl
  induction s.modifiedTtl generalizing s with
  | nil => rfl
  | cons key keys ih =>
    rw [foldl_cons, hrecord]
    exact ih hbetween hrecord

/-- What a transaction finds: the same lifetimes, with no bump of what it writes deferred. -/
structure Begun (s s0 : LedgerStateManager κ) (op : Operation κ) : Prop where
  due : ∀ key, s0.due key = s.due key
  flushed : ∀ key ∈ op.writeFootprint, s0.deferredRoTtlBumps key = none
  delta : s0.delta = s.delta
  snapshots : s0.ttlSnapshots = fun _ => none
  created : s0.createdTtl = ∅
  deltaSnapshot : s0.deltaSnapshot = some s0.delta.snapshotLengths
  bumpsSnapshot : s0.deferredRoTtlBumpsSnapshot = some s0.deferredRoTtlBumps

theorem begun_executed (hbetween : Between s) (op : Operation κ) : Begun s (s.executed op) op := by
  obtain ⟨hflushed, hdue, hbumps, hdelta⟩ :=
    flushForWrite_spec hbetween op.writeFootprint
  have hkept : (s.executed op).delta =
      (s.flushRoTtlBumpsForWriteFootprint op.writeFootprint).delta :=
    delta_flushModified (s := s.beginTransaction op) ⟨hflushed.saved, hflushed.created⟩
  refine ⟨hdue, fun key hmem => ?_, hkept.trans hdelta, rfl, rfl, ?_, rfl⟩
  · exact (hbumps key).trans (if_pos hmem)
  · rw [hkept]
    rfl

/-- What a transaction leaves: the lifetimes that its operation reports if it succeeds, and no
trace of it if it does not. -/
structure Leaves (s s' : LedgerStateManager κ) (op : Operation κ) (outcome : Outcome) : Prop where
  between : Between s'
  success : outcome = .success → ∀ key, s'.due key = (s.executed op).lifetime op key (s.due key)
  failure : outcome ≠ .success →
    s'.ttlEntries = (s.executed op).ttlEntries ∧
      s'.deferredRoTtlBumps = (s.executed op).deferredRoTtlBumps ∧ s'.delta = s.delta ∧
      ∀ key, s'.due key = s.due key

theorem executeTransaction_leaves (hbetween : Between s) {op : Operation κ}
    (hlegal : (s.executed op).LegalOperation op) (hnoticed : (s.executed op).NoticedOperation op)
    (outcome : Outcome) : Leaves s (s.executeTransaction op outcome) op outcome := by
  have hbegun := begun_executed hbetween op
  cases outcome with
  | success =>
    refine ⟨⟨nofun, rfl⟩, fun _ key => ?_, fun hne => absurd rfl hne⟩
    rw [← hbegun.due key]
    exact due_perform hlegal hnoticed hbegun.flushed key
  | failure =>
    have hwithin := (Within.perform hbegun.snapshots hbegun.created hlegal).flushModifiedEntries
    obtain ⟨httl, hbumps, hdelta⟩ := hwithin.rollback hbegun.deltaSnapshot hbegun.bumpsSnapshot
    refine ⟨⟨nofun, rfl⟩, nofun, fun _ => ⟨httl, hbumps, hdelta.trans hbegun.delta, ?_⟩⟩
    intro key
    refine Eq.trans ?_ (hbegun.due key)
    unfold due
    rw [show s.executeTransaction op .failure = _ from rfl]
    exact congrArg₂ (fun ttl bump => Option.map (fun t => max t (Option.getD bump 0)) ttl)
      (congrFun httl key) (congrFun hbumps key)
  | rejected =>
    obtain ⟨hflushed, hdue, -, hdelta⟩ :=
      flushForWrite_spec hbetween op.writeFootprint
    exact ⟨⟨hflushed.saved, hflushed.created⟩, nofun, fun _ => ⟨rfl, rfl, hdelta, hdue⟩⟩

end Execution

/-! ### The transactions of a ledger -/

section Ledger

variable {s : LedgerStateManager κ} {key : κ} {op : Operation κ} {outcome : Outcome}
  {txs txs' before after : List (Operation κ × Outcome)} {keys : List κ}

def AllExecuted (p : LedgerStateManager κ → Operation κ → Prop) (s : LedgerStateManager κ) :
    List (Operation κ × Outcome) → Prop
  | [] => True
  | tx :: txs => p (s.executed tx.1) tx.1 ∧ AllExecuted p (s.executeTransaction tx.1 tx.2) txs

/-- The lifetime of a key after all successful transactions: bumps and writes only raise it, and
a deletion or a restored entry starts anew. -/
def lifetimes (s : LedgerStateManager κ) (key : κ) :
    List (Operation κ × Outcome) → Option Nat → Option Nat
  | [], before => before
  | (op, .success) :: txs, before =>
    (s.executeTransaction op .success).lifetimes key txs
      ((s.executed op).lifetime op key before)
  | (op, outcome) :: txs, before => (s.executeTransaction op outcome).lifetimes key txs before

theorem Leaves.due_eq {s' : LedgerStateManager κ} (h : Leaves s s' op outcome) (key : κ) :
    s'.due key = match outcome with
      | .success => (s.executed op).lifetime op key (s.due key)
      | _ => s.due key := by
  cases outcome with
  | success => exact h.success rfl key
  | failure => exact (h.failure nofun).2.2.2 key
  | rejected => exact (h.failure nofun).2.2.2 key

theorem executeCluster_between (hbetween : Between s) (hlegal : AllExecuted LegalOperation s txs)
    (hnoticed : AllExecuted NoticedOperation s txs) : Between (s.executeCluster txs) := by
  induction txs generalizing s with
  | nil => exact hbetween
  | cons tx txs ih =>
    exact ih (executeTransaction_leaves hbetween hlegal.1 hnoticed.1 tx.2).between hlegal.2
      hnoticed.2

theorem executeCluster_due (hbetween : Between s) (hlegal : AllExecuted LegalOperation s txs)
    (hnoticed : AllExecuted NoticedOperation s txs) (key : κ) :
    (s.executeCluster txs).due key = s.lifetimes key txs (s.due key) := by
  induction txs generalizing s with
  | nil => rfl
  | cons tx txs ih =>
    obtain ⟨op, outcome⟩ := tx
    have hleaves := executeTransaction_leaves hbetween hlegal.1 hnoticed.1 outcome
    refine (ih hleaves.between hlegal.2 hnoticed.2).trans ?_
    rw [hleaves.due_eq key]
    cases outcome <;> rfl

theorem ttl_flushDeferred (hkeys : ∀ key, s.deferredRoTtlBumps key ≠ none → key ∈ keys) (key : κ) :
    (s.flushDeferredRoTtlBumps keys).ttlEntries key = s.due key := by
  have hfold (bumps : κ → Option Nat) (step : LedgerStateManager κ → κ → LedgerStateManager κ)
      (hstep : ∀ t k, (step t k).ttlEntries key =
        if key = k then (t.ttlEntries key).map (max · ((bumps key).getD 0)) else t.ttlEntries key)
      (keys : List κ) (t : LedgerStateManager κ) : (keys.foldl step t).ttlEntries key =
        if key ∈ keys then (t.ttlEntries key).map (max · ((bumps key).getD 0))
        else t.ttlEntries key := by
    induction keys generalizing t with
    | nil => simp
    | cons k keys ih =>
      rw [foldl_cons, ih, hstep]
      by_cases hkey : key = k
      · subst hkey
        simp only [if_true, mem_cons_self]
        split
        · rw [Option.map_map]
          congr 1
          funext ttl
          simp
        · rfl
      · simp [hkey]
  unfold flushDeferredRoTtlBumps due
  refine (hfold s.deferredRoTtlBumps _ (fun t k => ?_) _ _).trans ?_
  · cases hbump : s.deferredRoTtlBumps k with
    | none =>
      by_cases hkey : key = k
      · subst hkey
        rw [hbump]
        cases t.ttlEntries key <;> simp
      · simp [hkey]
    | some bumped =>
      dsimp only
      rw [(ttl_applyBump t k key bumped).1]
      split
      next heq =>
        rw [heq, hbump]
        rfl
      · rfl
  dsimp only
  split
  · rfl
  next hnot =>
    have hnone : s.deferredRoTtlBumps key = none := by
      by_contra hsome
      exact hnot (hkeys key hsome)
    rw [hnone]
    cases s.ttlEntries key <;> simp

theorem lifetime_mono {ttl ttl' : Nat} (hlegal : s.LegalOperation op)
    (hflushed : ∀ key ∈ op.writeFootprint, s.deferredRoTtlBumps key = none)
    (hbefore : s.due key = some ttl) (hafter : s.lifetime op key (s.due key) = some ttl') :
    ttl ≤ ttl' := by
  rw [hbefore] at hafter
  cases op with
  | invokeHostFunction changes readWrite hot =>
    unfold lifetime at hafter
    dsimp only at hafter
    split at hafter
    next change _ =>
      unfold NormalizedLedgerChange.lifetime at hafter
      split at hafter
      · exact (some.inj hafter).le
      · exact some.inj hafter ▸ le_max_left _ _
      · exact some.inj hafter ▸ le_max_left _ _
      · cases hafter
    · split at hafter
      · cases hafter
      · exact (some.inj hafter).le
  | extendFootprintTtl readOnly newLiveUntil =>
    unfold lifetime at hafter
    dsimp only at hafter
    split at hafter
    · exact some.inj hafter ▸ le_max_left _ _
    · exact (some.inj hafter).le
  | restoreFootprint readWrite hotArchiveRestores newTtl =>
    unfold lifetime at hafter
    dsimp only at hafter
    split at hafter
    next hhot =>
      unfold due at hbefore
      rw [(hlegal.2 key hhot).2] at hbefore
      cases hbefore
    · split at hafter
      next hexpired =>
        obtain ⟨hrw, -, hlive⟩ := hexpired
        rw [live_of_due (hflushed key hrw), hbefore] at hlive
        have hseq := hlegal.1
        simp only [any_some, decide_eq_false_iff_not] at hlive
        rw [← some.inj hafter]
        omega
      · exact (some.inj hafter).le

end Ledger

/-! ### Transactions that only read an entry -/

section Order

variable {s s0 : LedgerStateManager κ} {key : κ} {op : Operation κ} {outcome : Outcome}
  {hot : Finset κ} {change : NormalizedLedgerChange κ} {txs txs' : List (Operation κ × Outcome)}

def bump (live : Bool) (key : κ) : Operation κ → Option Nat
  | .invokeHostFunction changes _ _ =>
    (changes.find? (·.key = key)).bind (·.ttlNewLiveUntilLedger)
  | .extendFootprintTtl readOnly newLiveUntil =>
    if key ∈ readOnly ∧ live = true then some newLiveUntil else none
  | .restoreFootprint _ _ _ => none

theorem lifetime_of_read (hlegal : s.LegalOperation op) (hread : key ∉ op.writeFootprint)
    (before : Option Nat) :
    s.lifetime op key before =
      (bump (s.live key) key op).elim before fun v => before.map (max · v) := by
  cases op with
  | invokeHostFunction changes readWrite hot =>
    unfold lifetime bump
    dsimp only
    cases hfind : changes.find? (·.key = key) with
    | none => exact if_neg hread
    | some change =>
      have hmem := mem_of_find?_eq_some hfind
      have hkey : change.key = key := by simpa using find?_some hfind
      have hreadOnly : change.readOnly = true :=
        (hlegal.1.legal change hmem).readOnly.mpr (hkey ▸ hread)
      dsimp only [bind_some]
      unfold NormalizedLedgerChange.lifetime
      rw [hreadOnly]
      cases change.ttlNewLiveUntilLedger <;> rfl
  | extendFootprintTtl readOnly newLiveUntil =>
    unfold lifetime bump
    dsimp only
    split <;> rfl
  | restoreFootprint readWrite hotArchiveRestores newTtl =>
    have hhot : key ∉ hotArchiveRestores := fun hmem => hread (hlegal.2 key hmem).1
    unfold lifetime bump
    dsimp only
    rw [if_neg hhot, if_neg fun h => hread h.1]
    rfl

theorem ttl_applyChange_of_read (hreadOnly : change.readOnly = true)
    (hkept : change.hasNewValue = false) :
    (applyChange s0 hot s change).ttlEntries = s.ttlEntries := by
  have hrecord (v : Nat) : (s.recordRoTtlBumpForMeta change.key v).ttlEntries = s.ttlEntries := by
    unfold recordRoTtlBumpForMeta
    split
    · rfl
    · split <;> rfl
  unfold applyChange mapStorageChange
  rw [hreadOnly, hkept]
  simp only [Bool.not_true, Bool.false_and, Bool.or_false, Bool.false_or, Bool.false_eq_true,
    if_false]
  unfold ttlExtended
  cases change.ttlNewLiveUntilLedger with
  | none => rfl
  | some v =>
    dsimp only
    by_cases hlonger : (s0.ttlBucketListSnapshot change.key).getD 0 < v
    · simp only [hlonger, decide_true, if_true]
      unfold applySorobanStorageChange
      dsimp only
      split
      · rfl
      · exact hrecord v
    · simp only [hlonger, decide_false, Bool.false_eq_true, if_false]

theorem live_perform_of_read (hlegal : s.LegalOperation op) (hread : key ∉ op.writeFootprint) :
    (s.perform op).live key = s.live key := by
  cases op with
  | invokeHostFunction changes readWrite hot =>
    obtain ⟨returned, -, hperform⟩ := perform_invoke s changes readWrite hot
    have hchanges (changes' : List (NormalizedLedgerChange κ)) (hsub : changes' ⊆ changes)
        (t : LedgerStateManager κ) :
        (changes'.foldl (applyChange s hot) t).live key = t.live key := by
      induction changes' generalizing t with
      | nil => rfl
      | cons change changes' ih =>
        rw [foldl_cons, ih fun _ h => hsub (mem_cons_of_mem _ h)]
        by_cases hkey : key = change.key
        · have hchange := hlegal.1.legal change (hsub mem_cons_self)
          have hreadOnly := hchange.readOnly.mpr (hkey ▸ hread)
          unfold live
          rw [ttl_applyChange_of_read hreadOnly (hchange.kept hreadOnly),
            (sameLedger_applyChange (s := t)).1]
        · exact live_congr sameLedger_applyChange (view_applyChange_of_ne hkey)
    have hdelete (keys : List κ) (hnot : key ∉ keys) (t : LedgerStateManager κ) :
        (keys.foldl (fun s key => if key ∈ returned ∨ key ∈ hot then s
          else s.deleteContractEntry key) t).live key = t.live key := by
      induction keys generalizing t with
      | nil => rfl
      | cons k keys ih =>
        rw [mem_cons, not_or] at hnot
        rw [foldl_cons, ih hnot.2]
        split
        · rfl
        · refine live_congr ?_ (view_deleteContractEntry hnot.1)
          unfold deleteContractEntry
          split <;> exact ⟨rfl, rfl⟩
    rw [hperform, hdelete readWrite hread, hchanges changes (List.Subset.refl _)]
  | extendFootprintTtl readOnly newLiveUntil =>
    change (readOnly.foldl (extendEntry newLiveUntil) s).live key = s.live key
    clear hlegal hread
    induction readOnly generalizing s with
    | nil => rfl
    | cons k keys ih =>
      rw [foldl_cons, ih]
      by_cases hkey : key = k
      · exact hkey ▸ live_extendEntry
      · exact live_congr sameLedger_extendEntry (view_extendEntry hkey)
  | restoreFootprint readWrite hotArchiveRestores newTtl =>
    have hhot : key ∉ hotArchiveRestores := fun hmem => hread (hlegal.2 key hmem).1
    have hrestore (keys : List κ) (hnot : key ∉ keys) (t : LedgerStateManager κ) :
        (keys.foldl (restoreEntry newTtl) t).live key = t.live key := by
      induction keys generalizing t with
      | nil => rfl
      | cons k keys ih =>
        rw [mem_cons, not_or] at hnot
        rw [foldl_cons, ih hnot.2]
        exact live_congr sameLedger_restoreEntry (view_restoreEntry hnot.1)
    exact (hrestore readWrite hread _).trans
      (live_congr ⟨ledgerSeq_foldl_create, snapshot_foldl_create⟩ (view_foldl_create hhot))

theorem live_begin_of_read (hread : key ∉ op.writeFootprint) :
    (s.beginTransaction op).live key = s.live key := by
  have hbump (t : LedgerStateManager κ) (k : κ) (hne : key ≠ k) :
      (t.flushRoTtlBump k).live key = t.live key := by
    unfold LedgerStateManager.flushRoTtlBump
    split
    next bumped _ =>
      obtain ⟨httl, -, -⟩ := ttl_applyBump { t with
        deferredRoTtlBumps := update t.deferredRoTtlBumps k none } k key bumped
      rw [if_neg hne] at httl
      unfold live
      rw [httl]
      have hseq (u : LedgerStateManager κ) : (u.applyBump k bumped).ledgerSeq = u.ledgerSeq := by
        unfold LedgerStateManager.applyBump updateTtlNoDelta
        split
        · split
          · split <;> rfl
          · rfl
        · rfl
      rw [hseq]
    · rfl
  change (s.flushRoTtlBumpsForWriteFootprint op.writeFootprint).live key = s.live key
  unfold flushRoTtlBumpsForWriteFootprint
  generalize op.writeFootprint = keys at hread ⊢
  induction keys generalizing s with
  | nil => rfl
  | cons k keys ih =>
    rw [mem_cons, not_or] at hread
    rw [foldl_cons, ih hread.2, hbump s k hread.1]

theorem live_execute_of_read (hbetween : Between s) (hlegal : (s.executed op).LegalOperation op)
    (hread : key ∉ op.writeFootprint) :
    (s.executeTransaction op outcome).live key = s.live key := by
  have hbegin : (s.executed op).live key = s.live key := live_begin_of_read hread
  cases outcome with
  | success => exact (live_perform_of_read hlegal hread).trans hbegin
  | failure =>
    have hbegun := begun_executed hbetween op
    have hwithin := (Within.perform hbegun.snapshots hbegun.created hlegal).flushModifiedEntries
    obtain ⟨httl, -, -⟩ := hwithin.rollback hbegun.deltaSnapshot hbegun.bumpsSnapshot
    refine Eq.trans ?_ hbegin
    unfold live
    rw [show (s.executeTransaction op .failure).ttlEntries = (s.executed op).ttlEntries from httl,
      show (s.executeTransaction op .failure).ledgerSeq = (s.executed op).ledgerSeq from
        hwithin.ledgerSeq]
  | rejected => exact hbegin

/-- The bumps of a run that only reads an entry. -/
def bumps (live : Bool) (key : κ) (txs : List (Operation κ × Outcome)) : List Nat :=
  txs.filterMap fun tx => match tx.2 with
    | .success => bump live key tx.1
    | _ => none

theorem due_of_reads (hbetween : Between s) (hlegal : AllExecuted LegalOperation s txs)
    (hnoticed : AllExecuted NoticedOperation s txs)
    (hread : ∀ tx ∈ txs, key ∉ tx.1.writeFootprint) :
    (s.executeCluster txs).due key =
      (s.due key).map fun ttl => (bumps (s.live key) key txs).foldl max ttl := by
  induction txs generalizing s with
  | nil => exact map_id'.symm
  | cons tx txs ih =>
    obtain ⟨op, outcome⟩ := tx
    have hleaves := executeTransaction_leaves hbetween hlegal.1 hnoticed.1 outcome
    have hnot := hread _ mem_cons_self
    have hstep := ih hleaves.between hlegal.2 hnoticed.2
      fun tx htx => hread tx (mem_cons_of_mem _ htx)
    refine hstep.trans ?_
    rw [hleaves.due_eq key, live_execute_of_read hbetween hlegal.1 hnot]
    cases outcome with
    | success =>
      dsimp only
      rw [lifetime_of_read hlegal.1 hnot,
        show (s.executed op).live key = s.live key from live_begin_of_read hnot]
      unfold bumps
      rw [filterMap_cons]
      dsimp only
      cases bump (s.live key) key op with
      | none => rfl
      | some v =>
        dsimp only [Option.elim_some]
        rw [Option.map_map]
        rfl
    | failure => rfl
    | rejected => rfl

/-- Their order does not matter. -/
theorem due_of_reads_perm (hbetween : Between s) (hperm : txs.Perm txs')
    (hlegal : AllExecuted LegalOperation s txs) (hlegal' : AllExecuted LegalOperation s txs')
    (hnoticed : AllExecuted NoticedOperation s txs)
    (hnoticed' : AllExecuted NoticedOperation s txs')
    (hread : ∀ tx ∈ txs, key ∉ tx.1.writeFootprint) :
    (s.executeCluster txs).due key = (s.executeCluster txs').due key := by
  rw [due_of_reads hbetween hlegal hnoticed hread, due_of_reads hbetween hlegal' hnoticed'
    fun tx htx => hread tx (hperm.mem_iff.mpr htx)]
  congr 1
  funext ttl
  exact (hperm.filterMap _).foldl_eq' (fun a _ b _ c => by
    rw [max_assoc, max_assoc, max_comm a b]) ttl

end Order

/-! ### The result -/

section Result

theorem allExecuted_append {p : LedgerStateManager κ → Operation κ → Prop}
    {s : LedgerStateManager κ} {before after : List (Operation κ × Outcome)}
    (hall : AllExecuted p s (before ++ after)) :
    AllExecuted p s before ∧ AllExecuted p (s.executeCluster before) after := by
  induction before generalizing s with
  | nil => exact ⟨trivial, hall⟩
  | cons tx before ih =>
    obtain ⟨hhead, htail⟩ := hall
    exact ⟨⟨hhead, (ih htail).1⟩, (ih htail).2⟩

omit [DecidableEq κ] in
theorem between_start (ledgerSeq : Nat) (ttls : κ → Option Nat) :
    Between (start ledgerSeq ttls) := ⟨nofun, rfl⟩

/-- At the end of a ledger each entry lives as long as its successful transactions say. None that
failed leaves a trace, none shortens a lifetime, and the order of those that only read an entry
does not matter. -/
theorem ledger_lifetimes (ledgerSeq : Nat) (ttls : κ → Option Nat)
    {txs : List (Operation κ × Outcome)}
    (hlegal : AllExecuted LegalOperation (start ledgerSeq ttls) txs)
    (hnoticed : AllExecuted NoticedOperation (start ledgerSeq ttls) txs) {keys : List κ}
    (hkeys : ∀ key, ((start ledgerSeq ttls).executeCluster txs).deferredRoTtlBumps key ≠ none →
      key ∈ keys) :
    (∀ key, (((start ledgerSeq ttls).executeCluster txs).flushDeferredRoTtlBumps keys).ttlEntries
        key = (start ledgerSeq ttls).lifetimes key txs (ttls key)) ∧
      (∀ before op outcome after s s', txs = before ++ (op, outcome) :: after →
        s = (start ledgerSeq ttls).executeCluster before → s' = s.executeTransaction op outcome →
        (outcome ≠ .success →
          s'.ttlEntries = (s.executed op).ttlEntries ∧
            s'.deferredRoTtlBumps = (s.executed op).deferredRoTtlBumps ∧ s'.delta = s.delta ∧
            ∀ key, s'.due key = s.due key) ∧
        ∀ key ttl ttl', s.due key = some ttl → s'.due key = some ttl' → ttl ≤ ttl') ∧
      ∀ before reads reads' s, txs = before ++ reads → reads.Perm reads' →
        s = (start ledgerSeq ttls).executeCluster before → AllExecuted LegalOperation s reads' →
        AllExecuted NoticedOperation s reads' →
        ∀ key, (∀ tx ∈ reads, key ∉ tx.1.writeFootprint) →
          (s.executeCluster reads).due key = (s.executeCluster reads').due key := by
  refine ⟨fun key => ?_, ?_, ?_⟩
  · rw [ttl_flushDeferred hkeys,
      executeCluster_due (between_start ledgerSeq ttls) hlegal hnoticed key]
    congr 1
    change (ttls key).map (fun ttl => max ttl 0) = ttls key
    cases ttls key <;> simp
  · rintro before op outcome after s s' rfl rfl rfl
    obtain ⟨hlegalBefore, hlegalNow, -⟩ := allExecuted_append hlegal
    obtain ⟨hnoticedBefore, hnoticedNow, -⟩ := allExecuted_append hnoticed
    have hbetween := executeCluster_between (between_start ledgerSeq ttls) hlegalBefore
      hnoticedBefore
    have hleaves := executeTransaction_leaves hbetween hlegalNow hnoticedNow outcome
    refine ⟨hleaves.failure, fun key ttl ttl' hbefore hafter => ?_⟩
    · have hbegun := begun_executed hbetween op
      rw [hleaves.due_eq key] at hafter
      cases outcome with
      | success =>
        rw [← hbegun.due key] at hbefore hafter
        exact lifetime_mono hlegalNow hbegun.flushed hbefore hafter
      | failure => exact (some.inj (hbefore.symm.trans hafter)).le
      | rejected => exact (some.inj (hbefore.symm.trans hafter)).le
  · rintro before reads reads' s rfl hperm rfl hlegal' hnoticed' key hread
    obtain ⟨hlegalBefore, hlegalReads⟩ := allExecuted_append hlegal
    obtain ⟨hnoticedBefore, hnoticedReads⟩ := allExecuted_append hnoticed
    exact due_of_reads_perm
      (executeCluster_between (between_start ledgerSeq ttls) hlegalBefore hnoticedBefore) hperm
      hlegalReads hlegal' hnoticedReads hnoticed' hread

/-! ### Runs to compare -/

/-- One entry, which lives until ledger 1000. -/
def oneEntry : LedgerStateManager ℕ := start 100 fun key => if key = 7 then some 1000 else none

/-- The host reports one entry. -/
def reports (change : NormalizedLedgerChange ℕ) : Operation ℕ :=
  .invokeHostFunction [change] (if change.readOnly then [] else [change.key]) ∅

theorem legal_reports {s : LedgerStateManager ℕ} {change : NormalizedLedgerChange ℕ}
    (hkept : change.readOnly = true → change.hasNewValue = false)
    (hwritten : change.hasNewValue = true → ∃ v, change.ttlNewLiveUntilLedger = some v ∧ 0 < v ∧
      ∀ ttl, s.ttlEntries change.key = some ttl → ttl ≤ v)
    (hgone : change.leftOut = true → s.ttlExtended change = false)
    (hlive : change.readOnly = true → ∀ ttl, s.ttlEntries change.key = some ttl →
      s.ledgerSeq ≤ ttl) : s.LegalOperation (reports change) := by
  refine ⟨⟨nodup_singleton _, fun other hother => ?_⟩, fun key hkey => ?_⟩
  · obtain rfl := mem_singleton.mp hother
    refine ⟨?_, hkept, hwritten, hgone, hlive, fun hmem => ?_⟩
    · cases other.readOnly <;> simp
    · exact absurd hmem (Finset.notMem_empty _)
  · exact absurd hkey (Finset.notMem_empty _)

def bumpThenFail : List (Operation ℕ × Outcome) :=
  [(reports ⟨7, true, false, some 1100⟩, .success), (.extendFootprintTtl [7] 1200, .failure)]

theorem ledger_lifetimes_bumped :
    ((oneEntry.executeCluster bumpThenFail).flushDeferredRoTtlBumps [7]).ttlEntries 7 =
      some 1100 := by
  have hlegal : AllExecuted LegalOperation oneEntry bumpThenFail := by
    refine ⟨legal_reports (fun _ => rfl) nofun nofun (fun _ ttl httl => ?_), trivial, trivial⟩
    rw [← some.inj httl]
    decide
  have hnoticed : AllExecuted NoticedOperation oneEntry bumpThenFail := by
    refine ⟨fun change hchange v ttl hv _ _ => ?_, trivial, trivial⟩
    obtain rfl := mem_singleton.mp hchange
    rw [← some.inj hv]
    decide
  refine ((ledger_lifetimes 100 _ hlegal hnoticed ?_).1 7).trans rfl
  intro key hdeferred
  by_contra hne
  refine hdeferred ?_
  change update (fun _ => none) 7 _ key = none
  exact update_of_ne (fun heq => hne (mem_singleton.mpr heq)) _ _

/-- The entry is deleted, created again for a shorter time, and bumped. -/
def recreateThenBump : List (Operation ℕ × Outcome) :=
  [(reports ⟨7, false, false, some 0⟩, .success), (reports ⟨7, false, true, some 800⟩, .success),
    (reports ⟨7, true, false, some 900⟩, .success)]

/-- The bump is lost, as the lifetime is shorter than at the start of the ledger. -/
theorem recreated_bump_lost :
    AllExecuted LegalOperation oneEntry recreateThenBump ∧
      oneEntry.lifetimes 7 recreateThenBump (some 1000) = some 900 ∧
      ((oneEntry.executeCluster recreateThenBump).flushDeferredRoTtlBumps [7]).ttlEntries 7 =
        some 800 := by
  refine ⟨⟨legal_reports nofun nofun (fun _ => rfl) nofun,
    legal_reports nofun (fun _ => ⟨800, rfl, by decide, nofun⟩) nofun nofun,
    legal_reports (fun _ => rfl) nofun nofun (fun _ ttl httl => ?_), trivial⟩, rfl, rfl⟩
  rw [← some.inj httl]
  decide

end Result

end LedgerStateManager

end Henyey.Ttl
