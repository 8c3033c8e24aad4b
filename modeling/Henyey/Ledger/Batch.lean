import Henyey.Foundation.Writes
import Henyey.Ledger.Coalescing

/-!
# The batch of a delta is exact

Applying the three lists of a delta to the ledger before leads to what its
operations performed. What is written bears the sequence of the ledger.
-/

namespace Henyey.Ledger

open Foundation DeltaCategorization EntryChange LedgerDelta List
open EntryChange
open Function

variable {I D : Type} [DecidableEq I]
  {pre : LedgerMap I D} {s : Performed I D} {d : LedgerDelta I D} {op : LedgerOp I D}

/-! ### The three lists -/

namespace LedgerDelta

theorem drainChanges_eq {keys : List (LedgerKey I)} (hnodup : keys.Nodup)
    (changes : LedgerKey I → Option (EntryChange I D)) :
    drainChanges keys changes = keys.filterMap changes := by
  induction keys generalizing changes with
  | nil => rfl
  | cons key keys ih =>
    rw [nodup_cons] at hnodup
    unfold drainChanges
    cases hchange : changes key with
    | none => simp [hchange, ih hnodup.2]
    | some change =>
      have hrest : keys.filterMap (Function.update changes key none) = keys.filterMap changes := by
        refine filterMap_congr fun k hk => ?_
        have hne : k ≠ key := fun h => hnodup.1 (h ▸ hk)
        rw [update_of_ne hne]
      simp [hchange, ih hnodup.2, hrest]

omit [DecidableEq I] in
theorem key_of_under {key : LedgerKey I} {change : EntryChange I D} (hunder : change.Under key) :
    change.key = key := by
  cases change with
  | created entry => exact hunder
  | updated previous current => exact hunder.2
  | deleted previous => exact hunder

omit [DecidableEq I] in
theorem map_key_drain (hd : d.WellFormed) :
    (d.changeOrder.filterMap d.changes).map EntryChange.key = d.changeOrder := by
  have hall : ∀ key ∈ d.changeOrder, (d.changes key).map EntryChange.key = some key := by
    intro key hkey
    obtain ⟨change, hchange⟩ := Option.isSome_iff_exists.mp ((hd.listed key).mp hkey)
    rw [hchange]
    exact congrArg some (key_of_under (hd.under key change hchange))
  rw [map_filterMap]
  exact (filterMap_congr hall).trans filterMap_some

end LedgerDelta

/-- The batch of a delta as writes to a map. -/
def DeltaCategorization.writes (c : DeltaCategorization I D) :
    List (LedgerKey I × Option (LedgerEntry I D)) :=
  c.initEntries.map (fun entry => (entryToKey entry, some entry)) ++
    (c.liveEntries.map (fun entry => (entryToKey entry, some entry)) ++
      c.deadKeys.map (fun key => (key, none)))

def LedgerMap.applyBatch (map : LedgerMap I D) (c : DeltaCategorization I D) : LedgerMap I D :=
  applyWrites c.writes map

def EntryChange.write (ledgerSeq : U32) (change : EntryChange I D) :
    LedgerKey I × Option (LedgerEntry I D) :=
  (change.key, (change.stamp ledgerSeq).visibleEntry)

namespace DeltaCategorization

variable {c : DeltaCategorization I D} {change : EntryChange I D}

omit [DecidableEq I] in
/-- Collecting offers and pools leaves the batch alone. -/
theorem writes_collectForCommit (collect : Bool) :
    (collectForCommit collect change c).writes = c.writes := by
  unfold collectForCommit
  split
  · rfl
  · rfl
  · split <;> rfl
  · rfl

omit [DecidableEq I] in
theorem writes_sortChange (c : DeltaCategorization I D) (change : EntryChange I D) :
    (c.sortChange change).writes.Perm (c.writes ++ [(change.key, change.visibleEntry)]) := by
  cases change with
  | created entry =>
    simp only [writes, sortChange, map_append, map_cons, map_nil, append_assoc]
    refine List.Perm.append_left _ (perm_append_comm.trans ?_)
    rw [append_assoc]
    exact List.Perm.refl _
  | updated previous current =>
    simp only [writes, sortChange, map_append, map_cons, map_nil, append_assoc]
    exact List.Perm.append_left _ (List.Perm.append_left _ perm_append_comm)
  | deleted previous =>
    simp only [writes, sortChange, map_append, map_cons, map_nil, append_assoc]
    exact List.Perm.refl _

end DeltaCategorization

omit [DecidableEq I] in
theorem categorizeChanges_writes (changes : List (EntryChange I D)) (collect : Bool)
    (ledgerSeq : U32) :
    (categorizeChanges changes collect ledgerSeq).writes.Perm
      (changes.map (write ledgerSeq)) := by
  have hfold : ∀ c : DeltaCategorization I D, (changes.foldl (fun c change =>
      (collectForCommit collect (change.stamp ledgerSeq) c).sortChange
        (change.stamp ledgerSeq)) c).writes.Perm
        (c.writes ++ changes.map (write ledgerSeq)) := by
    induction changes with
    | nil => simp
    | cons change changes ih =>
      intro c
      have hkey : (change.stamp ledgerSeq).key = change.key := by cases change <;> rfl
      have hone := writes_sortChange
        (collectForCommit collect (change.stamp ledgerSeq) c)
        (change.stamp ledgerSeq)
      rw [writes_collectForCommit, hkey] at hone
      refine (ih _).trans ((hone.append_right _).trans ?_)
      rw [append_assoc]
      exact List.Perm.refl _
  exact hfold .empty

namespace EntryChange

def initEntry (ledgerSeq : U32) : EntryChange I D → Option (LedgerEntry I D)
  | created entry => some (entry.stamp ledgerSeq)
  | _ => none

def liveEntry (ledgerSeq : U32) : EntryChange I D → Option (LedgerEntry I D)
  | updated _ current => some (current.stamp ledgerSeq)
  | _ => none

/-- What a deletion puts into the third list. -/
def deadKey : EntryChange I D → Option (LedgerKey I)
  | deleted previous => some (entryToKey previous)
  | _ => none

end EntryChange

/-- Each list holds its own kind of change. -/
structure DeltaCategorization.Sorted (ledgerSeq : U32) (changes : List (EntryChange I D))
    (c : DeltaCategorization I D) : Prop where
  init : c.initEntries = changes.filterMap (initEntry ledgerSeq)
  live : c.liveEntries = changes.filterMap (liveEntry ledgerSeq)
  dead : c.deadKeys = changes.filterMap deadKey
  counts : c.createdCount = c.initEntries.length ∧ c.updatedCount = c.liveEntries.length ∧
    c.deletedCount = c.deadKeys.length

section

omit [DecidableEq I]

variable {changes : List (EntryChange I D)}

theorem DeltaCategorization.sorted_collectForCommit {ledgerSeq : U32} {c : DeltaCategorization I D}
    (hc : c.Sorted ledgerSeq changes) (collect : Bool) (change : EntryChange I D) :
    (collectForCommit collect change c).Sorted ledgerSeq changes := by
  have hfields : ∀ offers shares collected, ({ c with
      hasOffers := offers
      hasPoolShareTrustlines := shares
      offerPoolChanges := collected } : DeltaCategorization I D).Sorted ledgerSeq changes :=
    fun _ _ _ => ⟨hc.init, hc.live, hc.dead, hc.counts⟩
  unfold collectForCommit
  split
  · exact hfields _ _ _
  · exact hfields _ _ _
  · split
    · exact hfields _ _ _
    · exact hc
  · exact hc

theorem DeltaCategorization.sorted_sortChange {ledgerSeq : U32} {c : DeltaCategorization I D}
    (hc : c.Sorted ledgerSeq changes) (change : EntryChange I D) :
    (c.sortChange (change.stamp ledgerSeq)).Sorted ledgerSeq (changes ++ [change]) := by
  obtain ⟨hcreated, hupdated, hdeleted⟩ := hc.counts
  cases change with
  | created _ | updated _ _ | deleted _ =>
    exact ⟨by simp [sortChange, stamp, initEntry, hc.init],
      by simp [sortChange, stamp, liveEntry, hc.live],
      by simp [sortChange, stamp, deadKey, hc.dead],
      by simp [sortChange, stamp, hcreated, hupdated, hdeleted]⟩

theorem categorizeChanges_sorted (changes : List (EntryChange I D)) (collect : Bool)
    (ledgerSeq : U32) : (categorizeChanges changes collect ledgerSeq).Sorted ledgerSeq changes := by
  have hfold : ∀ done c, DeltaCategorization.Sorted ledgerSeq done c →
      DeltaCategorization.Sorted ledgerSeq (done ++ changes) (changes.foldl (fun c change =>
        (collectForCommit collect (change.stamp ledgerSeq) c).sortChange
          (change.stamp ledgerSeq)) c) := by
    induction changes with
    | nil =>
      intro done c hc
      simpa using hc
    | cons change changes ih =>
      intro done c hc
      have hnext := sorted_sortChange
        (sorted_collectForCommit hc collect (change.stamp ledgerSeq)) change
      simpa using ih _ _ hnext
  exact hfold [] .empty ⟨rfl, rfl, rfl, rfl, rfl, rfl⟩

end

/-! ### Exactness -/

/-- The batch that a delta hands over, whether or not pools are collected. -/
def LedgerDelta.batch (d : LedgerDelta I D) (collect : Bool) : DeltaCategorization I D :=
  (d.drainCategorizationForBucketUpdate collect).1

namespace LedgerDelta

section

variable (hd : d.WellFormed)
include hd

omit [DecidableEq I] in
theorem WellFormed.mem_drain_iff {change : EntryChange I D} :
    change ∈ d.changeOrder.filterMap d.changes ↔ d.changes change.key = some change := by
  rw [mem_filterMap]
  constructor
  · rintro ⟨key, _, hchange⟩
    rw [key_of_under (hd.under key change hchange), hchange]
  · intro hchange
    exact ⟨change.key, (hd.listed _).mpr (by rw [hchange]; rfl), hchange⟩

section

variable (collect : Bool)
include collect

theorem WellFormed.batch_eq :
    d.batch collect =
      categorizeChanges (d.changeOrder.filterMap d.changes) collect d.ledgerSeq := by
  unfold batch drainCategorizationForBucketUpdate
  rw [drainChanges_eq hd.nodup]

theorem WellFormed.batch_writes :
    (d.batch collect).writes.Perm
      ((d.changeOrder.filterMap d.changes).map (write d.ledgerSeq)) := by
  rw [hd.batch_eq]
  exact categorizeChanges_writes _ _ _

theorem WellFormed.batch_keys : ((d.batch collect).writes.map Prod.fst).Perm d.changeOrder := by
  have hkeys := (hd.batch_writes collect).map Prod.fst
  rw [map_map] at hkeys
  have hmap := map_key_drain hd
  rwa [show Prod.fst ∘ write d.ledgerSeq = EntryChange.key from rfl, hmap] at hkeys

theorem WellFormed.batch_sorted :
    (d.batch collect).Sorted d.ledgerSeq (d.changeOrder.filterMap d.changes) := by
  rw [hd.batch_eq]
  exact categorizeChanges_sorted _ _ _

theorem WellFormed.mem_initEntries {e : LedgerEntry I D} :
    e ∈ (d.batch collect).initEntries ↔ ∃ entry,
      d.changes (entryToKey entry) = some (.created entry) ∧ e = entry.stamp d.ledgerSeq := by
  rw [(hd.batch_sorted collect).init, mem_filterMap]
  constructor
  · rintro ⟨change, hmem, hentry⟩
    cases change with
    | created entry => exact ⟨entry, hd.mem_drain_iff.mp hmem, (Option.some.inj hentry).symm⟩
    | updated previous current => cases hentry
    | deleted previous => cases hentry
  · rintro ⟨entry, hchange, rfl⟩
    exact ⟨.created entry, hd.mem_drain_iff.mpr hchange, rfl⟩

theorem WellFormed.mem_liveEntries {e : LedgerEntry I D} :
    e ∈ (d.batch collect).liveEntries ↔ ∃ previous current,
      d.changes (entryToKey current) = some (.updated previous current) ∧
        e = current.stamp d.ledgerSeq := by
  rw [(hd.batch_sorted collect).live, mem_filterMap]
  constructor
  · rintro ⟨change, hmem, hentry⟩
    cases change with
    | created entry => cases hentry
    | updated previous current =>
      exact ⟨previous, current, hd.mem_drain_iff.mp hmem, (Option.some.inj hentry).symm⟩
    | deleted previous => cases hentry
  · rintro ⟨previous, current, hchange, rfl⟩
    exact ⟨.updated previous current, hd.mem_drain_iff.mpr hchange, rfl⟩

theorem WellFormed.mem_deadKeys {key : LedgerKey I} :
    key ∈ (d.batch collect).deadKeys ↔ ∃ previous,
      d.changes (entryToKey previous) = some (.deleted previous) ∧ key = entryToKey previous := by
  rw [(hd.batch_sorted collect).dead, mem_filterMap]
  constructor
  · rintro ⟨change, hmem, hkey⟩
    cases change with
    | created entry => cases hkey
    | updated previous current => cases hkey
    | deleted previous =>
      exact ⟨previous, hd.mem_drain_iff.mp hmem, (Option.some.inj hkey).symm⟩
  · rintro ⟨previous, hchange, rfl⟩
    exact ⟨.deleted previous, hd.mem_drain_iff.mpr hchange, rfl⟩

theorem WellFormed.batch_nodup :
    ((d.batch collect).initEntries.map entryToKey ++
      ((d.batch collect).liveEntries.map entryToKey ++ (d.batch collect).deadKeys)).Nodup := by
  have hkeys := hd.batch_keys collect
  have hfst : (d.batch collect).writes.map Prod.fst =
      (d.batch collect).initEntries.map entryToKey ++
        ((d.batch collect).liveEntries.map entryToKey ++ (d.batch collect).deadKeys) := by
    simp [writes, comp_def]
  rw [hfst] at hkeys
  exact hkeys.nodup_iff.mpr hd.nodup

end

end

end LedgerDelta

namespace Tracks

theorem applyBatch_eq (htracks : Tracks pre s d) (collect : Bool) :
    pre.applyBatch (d.batch collect) = fun key =>
      if s.touched key then (s.map key).map (LedgerEntry.stamp d.ledgerSeq) else pre key := by
  have hnodup : ((d.batch collect).writes.map Prod.fst).Nodup :=
    (htracks.wellFormed.batch_keys collect).nodup_iff.mpr htracks.wellFormed.nodup
  funext key
  have hcoalesced := htracks.coalesced key
  cases hchange : d.changes key with
  | none =>
    have hunlisted : key ∉ (d.batch collect).writes.map Prod.fst := by
      rw [(htracks.wellFormed.batch_keys collect).mem_iff, htracks.wellFormed.listed, hchange]
      simp
    rw [LedgerMap.applyBatch, applyWrites_of_notMem hunlisted]
    rw [hchange] at hcoalesced
    cases hcoalesced with
    | unchanged hsame hvoid =>
      split
      next htouched => simp [hsame, hvoid htouched]
      next _ => rfl
  | some change =>
    have hkey : change.key = key :=
      key_of_under (htracks.wellFormed.under key change hchange)
    have hwritten : (key, (change.stamp d.ledgerSeq).visibleEntry) ∈ (d.batch collect).writes := by
      rw [(htracks.wellFormed.batch_writes collect).mem_iff]
      refine mem_map.mpr ⟨change, htracks.wellFormed.mem_drain_iff.mpr (hkey ▸ hchange), ?_⟩
      exact Prod.ext hkey rfl
    rw [LedgerMap.applyBatch, applyWrites_of_mem hnodup hwritten]
    rw [hchange] at hcoalesced
    cases hcoalesced with
    | created hbefore hnow htouched => simp [htouched, hnow, stamp, visibleEntry]
    | updated hbefore hnow htouched => simp [htouched, hnow, stamp, visibleEntry]
    | deleted hbefore hnow htouched => simp [htouched, hnow, stamp, visibleEntry]

section

omit [DecidableEq I]

section

variable (htracks : Tracks pre s d)
include htracks

theorem before_created {entry : LedgerEntry I D}
    (hchange : d.changes (created entry).key = some (.created entry)) :
    pre (entryToKey entry) = none := by
  have hcoalesced := htracks.coalesced (entryToKey entry)
  rw [show d.changes (entryToKey entry) = _ from hchange] at hcoalesced
  cases hcoalesced with
  | created hbefore _ _ => exact hbefore

theorem before_updated {previous current : LedgerEntry I D}
    (hchange : d.changes (updated previous current).key =
      some (.updated previous current)) : (pre (entryToKey current)).isSome := by
  have hcoalesced := htracks.coalesced (entryToKey current)
  rw [show d.changes (entryToKey current) = _ from hchange] at hcoalesced
  cases hcoalesced with
  | updated hbefore _ _ => exact hbefore

theorem before_deleted {previous : LedgerEntry I D}
    (hchange : d.changes (deleted previous).key = some (.deleted previous)) :
    (pre (entryToKey previous)).isSome := by
  have hcoalesced := htracks.coalesced (entryToKey previous)
  rw [show d.changes (entryToKey previous) = _ from hchange] at hcoalesced
  cases hcoalesced with
  | deleted hbefore _ _ => exact hbefore

theorem mem_changeOrder_iff {key : LedgerKey I} :
    key ∈ d.changeOrder ↔ s.touched key = true ∧ ((pre key).isSome ∨ (s.map key).isSome) := by
  rw [htracks.wellFormed.listed]
  have hcoalesced := htracks.coalesced key
  generalize d.changes key = change at hcoalesced ⊢
  cases hcoalesced with
  | unchanged hsame hvoid =>
    rw [hsame]
    simpa using hvoid
  | created _ hnow htouched => simp [hnow, htouched]
  | updated hbefore _ htouched => simp [hbefore, htouched]
  | deleted hbefore _ htouched => simp [hbefore, htouched]

end

end

end Tracks

/-- Perform all operations; config settings stay. -/
def LedgerMap.performAll (map : LedgerMap I D) (ops : List (LedgerOp I D)) : LedgerMap I D :=
  ops.foldl (fun map op => if op.refused then map else op.perform map) map

omit [DecidableEq I] in
def LedgerOp.Lowers (map : LedgerMap I D) : LedgerOp I D → Prop
  | .update _ current => (entryToKey current).isTtl ∧ ∃ existing ∈ map (entryToKey current),
      current.liveUntil ≤ existing.liveUntil ∧ current ≠ existing
  | _ => False

/-- No update lowers a TTL entry when its turn comes. -/
def NeverLowers : List (LedgerOp I D) → LedgerMap I D → Prop
  | [], _ => True
  | op :: ops, map => ¬op.Lowers map ∧ NeverLowers ops (map.performAll [op])

omit [DecidableEq I] in
/-- What an operation writes bears the sequence of the ledger. -/
def LedgerOp.Stamped (ledgerSeq : U32) : LedgerOp I D → Prop
  | .create entry => entry.lastModifiedLedgerSeq = ledgerSeq
  | .update _ current => current.lastModifiedLedgerSeq = ledgerSeq
  | .delete _ => True

namespace Performed

omit [DecidableEq I] in
theorem updated_eq {previous current : LedgerEntry I D}
    (hraises : ¬(LedgerOp.update previous current).Lowers s.map) : s.updated pre current = current := by
  unfold updated
  split
  · split
    next existing hexisting =>
      unfold later
      split
      next hlower =>
        by_contra hne
        exact hraises ⟨hlower.1, existing, hexisting, hlower.2, fun h => hne h.symm⟩
      next _ => rfl
    next _ => rfl
  next _ => rfl

/-- Without lowering updates the rules of the delta change nothing. -/
theorem step_map (hraises : ¬op.Lowers s.map) : (s.step pre op).map = s.map.performAll [op] := by
  cases hrefused : op.refused with
  | true => simp [step_refused hrefused, LedgerMap.performAll, hrefused]
  | false =>
    rw [step_accepted hrefused]
    cases op with
    | create entry => rfl
    | update previous current =>
      change Function.update s.map _ (some (updated pre s current)) = _
      rw [updated_eq hraises]
      rfl
    | delete entry =>
      have hdata : entry.data.isConfigSetting = false := hrefused
      simp [LedgerMap.performAll, LedgerOp.perform, write, result, LedgerOp.refused, hdata,
        LedgerOp.key]

theorem all_map {ops : List (LedgerOp I D)} (hraises : NeverLowers ops s.map) :
    (s.all pre ops).map = s.map.performAll ops := by
  induction ops generalizing s with
  | nil => rfl
  | cons op ops ih =>
    obtain ⟨hop, hops⟩ := hraises
    rw [← step_map hop] at hops
    change ((s.step pre op).all pre ops).map = (s.map.performAll [op]).performAll ops
    rw [ih hops, step_map hop]

/-- Keys that were not written are as before, and what was written is stamped. -/
structure Fresh (pre : LedgerMap I D) (ledgerSeq : U32) (s : Performed I D) : Prop where
  untouched : ∀ key, s.touched key = false → s.map key = pre key
  stamped : ∀ key, s.touched key = true → ∀ entry ∈ s.map key,
    entry.lastModifiedLedgerSeq = ledgerSeq

theorem Fresh.step {ledgerSeq : U32} (hfresh : Fresh pre ledgerSeq s) (hop : op.Stamped ledgerSeq)
    (hraises : ¬op.Lowers s.map) : Fresh pre ledgerSeq (s.step pre op) := by
  cases hrefused : op.refused with
  | true => rwa [step_refused hrefused]
  | false =>
    rw [step_accepted hrefused]
    have hresult : ∀ entry ∈ s.result pre op, entry.lastModifiedLedgerSeq = ledgerSeq := by
      intro entry hentry
      cases op with
      | create created => exact Option.some.inj hentry ▸ hop
      | update previous current =>
        change some (updated pre s current) = some entry at hentry
        rw [updated_eq hraises] at hentry
        exact Option.some.inj hentry ▸ hop
      | delete deleted => cases hentry
    refine ⟨fun key htouched => ?_, fun key htouched entry hentry => ?_⟩
    · have hne : key ≠ op.key := by
        rintro rfl
        simp at htouched
      rw [write_touched, update_of_ne hne] at htouched
      rw [write_map, update_of_ne hne]
      exact hfresh.untouched key htouched
    · by_cases hkey : key = op.key
      · subst hkey
        rw [write_map, update_self] at hentry
        exact hresult entry hentry
      · rw [write_touched, update_of_ne hkey] at htouched
        rw [write_map, update_of_ne hkey] at hentry
        exact hfresh.stamped key htouched entry hentry

theorem Fresh.all {ledgerSeq : U32} {ops : List (LedgerOp I D)} (hfresh : Fresh pre ledgerSeq s)
    (hstamped : ∀ op ∈ ops, op.Stamped ledgerSeq) (hraises : NeverLowers ops s.map) :
    Fresh pre ledgerSeq (s.all pre ops) := by
  induction ops generalizing s with
  | nil => exact hfresh
  | cons op ops ih =>
    obtain ⟨hop, hops⟩ := hraises
    rw [← step_map hop] at hops
    exact ih (hfresh.step (hstamped op mem_cons_self) hop)
      (fun op' hop' => hstamped op' (mem_cons_of_mem _ hop')) hops

end Performed

/-- Recording on a fresh delta loses nothing: the three lists are disjoint, fit
the ledger before, and lead to what was performed, stamped with the sequence of
the ledger. Only the deletion of a config setting is refused. -/
theorem categorizeChanges_exact (pre : LedgerMap I D) (ledgerSeq : U32) (collect : Bool)
    (ops : List (LedgerOp I D)) (hlegal : Performed.Legal pre ops (.start pre)) :
    let s := (Performed.start pre).all pre ops
    let d := (new ledgerSeq).recordAll ops
    let batch := d.batch collect
    (batch.initEntries.map entryToKey ++
        (batch.liveEntries.map entryToKey ++ batch.deadKeys)).Nodup ∧
      (∀ entry ∈ batch.initEntries, pre (entryToKey entry) = none) ∧
      (∀ entry ∈ batch.liveEntries, (pre (entryToKey entry)).isSome) ∧
      (∀ key ∈ batch.deadKeys, (pre key).isSome) ∧
      (∀ key, pre key = none → s.map key = none → key ∉ batch.initEntries.map entryToKey ++
        (batch.liveEntries.map entryToKey ++ batch.deadKeys)) ∧
      (pre.applyBatch batch = fun key =>
        if s.touched key then (s.map key).map (LedgerEntry.stamp ledgerSeq) else pre key) ∧
      (d.changeOrder.Nodup ∧ (∀ key, key ∈ d.changeOrder ↔ (d.changes key).isSome) ∧
        ∀ key, key ∈ d.changeOrder ↔
          s.touched key = true ∧ ((pre key).isSome ∨ (s.map key).isSome)) ∧
      (∀ before op after, ops = before ++ op :: after →
        ((∃ e, ((new ledgerSeq).recordAll before).record op = .error e) ↔ op.refused = true)) ∧
      (NeverLowers ops pre → (∀ op ∈ ops, op.Stamped ledgerSeq) →
        pre.applyBatch batch = pre.performAll ops) := by
  intro s d batch
  obtain ⟨htracks, hseq⟩ := (tracks_new pre ledgerSeq).recordAll hlegal
  have hfst : batch.writes.map Prod.fst = batch.initEntries.map entryToKey ++
      (batch.liveEntries.map entryToKey ++ batch.deadKeys) := by
    simp [writes, comp_def]
  have hkeys := htracks.wellFormed.batch_keys collect
  change (batch.writes.map Prod.fst).Perm d.changeOrder at hkeys
  rw [hfst] at hkeys
  have happly := htracks.applyBatch_eq collect
  rw [hseq] at happly
  refine ⟨hkeys.nodup_iff.mpr htracks.wellFormed.nodup, ?_, ?_, ?_, ?_, happly,
    ⟨htracks.wellFormed.nodup, htracks.wellFormed.listed, fun _ => htracks.mem_changeOrder_iff⟩,
    ?_, ?_⟩
  · intro entry hentry
    obtain ⟨original, hchange, rfl⟩ := (htracks.wellFormed.mem_initEntries collect).mp hentry
    rw [entryToKey_stamp]
    exact htracks.before_created hchange
  · intro entry hentry
    obtain ⟨previous, current, hchange, rfl⟩ := (htracks.wellFormed.mem_liveEntries collect).mp hentry
    rw [entryToKey_stamp]
    exact htracks.before_updated hchange
  · intro key hkey
    obtain ⟨previous, hchange, rfl⟩ := (htracks.wellFormed.mem_deadKeys collect).mp hkey
    exact htracks.before_deleted hchange
  · intro key hbefore hnow hkey
    rw [hkeys.mem_iff, htracks.mem_changeOrder_iff, hbefore, hnow] at hkey
    simp at hkey
  · rintro before op after rfl
    rw [Performed.legal_append] at hlegal
    obtain ⟨htracks', _⟩ := (tracks_new pre ledgerSeq).recordAll hlegal.1
    cases hrefused : op.refused with
    | true => simp [record_refused hrefused]
    | false =>
      obtain ⟨d', hrecord, _⟩ := htracks'.record hlegal.2.1 hrefused
      simp [hrecord]
  · intro hraises hstamped
    have hfresh : Performed.Fresh pre ledgerSeq s :=
      Performed.Fresh.all ⟨fun _ _ => rfl, fun _ h => by simp [Performed.start] at h⟩ hstamped hraises
    have hmap : s.map = pre.performAll ops := Performed.all_map hraises
    rw [← hmap]
    refine happly.trans (funext fun key => ?_)
    change (if s.touched key then (s.map key).map (LedgerEntry.stamp ledgerSeq) else pre key) = _
    cases htouched : s.touched key with
    | false => simp [hfresh.untouched key htouched]
    | true =>
      cases hentry : s.map key with
      | none => simp
      | some entry => simp [stamp_eq_self (hfresh.stamped key htouched entry hentry)]

/-! ### A ledger with one TTL entry -/

/-- A TTL entry under one key. -/
def ttlEntry (lastModified liveUntil : U32) : LedgerEntry ℕ Unit where
  lastModifiedLedgerSeq := lastModified
  data := .ttl 1 liveUntil
  sponsoringId := none

/-- The ledger before holds the entry for ten ledgers. -/
def ttlLedger : LedgerMap ℕ Unit := fun key =>
  if key = .ttl 1 then some (ttlEntry 3 10) else none

def extendThenCut : List (LedgerOp ℕ Unit) :=
  [.update (ttlEntry 3 10) (ttlEntry 5 20), .update (ttlEntry 5 20) (ttlEntry 5 15)]

/-- The cut is lost, though both updates are legal and stamped. -/
theorem extendThenCut_keeps_extension :
    Performed.Legal ttlLedger extendThenCut (.start ttlLedger) ∧
      ttlLedger.performAll extendThenCut (.ttl 1) = some (ttlEntry 5 15) ∧
      ttlLedger.applyBatch (((new 5).recordAll extendThenCut).batch false) (.ttl 1) =
        some (ttlEntry 5 20) := by
  decide +kernel

/-- An account that comes and goes, and a TTL entry that is deleted and comes
back with a shorter life. -/
def mixedOps : List (LedgerOp ℕ Unit) :=
  let account : LedgerEntry ℕ Unit :=
    { lastModifiedLedgerSeq := 5, data := .account 2 (), sponsoringId := none }
  [.create account, .update (ttlEntry 3 10) (ttlEntry 5 20), .delete account,
    .delete (ttlEntry 5 20), .create (ttlEntry 5 8)]

/-- The batch of such a run has one live entry and nothing else. -/
theorem categorizeChanges_exact_mixedOps :
    let batch := ((new 5).recordAll mixedOps).batch false
    ttlLedger.applyBatch batch (.ttl 1) = some (ttlEntry 5 8) ∧
      ∀ key, key ∉ batch.initEntries.map entryToKey ++
        (batch.liveEntries.map entryToKey ++ batch.deadKeys) ∨ (ttlLedger key).isSome ∨
          (((Performed.start ttlLedger).all ttlLedger mixedOps).map key).isSome := by
  have hexact := categorizeChanges_exact ttlLedger 5 false mixedOps (by decide +kernel)
  refine ⟨?_, fun key => ?_⟩
  · rw [hexact.2.2.2.2.2.1]
    decide +kernel
  · by_contra hnot
    push Not at hnot
    obtain ⟨hmem, hbefore, hnow⟩ := hnot
    exact hexact.2.2.2.2.1 key (by simpa using hbefore) (by simpa using hnow) hmem

end Henyey.Ledger
