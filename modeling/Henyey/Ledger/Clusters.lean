import Henyey.Ledger.Merging
import Mathlib.Data.List.Induction
import Mathlib.Order.Bounds.Basic

/-!
# Deltas of parallel clusters

Clusters that share no key, except for TTL entries that they only bump, merge to
one batch in any order, and a shared TTL entry ends with the longest bump.
-/

namespace Henyey.Ledger

open LedgerDelta List Option
open EntryChange
open DeltaOp

variable {I D : Type} [DecidableEq I]

def LedgerDelta.mergeAll (ds : List (LedgerDelta I D)) (d : LedgerDelta I D) :
    Except LedgerError (LedgerDelta I D) :=
  ds.foldlM merge d

def clusterDelta (ledgerSeq : U32) (ops : List (LedgerOp I D)) : LedgerDelta I D :=
  (new ledgerSeq).recordAll ops

/-- A cluster has an operation on a key. -/
def Touches (ops : List (LedgerOp I D)) (key : LedgerKey I) : Prop :=
  ∃ op ∈ ops, op.key = key

/-- A cluster only bumps the entry under a key: it updates what the ledger has
and keeps its sponsor. -/
def Bumps (pre : LedgerMap I D) (key : LedgerKey I) (ops : List (LedgerOp I D)) : Prop :=
  ∀ op ∈ ops, op.key = key → ∃ previous current, op = .update previous current ∧
    ∀ e ∈ pre key, current.sponsoringId = e.sponsoringId

/-- Two clusters that touch one key both bump a TTL entry of the ledger. -/
def Apart (pre : LedgerMap I D) (ops ops' : List (LedgerOp I D)) : Prop :=
  ∀ key, Touches ops key → Touches ops' key →
    key.isTtl = true ∧ (pre key).isSome ∧ Bumps pre key ops ∧ Bumps pre key ops'

/-- Legal clusters on one ledger that share nothing but bumped TTL entries. -/
structure Independent (pre : LedgerMap I D) (clusters : List (List (LedgerOp I D))) : Prop where
  legal : ∀ ops ∈ clusters, Performed.Legal pre ops (.start pre)
  apart : clusters.Pairwise (Apart pre)

/-- What operations write under a key. -/
def writesAt (key : LedgerKey I) (ops : List (LedgerOp I D)) : List (LedgerEntry I D) :=
  ops.filterMap fun op => if op.key = key then op.written else none

variable {pre : LedgerMap I D} {s : Performed I D} {d : LedgerDelta I D} {key : LedgerKey I}
  {ops : List (LedgerOp I D)} {clusters : List (List (LedgerOp I D))} {ledgerSeq : U32}

omit [DecidableEq I] in
theorem apart_symm {ops ops' : List (LedgerOp I D)} (h : Apart pre ops ops') :
    Apart pre ops' ops := by
  intro key h' h''
  obtain ⟨httl, hsome, hbumps, hbumps'⟩ := h key h'' h'
  exact ⟨httl, hsome, hbumps', hbumps⟩

variable {clusters' : List (List (LedgerOp I D))}

theorem Independent.perm (h : Independent pre clusters) (hperm : clusters.Perm clusters') :
    Independent pre clusters' where
  legal := fun ops hops => h.legal ops (hperm.mem_iff.mpr hops)
  apart := (hperm.pairwise_iff fun h => apart_symm h).mp h.apart

/-! ### One cluster -/

theorem recordAll_untouched (htracks : Tracks pre s d) (hlegal : Performed.Legal pre ops s)
    (huntouched : ¬Touches ops key) : (d.recordAll ops).changes key = d.changes key := by
  induction ops generalizing s d with
  | nil => rfl
  | cons op ops ih =>
    obtain ⟨hop, hops⟩ := hlegal
    have hrest : ¬Touches ops key := fun ⟨op', hop', hkey⟩ =>
      huntouched ⟨op', mem_cons_of_mem _ hop', hkey⟩
    have hkey : key ≠ op.key := fun h => huntouched ⟨op, mem_cons_self, h.symm⟩
    cases hrefused : op.refused with
    | true =>
      have hskip : d.recordAll (op :: ops) = d.recordAll ops := by
        simp [recordAll, record_refused hrefused]
      rw [Performed.step_refused hrefused] at hops
      rw [hskip, ih htracks hops hrest]
    | false =>
      obtain ⟨d', hrecord, htracks', hreplaces⟩ := htracks.record hop hrefused
      have hskip : d.recordAll (op :: ops) = d'.recordAll ops := by
        simp [recordAll, hrecord]
      rw [hskip, ih htracks' hops hrest, hreplaces.changes, Function.update_of_ne hkey]

/-- A change that holds the longest of some writes. -/
def Greatest (writes : List (LedgerEntry I D)) (change : Option (EntryChange I D)) : Prop :=
  (writes = [] ∧ change = none) ∨
    ∃ previous current, change = some (.updated previous current) ∧ current ∈ writes ∧
      ∀ w ∈ writes, w.liveUntil ≤ current.liveUntil

variable {writes writes' : List (LedgerEntry I D)}

omit [DecidableEq I] in
theorem greatest_later {e e' : LedgerEntry I D} (httl : (entryToKey e').isTtl = true)
    (hmem : e ∈ writes) (hmem' : e' ∈ writes') (hmax : ∀ w ∈ writes, w.liveUntil ≤ e.liveUntil)
    (hmax' : ∀ w ∈ writes', w.liveUntil ≤ e'.liveUntil) :
    later e e' ∈ writes ++ writes' ∧
      ∀ w ∈ writes ++ writes', w.liveUntil ≤ (later e e').liveUntil := by
  unfold later
  split
  next hkeep =>
    refine ⟨mem_append_left _ hmem, fun w hw => ?_⟩
    rcases mem_append.mp hw with hw | hw
    · exact hmax w hw
    · exact (hmax' w hw).trans hkeep.2
  next hreplace =>
    have hlt : e.liveUntil < e'.liveUntil := by
      by_contra hle
      exact hreplace ⟨httl, not_lt.mp hle⟩
    refine ⟨mem_append_right _ hmem', fun w hw => ?_⟩
    rcases mem_append.mp hw with hw | hw
    · exact (hmax w hw).trans hlt.le
    · exact hmax' w hw

theorem writesAt_cons (op : LedgerOp I D) (ops : List (LedgerOp I D)) :
    writesAt key (op :: ops) =
      (if op.key = key then op.written else none).toList ++ writesAt key ops := by
  rw [writesAt, filterMap_cons]
  cases (if op.key = key then op.written else none) <;> rfl

theorem recordAll_greatest {writes : List (LedgerEntry I D)} (httl : key.isTtl = true)
    (htracks : Tracks pre s d) (hlegal : Performed.Legal pre ops s) (hbumps : Bumps pre key ops)
    (hgreatest : Greatest writes (d.changes key)) :
    Greatest (writes ++ writesAt key ops) ((d.recordAll ops).changes key) := by
  induction ops generalizing s d writes with
  | nil => simpa [writesAt, recordAll] using hgreatest
  | cons op ops ih =>
    obtain ⟨hop, hops⟩ := hlegal
    have hrest : Bumps pre key ops := fun op' hop' => hbumps op' (mem_cons_of_mem _ hop')
    rw [writesAt_cons, ← append_assoc]
    cases hrefused : op.refused with
    | true =>
      have hskip : d.recordAll (op :: ops) = d.recordAll ops := by
        simp [recordAll, record_refused hrefused]
      have hother : op.key ≠ key := by
        intro hkey
        obtain ⟨previous, current, rfl, _⟩ := hbumps op mem_cons_self hkey
        cases hrefused
      rw [Performed.step_refused hrefused] at hops
      rw [hskip, if_neg hother]
      simpa using ih htracks hops hrest hgreatest
    | false =>
      obtain ⟨d', hrecord, htracks', hreplaces⟩ := htracks.record hop hrefused
      have hskip : d.recordAll (op :: ops) = d'.recordAll ops := by
        simp [recordAll, hrecord]
      rw [hskip]
      apply ih htracks' hops hrest
      rw [hreplaces.changes]
      by_cases hkey : op.key = key
      · obtain ⟨previous, current, rfl, _⟩ := hbumps op mem_cons_self hkey
        subst hkey
        rw [Function.update_self, if_pos rfl]
        rcases hgreatest with ⟨rfl, hnone⟩ | ⟨orig, existing, hsome, hmem, hmax⟩
        · rw [hnone]
          exact .inr ⟨previous, current, rfl, by simp [LedgerOp.written],
            by simp [LedgerOp.written]⟩
        · rw [hsome]
          obtain ⟨hlater, hlatest⟩ := greatest_later httl hmem
            (mem_singleton_self current) hmax (by simp)
          exact .inr ⟨orig, later existing current, rfl, hlater, hlatest⟩
      · rw [Function.update_of_ne (Ne.symm hkey), if_neg hkey]
        simpa using hgreatest

theorem clusterDelta_tracks (ledgerSeq : U32) (hlegal : Performed.Legal pre ops (.start pre)) :
    Tracks pre ((Performed.start pre).all pre ops) (clusterDelta ledgerSeq ops) :=
  ((tracks_new pre ledgerSeq).recordAll hlegal).1

theorem clusterDelta_untouched (ledgerSeq : U32) (hlegal : Performed.Legal pre ops (.start pre))
    (huntouched : ¬Touches ops key) : (clusterDelta ledgerSeq ops).changes key = none :=
  recordAll_untouched (tracks_new pre ledgerSeq) hlegal huntouched

theorem clusterDelta_greatest (ledgerSeq : U32) (httl : key.isTtl = true)
    (hlegal : Performed.Legal pre ops (.start pre)) (hbumps : Bumps pre key ops) :
    Greatest (writesAt key ops) ((clusterDelta ledgerSeq ops).changes key) :=
  recordAll_greatest httl (tracks_new pre ledgerSeq) hlegal hbumps (.inl ⟨rfl, rfl⟩)

/-! ### All clusters -/

/-- The change of a key after merging deltas with these changes in order. -/
def mergedAll (changes : List (Option (EntryChange I D))) : Option (EntryChange I D) :=
  changes.foldl (fun existing incoming => EntryChange.merged incoming existing) none

def clusterChanges (ledgerSeq : U32) (clusters : List (List (LedgerOp I D)))
    (key : LedgerKey I) : List (Option (EntryChange I D)) :=
  clusters.map fun ops => (clusterDelta ledgerSeq ops).changes key

section

omit [DecidableEq I]

theorem mergedAll_append (changes : List (Option (EntryChange I D)))
    (change : Option (EntryChange I D)) :
    mergedAll (changes ++ [change]) = EntryChange.merged change (mergedAll changes) := by
  simp [mergedAll]

theorem mergedAll_none {changes : List (Option (EntryChange I D))}
    (hnone : ∀ change ∈ changes, change = none) : mergedAll changes = none := by
  induction changes using reverseRecOn with
  | nil => rfl
  | append_singleton changes change ih =>
    rw [mergedAll_append, ih fun c hc => hnone c (by simp [hc]), hnone change (by simp)]
    rfl

theorem greatest_merged {existing incoming : Option (EntryChange I D)}
    (hincoming : Greatest writes' incoming) (hexisting : Greatest writes existing)
    (httl : ∀ w ∈ writes', (entryToKey w).isTtl = true) :
    Greatest (writes ++ writes') (EntryChange.merged incoming existing) := by
  rcases hincoming with ⟨rfl, rfl⟩ | ⟨previous, current, rfl, hmem, hmax⟩
  · simpa [EntryChange.merged] using hexisting
  · rcases hexisting with ⟨rfl, rfl⟩ | ⟨orig, entry, rfl, hmem', hmax'⟩
    · exact .inr ⟨previous, current, rfl, by simpa using hmem, by simpa using hmax⟩
    · obtain ⟨hlater, hlatest⟩ := greatest_later (httl current hmem) hmem' hmem hmax' hmax
      exact .inr ⟨orig, later entry current, rfl, hlater, hlatest⟩

theorem written_key {op : LedgerOp I D} {entry : LedgerEntry I D} (hwritten : entry ∈ op.written) :
    entryToKey entry = op.key := by
  cases op with
  | create created => exact some.inj hwritten ▸ rfl
  | update previous current => exact some.inj hwritten ▸ rfl
  | delete deleted => cases hwritten

end

theorem writesAt_key {entry : LedgerEntry I D} (hentry : entry ∈ writesAt key ops) :
    entryToKey entry = key := by
  obtain ⟨op, _, hop⟩ := mem_filterMap.mp hentry
  split at hop
  next hkey => exact (written_key hop).trans hkey
  · cases hop

theorem mergedAll_greatest (ledgerSeq : U32) (httl : key.isTtl = true)
    (hlegal : ∀ ops ∈ clusters, Performed.Legal pre ops (.start pre))
    (hbumps : ∀ ops ∈ clusters, Bumps pre key ops) :
    Greatest (clusters.flatMap (writesAt key))
      (mergedAll (clusterChanges ledgerSeq clusters key)) := by
  induction clusters using reverseRecOn with
  | nil => exact .inl ⟨rfl, rfl⟩
  | append_singleton clusters ops ih =>
    have hops : ops ∈ clusters ++ [ops] := by simp
    have hclusters := ih (fun ops' h => hlegal ops' (mem_append_left _ h))
      fun ops' h => hbumps ops' (mem_append_left _ h)
    have hcluster := clusterDelta_greatest ledgerSeq httl (hlegal ops hops)
      (hbumps ops hops)
    rw [clusterChanges, map_append, map_singleton, mergedAll_append,
      flatMap_append, flatMap_singleton]
    exact greatest_merged hcluster hclusters fun w hw => (writesAt_key hw).symm ▸ httl

theorem mergedAll_untouched (ledgerSeq : U32) (key : LedgerKey I)
    (hlegal : ∀ ops ∈ clusters, Performed.Legal pre ops (.start pre))
    (huntouched : ∀ ops ∈ clusters, ¬Touches ops key) :
    mergedAll (clusterChanges ledgerSeq clusters key) = none := by
  apply mergedAll_none
  intro change hchange
  obtain ⟨ops, hops, rfl⟩ := mem_map.mp hchange
  exact clusterDelta_untouched ledgerSeq (hlegal ops hops) (huntouched ops hops)

theorem clusterDelta_mergeable (hind : Independent pre (clusters ++ [ops])) :
    ∀ c ∈ (clusterDelta ledgerSeq ops).changes key,
      c.Mergeable (mergedAll (clusterChanges ledgerSeq clusters key)) := by
  intro c hc
  have hlegal : ∀ ops' ∈ clusters, Performed.Legal pre ops' (.start pre) := fun ops' h =>
    hind.legal ops' (mem_append_left _ h)
  have hops := hind.legal ops (by simp)
  have hapart : ∀ ops' ∈ clusters, Apart pre ops' ops := fun ops' h =>
    (pairwise_append.mp hind.apart).2.2 ops' h ops (by simp)
  have htouches : Touches ops key := by
    by_contra huntouched
    rw [clusterDelta_untouched ledgerSeq hops huntouched] at hc
    cases hc
  by_cases hshared : ∃ ops' ∈ clusters, Touches ops' key
  · -- a shared key is a TTL entry that all clusters bump
    obtain ⟨ops', hops', htouches'⟩ := hshared
    obtain ⟨httl, _, _, hbumps⟩ := hapart ops' hops' key htouches' htouches
    have hall : ∀ ops' ∈ clusters, Bumps pre key ops' := by
      intro ops'' hops''
      by_cases htouches'' : Touches ops'' key
      · exact (hapart ops'' hops'' key htouches'' htouches).2.2.1
      · exact fun op hop hkey => absurd ⟨op, hop, hkey⟩ htouches''
    rcases clusterDelta_greatest ledgerSeq httl hops hbumps with
      ⟨_, hnone⟩ | ⟨previous, current, hsome, _⟩
    · rw [hnone] at hc
      cases hc
    · obtain rfl : .updated previous current = c := by simpa [hsome] using hc
      rcases mergedAll_greatest ledgerSeq httl hlegal hall with
        ⟨_, hnone'⟩ | ⟨orig, entry, hsome', _⟩
      · rw [hnone']
        trivial
      · rw [hsome']
        trivial
  · have hnone := mergedAll_untouched ledgerSeq key hlegal
      fun ops' h htouches' => hshared ⟨ops', h, htouches'⟩
    rw [hnone]
    cases c <;> trivial

theorem Independent.prefix
    (hind : Independent pre (clusters ++ clusters')) : Independent pre clusters where
  legal := fun ops hops => hind.legal ops (mem_append_left _ hops)
  apart := (pairwise_append.mp hind.apart).1

theorem mergeAll_spec (ledgerSeq : U32) (hind : Independent pre clusters) :
    ∃ d : LedgerDelta I D,
      mergeAll (clusters.map (clusterDelta ledgerSeq)) (.new ledgerSeq) = .ok d ∧
        d.WellFormed ∧ d.ledgerSeq = ledgerSeq ∧
        ∀ key, d.changes key = mergedAll (clusterChanges ledgerSeq clusters key) := by
  induction clusters using reverseRecOn with
  | nil =>
    exact ⟨.new ledgerSeq, rfl, wellFormed_new ledgerSeq, rfl, fun key => rfl⟩
  | append_singleton clusters ops ih =>
    obtain ⟨d, hmerged, hd, hseq, hchanges⟩ := ih hind.prefix
    have hcluster := clusterDelta_tracks ledgerSeq (hind.legal ops (by simp))
    obtain ⟨d', hmerged', hd', hchanges', hseq', _⟩ :=
      merge_spec hd hcluster.wellFormed fun key c hc => by
        rw [hchanges key]
        exact clusterDelta_mergeable hind c hc
    refine ⟨d', ?_, hd', hseq'.trans hseq, fun key => ?_⟩
    · unfold mergeAll at hmerged ⊢
      rw [map_append, foldlM_append, hmerged]
      change (d.merge (clusterDelta ledgerSeq ops)).bind Except.ok = _
      rw [hmerged']
      rfl
    · rw [hchanges', hchanges, clusterChanges, clusterChanges, map_append,
        map_singleton, mergedAll_append]

/-! ### Any order -/

theorem Independent.shared_or_sole (hind : Independent pre clusters) (key : LedgerKey I) :
    (key.isTtl = true ∧ (pre key).isSome ∧ ∀ ops ∈ clusters, Bumps pre key ops) ∨
      clusters.Pairwise fun ops ops' => ¬(Touches ops key ∧ Touches ops' key) := by
  have hapart := hind.apart
  clear hind
  induction clusters with
  | nil => exact .inr .nil
  | cons ops clusters ih =>
    obtain ⟨hfirst, hrest⟩ := pairwise_cons.mp hapart
    have huntouched : ∀ {ops : List (LedgerOp I D)}, ¬Touches ops key → Bumps pre key ops :=
      fun h op hop hkey => absurd ⟨op, hop, hkey⟩ h
    by_cases htouches : Touches ops key
    · by_cases hshared : ∃ ops' ∈ clusters, Touches ops' key
      · obtain ⟨ops', hops', htouches'⟩ := hshared
        obtain ⟨httl, hsome, hbumps, _⟩ := hfirst ops' hops' key htouches htouches'
        refine .inl ⟨httl, hsome, fun ops'' hops'' => ?_⟩
        rcases mem_cons.mp hops'' with rfl | hops''
        · exact hbumps
        · by_cases htouches'' : Touches ops'' key
          · exact (hfirst ops'' hops'' key htouches htouches'').2.2.2
          · exact huntouched htouches''
      · have hnone : ∀ ops' ∈ clusters, ¬Touches ops' key := fun ops' h h' =>
          hshared ⟨ops', h, h'⟩
        refine .inr (pairwise_cons.mpr ⟨fun ops' h => fun h' => hnone ops' h h'.2, ?_⟩)
        exact pairwise_of_forall_mem_list fun ops' h _ _ h' => hnone ops' h h'.1
    · rcases ih hrest with ⟨httl, hsome, hbumps⟩ | hsole
      · refine .inl ⟨httl, hsome, fun ops' hops' => ?_⟩
        rcases mem_cons.mp hops' with rfl | hops'
        · exact huntouched htouches
        · exact hbumps ops' hops'
      · exact .inr (pairwise_cons.mpr ⟨fun ops' _ h => htouches h.1, hsole⟩)

omit [DecidableEq I] in
theorem merged_none (change : Option (EntryChange I D)) :
    EntryChange.merged change none = change := by
  rcases change with _ | (_ | ⟨_, _⟩ | _) <;> rfl

theorem mergedAll_sole (ledgerSeq : U32)
    (hlegal : ∀ ops ∈ clusters, Performed.Legal pre ops (.start pre))
    (hsole : clusters.Pairwise fun ops ops' => ¬(Touches ops key ∧ Touches ops' key)) :
    mergedAll (clusterChanges ledgerSeq clusters key) =
        (clusters.filterMap fun ops => (clusterDelta ledgerSeq ops).changes key).head? ∧
      (clusters.filterMap fun ops => (clusterDelta ledgerSeq ops).changes key).length ≤ 1 := by
  induction clusters using reverseRecOn with
  | nil => simp [clusterChanges, mergedAll]
  | append_singleton clusters ops ih =>
    obtain ⟨hpairs, _, hcross⟩ := pairwise_append.mp hsole
    have hlegal' : ∀ ops' ∈ clusters, Performed.Legal pre ops' (.start pre) := fun ops' h =>
      hlegal ops' (mem_append_left _ h)
    rw [clusterChanges, map_append, map_singleton, mergedAll_append, filterMap_append]
    by_cases htouches : Touches ops key
    · have hothers : ∀ ops' ∈ clusters, ¬Touches ops' key := fun ops' h h' =>
        hcross ops' h ops (by simp) ⟨h', htouches⟩
      have hnone := mergedAll_untouched ledgerSeq key hlegal' hothers
      have hempty : clusters.filterMap (fun ops => (clusterDelta ledgerSeq ops).changes key) = [] :=
        filterMap_eq_nil_iff.mpr fun ops' h =>
          clusterDelta_untouched ledgerSeq (hlegal' ops' h) (hothers ops' h)
      rw [clusterChanges] at hnone
      rw [hnone, merged_none, hempty]
      cases hchange : (clusterDelta ledgerSeq ops).changes key <;> simp [hchange]
    · have hchange := clusterDelta_untouched ledgerSeq (hlegal ops (by simp)) htouches
      obtain ⟨hhead, hlength⟩ := ih hlegal' hpairs
      rw [hchange]
      have hlast : [ops].filterMap (fun ops => (clusterDelta ledgerSeq ops).changes key) = [] := by
        simp [hchange]
      rw [hlast, append_nil]
      exact ⟨hhead, hlength⟩

structure SameBatch (ledgerSeq : U32) (change change' : Option (EntryChange I D)) : Prop where
  init : change.bind (initEntry ledgerSeq) = change'.bind (initEntry ledgerSeq)
  live : change.bind (liveEntry ledgerSeq) = change'.bind (liveEntry ledgerSeq)
  dead : change.bind deadKey = change'.bind deadKey

section

omit [DecidableEq I]

theorem SameBatch.refl (change : Option (EntryChange I D)) : SameBatch ledgerSeq change change :=
  ⟨rfl, rfl, rfl⟩

theorem stamp_eq_of_ttl (ledgerSeq : U32) {e e' : LedgerEntry I D}
    (httl : (entryToKey e).isTtl = true)
    (hkey : entryToKey e = entryToKey e') (hlive : e.liveUntil = e'.liveUntil)
    (hsponsor : e.sponsoringId = e'.sponsoringId) : e.stamp ledgerSeq = e'.stamp ledgerSeq := by
  obtain ⟨hash, liveUntil, hdata⟩ := liveUntil_of_isTtl httl
  obtain ⟨hash', liveUntil', hdata'⟩ := liveUntil_of_isTtl (hkey ▸ httl)
  cases e
  cases e'
  simp_all [entryToKey, LedgerEntry.liveUntil, LedgerEntry.stamp]

theorem sameBatch_greatest {change change' : Option (EntryChange I D)} (hperm : writes.Perm writes')
    (httl : key.isTtl = true) (hkeys : ∀ w ∈ writes, entryToKey w = key) {sponsor : Option I}
    (hsponsors : ∀ w ∈ writes, w.sponsoringId = sponsor) (h : Greatest writes change)
    (h' : Greatest writes' change') : SameBatch ledgerSeq change change' := by
  rcases h with ⟨rfl, rfl⟩ | ⟨previous, current, rfl, hmem, hmax⟩
  · rcases h' with ⟨_, rfl⟩ | ⟨_, current', _, hmem', _⟩
    · exact .refl none
    · simp [← hperm.mem_iff] at hmem'
  · rcases h' with ⟨rfl, _⟩ | ⟨previous', current', rfl, hmem', hmax'⟩
    · simp [hperm.mem_iff] at hmem
    · have hmem'' := hperm.mem_iff.mpr hmem'
      have hlive := le_antisymm (hmax' current (hperm.mem_iff.mp hmem)) (hmax current' hmem'')
      have hkey := (hkeys current hmem).trans (hkeys current' hmem'').symm
      have hsponsor := (hsponsors current hmem).trans (hsponsors current' hmem'').symm
      have hstamp := stamp_eq_of_ttl ledgerSeq ((hkeys current hmem).symm ▸ httl)
        hkey hlive hsponsor
      exact ⟨rfl, congrArg some hstamp, rfl⟩

end

theorem bumped_sponsor {e entry : LedgerEntry I D} (hbumps : Bumps pre key ops)
    (hpre : pre key = some e) (hentry : entry ∈ writesAt key ops) :
    entry.sponsoringId = e.sponsoringId := by
  obtain ⟨op, hop, hwritten⟩ := mem_filterMap.mp hentry
  split at hwritten
  next hkey =>
    obtain ⟨previous, current, rfl, hsponsor⟩ := hbumps op hop hkey
    exact some.inj hwritten ▸ hsponsor e hpre
  · cases hwritten

omit [DecidableEq I] in
/-- A list of at most one element has no other order. -/
theorem head?_perm {changes changes' : List (EntryChange I D)} (hperm : changes.Perm changes')
    (hlength : changes.length ≤ 1) : changes.head? = changes'.head? := by
  cases changes with
  | nil => rw [nil_perm.mp hperm]
  | cons change changes =>
    obtain rfl : changes = [] := by simpa using hlength
    rw [singleton_perm.mp hperm]

theorem mergedAll_perm (hind : Independent pre clusters) (hperm : clusters.Perm clusters')
    (key : LedgerKey I) :
    SameBatch ledgerSeq (mergedAll (clusterChanges ledgerSeq clusters key))
      (mergedAll (clusterChanges ledgerSeq clusters' key)) := by
  have hind' := hind.perm hperm
  rcases hind.shared_or_sole key with ⟨httl, hsome, hbumps⟩ | hsole
  · obtain ⟨e, he⟩ := isSome_iff_exists.mp hsome
    have hbumps' : ∀ ops ∈ clusters', Bumps pre key ops := fun ops h =>
      hbumps ops (hperm.mem_iff.mpr h)
    have hkeys : ∀ w ∈ clusters.flatMap (writesAt key), entryToKey w = key := by
      intro w hw
      obtain ⟨ops, _, hw⟩ := mem_flatMap.mp hw
      exact writesAt_key hw
    have hsponsors : ∀ w ∈ clusters.flatMap (writesAt key), w.sponsoringId = e.sponsoringId := by
      intro w hw
      obtain ⟨ops, hops, hw⟩ := mem_flatMap.mp hw
      exact bumped_sponsor (hbumps ops hops) he hw
    apply sameBatch_greatest (hperm.flatMap_right (writesAt key)) httl hkeys hsponsors
    · exact mergedAll_greatest ledgerSeq httl hind.legal hbumps
    · exact mergedAll_greatest ledgerSeq httl hind'.legal hbumps'
  · have hsole' := (hperm.pairwise_iff fun h h' => h h'.symm).mp hsole
    obtain ⟨hhead, hlength⟩ := mergedAll_sole ledgerSeq hind.legal hsole
    obtain ⟨hhead', _⟩ := mergedAll_sole ledgerSeq hind'.legal hsole'
    have hsomes := hperm.filterMap fun ops => (clusterDelta ledgerSeq ops).changes key
    rw [hhead, hhead']
    rw [head?_perm hsomes hlength]
    exact .refl _

/-! ### The batch -/

variable {collect : Bool}

section

variable (hd : d.WellFormed)
include hd

theorem LedgerDelta.WellFormed.mem_initEntries_iff
    {e : LedgerEntry I D} : e ∈ (d.batch collect).initEntries ↔
      (d.changes (entryToKey e)).bind (initEntry d.ledgerSeq) = some e := by
  rw [hd.mem_initEntries]
  constructor
  · rintro ⟨entry, hchange, rfl⟩
    rw [entryToKey_stamp, hchange]
    rfl
  · intro hentry
    obtain ⟨change, hchange, hinit⟩ := bind_eq_some_iff.mp hentry
    cases change with
    | created entry =>
      obtain rfl := some.inj hinit
      exact ⟨entry, hchange, rfl⟩
    | updated previous current => cases hinit
    | deleted previous => cases hinit

theorem LedgerDelta.WellFormed.mem_liveEntries_iff
    {e : LedgerEntry I D} : e ∈ (d.batch collect).liveEntries ↔
      (d.changes (entryToKey e)).bind (liveEntry d.ledgerSeq) = some e := by
  rw [hd.mem_liveEntries]
  constructor
  · rintro ⟨previous, current, hchange, rfl⟩
    rw [entryToKey_stamp, hchange]
    rfl
  · intro hentry
    obtain ⟨change, hchange, hlive⟩ := bind_eq_some_iff.mp hentry
    cases change with
    | created entry => cases hlive
    | updated previous current =>
      obtain rfl := some.inj hlive
      exact ⟨previous, current, hchange, rfl⟩
    | deleted previous => cases hlive

theorem LedgerDelta.WellFormed.mem_deadKeys_iff {k : LedgerKey I} : k ∈ (d.batch collect).deadKeys ↔
      (d.changes k).bind deadKey = some k := by
  rw [hd.mem_deadKeys]
  constructor
  · rintro ⟨previous, hchange, rfl⟩
    rw [hchange]
    rfl
  · intro hdead
    obtain ⟨change, hchange, hkey⟩ := bind_eq_some_iff.mp hdead
    cases change with
    | created entry => cases hkey
    | updated previous current => cases hkey
    | deleted previous =>
      have hsame := some.inj hkey
      exact ⟨previous, hsame ▸ hchange, hsame.symm⟩

theorem batch_perm {d' : LedgerDelta I D} (hd' : d'.WellFormed) (hseq : d'.ledgerSeq = d.ledgerSeq)
    (hsame : ∀ key, SameBatch d.ledgerSeq (d.changes key) (d'.changes key)) (collect : Bool) :
    (d.batch collect).initEntries.Perm (d'.batch collect).initEntries ∧
      (d.batch collect).liveEntries.Perm (d'.batch collect).liveEntries ∧
      (d.batch collect).deadKeys.Perm (d'.batch collect).deadKeys := by
  have hnodup := hd.batch_nodup collect
  have hnodup' := hd'.batch_nodup collect
  simp only [nodup_append] at hnodup hnodup'
  refine ⟨?_, ?_, ?_⟩
  · rw [perm_ext_iff_of_nodup (.of_map _ hnodup.1) (.of_map _ hnodup'.1)]
    intro e
    rw [hd.mem_initEntries_iff, hd'.mem_initEntries_iff, hseq, (hsame _).init]
  · rw [perm_ext_iff_of_nodup (.of_map _ hnodup.2.1.1) (.of_map _ hnodup'.2.1.1)]
    intro e
    rw [hd.mem_liveEntries_iff, hd'.mem_liveEntries_iff, hseq, (hsame _).live]
  · rw [perm_ext_iff_of_nodup hnodup.2.1.2.1 hnodup'.2.1.2.1]
    intro key
    rw [hd.mem_deadKeys_iff, hd'.mem_deadKeys_iff, (hsame _).dead]

end

theorem mergeAll_longest {d : LedgerDelta I D} (hind : Independent pre clusters)
    (hd : d.WellFormed) (hchanges : ∀ key, d.changes key =
      mergedAll (clusterChanges ledgerSeq clusters key)) (httl : key.isTtl = true)
    (hbumps : ∀ ops ∈ clusters, Bumps pre key ops) (htouched : ∃ ops ∈ clusters, Touches ops key)
    (collect : Bool) : ∃ entry ∈ (d.batch collect).liveEntries, entryToKey entry = key ∧
      IsGreatest {l | ∃ ops ∈ clusters, ∃ w ∈ writesAt key ops, w.liveUntil = l}
        entry.liveUntil := by
  have hgreatest := mergedAll_greatest ledgerSeq httl hind.legal hbumps
  rw [← hchanges] at hgreatest
  rcases hgreatest with ⟨hempty, _⟩ | ⟨previous, current, hchange, hmem, hmax⟩
  · -- the touching cluster has a bump
    obtain ⟨ops, hops, op, hop, hkey⟩ := htouched
    obtain ⟨previous, current, rfl, _⟩ := hbumps ops hops op hop hkey
    have hwrite : current ∈ clusters.flatMap (writesAt key) :=
      mem_flatMap.mpr ⟨ops, hops, mem_filterMap.mpr ⟨_, hop, if_pos hkey⟩⟩
    simp [hempty] at hwrite
  · obtain ⟨ops, hops, hwrite⟩ := mem_flatMap.mp hmem
    have hkey := writesAt_key hwrite
    refine ⟨current.stamp d.ledgerSeq, ?_, hkey, ⟨ops, hops, current, hwrite, rfl⟩, ?_⟩
    · rw [hd.mem_liveEntries]
      exact ⟨previous, current, hkey ▸ hchange, rfl⟩
    · rintro l ⟨ops', hops', w, hw, rfl⟩
      exact hmax w (mem_flatMap.mpr ⟨ops', hops', hw⟩)

/-- Recording any operations keeps track. -/
theorem Tracks.performAll {ops : List (DeltaOp I D)} (htracks : Tracks pre s d)
    (hlegal : Performed.Legal pre (entryOps ops) s) :
    Tracks pre (s.all pre (entryOps ops)) (d.performAll ops) := by
  rw [performAll_eq]
  exact (htracks.recordAll hlegal).1.addTotals _ _

/-- Merging and checkpoints are faithful. A delta merged into the one below it
acts as if recorded there, exactly if every TTL entry is spared; independent
clusters merge to one batch in any order, each shared TTL entry with its longest
bump; and the changes since a checkpoint lead from the view there to the view
now. -/
theorem merge_checkpoint_faithful [DecidableEq D] (pre : LedgerMap I D) (ledgerSeq : U32) :
    (∀ ops₁ ops₂ : List (DeltaOp I D),
      let base := ((Performed.start pre).all pre (entryOps ops₁)).map
      let d₁ := (new ledgerSeq).performAll ops₁
      let direct := d₁.performAll ops₂
      Performed.Legal pre (entryOps ops₁) (.start pre) →
      Performed.Legal base (entryOps ops₂) (.start base) →
      ∃ merged, d₁.merge ((new ledgerSeq).performAll ops₂) = .ok merged ∧
        merged.ledgerSeq = direct.ledgerSeq ∧ merged.feePoolDelta = direct.feePoolDelta ∧
        merged.totalCoinsDelta = direct.totalCoinsDelta ∧
        (merged.changes = direct.changes ↔ ∀ key, key.isTtl = true →
          (lifeAt key (entryOps ops₂)).Spared (d₁.changes key))) ∧
    (∀ clusters clusters' : List (List (LedgerOp I D)), Independent pre clusters →
      clusters.Perm clusters' → ∃ d d' : LedgerDelta I D,
        mergeAll (clusters.map (clusterDelta ledgerSeq)) (.new ledgerSeq) = .ok d ∧
        mergeAll (clusters'.map (clusterDelta ledgerSeq)) (.new ledgerSeq) = .ok d' ∧
        ∀ collect,
          (d.batch collect).initEntries.Perm (d'.batch collect).initEntries ∧
          (d.batch collect).liveEntries.Perm (d'.batch collect).liveEntries ∧
          (d.batch collect).deadKeys.Perm (d'.batch collect).deadKeys ∧
          ∀ key, key.isTtl = true → (∀ ops ∈ clusters, Bumps pre key ops) →
            (∃ ops ∈ clusters, Touches ops key) →
            ∃ entry ∈ (d.batch collect).liveEntries, entryToKey entry = key ∧
              IsGreatest {l | ∃ ops ∈ clusters, ∃ w ∈ writesAt key ops, w.liveUntil = l}
                entry.liveUntil) ∧
    ∀ ops₁ ops₂ : List (DeltaOp I D),
      let d := (new ledgerSeq).performAll ops₁
      let d' := d.performAll ops₂
      Performed.Legal pre (entryOps ops₁ ++ entryOps ops₂) (.start pre) →
      (d.view pre).applyChanges (d'.changesSince d.checkpoint) = d'.view pre := by
  refine ⟨fun ops₁ ops₂ hlegal₁ hlegal₂ => merge_performAll hlegal₁ hlegal₂,
    fun clusters clusters' hind hperm => ?_, fun ops₁ ops₂ hlegal => ?_⟩
  · obtain ⟨d, hmerged, hd, hseq, hchanges⟩ := mergeAll_spec ledgerSeq hind
    obtain ⟨d', hmerged', hd', hseq', hchanges'⟩ :=
      mergeAll_spec ledgerSeq (hind.perm hperm)
    have hsame : ∀ key, SameBatch d.ledgerSeq (d.changes key) (d'.changes key) := by
      intro key
      rw [hchanges, hchanges', hseq]
      exact mergedAll_perm hind hperm key
    refine ⟨d, d', hmerged, hmerged', fun collect => ?_⟩
    obtain ⟨hinit, hlive, hdead⟩ := batch_perm hd hd' (hseq'.trans hseq.symm) hsame collect
    exact ⟨hinit, hlive, hdead, fun key httl hbumps htouched =>
      mergeAll_longest hind hd hchanges httl hbumps htouched collect⟩
  · obtain ⟨hlegal₁, hlegal₂⟩ := Performed.legal_append.mp hlegal
    have htracks := (tracks_new pre ledgerSeq).performAll hlegal₁
    exact applyChanges_changesSince htracks (htracks.performAll hlegal₂)
      fun _ => Performed.touched_all

/-! ### A ledger with one TTL entry -/

/-- The entry is extended. -/
def extendTtl : List (DeltaOp ℕ Unit) := [.entry (.update (ttlEntry 3 10) (ttlEntry 5 50))]

/-- On top of that it is deleted and comes back with a shorter life. -/
def replaceTtl : List (DeltaOp ℕ Unit) :=
  [.entry (.delete (ttlEntry 5 50)), .entry (.create (ttlEntry 5 12))]

/-- The life it comes back with is longer. -/
def renewTtl : List (DeltaOp ℕ Unit) :=
  [.entry (.delete (ttlEntry 5 50)), .entry (.create (ttlEntry 5 60))]

/-- Merging keeps the extension that recording on loses. -/
theorem merge_keeps_extension :
    let base := ((Performed.start ttlLedger).all ttlLedger (entryOps extendTtl)).map
    let d₁ := (new 5).performAll extendTtl
    Performed.Legal ttlLedger (entryOps extendTtl) (.start ttlLedger) ∧
      Performed.Legal base (entryOps replaceTtl) (.start base) ∧
      ((d₁.merge ((new 5).performAll replaceTtl)).toOption.map
        fun merged => merged.changes (.ttl 1)) =
          some (some (.updated (ttlEntry 3 10) (ttlEntry 5 50))) ∧
      (d₁.performAll replaceTtl).changes (.ttl 1) =
        some (.updated (ttlEntry 3 10) (ttlEntry 5 12)) := by
  decide +kernel

/-- Two clusters bump the entry. -/
def bumpClusters : List (List (LedgerOp ℕ Unit)) :=
  [[.update (ttlEntry 3 10) (ttlEntry 5 30)], [.update (ttlEntry 3 10) (ttlEntry 5 20)]]

theorem bumpClusters_bump : ∀ ops ∈ bumpClusters, Bumps ttlLedger (.ttl 1) ops := by
  intro ops hops op hop _
  rcases mem_pair.mp hops with rfl | rfl
  · obtain rfl := mem_singleton.mp hop
    exact ⟨_, _, rfl, by decide⟩
  · obtain rfl := mem_singleton.mp hop
    exact ⟨_, _, rfl, by decide⟩

theorem bumpClusters_independent : Independent ttlLedger bumpClusters where
  legal := by decide +kernel
  apart := by
    refine pairwise_pair.mpr fun key htouches _ => ?_
    obtain ⟨op, hop, rfl⟩ := htouches
    obtain rfl := mem_singleton.mp hop
    exact ⟨rfl, rfl, bumpClusters_bump _ (by simp [bumpClusters]),
      bumpClusters_bump _ (by simp [bumpClusters])⟩

theorem renewTtl_spared (key : LedgerKey ℕ) :
    (lifeAt key (entryOps renewTtl)).Spared (((new 5).performAll extendTtl).changes key) := by
  by_cases hkey : key = .ttl 1
  · subst hkey
    have hchange : ((new 5).performAll extendTtl).changes (.ttl 1) =
        some (.updated (ttlEntry 3 10) (ttlEntry 5 50)) := by decide +kernel
    have hlongest : Life.longest (lifeAt (.ttl 1) (entryOps renewTtl)).writes =
        some (ttlEntry 5 60) := by decide +kernel
    rw [hchange]
    intro _ last hlast
    obtain rfl := some.inj (hlongest.symm.trans hlast)
    decide
  · have huntouched : ¬Touches (entryOps extendTtl) key := by
      rintro ⟨op, hop, rfl⟩
      exact hkey (by rw [mem_singleton.mp hop]; rfl)
    rw [performAll_eq]
    have hchange : ((new 5).recordAll (entryOps extendTtl)).changes key = none :=
      recordAll_untouched (tracks_new ttlLedger 5) (by decide +kernel) huntouched
    change (lifeAt key (entryOps renewTtl)).Spared
      (((new 5).recordAll (entryOps extendTtl)).changes key)
    rw [hchange]
    trivial

/-- A renewed entry merges as it is recorded, and of two bumps the longer wins in either
order. -/
theorem merge_checkpoint_faithful_bumpClusters :
    (∃ merged, ((new 5).performAll extendTtl).merge ((new 5).performAll renewTtl) = .ok merged ∧
      merged.changes = (((new 5).performAll extendTtl).performAll renewTtl).changes ∧
      merged.changes (.ttl 1) = some (.updated (ttlEntry 3 10) (ttlEntry 5 60))) ∧
    ∃ d, mergeAll (bumpClusters.reverse.map (clusterDelta 5)) (.new 5) = .ok d ∧
      ∃ entry ∈ (d.batch false).liveEntries, entryToKey entry = .ttl 1 ∧ entry.liveUntil = 30 := by
  have hfaithful := merge_checkpoint_faithful ttlLedger 5
  refine ⟨?_, ?_⟩
  · obtain ⟨merged, hmerged, _, _, _, hchanges⟩ :=
      hfaithful.1 extendTtl renewTtl (by decide +kernel) (by decide +kernel)
    have hsame := hchanges.mpr fun key _ => renewTtl_spared key
    refine ⟨merged, hmerged, hsame, ?_⟩
    rw [hsame]
    decide +kernel
  have hclusters := hfaithful.2.1 _ _
    (bumpClusters_independent.perm bumpClusters.reverse_perm.symm) (.refl _)
  obtain ⟨d, _, hmerged, _, hbatch⟩ := hclusters
  obtain ⟨_, _, _, hlongest⟩ := hbatch false
  obtain ⟨entry, hmem, hkey, hgreatest⟩ := hlongest (.ttl 1) rfl
    (fun ops hops => bumpClusters_bump ops (mem_reverse.mp hops))
    ⟨_, mem_reverse.mpr mem_cons_self, _, mem_singleton_self _, rfl⟩
  refine ⟨d, hmerged, entry, hmem, hkey, hgreatest.unique ⟨?_, ?_⟩⟩
  · exact ⟨_, mem_reverse.mpr mem_cons_self, ttlEntry 5 30, by decide, rfl⟩
  · rintro l ⟨ops, hops, w, hw, rfl⟩
    rcases mem_pair.mp (mem_reverse.mp hops) with rfl | rfl
    · obtain rfl : w = ttlEntry 5 30 := mem_singleton.mp hw
      decide
    · obtain rfl : w = ttlEntry 5 20 := mem_singleton.mp hw
      decide

end Henyey.Ledger
