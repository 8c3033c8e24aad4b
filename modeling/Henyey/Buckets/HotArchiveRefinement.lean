import Henyey.Buckets.HotArchiveMerge
import Henyey.Buckets.Simulation

/-!
# The hot archive refines a map

After each ledger the buckets represent what all ledgers so far have archived
and restored.
-/

namespace Henyey.Buckets

open Foundation Ledger HotArchiveBucketList HotArchiveBucket List

variable {I D H : Type} [LinearOrder I]

namespace HotArchiveBatch

variable {batch : HotArchiveBatch I D} {k : LedgerKey I}

/-- What a batch writes under a key: the last archived value, or that there is none. -/
def writeAt (batch : HotArchiveBatch I D) (key : LedgerKey I) : Option (Option (LedgerEntry I D)) :=
  match batch.archivedEntries.find? fun entry => entryToKey entry = key with
  | some entry => some (some entry)
  | none => if key ∈ batch.restoredKeys then some none else none

def apply (batch : HotArchiveBatch I D) (map : LedgerMap I D) : LedgerMap I D :=
  fun key => (batch.writeAt key).getD (map key)

def keys (batch : HotArchiveBatch I D) : List (LedgerKey I) :=
  batch.archivedEntries.map entryToKey ++ batch.restoredKeys

/-- A batch of persistent entries that names each key once, archives what is not
archived and restores what is. -/
structure Legal (batch : HotArchiveBatch I D) (map : LedgerMap I D) : Prop where
  nodup : batch.keys.Nodup
  persistentEntries : ∀ entry ∈ batch.archivedEntries, isPersistentEntry entry = true
  persistentKeys : ∀ key ∈ batch.restoredKeys, isPersistentKey key = true
  archived : ∀ entry ∈ batch.archivedEntries, map (entryToKey entry) = none
  restored : ∀ key ∈ batch.restoredKeys, map key ≠ none

def body (batch : HotArchiveBatch I D) : List (HotArchiveBucketEntry I D) :=
  batch.archivedEntries.map .archived ++ batch.restoredKeys.map .live

omit [LinearOrder I] in
theorem map_key_body (batch : HotArchiveBatch I D) :
    batch.body.map HotArchiveBucketEntry.key = batch.keys.map WithBot.some := by
  simp only [body, keys, map_append, map_map]
  rfl

def sortedBody (batch : HotArchiveBatch I D) : List (HotArchiveBucketEntry I D) :=
  batch.body.insertionSort fun a b => a.key ≤ b.key

theorem mem_sortedBody {e : HotArchiveBucketEntry I D} : e ∈ batch.sortedBody ↔ e ∈ batch.body :=
  (perm_insertionSort _ batch.body).mem_iff

/-- Metadata is sorted to the front. -/
theorem freshEntries_eq (batch : HotArchiveBatch I D) :
    freshEntries batch.protocolVersion batch.archivedEntries batch.restoredKeys =
      .metaentry { ledgerVersion := batch.protocolVersion, ext := .v1 .hotArchive } ::
        batch.sortedBody := by
  change orderedInsert _ _ batch.sortedBody = _
  cases batch.sortedBody with
  | nil => rfl
  | cons e entries => exact if_pos bot_le

theorem ascending_sortedBody (hnodup : batch.keys.Nodup) :
    Ascending HotArchiveBucketEntry.key batch.sortedBody := by
  apply ascending_insertionSort
  rw [map_key_body]
  exact hnodup.map WithBot.coe_injective

theorem keyed_sortedBody {e : HotArchiveBucketEntry I D} (he : e ∈ batch.sortedBody) :
    ∃ key ∈ batch.keys, e.key = key := by
  have hmem : e.key ∈ batch.body.map HotArchiveBucketEntry.key :=
    mem_map_of_mem (mem_sortedBody.mp he)
  rw [map_key_body] at hmem
  obtain ⟨key, hkey, hsame⟩ := mem_map.mp hmem
  exact ⟨key, hkey, hsame.symm⟩

theorem lookup_sortedBody (hnodup : batch.keys.Nodup) (before : Option (LedgerEntry I D)) :
    lookup HotArchiveBucketEntry.key (k : WithBot (LedgerKey I)) batch.sortedBody =
      hotEntryAt (fun _ => false) k before (batch.writeAt k) := by
  have hsorted := ascending_sortedBody hnodup
  have hfound : ∀ e ∈ batch.body, e.key = k →
      lookup HotArchiveBucketEntry.key (k : WithBot (LedgerKey I)) batch.sortedBody = some e := by
    rintro e he hkey
    rw [← hkey]
    exact hsorted.lookup_of_mem (mem_sortedBody.mpr he)
  unfold writeAt
  cases hfind : batch.archivedEntries.find? fun entry => entryToKey entry = k with
  | some entry =>
    have hkey : entryToKey entry = k := by simpa using find?_some hfind
    refine hfound _ (mem_append_left _ (mem_map_of_mem ?_)) (by rw [← hkey]; rfl)
    exact mem_of_find?_eq_some hfind
  | none =>
    by_cases hrestored : k ∈ batch.restoredKeys
    · simp only [if_pos hrestored]
      exact hfound _ (mem_append_right _ (mem_map_of_mem hrestored)) rfl
    · simp only [if_neg hrestored, hotEntryAt_none]
      refine lookup_eq_none_iff.mpr fun e he hkey => ?_
      obtain ⟨key, hkeys, hsame⟩ := keyed_sortedBody he
      obtain rfl : key = k := WithBot.coe_injective (hsame.symm.trans hkey)
      rcases mem_append.mp hkeys with harchived | hmem
      · obtain ⟨entry, hentry, hentryKey⟩ := mem_map.mp harchived
        have hnone := find?_eq_none.mp hfind entry hentry
        simp [hentryKey] at hnone
      · exact hrestored hmem

end HotArchiveBatch

/-! ### The history of batches -/

variable {hasher : Hasher (HotArchiveBucketEntry I D) H} {h : LiveHistory I D}
  {batches : ℕ → HotArchiveBatch I D} {start count n : ℕ} {list list' : HotArchiveBucketList I D H}

/-- The ledgers after `start`, with what they write. -/
def hotHistory (start : ℕ) (batches : ℕ → HotArchiveBatch I D) : LiveHistory I D where
  first := start + 1
  write n := (batches n).writeAt
  version n := (batches n).protocolVersion

/-- What is archived after so many ledgers. -/
def archivedMap (start : ℕ) (batches : ℕ → HotArchiveBatch I D) : ℕ → LedgerMap I D
  | 0 => fun _ => none
  | count + 1 => (batches (start + (count + 1))).apply (archivedMap start batches count)

theorem archivedMap_eq (start : ℕ) (batches : ℕ → HotArchiveBatch I D) (count : ℕ)
    (key : LedgerKey I) :
    archivedMap start batches count key =
      (hotHistory start batches).before (start + count + 1) key := by
  induction count generalizing key with
  | zero => exact (Timeline.before_idle le_rfl).symm
  | succ count ih =>
    have hfirst : (hotHistory start batches).first ≤ start + (count + 1) := by
      change start + 1 ≤ _
      omega
    rw [Timeline.before_succ hfirst]
    change ((batches (start + (count + 1))).writeAt key).getD (archivedMap start batches count key) = _
    rw [ih]
    rfl

/-- Batches for so many ledgers after `start`, under protocols that support the
hot archive and only go up. -/
structure LegalArchival (start : ℕ) (batches : ℕ → HotArchiveBatch I D) (count : ℕ) : Prop where
  legal : ∀ m, m < count → (batches (start + (m + 1))).Legal (archivedMap start batches m)
  supported : ∀ m, start < m → m ≤ start + count → 23 ≤ (batches m).protocolVersion
  upgrading : ∀ m m', start < m → m ≤ m' → m' ≤ start + count →
    (batches m).protocolVersion ≤ (batches m').protocolVersion

theorem LegalArchival.of_succ (hlegal : LegalArchival start batches (count + 1)) :
    LegalArchival start batches count where
  legal m hm := hlegal.legal m (by omega)
  supported m h1 hm := hlegal.supported m h1 (by omega)
  upgrading m m' h1 hm hm' := hlegal.upgrading m m' h1 hm (by omega)

theorem LegalArchival.history (hlegal : LegalArchival start batches count) :
    (hotHistory start batches).Upgrading (start + count) where
  mono m m' h1 hm hm' := hlegal.upgrading m m' h1 hm hm'
  supported m h1 hm := le_trans (by decide) (hlegal.supported m h1 hm)

theorem fresh_spec (hasher : Hasher (HotArchiveBucketEntry I D) H) {batch : HotArchiveBatch I D}
    {map : LedgerMap I D} (hlegal : batch.Legal map)
    (hfirst : h.first ≤ n) (hwrite : h.write n = batch.writeAt)
    (hversion : h.version n = batch.protocolVersion) (hprotocol : 23 ≤ batch.protocolVersion) :
    ∃ bucket, fresh hasher batch.protocolVersion batch.archivedEntries
        batch.restoredKeys = .ok bucket ∧ HotRepresents hasher h bucket n (n + 1) := by
  have hbody : Holds HotArchiveBucketEntry.key (hotEntryAt fun _ => false) h.toTimeline n (n + 1)
      batch.sortedBody := by
    refine ⟨HotArchiveBatch.ascending_sortedBody hlegal.nodup, fun e he => ?_, fun k => ?_⟩
    · obtain ⟨key, -, hkey⟩ := HotArchiveBatch.keyed_sortedBody he
      rw [hkey]
      exact WithBot.coe_ne_bot
    · rw [HotArchiveBatch.lookup_sortedBody hlegal.nodup (h.before n k),
        Timeline.net_single hfirst, ← hwrite]
  have hheader : [HotArchiveBucketEntry.metaentry
      { ledgerVersion := batch.protocolVersion, ext := .v1 .hotArchive }] =
        ((h.headerVersion n (n + 1)).map fun v =>
          (.metaentry (.ofVersion .hotArchive v) : HotArchiveBucketEntry I D)).toList := by
    rw [History.headerVersion_busy (by omega), Nat.add_sub_cancel, hversion]
    simp [BucketMetadata.ofVersion, hprotocol]
  have hentries : freshEntries batch.protocolVersion batch.archivedEntries
      batch.restoredKeys = [.metaentry
        { ledgerVersion := batch.protocolVersion, ext := .v1 .hotArchive }] ++ batch.sortedBody :=
    batch.freshEntries_eq
  have hdropped : ∀ key : LedgerKey I, false = true → n = 0 := fun _ => nofun
  obtain ⟨bucket, hok, hrep⟩ := hotRepresents_build hasher hdropped hbody hheader
  refine ⟨bucket, ?_, hrep⟩
  unfold fresh
  have hsorted : Ascending HotArchiveBucketEntry.key (freshEntries
      batch.protocolVersion batch.archivedEntries batch.restoredKeys) := by
    rw [hentries, hheader]
    exact ascending_header (fun _ => rfl) hbody
  have hpersistent : (batch.archivedEntries.any fun entry => !isPersistentEntry entry) = false := by
    simpa using hlegal.persistentEntries
  have hpersistent' : (batch.restoredKeys.any fun key => !isPersistentKey key) = false := by
    simpa using hlegal.persistentKeys
  simp only [hpersistent, hpersistent', Bool.false_eq_true, if_false,
    hasDuplicate_of_ascending hsorted]
  rw [hentries]
  exact hok

/-! ### One ledger -/

/-- A merge started at a ledger into the level above `l`. -/
def HotStarted (hasher : Hasher (HotArchiveBucketEntry I D) H) (h : LiveHistory I D)
    (ledgerSeq l : ℕ) (curr snap pending : HotArchiveBucket I D H) : Prop :=
  mergeHotArchiveBuckets hasher curr snap (h.version ledgerSeq) (blKeepTombstoneEntries (l + 1)) =
    .ok pending

/-- A list on its schedule after a ledger. -/
structure HotTracks (hasher : Hasher (HotArchiveBucketEntry I D) H) (h : LiveHistory I D) (n : ℕ)
    (list : HotArchiveBucketList I D H) : Prop where
  covered : Covered (hotOps hasher 0) (HotRepresents hasher h) (HotRepresents hasher h) h.first n
    list.levels
  curr : HotRepresents hasher h (list.levels 0).curr (cut 0 n) (n + 1)
  origin : Origin (HotStarted hasher h) (.empty hasher) n list.levels

theorem hotCovered_iff (version : ℕ)
    {levels : Levels (HotArchiveBucket I D H) (HotArchiveBucket I D H)} :
    Covered (hotOps hasher version) (HotRepresents hasher h) (HotRepresents hasher h) h.first n
      levels ↔
    Covered (hotOps hasher 0) (HotRepresents hasher h) (HotRepresents hasher h) h.first n levels :=
  ⟨fun h => ⟨h.curr, h.snap, h.next, h.idle⟩, fun h => ⟨h.curr, h.snap, h.next, h.idle⟩⟩

/-- Only the merges into the last level drop markers, and nothing is older there. -/
theorem keeps_or_bottom {l a : ℕ} (hl : l < 10) (hlast : l = 9 → a = 0) :
    blKeepTombstoneEntries (l + 1) = true ∨ a = 0 := by
  by_cases hnine : l = 9
  · exact .inr (hlast hnine)
  · refine .inl (decide_eq_true ?_)
    unfold bucketListLevels
    omega

theorem hot_coverage (hasher : Hasher (HotArchiveBucketEntry I D) H) (hup : h.Upgrading n) :
    Coverage (hotOps hasher (h.version n)) (HotRepresents hasher h) (HotRepresents hasher h) h.first
      n where
  empty a c hidle := hotRepresents_empty (by omega)
  released l b a c hrep := hrep
  start l x y a b c hl hx hy hab hbc hc hlast := by
    obtain ⟨bucket, hrep, hok⟩ := mergeHotArchiveBuckets_spec hup hx hy hab hbc (by omega) _
      (keeps_or_bottom hl hlast)
    exact ⟨bucket, hok _ (History.headerVersion_le hup (by omega)), hrep⟩
  resolve pending bucket a c hrep hok := by
    cases hok
    exact hrep

/-- A ledger keeps the list on its schedule. -/
theorem HotTracks.addBatchInternal (hup : h.Upgrading (n + 1)) (htracks : HotTracks hasher h n list)
    {incoming : HotArchiveBucket I D H} (hincoming : HotRepresents hasher h incoming (n + 1) (n + 2)) :
    ∃ list', list.addBatchInternal hasher (n + 1) (h.version (n + 1)) incoming = .ok list' ∧
      HotTracks hasher h (n + 1) list' := by
  have hcoverage := hot_coverage hasher hup
  have hbefore := (hotCovered_iff (h.version (n + 1))).mpr htracks.covered
  obtain ⟨levels, hspill⟩ := hbefore.spills htracks.curr hcoverage fun pending _ _ _ => ⟨pending, rfl⟩
  obtain ⟨hcovered, hcurr, -⟩ := hbefore.spill htracks.curr hcoverage hspill
  have horigin : Origin (HotStarted hasher h) (.empty hasher) (n + 1) levels := by
    have horigin : Origin (HotStarted hasher h) (hotOps hasher (h.version (n + 1))).empty n
        list.levels := htracks.origin
    exact horigin.spill (fun _ _ _ _ hstart => hstart) hspill
  obtain ⟨merged, hmerged, hmerge⟩ := mergeHotArchiveBuckets_spec hup hcurr hincoming
    (cut_le 0 (n + 1)) (Nat.le_succ (n + 1)) le_rfl true (.inl rfl)
  have hok := hmerge (h.version (n + 1)) (History.headerVersion_le hup le_rfl)
  let level : HotArchiveBucketLevel I D H := { levels 0 with curr := merged, next := none }
  refine ⟨{ list with levels := Function.update levels 0 level }, ?_, ⟨?_, ?_, ?_, rfl⟩, hmerged, ?_⟩
  · unfold HotArchiveBucketList.addBatchInternal
    rw [if_neg (Nat.succ_ne_zero n)]
    have hspill' : spillLevels (hotOps hasher (h.version (n + 1))) (n + 1) (bucketListLevels - 1)
        list.levels = .ok levels := hspill
    have hprepare : (levels 0).prepare (hotOps hasher (h.version (n + 1))) 0
        (blKeepTombstoneEntries 0) false incoming = .ok { levels 0 with next := some merged } := by
      unfold BucketLevel.prepare
      rw [hcovered.idle]
      change (mergeHotArchiveBuckets hasher (levels 0).curr incoming (h.version (n + 1)) true >>= _) = _
      rw [hok]
      rfl
    simp only [hspill', hprepare, bind, Except.bind]
    rfl
  · intro l hl
    exact hcovered.curr l hl
  · intro l hl
    cases l with
    | zero => exact hcovered.snap 0 hl
    | succ l => exact hcovered.snap (l + 1) hl
  · intro l hl
    exact hcovered.next l hl
  · intro l pending hl hpending
    have hstarted := horigin l pending hl hpending
    cases l with
    | zero => exact hstarted
    | succ l => exact hstarted

/-! ### Runs -/

def closeArchiveLedgers (hasher : Hasher (HotArchiveBucketEntry I D) H) (start : ℕ)
    (batches : ℕ → HotArchiveBatch I D) : ℕ → Except (BucketError H) (HotArchiveBucketList I D H)
  | 0 => .ok (.new hasher)
  | count + 1 => do
    let list ← closeArchiveLedgers hasher start batches count
    list.addBatch hasher (start + (count + 1)) (batches (start + (count + 1)))

theorem hotTracks_new : HotTracks hasher (hotHistory start batches) start (.new hasher) where
  covered := covered_new (Nat.lt_succ_self start) fun _ _ hidle =>
    hotRepresents_empty (le_max_iff.mpr hidle.symm)
  curr := hotRepresents_empty (Nat.le_max_right _ _)
  origin _ _ _ hnext := nomatch hnext

theorem HotTracks.addBatch (hlegal : LegalArchival start batches (count + 1))
    (htracks : HotTracks hasher (hotHistory start batches) (start + count) list) :
    ∃ list', list.addBatch hasher (start + (count + 1)) (batches (start + (count + 1))) = .ok list' ∧
      HotTracks hasher (hotHistory start batches) (start + (count + 1)) list' := by
  have hprotocol := hlegal.supported (start + (count + 1)) (by omega) le_rfl
  have hfirst : (hotHistory start batches).first ≤ start + (count + 1) := by
    change start + 1 ≤ _
    omega
  obtain ⟨bucket, hfresh, hrep⟩ := fresh_spec hasher
    (hlegal.legal count (Nat.lt_succ_self count)) hfirst rfl rfl hprotocol
  obtain ⟨list', hadd, htracks'⟩ := htracks.addBatchInternal hlegal.history hrep
  refine ⟨{ list' with ledgerSeq := start + (count + 1) }, ?_, htracks'.covered, htracks'.curr,
    htracks'.origin⟩
  unfold HotArchiveBucketList.addBatch
  rw [if_neg (by omega), hfresh]
  have hadd' : list.addBatchInternal hasher (start + (count + 1))
      (batches (start + (count + 1))).protocolVersion bucket = .ok list' := hadd
  simp only [bind, Except.bind, hadd']

theorem closeArchiveLedgers_tracks (hasher : Hasher (HotArchiveBucketEntry I D) H)
    (hlegal : LegalArchival start batches count) :
    ∃ list, closeArchiveLedgers hasher start batches count = .ok list ∧
      HotTracks hasher (hotHistory start batches) (start + count) list := by
  induction count with
  | zero => exact ⟨_, rfl, hotTracks_new⟩
  | succ count ih =>
    obtain ⟨list, hclose, htracks⟩ := ih hlegal.of_succ
    obtain ⟨list', hadd, htracks'⟩ := htracks.addBatch hlegal
    refine ⟨list', ?_, htracks'⟩
    unfold closeArchiveLedgers
    rw [hclose]
    exact hadd

/-! ### What is read -/

def HotArchiveBucketEntry.asArchived : HotArchiveBucketEntry I D → Option (LedgerEntry I D)
  | archived entry => some entry
  | _ => none

omit [LinearOrder I] in
theorem hot_tells {dropped : LedgerKey I → Bool} {a c : ℕ} (hac : a ≤ c)
    (hdropped : ∀ key, dropped key = true → a = 0) :
    Tells HotArchiveBucketEntry.asArchived (hotEntryAt dropped) h.toTimeline a c where
  found k e hfound := by
    rw [Timeline.before_eq hac]
    rcases hnet : h.net a c k with _ | _ | entry
    · rw [hnet] at hfound
      cases hfound
    · rw [hnet, hotEntryAt_restored] at hfound
      split at hfound
      · cases hfound
      · cases hfound
        rfl
    · rw [hnet] at hfound
      cases hfound
      rfl
  missing k hmissing := by
    rw [Timeline.before_eq hac]
    rcases hnet : h.net a c k with _ | _ | entry
    · rfl
    · -- a marker is missing only where there was nothing before
      rw [hnet, hotEntryAt_restored] at hmissing
      split at hmissing
      next hdrop =>
        rw [hdropped k hdrop]
        rfl
      · cases hmissing
    · rw [hnet] at hmissing
      cases hmissing

theorem getFrom_cons {bucket : HotArchiveBucket I D H} {older : List (HotArchiveBucket I D H)}
    {a c : ℕ} {key : LedgerKey I} (hac : a ≤ c) (hrep : HotRepresents hasher h bucket a c)
    (holder : getFrom key older = h.before a key) :
    getFrom key (bucket :: older) = h.before c key := by
  obtain ⟨dropped, hdropped, body, hbody, hentries, -⟩ := hrep
  have hsearch := hbody.search (hot_tells hac hdropped) holder
  rw [← hsearch]
  have hheader : bucket.get key = lookup HotArchiveBucketEntry.key key body := by
    unfold HotArchiveBucket.get
    rw [hentries]
    cases h.headerVersion a c with
    | none => rfl
    | some version => exact lookup_cons.trans (if_neg (by simp [HotArchiveBucketEntry.key]))
  rw [getFrom, hheader]
  cases hfound : lookup HotArchiveBucketEntry.key (key : WithBot (LedgerKey I)) body with
  | none => rfl
  | some e =>
    cases e with
    | metaentry metadata => cases (mem_of_lookup hfound).2
    | archived entry => rfl
    | live key => rfl

theorem HotTracks.getFrom_levels (htracks : HotTracks hasher h n list) (key : LedgerKey I) (k l : ℕ)
    (hl : l + k = 11) :
    getFrom key (((range' l k).map list.levels).flatMap fun level =>
      [level.curr, level.snap]) = h.before (currEnd l n) key := by
  induction k generalizing l with
  | zero =>
    obtain rfl : l = 11 := by omega
    rfl
  | succ k ih =>
    have hrest := ih (l + 1) (by omega)
    have hsnap := getFrom_cons (tail_le_cut l n) (htracks.covered.snap l (by omega)) hrest
    have hcurr : HotRepresents hasher h (list.levels l).curr (cut l n) (currEnd l n) := by
      cases l with
      | zero => exact htracks.curr
      | succ l => exact htracks.covered.curr l (by omega)
    rw [range'_succ, map_cons, flatMap_cons]
    exact getFrom_cons (cut_le_currEnd l n (by omega)) hcurr hsnap

/-- A list on its schedule answers as the state after its last ledger. -/
theorem HotTracks.get_eq (htracks : HotTracks hasher h n list) (key : LedgerKey I) :
    list.get key = h.before (n + 1) key := by
  have hget := htracks.getFrom_levels key 11 0 rfl
  rwa [← range_eq_range'] at hget

end Henyey.Buckets
