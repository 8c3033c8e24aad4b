import Henyey.Buckets.BucketList
import Henyey.Buckets.LiveMerge

/-!
# Batches and the map they write

A legal batch names each key once, creates what is not there and changes or
deletes what is. Its bucket holds what its ledger leaves behind.
-/

namespace Henyey.Buckets

open Foundation Ledger BucketEntry

variable {I D H : Type} [LinearOrder I]

namespace LedgerBatch

variable {batch : LedgerBatch I D} {map : LedgerMap I D} {k : LedgerKey I}

def writeAt (batch : LedgerBatch I D) (key : LedgerKey I) : Option (Option (LedgerEntry I D)) :=
  match (batch.initEntries ++ batch.liveEntries).find? fun entry => entryToKey entry = key with
  | some entry => some (some entry)
  | none => if key ∈ batch.deadEntries then some none else none

def apply (batch : LedgerBatch I D) (map : LedgerMap I D) : LedgerMap I D :=
  fun key => (batch.writeAt key).getD (map key)

def keys (batch : LedgerBatch I D) : List (LedgerKey I) :=
  batch.initEntries.map entryToKey ++ (batch.liveEntries.map entryToKey ++ batch.deadEntries)

/-- A batch that names each key once, creates what the map does not have, and
changes or deletes what it has. -/
structure Legal (batch : LedgerBatch I D) (map : LedgerMap I D) : Prop where
  nodup : batch.keys.Nodup
  init : ∀ entry ∈ batch.initEntries, map (entryToKey entry) = none
  live : ∀ entry ∈ batch.liveEntries, map (entryToKey entry) ≠ none
  dead : ∀ key ∈ batch.deadEntries, map key ≠ none

def body (batch : LedgerBatch I D) : List (BucketEntry I D) :=
  batch.initEntries.map .initentry ++
    (batch.liveEntries.map .liveentry ++ batch.deadEntries.map .deadentry)

omit [LinearOrder I] in
theorem map_key_body (batch : LedgerBatch I D) :
    batch.body.map key = batch.keys.map WithBot.some := by
  simp only [body, keys, List.map_append, List.map_map]
  rfl

end LedgerBatch

/-! ### Names are kept -/

theorem deduplicateEntries_nodup {entries : List (LedgerEntry I D)}
    (hnodup : (entries.map entryToKey).Nodup) : deduplicateEntries entries = entries := by
  induction entries with
  | nil => rfl
  | cons entry entries ih =>
    rw [List.map_cons, List.nodup_cons] at hnodup
    unfold deduplicateEntries
    rw [if_neg, ih hnodup.2]
    intro hany
    obtain ⟨later, hlater, hsame⟩ := List.any_eq_true.mp hany
    exact hnodup.1 (List.mem_map.mpr ⟨later, hlater, of_decide_eq_true hsame⟩)

theorem firstOccurrences_nodup {keys seen : List (LedgerKey I)} (hnodup : keys.Nodup)
    (hseen : ∀ key ∈ keys, key ∉ seen) : firstOccurrences seen keys = keys := by
  induction keys generalizing seen with
  | nil => rfl
  | cons key keys ih =>
    obtain ⟨hnew, hnodup⟩ := List.nodup_cons.mp hnodup
    unfold firstOccurrences
    rw [if_neg (hseen key List.mem_cons_self), ih hnodup]
    intro k hk hmem
    rcases List.mem_cons.mp hmem with rfl | hmem
    · exact hnew hk
    · exact hseen k (List.mem_cons_of_mem _ hk) hmem

/-- Legal batches have no duplicates to remove. -/
theorem LedgerBatch.entries_eq {batch : LedgerBatch I D} (hnodup : batch.keys.Nodup)
    (hprotocol : 11 ≤ batch.protocolVersion) (skipDedup : Bool) :
    batch.entries skipDedup =
      .metaentry (.ofVersion batch.bucketListType batch.protocolVersion) :: batch.body := by
  obtain ⟨hinit, hrest, -⟩ := List.nodup_append.mp hnodup
  obtain ⟨hlive, hdead, -⟩ := List.nodup_append.mp hrest
  unfold entries body
  simp only [if_pos hprotocol, deduplicateEntries_nodup hinit, deduplicateEntries_nodup hlive,
    firstOccurrences_nodup hdead fun _ _ => List.not_mem_nil, ite_self]
  rfl

/-! ### The bucket of a batch -/

section Sorting

variable {entries : List (BucketEntry I D)}

theorem sortByKey_metadata (metadata : BucketMetadata) (entries : List (BucketEntry I D)) :
    sortByKey (.metaentry metadata :: entries) = .metaentry metadata :: sortByKey entries := by
  change List.orderedInsert _ _ (sortByKey entries) = _
  cases sortByKey entries with
  | nil => rfl
  | cons e entries => exact if_pos bot_le

theorem mem_sortByKey {e : BucketEntry I D} : e ∈ sortByKey entries ↔ e ∈ entries :=
  (List.perm_insertionSort _ entries).mem_iff

theorem ascending_sortByKey (hnodup : (entries.map key).Nodup) :
    Ascending key (sortByKey entries) :=
  ascending_insertionSort hnodup

end Sorting

namespace LedgerBatch

variable {batch : LedgerBatch I D} {map : LedgerMap I D} {k : LedgerKey I}

omit [LinearOrder I] in
theorem nodup_key_body (hnodup : batch.keys.Nodup) : (batch.body.map key).Nodup := by
  rw [map_key_body]
  exact hnodup.map WithBot.coe_injective

theorem writeAt_none_iff : batch.writeAt k = none ↔ k ∉ batch.keys := by
  unfold writeAt keys
  split
  next entry hfind =>
    have hmem := List.mem_of_find?_eq_some hfind
    have hkey : entryToKey entry = k := by simpa using List.find?_some hfind
    rcases List.mem_append.mp hmem with hmem | hmem
    · simpa using fun h => absurd hkey (h entry hmem)
    · simpa using fun _ h => absurd hkey (h entry hmem)
  next hfind =>
    rw [List.find?_eq_none] at hfind
    have hnot : ∀ entry ∈ batch.initEntries ++ batch.liveEntries, entryToKey entry ≠ k := by
      simpa using hfind
    simp only [List.mem_append, List.mem_map] at hnot ⊢
    split
    next hdead => simp [hdead]
    next hdead =>
      simp only [true_iff]
      rintro (⟨entry, hentry, hkey⟩ | ⟨entry, hentry, hkey⟩ | h)
      · exact hnot entry (.inl hentry) hkey
      · exact hnot entry (.inr hentry) hkey
      · exact hdead h

theorem writeAt_of_mem (hnodup : batch.keys.Nodup) {entry : LedgerEntry I D}
    (hmem : entry ∈ batch.initEntries ++ batch.liveEntries) :
    batch.writeAt (entryToKey entry) = some (some entry) := by
  have hkeys : ((batch.initEntries ++ batch.liveEntries).map entryToKey).Nodup := by
    rw [keys, ← List.append_assoc, ← List.map_append] at hnodup
    exact (List.nodup_append.mp hnodup).1
  unfold writeAt
  cases hfind : (batch.initEntries ++ batch.liveEntries).find?
      fun e => entryToKey e = entryToKey entry with
  | some found =>
    have hfound := List.mem_of_find?_eq_some hfind
    have hsame : entryToKey found = entryToKey entry := by simpa using List.find?_some hfind
    rw [List.inj_on_of_nodup_map hkeys hfound hmem hsame]
  | none =>
    have hnone := List.find?_eq_none.mp hfind entry hmem
    simp at hnone

theorem writeAt_of_dead (hnodup : batch.keys.Nodup) (hmem : k ∈ batch.deadEntries) :
    batch.writeAt k = some none := by
  unfold writeAt
  cases hfind : (batch.initEntries ++ batch.liveEntries).find? fun e => entryToKey e = k with
  | some found =>
    have hfound := List.mem_of_find?_eq_some hfind
    have hsame : entryToKey found = k := by simpa using List.find?_some hfind
    rw [keys, ← List.append_assoc, ← List.map_append] at hnodup
    exact absurd rfl ((List.nodup_append.mp hnodup).2.2 _
      (List.mem_map.mpr ⟨found, hfound, hsame⟩) k hmem)
  | none => exact if_pos hmem

theorem Legal.lookup_body (hlegal : batch.Legal map) :
    lookup key (k : WithBot (LedgerKey I)) (sortByKey batch.body) =
      liveEntryAt k (map k) (batch.writeAt k) := by
  have hsorted := ascending_sortByKey (nodup_key_body hlegal.nodup)
  have hfound : ∀ e ∈ batch.body, e.key = k →
      lookup key (k : WithBot (LedgerKey I)) (sortByKey batch.body) = some e := by
    rintro e he hkey
    rw [← hkey]
    exact hsorted.lookup_of_mem (mem_sortByKey.mpr he)
  cases hwrite : batch.writeAt k with
  | none =>
    rw [liveEntryAt_none, lookup_eq_none_iff]
    intro e he hkey
    have hmem : e.key ∈ batch.body.map key :=
      List.mem_map_of_mem (mem_sortByKey.mp he)
    rw [map_key_body, hkey, List.mem_map] at hmem
    obtain ⟨key, hkeys, hsame⟩ := hmem
    rw [WithBot.coe_injective hsame] at hkeys
    exact writeAt_none_iff.mp hwrite hkeys
  | some write =>
    have hnamed : k ∈ batch.keys := by
      by_contra hnot
      rw [writeAt_none_iff.mpr hnot] at hwrite
      cases hwrite
    unfold keys at hnamed
    simp only [List.mem_append, List.mem_map] at hnamed
    rcases hnamed with ⟨entry, hentry, rfl⟩ | ⟨entry, hentry, rfl⟩ | hdead
    · rw [writeAt_of_mem hlegal.nodup (List.mem_append_left _ hentry)] at hwrite
      obtain rfl := Option.some.inj hwrite
      rw [hlegal.init entry hentry]
      exact hfound _ (List.mem_append_left _ (List.mem_map_of_mem hentry)) rfl
    · rw [writeAt_of_mem hlegal.nodup (List.mem_append_right _ hentry)] at hwrite
      obtain rfl := Option.some.inj hwrite
      obtain ⟨before, hbefore⟩ := Option.ne_none_iff_exists'.mp (hlegal.live entry hentry)
      rw [hbefore]
      exact hfound _ (List.mem_append_right _
        (List.mem_append_left _ (List.mem_map_of_mem hentry))) rfl
    · rw [writeAt_of_dead hlegal.nodup hdead] at hwrite
      obtain rfl := Option.some.inj hwrite
      obtain ⟨before, hbefore⟩ := Option.ne_none_iff_exists'.mp (hlegal.dead k hdead)
      rw [hbefore]
      exact hfound _ (List.mem_append_right _
        (List.mem_append_right _ (List.mem_map_of_mem hdead))) rfl

end LedgerBatch

/-! ### The history of batches -/

def referenceMap (batches : ℕ → LedgerBatch I D) : ℕ → LedgerMap I D
  | 0 => fun _ => none
  | n + 1 => (batches (n + 1)).apply (referenceMap batches n)

def liveHistory (batches : ℕ → LedgerBatch I D) : LiveHistory I D where
  first := 1
  write n := (batches n).writeAt
  version n := (batches n).protocolVersion

variable {batches : ℕ → LedgerBatch I D} {n : ℕ}

theorem referenceMap_eq (batches : ℕ → LedgerBatch I D) (n : ℕ) (key : LedgerKey I) :
    referenceMap batches n key = (liveHistory batches).before (n + 1) key := by
  induction n generalizing key with
  | zero => exact (Timeline.before_idle le_rfl).symm
  | succ n ih =>
    rw [Timeline.before_succ (show (liveHistory batches).first ≤ n + 1 from Nat.le_add_left 1 n)]
    change ((batches (n + 1)).writeAt key).getD (referenceMap batches n key) = _
    rw [ih]
    rfl

theorem holds_batch (hlegal : (batches (n + 1)).Legal (referenceMap batches n)) :
    Holds key liveEntryAt (liveHistory batches).toTimeline (n + 1) (n + 2)
      (sortByKey (batches (n + 1)).body) where
  ascending := ascending_sortByKey (LedgerBatch.nodup_key_body hlegal.nodup)
  keyed e he := by
    have hmem : e.key ∈ (batches (n + 1)).body.map key :=
      List.mem_map_of_mem (mem_sortByKey.mp he)
    rw [LedgerBatch.map_key_body] at hmem
    obtain ⟨key, -, hkey⟩ := List.mem_map.mp hmem
    rw [← hkey]
    exact WithBot.coe_ne_bot
  lookup key := by
    rw [hlegal.lookup_body, referenceMap_eq, Timeline.net_single (Nat.le_add_left 1 n)]
    rfl

theorem freshInMemoryOnly_batch (hasher : Hasher (BucketEntry I D) H)
    (hlegal : (batches (n + 1)).Legal (referenceMap batches n))
    (hprotocol : 11 ≤ (batches (n + 1)).protocolVersion) (skipDedup : Bool) :
    ∃ bucket metadata, Bucket.freshInMemoryOnly hasher
        (sortByKey ((batches (n + 1)).entries skipDedup)) = .ok bucket ∧
      bucket.entries = .metaentry metadata :: sortByKey (batches (n + 1)).body ∧
        bucket.hasInMemoryEntries = true := by
  have hbody := holds_batch hlegal
  rw [LedgerBatch.entries_eq hlegal.nodup hprotocol, sortByKey_metadata]
  have hsorted : Ascending key (((some 0).map fun _ => metaentry
      (.ofVersion (batches (n + 1)).bucketListType (batches (n + 1)).protocolVersion)).toList ++
        sortByKey (batches (n + 1)).body) := ascending_header (fun _ => rfl) hbody
  exact ⟨_, _, Bucket.ofSorted_of_ascending hsorted, rfl, rfl⟩

end Henyey.Buckets
