import Henyey.Buckets.HotArchive
import Henyey.Buckets.LiveMerge

/-!
# Merges of hot archive buckets

What an interval leaves under a key is an archived entry or a marker. Markers
may be dropped where nothing is older. Merging the buckets of two intervals in a
row gives a bucket of both.
-/

namespace Henyey.Buckets

open Foundation Ledger HotArchiveBucketEntry

variable {I D H : Type}

/-- The entry that an interval leaves under a key, unless its marker is dropped. -/
def hotEntryAt (dropped : LedgerKey I → Bool) (key : LedgerKey I) :
    Option (LedgerEntry I D) → Option (Option (LedgerEntry I D)) →
      Option (HotArchiveBucketEntry I D)
  | _, none => none
  | _, some none => if dropped key then none else some (.live key)
  | _, some (some entry) => some (.archived entry)

theorem hotEntryAt_none (dropped : LedgerKey I → Bool) (key : LedgerKey I)
    (before : Option (LedgerEntry I D)) : hotEntryAt dropped key before none = none := rfl

theorem hotEntryAt_restored (dropped : LedgerKey I → Bool) (key : LedgerKey I)
    (before : Option (LedgerEntry I D)) :
    hotEntryAt dropped key before (some none) = if dropped key then none else some (.live key) :=
  rfl

theorem mergedAt_hotArchive {keepTombstones : Bool} {before : Option (LedgerEntry I D)}
    {key : LedgerKey I} {older newer : Option (Option (LedgerEntry I D))}
    {dropOld dropNew drop : LedgerKey I → Bool} (hnew : dropNew key = true → older = none)
    (hdrop : drop key = if keepTombstones then (if newer.isNone then dropOld key else dropNew key)
      else true) :
    mergedAt (ε := BucketError H) (fun e => keepTombstones || !e.isTombstone)
        (fun _ new => .ok (if keepTombstones || !new.isTombstone then some new else none))
        (hotEntryAt dropOld key before older) (hotEntryAt dropNew key (older.getD before) newer) =
      .ok (hotEntryAt drop key before (newer.or older)) := by
  rcases newer with _ | _ | entry
  · rcases older with _ | _ | entry
    · rfl
    · cases keepTombstones <;> cases hold : dropOld key <;>
        simp_all [hotEntryAt, mergedAt, isTombstone]
    · simp [hotEntryAt, mergedAt, isTombstone]
  · cases hdropped : dropNew key with
    | true =>
      have holder := hnew hdropped
      subst holder
      cases keepTombstones <;> simp_all [hotEntryAt, mergedAt]
    | false =>
      rcases older with _ | _ | entry
      · cases keepTombstones <;> simp_all [hotEntryAt, mergedAt, isTombstone]
      · cases keepTombstones <;> cases hold : dropOld key <;>
          simp_all [hotEntryAt, mergedAt, isTombstone]
      · cases keepTombstones <;> simp_all [hotEntryAt, mergedAt, isTombstone]
  · rcases older with _ | _ | older
    · simp [hotEntryAt, mergedAt, isTombstone]
    · cases hold : dropOld key <;>
        simp [hotEntryAt, mergedAt, isTombstone, hold]
    · simp [hotEntryAt, mergedAt, isTombstone]

section Bucket

variable [LinearOrder I]

/-- The bucket of an interval of ledgers. Markers are only dropped from those
that nothing is older than. -/
def HotRepresents (hasher : Hasher (HotArchiveBucketEntry I D) H) (h : LiveHistory I D)
    (bucket : HotArchiveBucket I D H) (a c : ℕ) : Prop :=
  ∃ dropped : LedgerKey I → Bool, (∀ key, dropped key = true → a = 0) ∧
    Represents key (fun v => .metaentry (.ofVersion .hotArchive v)) hasher
      (hotEntryAt dropped) h bucket.hash bucket.entries a c

variable {hasher : Hasher (HotArchiveBucketEntry I D) H} {h : LiveHistory I D}
  {old new bucket : HotArchiveBucket I D H} {a b c n : ℕ}
  {body olds news : List (HotArchiveBucketEntry I D)}

theorem hotRepresents_empty (hidle : c ≤ max a h.first) :
    HotRepresents hasher h (.empty hasher) a c :=
  ⟨fun _ => false, nofun, represents_empty (hotEntryAt_none _) hidle⟩

section

variable (hrep : HotRepresents hasher h bucket a c)
include hrep

theorem HotRepresents.isEmpty_iff : bucket.isEmpty = true ↔ c ≤ max a h.first := by
  obtain ⟨dropped, -, hrep⟩ := hrep
  unfold HotArchiveBucket.isEmpty
  rw [List.isEmpty_iff]
  exact hrep.isEmpty_iff (hotEntryAt_none dropped)

theorem HotRepresents.hashed : bucket.hash = fileHash hasher bucket.entries := by
  obtain ⟨dropped, -, body, -, -, hhash⟩ := hrep
  exact hhash

theorem HotRepresents.getProtocolVersion_eq :
    bucket.getProtocolVersion = (h.headerVersion a c).getD 0 := by
  obtain ⟨dropped, -, body, hbody, hentries, -⟩ := hrep
  unfold HotArchiveBucket.getProtocolVersion
  rw [hentries]
  cases h.headerVersion a c with
  | none =>
    have hlookup : lookup key ⊥ body = none := hbody.lookup_bot
    simp [hlookup]
  | some version => rfl

end

section

omit [LinearOrder I]

theorem filter_hotMetadata_body (hbody : ∀ e ∈ body, key e ≠ ⊥) :
    body.filter (!·.isMetadata) = body := by
  refine List.filter_eq_self.mpr fun e he => ?_
  have hkey := hbody e he
  rw [ne_eq, key_eq_bot_iff] at hkey
  simpa using hkey

theorem filter_hotMetadata_header (version : Option ℕ) (hbody : ∀ e ∈ body, key e ≠ ⊥) :
    ((version.map fun v => metaentry (.ofVersion .hotArchive v)).toList ++
      body).filter (!·.isMetadata) = body := by
  cases version with
  | none => exact filter_hotMetadata_body hbody
  | some version => exact filter_hotMetadata_body hbody

theorem key_mergeHotArchive {keepTombstones : Bool} {new e : HotArchiveBucketEntry I D}
    (hmerged : (.ok (if keepTombstones || !new.isTombstone then some new else none) :
      Except (BucketError H) _) = .ok (some e)) : e.key = new.key := by
  split at hmerged
  · cases hmerged
    rfl
  · cases hmerged

end

/-- Merging the bodies of two intervals in a row, whatever their metadata. -/
theorem mergeHotArchiveEntries_spec {keepTombstones : Bool} {dropOld dropNew : LedgerKey I → Bool}
    (oldVersion newVersion : Option ℕ)
    (holds : Holds key (hotEntryAt dropOld) h.toTimeline a b olds)
    (hnews : Holds key (hotEntryAt dropNew) h.toTimeline b c news) (hab : a ≤ b) (hbc : b ≤ c)
    (hold : ∀ key, dropOld key = true → a = 0) (hnew : ∀ key, dropNew key = true → b = 0)
    (hkeep : keepTombstones = true ∨ a = 0) :
    ∃ merged dropped, mergeHotArchiveEntries (H := H) keepTombstones
        ((oldVersion.map fun v => .metaentry (.ofVersion .hotArchive v)).toList ++ olds)
        ((newVersion.map fun v => .metaentry (.ofVersion .hotArchive v)).toList ++ news) =
          .ok merged ∧
      (∀ key, dropped key = true → a = 0) ∧
      Holds key (hotEntryAt dropped) h.toTimeline a c merged := by
  let dropped : LedgerKey I → Bool := fun key =>
    if keepTombstones then (if (h.net b c key).isNone then dropOld key else dropNew key) else true
  unfold mergeHotArchiveEntries
  rw [filter_hotMetadata_header oldVersion holds.keyed,
    filter_hotMetadata_header newVersion hnews.keyed]
  obtain ⟨merged, hmerge, hmerged⟩ : ∃ merged, mergeSorted (ε := BucketError H)
      key (fun e => keepTombstones || !e.isTombstone)
      (fun _ new => .ok (if keepTombstones || !new.isTombstone then some new else none)) olds news =
        .ok merged ∧
      Holds key (hotEntryAt dropped) h.toTimeline a c merged := by
    refine holds.merge (fun _ _ _ _ => key_mergeHotArchive) hnews fun k => ?_
    rw [Timeline.before_eq hab, Timeline.net_append hab hbc]
    refine mergedAt_hotArchive (fun hdropped => ?_) rfl
    apply Timeline.net_idle
    rw [hnew k hdropped]
    exact Nat.zero_le _
  refine ⟨merged, dropped, hmerge, fun key hdropped => ?_, hmerged⟩
  -- a dropped marker comes from an input that had dropped it, or from the last level
  by_cases hkept : keepTombstones = true
  · simp only [dropped, if_pos hkept] at hdropped
    split at hdropped
    · exact hold key hdropped
    · have hb := hnew key hdropped
      omega
  · exact hkeep.resolve_left hkept

theorem hotRepresents_build (hasher : Hasher (HotArchiveBucketEntry I D) H)
    {dropped : LedgerKey I → Bool}
    (hdropped : ∀ key, dropped key = true → a = 0)
    (hbody : Holds key (hotEntryAt dropped) h.toTimeline a c body)
    {header : List (HotArchiveBucketEntry I D)} (hheader : header =
      ((h.headerVersion a c).map fun v => .metaentry (.ofVersion .hotArchive v)).toList) :
    ∃ bucket, (if (header ++ body).isEmpty then .ok (.empty hasher)
        else HotArchiveBucket.fromEntries hasher (header ++ body)) = .ok bucket ∧
      HotRepresents hasher h bucket a c := by
  have hsorted : Ascending key (header ++ body) := by
    rw [hheader]
    exact ascending_header (fun _ => rfl) hbody
  split
  next hnil =>
    rw [List.isEmpty_iff] at hnil
    exact ⟨_, rfl, dropped, hdropped, body, hbody, by rw [← hheader, hnil]; rfl, rfl⟩
  · exact ⟨_, HotArchiveBucket.fromEntries_of_ascending hsorted, dropped, hdropped, body, hbody,
      by rw [← hheader], rfl⟩

/-- A merge of two intervals in a row, under a protocol that is not too early. -/
theorem mergeHotArchiveBuckets_spec (hup : h.Upgrading n) (hold : HotRepresents hasher h old a b)
    (hnew : HotRepresents hasher h new b c) (hab : a ≤ b) (hbc : b ≤ c) (hc : c ≤ n + 1)
    (keepTombstones : Bool) (hkeep : keepTombstones = true ∨ a = 0) :
    ∃ bucket, HotRepresents hasher h bucket a c ∧ ∀ protocolVersion,
      (h.headerVersion a c).getD 0 ≤ protocolVersion →
        mergeHotArchiveBuckets hasher old new protocolVersion keepTombstones = .ok bucket := by
  have hversion : max old.getProtocolVersion new.getProtocolVersion =
      (h.headerVersion a c).getD 0 := by
    rw [hold.getProtocolVersion_eq, hnew.getProtocolVersion_eq,
      History.headerVersion_max hup hab hbc hc]
  have holdEmpty := hold.isEmpty_iff
  have hnewEmpty := hnew.isEmpty_iff
  obtain ⟨dropOld, hdropOld, olds, holds, holdEntries, -⟩ := hold
  obtain ⟨dropNew, hdropNew, news, hnews, hnewEntries, -⟩ := hnew
  obtain ⟨merged, dropped, hmerge, hdropped, hmerged⟩ := mergeHotArchiveEntries_spec (H := H)
    (h.headerVersion a b) (h.headerVersion b c) holds hnews hab hbc hdropOld hdropNew hkeep
  have hheader : (if 11 ≤ (h.headerVersion a c).getD 0 then
      [(.metaentry (.ofVersion .hotArchive ((h.headerVersion a c).getD 0)) :
        HotArchiveBucketEntry I D)] else []) =
      ((h.headerVersion a c).map fun v => .metaentry (.ofVersion .hotArchive v)).toList := by
    by_cases hbusy : max a h.first < c
    · have hsupported := History.headerVersion_supported hup hc hbusy
      rw [if_pos (by omega), History.headerVersion_busy hbusy]
      rfl
    · rw [History.headerVersion_idle (not_lt.mp hbusy)]
      rfl
  obtain ⟨bucket, hok, hrep⟩ := hotRepresents_build hasher hdropped hmerged hheader
  refine ⟨bucket, hrep, fun protocolVersion hprotocol => ?_⟩
  unfold mergeHotArchiveBuckets
  split
  next hempty =>
    -- then the whole interval is idle, and its bucket is the empty one
    simp only [Bool.and_eq_true, holdEmpty, hnewEmpty] at hempty
    have hidle : c ≤ max a h.first := by omega
    obtain ⟨dropped', hdropped', hrep'⟩ := hrep
    have hsame := hrep'.unique (represents_empty (hotEntryAt_none dropped') hidle)
    cases bucket with
    | mk hash entries sorted =>
      obtain ⟨rfl, rfl⟩ : hash = hasher.zero ∧ entries = [] := hsame
      rfl
  · simp only [hversion]
    rw [if_neg (by simp; omega), holdEntries, hnewEntries, hmerge]
    exact hok

end Bucket

end Henyey.Buckets
