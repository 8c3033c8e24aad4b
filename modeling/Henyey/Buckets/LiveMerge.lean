import Henyey.Buckets.Contents
import Henyey.Buckets.Merge

/-!
# Merges of live buckets

What an interval leaves under a key is told by the state before it: an entry is
init if there was none, and a deletion leaves a tombstone if there was one.
Merging the buckets of two intervals in a row gives the bucket of both.
-/

namespace Henyey.Buckets

open Foundation Ledger BucketEntry

variable {I D H : Type}

/-- The entry that an interval leaves under a key. -/
def liveEntryAt (key : LedgerKey I) :
    Option (LedgerEntry I D) → Option (Option (LedgerEntry I D)) → Option (BucketEntry I D)
  | _, none => none
  | none, some none => none
  | some _, some none => some (.deadentry key)
  | none, some (some entry) => some (.initentry entry)
  | some _, some (some entry) => some (.liveentry entry)

theorem liveEntryAt_none (key : LedgerKey I) (before : Option (LedgerEntry I D)) :
    liveEntryAt key before none = none := by
  cases before <;> rfl

theorem mergedAt_mergeEntries {policy : DeadEntryPolicy} {before : Option (LedgerEntry I D)}
    {key : LedgerKey I} {older newer : Option (Option (LedgerEntry I D))}
    (hpolicy : policy = .keep ∨ before = none) :
    mergedAt (shouldKeepEntry policy) (mergeEntries (H := H) policy)
        (liveEntryAt key before older) (liveEntryAt key (older.getD before) newer) =
      .ok (liveEntryAt key before (newer.or older)) := by
  have hkeep : before ≠ none → policy.shouldKeep = true := by
    rintro hsome
    rcases hpolicy with rfl | hnone
    · rfl
    · exact absurd hnone hsome
  cases before with
  | none =>
    cases older with
    | none =>
      rcases newer with _ | _ | entry <;> simp [liveEntryAt, mergedAt, shouldKeepEntry]
    | some older =>
      cases older <;> rcases newer with _ | _ | entry <;>
        simp [liveEntryAt, mergedAt, shouldKeepEntry, mergeEntries]
  | some before =>
    have hkeep := hkeep (by simp)
    rcases older with _ | _ | older <;> rcases newer with _ | _ | entry <;>
      simp [liveEntryAt, mergedAt, shouldKeepEntry, mergeEntries, hkeep]

theorem key_mergeEntries {policy : DeadEntryPolicy} {old new e : BucketEntry I D}
    (hmerged : mergeEntries (H := H) policy old new = .ok (some e)) : e.key = new.key := by
  cases old <;> cases new <;> simp only [mergeEntries, Except.ok.injEq, reduceCtorEq] at hmerged
  all_goals first
    | (split at hmerged <;> cases hmerged; rfl)
    | (cases hmerged; rfl)

section Bucket

variable [LinearOrder I] [DecidableEq H]

abbrev LiveHistory (I D : Type) : Type := History (LedgerKey I) (LedgerEntry I D)

/-- The live bucket of an interval of ledgers. -/
abbrev LiveRepresents (hasher : Hasher (BucketEntry I D) H) (h : LiveHistory I D)
    (bucket : Bucket I D H) (a c : ℕ) : Prop :=
  Represents key (fun v => .metaentry (.ofVersion .live v)) hasher liveEntryAt h
    bucket.hash bucket.entries a c

variable {hasher : Hasher (BucketEntry I D) H} {h : LiveHistory I D}
  {old new bucket : Bucket I D H} {a b c n : ℕ} {body olds news : List (BucketEntry I D)}

/-- A file with entries does not have the zero hash. -/
def Hasher.NonZero {E : Type} (hasher : Hasher E H) : Prop :=
  ∀ entries, entries ≠ [] → hasher.file entries ≠ hasher.zero

section

omit [LinearOrder I]

theorem filter_isMetadata_body (hbody : ∀ e ∈ body, key e ≠ ⊥) :
    body.filter (!·.isMetadata) = body := by
  refine List.filter_eq_self.mpr fun e he => ?_
  have hkey := hbody e he
  rw [ne_eq, key_eq_bot_iff] at hkey
  simpa using hkey

theorem advanceSkipMetadata_body (found : Option BucketMetadata)
    (hbody : ∀ e ∈ body, key e ≠ ⊥) : advanceSkipMetadata found body = (found, body) := by
  cases body with
  | nil => rfl
  | cons e body =>
    cases e with
    | metaentry metadata => exact absurd rfl (hbody _ List.mem_cons_self)
    | _ => rfl

theorem advanceSkipMetadata_header (version : Option ℕ) (hbody : ∀ e ∈ body, key e ≠ ⊥) :
    advanceSkipMetadata none
        ((version.map fun v => .metaentry (.ofVersion .live v)).toList ++ body) =
      (version.map (.ofVersion .live), body) := by
  cases version with
  | none => exact advanceSkipMetadata_body none hbody
  | some version => exact advanceSkipMetadata_body _ hbody

theorem filter_isMetadata_header (version : Option BucketMetadata) (hbody : ∀ e ∈ body, key e ≠ ⊥) :
    ((version.map metaentry).toList ++ body).filter (!·.isMetadata) = body := by
  cases version with
  | none => exact filter_isMetadata_body hbody
  | some version => exact filter_isMetadata_body hbody

theorem header_eq (version : Option ℕ) :
    (version.map fun v => (metaentry (.ofVersion .live v) : BucketEntry I D)).toList =
      ((version.map (.ofVersion .live)).map .metaentry).toList := by
  cases version <;> rfl

end

omit [DecidableEq H] in
theorem twoPointerMerge_spec {policy : DeadEntryPolicy} (oldMeta newMeta : Option BucketMetadata)
    (holds : Holds key liveEntryAt h.toTimeline a b olds)
    (hnews : Holds key liveEntryAt h.toTimeline b c news) (hab : a ≤ b) (hbc : b ≤ c)
    (hpolicy : policy = .keep ∨ a = 0) :
    ∃ merged, twoPointerMerge (H := H) policy ((oldMeta.map .metaentry).toList ++ olds)
        ((newMeta.map .metaentry).toList ++ news) = .ok merged ∧
      Holds key liveEntryAt h.toTimeline a c merged := by
  unfold twoPointerMerge
  rw [filter_isMetadata_header oldMeta holds.keyed, filter_isMetadata_header newMeta hnews.keyed]
  refine holds.merge (fun _ _ _ _ => key_mergeEntries) hnews fun k => ?_
  rw [Timeline.before_eq hab, Timeline.net_append hab hbc]
  apply mergedAt_mergeEntries
  rcases hpolicy with hkeep | rfl
  · exact .inl hkeep
  · exact .inr rfl

theorem isEmpty_iff (hzero : hasher.NonZero) (hrep : LiveRepresents hasher h bucket a c) :
    bucket.isEmpty hasher = true ↔ bucket.entries = [] := by
  obtain ⟨body, -, -, hhash⟩ := hrep
  unfold Bucket.isEmpty
  cases hentries : bucket.entries with
  | nil => simp
  | cons e entries =>
    rw [hentries] at hhash
    have hne := hzero (e :: entries) (List.cons_ne_nil e entries)
    simpa [hhash, fileHash] using hne

theorem LiveRepresents.isEmpty_iff (hzero : hasher.NonZero)
    (hrep : LiveRepresents hasher h bucket a c) :
    bucket.isEmpty hasher = true ↔ c ≤ max a h.first :=
  (Buckets.isEmpty_iff hzero hrep).trans (Represents.isEmpty_iff liveEntryAt_none hrep)

omit [DecidableEq H] in
theorem liveRepresents_build (hbody : Holds key liveEntryAt h.toTimeline a c body) (inMemory : Bool)
    {build : List (BucketEntry I D) → Except (BucketError H) (Bucket I D H)}
    (hbuild : ∀ entries, entries ≠ [] → (hsorted : Ascending key entries) →
      build entries = .ok ⟨hasher.file entries, entries, inMemory, hsorted⟩)
    {header : List (BucketEntry I D)}
    (hheader : header = ((h.headerVersion a c).map fun v => .metaentry (.ofVersion .live v)).toList) :
    ∃ bucket, (if (header ++ body).isEmpty then .ok (.empty hasher) else build (header ++ body)) =
      .ok bucket ∧ LiveRepresents hasher h bucket a c ∧
        (inMemory = true → bucket.hasInMemoryEntries = true) := by
  have hsorted : Ascending key (header ++ body) := by
    rw [hheader]
    exact ascending_header (fun _ => rfl) hbody
  split
  next hnil =>
    rw [List.isEmpty_iff] at hnil
    exact ⟨_, rfl, ⟨body, hbody, by rw [← hheader, hnil]; rfl, rfl⟩, fun _ => rfl⟩
  next hnil =>
    rw [List.isEmpty_iff] at hnil
    refine ⟨_, hbuild _ hnil hsorted, ⟨body, hbody, by rw [← hheader], ?_⟩, fun h => h⟩
    change hasher.file _ = fileHash hasher (header ++ body)
    unfold fileHash
    rw [if_neg (by rwa [List.isEmpty_iff])]

omit [LinearOrder I] [DecidableEq H] in
/-- The metadata of a merge bears the version of its last ledger. -/
theorem buildOutputMetadata_derived (hup : h.Upgrading n) (hab : a ≤ b) (hbc : b ≤ c)
    (hc : c ≤ n + 1) :
    buildOutputMetadata (H := H) ((h.headerVersion a b).map (.ofVersion .live))
        ((h.headerVersion b c).map (.ofVersion .live)) (h.version n) .inputDerived =
      .ok ((h.headerVersion a c).map (.ofVersion .live)) := by
  have hversion : ∀ v : Option ℕ,
      (v.map (BucketMetadata.ofVersion .live)).elim 0 (·.ledgerVersion) = v.getD 0 := by
    rintro (_ | v) <;> rfl
  have hle := History.headerVersion_le (a := a) hup hc
  unfold buildOutputMetadata
  simp only [hversion, History.headerVersion_max hup hab hbc hc]
  have hcap : (decide (0 < h.version n) &&
      decide (h.version n < (h.headerVersion a c).getD 0)) = false := by
    simpa using fun _ => hle
  rw [hcap]
  by_cases hbusy : max a h.first < c
  · have hsupported := History.headerVersion_supported hup hc hbusy
    simp only [Bool.false_eq_true, if_false, bind, Except.bind]
    rw [if_neg (by omega), History.headerVersion_busy hbusy]
    rfl
  · rw [History.headerVersion_idle (not_lt.mp hbusy)]
    rfl

omit [DecidableEq H] in
theorem fromSortedEntries_build (entries : List (BucketEntry I D))
    (hsorted : Ascending key entries) :
    Bucket.fromSortedEntries hasher entries = .ok ⟨hasher.file entries, entries, false, hsorted⟩ :=
  Bucket.ofSorted_of_ascending hsorted

omit [DecidableEq H] in
theorem fromParts_build (entries : List (BucketEntry I D)) (hsorted : Ascending key entries) :
    Bucket.fromParts (hasher.file entries) entries =
      .ok ⟨hasher.file entries, entries, true, hsorted⟩ :=
  Bucket.fromParts_of_ascending hsorted

/-- A merge of two intervals in a row, started when both are over. -/
theorem mergeBuckets_spec (hzero : hasher.NonZero) (hup : h.Upgrading n)
    (hold : LiveRepresents hasher h old a b) (hnew : LiveRepresents hasher h new b c) (hab : a ≤ b)
    (hbc : b ≤ c) (hc : c ≤ n + 1) {policy : DeadEntryPolicy} (hpolicy : policy = .keep ∨ a = 0) :
    ∃ bucket, mergeBuckets hasher old new
        { keepDeadEntries := policy, maxProtocolVersion := h.version n } = .ok bucket ∧
      LiveRepresents hasher h bucket a c := by
  unfold mergeBuckets
  split
  next hempty =>
    rw [Bool.and_eq_true, hold.isEmpty_iff hzero, hnew.isEmpty_iff hzero] at hempty
    exact ⟨_, rfl, represents_empty liveEntryAt_none (by omega)⟩
  · obtain ⟨olds, holds, holdEntries, -⟩ := hold
    obtain ⟨news, hnews, hnewEntries, -⟩ := hnew
    obtain ⟨merged, hmerge, hmerged⟩ : ∃ merged, twoPointerMerge (H := H) policy olds news =
        .ok merged ∧ Holds key liveEntryAt h.toTimeline a c merged :=
      twoPointerMerge_spec none none holds hnews hab hbc hpolicy
    rw [holdEntries, hnewEntries, advanceSkipMetadata_header _ holds.keyed,
      advanceSkipMetadata_header _ hnews.keyed]
    simp only [buildOutputMetadata_derived (H := H) hup hab hbc hc, hmerge, bind, Except.bind]
    obtain ⟨bucket, hok, hrep, -⟩ := liveRepresents_build hmerged false
      (fun entries _ => fromSortedEntries_build entries)
      (header_eq (h.headerVersion a c)).symm
    exact ⟨bucket, hok, hrep⟩

omit [LinearOrder I] in
/-- The metadata of a merge into level 0. -/
theorem headerVersion_ledger (hfirst : h.first ≤ n) (ha : a ≤ n) :
    h.headerVersion a (n + 1) = some (h.version n) :=
  History.headerVersion_busy (by omega)

omit [DecidableEq H] in
theorem mergeInMemory_spec (hup : h.Upgrading n) (hfirst : h.first ≤ n)
    (hold : LiveRepresents hasher h old a n) {metadata : BucketMetadata}
    (hnews : Holds key liveEntryAt h.toTimeline n (n + 1) news)
    (hnew : new.entries = .metaentry metadata :: news) (ha : a ≤ n) :
    ∃ bucket, mergeInMemory hasher old new (h.version n) = .ok bucket ∧
      LiveRepresents hasher h bucket a (n + 1) ∧ bucket.hasInMemoryEntries = true := by
  obtain ⟨olds, holds, holdEntries, -⟩ := hold
  have hsupported := hup.supported n hfirst le_rfl
  obtain ⟨merged, hmerge, hmerged⟩ : ∃ merged, twoPointerMerge (H := H) .keep
      old.entries new.entries = .ok merged ∧
        Holds key liveEntryAt h.toTimeline a (n + 1) merged := by
    rw [holdEntries, hnew, header_eq]
    exact twoPointerMerge_spec _ (some metadata) holds hnews ha (Nat.le_succ n) (.inl rfl)
  obtain ⟨bucket, hok, hrep, hmemory⟩ := liveRepresents_build hmerged true
    (fun entries _ => fromParts_build entries) rfl
  refine ⟨bucket, ?_, hrep, hmemory rfl⟩
  rw [headerVersion_ledger hfirst ha] at hok
  unfold mergeInMemory
  rw [hmerge, if_neg (by omega)]
  exact hok

theorem mergeBuckets_current (hzero : hasher.NonZero) (hup : h.Upgrading n) (hfirst : h.first ≤ n)
    (hold : LiveRepresents hasher h old a n) (hne : old.entries ≠ []) {metadata : BucketMetadata}
    (hnews : Holds key liveEntryAt h.toTimeline n (n + 1) news)
    (hnew : new.entries = .metaentry metadata :: news) (ha : a ≤ n) :
    ∃ bucket, mergeBuckets hasher old new
        { keepDeadEntries := .keep, maxProtocolVersion := h.version n,
          metadataPolicy := .currentProtocol } = .ok bucket ∧
      LiveRepresents hasher h bucket a (n + 1) := by
  have hsupported := hup.supported n hfirst le_rfl
  have hfull := (not_congr (isEmpty_iff hzero hold)).mpr hne
  obtain ⟨olds, holds, holdEntries, -⟩ := hold
  obtain ⟨merged, hmerge, hmerged⟩ : ∃ merged, twoPointerMerge (H := H) .keep olds news =
      .ok merged ∧ Holds key liveEntryAt h.toTimeline a (n + 1) merged :=
    twoPointerMerge_spec none none holds hnews ha (Nat.le_succ n) (.inl rfl)
  obtain ⟨bucket, hok, hrep, -⟩ := liveRepresents_build hmerged false
    (fun entries _ => fromSortedEntries_build entries) rfl
  refine ⟨bucket, ?_, hrep⟩
  rw [headerVersion_ledger hfirst ha] at hok
  unfold mergeBuckets
  rw [if_neg (by simp [hfull]), holdEntries, hnew, advanceSkipMetadata_header _ holds.keyed,
    show advanceSkipMetadata none (metaentry metadata :: news) = (some metadata, news)
      from advanceSkipMetadata_body _ hnews.keyed]
  simp only [buildOutputMetadata, bind, Except.bind, hmerge]
  rw [if_neg (by omega)]
  exact hok

end Bucket

end Henyey.Buckets
