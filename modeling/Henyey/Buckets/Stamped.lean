import Henyey.Buckets.Alike

/-!
# The metadata of the buckets

Whatever the batches are, a bucket bears the version of its last ledger, if its
protocols only go up. So one can tell from a bucket alone whether it has
received a ledger, and with which protocol to merge it.
-/

namespace Henyey.Buckets

open Foundation Ledger History

variable {I D H : Type} [LinearOrder I]

/-- The metadata of an interval of ledgers. -/
def liveHeader (h : LiveHistory I D) (a c : ℕ) : List (BucketEntry I D) :=
  ((h.headerVersion a c).map fun v => .metaentry (.ofVersion .live v)).toList

/-- A bucket with the metadata of its ledgers, and nothing in it before the first. -/
structure Stamped (hasher : Hasher (BucketEntry I D) H) (h : LiveHistory I D)
    (bucket : Bucket I D H) (a c : ℕ) : Prop where
  body : ∃ body, bucket.entries = liveHeader h a c ++ body ∧ (c ≤ max a h.first → body = [])
  hashed : bucket.hash = fileHash hasher bucket.entries

variable [DecidableEq H] {hasher : Hasher (BucketEntry I D) H} {h : LiveHistory I D}
  {old new bucket : Bucket I D H} {a b c n v w : ℕ}

def StampedPends (hasher : Hasher (BucketEntry I D) H) (h : LiveHistory I D)
    (pending : PendingMerge I D H) (a c : ℕ) : Prop :=
  ∀ bucket, pending.resolve hasher = .ok bucket → Stamped hasher h bucket a c

omit [DecidableEq H] in
theorem stamped_empty (hidle : c ≤ max a h.first) : Stamped hasher h (.empty hasher) a c where
  body := ⟨[], by rw [liveHeader, headerVersion_idle hidle]; rfl, fun _ => rfl⟩
  hashed := rfl

omit [DecidableEq H] in
theorem Stamped.entries_eq_nil_iff (hstamped : Stamped hasher h bucket a c) :
    bucket.entries = [] ↔ c ≤ max a h.first := by
  obtain ⟨body, hentries, hidle⟩ := hstamped.body
  constructor
  · intro hnil
    by_contra hbusy
    rw [liveHeader, headerVersion_busy (not_le.mp hbusy), hnil] at hentries
    cases hentries
  · intro hle
    rw [hentries, hidle hle, liveHeader, headerVersion_idle hle]
    rfl

theorem isEmpty_iff_of_hashed (hzero : hasher.NonZero)
    (hhash : bucket.hash = fileHash hasher bucket.entries) :
    bucket.isEmpty hasher = true ↔ bucket.entries = [] := by
  unfold Bucket.isEmpty
  cases hentries : bucket.entries with
  | nil => simp
  | cons e entries =>
    rw [hentries] at hhash
    have hne := hzero (e :: entries) (List.cons_ne_nil e entries)
    simpa [hhash, fileHash] using hne

theorem Stamped.isEmpty_iff (hzero : hasher.NonZero) (hstamped : Stamped hasher h bucket a c) :
    bucket.isEmpty hasher = true ↔ c ≤ max a h.first :=
  (isEmpty_iff_of_hashed hzero hstamped.hashed).trans hstamped.entries_eq_nil_iff

omit [DecidableEq H] in
theorem Stamped.keyed (hstamped : Stamped hasher h bucket a c) : ∃ body,
    bucket.entries = liveHeader h a c ++ body ∧ (c ≤ max a h.first → body = []) ∧
      ∀ e ∈ body, BucketEntry.key e ≠ ⊥ := by
  obtain ⟨body, hentries, hidle⟩ := hstamped.body
  refine ⟨body, hentries, hidle, fun e he => ?_⟩
  by_cases hbusy : max a h.first < c
  · have hsorted := bucket.sorted
    rw [hentries, liveHeader, headerVersion_busy hbusy] at hsorted
    have hlt := (List.pairwise_cons.mp hsorted).1 e he
    exact (bot_lt_iff_ne_bot.mp (lt_of_le_of_lt bot_le hlt))
  · rw [hidle (not_lt.mp hbusy)] at he
    cases he

omit [LinearOrder I] [DecidableEq H] in
theorem buildOutputMetadata_stamped (hup : h.Upgrading n) (hab : a ≤ b) (hbc : b ≤ c)
    (hc : c ≤ n + 1) :
    buildOutputMetadata (H := H) ((h.headerVersion a b).map (.ofVersion .live))
        ((h.headerVersion b c).map (.ofVersion .live)) v .inputDerived =
      if 0 < v && v < (h.headerVersion a c).getD 0 then
        .error (.merge s!"bucket protocol version {(h.headerVersion a c).getD 0} exceeds max_protocol_version {v}")
      else .ok ((h.headerVersion a c).map (.ofVersion .live)) := by
  have hversion : ∀ v : Option ℕ,
      (v.map (BucketMetadata.ofVersion .live)).elim 0 (·.ledgerVersion) = v.getD 0 := by
    rintro (_ | v) <;> rfl
  unfold buildOutputMetadata
  simp only [hversion, headerVersion_max hup hab hbc hc]
  cases hcap : (0 < v && v < (h.headerVersion a c).getD 0) with
  | true => rfl
  | false =>
    simp only [Bool.false_eq_true, if_false, bind, Except.bind]
    by_cases hbusy : max a h.first < c
    · have hsupported := headerVersion_supported hup hc hbusy
      rw [if_neg (by omega), headerVersion_busy hbusy]
      rfl
    · rw [headerVersion_idle (not_lt.mp hbusy)]
      rfl

variable {policy : DeadEntryPolicy}

section

variable (hzero : hasher.NonZero) (hup : h.Upgrading n)
include hzero hup

section

variable (hold : Stamped hasher h old a b) (hnew : Stamped hasher h new b c)
include hold hnew

theorem mergeBuckets_stamped_iff (hab : a ≤ b) (hbc : b ≤ c) (hc : c ≤ n + 1) :
    mergeBuckets hasher old new { keepDeadEntries := policy, maxProtocolVersion := v } = .ok bucket ↔
      (c ≤ max a h.first ∧ bucket = .empty hasher) ∨
      (max a h.first < c ∧ (0 < v → (h.headerVersion a c).getD 0 ≤ v) ∧ ∃ merged,
        twoPointerMerge (H := H) policy old.entries new.entries = .ok merged ∧
        Bucket.fromSortedEntries hasher (liveHeader h a c ++ merged) = .ok bucket) := by
  obtain ⟨olds, holds, -, hkeyed⟩ := hold.keyed
  obtain ⟨news, hnews, -, hkeyed'⟩ := hnew.keyed
  have hboth : (new.isEmpty hasher && old.isEmpty hasher) = true ↔ c ≤ max a h.first := by
    rw [Bool.and_eq_true, hold.isEmpty_iff hzero, hnew.isEmpty_iff hzero]
    omega
  unfold mergeBuckets
  by_cases hbusy : max a h.first < c
  · rw [if_neg (by rw [hboth]; omega)]
    have hadvance : ∀ {entries body : List (BucketEntry I D)} {a c : ℕ},
        entries = liveHeader h a c ++ body → (∀ e ∈ body, BucketEntry.key e ≠ ⊥) →
        advanceSkipMetadata none entries = ((h.headerVersion a c).map (.ofVersion .live), body) := by
      rintro _ body a c rfl hbody
      exact advanceSkipMetadata_header _ hbody
    have hmerge : twoPointerMerge (H := H) policy olds news =
        twoPointerMerge policy old.entries new.entries := by
      unfold twoPointerMerge
      rw [holds, hnews]
      unfold liveHeader
      rw [header_eq, header_eq, filter_isMetadata_header _ hkeyed, filter_isMetadata_header _ hkeyed',
        filter_isMetadata_body hkeyed, filter_isMetadata_body hkeyed']
    rw [hadvance holds hkeyed, hadvance hnews hkeyed']
    simp only [buildOutputMetadata_stamped (H := H) hup hab hbc hc, hmerge]
    have hheader : (((h.headerVersion a c).map (.ofVersion .live)).map BucketEntry.metaentry).toList =
        liveHeader h a c := (header_eq _).symm
    have hne : ∀ merged : List (BucketEntry I D), (liveHeader h a c ++ merged).isEmpty = false := by
      intro merged
      unfold liveHeader
      rw [headerVersion_busy hbusy]
      rfl
    by_cases hcap : 0 < v → (h.headerVersion a c).getD 0 ≤ v
    · rw [if_neg (by simpa using hcap)]
      cases hmerged : twoPointerMerge (H := H) policy old.entries new.entries with
      | error e =>
        refine ⟨nofun, ?_⟩
        rintro (⟨hle, -⟩ | ⟨-, -, merged, hmerged', -⟩)
        · omega
        · cases hmerged'
      | ok merged =>
        simp only [bind, Except.bind, hheader, hne, Bool.false_eq_true, if_false]
        constructor
        · exact fun hok => .inr ⟨hbusy, hcap, merged, rfl, hok⟩
        · rintro (⟨hle, -⟩ | ⟨-, -, merged', hmerged', hok⟩)
          · omega
          · cases hmerged'
            exact hok
    · rw [if_pos (by simpa using hcap)]
      refine ⟨nofun, ?_⟩
      rintro (⟨hle, -⟩ | ⟨-, hcap', -⟩)
      · omega
      · exact absurd hcap' hcap
  · rw [if_pos (hboth.mpr (not_lt.mp hbusy))]
    constructor
    · intro hok
      cases hok
      exact .inl ⟨not_lt.mp hbusy, rfl⟩
    · rintro (⟨-, rfl⟩ | ⟨hlt, -⟩)
      · rfl
      · exact absurd hlt hbusy

theorem Stamped.merge (hab : a ≤ b) (hbc : b ≤ c) (hc : c ≤ n + 1)
    (hok : mergeBuckets hasher old new { keepDeadEntries := policy, maxProtocolVersion := v } =
      .ok bucket) : Stamped hasher h bucket a c := by
  obtain ⟨hidle, rfl⟩ | ⟨hbusy, -, merged, -, hbuild⟩ :=
    (mergeBuckets_stamped_iff hzero hup hold hnew hab hbc hc).mp hok
  · exact stamped_empty hidle
  · obtain ⟨hhash, hentries, -⟩ := ofSorted_ok hbuild
    refine ⟨⟨merged, hentries, fun hle => absurd hbusy (not_lt.mpr hle)⟩, ?_⟩
    rw [hhash, hentries]
    unfold fileHash
    rw [if_neg]
    unfold liveHeader
    rw [headerVersion_busy hbusy]
    exact Bool.false_ne_true

theorem Stamped.merge_cap (hab : a ≤ b) (hbc : b ≤ c) (hc : c ≤ n + 1)
    (hcap : (h.headerVersion a c).getD 0 ≤ w)
    (hok : mergeBuckets hasher old new { keepDeadEntries := policy, maxProtocolVersion := v } =
      .ok bucket) :
    mergeBuckets hasher old new { keepDeadEntries := policy, maxProtocolVersion := w } =
      .ok bucket := by
  rw [mergeBuckets_stamped_iff hzero hup hold hnew hab hbc hc] at hok ⊢
  obtain hidle | ⟨hbusy, -, hmerged⟩ := hok
  · exact .inl hidle
  · exact .inr ⟨hbusy, fun _ => hcap, hmerged⟩

end

/-- Stamped buckets stay so when levels spill. -/
theorem stamped_coverage (diskFull : ℕ → Option ℕ) :
    Coverage (liveOps hasher (h.version n) diskFull) (Stamped hasher h) (StampedPends hasher h)
      h.first n where
  empty a c hidle := stamped_empty (by omega)
  released l bucket a c hstamped := by
    change Stamped hasher h (if l = 0 then bucket.clearInMemoryEntries else bucket) a c
    split
    · exact ⟨hstamped.body, hstamped.hashed⟩
    · exact hstamped
  start l x y a b c hl hx hy hab hbc hc hlast := by
    refine ⟨_, rfl, fun bucket hok => ?_⟩
    unfold PendingMerge.resolve AsyncMergeHandle.result AsyncMergeHandle.startMerge at hok
    cases hfull : diskFull (l + 1) with
    | some errno =>
      rw [hfull] at hok
      cases hok
    | none =>
      rw [hfull] at hok
      exact hx.merge hzero hup hy hab hbc (by omega) hok
  resolve pending bucket a c hpends hok := hpends bucket hok

end

end Henyey.Buckets
