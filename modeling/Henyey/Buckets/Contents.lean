import Henyey.Foundation.Timeline
import Henyey.Buckets.Entry

/-!
# What a bucket is to contain

Which entries a bucket holds is a function of the interval of ledgers it covers:
metadata with the version of the last one, and what the interval leaves under
each key. Its hash follows.
-/

namespace Henyey.Buckets

open Foundation

/-- What each ledger writes, and its protocol. -/
structure History (κ V : Type) extends Timeline κ V where
  version : ℕ → ℕ

namespace History

variable {κ V : Type} {h : History κ V} {a b c n : ℕ}

/-- The version of a bucket, unless it covers no ledger. -/
def headerVersion (h : History κ V) (a c : ℕ) : Option ℕ :=
  if max a h.first < c then some (h.version (c - 1)) else none

theorem headerVersion_idle (hidle : c ≤ max a h.first) : h.headerVersion a c = none :=
  if_neg (not_lt.mpr hidle)

theorem headerVersion_busy (hbusy : max a h.first < c) :
    h.headerVersion a c = some (h.version (c - 1)) :=
  if_pos hbusy

/-- Protocols only go up until a ledger, support metadata and know no shadows. -/
structure Upgrading (h : History κ V) (n : ℕ) : Prop where
  mono : ∀ m m', h.first ≤ m → m ≤ m' → m' ≤ n → h.version m ≤ h.version m'
  supported : ∀ m, h.first ≤ m → m ≤ n → 12 ≤ h.version m

section

variable (hup : h.Upgrading n)
include hup

theorem Upgrading.of_le {m : ℕ} (hle : m ≤ n) : h.Upgrading m where
  mono := fun i j hi hij hj => hup.mono i j hi hij (hj.trans hle)
  supported := fun i hi hm => hup.supported i hi (hm.trans hle)

/-- The version of two intervals together is the greater one. -/
theorem headerVersion_max (hab : a ≤ b) (hbc : b ≤ c) (hc : c ≤ n + 1) :
    max ((h.headerVersion a b).getD 0) ((h.headerVersion b c).getD 0) =
      (h.headerVersion a c).getD 0 := by
  by_cases hnew : max b h.first < c
  · rw [headerVersion_busy hnew, headerVersion_busy (show max a h.first < c by omega)]
    by_cases hold : max a h.first < b
    · rw [headerVersion_busy hold]
      exact max_eq_right (hup.mono _ _ (by omega) (by omega) (by omega))
    · rw [headerVersion_idle (not_lt.mp hold)]
      exact max_eq_right (Nat.zero_le _)
  · rw [headerVersion_idle (not_lt.mp hnew)]
    by_cases hold : max a h.first < b
    · have hsame : b = c := by omega
      subst hsame
      exact max_eq_left (Nat.zero_le _)
    · rw [headerVersion_idle (not_lt.mp hold), headerVersion_idle (by omega)]
      rfl

theorem headerVersion_le (hc : c ≤ n + 1) : (h.headerVersion a c).getD 0 ≤ h.version n := by
  unfold headerVersion
  split
  next hbusy => exact hup.mono _ _ (by omega) (by omega) le_rfl
  · exact Nat.zero_le _

theorem headerVersion_supported (hc : c ≤ n + 1)
    (hbusy : max a h.first < c) : 12 ≤ (h.headerVersion a c).getD 0 := by
  rw [headerVersion_busy hbusy]
  exact hup.supported _ (by omega) (by omega)

end

end History

section Represents

variable {E κ V H : Type} [LinearOrder κ]

/-- The hash of a file; an empty one has none. -/
def fileHash (hasher : Hasher E H) (entries : List E) : H :=
  if entries.isEmpty then hasher.zero else hasher.file entries

def Represents (key : E → WithBot κ) (metadata : ℕ → E) (hasher : Hasher E H)
    (f : κ → Option V → Option (Option V) → Option E) (h : History κ V) (hash : H)
    (entries : List E) (a c : ℕ) : Prop :=
  ∃ body, Holds key f h.toTimeline a c body ∧
    entries = ((h.headerVersion a c).map metadata).toList ++ body ∧ hash = fileHash hasher entries

variable {key : E → WithBot κ} {metadata : ℕ → E} {hasher : Hasher E H}
  {f : κ → Option V → Option (Option V) → Option E} {h : History κ V}
  {hash hash' : H} {entries entries' : List E} {a c : ℕ}

theorem represents_empty (hf : ∀ k before, f k before none = none) (hidle : c ≤ max a h.first) :
    Represents key metadata hasher f h hasher.zero [] a c :=
  ⟨[], holds_idle hf hidle, by rw [History.headerVersion_idle hidle]; rfl, rfl⟩

/-- An interval has one bucket. -/
theorem Represents.unique (hrep : Represents key metadata hasher f h hash entries a c)
    (hrep' : Represents key metadata hasher f h hash' entries' a c) :
    hash = hash' ∧ entries = entries' := by
  obtain ⟨body, hbody, hentries, hhash⟩ := hrep
  obtain ⟨body', hbody', hentries', hhash'⟩ := hrep'
  have hsame : entries = entries' := by
    rw [hentries, hentries', hbody.unique hbody']
  exact ⟨by rw [hhash, hhash', hsame], hsame⟩

theorem ascending_header {body : List E} {version : Option ℕ}
    (hmetadata : ∀ v, key (metadata v) = ⊥)
    (hbody : Holds key f h.toTimeline a c body) :
    Ascending key ((version.map metadata).toList ++ body) := by
  cases version with
  | none => exact hbody.ascending
  | some version =>
    refine List.pairwise_cons.mpr ⟨fun e he => ?_, hbody.ascending⟩
    rw [hmetadata]
    exact bot_lt_iff_ne_bot.mpr (hbody.keyed e he)

/-- A bucket is empty if it covers no ledger. -/
theorem Represents.isEmpty_iff (hf : ∀ k before, f k before none = none)
    (hrep : Represents key metadata hasher f h hash entries a c) :
    entries = [] ↔ c ≤ max a h.first := by
  constructor
  · intro hnil
    obtain ⟨body, -, hentries, -⟩ := hrep
    by_contra hbusy
    rw [History.headerVersion_busy (not_le.mp hbusy), hnil] at hentries
    cases hentries
  · intro hidle
    exact (hrep.unique (represents_empty hf hidle)).2

end Represents

end Henyey.Buckets
