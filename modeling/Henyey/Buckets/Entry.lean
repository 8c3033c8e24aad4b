import Henyey.Foundation.SortedMap
import Henyey.Ledger.Entry
import Mathlib.Data.List.Chain

/-!
# Buckets

A bucket is a sorted list of entries and its hash. Metadata has no key and goes
first. Hashes and the hash function are parameters.
-/

namespace Henyey.Buckets

open Foundation Ledger

instance {I : Type} [LinearOrder I] : LawfulBEq (LedgerKey I) :=
  inferInstance

inductive BucketListType where
  | live
  | hotArchive
deriving DecidableEq

inductive BucketMetadataExt where
  | v0
  | v1 (bucketListType : BucketListType)
deriving DecidableEq

structure BucketMetadata where
  ledgerVersion : ℕ
  ext : BucketMetadataExt
deriving DecidableEq

def BucketMetadata.ofVersion (bucketListType : BucketListType) (version : ℕ) : BucketMetadata where
  ledgerVersion := version
  ext := if 23 ≤ version then .v1 bucketListType else .v0

inductive BucketError (H : Type) where
  | merge (message : String)
  | corruption (message : String)
  | serialization (message : String)
  | hashMismatch (expected actual : H)
  | transientIo (errno : ℕ)
  | panicked (message : String)
deriving DecidableEq

def BucketError.isTransientIo {H : Type} : BucketError H → Bool
  | transientIo _ => true
  | _ => false

inductive LedgerEntryType where
  | account
  | trustline
  | offer
  | data
  | claimableBalance
  | liquidityPool
  | contractData
  | contractCode
  | configSetting
  | ttl
deriving DecidableEq

def ledgerKeyType {I : Type} : LedgerKey I → LedgerEntryType
  | .account _ => .account
  | .trustline _ _ => .trustline
  | .offer _ _ => .offer
  | .data _ _ => .data
  | .claimableBalance _ => .claimableBalance
  | .liquidityPool _ => .liquidityPool
  | .contractData _ _ _ => .contractData
  | .contractCode _ => .contractCode
  | .configSetting _ => .configSetting
  | .ttl _ => .ttl

def ledgerEntryDataType {I D : Type} : LedgerEntryData I D → LedgerEntryType
  | .account _ _ => .account
  | .trustline _ _ _ => .trustline
  | .offer _ _ _ => .offer
  | .data _ _ _ => .data
  | .claimableBalance _ _ => .claimableBalance
  | .liquidityPool _ _ => .liquidityPool
  | .contractData _ _ _ _ => .contractData
  | .contractCode _ _ => .contractCode
  | .configSetting _ _ => .configSetting
  | .ttl _ _ => .ttl

theorem ledgerKeyType_entryToKey {I D : Type} (entry : LedgerEntry I D) :
    ledgerKeyType (entryToKey entry) = ledgerEntryDataType entry.data := by
  unfold entryToKey ledgerEntryDataType
  cases entry.data <;> rfl

/-- Hashes: of a file of entries, and of several hashes in a row. -/
structure Hasher (E H : Type) where
  zero : H
  file : List E → H
  concat : List H → H

inductive BucketEntry (I D : Type) where
  | metaentry (metadata : BucketMetadata)
  | liveentry (entry : LedgerEntry I D)
  | initentry (entry : LedgerEntry I D)
  | deadentry (key : LedgerKey I)
deriving DecidableEq

variable {I D H : Type}

namespace BucketEntry

def key : BucketEntry I D → WithBot (LedgerKey I)
  | metaentry _ => ⊥
  | liveentry entry => entryToKey entry
  | initentry entry => entryToKey entry
  | deadentry key => key

def isMetadata : BucketEntry I D → Bool
  | metaentry _ => true
  | _ => false

def isDead : BucketEntry I D → Bool
  | deadentry _ => true
  | _ => false

def entryType : BucketEntry I D → Option LedgerEntryType
  | metaentry _ => none
  | liveentry entry => some (ledgerEntryDataType entry.data)
  | initentry entry => some (ledgerEntryDataType entry.data)
  | deadentry key => some (ledgerKeyType key)

def asLedgerEntry : BucketEntry I D → Option (LedgerEntry I D)
  | liveentry entry => some entry
  | initentry entry => some entry
  | _ => none

theorem key_eq_bot_iff {e : BucketEntry I D} : e.key = ⊥ ↔ e.isMetadata = true := by
  cases e <;> simp [key, isMetadata]

theorem key_of_asLedgerEntry {e : BucketEntry I D} {entry : LedgerEntry I D}
    (hentry : e.asLedgerEntry = some entry) : e.key = entryToKey entry := by
  cases e <;> simp_all [asLedgerEntry, key]

end BucketEntry

/-! ### Sorted entries -/

section Sorted

variable {E κ : Type} [LinearOrder κ] {key : E → WithBot κ}

def notSorted : BucketError H :=
  .merge "bucket entries not strictly sorted: duplicate or out-of-order key detected"

/-- Check each entry against the next. -/
def assertSortedNoDuplicates (key : E → WithBot κ) : List E → Except (BucketError H) Unit
  | [] => .ok ()
  | [_] => .ok ()
  | e :: e' :: entries =>
    if key e < key e' then assertSortedNoDuplicates key (e' :: entries) else .error notSorted

theorem assertSortedNoDuplicates_iff {entries : List E} :
    assertSortedNoDuplicates (H := H) key entries = .ok () ↔ Ascending key entries := by
  have hchain : assertSortedNoDuplicates (H := H) key entries = .ok () ↔
      entries.IsChain fun a b => key a < key b := by
    induction entries with
    | nil => simp [assertSortedNoDuplicates]
    | cons e entries ih =>
      cases entries with
      | nil => simp [assertSortedNoDuplicates]
      | cons e' entries =>
        unfold assertSortedNoDuplicates
        split
        next hlt => simp [hlt, ih]
        next hlt => simp [hlt, notSorted]
  rw [hchain]
  have : IsTrans E fun a b => key a < key b := ⟨fun _ _ _ => lt_trans⟩
  exact List.isChain_iff_pairwise

/-- What a stream of entries has shown so far. -/
structure StreamingSortedValidator (κ : Type) where
  prevKey : Option κ := none
  seenKeyed : Bool := false
  seenMetadata : Bool := false

/-- Take the next key of a stream, or metadata. -/
def StreamingSortedValidator.validateKey (v : StreamingSortedValidator κ) :
    WithBot κ → Except (BucketError H) (StreamingSortedValidator κ)
  | some key =>
    if v.prevKey.any fun prev => key ≤ prev then
      .error (.corruption "entries not strictly sorted: duplicate or out-of-order key")
    else .ok { v with prevKey := some key, seenKeyed := true }
  | none =>
    if v.seenKeyed then .error (.corruption "metadata entry found after keyed entries")
    else if v.seenMetadata then .error (.corruption "duplicate metadata entry")
    else .ok { v with seenMetadata := true }

namespace StreamingSortedValidator

def validateAll (v : StreamingSortedValidator κ) :
    List (WithBot κ) → Except (BucketError H) (StreamingSortedValidator κ)
  | [] => .ok v
  | key :: keys => do
    let v ← v.validateKey key
    v.validateAll keys

/-- What a validator still accepts. -/
def Allows (v : StreamingSortedValidator κ) (key : WithBot κ) : Prop :=
  (∀ prev ∈ v.prevKey, (prev : WithBot κ) < key) ∧ (v.seenMetadata = true → key ≠ ⊥)

variable {v : StreamingSortedValidator κ}

theorem validateKey_spec (key : WithBot κ) (hseen : v.seenKeyed = v.prevKey.isSome) :
    (v.Allows key → ∃ v', v.validateKey (H := H) key = .ok v') ∧
      ∀ v', v.validateKey (H := H) key = .ok v' → v.Allows key ∧
        v'.seenKeyed = v'.prevKey.isSome ∧ ∀ k, v'.Allows k ↔ v.Allows k ∧ key < k := by
  cases key with
  | bot =>
    have hbot : v.Allows ⊥ ↔ v.prevKey = none ∧ v.seenMetadata = false := by
      cases hprev : v.prevKey <;> simp [Allows, hprev]
    have heq : v.validateKey (H := H) ⊥ =
        if v.seenKeyed then .error (.corruption "metadata entry found after keyed entries")
        else if v.seenMetadata then .error (.corruption "duplicate metadata entry")
        else .ok { v with seenMetadata := true } := rfl
    rw [heq, hbot]
    refine ⟨fun ⟨hprev, hmeta⟩ => ⟨_, by rw [hseen, hprev, hmeta]; rfl⟩, fun v' hv' => ?_⟩
    rw [hseen] at hv'
    cases hprev : v.prevKey with
    | some prev => simp [hprev] at hv'
    | none =>
      cases hmeta : v.seenMetadata with
      | true => simp [hprev, hmeta] at hv'
      | false =>
        simp only [hprev, hmeta, Option.isSome_none, Bool.false_eq_true, if_false,
          Except.ok.injEq] at hv'
        subst hv'
        refine ⟨⟨rfl, rfl⟩, rfl, fun k => ?_⟩
        simp [Allows, hprev, hmeta, bot_lt_iff_ne_bot]
  | coe key =>
    have hkey : v.Allows key ↔ ∀ prev ∈ v.prevKey, prev < key := by
      simp [Allows]
    have heq : v.validateKey (H := H) (key : WithBot κ) =
        if v.prevKey.any fun prev => key ≤ prev then
          .error (.corruption "entries not strictly sorted: duplicate or out-of-order key")
        else .ok { v with prevKey := some key, seenKeyed := true } := rfl
    rw [heq, hkey]
    cases hprev : v.prevKey with
    | none =>
      refine ⟨fun _ => ⟨_, rfl⟩, fun v' hv' => ?_⟩
      cases hv'
      refine ⟨by simp, rfl, fun k => ?_⟩
      cases k with
      | bot => simp [Allows, hprev]
      | coe k => simp [Allows, hprev]
    | some prev =>
      by_cases hlt : prev < key
      · have hany : (some prev).any (fun prev => decide (key ≤ prev)) = false := by
          simpa using hlt
        rw [hany]
        refine ⟨fun _ => ⟨_, rfl⟩, fun v' hv' => ?_⟩
        cases hv'
        refine ⟨by simpa using hlt, rfl, fun k => ?_⟩
        cases k with
        | bot => simp [Allows, hprev]
        | coe k =>
          simp only [Allows, hprev, Option.mem_some_iff, forall_eq', WithBot.coe_lt_coe,
            ne_eq, WithBot.coe_ne_bot, not_false_eq_true, implies_true, and_true]
          exact ⟨fun h => ⟨hlt.trans h, h⟩, fun h => h.2⟩
      · have hany : (some prev).any (fun prev => decide (key ≤ prev)) = true := by
          simpa using hlt
        rw [hany]
        exact ⟨fun h => absurd (h prev rfl) hlt, fun v' hv' => by cases hv'⟩

theorem validateAll_iff (hseen : v.seenKeyed = v.prevKey.isSome)
    (entries : List E) : (∃ v', v.validateAll (H := H) (entries.map key) = .ok v') ↔
      Ascending key entries ∧ ∀ e ∈ entries, v.Allows (key e) := by
  induction entries generalizing v with
  | nil => simp [validateAll, Ascending]
  | cons e entries ih =>
    obtain ⟨haccepts, hlater⟩ := validateKey_spec (H := H) (key e) hseen
    rw [List.map_cons]
    unfold validateAll
    cases hstep : v.validateKey (H := H) (key e) with
    | error err =>
      refine ⟨fun ⟨_, h⟩ => (by cases h), fun ⟨_, hall⟩ => ?_⟩
      obtain ⟨v', hv'⟩ := haccepts (hall e List.mem_cons_self)
      cases hstep.symm.trans hv'
    | ok v' =>
      obtain ⟨hallowed, hseen', hiff⟩ := hlater v' hstep
      refine (ih hseen').trans ?_
      unfold Ascending
      rw [List.pairwise_cons]
      constructor
      · rintro ⟨hsorted, hall⟩
        refine ⟨⟨fun e' he' => ((hiff _).mp (hall e' he')).2, hsorted⟩, fun e' he' => ?_⟩
        rcases List.mem_cons.mp he' with rfl | he'
        · exact hallowed
        · exact ((hiff _).mp (hall e' he')).1
      · rintro ⟨⟨hlt, hsorted⟩, hall⟩
        exact ⟨hsorted, fun e' he' =>
          (hiff _).mpr ⟨hall e' (List.mem_cons_of_mem _ he'), hlt e' he'⟩⟩

theorem validateAll_new_iff (entries : List E) :
    (∃ v', (StreamingSortedValidator.validateAll (H := H) {} (entries.map key)) = .ok v') ↔
      Ascending key entries := by
  rw [validateAll_iff rfl]
  simp [Allows]

end StreamingSortedValidator

end Sorted

/-! ### The bucket -/

/-- A bucket keeps its entries sorted. The level 0 merge needs them in memory. -/
structure Bucket (I D H : Type) [LinearOrder I] where
  hash : H
  entries : List (BucketEntry I D)
  hasInMemoryEntries : Bool
  sorted : Ascending BucketEntry.key entries

namespace Bucket

variable [LinearOrder I]

def empty (hasher : Hasher (BucketEntry I D) H) : Bucket I D H where
  hash := hasher.zero
  entries := []
  hasInMemoryEntries := true
  sorted := .nil

/-- A bucket of entries that pass the check of their order. -/
def ofSorted (hash : H) (hasInMemoryEntries : Bool) (entries : List (BucketEntry I D)) :
    Except (BucketError H) (Bucket I D H) :=
  match hcheck : assertSortedNoDuplicates (H := H) BucketEntry.key entries with
  | .error e => .error e
  | .ok () =>
    .ok { hash, entries, hasInMemoryEntries, sorted := assertSortedNoDuplicates_iff.mp hcheck }

def fromSortedEntries (hasher : Hasher (BucketEntry I D) H) (entries : List (BucketEntry I D)) :
    Except (BucketError H) (Bucket I D H) :=
  ofSorted (hasher.file entries) false entries

def fromSortedEntriesWithInMemory (hasher : Hasher (BucketEntry I D) H)
    (entries : List (BucketEntry I D)) : Except (BucketError H) (Bucket I D H) :=
  ofSorted (hasher.file entries) true entries

/-- A shell for an immediate merge: its hash is not computed. -/
def freshInMemoryOnly (hasher : Hasher (BucketEntry I D) H) (entries : List (BucketEntry I D)) :
    Except (BucketError H) (Bucket I D H) :=
  ofSorted hasher.zero true entries

/-- A bucket whose hash is known. -/
def fromParts (hash : H) (entries : List (BucketEntry I D)) :
    Except (BucketError H) (Bucket I D H) :=
  match hcheck : StreamingSortedValidator.validateAll (H := H) {} (entries.map BucketEntry.key) with
  | .error e => .error e
  | .ok _ =>
    .ok { hash, entries, hasInMemoryEntries := true
          sorted := (StreamingSortedValidator.validateAll_new_iff entries).mp ⟨_, hcheck⟩ }

def isEmpty [DecidableEq H] (hasher : Hasher (BucketEntry I D) H) (bucket : Bucket I D H) : Bool :=
  bucket.hash = hasher.zero || bucket.entries.isEmpty

def clearInMemoryEntries (bucket : Bucket I D H) : Bucket I D H :=
  { bucket with hasInMemoryEntries := false }

def get (bucket : Bucket I D H) (key : LedgerKey I) : Option (BucketEntry I D) :=
  lookup BucketEntry.key key bucket.entries

/-- The version in the metadata; an empty bucket has none. -/
def protocolVersion [DecidableEq H] (hasher : Hasher (BucketEntry I D) H) (bucket : Bucket I D H) :
    Option ℕ :=
  if bucket.isEmpty hasher then none
  else bucket.entries.findSome? fun
    | .metaentry metadata => some metadata.ledgerVersion
    | _ => none

/-- The empty bucket of a hash that stands for one. -/
def forSentinelHash [DecidableEq H] (hasher : Hasher (BucketEntry I D) H) (hash : H) :
    Option (Bucket I D H) :=
  if hash = hasher.zero then some (empty hasher)
  else if hash = hasher.file [] then
    some { hash := hasher.file [], entries := [], hasInMemoryEntries := false, sorted := .nil }
  else none

variable {hash : H} {inMemory : Bool} {entries : List (BucketEntry I D)}

theorem ofSorted_of_ascending (hsorted : Ascending BucketEntry.key entries) :
    ofSorted hash inMemory entries = .ok ⟨hash, entries, inMemory, hsorted⟩ := by
  have hcheck := (assertSortedNoDuplicates_iff (H := H)).mpr hsorted
  unfold ofSorted
  split
  next h => cases hcheck.symm.trans h
  · rfl

theorem fromParts_of_ascending (hsorted : Ascending BucketEntry.key entries) :
    fromParts hash entries = .ok ⟨hash, entries, true, hsorted⟩ := by
  obtain ⟨v, hcheck⟩ := (StreamingSortedValidator.validateAll_new_iff (H := H) entries).mpr hsorted
  unfold fromParts
  split
  next h => cases hcheck.symm.trans h
  · rfl

end Bucket

end Henyey.Buckets
