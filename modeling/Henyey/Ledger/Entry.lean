import Henyey.Foundation.Word
import Mathlib.Order.Fin.Basic
import Mathlib.Data.List.Lex
import Mathlib.Data.Sum.Order

/-!
# Ledger entries and their keys

Entries carry the fields that the modelled code reads. Account ids, hashes and
names are identities of one type, and what no modelled function looks into is
the body of an entry.
-/

namespace Henyey.Ledger

/-- Ledger sequence numbers and protocol versions are machine words. -/
abbrev U32 : Type := Fin 4294967296

inductive TrustLineAsset (I : Type) where
  | native
  | credit (code issuer : I)
  | poolShare (liquidityPoolId : I)
deriving DecidableEq

inductive ContractDataDurability where
  | temporary
  | persistent
deriving DecidableEq

inductive LedgerKey (I : Type) where
  | account (accountId : I)
  | trustline (accountId : I) (asset : TrustLineAsset I)
  | offer (sellerId : I) (offerId : Int)
  | data (accountId dataName : I)
  | claimableBalance (balanceId : I)
  | liquidityPool (liquidityPoolId : I)
  | contractData (contract key : I) (durability : ContractDataDurability)
  | contractCode (hash : I)
  | configSetting (configSettingId : I)
  | ttl (keyHash : I)
deriving DecidableEq

inductive LedgerEntryData (I D : Type) where
  | account (accountId : I) (body : D)
  | trustline (accountId : I) (asset : TrustLineAsset I) (body : D)
  | offer (sellerId : I) (offerId : Int) (body : D)
  | data (accountId dataName : I) (body : D)
  | claimableBalance (balanceId : I) (body : D)
  | liquidityPool (liquidityPoolId : I) (body : D)
  | contractData (contract key : I) (durability : ContractDataDurability) (body : D)
  | contractCode (hash : I) (body : D)
  | configSetting (configSettingId : I) (body : D)
  | ttl (keyHash : I) (liveUntilLedgerSeq : U32)
deriving DecidableEq

structure LedgerEntry (I D : Type) where
  lastModifiedLedgerSeq : U32
  data : LedgerEntryData I D
  sponsoringId : Option I
deriving DecidableEq

variable {I D : Type}

def entryToKey (entry : LedgerEntry I D) : LedgerKey I :=
  match entry.data with
  | .account accountId _ => .account accountId
  | .trustline accountId asset _ => .trustline accountId asset
  | .offer sellerId offerId _ => .offer sellerId offerId
  | .data accountId dataName _ => .data accountId dataName
  | .claimableBalance balanceId _ => .claimableBalance balanceId
  | .liquidityPool liquidityPoolId _ => .liquidityPool liquidityPoolId
  | .contractData contract key durability _ => .contractData contract key durability
  | .contractCode hash _ => .contractCode hash
  | .configSetting configSettingId _ => .configSetting configSettingId
  | .ttl keyHash _ => .ttl keyHash

def LedgerKey.isTtl : LedgerKey I → Bool
  | .ttl _ => true
  | _ => false

def LedgerEntryData.isConfigSetting : LedgerEntryData I D → Bool
  | .configSetting _ _ => true
  | _ => false

/-- The last ledger that a TTL entry grants. -/
def LedgerEntry.liveUntil (entry : LedgerEntry I D) : U32 :=
  match entry.data with
  | .ttl _ liveUntilLedgerSeq => liveUntilLedgerSeq
  | _ => 0

def LedgerEntry.stamp (ledgerSeq : U32) (entry : LedgerEntry I D) : LedgerEntry I D :=
  { entry with lastModifiedLedgerSeq := ledgerSeq }

@[simp]
theorem entryToKey_stamp (ledgerSeq : U32) (entry : LedgerEntry I D) :
    entryToKey (entry.stamp ledgerSeq) = entryToKey entry := rfl

theorem stamp_eq_self {ledgerSeq : U32} {entry : LedgerEntry I D}
    (hstamped : entry.lastModifiedLedgerSeq = ledgerSeq) : entry.stamp ledgerSeq = entry := by
  subst hstamped
  rfl

theorem liveUntil_of_isTtl {entry : LedgerEntry I D} (httl : (entryToKey entry).isTtl = true) :
    ∃ keyHash liveUntil, entry.data = .ttl keyHash liveUntil := by
  unfold entryToKey at httl
  split at httl <;> simp_all [LedgerKey.isTtl]

/-- What a ledger holds. -/
abbrev LedgerMap (I D : Type) : Type := LedgerKey I → Option (LedgerEntry I D)

end Henyey.Ledger

/-!
## The order of ledger keys

Keys compare by their kind, then field by field in the order of declaration.
-/

namespace Henyey.Ledger

variable {I : Type}

/-- What is compared of a field: a number or an identity. -/
abbrev KeyField (I : Type) : Type := ℤ ⊕ₗ I

def number (n : ℤ) : KeyField I := toLex (.inl n)

def identity (i : I) : KeyField I := toLex (.inr i)

@[simp]
theorem number_inj {m n : ℤ} : (number m : KeyField I) = number n ↔ m = n := by
  simp [number]

@[simp]
theorem identity_inj {i j : I} : identity i = identity j ↔ i = j := by
  simp [identity]

def TrustLineAsset.fields : TrustLineAsset I → List (KeyField I)
  | native => [number 0]
  | credit code issuer => [number 1, identity code, identity issuer]
  | poolShare liquidityPoolId => [number 3, identity liquidityPoolId]

def ContractDataDurability.discriminant : ContractDataDurability → ℤ
  | temporary => 0
  | persistent => 1

/-- The kind of a key and its fields, in the order of comparison. -/
def LedgerKey.fields : LedgerKey I → List (KeyField I)
  | account accountId => [number 0, identity accountId]
  | trustline accountId asset => [number 1, identity accountId] ++ asset.fields
  | offer sellerId offerId => [number 2, identity sellerId, number offerId]
  | data accountId dataName => [number 3, identity accountId, identity dataName]
  | claimableBalance balanceId => [number 4, identity balanceId]
  | liquidityPool liquidityPoolId => [number 5, identity liquidityPoolId]
  | contractData contract key durability =>
    [number 6, identity contract, identity key, number durability.discriminant]
  | contractCode hash => [number 7, identity hash]
  | configSetting configSettingId => [number 8, identity configSettingId]
  | ttl keyHash => [number 9, identity keyHash]

theorem TrustLineAsset.fields_injective {a b : TrustLineAsset I} (h : a.fields = b.fields) :
    a = b := by
  cases a <;> cases b <;> simp_all [fields]

theorem LedgerKey.fields_injective : Function.Injective ((LedgerKey.fields : LedgerKey I → _)) := by
  intro a b h
  cases a with
  | trustline accountId asset =>
    cases b with
    | trustline accountId' asset' =>
      obtain ⟨hid, hasset⟩ : accountId = accountId' ∧ asset.fields = asset'.fields := by
        simpa [fields] using h
      rw [hid, TrustLineAsset.fields_injective hasset]
    | _ => simp [fields] at h
  | contractData contract key durability =>
    cases b with
    | contractData contract' key' durability' =>
      cases durability <;> cases durability' <;>
        simp_all [fields, ContractDataDurability.discriminant]
    | _ => simp [fields] at h
  | _ => cases b <;> simp_all [fields]

/-- The order of keys in a bucket. -/
instance [LinearOrder I] : LinearOrder (LedgerKey I) where
  __ := LinearOrder.lift' LedgerKey.fields LedgerKey.fields_injective
  toDecidableEq := inferInstance
  compare a b := compareOfLessAndEq a b
  compare_eq_compareOfLessAndEq _ _ := rfl

end Henyey.Ledger
