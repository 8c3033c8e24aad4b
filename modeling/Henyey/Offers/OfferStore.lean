import Mathlib.Data.Finset.Basic
import Henyey.Offers.OfferIndex

/-!
# The offer store

Offers with their metadata, the order books, the offers of an account and asset, and the
offers by identifier. A store owns its offers, or lays changes over an immutable base.
-/

namespace Henyey.Offers

open Foundation
open Function

variable {α β : Type} [DecidableEq α] [DecidableEq β]

structure OfferRecord (α β : Type) where
  entry : OfferEntry α β
  lastModified : Nat
  sponsor : Option α
  hasExt : Bool

def OfferRecord.key (record : OfferRecord α β) : OfferKey α := record.entry.key

structure OfferStoreData (α β : Type) where
  offers : OfferKey α → Option (OfferRecord α β)
  orderBook : OfferIndex α β
  /-- The identifiers of the offers of an account that sell or buy an asset. -/
  accountAssetIndex : α × β → Finset Int
  byId : Int → Option (OfferKey α)

def OfferStoreData.empty : OfferStoreData α β where
  offers _ := none
  orderBook _ := []
  accountAssetIndex _ := ∅
  byId _ := none

/-- A store that owns its offers has no base. -/
structure OfferStore (α β : Type) where
  data : OfferStoreData α β
  base : Option (OfferStoreData α β)
  /-- The keys of the base that the overlay hides. -/
  shadowed : Finset (OfferKey α)

def aaIndexInsert (index : α × β → Finset Int) (offer : OfferEntry α β) : α × β → Finset Int :=
  let index := update index (offer.sellerId, offer.selling)
    (insert offer.offerId (index (offer.sellerId, offer.selling)))
  update index (offer.sellerId, offer.buying)
    (insert offer.offerId (index (offer.sellerId, offer.buying)))

def aaIndexRemove (index : α × β → Finset Int) (offer : OfferEntry α β) : α × β → Finset Int :=
  let index := update index (offer.sellerId, offer.selling)
    ((index (offer.sellerId, offer.selling)).erase offer.offerId)
  update index (offer.sellerId, offer.buying)
    ((index (offer.sellerId, offer.buying)).erase offer.offerId)

namespace OfferStore

/-- The owned store of offers read from the bucket list, under their identifiers. -/
def fromBucketListEntries (entries : List (Int × OfferRecord α β)) : OfferStore α β where
  data := entries.foldl (fun data entry =>
    { offers := update data.offers entry.2.key (some entry.2)
      orderBook := data.orderBook.addOffer entry.2.entry
      accountAssetIndex := aaIndexInsert data.accountAssetIndex entry.2.entry
      byId := update data.byId entry.1 (some entry.2.key) }) .empty
  base := none
  shadowed := ∅

/-- An overlay cannot be frozen. -/
def intoImmutableBase (store : OfferStore α β) : Option (OfferStoreData α β) :=
  if store.base.isNone then some store.data else none

def withImmutableBase (base : OfferStoreData α β) : OfferStore α β where
  data := .empty
  base := some base
  shadowed := ∅

/-- What the base holds under a key that is not hidden. -/
def unshadowed (store : OfferStore α β) (key : OfferKey α) : Option (OfferRecord α β) :=
  if key ∈ store.shadowed then none else store.base.bind fun base => base.offers key

def get (store : OfferStore α β) (key : OfferKey α) : Option (OfferRecord α β) :=
  (store.data.offers key).or (store.unshadowed key)

def getById (store : OfferStore α β) (offerId : Int) : Option (OfferRecord α β) :=
  ((store.data.byId offerId).bind store.data.offers).or
    ((store.base.bind fun base => base.byId offerId).bind store.unshadowed)

/-- The data without the index entries of what is stored under a key. -/
def unindex (data : OfferStoreData α β) (key : OfferKey α) : OfferStoreData α β :=
  match data.offers key with
  | some old => { data with
      accountAssetIndex := aaIndexRemove data.accountAssetIndex old.entry
      orderBook := data.orderBook.removeWithData old.entry }
  | none => data

/-- Insert a record, after the index entries of the one under its key are removed. -/
def insertRecord (store : OfferStore α β) (record : OfferRecord α β) : OfferStore α β :=
  let key := record.key
  let data := unindex store.data key
  { store with
    shadowed := if store.base.isSome then insert key store.shadowed else store.shadowed
    data :=
      { offers := update store.data.offers key (some record)
        orderBook := data.orderBook.addOffer record.entry
        accountAssetIndex := aaIndexInsert data.accountAssetIndex record.entry
        byId := update store.data.byId record.entry.offerId (some key) } }

def updateOfferEntry (store : OfferStore α β) (entry : OfferEntry α β) : OfferStore α β :=
  if store.base.isNone then
    match store.data.offers entry.key with
    | some record =>
      { store with
        data := { store.data with
          accountAssetIndex :=
            aaIndexInsert (aaIndexRemove store.data.accountAssetIndex record.entry) entry
          orderBook := store.data.orderBook.updateOffer record.entry entry
          offers := update store.data.offers entry.key
            (some { record with entry := entry }) } }
    | none =>
      -- the index is written although nothing is stored under the key
      { store with
        data := { store.data with
          accountAssetIndex := aaIndexInsert store.data.accountAssetIndex entry } }
  else
    match store.get entry.key with
    | some record => store.insertRecord { record with entry := entry }
    | none => store

/-- The data without a record and its index entries. -/
def removeLocal (data : OfferStoreData α β) (key : OfferKey α) : OfferStoreData α β :=
  match data.offers key with
  | some record =>
    { offers := update data.offers key none
      orderBook := data.orderBook.removeWithData record.entry
      accountAssetIndex := aaIndexRemove data.accountAssetIndex record.entry
      byId := update data.byId record.entry.offerId none }
  | none => data

def remove (store : OfferStore α β) (key : OfferKey α) :
    OfferStore α β × Option (OfferRecord α β) :=
  if store.base.isNone then
    ({ store with data := removeLocal store.data key }, store.data.offers key)
  else
    match store.get key with
    | some record =>
      ({ store with
        data := removeLocal store.data key
        shadowed := insert key store.shadowed }, some record)
    | none => (store, none)

/-- Change the metadata of a record. An overlay copies the record of the base first. -/
def metadataMut (store : OfferStore α β) (key : OfferKey α)
    (change : OfferRecord α β → OfferRecord α β) : OfferStore α β :=
  let store := if store.base.isNone then store
    else match store.data.offers key with
      | some _ => store
      | none => match store.get key with
        | some record => store.insertRecord record
        | none => store
  { store with
    data := { store.data with
      offers := update store.data.offers key ((store.data.offers key).map change) } }

def setMetadata (store : OfferStore α β) (key : OfferKey α) (lastModified : Nat)
    (sponsor : Option α) (hasExt : Bool) : OfferStore α β :=
  store.metadataMut key fun record =>
    { record with lastModified := lastModified, sponsor := sponsor, hasExt := hasExt }

def setLastModified (store : OfferStore α β) (key : OfferKey α) (lastModified : Nat) :
    OfferStore α β :=
  store.metadataMut key fun record => { record with lastModified := lastModified }

def setSponsorship (store : OfferStore α β) (key : OfferKey α) (sponsor : Option α)
    (hasExt : Bool) : OfferStore α β :=
  store.metadataMut key fun record => { record with sponsor := sponsor, hasExt := hasExt }

def takeSponsorship (store : OfferStore α β) (key : OfferKey α) : OfferStore α β :=
  store.metadataMut key fun record => { record with sponsor := none }

def setHasExt (store : OfferStore α β) (key : OfferKey α) (hasExt : Bool) : OfferStore α β :=
  store.metadataMut key fun record => { record with hasExt := hasExt }

/-! ### Queries -/

def entriesForPair (data : OfferStoreData α β) (buying selling : β) : List (OfferEntry α β) :=
  (data.orderBook.offersForPair buying selling).filterMap fun key =>
    (data.offers key).map OfferRecord.entry

/-- The entries of a book of the base that are not hidden. -/
def baseEntriesForPair (store : OfferStore α β) (buying selling : β) : List (OfferEntry α β) :=
  match store.base with
  | none => []
  | some base =>
    ((base.orderBook.offersForPair buying selling).filter (· ∉ store.shadowed)).filterMap
      fun key => (base.offers key).map OfferRecord.entry

def bestOffer (store : OfferStore α β) (buying selling : β) : Option (OfferEntry α β) :=
  if store.base.isNone then
    ((store.data.orderBook.bestOfferKey buying selling).bind store.data.offers).map
      OfferRecord.entry
  else
    let local_ := (entriesForPair store.data buying selling).head?
    -- the first key that is not hidden, and its record
    let base := store.base.bind fun base =>
      (((base.orderBook.offersForPair buying selling).find? (· ∉ store.shadowed)).bind
        base.offers).map OfferRecord.entry
    match local_, base with
    | some local_, some base =>
      if OfferDescriptor.cmp local_.descriptor base.descriptor ≠ .gt then some local_
      else some base
    | some local_, none => some local_
    | none, base => base

def offersForAssetPair (store : OfferStore α β) (buying selling : β) : List (OfferEntry α β) :=
  if store.base.isNone then entriesForPair store.data buying selling
  else
    (store.baseEntriesForPair buying selling ++
      entriesForPair store.data buying selling).insertionSort
        fun offer offer' => OfferDescriptor.cmp offer.descriptor offer'.descriptor ≠ .gt

/-- The offers of an account that sell or buy an asset, in no particular order. -/
def getOffersByAccountAndAsset (store : OfferStore α β) (accountId : α) (asset : β) :
    Multiset (OfferEntry α β) :=
  (store.data.accountAssetIndex (accountId, asset)).val.filterMap (fun offerId =>
      (store.data.offers { seller := accountId, offerId := offerId }).map OfferRecord.entry) +
    match store.base with
    | none => 0
    | some base =>
      (base.accountAssetIndex (accountId, asset)).val.filterMap fun offerId =>
        (store.unshadowed { seller := accountId, offerId := offerId }).map OfferRecord.entry

end OfferStore

end Henyey.Offers
