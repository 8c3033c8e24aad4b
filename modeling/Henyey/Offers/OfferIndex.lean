import Mathlib.Data.Prod.Lex
import Henyey.Foundation.SortedMap
import Henyey.Dex.Amounts

/-!
# Order books

Each pair of assets has its offers in the order of their prices, as floating-point
numbers, and then of their identifiers.
-/

namespace Henyey.Offers

open Foundation

/-- The price of an offer that can be on the book. -/
abbrev OfferPrice : Type := { price : Dex.Price // price.Positive }

structure OfferEntry (α β : Type) where
  sellerId : α
  offerId : Int
  selling : β
  buying : β
  amount : Int
  price : OfferPrice
  flags : Nat

structure OfferDescriptor where
  price : OfferPrice
  offerId : Int

structure OfferKey (α : Type) where
  seller : α
  offerId : Int
deriving DecidableEq

structure AssetPair (β : Type) where
  buying : β
  selling : β
deriving DecidableEq

/-- The quotient of the terms as a double, in units that make all of them whole: 86 bits
more than the quotient and one that tells whether a rest is left round like the exact
quotient. -/
def priceAsF64 (price : OfferPrice) : Nat :=
  let n := price.1.n.toNat * 2 ^ 86
  let d := price.1.d.toNat
  roundToEven 53 (2 * (n / d) + if n % d = 0 then 0 else 1)

/-- Equal prices leave the order to the identifiers. -/
def OfferDescriptor.cmp (a b : OfferDescriptor) : Ordering :=
  (compare (priceAsF64 a.price) (priceAsF64 b.price)).then (compare a.offerId b.offerId)

/-- The place of a descriptor in the order of a book. -/
def OfferDescriptor.rank (descriptor : OfferDescriptor) : Nat ×ₗ Int :=
  toLex (priceAsF64 descriptor.price, descriptor.offerId)

theorem compare_toLex (p q : Nat) (x y : Int) :
    compare (toLex (p, x)) (toLex (q, y)) = (compare p q).then (compare x y) := by
  rcases lt_trichotomy p q with hlt | rfl | hgt
  · have hlex : toLex (p, x) < toLex (q, y) := Prod.Lex.toLex_lt_toLex.mpr (.inl hlt)
    rw [compare_lt_iff_lt.mpr hlt, compare_lt_iff_lt.mpr hlex]
    rfl
  · rcases lt_trichotomy x y with hlt | rfl | hgt
    · have hlex : toLex (p, x) < toLex (p, y) := Prod.Lex.toLex_lt_toLex.mpr (.inr ⟨rfl, hlt⟩)
      rw [compare_eq_iff_eq.mpr rfl, compare_lt_iff_lt.mpr hlt, compare_lt_iff_lt.mpr hlex]
      rfl
    · rw [compare_eq_iff_eq.mpr rfl, compare_eq_iff_eq.mpr rfl, compare_eq_iff_eq.mpr rfl]
      rfl
    · have hlex : toLex (p, y) < toLex (p, x) := Prod.Lex.toLex_lt_toLex.mpr (.inr ⟨rfl, hgt⟩)
      rw [compare_eq_iff_eq.mpr rfl, compare_gt_iff_gt.mpr hgt, compare_gt_iff_gt.mpr hlex]
      rfl
  · have hlex : toLex (q, y) < toLex (p, x) := Prod.Lex.toLex_lt_toLex.mpr (.inl hgt)
    rw [compare_gt_iff_gt.mpr hgt, compare_gt_iff_gt.mpr hlex]
    rfl

theorem ranks_cmp : SortedMap.Ranks OfferDescriptor.cmp OfferDescriptor.rank := by
  intro a b
  exact (compare_toLex (priceAsF64 a.price) (priceAsF64 b.price) a.offerId b.offerId).symm

section Entries

variable {α β : Type}

def OfferEntry.descriptor (offer : OfferEntry α β) : OfferDescriptor :=
  { price := offer.price, offerId := offer.offerId }

def OfferEntry.key (offer : OfferEntry α β) : OfferKey α :=
  { seller := offer.sellerId, offerId := offer.offerId }

def OfferEntry.pair (offer : OfferEntry α β) : AssetPair β :=
  { buying := offer.buying, selling := offer.selling }

end Entries

abbrev OrderBook (α : Type) : Type := List (OfferDescriptor × OfferKey α)

/-- The order books of all pairs. A pair without offers has an empty one. -/
abbrev OfferIndex (α β : Type) : Type := AssetPair β → OrderBook α

namespace OfferIndex

variable {α β : Type} [DecidableEq β]

def addOffer (index : OfferIndex α β) (offer : OfferEntry α β) : OfferIndex α β :=
  Function.update index offer.pair
    (SortedMap.insert OfferDescriptor.cmp offer.descriptor offer.key (index offer.pair))

def removeWithData (index : OfferIndex α β) (offer : OfferEntry α β) : OfferIndex α β :=
  Function.update index offer.pair
    (SortedMap.remove OfferDescriptor.cmp offer.descriptor (index offer.pair))

def updateOffer (index : OfferIndex α β) (old new : OfferEntry α β) : OfferIndex α β :=
  addOffer (removeWithData index old) new

omit [DecidableEq β] in
/-- The keys of a book, the cheapest first. -/
def offersForPair (index : OfferIndex α β) (buying selling : β) : List (OfferKey α) :=
  (index { buying := buying, selling := selling }).map Prod.snd

omit [DecidableEq β] in
def bestOfferKey (index : OfferIndex α β) (buying selling : β) : Option (OfferKey α) :=
  (index { buying := buying, selling := selling }).head?.map Prod.snd

end OfferIndex

end Henyey.Offers
