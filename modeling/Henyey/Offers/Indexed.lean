import Henyey.Offers.OfferStore

/-!
# Indexes that agree with the offers

Order books, the offers of an account and asset, and the offers by identifier hold exactly
the stored offers. A record that is put in or taken out keeps that.
-/

namespace Henyey.Offers

open Foundation
open Function

variable {α β : Type} [DecidableEq α] [DecidableEq β]

/-- The records of a store, as its queries see them. -/
abbrev View (α β : Type) : Type := OfferKey α → Option (OfferRecord α β)

/-- Records are under their own keys, and no two have one identifier. -/
structure View.Distinct (view : View α β) : Prop where
  keyed : ∀ {key record}, view key = some record → record.key = key
  unique : ∀ {key key'}, (view key).isSome → (view key').isSome → key.offerId = key'.offerId →
    key = key'

/-- The indexes hold exactly the stored offers, each once. -/
structure OfferStoreData.Indexed (data : OfferStoreData α β) : Prop where
  distinct : View.Distinct data.offers
  sorted : ∀ pair, SortedMap.Sorted OfferDescriptor.rank (data.orderBook pair)
  book : ∀ {pair descriptor key}, (descriptor, key) ∈ data.orderBook pair ↔
    ∃ record, data.offers key = some record ∧ record.entry.pair = pair ∧
      record.entry.descriptor = descriptor
  accounts : ∀ {account asset offerId}, offerId ∈ data.accountAssetIndex (account, asset) ↔
    ∃ record, data.offers { seller := account, offerId := offerId } = some record ∧
      (record.entry.selling = asset ∨ record.entry.buying = asset)
  ids : ∀ {offerId key}, data.byId offerId = some key ↔
    (data.offers key).isSome ∧ key.offerId = offerId

/-- The data with a record and its index entries. -/
def putLocal (data : OfferStoreData α β) (record : OfferRecord α β) : OfferStoreData α β where
  offers := update data.offers record.key (some record)
  orderBook := data.orderBook.addOffer record.entry
  accountAssetIndex := aaIndexInsert data.accountAssetIndex record.entry
  byId := update data.byId record.entry.offerId (some record.key)

theorem OfferDescriptor.offerId_eq_of_rank_eq {a b : OfferDescriptor} (heq : a.rank = b.rank) :
    a.offerId = b.offerId :=
  congrArg (fun rank => (ofLex rank).2) heq

omit [DecidableEq α] [DecidableEq β] in
theorem indexed_empty : (OfferStoreData.empty : OfferStoreData α β).Indexed where
  distinct := ⟨fun h => (nomatch h), fun h => (nomatch h)⟩
  sorted _ := List.Pairwise.nil
  book := by simp [OfferStoreData.empty]
  accounts := by simp [OfferStoreData.empty]
  ids := by simp [OfferStoreData.empty]

variable {index : α × β → Finset Int}

theorem mem_aaIndexInsert {offer : OfferEntry α β} {account : α} {asset : β} {offerId : Int} :
    offerId ∈ aaIndexInsert index offer (account, asset) ↔
      offerId ∈ index (account, asset) ∨ (account = offer.sellerId ∧ offerId = offer.offerId ∧
        (offer.selling = asset ∨ offer.buying = asset)) := by
  unfold aaIndexInsert
  simp only [update_apply, Prod.mk.injEq]
  by_cases haccount : account = offer.sellerId
  · subst haccount
    by_cases hbuying : asset = offer.buying
    · subst hbuying
      by_cases hselling : offer.buying = offer.selling <;> simp [hselling, or_comm]
    · by_cases hselling : asset = offer.selling
      · subst hselling
        simp [hbuying, or_comm]
      · simp [hbuying, hselling, Ne.symm hbuying, Ne.symm hselling]
  · simp [haccount]

theorem mem_aaIndexRemove {offer : OfferEntry α β} {account : α} {asset : β} {offerId : Int} :
    offerId ∈ aaIndexRemove index offer (account, asset) ↔
      offerId ∈ index (account, asset) ∧ ¬ (account = offer.sellerId ∧ offerId = offer.offerId ∧
        (offer.selling = asset ∨ offer.buying = asset)) := by
  unfold aaIndexRemove
  simp only [update_apply, Prod.mk.injEq]
  by_cases haccount : account = offer.sellerId
  · subst haccount
    by_cases hbuying : asset = offer.buying
    · subst hbuying
      by_cases hselling : offer.buying = offer.selling <;> simp [hselling, and_comm]
    · by_cases hselling : asset = offer.selling
      · subst hselling
        simp [hbuying, and_comm]
      · simp [hbuying, hselling]
        intro _ _
        exact ⟨fun h => hselling h.symm, fun h => hbuying h.symm⟩
  · simp [haccount]

namespace OfferStoreData.Indexed

open OfferStore

variable {data : OfferStoreData α β} (h : data.Indexed)
include h

omit [DecidableEq α] [DecidableEq β] in
theorem key_eq_of_rank_eq {key key' : OfferKey α} {record record' : OfferRecord α β}
    (hrecord : data.offers key = some record) (hrecord' : data.offers key' = some record')
    (heq : record.entry.descriptor.rank = record'.entry.descriptor.rank) : key = key' := by
  have hkey := h.distinct.keyed hrecord
  have hkey' := h.distinct.keyed hrecord'
  apply h.distinct.unique (by simp [hrecord]) (by simp [hrecord'])
  rw [← hkey, ← hkey']
  exact OfferDescriptor.offerId_eq_of_rank_eq heq

theorem offers_removeLocal (key : OfferKey α) :
    (removeLocal data key).offers = update data.offers key none := by
  unfold removeLocal
  cases hrecord : data.offers key with
  | none =>
    dsimp only
    rw [← hrecord, update_eq_self]
  | some record => rfl

theorem removeLocal (key : OfferKey α) : (removeLocal data key).Indexed := by
  cases hrecord : data.offers key with
  | none =>
    have hsame : OfferStore.removeLocal data key = data := by
      unfold OfferStore.removeLocal
      rw [hrecord]
    rw [hsame]
    exact h
  | some record =>
    have hkey := h.distinct.keyed hrecord
    have hremoved : OfferStore.removeLocal data key =
        { offers := update data.offers key none
          orderBook := data.orderBook.removeWithData record.entry
          accountAssetIndex := aaIndexRemove data.accountAssetIndex record.entry
          byId := update data.byId record.entry.offerId none } := by
      unfold OfferStore.removeLocal
      rw [hrecord]
    have hother {key' : OfferKey α} {record' : OfferRecord α β} :
        update data.offers key none key' = some record' ↔
          key' ≠ key ∧ data.offers key' = some record' := by
      rw [update_apply]
      by_cases hsame : key' = key <;> simp [hsame]
    have hsome {key' : OfferKey α} : (update data.offers key none key').isSome ↔
        key' ≠ key ∧ (data.offers key').isSome := by
      rw [update_apply]
      by_cases hsame : key' = key <;> simp [hsame]
    rw [hremoved]
    refine ⟨⟨fun hfound => h.distinct.keyed (hother.mp hfound).2,
      fun hfound hfound' => h.distinct.unique (hsome.mp hfound).2 (hsome.mp hfound').2⟩,
      ?_, ?_, ?_, ?_⟩
    · intro pair
      dsimp only
      unfold OfferIndex.removeWithData
      rw [update_apply]
      split
      · next hpair => exact SortedMap.sorted_remove _ _ (h.sorted _)
      · exact h.sorted pair
    · intro pair descriptor key'
      dsimp only
      have hbook : (descriptor, key') ∈ data.orderBook.removeWithData record.entry pair ↔
          (descriptor, key') ∈ data.orderBook pair ∧
            ¬ (pair = record.entry.pair ∧ descriptor.rank = record.entry.descriptor.rank) := by
        unfold OfferIndex.removeWithData
        rw [update_apply]
        split
        next hpair =>
          subst hpair
          rw [SortedMap.mem_remove ranks_cmp]
          simp
        next hpair => simp [hpair]
      rw [hbook, h.book]
      constructor
      · rintro ⟨⟨record', hrecord', hpair, rfl⟩, hdifferent⟩
        refine ⟨record', hother.mpr ⟨?_, hrecord'⟩, hpair, rfl⟩
        rintro rfl
        rw [hrecord] at hrecord'
        injection hrecord' with hrecord'
        subst hrecord'
        exact hdifferent ⟨hpair.symm, rfl⟩
      · rintro ⟨record', hfound, hpair, rfl⟩
        obtain ⟨hne, hrecord'⟩ := hother.mp hfound
        refine ⟨⟨record', hrecord', hpair, rfl⟩, ?_⟩
        rintro ⟨-, hrank⟩
        exact hne (h.key_eq_of_rank_eq hrecord' hrecord hrank)
    · intro account asset offerId
      dsimp only
      rw [mem_aaIndexRemove, h.accounts]
      constructor
      · rintro ⟨⟨record', hrecord', hasset⟩, hdifferent⟩
        refine ⟨record', hother.mpr ⟨?_, hrecord'⟩, hasset⟩
        rintro rfl
        rw [hrecord] at hrecord'
        injection hrecord' with hrecord'
        subst hrecord'
        apply hdifferent
        injection hkey with hseller hid
        exact ⟨hseller.symm, hid.symm, hasset⟩
      · rintro ⟨record', hfound, hasset⟩
        obtain ⟨hne, hrecord'⟩ := hother.mp hfound
        refine ⟨⟨record', hrecord', hasset⟩, ?_⟩
        rintro ⟨rfl, rfl, -⟩
        exact hne hkey
    · intro offerId key'
      dsimp only
      rw [update_apply, hsome]
      have hid : record.entry.offerId = key.offerId := congrArg OfferKey.offerId hkey
      split
      next hsame =>
        constructor
        · intro hnone
          cases hnone
        · rintro ⟨⟨hne, hfound⟩, hid'⟩
          exact absurd (h.distinct.unique hfound (by simp [hrecord])
            (hid'.trans (hsame.trans hid))) hne
      next hdifferent =>
        rw [h.ids]
        constructor
        · rintro ⟨hfound, rfl⟩
          refine ⟨⟨?_, hfound⟩, rfl⟩
          rintro rfl
          exact hdifferent hid.symm
        · rintro ⟨⟨-, hfound⟩, hid'⟩
          exact ⟨hfound, hid'⟩

theorem putLocal {record : OfferRecord α β}
    (hfresh : ∀ key, (data.offers key).isSome → key.offerId ≠ record.entry.offerId) :
    (putLocal data record).Indexed := by
  have hnone : data.offers record.key = none := by
    by_contra hsome
    exact hfresh record.key (Option.isSome_iff_ne_none.mpr hsome) rfl
  have hfound {key : OfferKey α} {record' : OfferRecord α β} :
      update data.offers record.key (some record) key = some record' ↔
        (key = record.key ∧ record = record') ∨ data.offers key = some record' := by
    rw [update_apply]
    by_cases hsame : key = record.key
    · subst hsame
      simp [hnone]
    · simp [hsame]
  have hsome {key : OfferKey α} :
      (update data.offers record.key (some record) key).isSome ↔
        key = record.key ∨ (data.offers key).isSome := by
    rw [update_apply]
    by_cases hsame : key = record.key <;> simp [hsame]
  have hranks {pair : AssetPair β} {entry : OfferDescriptor × OfferKey α}
      (hentry : entry ∈ data.orderBook pair) :
      entry.1.rank ≠ record.entry.descriptor.rank := by
    obtain ⟨record', hrecord', -, hdescriptor⟩ := h.book.mp hentry
    intro heq
    apply hfresh entry.2 (by simp [hrecord'])
    rw [← h.distinct.keyed hrecord']
    rw [← hdescriptor] at heq
    exact OfferDescriptor.offerId_eq_of_rank_eq heq
  unfold Offers.putLocal
  refine ⟨⟨?_, ?_⟩, ?_, ?_, ?_, ?_⟩
  · intro key record' hrecord'
    rcases hfound.mp hrecord' with ⟨rfl, rfl⟩ | hold
    · rfl
    · exact h.distinct.keyed hold
  · intro key key' hkey hkey' hid
    rcases hsome.mp hkey with rfl | hold
    · rcases hsome.mp hkey' with rfl | hold'
      · rfl
      · exact absurd hid.symm (hfresh key' hold')
    · rcases hsome.mp hkey' with rfl | hold'
      · exact absurd hid (hfresh key hold)
      · exact h.distinct.unique hold hold' hid
  · intro pair
    dsimp only
    unfold OfferIndex.addOffer
    rw [update_apply]
    split
    · exact SortedMap.sorted_insert ranks_cmp (h.sorted _) fun _ => hranks
    · exact h.sorted pair
  · intro pair descriptor key
    dsimp only
    have hbook : (descriptor, key) ∈ data.orderBook.addOffer record.entry pair ↔
        (pair = record.entry.pair ∧ descriptor = record.entry.descriptor ∧ key = record.key) ∨
          (descriptor, key) ∈ data.orderBook pair := by
      unfold OfferIndex.addOffer
      rw [update_apply]
      split
      next hpair =>
        subst hpair
        rw [SortedMap.mem_insert ranks_cmp fun _ => hranks, Prod.mk.injEq]
        simp [OfferRecord.key]
      next hpair => simp [hpair]
    rw [hbook, h.book]
    constructor
    · rintro (⟨rfl, rfl, rfl⟩ | ⟨record', hrecord', hpair, hdescriptor⟩)
      · exact ⟨record, hfound.mpr (.inl ⟨rfl, rfl⟩), rfl, rfl⟩
      · exact ⟨record', hfound.mpr (.inr hrecord'), hpair, hdescriptor⟩
    · rintro ⟨record', hrecord', hpair, hdescriptor⟩
      rcases hfound.mp hrecord' with ⟨rfl, rfl⟩ | hold
      · exact .inl ⟨hpair.symm, hdescriptor.symm, rfl⟩
      · exact .inr ⟨record', hold, hpair, hdescriptor⟩
  · intro account asset offerId
    dsimp only
    rw [mem_aaIndexInsert, h.accounts]
    constructor
    · rintro (⟨record', hrecord', hasset⟩ | ⟨rfl, rfl, hasset⟩)
      · exact ⟨record', hfound.mpr (.inr hrecord'), hasset⟩
      · exact ⟨record, hfound.mpr (.inl ⟨rfl, rfl⟩), hasset⟩
    · rintro ⟨record', hrecord', hasset⟩
      rcases hfound.mp hrecord' with ⟨hkey, rfl⟩ | hold
      · injection hkey with hseller hid
        exact .inr ⟨hseller, hid, hasset⟩
      · exact .inl ⟨record', hold, hasset⟩
  · intro offerId key
    dsimp only
    rw [update_apply, hsome]
    split
    next hsame =>
      subst hsame
      constructor
      · intro heq
        injection heq with heq
        subst heq
        exact ⟨.inl rfl, rfl⟩
      · rintro ⟨rfl | hold, hid⟩
        · rfl
        · exact absurd hid (hfresh key hold)
    next hdifferent =>
      rw [h.ids]
      constructor
      · rintro ⟨hold, hid⟩
        exact ⟨.inr hold, hid⟩
      · rintro ⟨rfl | hold, hid⟩
        · exact absurd hid.symm hdifferent
        · exact ⟨hold, hid⟩

omit [DecidableEq β] in
theorem changeMetadata {key : OfferKey α} {change : OfferRecord α β → OfferRecord α β}
    (hchange : ∀ record, (change record).entry = record.entry) :
    OfferStoreData.Indexed
      { data with offers := update data.offers key ((data.offers key).map change) } := by
  have hentry {key' : OfferKey α} {entry : OfferEntry α β} :
      (∃ record, update data.offers key ((data.offers key).map change) key' =
          some record ∧ record.entry = entry) ↔
        ∃ record, data.offers key' = some record ∧ record.entry = entry := by
    rw [update_apply]
    by_cases hsame : key' = key
    · subst hsame
      rw [if_pos rfl]
      cases data.offers key' with
      | none => simp
      | some record => simp [hchange]
    · rw [if_neg hsame]
  have hsome {key' : OfferKey α} :
      (update data.offers key ((data.offers key).map change) key').isSome ↔
        (data.offers key').isSome := by
    rw [update_apply]
    by_cases hsame : key' = key
    · subst hsame
      rw [if_pos rfl, Option.isSome_map]
    · rw [if_neg hsame]
  have hholds {key' : OfferKey α} (P : OfferEntry α β → Prop) :
      (∃ record, update data.offers key ((data.offers key).map change) key' =
          some record ∧ P record.entry) ↔
        ∃ record, data.offers key' = some record ∧ P record.entry := by
    constructor
    · rintro ⟨record, hrecord, hp⟩
      obtain ⟨record', hrecord', hentry'⟩ := hentry.mp ⟨record, hrecord, rfl⟩
      exact ⟨record', hrecord', hentry' ▸ hp⟩
    · rintro ⟨record, hrecord, hp⟩
      obtain ⟨record', hrecord', hentry'⟩ := hentry.mpr ⟨record, hrecord, rfl⟩
      exact ⟨record', hrecord', hentry' ▸ hp⟩
  refine ⟨⟨?_, ?_⟩, h.sorted, ?_, ?_, ?_⟩
  · intro key' record hrecord
    obtain ⟨record', hrecord', hentry'⟩ := hentry.mp ⟨record, hrecord, rfl⟩
    have hkey := h.distinct.keyed hrecord'
    unfold OfferRecord.key at hkey ⊢
    rw [← hentry', hkey]
  · intro key' key'' hkey' hkey''
    exact h.distinct.unique (hsome.mp hkey') (hsome.mp hkey'')
  · intro pair descriptor key'
    rw [h.book]
    exact (hholds fun entry => entry.pair = pair ∧ entry.descriptor = descriptor).symm
  · intro account asset offerId
    rw [h.accounts]
    exact (hholds fun entry => entry.selling = asset ∨ entry.buying = asset).symm
  · intro offerId key'
    rw [h.ids, hsome]

end OfferStoreData.Indexed

end Henyey.Offers
