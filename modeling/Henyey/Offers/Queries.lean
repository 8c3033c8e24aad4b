import Henyey.Offers.Views

/-!
# The answers of a store

In a sound store every query is answered by the view: the offer of an identifier, the
offers of a pair in the order of the book, the best of them, and the offers of an account
and asset.
-/

namespace Henyey.Offers

open Foundation List

variable {α β : Type} [DecidableEq α] [DecidableEq β]

/-- The order in which offers are listed. -/
abbrev NotAfter (offer offer' : OfferEntry α β) : Prop :=
  OfferDescriptor.cmp offer.descriptor offer'.descriptor ≠ .gt

omit [DecidableEq α] [DecidableEq β] in
theorem notAfter_iff {offer offer' : OfferEntry α β} :
    NotAfter offer offer' ↔ offer.descriptor.rank ≤ offer'.descriptor.rank := by
  unfold NotAfter
  rw [ranks_cmp]
  exact compare_le_iff_le

instance : IsTrans (OfferEntry α β) NotAfter where
  trans a b c hab hbc := notAfter_iff.mpr ((notAfter_iff.mp hab).trans (notAfter_iff.mp hbc))

instance : Std.Total (NotAfter (α := α) (β := β)) where
  total a b := (le_total a.descriptor.rank b.descriptor.rank).imp notAfter_iff.mpr
    notAfter_iff.mpr

/-- The list holds the offers of a pair, in order and each once. -/
structure Lists (view : View α β) (buying selling : β) (offers : List (OfferEntry α β)) : Prop where
  nodup : offers.Nodup
  sorted : offers.Pairwise NotAfter
  mem : ∀ {offer}, offer ∈ offers ↔
    ∃ record, view offer.key = some record ∧ record.entry = offer ∧
      offer.pair = { buying := buying, selling := selling }

section Lists

variable {view : View α β} {buying selling : β} {offers offers' : List (OfferEntry α β)}

section

variable (hdistinct : View.Distinct view) (hlists : Lists view buying selling offers)
include hdistinct hlists

omit [DecidableEq α] [DecidableEq β] in
theorem Lists.eq_of_rank_eq {offer offer' : OfferEntry α β} (hoffer : offer ∈ offers)
    (hoffer' : offer' ∈ offers)
    (heq : offer.descriptor.rank = offer'.descriptor.rank) : offer = offer' := by
  obtain ⟨record, hrecord, rfl, -⟩ := hlists.mem.mp hoffer
  obtain ⟨record', hrecord', rfl, -⟩ := hlists.mem.mp hoffer'
  have hkey : record.entry.key = record'.entry.key :=
    hdistinct.unique (by simp [hrecord]) (by simp [hrecord'])
      (OfferDescriptor.offerId_eq_of_rank_eq heq)
  rw [hkey, hrecord'] at hrecord
  injection hrecord with hrecord
  rw [hrecord]

theorem Lists.eq (hlists' : Lists view buying selling offers') : offers = offers' := by
  have hperm : offers.Perm offers' := by
    rw [perm_ext_iff_of_nodup hlists.nodup hlists'.nodup]
    intro offer
    rw [hlists.mem, hlists'.mem]
  apply List.Perm.eq_of_pairwise _ hlists.sorted hlists'.sorted hperm
  intro offer offer' hoffer hoffer' hle hle'
  exact hlists.eq_of_rank_eq hdistinct hoffer (hperm.mem_iff.mpr hoffer')
    (le_antisymm (notAfter_iff.mp hle) (notAfter_iff.mp hle'))

/-- The first of the list is the one before all others. -/
theorem Lists.head_eq {best : OfferEntry α β} (hbest : best ∈ offers)
    (hfirst : ∀ offer ∈ offers, NotAfter best offer) : offers.head? = some best := by
  cases hoffers : offers with
  | nil => simp [hoffers] at hbest
  | cons first rest =>
    have hmem : first ∈ offers := by simp [hoffers]
    have hle : NotAfter first best := by
      have hsorted := hlists.sorted
      rw [hoffers] at hsorted hbest
      rcases mem_cons.mp hbest with rfl | hrest
      · exact notAfter_iff.mpr le_rfl
      · exact (pairwise_cons.mp hsorted).1 best hrest
    rw [head?_cons, hlists.eq_of_rank_eq hdistinct hmem hbest
      (le_antisymm (notAfter_iff.mp hle) (notAfter_iff.mp (hfirst first hmem)))]

end

end Lists

namespace OfferStore

/-! ### Books -/

section Books

variable {data : OfferStoreData α β} (h : data.Indexed) (keep : OfferKey α → Bool)
  (buying selling : β)
include h

def keptEntries (data : OfferStoreData α β) (keep : OfferKey α → Bool) (buying selling : β) :
    List (OfferEntry α β) :=
  ((data.orderBook.offersForPair buying selling).filter keep).filterMap fun key =>
    (data.offers key).map OfferRecord.entry

omit [DecidableEq α] [DecidableEq β] in
theorem mem_offersForPair {key : OfferKey α} :
    key ∈ data.orderBook.offersForPair buying selling ↔
      ∃ record, data.offers key = some record ∧
        record.entry.pair = { buying := buying, selling := selling } := by
  unfold OfferIndex.offersForPair
  rw [mem_map]
  constructor
  · rintro ⟨⟨descriptor, key⟩, hmem, rfl⟩
    obtain ⟨record, hrecord, hpair, -⟩ := h.book.mp hmem
    exact ⟨record, hrecord, hpair⟩
  · rintro ⟨record, hrecord, hpair⟩
    exact ⟨(record.entry.descriptor, key), h.book.mpr ⟨record, hrecord, hpair, rfl⟩, rfl⟩

theorem mem_keptEntries {offer : OfferEntry α β} :
    offer ∈ keptEntries data keep buying selling ↔
      keep offer.key = true ∧ ∃ record, data.offers offer.key = some record ∧
        record.entry = offer ∧ offer.pair = { buying := buying, selling := selling } := by
  unfold keptEntries
  rw [mem_filterMap]
  constructor
  · rintro ⟨key, hmem, hentry⟩
    obtain ⟨hbook, hkeep⟩ := mem_filter.mp hmem
    obtain ⟨record, hrecord, hpair⟩ := (mem_offersForPair h buying selling).mp hbook
    rw [hrecord] at hentry
    injection hentry with hentry
    subst hentry
    have hkey : record.entry.key = key := h.distinct.keyed hrecord
    rw [hkey]
    exact ⟨hkeep, record, hrecord, rfl, hpair⟩
  · rintro ⟨hkeep, record, hrecord, rfl, hpair⟩
    refine ⟨record.entry.key, mem_filter.mpr ⟨?_, hkeep⟩, by rw [hrecord]; rfl⟩
    exact (mem_offersForPair h buying selling).mpr ⟨record, hrecord, hpair⟩

omit [DecidableEq α] [DecidableEq β] in
theorem sorted_keptEntries :
    (keptEntries data keep buying selling).Pairwise fun offer offer' =>
      offer.descriptor.rank < offer'.descriptor.rank := by
  unfold keptEntries OfferIndex.offersForPair
  rw [pairwise_filterMap]
  apply List.Pairwise.filter
  rw [pairwise_map]
  refine (h.sorted _).imp_of_mem ?_
  rintro ⟨descriptor, key⟩ ⟨descriptor', key'⟩ hmem hmem' hlt offer hoffer offer' hoffer'
  obtain ⟨record, hrecord, -, hdescriptor⟩ := h.book.mp hmem
  obtain ⟨record', hrecord', -, hdescriptor'⟩ := h.book.mp hmem'
  rw [hrecord, Option.map_some, Option.some.injEq] at hoffer
  rw [hrecord', Option.map_some, Option.some.injEq] at hoffer'
  rw [← hoffer, ← hoffer', hdescriptor, hdescriptor']
  exact hlt

theorem nodup_keptEntries : (keptEntries data keep buying selling).Nodup := by
  apply (sorted_keptEntries h keep buying selling).imp
  intro offer offer' hlt heq
  have hrank : offer.descriptor.rank = offer'.descriptor.rank := by rw [heq]
  exact ne_of_lt hlt hrank

theorem pairwise_keptEntries : (keptEntries data keep buying selling).Pairwise NotAfter := by
  apply (sorted_keptEntries h keep buying selling).imp
  intro offer offer' hlt
  exact notAfter_iff.mpr (le_of_lt hlt)

theorem head_keptEntries :
    ((((data.orderBook.offersForPair buying selling).filter keep).head?).bind
      data.offers).map OfferRecord.entry = (keptEntries data keep buying selling).head? := by
  unfold keptEntries
  cases hkeys : (data.orderBook.offersForPair buying selling).filter keep with
  | nil => rfl
  | cons key rest =>
    have hmem : key ∈ (data.orderBook.offersForPair buying selling).filter keep := by
      rw [hkeys]
      exact mem_cons_self
    obtain ⟨record, hrecord, -⟩ :=
      (mem_offersForPair h buying selling).mp (mem_filter.mp hmem).1
    rw [head?_cons, Option.bind_some, hrecord, filterMap_cons_some (by rw [hrecord]; rfl)]
    rfl

omit h in
omit [DecidableEq α] [DecidableEq β] in
theorem entriesForPair_eq (data : OfferStoreData α β) :
    entriesForPair data buying selling = keptEntries data (fun _ => true) buying selling := by
  unfold entriesForPair keptEntries
  rw [filter_true]

end Books

variable {store : OfferStore α β}

omit [DecidableEq β] in
theorem baseEntriesForPair_eq {base : OfferStoreData α β} (hbase : store.base = some base)
    (buying selling : β) : store.baseEntriesForPair buying selling =
      keptEntries base (fun key => decide (key ∉ store.shadowed)) buying selling := by
  unfold baseEntriesForPair
  rw [hbase]
  rfl

theorem offersForAssetPair_lists (hsound : store.Sound) (buying selling : β) :
    Lists store.get buying selling (store.offersForAssetPair buying selling) := by
  have hlocal := hsound.indexed
  unfold offersForAssetPair
  rw [entriesForPair_eq]
  by_cases howned : store.base.isNone = true
  · rw [if_pos howned, get_owned (Option.isNone_iff_eq_none.mp howned)]
    refine ⟨nodup_keptEntries hlocal _ _ _, pairwise_keptEntries hlocal _ _ _, ?_⟩
    intro offer
    rw [mem_keptEntries hlocal]
    simp
  · rw [if_neg howned]
    obtain ⟨base, hbase⟩ := Option.ne_none_iff_exists'.mp (mt Option.isNone_iff_eq_none.mpr howned)
    have hindexed := hsound.base base hbase
    rw [baseEntriesForPair_eq hbase]
    have hperm := perm_insertionSort (fun offer offer' : OfferEntry α β =>
      OfferDescriptor.cmp offer.descriptor offer'.descriptor ≠ .gt)
      (keptEntries base (fun key => decide (key ∉ store.shadowed)) buying selling ++
        keptEntries store.data (fun _ => true) buying selling)
    have hstored {offer : OfferEntry α β} {record : OfferRecord α β}
        (hrecord : store.data.offers offer.key = some record) : offer.key ∈ store.shadowed :=
      hsound.hidden (by simp [hbase]) _ (by simp [hrecord])
    refine ⟨?_, pairwise_insertionSort NotAfter _, ?_⟩
    · rw [hperm.nodup_iff, nodup_append']
      refine ⟨nodup_keptEntries hindexed _ _ _, nodup_keptEntries hlocal _ _ _, ?_⟩
      intro offer hoffer hoffer'
      obtain ⟨hkeep, -⟩ := (mem_keptEntries hindexed _ _ _).mp hoffer
      obtain ⟨-, record, hrecord, -⟩ := (mem_keptEntries hlocal _ _ _).mp hoffer'
      exact of_decide_eq_true hkeep (hstored hrecord)
    · intro offer
      rw [hperm.mem_iff, mem_append, mem_keptEntries hindexed, mem_keptEntries hlocal]
      constructor
      · rintro (⟨hkeep, record, hrecord, hentry⟩ | ⟨-, record, hrecord, hentry⟩)
        · have hhidden := of_decide_eq_true hkeep
          have hnone : store.data.offers offer.key = none := by
            by_contra hsome
            exact hhidden (hsound.hidden (by simp [hbase]) _
              (Option.isSome_iff_ne_none.mpr hsome))
          refine ⟨record, ?_, hentry⟩
          rw [get_of_not_local hnone, unshadowed, if_neg hhidden, hbase]
          exact hrecord
        · exact ⟨record, get_of_local hrecord, hentry⟩
      · rintro ⟨record, hrecord, hentry⟩
        cases hfound : store.data.offers offer.key with
        | some record' =>
          rw [get_of_local hfound] at hrecord
          injection hrecord with hrecord
          subst hrecord
          exact .inr ⟨rfl, record', rfl, hentry⟩
        | none =>
          rw [get_of_not_local hfound, unshadowed, hbase] at hrecord
          split at hrecord
          · cases hrecord
          next hhidden => exact .inl ⟨decide_eq_true hhidden, record, hrecord, hentry⟩

theorem bestOffer_eq (hsound : store.Sound) (buying selling : β) :
    store.bestOffer buying selling = (store.offersForAssetPair buying selling).head? := by
  have hlocal := hsound.indexed
  have hlists := offersForAssetPair_lists hsound buying selling
  by_cases howned : store.base.isNone = true
  · unfold bestOffer offersForAssetPair
    rw [if_pos howned, if_pos howned, entriesForPair_eq,
      ← head_keptEntries hlocal (fun _ => true) buying selling, filter_true]
    unfold OfferIndex.bestOfferKey OfferIndex.offersForPair
    rw [head?_map]
  · obtain ⟨base, hbase⟩ := Option.ne_none_iff_exists'.mp (mt Option.isNone_iff_eq_none.mpr howned)
    have hindexed := hsound.base base hbase
    have hmem {offer : OfferEntry α β} : offer ∈ store.offersForAssetPair buying selling ↔
        offer ∈ keptEntries base (fun key => decide (key ∉ store.shadowed)) buying selling ∨
          offer ∈ keptEntries store.data (fun _ => true) buying selling := by
      unfold offersForAssetPair
      rw [if_neg howned, baseEntriesForPair_eq hbase, entriesForPair_eq, mem_insertionSort,
        mem_append]
    have hheadBase := head_keptEntries hindexed (fun key => decide (key ∉ store.shadowed))
      buying selling
    rw [head?_filter] at hheadBase
    have hsortedBase := pairwise_keptEntries hindexed (fun key => decide (key ∉ store.shadowed))
      buying selling
    have hsortedLocal := pairwise_keptEntries hlocal (fun _ => true) buying selling
    unfold bestOffer
    rw [if_neg howned, hbase, Option.bind_some, hheadBase, entriesForPair_eq]
    generalize keptEntries base (fun key => decide (key ∉ store.shadowed)) buying selling =
      bases at *
    generalize keptEntries store.data (fun _ => true) buying selling = locals at *
    generalize store.offersForAssetPair buying selling = offers at *
    have hfirst {l : List (OfferEntry α β)} {first : OfferEntry α β}
        (hsorted : l.Pairwise NotAfter) (hhead : l.head? = some first) :
        first ∈ l ∧ ∀ offer ∈ l, NotAfter first offer := by
      cases l with
      | nil => cases hhead
      | cons first' rest =>
        injection hhead with hhead
        subst hhead
        refine ⟨mem_cons_self, fun offer hoffer => ?_⟩
        rcases mem_cons.mp hoffer with rfl | hrest
        · exact notAfter_iff.mpr le_rfl
        · exact (pairwise_cons.mp hsorted).1 offer hrest
    cases hl : locals.head? with
    | none =>
      rw [head?_eq_none_iff] at hl
      subst hl
      cases hb : bases.head? with
      | none =>
        rw [head?_eq_none_iff] at hb
        subst hb
        have hnil : offers = [] := by
          rw [eq_nil_iff_forall_not_mem]
          intro offer hoffer
          rcases hmem.mp hoffer with h | h <;> cases h
        rw [hnil]
        rfl
      | some best =>
        obtain ⟨hbest, hleast⟩ := hfirst hsortedBase hb
        refine (hlists.head_eq hsound.distinct (hmem.mpr (.inl hbest)) ?_).symm
        intro offer hoffer
        rcases hmem.mp hoffer with h | h
        · exact hleast offer h
        · cases h
    | some best =>
      obtain ⟨hbest, hleast⟩ := hfirst hsortedLocal hl
      cases hb : bases.head? with
      | none =>
        rw [head?_eq_none_iff] at hb
        subst hb
        refine (hlists.head_eq hsound.distinct (hmem.mpr (.inr hbest)) ?_).symm
        intro offer hoffer
        rcases hmem.mp hoffer with h | h
        · cases h
        · exact hleast offer h
      | some best' =>
        obtain ⟨hbest', hleast'⟩ := hfirst hsortedBase hb
        dsimp only
        split
        next hle =>
          refine (hlists.head_eq hsound.distinct (hmem.mpr (.inr hbest)) ?_).symm
          intro offer hoffer
          rcases hmem.mp hoffer with h | h
          · exact IsTrans.trans _ _ _ hle (hleast' offer h)
          · exact hleast offer h
        next hgt =>
          have hle : NotAfter best' best :=
            ((Std.Total.total best best' : NotAfter best best' ∨ _)).resolve_left hgt
          refine (hlists.head_eq hsound.distinct (hmem.mpr (.inl hbest')) ?_).symm
          intro offer hoffer
          rcases hmem.mp hoffer with h | h
          · exact hleast' offer h
          · exact IsTrans.trans _ _ _ hle (hleast offer h)

/-! ### Identifiers -/

theorem getById_eq_some_iff (hsound : store.Sound) {offerId : Int} {record : OfferRecord α β} :
    store.getById offerId = some record ↔
      ∃ key, key.offerId = offerId ∧ store.get key = some record := by
  have hids {key : OfferKey α} : store.data.byId offerId = some key ↔
      (store.data.offers key).isSome ∧ key.offerId = offerId := hsound.indexed.ids
  unfold getById
  cases hlocal : store.data.byId offerId with
  | some key =>
    obtain ⟨hstored, hid⟩ := hids.mp hlocal
    obtain ⟨stored, hstored'⟩ := Option.isSome_iff_exists.mp hstored
    have hget := get_of_local hstored'
    rw [Option.bind_some, hstored', Option.some_or, Option.some.injEq]
    constructor
    · rintro rfl
      exact ⟨key, hid, hget⟩
    · rintro ⟨key', hid', hrecord⟩
      have hkey := hsound.distinct.unique (by simp [hget]) (by simp [hrecord])
        (hid.trans hid'.symm)
      rw [← hkey, hget, Option.some.injEq] at hrecord
      exact hrecord
  | none =>
    have hnone {key : OfferKey α} (hid : key.offerId = offerId) : store.data.offers key = none := by
      by_contra hsome
      rw [hids.mpr ⟨Option.isSome_iff_ne_none.mpr hsome, hid⟩] at hlocal
      cases hlocal
    rw [Option.bind_none, Option.none_or]
    cases hbase : store.base with
    | none =>
      rw [Option.bind_none, Option.bind_none]
      constructor
      · intro h
        cases h
      · rintro ⟨key, hid, hrecord⟩
        rw [get_of_not_local (hnone hid), unshadowed_of_owned hbase] at hrecord
        cases hrecord
    | some base =>
      have hindexed := hsound.base base hbase
      rw [Option.bind_some]
      constructor
      · intro hrecord
        obtain ⟨key, hkey, hfound⟩ := Option.bind_eq_some_iff.mp hrecord
        obtain ⟨-, hid⟩ := hindexed.ids.mp hkey
        exact ⟨key, hid, by rw [get_of_not_local (hnone hid), hfound]⟩
      · rintro ⟨key, hid, hrecord⟩
        rw [get_of_not_local (hnone hid)] at hrecord
        have hstored : (base.offers key).isSome := by
          unfold unshadowed at hrecord
          split at hrecord
          · cases hrecord
          · rw [hbase, Option.bind_some] at hrecord
            rw [hrecord]
            rfl
        rw [hindexed.ids.mpr ⟨hstored, hid⟩, Option.bind_some, hrecord]

/-! ### Accounts and assets -/

/-- The entries that the records of an account have among given identifiers. -/
def entriesOf (view : View α β) (accountId : α) (offerIds : Finset Int) :
    Multiset (OfferEntry α β) :=
  offerIds.val.filterMap fun offerId =>
    (view { seller := accountId, offerId := offerId }).map OfferRecord.entry

section

omit [DecidableEq α] [DecidableEq β]

theorem mem_entriesOf {view : View α β}
    (hkeyed : ∀ {key record}, view key = some record → record.key = key) {accountId : α}
    {offerIds : Finset Int} {offer : OfferEntry α β} :
    offer ∈ entriesOf view accountId offerIds ↔ offer.sellerId = accountId ∧
      offer.offerId ∈ offerIds ∧ ∃ record, view offer.key = some record ∧ record.entry = offer := by
  unfold entriesOf
  rw [Multiset.mem_filterMap]
  constructor
  · rintro ⟨offerId, hmem, hoffer⟩
    obtain ⟨record, hrecord, rfl⟩ := Option.map_eq_some_iff.mp hoffer
    have hkey : record.entry.key = _ := hkeyed hrecord
    rw [hkey]
    have hseller := congrArg OfferKey.seller hkey
    have hid := congrArg OfferKey.offerId hkey
    dsimp only [OfferEntry.key] at hseller hid
    exact ⟨hseller, hid ▸ hmem, record, hrecord, rfl⟩
  · rintro ⟨rfl, hmem, record, hrecord, rfl⟩
    exact ⟨record.entry.offerId, hmem, Option.map_eq_some_iff.mpr ⟨record, hrecord, rfl⟩⟩

theorem nodup_entriesOf {view : View α β}
    (hkeyed : ∀ {key record}, view key = some record → record.key = key) (accountId : α)
    (offerIds : Finset Int) : (entriesOf view accountId offerIds).Nodup := by
  apply Multiset.Nodup.filterMap _ _ offerIds.nodup
  intro offerId offerId' offer hoffer hoffer'
  obtain ⟨record, hrecord, hentry⟩ := Option.map_eq_some_iff.mp hoffer
  obtain ⟨record', hrecord', hentry'⟩ := Option.map_eq_some_iff.mp hoffer'
  have hkey : record.entry.key = _ := hkeyed hrecord
  have hkey' : record'.entry.key = _ := hkeyed hrecord'
  rw [hentry] at hkey
  rw [hentry', hkey] at hkey'
  exact congrArg OfferKey.offerId hkey'

end

omit [DecidableEq β] in
theorem keyed_unshadowed (hsound : store.Sound) {key : OfferKey α} {record : OfferRecord α β}
    (hrecord : store.unshadowed key = some record) :
    record.key = key ∧ key ∉ store.shadowed ∧
      ∃ base, store.base = some base ∧ base.offers key = some record := by
  unfold unshadowed at hrecord
  split at hrecord
  · cases hrecord
  next hhidden =>
    obtain ⟨base, hbase, hfound⟩ := Option.bind_eq_some_iff.mp hrecord
    exact ⟨(hsound.base base hbase).distinct.keyed hfound, hhidden, base, hbase, hfound⟩

theorem getOffersByAccountAndAsset_spec (hsound : store.Sound) (accountId : α) (asset : β) :
    (store.getOffersByAccountAndAsset accountId asset).Nodup ∧
      ∀ offer, offer ∈ store.getOffersByAccountAndAsset accountId asset ↔
        offer.sellerId = accountId ∧ (offer.selling = asset ∨ offer.buying = asset) ∧
          ∃ record, store.get offer.key = some record ∧ record.entry = offer := by
  have hlocal := hsound.indexed
  have hlocalKeyed : ∀ {key record}, store.data.offers key = some record → record.key = key :=
    hlocal.distinct.keyed
  have hlocalMem (offer : OfferEntry α β) :
      offer ∈ entriesOf store.data.offers accountId
          (store.data.accountAssetIndex (accountId, asset)) ↔
        offer.sellerId = accountId ∧ (offer.selling = asset ∨ offer.buying = asset) ∧
          ∃ record, store.data.offers offer.key = some record ∧ record.entry = offer := by
    rw [mem_entriesOf hlocalKeyed, hlocal.accounts]
    constructor
    · rintro ⟨rfl, ⟨record', hrecord', hasset⟩, record, hrecord, hentry⟩
      have hsame : record' = record := Option.some.inj (hrecord'.symm.trans hrecord)
      rw [hsame, hentry] at hasset
      exact ⟨rfl, hasset, record, hrecord, hentry⟩
    · rintro ⟨rfl, hasset, record, hrecord, hentry⟩
      exact ⟨rfl, ⟨record, hrecord, by rw [hentry]; exact hasset⟩, record, hrecord, hentry⟩
  unfold getOffersByAccountAndAsset
  cases hbase : store.base with
  | none =>
    rw [get_owned hbase]
    dsimp only
    rw [Multiset.add_zero]
    exact ⟨nodup_entriesOf hlocalKeyed _ _, hlocalMem⟩
  | some base =>
    have hindexed := hsound.base base hbase
    have hbaseKeyed : ∀ {key record}, store.unshadowed key = some record → record.key = key :=
      fun hrecord => (keyed_unshadowed hsound hrecord).1
    have hbaseMem (offer : OfferEntry α β) :
        offer ∈ entriesOf store.unshadowed accountId
            (base.accountAssetIndex (accountId, asset)) ↔
          offer.sellerId = accountId ∧ (offer.selling = asset ∨ offer.buying = asset) ∧
            ∃ record, store.unshadowed offer.key = some record ∧ record.entry = offer := by
      rw [mem_entriesOf hbaseKeyed, hindexed.accounts]
      constructor
      · rintro ⟨rfl, ⟨record', hrecord', hasset⟩, record, hrecord, hentry⟩
        obtain ⟨-, -, base', hbase', hfound⟩ := keyed_unshadowed hsound hrecord
        rw [hbase, Option.some.injEq] at hbase'
        subst hbase'
        have hsame : record' = record := Option.some.inj (hrecord'.symm.trans hfound)
        rw [hsame, hentry] at hasset
        exact ⟨rfl, hasset, record, hrecord, hentry⟩
      · rintro ⟨rfl, hasset, record, hrecord, hentry⟩
        obtain ⟨-, -, base', hbase', hfound⟩ := keyed_unshadowed hsound hrecord
        rw [hbase, Option.some.injEq] at hbase'
        subst hbase'
        exact ⟨rfl, ⟨record, hfound, by rw [hentry]; exact hasset⟩, record, hrecord, hentry⟩
    have hhidden {key : OfferKey α} {record : OfferRecord α β}
        (hrecord : store.data.offers key = some record) : store.unshadowed key = none := by
      rw [unshadowed, if_pos (hsound.hidden (by simp [hbase]) key (by simp [hrecord]))]
    dsimp only
    refine ⟨Multiset.nodup_add.mpr ⟨nodup_entriesOf hlocalKeyed _ _,
      nodup_entriesOf hbaseKeyed _ _, ?_⟩, fun offer => ?_⟩
    · rw [Multiset.disjoint_left]
      intro offer hoffer hoffer'
      obtain ⟨-, -, record, hrecord, -⟩ := (hlocalMem offer).mp hoffer
      obtain ⟨-, -, record', hrecord', -⟩ := (hbaseMem offer).mp hoffer'
      rw [hhidden hrecord] at hrecord'
      cases hrecord'
    · rw [Multiset.mem_add]
      change offer ∈ entriesOf store.data.offers accountId _ ∨
        offer ∈ entriesOf store.unshadowed accountId _ ↔ _
      rw [hlocalMem, hbaseMem, ← and_or_left, ← and_or_left]
      apply and_congr_right'
      apply and_congr_right'
      constructor
      · rintro (⟨record, hrecord, hentry⟩ | ⟨record, hrecord, hentry⟩)
        · exact ⟨record, get_of_local hrecord, hentry⟩
        · have hnone : store.data.offers offer.key = none := by
            cases hfound : store.data.offers offer.key with
            | none => rfl
            | some record' =>
              rw [hhidden hfound] at hrecord
              cases hrecord
          exact ⟨record, by rw [get_of_not_local hnone, hrecord], hentry⟩
      · rintro ⟨record, hrecord, hentry⟩
        cases hfound : store.data.offers offer.key with
        | some record' =>
          rw [get_of_local hfound] at hrecord
          exact .inl ⟨record, hrecord, hentry⟩
        | none =>
          rw [get_of_not_local hfound] at hrecord
          exact .inr ⟨record, hrecord, hentry⟩

end OfferStore

end Henyey.Offers
