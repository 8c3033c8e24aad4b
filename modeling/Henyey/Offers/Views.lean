import Henyey.Offers.Indexed

/-!
# What a store looks like from outside

The records that a store answers with are its view. Every operation changes the view alike
in owned stores and in overlays, and keeps the indexes in agreement with it.
-/

namespace Henyey.Offers

open Foundation
open Function

variable {α β : Type} [DecidableEq α] [DecidableEq β]

/-- Indexes agree with the offers in all parts of a store, and an overlay hides the keys that
it stores itself. -/
structure OfferStore.Sound (store : OfferStore α β) : Prop where
  indexed : store.data.Indexed
  base : ∀ base, store.base = some base → base.Indexed
  hidden : store.base.isSome → ∀ key, (store.data.offers key).isSome → key ∈ store.shadowed
  distinct : View.Distinct store.get

namespace OfferStore

variable {store : OfferStore α β} {record : OfferRecord α β} {key : OfferKey α}

section

omit [DecidableEq β]

theorem get_of_local
    (hrecord : store.data.offers key = some record) : store.get key = some record := by
  rw [get, hrecord]
  rfl

theorem get_of_not_local (hnone : store.data.offers key = none) :
    store.get key = store.unshadowed key := by
  rw [get, hnone]
  rfl

theorem unshadowed_of_owned (howned : store.base = none) (key : OfferKey α) :
    store.unshadowed key = none := by
  rw [unshadowed, howned]
  split <;> rfl

end

theorem get_owned (howned : store.base = none) : store.get = store.data.offers := by
  funext key
  rw [get, unshadowed_of_owned howned, Option.or_none]

omit [DecidableEq β] in
theorem get_changeKey {data : OfferStoreData α β} {shadowed : Finset (OfferKey α)}
    {value : Option (OfferRecord α β)} (hoffers : data.offers = update store.data.offers key value)
    (hshadowed : ∀ key', key' ≠ key → (key' ∈ shadowed ↔ key' ∈ store.shadowed))
    (hvalue : value.isSome ∨ store.base = none ∨ key ∈ shadowed) :
    get { store with data := data, shadowed := shadowed } = update store.get key value := by
  funext key'
  by_cases hsame : key' = key
  · subst hsame
    rw [update_self, get, hoffers, update_self]
    cases value with
    | some record => rfl
    | none =>
      rw [Option.none_or]
      unfold unshadowed
      rcases hvalue with hsome | howned | hhidden
      · cases hsome
      · dsimp only
        rw [howned]
        split <;> rfl
      · rw [if_pos hhidden]
  · rw [update_of_ne hsame, get, hoffers, update_of_ne hsame]
    unfold get unshadowed
    simp only [hshadowed key' hsame]

theorem get_insertRecord (record : OfferRecord α β) :
    (store.insertRecord record).get = update store.get record.key (some record) := by
  unfold insertRecord
  apply get_changeKey
  · rfl
  · intro key' hne
    split
    · rw [Finset.mem_insert, or_iff_right hne]
    · rfl
  · exact .inl rfl

theorem data_insertRecord (hindexed : store.data.Indexed) (record : OfferRecord α β) :
    (store.insertRecord record).data = putLocal (removeLocal store.data record.key) record := by
  unfold insertRecord putLocal removeLocal unindex
  dsimp only
  cases hold : store.data.offers record.key with
  | none => rfl
  | some old =>
    have hkey := hindexed.distinct.keyed hold
    have hid : old.entry.offerId = record.entry.offerId := congrArg OfferKey.offerId hkey
    dsimp only
    rw [hid, update_idem, update_idem]

/-- No other stored offer has the identifier of the record. -/
def Free (view : View α β) (record : OfferRecord α β) : Prop :=
  ∀ key, (view key).isSome → key.offerId = record.entry.offerId → key = record.key

variable {view : View α β}

omit [DecidableEq β] in
theorem distinct_update_some (hdistinct : View.Distinct view) (hfree : Free view record) :
    View.Distinct (update view record.key (some record)) := by
  have hcases {key : OfferKey α}
      (hsome : (update view record.key (some record) key).isSome) :
      key = record.key ∨ (view key).isSome := by
    rw [update_apply] at hsome
    split at hsome
    · exact .inl ‹_›
    · exact .inr hsome
  constructor
  · intro key record' hrecord'
    rw [update_apply] at hrecord'
    split at hrecord'
    next hsame =>
      injection hrecord' with hrecord'
      rw [← hrecord', hsame]
    · exact hdistinct.keyed hrecord'
  · intro key key' hkey hkey' hid
    rcases hcases hkey with rfl | hold
    · rcases hcases hkey' with rfl | hold'
      · rfl
      · exact (hfree key' hold' hid.symm).symm
    · rcases hcases hkey' with rfl | hold'
      · exact hfree key hold hid
      · exact hdistinct.unique hold hold' hid

omit [DecidableEq β] in
theorem distinct_update_none (hdistinct : View.Distinct view)
    (key : OfferKey α) : View.Distinct (update view key none) := by
  have hcases {key' : OfferKey α} {record : OfferRecord α β}
      (hrecord : update view key none key' = some record) : view key' = some record := by
    rw [update_apply] at hrecord
    split at hrecord
    · cases hrecord
    · exact hrecord
  constructor
  · exact fun hrecord => hdistinct.keyed (hcases hrecord)
  · intro key' key'' hkey' hkey''
    obtain ⟨record', hrecord'⟩ := Option.isSome_iff_exists.mp hkey'
    obtain ⟨record'', hrecord''⟩ := Option.isSome_iff_exists.mp hkey''
    exact hdistinct.unique (by simp [hcases hrecord']) (by simp [hcases hrecord''])

theorem Sound.insertRecord (hsound : store.Sound)
    (hfree : Free store.get record) : (store.insertRecord record).Sound where
  indexed := by
    rw [data_insertRecord hsound.indexed]
    apply (hsound.indexed.removeLocal record.key).putLocal
    intro key hkey hid
    rw [hsound.indexed.offers_removeLocal, update_apply] at hkey
    split at hkey
    · cases hkey
    next hne =>
      obtain ⟨record', hrecord'⟩ := Option.isSome_iff_exists.mp hkey
      exact hne (hfree key (by simp [get_of_local hrecord']) hid)
  base := hsound.base
  hidden := by
    intro hoverlay key hkey
    unfold OfferStore.insertRecord at hoverlay hkey ⊢
    dsimp only at hoverlay hkey ⊢
    rw [if_pos hoverlay, Finset.mem_insert]
    rw [update_apply] at hkey
    split at hkey
    next hsame => exact .inl hsame
    · exact .inr (hsound.hidden hoverlay key hkey)
  distinct := by
    rw [get_insertRecord]
    exact distinct_update_some hsound.distinct hfree

/-! ### Updates -/

theorem updateOfferEntry_owned (howned : store.base = none) {entry : OfferEntry α β}
    (hindexed : store.data.Indexed) (hrecord : store.data.offers entry.key = some record) :
    (store.updateOfferEntry entry) = store.insertRecord { record with entry := entry } := by
  have hkey := hindexed.distinct.keyed hrecord
  have hid : record.entry.offerId = entry.offerId := congrArg OfferKey.offerId hkey
  have hbyId : update store.data.byId entry.offerId (some entry.key) = store.data.byId := by
    rw [update_eq_self_iff]
    exact (hindexed.ids.mpr ⟨by simp [hrecord], rfl⟩).symm
  have hunindex : unindex store.data entry.key =
      { store.data with
        accountAssetIndex := aaIndexRemove store.data.accountAssetIndex record.entry
        orderBook := store.data.orderBook.removeWithData record.entry } := by
    unfold unindex
    rw [hrecord]
  unfold updateOfferEntry insertRecord OfferRecord.key
  dsimp only
  rw [hrecord, hbyId, howned, hunindex]
  rfl

theorem updateOfferEntry_eq (hsound : store.Sound) {entry : OfferEntry α β}
    (hrecord : store.get entry.key = some record) :
    store.updateOfferEntry entry = store.insertRecord { record with entry := entry } := by
  cases hbase : store.base with
  | none =>
    rw [get_owned hbase] at hrecord
    exact updateOfferEntry_owned hbase hsound.indexed hrecord
  | some base =>
    unfold updateOfferEntry
    rw [hbase, hrecord]
    rfl

omit [DecidableEq α] [DecidableEq β] in
theorem free_of_get (hdistinct : View.Distinct view)
    (hstored : (view record.key).isSome) : Free view record :=
  fun _ hkey hid => hdistinct.unique hkey hstored hid

/-! ### Removals -/

theorem get_remove (hsound : store.Sound) (key : OfferKey α) :
    (store.remove key).1.get = update store.get key none := by
  have hoffers := hsound.indexed.offers_removeLocal key
  unfold remove
  by_cases howned : store.base.isNone = true
  · rw [if_pos howned]
    exact get_changeKey hoffers (fun _ _ => Iff.rfl)
      (.inr (.inl (Option.isNone_iff_eq_none.mp howned)))
  · rw [if_neg howned]
    cases hrecord : store.get key with
    | none =>
      dsimp only
      rw [← hrecord, update_eq_self]
    | some record =>
      refine get_changeKey hoffers (fun key' hne => ?_)
        (.inr (.inr (Finset.mem_insert_self _ _)))
      rw [Finset.mem_insert, or_iff_right hne]

theorem Sound.remove (hsound : store.Sound) (key : OfferKey α) : (store.remove key).1.Sound := by
  have hdistinct := distinct_update_none hsound.distinct key
  rw [← get_remove hsound key] at hdistinct
  have hlocal {key' : OfferKey α} (hkey' : ((removeLocal store.data key).offers key').isSome) :
      (store.data.offers key').isSome := by
    rw [hsound.indexed.offers_removeLocal, update_apply] at hkey'
    split at hkey'
    · cases hkey'
    · exact hkey'
  unfold OfferStore.remove at hdistinct ⊢
  split at hdistinct
  next howned =>
    rw [if_pos howned]
    refine ⟨hsound.indexed.removeLocal key, hsound.base, fun hoverlay => ?_, hdistinct⟩
    rw [Option.isNone_iff_eq_none] at howned
    rw [howned] at hoverlay
    cases hoverlay
  next howned =>
    rw [if_neg howned]
    cases hrecord : store.get key with
    | none => exact hsound
    | some record =>
      rw [hrecord] at hdistinct
      refine ⟨hsound.indexed.removeLocal key, hsound.base, fun hoverlay key' hkey' => ?_, hdistinct⟩
      exact Finset.mem_insert_of_mem (hsound.hidden hoverlay key' (hlocal hkey'))

/-! ### Metadata -/

/-- The store with a record copied from the base, if it is the base that holds it. -/
def localCopy (store : OfferStore α β) (key : OfferKey α) : OfferStore α β :=
  if store.base.isNone then store
  else match store.data.offers key with
    | some _ => store
    | none => match store.get key with
      | some record => store.insertRecord record
      | none => store

theorem metadataMut_eq (store : OfferStore α β) (key : OfferKey α)
    (change : OfferRecord α β → OfferRecord α β) :
    store.metadataMut key change =
      { store.localCopy key with
        data := { (store.localCopy key).data with
          offers := update (store.localCopy key).data.offers key
            (((store.localCopy key).data.offers key).map change) } } := rfl

/-- Copying changes nothing outside and leaves the record local. -/
theorem localCopy_spec (hsound : store.Sound) (key : OfferKey α) :
    (store.localCopy key).Sound ∧ (store.localCopy key).get = store.get ∧
      (store.localCopy key).data.offers key = store.get key ∧
      (store.localCopy key).base = store.base := by
  unfold localCopy
  split
  next howned =>
    have hnone := Option.isNone_iff_eq_none.mp howned
    exact ⟨hsound, rfl, by rw [get_owned hnone], rfl⟩
  · cases hlocal : store.data.offers key with
    | some record => exact ⟨hsound, rfl, by rw [get_of_local hlocal, hlocal], rfl⟩
    | none =>
      cases hrecord : store.get key with
      | none => exact ⟨hsound, rfl, hlocal, rfl⟩
      | some record =>
        have hkey := hsound.distinct.keyed hrecord
        have hfree : Free store.get record :=
          free_of_get hsound.distinct (by rw [hkey, hrecord]; rfl)
        refine ⟨hsound.insertRecord hfree, ?_, ?_, rfl⟩
        · dsimp only
          rw [get_insertRecord, hkey, ← hrecord, update_eq_self]
        · dsimp only
          unfold insertRecord
          dsimp only
          rw [hkey, update_self]

variable {change : OfferRecord α β → OfferRecord α β}

theorem get_changeMetadata (hlocal : store.data.offers key = store.get key) :
    get { store with data := { store.data with
        offers := update store.data.offers key ((store.data.offers key).map change) } } =
      update store.get key ((store.get key).map change) := by
  cases hrecord : store.get key with
  | some record =>
    rw [hrecord] at hlocal
    rw [hlocal]
    exact get_changeKey rfl (fun _ _ => Iff.rfl) (.inl rfl)
  | none =>
    rw [hrecord] at hlocal
    have hsame : update store.data.offers key none = store.data.offers := by
      rw [← hlocal, update_eq_self]
    rw [hlocal, Option.map_none, hsame, ← hrecord, update_eq_self]

theorem get_metadataMut (hsound : store.Sound) (key : OfferKey α)
    (change : OfferRecord α β → OfferRecord α β) :
    (store.metadataMut key change).get = update store.get key ((store.get key).map change) := by
  obtain ⟨_, hget, hlocal, _⟩ := localCopy_spec hsound key
  rw [metadataMut_eq, get_changeMetadata (hlocal.trans (by rw [hget])), hget]

theorem Sound.metadataMut (hsound : store.Sound) (key : OfferKey α)
    (hchange : ∀ record, (change record).entry = record.entry) :
    (store.metadataMut key change).Sound := by
  have hdistinct : View.Distinct (store.metadataMut key change).get := by
    rw [get_metadataMut hsound]
    cases hrecord : store.get key with
    | none => exact distinct_update_none hsound.distinct key
    | some record =>
      have hkey := hsound.distinct.keyed hrecord
      have hkey' : (change record).key = key := by
        unfold OfferRecord.key at hkey ⊢
        rw [hchange, hkey]
      have hfree : Free store.get (change record) :=
        free_of_get hsound.distinct (by rw [hkey', hrecord]; rfl)
      have hupdate := distinct_update_some hsound.distinct hfree
      rw [hkey'] at hupdate
      exact hupdate
  obtain ⟨hcopy, _, _, _⟩ := localCopy_spec hsound key
  rw [metadataMut_eq] at hdistinct ⊢
  refine ⟨hcopy.indexed.changeMetadata hchange, hcopy.base, ?_, hdistinct⟩
  intro hoverlay key' hkey'
  apply hcopy.hidden hoverlay key'
  dsimp only at hkey'
  rw [update_apply] at hkey'
  split at hkey'
  next hsame =>
    rw [Option.isSome_map] at hkey'
    rw [hsame]
    exact hkey'
  · exact hkey'

end OfferStore

end Henyey.Offers
