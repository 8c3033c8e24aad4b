import Henyey.Offers.Queries

/-!
# Overlays and owned stores

An overlay over a frozen store answers like an owned store with the same offers after the
same operations, if each of them updates an offer that is there.
-/

namespace Henyey.Offers

open Function

variable {α β : Type} [DecidableEq α] [DecidableEq β]

/-- What can be done to a store. A rollback inserts the records from before, and removes what
was not there. -/
inductive Op (α β : Type)
  | insertRecord (record : OfferRecord α β)
  | updateOfferEntry (entry : OfferEntry α β)
  | remove (key : OfferKey α)
  | setMetadata (key : OfferKey α) (lastModified : Nat) (sponsor : Option α) (hasExt : Bool)
  | setLastModified (key : OfferKey α) (lastModified : Nat)
  | setSponsorship (key : OfferKey α) (sponsor : Option α) (hasExt : Bool)
  | takeSponsorship (key : OfferKey α)
  | setHasExt (key : OfferKey α) (hasExt : Bool)

namespace OfferStore

def apply (store : OfferStore α β) : Op α β → OfferStore α β
  | .insertRecord record => store.insertRecord record
  | .updateOfferEntry entry => store.updateOfferEntry entry
  | .remove key => (store.remove key).1
  | .setMetadata key lastModified sponsor hasExt =>
    store.setMetadata key lastModified sponsor hasExt
  | .setLastModified key lastModified => store.setLastModified key lastModified
  | .setSponsorship key sponsor hasExt => store.setSponsorship key sponsor hasExt
  | .takeSponsorship key => store.takeSponsorship key
  | .setHasExt key hasExt => store.setHasExt key hasExt

def run (store : OfferStore α β) (ops : List (Op α β)) : OfferStore α β :=
  ops.foldl apply store

end OfferStore

/-- An update is of a stored offer, and a record comes with an identifier of its own. -/
def Op.Legal (view : View α β) : Op α β → Prop
  | .insertRecord record => OfferStore.Free view record
  | .updateOfferEntry entry => (view entry.key).isSome
  | _ => True

def LegalRun (store : OfferStore α β) : List (Op α β) → Prop
  | [] => True
  | op :: ops => op.Legal store.get ∧ LegalRun (store.apply op) ops

namespace OfferStore

/-- What an operation does to the records that a store answers with. -/
def effect (view : View α β) : Op α β → View α β
  | .insertRecord record => update view record.key (some record)
  | .updateOfferEntry entry =>
    update view entry.key ((view entry.key).map fun record =>
      { record with entry := entry })
  | .remove key => update view key none
  | .setMetadata key lastModified sponsor hasExt =>
    update view key ((view key).map fun record =>
      { record with lastModified := lastModified, sponsor := sponsor, hasExt := hasExt })
  | .setLastModified key lastModified =>
    update view key ((view key).map fun record =>
      { record with lastModified := lastModified })
  | .setSponsorship key sponsor hasExt =>
    update view key ((view key).map fun record =>
      { record with sponsor := sponsor, hasExt := hasExt })
  | .takeSponsorship key =>
    update view key ((view key).map fun record => { record with sponsor := none })
  | .setHasExt key hasExt =>
    update view key ((view key).map fun record => { record with hasExt := hasExt })

theorem Sound.apply {store : OfferStore α β} (hsound : store.Sound) {op : Op α β}
    (hlegal : op.Legal store.get) :
    (store.apply op).Sound ∧ (store.apply op).get = effect store.get op := by
  cases op with
  | insertRecord record => exact ⟨hsound.insertRecord hlegal, get_insertRecord record⟩
  | updateOfferEntry entry =>
    obtain ⟨record, hrecord⟩ := Option.isSome_iff_exists.mp hlegal
    have hstored : (store.get entry.key).isSome := hlegal
    have hinsert := updateOfferEntry_eq hsound hrecord
    unfold OfferStore.apply effect
    dsimp only
    rw [hinsert, hrecord]
    exact ⟨hsound.insertRecord (free_of_get hsound.distinct hstored), get_insertRecord _⟩
  | remove key => exact ⟨hsound.remove key, get_remove hsound key⟩
  | setMetadata key lastModified sponsor hasExt =>
    exact ⟨hsound.metadataMut key fun _ => rfl, get_metadataMut hsound key _⟩
  | setLastModified key lastModified =>
    exact ⟨hsound.metadataMut key fun _ => rfl, get_metadataMut hsound key _⟩
  | setSponsorship key sponsor hasExt =>
    exact ⟨hsound.metadataMut key fun _ => rfl, get_metadataMut hsound key _⟩
  | takeSponsorship key =>
    exact ⟨hsound.metadataMut key fun _ => rfl, get_metadataMut hsound key _⟩
  | setHasExt key hasExt =>
    exact ⟨hsound.metadataMut key fun _ => rfl, get_metadataMut hsound key _⟩

theorem run_agree {owned overlay : OfferStore α β} (howned : owned.Sound) (hoverlay : overlay.Sound)
    (hget : overlay.get = owned.get) {ops : List (Op α β)} (hlegal : LegalRun owned ops) :
    (owned.run ops).Sound ∧ (overlay.run ops).Sound ∧
      (overlay.run ops).get = (owned.run ops).get := by
  induction ops generalizing owned overlay with
  | nil => exact ⟨howned, hoverlay, hget⟩
  | cons op ops ih =>
    obtain ⟨hop, hops⟩ := hlegal
    have hop' : op.Legal overlay.get := hget ▸ hop
    obtain ⟨hsound, heffect⟩ := howned.apply hop
    obtain ⟨hsound', heffect'⟩ := hoverlay.apply hop'
    exact ih hsound hsound' (by rw [heffect', heffect, hget]) hops

/-! ### Where runs start -/

theorem sound_of_indexed {data : OfferStoreData α β} (hindexed : data.Indexed) :
    Sound { data := data, base := none, shadowed := ∅ } where
  indexed := hindexed
  base := fun _ hbase => nomatch hbase
  hidden := fun hbase => nomatch hbase
  distinct := by
    rw [get_owned rfl]
    exact hindexed.distinct

omit [DecidableEq β] in
theorem get_withImmutableBase (base : OfferStoreData α β) :
    (withImmutableBase base).get = base.offers := by
  funext key
  unfold get unshadowed withImmutableBase OfferStoreData.empty
  rw [if_neg (Finset.notMem_empty key)]
  rfl

theorem sound_withImmutableBase {base : OfferStoreData α β} (hindexed : base.Indexed) :
    (withImmutableBase base).Sound where
  indexed := indexed_empty
  base := fun base' hbase => by
    injection hbase with hbase
    exact hbase ▸ hindexed
  hidden := fun _ _ hsome => nomatch hsome
  distinct := by
    rw [get_withImmutableBase]
    exact hindexed.distinct

/-- Offers read from the bucket list are under their identifiers, each once. -/
structure Entries (entries : List (Int × OfferRecord α β)) : Prop where
  keyed : ∀ entry ∈ entries, entry.1 = entry.2.entry.offerId
  distinct : (entries.map Prod.fst).Nodup

variable {entries : List (Int × OfferRecord α β)}

theorem indexed_foldl {data : OfferStoreData α β} (hindexed : data.Indexed)
    (hentries : Entries entries)
    (hfresh : ∀ entry ∈ entries, ∀ key, (data.offers key).isSome → key.offerId ≠ entry.1) :
    (entries.foldl (fun data entry => putLocal data entry.2) data).Indexed := by
  induction entries generalizing data with
  | nil => exact hindexed
  | cons entry rest ih =>
    have hid := hentries.keyed entry List.mem_cons_self
    have hdistinct := List.nodup_cons.mp hentries.distinct
    apply ih
    · apply hindexed.putLocal
      intro key hkey
      rw [← hid]
      exact hfresh entry List.mem_cons_self key hkey
    · exact ⟨fun entry' hentry' => hentries.keyed entry' (List.mem_cons_of_mem _ hentry'),
        hdistinct.2⟩
    · intro entry' hentry' key hkey
      unfold putLocal at hkey
      dsimp only at hkey
      rw [update_apply] at hkey
      split at hkey
      next hsame =>
        have hne : entry.1 ≠ entry'.1 := fun heq =>
          hdistinct.1 (heq ▸ List.mem_map_of_mem hentry')
        rw [hsame]
        exact fun heq => hne (hid.trans heq)
      · exact hfresh entry' (List.mem_cons_of_mem _ hentry') key hkey

theorem foldl_putLocal (hkeyed : ∀ entry ∈ entries, entry.1 = entry.2.entry.offerId)
    (data : OfferStoreData α β) :
    entries.foldl (fun data entry =>
      { offers := update data.offers entry.2.key (some entry.2)
        orderBook := data.orderBook.addOffer entry.2.entry
        accountAssetIndex := aaIndexInsert data.accountAssetIndex entry.2.entry
        byId := update data.byId entry.1 (some entry.2.key) }) data =
      entries.foldl (fun data entry => putLocal data entry.2) data := by
  induction entries generalizing data with
  | nil => rfl
  | cons entry rest ih =>
    rw [List.foldl_cons, List.foldl_cons, ih fun entry' hentry' =>
      hkeyed entry' (List.mem_cons_of_mem _ hentry'), hkeyed entry List.mem_cons_self]
    rfl

theorem sound_fromBucketListEntries
    (hentries : Entries entries) : (fromBucketListEntries entries).Sound := by
  apply sound_of_indexed
  rw [foldl_putLocal hentries.keyed]
  exact indexed_foldl indexed_empty hentries fun _ _ _ hsome => nomatch hsome

/-! ### Refinement -/

section

variable (store : OfferStore α β)
include store

theorem base_insertRecord (record : OfferRecord α β) :
    (store.insertRecord record).base = store.base := rfl

theorem base_metadataMut (key : OfferKey α) (change : OfferRecord α β → OfferRecord α β) :
    (store.metadataMut key change).base = store.base := by
  rw [metadataMut_eq]
  unfold localCopy
  dsimp only
  split
  · rfl
  · split
    · rfl
    · split <;> rfl

theorem base_apply (op : Op α β) : (store.apply op).base = store.base := by
  cases op with
  | insertRecord record => exact base_insertRecord store record
  | updateOfferEntry entry =>
    unfold apply updateOfferEntry
    dsimp only
    split
    · split <;> rfl
    · split <;> rfl
  | remove key =>
    unfold apply remove
    dsimp only
    split
    · rfl
    · split <;> rfl
  | setMetadata key lastModified sponsor hasExt => exact base_metadataMut store key _
  | setLastModified key lastModified => exact base_metadataMut store key _
  | setSponsorship key sponsor hasExt => exact base_metadataMut store key _
  | takeSponsorship key => exact base_metadataMut store key _
  | setHasExt key hasExt => exact base_metadataMut store key _

theorem base_run (ops : List (Op α β)) : (store.run ops).base = store.base := by
  induction ops generalizing store with
  | nil => rfl
  | cons op ops ih => exact (ih (store.apply op)).trans (base_apply store op)

end

/-- Two stores answer all queries alike. -/
structure Agree (store store' : OfferStore α β) : Prop where
  get : ∀ key, store.get key = store'.get key
  getById : ∀ offerId, store.getById offerId = store'.getById offerId
  bestOffer : ∀ buying selling, store.bestOffer buying selling = store'.bestOffer buying selling
  offersForAssetPair : ∀ buying selling,
    store.offersForAssetPair buying selling = store'.offersForAssetPair buying selling
  getOffersByAccountAndAsset : ∀ accountId asset,
    store.getOffersByAccountAndAsset accountId asset =
      store'.getOffersByAccountAndAsset accountId asset

theorem agree_of_get {store store' : OfferStore α β} (hsound : store.Sound) (hsound' : store'.Sound)
    (hget : store.get = store'.get) : Agree store store' := by
  have hoffers (buying selling : β) :
      store.offersForAssetPair buying selling = store'.offersForAssetPair buying selling := by
    have hlists := offersForAssetPair_lists hsound buying selling
    have hlists' := offersForAssetPair_lists hsound' buying selling
    rw [← hget] at hlists'
    exact hlists.eq hsound.distinct hlists'
  refine ⟨congrFun hget, fun offerId => ?_, fun buying selling => ?_, hoffers,
    fun accountId asset => ?_⟩
  · apply Option.ext
    intro record
    rw [getById_eq_some_iff hsound, getById_eq_some_iff hsound', hget]
  · rw [bestOffer_eq hsound, bestOffer_eq hsound', hoffers]
  · obtain ⟨hnodup, hmem⟩ := getOffersByAccountAndAsset_spec hsound accountId asset
    obtain ⟨hnodup', hmem'⟩ := getOffersByAccountAndAsset_spec hsound' accountId asset
    apply (Multiset.Nodup.ext hnodup hnodup').mpr
    intro offer
    rw [hmem, hmem', hget]

/-- An overlay over a frozen store answers like the owned store after the same operations, and
in both the indexes hold exactly the stored offers. -/
theorem overlay_refines {entries : List (Int × OfferRecord α β)} (hentries : Entries entries)
    {before ops : List (Op α β)} (hbefore : LegalRun (fromBucketListEntries entries) before)
    (hops : LegalRun ((fromBucketListEntries entries).run before) ops) :
    ∃ base, ((fromBucketListEntries entries).run before).intoImmutableBase = some base ∧
      Agree ((withImmutableBase base).run ops)
        (((fromBucketListEntries entries).run before).run ops) ∧
      (((fromBucketListEntries entries).run before).run ops).Sound ∧
      ((withImmutableBase base).run ops).Sound ∧
      ((withImmutableBase base).run ops).base = some base := by
  have hstart := sound_fromBucketListEntries hentries
  obtain ⟨hfrozen, -, -⟩ := run_agree hstart hstart rfl hbefore
  have hnone : ((fromBucketListEntries entries).run before).base = none := base_run _ before
  refine ⟨((fromBucketListEntries entries).run before).data, ?_, ?_⟩
  · rw [intoImmutableBase, hnone]
    rfl
  · have hoverlay := sound_withImmutableBase hfrozen.indexed
    have hget : (withImmutableBase ((fromBucketListEntries entries).run before).data).get =
        ((fromBucketListEntries entries).run before).get := by
      rw [get_withImmutableBase, get_owned hnone]
    obtain ⟨howned', hoverlay', hget'⟩ := run_agree hfrozen hoverlay hget hops
    exact ⟨agree_of_get hoverlay' howned' hget', howned', hoverlay', base_run _ ops⟩

/-- An offer that is there, changes its price and its assets, and is restored with metadata. -/
theorem overlay_refines_moved :
    let price : OfferPrice := ⟨⟨2, 1⟩, by decide, by decide, by decide, by decide⟩
    let offer : OfferEntry Nat Nat := ⟨7, 1, 0, 1, 100, price, 0⟩
    let moved : OfferEntry Nat Nat := ⟨7, 1, 2, 1, 50, price, 0⟩
    let record : OfferRecord Nat Nat := ⟨offer, 3, none, false⟩
    ∃ base, (fromBucketListEntries [(1, record)]).intoImmutableBase = some base ∧
      Agree ((withImmutableBase base).run [.updateOfferEntry moved, .insertRecord record])
        ((fromBucketListEntries [(1, record)]).run
          [.updateOfferEntry moved, .insertRecord record]) := by
  intro price offer moved record
  have hentries : Entries [(1, record)] := by
    refine ⟨fun entry hentry => ?_, List.nodup_singleton _⟩
    rw [List.mem_singleton.mp hentry]
  have hsound := sound_fromBucketListEntries hentries
  have hstored : ((fromBucketListEntries [(1, record)]).get offer.key).isSome := rfl
  have hmoved : Op.Legal (fromBucketListEntries [(1, record)]).get (.updateOfferEntry moved) :=
    hstored
  obtain ⟨hnext, heffect⟩ := hsound.apply hmoved
  have hrestored : Free ((fromBucketListEntries [(1, record)]).apply (.updateOfferEntry moved)).get
      record := by
    apply free_of_get hnext.distinct
    rw [heffect]
    rfl
  have hbefore : LegalRun (fromBucketListEntries [(1, record)]) [] := trivial
  have hops : LegalRun ((fromBucketListEntries [(1, record)]).run [])
      [.updateOfferEntry moved, .insertRecord record] := ⟨hmoved, hrestored, trivial⟩
  obtain ⟨base, hbase, hagree, -⟩ := overlay_refines hentries hbefore hops
  exact ⟨base, hbase, hagree⟩

/-- An update of an offer that is not stored leaves the owned store with an index entry that the
overlay does not have: the offer that comes later is found under an asset it does not trade. -/
theorem overlay_differs_of_absent :
    let price : OfferPrice := ⟨⟨2, 1⟩, by decide, by decide, by decide, by decide⟩
    let absent : OfferEntry Nat Nat := ⟨7, 1, 0, 1, 100, price, 0⟩
    let record : OfferRecord Nat Nat := ⟨⟨7, 1, 2, 3, 100, price, 0⟩, 3, none, false⟩
    let ops := [Op.updateOfferEntry absent, .insertRecord record]
    let owned := (fromBucketListEntries []).run ops
    let overlay := (withImmutableBase (OfferStoreData.empty : OfferStoreData Nat Nat)).run ops
    (fromBucketListEntries ([] : List (Int × OfferRecord Nat Nat))).intoImmutableBase =
        some .empty ∧
      (overlay.getOffersByAccountAndAsset 7 0).card = 0 ∧
      (owned.getOffersByAccountAndAsset 7 0).card = 1 ∧
      ¬ owned.data.Indexed ∧ ¬ Agree overlay owned := by
  intro price absent record ops owned overlay
  have howned : (owned.getOffersByAccountAndAsset 7 0).card = 1 := rfl
  have hoverlay : (overlay.getOffersByAccountAndAsset 7 0).card = 0 := rfl
  refine ⟨rfl, hoverlay, howned, fun hindexed => ?_, fun hagree => ?_⟩
  · have hmem : (1 : Int) ∈ owned.data.accountAssetIndex (7, 0) := by decide
    obtain ⟨stored, hstored, hasset⟩ := hindexed.accounts.mp hmem
    have hrecord : owned.data.offers { seller := 7, offerId := 1 } = some record := rfl
    rw [hrecord, Option.some.injEq] at hstored
    rw [← hstored] at hasset
    revert hasset
    decide
  · have heq := hagree.getOffersByAccountAndAsset 7 0
    rw [heq, howned] at hoverlay
    cases hoverlay

end OfferStore

end Henyey.Offers
