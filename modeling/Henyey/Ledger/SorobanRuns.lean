import Mathlib.Data.Nat.Pairing
import Henyey.Ledger.SorobanMirror

/-!
# Runs of the Soroban state

The entries of a legal ledger may be fed in any order, and every legal change of the
ledger is processed without an error and leaves a state that mirrors the new ledger.
-/

namespace Henyey.Ledger

open Foundation LedgerMap InMemorySorobanState List Option
open LedgerKey (isContract_of_data isContract_of_code)

variable {I D R : Type} [DecidableEq I]

namespace LedgerMap

/-- Put an entry under its own key. -/
def write (ledger : LedgerMap I D) (entry : LedgerEntry I D) : LedgerMap I D :=
  ledger.set (entryToKey entry) (some entry)

variable {ledger : LedgerMap I D}

theorem foldl_write_of_notMem {key : LedgerKey I} (entries : List (LedgerEntry I D))
    (hkey : ∀ entry ∈ entries, entryToKey entry ≠ key) :
    entries.foldl write ledger key = ledger key := by
  induction entries generalizing ledger with
  | nil => rfl
  | cons entry rest ih =>
    rw [foldl_cons, ih fun other hother => hkey other (mem_cons_of_mem _ hother)]
    exact set_of_ne (hkey entry mem_cons_self).symm _

theorem foldl_write_of_mem {entry : LedgerEntry I D} (entries : List (LedgerEntry I D))
    (hnodup : (entries.map entryToKey).Nodup) (hentry : entry ∈ entries) :
    entries.foldl write ledger (entryToKey entry) = some entry := by
  induction entries generalizing ledger with
  | nil => cases hentry
  | cons first rest ih =>
    obtain ⟨hfresh, hrest⟩ := nodup_cons.mp hnodup
    rw [foldl_cons]
    rcases mem_cons.mp hentry with rfl | hmem
    · rw [foldl_write_of_notMem rest]
      · exact set_self _ _
      · intro other hother heq
        exact hfresh (heq ▸ mem_map_of_mem hother)
    · exact ih hrest hmem

end LedgerMap

namespace SorobanCodec

def sizesAfter (codec : SorobanCodec I D R) (protocolVersion : Nat) (rentConfig : Option R)
    (codeSizes : LedgerKey I → Nat) (entry : LedgerEntry I D) : LedgerKey I → Nat :=
  match entry.data with
  | .contractCode .. => Function.update codeSizes (entryToKey entry)
      (codec.calculateCodeSize entry (codec.xdrEncodedLen entry) protocolVersion rentConfig)
  | _ => codeSizes

end SorobanCodec

namespace InMemorySorobanState

variable {codec : SorobanCodec I D R} {ledger ledger' : LedgerMap I D}
  {codeSizes : LedgerKey I → Nat} {s : InMemorySorobanState I D}

/-! ### One entry -/

variable {keyHash : I}

section

variable (hrep : Represents codec ledger codeSizes s)
include hrep

theorem Represents.not_owned (hdata : s.contractDataEntries.lookup keyHash = none)
    (hcode : s.contractCodeEntries.lookup keyHash = none) : ¬ledger.Owned codec keyHash := by
  rintro ⟨key, hkey, rfl, hsome⟩
  obtain ⟨entry, hentry⟩ := isSome_iff_exists.mp hsome
  rcases Bool.or_eq_true_iff.mp hkey with hkey | hkey
  · rw [hrep.data.lookup key hkey, view_of_some hentry] at hdata
    cases hdata
  · rw [hrep.code.lookup key hkey, view_of_some hentry] at hcode
    cases hcode

omit hrep in
/-- A TTL without an entry is inside none. -/
theorem view_setTtl_of_free {α : Type} {held : LedgerKey I → LedgerEntry I D → TtlData → α}
    {key : LedgerKey I} (hfree : ¬ledger.Owned codec keyHash) (hkey : key.isContract = true)
    (ttl : Option (LedgerEntry I D)) :
    (ledger.set (.ttl keyHash) ttl).view codec held key = ledger.view codec held key := by
  have hsame := @set_of_ne I D ledger _ _ _ (ttl_ne_of_isContract hkey keyHash).symm ttl
  by_cases hhash : codec.hashXdr key = keyHash
  · have hnone : ledger key = none :=
      not_isSome_iff_eq_none.mp fun hsome => hfree ⟨key, hkey, hhash, hsome⟩
    rw [view_of_none (hsame.trans hnone), view_of_none hnone]
  · exact view_congr hsame (set_of_ne (fun heq => hhash (LedgerKey.ttl.inj heq)) _) rfl

theorem Represents.createTtl (hseparates : codec.Separates) (hnone : ledger (.ttl keyHash) = none)
    (ttl : LedgerEntry I D) :
    ∃ s', s.createTtl keyHash ttl.ttlData = .ok s' ∧
      Represents codec (ledger.set (.ttl keyHash) (some ttl)) codeSizes s' := by
  have hdefault : ledger.ttlAt keyHash = default := by rw [ttlAt, hnone]; rfl
  unfold InMemorySorobanState.createTtl
  split
  next entry hlookup =>
    obtain ⟨key, hkey, rfl, hview⟩ := hrep.data.view_of_lookup hlookup
    obtain ⟨found, hfound, rfl⟩ := map_eq_some_iff.mp hview
    rw [if_neg (by rw [hdefault]; exact Bool.false_ne_true)]
    exact ⟨_, rfl, hrep.setDataTtl hseparates hlookup ttl⟩
  next hdata =>
    split
    next entry hlookup =>
      obtain ⟨key, hkey, rfl, hview⟩ := hrep.code.view_of_lookup hlookup
      obtain ⟨found, hfound, rfl⟩ := map_eq_some_iff.mp hview
      rw [if_neg (by rw [hdefault]; exact Bool.false_ne_true)]
      exact ⟨_, rfl, hrep.setCodeTtl hseparates hlookup ttl⟩
    next hcode =>
      have hfree : ¬ledger.Owned codec keyHash := hrep.not_owned hdata hcode
      have hpending : s.pendingTtls.lookup keyHash = none := by
        rw [hrep.pending, waiting_of_free hfree, hnone]
        rfl
      rw [hpending]
      refine ⟨_, rfl, ?_⟩
      exact {
        data := hrep.data.congr fun key hkey =>
          (view_setTtl_of_free hfree (isContract_of_data hkey) _).symm
        code := hrep.code.congr fun key hkey =>
          (view_setTtl_of_free hfree (isContract_of_code hkey) _).symm
        config := fun configSettingId => (hrep.config configSettingId).trans
          (set_of_ne (fun heq => by cases heq) _).symm
        pending := fun other => by
          by_cases heq : other = keyHash
          · rw [heq, AList.lookup_insert, waiting_of_free (mt (owned_setTtl _ _ _).mp hfree),
              set_self]
            rfl
          · rw [AList.lookup_insert_ne heq, hrep.pending]
            exact (waiting_congr (owned_setTtl _ _ _)
              (set_of_ne (fun hkey => heq (LedgerKey.ttl.inj hkey)) _)).symm
        dataSize := hrep.dataSize
        codeSize := hrep.codeSize }

theorem Represents.updateTtl (hseparates : codec.Separates) (howned : ledger.Owned codec keyHash)
    (ttl : LedgerEntry I D) :
    ∃ s', s.updateTtl keyHash ttl.ttlData = .ok s' ∧
      Represents codec (ledger.set (.ttl keyHash) (some ttl)) codeSizes s' := by
  unfold InMemorySorobanState.updateTtl
  split
  next entry hlookup => exact ⟨_, rfl, hrep.setDataTtl hseparates hlookup ttl⟩
  next hdata =>
    split
    next entry hlookup => exact ⟨_, rfl, hrep.setCodeTtl hseparates hlookup ttl⟩
    next hcode => exact absurd howned (hrep.not_owned hdata hcode)

theorem Represents.setConfig (configSettingId : I) (entry : LedgerEntry I D) :
    Represents codec (ledger.set (.configSetting configSettingId) (some entry)) codeSizes
      { s with configSettings := s.configSettings.insert configSettingId entry } := by
  refine hrep.congr (fun key hkey => set_of_ne (by rintro rfl; cases hkey) _)
    (fun keyHash => set_of_ne (fun heq => by cases heq) _) fun other => ?_
  by_cases heq : other = configSettingId
  · rw [heq, AList.lookup_insert, set_self]
  · rw [AList.lookup_insert_ne heq, set_of_ne fun hkey => heq (LedgerKey.configSetting.inj hkey)]
    exact hrep.config other

end

variable {key : LedgerKey I}

section

variable (hrep : Represents codec ledger codeSizes s)
include hrep

theorem Represents.set_other (hcontract : key.isContract = false) (httl : key.isTtl = false)
    (hconfig : ∀ configSettingId, key ≠ .configSetting configSettingId)
    (entry : Option (LedgerEntry I D)) : Represents codec (ledger.set key entry) codeSizes s :=
  hrep.congr
    (fun other hother => set_of_ne (by rintro rfl; rw [hcontract] at hother; cases hother) _)
    (fun keyHash => set_of_ne (by rintro rfl; cases httl) _)
    (fun configSettingId =>
      (hrep.config configSettingId).trans (set_of_ne (hconfig configSettingId).symm _).symm)

theorem Represents.processEntryCreate (hseparates : codec.Separates) (protocolVersion : Nat)
    (rentConfig : Option R) {entry : LedgerEntry I D} (hnone : ledger (entryToKey entry) = none) :
    ∃ s', s.processEntryCreate codec protocolVersion rentConfig entry = .ok s' ∧
      Represents codec (ledger.write entry)
        (codec.sizesAfter protocolVersion rentConfig codeSizes entry) s' := by
  obtain ⟨lastModified, data, sponsor⟩ := entry
  cases data with
  | contractData => exact hrep.createContractData hseparates rfl hnone _
  | contractCode => exact hrep.createContractCode hseparates rfl hnone _ _ _
  | ttl keyHash liveUntil =>
    exact hrep.createTtl hseparates hnone ⟨lastModified, .ttl keyHash liveUntil, sponsor⟩
  | configSetting configSettingId body => exact ⟨_, rfl, hrep.setConfig configSettingId _⟩
  | account | trustline | offer | data | claimableBalance | liquidityPool =>
    exact ⟨s, rfl, hrep.set_other rfl rfl (fun _ heq => by cases heq) _⟩

theorem Represents.processEntryUpdate (hseparates : codec.Separates) (protocolVersion : Nat)
    (rentConfig : Option R) {entry : LedgerEntry I D} (hsome : (ledger (entryToKey entry)).isSome)
    (howned : ∀ keyHash, entryToKey entry = .ttl keyHash → ledger.Owned codec keyHash) :
    ∃ s', s.processEntryUpdate codec protocolVersion rentConfig entry = .ok s' ∧
      Represents codec (ledger.write entry)
        (codec.sizesAfter protocolVersion rentConfig codeSizes entry) s' := by
  obtain ⟨lastModified, data, sponsor⟩ := entry
  cases data with
  | contractData => exact hrep.updateContractData hseparates rfl hsome _
  | contractCode => exact hrep.updateContractCode hseparates rfl hsome _ _ _
  | ttl keyHash liveUntil =>
    exact hrep.updateTtl hseparates (howned keyHash rfl)
      ⟨lastModified, .ttl keyHash liveUntil, sponsor⟩
  | configSetting configSettingId body => exact ⟨_, rfl, hrep.setConfig configSettingId _⟩
  | account | trustline | offer | data | claimableBalance | liquidityPool =>
    exact ⟨s, rfl, hrep.set_other rfl rfl (fun _ heq => by cases heq) _⟩

end

def deleteKey (codec : SorobanCodec I D R) (ledger : LedgerMap I D) (key : LedgerKey I) :
    LedgerMap I D :=
  if key.isContract then deleteFrom codec ledger key
  else if key.isTtl then ledger
  else ledger.set key none

/-- Every TTL has an entry that it belongs to. -/
def TtlsOwned (codec : SorobanCodec I D R) (ledger : LedgerMap I D) : Prop :=
  ∀ keyHash, ledger.waiting codec keyHash = none

omit [DecidableEq I] in
theorem ttlsOwned_of_owned
    (howned : ∀ keyHash, (ledger (.ttl keyHash)).isSome → ledger.Owned codec keyHash) :
    TtlsOwned codec ledger := by
  intro keyHash
  by_cases hown : ledger.Owned codec keyHash
  · exact waiting_of_owned hown
  · rw [waiting_of_free hown, not_isSome_iff_eq_none.mp (mt (howned keyHash) hown)]
    rfl

theorem Represents.processEntryDelete (hrep : Represents codec ledger codeSizes s)
    (hseparates : codec.Separates) (howned : TtlsOwned codec ledger)
    (hsome : key.isContract = true → (ledger key).isSome)
    (hconfig : ∀ configSettingId, key ≠ .configSetting configSettingId) :
    ∃ s', s.processEntryDelete codec key = .ok s' ∧
      Represents codec (deleteKey codec ledger key) codeSizes s' := by
  cases key with
  | contractData => exact hrep.deleteContractData hseparates rfl (hsome rfl)
  | contractCode => exact hrep.deleteContractCode hseparates rfl (hsome rfl)
  | ttl keyHash =>
    refine ⟨_, rfl, { hrep with pending := fun other => ?_ }⟩
    change _ = ledger.waiting codec other
    rw [Table.lookup_erase_eq, hrep.pending, howned, ite_self]
  | configSetting configSettingId => exact absurd rfl (hconfig configSettingId)
  | account | trustline | offer | data | claimableBalance | liquidityPool =>
    exact ⟨s, rfl, hrep.set_other rfl rfl (fun _ heq => by cases heq) _⟩

/-! ### Lists of entries -/

theorem Represents.foldlM_create (entries : List (LedgerEntry I D))
    (hrep : Represents codec ledger codeSizes s) (hseparates : codec.Separates)
    (protocolVersion : Nat) (rentConfig : Option R) (hnodup : (entries.map entryToKey).Nodup)
    (hnone : ∀ entry ∈ entries, ledger (entryToKey entry) = none) :
    ∃ s', entries.foldlM (InMemorySorobanState.processEntryCreate codec protocolVersion rentConfig)
        s = .ok s' ∧
      Represents codec (entries.foldl write ledger)
        (entries.foldl (codec.sizesAfter protocolVersion rentConfig) codeSizes) s' := by
  induction entries generalizing ledger codeSizes s with
  | nil => exact ⟨s, rfl, hrep⟩
  | cons entry rest ih =>
    obtain ⟨hfresh, hrest⟩ := nodup_cons.mp hnodup
    obtain ⟨next, hnext, hrep⟩ := hrep.processEntryCreate hseparates protocolVersion rentConfig
      (hnone entry mem_cons_self)
    rw [foldlM_cons, hnext]
    refine ih hrep hrest fun other hother => ?_
    have hne : entryToKey other ≠ entryToKey entry := fun heq =>
      hfresh (heq ▸ mem_map_of_mem hother)
    rw [write, set_of_ne hne]
    exact hnone other (mem_cons_of_mem _ hother)

theorem isSome_write (hsome : (ledger key).isSome) (entry : LedgerEntry I D) :
    (ledger.write entry key).isSome := by
  unfold write
  by_cases heq : key = entryToKey entry
  · rw [heq, set_self]
    rfl
  · rwa [set_of_ne heq]

theorem owned_write (howned : ledger.Owned codec keyHash)
    (entry : LedgerEntry I D) : (ledger.write entry).Owned codec keyHash := by
  obtain ⟨key, hkey, hhash, hsome⟩ := howned
  exact ⟨key, hkey, hhash, isSome_write hsome entry⟩

section

variable (entries : List (LedgerEntry I D))
include entries

theorem isSome_foldl_write
    (hsome : (ledger key).isSome) : (entries.foldl write ledger key).isSome := by
  induction entries generalizing ledger with
  | nil => exact hsome
  | cons entry rest ih => exact ih (isSome_write hsome entry)

theorem owned_foldl_write (howned : ledger.Owned codec keyHash) :
    (entries.foldl write ledger).Owned codec keyHash := by
  obtain ⟨key, hkey, hhash, hsome⟩ := howned
  exact ⟨key, hkey, hhash, isSome_foldl_write entries hsome⟩

theorem Represents.foldlM_update (hrep : Represents codec ledger codeSizes s)
    (hseparates : codec.Separates) (protocolVersion : Nat) (rentConfig : Option R)
    (hsome : ∀ entry ∈ entries, (ledger (entryToKey entry)).isSome)
    (howned : ∀ entry ∈ entries, ∀ keyHash, entryToKey entry = .ttl keyHash →
      ledger.Owned codec keyHash) :
    ∃ s', entries.foldlM (InMemorySorobanState.processEntryUpdate codec protocolVersion rentConfig)
        s = .ok s' ∧
      Represents codec (entries.foldl write ledger)
        (entries.foldl (codec.sizesAfter protocolVersion rentConfig) codeSizes) s' := by
  induction entries generalizing ledger codeSizes s with
  | nil => exact ⟨s, rfl, hrep⟩
  | cons entry rest ih =>
    obtain ⟨next, hnext, hrep⟩ := hrep.processEntryUpdate hseparates protocolVersion rentConfig
      (hsome entry mem_cons_self) (howned entry mem_cons_self)
    rw [foldlM_cons, hnext]
    refine ih hrep (fun other hother => ?_) fun other hother keyHash hkey => ?_
    · exact isSome_write (hsome other (mem_cons_of_mem _ hother)) entry
    · exact owned_write (howned other (mem_cons_of_mem _ hother) keyHash hkey) entry

end

theorem deleteKey_of_ne {key other : LedgerKey I} (hne : other ≠ key)
    (httl : other ≠ .ttl (codec.hashXdr key)) : deleteKey codec ledger key other = ledger other := by
  unfold deleteKey
  split
  · exact changedAt_deleteFrom.agree other hne httl
  · split
    · rfl
    · exact set_of_ne hne _

theorem TtlsOwned.deleteKey (howned : TtlsOwned codec ledger) (key : LedgerKey I) :
    TtlsOwned codec (deleteKey codec ledger key) := by
  intro keyHash
  unfold InMemorySorobanState.deleteKey
  split
  next hkey => rw [changedAt_deleteFrom.waiting hkey, howned, ite_self]
  next hkey =>
    split
    · exact howned keyHash
    next httl =>
      rw [← howned keyHash]
      refine waiting_congr (owned_congr fun other hother _ => ?_) ?_
      · exact set_of_ne (by rintro rfl; exact hkey hother) _
      · exact set_of_ne (by rintro rfl; exact httl rfl) _

theorem deleteKey_of_isContract {key other : LedgerKey I} (hother : other.isContract = true) :
    deleteKey codec ledger key other = if other = key then none else ledger other := by
  split
  next heq => rw [heq, deleteKey, if_pos (heq ▸ hother), deleteFrom_self (heq ▸ hother)]
  next hne => exact deleteKey_of_ne hne (ttl_ne_of_isContract hother _).symm

theorem deleteKey_ttl (keyHash : I) :
    deleteKey codec ledger key (.ttl keyHash) =
      if key.isContract = true ∧ codec.hashXdr key = keyHash then none
      else ledger (.ttl keyHash) := by
  unfold deleteKey
  split
  next hkey =>
    split
    next hboth => rw [deleteFrom, hboth.2, set_self]
    next hother => exact changedAt_deleteFrom.ttl hkey fun heq => hother ⟨hkey, heq.symm⟩
  next hkey =>
    have hneither : ¬(key.isContract = true ∧ codec.hashXdr key = keyHash) := fun hboth =>
      hkey hboth.1
    rw [if_neg hneither]
    split
    · rfl
    next httl => exact set_of_ne (by rintro rfl; exact httl rfl) _

theorem Represents.foldlM_delete (keys : List (LedgerKey I))
    (hrep : Represents codec ledger codeSizes s) (hseparates : codec.Separates)
    (howned : TtlsOwned codec ledger) (hnodup : keys.Nodup)
    (hsome : ∀ key ∈ keys, key.isContract = true → (ledger key).isSome)
    (hconfig : ∀ key ∈ keys, ∀ configSettingId, key ≠ .configSetting configSettingId) :
    ∃ s', keys.foldlM (InMemorySorobanState.processEntryDelete codec) s = .ok s' ∧
      Represents codec (keys.foldl (deleteKey codec) ledger) codeSizes s' := by
  induction keys generalizing ledger s with
  | nil => exact ⟨s, rfl, hrep⟩
  | cons key rest ih =>
    obtain ⟨hfresh, hrest⟩ := nodup_cons.mp hnodup
    obtain ⟨next, hnext, hrep⟩ := hrep.processEntryDelete hseparates howned
      (hsome key mem_cons_self) (hconfig key mem_cons_self)
    rw [foldlM_cons, hnext]
    refine ih hrep (howned.deleteKey key) hrest (fun other hother hcontract => ?_)
      fun other hother => hconfig other (mem_cons_of_mem _ hother)
    rw [deleteKey_of_isContract hcontract, if_neg]
    · exact hsome other (mem_cons_of_mem _ hother) hcontract
    · rintro rfl
      exact hfresh hother

theorem foldl_deleteKey_of_isContract (keys : List (LedgerKey I)) {other : LedgerKey I}
    (hother : other.isContract = true) :
    keys.foldl (deleteKey codec) ledger other = if other ∈ keys then none else ledger other := by
  induction keys generalizing ledger with
  | nil => rw [if_neg not_mem_nil, foldl_nil]
  | cons key rest ih =>
    rw [foldl_cons, ih, deleteKey_of_isContract hother]
    by_cases hmem : other ∈ rest
    · rw [if_pos hmem, if_pos (mem_cons_of_mem _ hmem)]
    · rw [if_neg hmem]
      exact if_congr (by rw [mem_cons, or_iff_left hmem]) rfl rfl

theorem foldl_deleteKey_ttl (codec : SorobanCodec I D R) (ledger : LedgerMap I D)
    (keys : List (LedgerKey I)) (keyHash : I) :
    ((∃ key ∈ keys, key.isContract = true ∧ codec.hashXdr key = keyHash) →
      keys.foldl (deleteKey codec) ledger (.ttl keyHash) = none) ∧
    ((¬∃ key ∈ keys, key.isContract = true ∧ codec.hashXdr key = keyHash) →
      keys.foldl (deleteKey codec) ledger (.ttl keyHash) = ledger (.ttl keyHash)) := by
  induction keys generalizing ledger with
  | nil => exact ⟨fun ⟨_, hmem, _⟩ => absurd hmem not_mem_nil, fun _ => rfl⟩
  | cons key rest ih =>
    obtain ⟨hgone, hkept⟩ := ih (deleteKey codec ledger key)
    simp only [foldl_cons, exists_mem_cons_iff]
    by_cases hrest : ∃ key ∈ rest, key.isContract = true ∧ codec.hashXdr key = keyHash
    · exact ⟨fun _ => hgone hrest, fun hnone => absurd (Or.inr hrest) hnone⟩
    · rw [hkept hrest, deleteKey_ttl]
      refine ⟨fun hsome => if_pos (hsome.resolve_right hrest), fun hnone => if_neg fun hkey => ?_⟩
      exact hnone (Or.inl hkey)

theorem foldl_deleteKey_configSetting (keys : List (LedgerKey I)) {configSettingId : I}
    (hconfig : ∀ key ∈ keys, key ≠ .configSetting configSettingId) :
    keys.foldl (deleteKey codec) ledger (.configSetting configSettingId) =
      ledger (.configSetting configSettingId) := by
  induction keys generalizing ledger with
  | nil => rfl
  | cons key rest ih =>
    rw [foldl_cons, ih fun other hother => hconfig other (mem_cons_of_mem _ hother)]
    exact deleteKey_of_ne (hconfig key mem_cons_self).symm fun heq => by cases heq

end InMemorySorobanState

/-! ### Legal changes -/

namespace LedgerKey

/-- The kinds of entries that the state holds. -/
def IsSoroban (key : LedgerKey I) : Prop :=
  key.isContract = true ∨ key.isTtl = true ∨ ∃ configSettingId, key = .configSetting configSettingId

end LedgerKey

/-- The change of a ledger by created, updated and deleted entries. -/
structure LegalStep (codec : SorobanCodec I D R) (ledger : LedgerMap I D)
    (initEntries liveEntries : List (LedgerEntry I D)) (deadEntries : List (LedgerKey I))
    (ledger' : LedgerMap I D) : Prop where
  legal : ledger'.Legal codec
  distinct : (initEntries.map entryToKey ++ liveEntries.map entryToKey ++ deadEntries).Nodup
  created : ∀ entry ∈ initEntries, ledger (entryToKey entry) = none
  updated : ∀ entry ∈ liveEntries, (ledger (entryToKey entry)).isSome
  deleted : ∀ key ∈ deadEntries, (ledger key).isSome
  noConfig : ∀ key ∈ deadEntries, ∀ configSettingId, key ≠ .configSetting configSettingId
  written : ∀ entry ∈ initEntries ++ liveEntries, ledger' (entryToKey entry) = some entry
  erased : ∀ key ∈ deadEntries, ledger' key = none
  kept : ∀ key, key ∉ (initEntries ++ liveEntries).map entryToKey → key ∉ deadEntries →
    ledger' key = ledger key

namespace LegalStep

variable {codec : SorobanCodec I D R} {ledger ledger' : LedgerMap I D}
  {initEntries liveEntries : List (LedgerEntry I D)} {deadEntries : List (LedgerKey I)}
  {key : LedgerKey I}

section

variable (hstep : LegalStep codec ledger initEntries liveEntries deadEntries ledger')
include hstep

/-- What is not deleted is what was written. -/
theorem foldl_write (hkey : key ∉ deadEntries) :
    liveEntries.foldl write (initEntries.foldl write ledger) key = ledger' key := by
  rw [← foldl_append]
  by_cases hmem : key ∈ (initEntries ++ liveEntries).map entryToKey
  · obtain ⟨entry, hentry, rfl⟩ := mem_map.mp hmem
    have hnodup : ((initEntries ++ liveEntries).map entryToKey).Nodup := by
      rw [map_append]
      exact (nodup_append.mp hstep.distinct).1
    rw [foldl_write_of_mem _ hnodup hentry, hstep.written entry hentry]
  · rw [foldl_write_of_notMem, hstep.kept key hmem hkey]
    rintro entry hentry rfl
    exact hmem (mem_map_of_mem hentry)

/-- What is deleted was not written. -/
theorem foldl_write_of_dead (hkey : key ∈ deadEntries) :
    liveEntries.foldl write (initEntries.foldl write ledger) key = ledger key := by
  rw [← foldl_append]
  refine foldl_write_of_notMem _ fun entry hentry heq => ?_
  have hdisjoint := (nodup_append.mp hstep.distinct).2.2
  rw [← map_append] at hdisjoint
  exact hdisjoint _ (mem_map_of_mem hentry) _ hkey heq

section

variable (hlegal : ledger.Legal codec)
include hlegal

/-- Once everything is written every TTL has its entry. -/
theorem ttlsOwned : InMemorySorobanState.TtlsOwned codec
      (liveEntries.foldl write (initEntries.foldl write ledger)) := by
  refine ttlsOwned_of_owned fun keyHash hsome => ?_
  by_cases hdead : .ttl keyHash ∈ deadEntries
  · rw [hstep.foldl_write_of_dead hdead] at hsome
    rw [← foldl_append]
    exact owned_foldl_write _ (hlegal.owned keyHash hsome)
  · rw [hstep.foldl_write hdead] at hsome
    obtain ⟨key, hkey, hhash, hsome⟩ := hstep.legal.owned keyHash hsome
    refine ⟨key, hkey, hhash, ?_⟩
    rwa [hstep.foldl_write]
    intro hkeyDead
    rw [hstep.erased key hkeyDead] at hsome
    cases hsome

theorem owner_dead {keyHash : I} (hdead : .ttl keyHash ∈ deadEntries) :
    ∃ key ∈ deadEntries, key.isContract = true ∧ codec.hashXdr key = keyHash := by
  obtain ⟨key, hkey, rfl, hsome⟩ := hlegal.owned keyHash (hstep.deleted _ hdead)
  refine ⟨key, ?_, hkey, rfl⟩
  by_contra hlive
  have hgone : ledger' key = none := by
    refine not_isSome_iff_eq_none.mp fun hsome' => ?_
    have httl := (hstep.legal.paired key hkey).mp hsome'
    rw [hstep.erased _ hdead] at httl
    cases httl
  by_cases hmem : key ∈ (initEntries ++ liveEntries).map entryToKey
  · obtain ⟨entry, hentry, rfl⟩ := mem_map.mp hmem
    rw [hstep.written entry hentry] at hgone
    cases hgone
  · rw [hstep.kept key hmem hlive] at hgone
    rw [hgone] at hsome
    cases hsome

/-- Processing the lists leads to the new ledger, as far as the state goes. -/
theorem foldl_eq (hkey : key.IsSoroban) :
    deadEntries.foldl (InMemorySorobanState.deleteKey codec)
      (liveEntries.foldl write (initEntries.foldl write ledger)) key = ledger' key := by
  rcases hkey with hcontract | httl | ⟨configSettingId, rfl⟩
  · rw [foldl_deleteKey_of_isContract _ hcontract]
    split
    next hdead => exact (hstep.erased key hdead).symm
    next hlive => exact hstep.foldl_write hlive
  · obtain ⟨keyHash, rfl⟩ : ∃ keyHash, key = .ttl keyHash := by
      cases key <;> first | exact ⟨_, rfl⟩ | cases httl
    have hfold := foldl_deleteKey_ttl codec
      (liveEntries.foldl write (initEntries.foldl write ledger)) deadEntries
      keyHash
    by_cases howner : ∃ key ∈ deadEntries, key.isContract = true ∧ codec.hashXdr key = keyHash
    · rw [hfold.1 howner]
      obtain ⟨key, hdead, hcontract, rfl⟩ := howner
      refine (not_isSome_iff_eq_none.mp fun hsome => ?_).symm
      have hentry := (hstep.legal.paired key hcontract).mpr hsome
      rw [hstep.erased key hdead] at hentry
      cases hentry
    · rw [hfold.2 howner]
      exact hstep.foldl_write fun hdead => howner (hstep.owner_dead hlegal hdead)
  · rw [foldl_deleteKey_configSetting]
    · exact hstep.foldl_write fun hdead => hstep.noConfig _ hdead configSettingId rfl
    · exact fun key hdead => hstep.noConfig key hdead configSettingId

end

end

end LegalStep

namespace InMemorySorobanState

variable {codec : SorobanCodec I D R} {ledger ledger' : LedgerMap I D}
  {codeSizes : LedgerKey I → Nat} {s : InMemorySorobanState I D}

section

variable (hrep : Represents codec ledger codeSizes s)
include hrep

theorem Represents.of_agree
    (hagree : ∀ key : LedgerKey I, key.IsSoroban → ledger key = ledger' key) :
    Represents codec ledger' codeSizes s :=
  hrep.congr (fun key hkey => (hagree key (Or.inl hkey)).symm)
    (fun _ => (hagree _ (Or.inr (Or.inl rfl))).symm)
    (fun configSettingId => (hrep.config configSettingId).trans
      (hagree _ (Or.inr (Or.inr ⟨configSettingId, rfl⟩))))

/-- Between two steps nothing waits. -/
theorem Represents.pending_empty (hlegal : ledger.Legal codec) : s.pendingTtls.entries = [] := by
  refine eq_nil_iff_forall_not_mem.mpr fun entry hentry => ?_
  have hsome := Table.lookup_of_mem_entries hentry
  rw [hrep.pending, ttlsOwned_of_owned hlegal.owned] at hsome
  cases hsome

/-- A legal change is processed without an error. -/
theorem Represents.updateState (hseparates : codec.Separates) (hlegal : ledger.Legal codec)
    {initEntries liveEntries : List (LedgerEntry I D)} {deadEntries : List (LedgerKey I)}
    (hstep : LegalStep codec ledger initEntries liveEntries deadEntries ledger') {ledgerSeq : Nat}
    (hseq : s.lastClosedLedgerSeq = 0 ∨ ledgerSeq = s.lastClosedLedgerSeq + 1)
    (protocolVersion : Nat) (rentConfig : Option R) :
    ∃ s', s.updateState codec ledgerSeq initEntries liveEntries deadEntries protocolVersion
        rentConfig = .ok s' ∧
      Represents codec ledger' ((initEntries ++ liveEntries).foldl
        (codec.sizesAfter protocolVersion rentConfig) codeSizes) s' ∧
      s'.lastClosedLedgerSeq = ledgerSeq := by
  obtain ⟨hkeys, hdead, hdisjoint⟩ := nodup_append.mp hstep.distinct
  obtain ⟨hinit, hlive, hapart⟩ := nodup_append.mp hkeys
  obtain ⟨created, hcreated, hrep⟩ := hrep.foldlM_create initEntries hseparates protocolVersion
    rentConfig hinit hstep.created
  obtain ⟨updated, hupdated, hrep⟩ := hrep.foldlM_update liveEntries hseparates protocolVersion
    rentConfig (fun entry hentry => isSome_foldl_write initEntries (hstep.updated entry hentry))
    fun entry hentry keyHash hkey =>
      owned_foldl_write initEntries (hlegal.owned keyHash (hkey ▸ hstep.updated entry hentry))
  obtain ⟨deleted, hdeleted, hrep⟩ := hrep.foldlM_delete deadEntries hseparates
    (hstep.ttlsOwned hlegal) hdead
    (fun key hkey _ => by rw [hstep.foldl_write_of_dead hkey]; exact hstep.deleted key hkey)
    hstep.noConfig
  have hclosed : Represents codec ledger' ((initEntries ++ liveEntries).foldl
      (codec.sizesAfter protocolVersion rentConfig) codeSizes)
      (deleted.setLastClosedLedgerSeq ledgerSeq) := by
    rw [foldl_append]
    have hagree := hrep.of_agree fun key hkey => hstep.foldl_eq hlegal hkey
    exact { hagree with }
  refine ⟨_, ?_, hclosed, rfl⟩
  have hempty := hclosed.pending_empty hstep.legal
  have hcheck : ¬(s.lastClosedLedgerSeq > 0 ∧ ledgerSeq ≠ s.lastClosedLedgerSeq + 1) := by
    omega
  simp only [InMemorySorobanState.updateState, if_neg hcheck, hcreated, hupdated, hdeleted, bind,
    Except.bind]
  rw [if_pos (by rw [hempty]; rfl)]

theorem Represents.recomputeContractCodeSizes (protocolVersion : Nat) (rentConfig : Option R) :
    Represents codec ledger
      (fun key => ((ledger key).map fun entry => codec.calculateCodeSize entry
        (codec.xdrEncodedLen entry) protocolVersion rentConfig).getD (codeSizes key))
      (s.recomputeContractCodeSizes codec protocolVersion rentConfig) where
  __ := hrep
  code := (hrep.code.mapValues fun entry => { entry with
      sizeBytes := codec.calculateCodeSize entry.ledgerEntry entry.cachedXdrSize protocolVersion
        rentConfig }).congr fun key _ => by
    unfold view heldCode
    dsimp only
    cases ledger key <;> rfl
  codeSize := rfl

theorem Represents.getTtlEntry (hseparates : codec.Separates) (hlegal : ledger.Legal codec)
    (keyHash : I) : s.getTtlEntry keyHash = ledger (.ttl keyHash) := by
  unfold InMemorySorobanState.getTtlEntry
  by_cases howned : ledger.Owned codec keyHash
  · obtain ⟨key, hkey, rfl, hsome⟩ := howned
    obtain ⟨ttl, httl⟩ := isSome_iff_exists.mp ((hlegal.paired key hkey).mp hsome)
    obtain ⟨entry, hentry⟩ := isSome_iff_exists.mp hsome
    have httlData : ledger.ttlAt (codec.hashXdr key) = ttl.ttlData := by
      rw [ttlAt, httl]
      rfl
    have hread : ((s.contractDataEntries.lookup (codec.hashXdr key)).map (·.ttlData)).or
        ((s.contractCodeEntries.lookup (codec.hashXdr key)).map (·.ttlData)) =
          some ttl.ttlData := by
      rcases Bool.or_eq_true_iff.mp hkey with hdata | hcode
      · rw [hrep.data.lookup key hdata, view_of_some hentry, httlData]
        rfl
      · have hnone : s.contractDataEntries.lookup (codec.hashXdr key) = none := by
          refine eq_none_iff_forall_ne_some.mpr fun found hfound => ?_
          obtain ⟨other, hother, hhash, -⟩ := hrep.data.view_of_lookup hfound
          exact LedgerKey.ne_of_data_of_code hother hcode
            (hseparates other key (isContract_of_data hother) hkey hhash).symm
        rw [hnone, hrep.code.lookup key hcode, view_of_some hentry, httlData]
        rfl
    -- The synthesized entry is the one in the ledger: a TTL has no other content.
    have hkeyed := hlegal.keyed _ _ httl
    have hunsponsored := hlegal.unsponsored _ _ httl
    rw [hread, httl]
    obtain ⟨lastModified, data, sponsor⟩ := ttl
    have hisTtl : (entryToKey (⟨lastModified, data, sponsor⟩ : LedgerEntry I D)).isTtl = true := by
      rw [hkeyed]
      rfl
    obtain ⟨keyHash, liveUntil, hdata⟩ := liveUntil_of_isTtl hisTtl
    dsimp only at hdata hunsponsored
    subst hdata hunsponsored
    obtain rfl := LedgerKey.ttl.inj hkeyed
    rfl
  · have hno : ledger (.ttl keyHash) = none :=
      not_isSome_iff_eq_none.mp fun hsome => howned (hlegal.owned keyHash hsome)
    rw [lookup_of_free hrep.data (fun _ => isContract_of_data) howned,
      lookup_of_free hrep.code (fun _ => isContract_of_code) howned, hno]
    rfl

theorem Represents.get (hseparates : codec.Separates) (hlegal : ledger.Legal codec)
    {key : LedgerKey I} (hkey : key.IsSoroban) : s.get codec key = ledger key := by
  cases key with
  | contractData contract dataKey durability =>
    unfold InMemorySorobanState.get
    rw [hrep.data.lookup _ rfl, view, Option.map_map]
    exact congrFun Option.map_id _
  | contractCode hash =>
    unfold InMemorySorobanState.get
    rw [hrep.code.lookup _ rfl, view, Option.map_map]
    exact congrFun Option.map_id _
  | ttl keyHash => exact hrep.getTtlEntry hseparates hlegal keyHash
  | configSetting configSettingId => exact hrep.config configSettingId
  | account | trustline | offer | data | claimableBalance | liquidityPool =>
    rcases hkey with hcontract | httl | ⟨_, heq⟩
    · cases hcontract
    · cases httl
    · cases heq

end

/-! ### Runs -/

/-- The entries of a ledger that the state is built from, in some order. -/
structure Enumerates (ledger : LedgerMap I D) (entries : List (LedgerEntry I D)) : Prop where
  distinct : (entries.map entryToKey).Nodup
  live : ∀ entry ∈ entries, ledger (entryToKey entry) = some entry
  complete : ∀ key entry, key.IsSoroban → ledger key = some entry → entry ∈ entries

theorem exists_feed (hseparates : codec.Separates) (hlegal : ledger.Legal codec)
    {entries : List (LedgerEntry I D)} (henum : Enumerates ledger entries) (protocolVersion : Nat)
    (rentConfig : Option R) :
    ∃ s', entries.foldlM (processEntryCreate codec protocolVersion rentConfig) new = .ok s' ∧
      Represents codec ledger
        (entries.foldl (codec.sizesAfter protocolVersion rentConfig) fun _ => 0) s' := by
  have hnew : Represents codec (fun _ => none : LedgerMap I D) (fun _ => 0) new :=
    { data := Hashed.empty.congr fun _ _ => rfl
      code := Hashed.empty.congr fun _ _ => rfl
      config := fun _ => AList.lookup_empty _
      pending := fun _ => (AList.lookup_empty _).trans (ite_self _).symm
      dataSize := rfl
      codeSize := rfl }
  obtain ⟨s', hfeed, hrep⟩ := hnew.foldlM_create entries hseparates protocolVersion rentConfig
    henum.distinct fun _ _ => rfl
  refine ⟨s', hfeed, hrep.of_agree fun key hkey => ?_⟩
  cases hentry : ledger key with
  | some entry =>
    have hmem := henum.complete key entry hkey hentry
    rw [← hlegal.keyed key entry hentry]
    exact foldl_write_of_mem entries henum.distinct hmem
  | none =>
    refine foldl_write_of_notMem entries ?_
    rintro entry hmem rfl
    rw [henum.live entry hmem] at hentry
    cases hentry

/-- A state over the ledgers it has gone through, with the snapshots taken of it. -/
inductive Mirroring (codec : SorobanCodec I D R) : InMemorySorobanState I D → LedgerMap I D →
    (LedgerKey I → Nat) → List (InMemorySorobanState I D × LedgerMap I D) → Prop
  | built {ledger : LedgerMap I D} (hlegal : ledger.Legal codec) {entries : List (LedgerEntry I D)}
      (henum : Enumerates ledger entries) (protocolVersion : Nat) (rentConfig : Option R)
      {s : InMemorySorobanState I D}
      (hfeed : entries.foldlM (processEntryCreate codec protocolVersion rentConfig) new = .ok s)
      (ledgerSeq : Nat) :
      Mirroring codec (s.setLastClosedLedgerSeq ledgerSeq) ledger
        (entries.foldl (codec.sizesAfter protocolVersion rentConfig) fun _ => 0) []
  | update {s s' : InMemorySorobanState I D} {ledger ledger' : LedgerMap I D}
      {codeSizes : LedgerKey I → Nat} {taken : List (InMemorySorobanState I D × LedgerMap I D)}
      (hrun : Mirroring codec s ledger codeSizes taken)
      {initEntries liveEntries : List (LedgerEntry I D)} {deadEntries : List (LedgerKey I)}
      (hstep : LegalStep codec ledger initEntries liveEntries deadEntries ledger')
      (protocolVersion : Nat) (rentConfig : Option R)
      (hupdate : s.updateState codec (s.lastClosedLedgerSeq + 1) initEntries liveEntries
        deadEntries protocolVersion rentConfig = .ok s') :
      Mirroring codec s' ledger' ((initEntries ++ liveEntries).foldl
        (codec.sizesAfter protocolVersion rentConfig) codeSizes) taken
  | recompute {s : InMemorySorobanState I D} {ledger : LedgerMap I D}
      {codeSizes : LedgerKey I → Nat} {taken : List (InMemorySorobanState I D × LedgerMap I D)}
      (hrun : Mirroring codec s ledger codeSizes taken) (protocolVersion : Nat)
      (rentConfig : Option R) :
      Mirroring codec (s.recomputeContractCodeSizes codec protocolVersion rentConfig) ledger
        (fun key => ((ledger key).map fun entry => codec.calculateCodeSize entry
          (codec.xdrEncodedLen entry) protocolVersion rentConfig).getD (codeSizes key)) taken
  | snapshot {s : InMemorySorobanState I D} {ledger : LedgerMap I D}
      {codeSizes : LedgerKey I → Nat} {taken : List (InMemorySorobanState I D × LedgerMap I D)}
      (hrun : Mirroring codec s ledger codeSizes taken) :
      Mirroring codec s ledger codeSizes ((s.snapshot, ledger) :: taken)

/-- What a state shows of the ledger it mirrors. -/
structure Mirrors (codec : SorobanCodec I D R) (s : InMemorySorobanState I D)
    (ledger : LedgerMap I D) (codeSizes : LedgerKey I → Nat) : Prop where
  pending_empty : s.pendingTtls.entries = []
  get : ∀ key : LedgerKey I, key.IsSoroban → s.get codec key = ledger key
  dataSize : ∀ keys : List (LedgerKey I), keys.Nodup →
    (∀ key, key ∈ keys ↔ key.isContractData = true ∧ (ledger key).isSome) →
    s.contractDataStateSize =
      (keys.map fun key => ((ledger key).map fun entry => (codec.xdrEncodedLen entry : Int)).getD
        0).sum
  codeSize : ∀ keys : List (LedgerKey I), keys.Nodup →
    (∀ key, key ∈ keys ↔ key.isContractCode = true ∧ (ledger key).isSome) →
    s.contractCodeStateSize = (keys.map fun key => (codeSizes key : Int)).sum

theorem Represents.toMirrors (hrep : Represents codec ledger codeSizes s)
    (hseparates : codec.Separates) (hlegal : ledger.Legal codec) :
    Mirrors codec s ledger codeSizes where
  pending_empty := hrep.pending_empty hlegal
  get _ hkey := hrep.get hseparates hlegal hkey
  dataSize keys hnodup hkeys := by
    rw [hrep.dataSize, hrep.data.tally_eq_sum hseparates.data _ hnodup fun key => ?_]
    · apply congrArg sum
      apply map_congr_left
      intro key _
      rw [view, Option.map_map]
      rfl
    · rw [hkeys, view, Option.isSome_map]
  codeSize keys hnodup hkeys := by
    rw [hrep.codeSize, hrep.code.tally_eq_sum hseparates.code _ hnodup fun key => ?_]
    · apply congrArg sum
      apply map_congr_left
      intro key hkey
      obtain ⟨entry, hentry⟩ := isSome_iff_exists.mp ((hkeys key).mp hkey).2
      rw [view_of_some hentry]
      rfl
    · rw [hkeys, view, Option.isSome_map]

theorem Mirroring.represents {taken : List (InMemorySorobanState I D × LedgerMap I D)}
    (hseparates : codec.Separates) (hrun : Mirroring codec s ledger codeSizes taken) :
    ledger.Legal codec ∧ Represents codec ledger codeSizes s ∧
      ∀ snapshot ∈ taken, snapshot.2.Legal codec ∧
        ∃ sizes, Represents codec snapshot.2 sizes snapshot.1 := by
  induction hrun with
  | built hlegal henum protocolVersion rentConfig hfeed ledgerSeq =>
    obtain ⟨fed, hfed, hrep⟩ := exists_feed hseparates hlegal henum protocolVersion rentConfig
    obtain rfl := Except.ok.inj (hfeed.symm.trans hfed)
    exact ⟨hlegal, { hrep with }, fun _ hmem => absurd hmem not_mem_nil⟩
  | update hrun hstep protocolVersion rentConfig hupdate ih =>
    obtain ⟨hlegal, hrep, htaken⟩ := ih
    obtain ⟨updated, hupdated, hrep', -⟩ := hrep.updateState hseparates hlegal hstep (Or.inr rfl)
      protocolVersion rentConfig
    obtain rfl := Except.ok.inj (hupdate.symm.trans hupdated)
    exact ⟨hstep.legal, hrep', htaken⟩
  | recompute hrun protocolVersion rentConfig ih =>
    obtain ⟨hlegal, hrep, htaken⟩ := ih
    exact ⟨hlegal, hrep.recomputeContractCodeSizes protocolVersion rentConfig, htaken⟩
  | @snapshot s ledger codeSizes taken hrun ih =>
    obtain ⟨hlegal, hrep, htaken⟩ := ih
    refine ⟨hlegal, hrep, fun snapshot hmem => ?_⟩
    rcases mem_cons.mp hmem with rfl | hmem
    · have hnone := hrep.pending_empty hlegal
      have hsame : s.pendingTtls = ∅ := AList.ext hnone
      exact ⟨hlegal, codeSizes, by rw [InMemorySorobanState.snapshot, ← hsame]; exact hrep⟩
    · exact htaken snapshot hmem

/-- From any order of the entries of a legal ledger, over any run of legal changes, the
state mirrors the ledger, the next legal change succeeds, and snapshots stay as they
were taken. -/
theorem Mirroring.mirrors (codec : SorobanCodec I D R) (hseparates : codec.Separates) :
    (∀ (ledger : LedgerMap I D) (entries : List (LedgerEntry I D)), ledger.Legal codec →
      Enumerates ledger entries → ∀ protocolVersion rentConfig,
      ∃ s, entries.foldlM (processEntryCreate codec protocolVersion rentConfig) new = .ok s) ∧
    ∀ s (ledger : LedgerMap I D) codeSizes taken, Mirroring codec s ledger codeSizes taken →
      Mirrors codec s ledger codeSizes ∧
      (∀ initEntries liveEntries deadEntries ledger',
        LegalStep codec ledger initEntries liveEntries deadEntries ledger' →
        ∀ protocolVersion rentConfig, ∃ s', s.updateState codec (s.lastClosedLedgerSeq + 1)
          initEntries liveEntries deadEntries protocolVersion rentConfig = .ok s') ∧
      ∀ snapshot ∈ taken, ∀ key : LedgerKey I, key.IsSoroban →
        snapshot.1.get codec key = snapshot.2 key := by
  constructor
  · intro ledger entries hlegal henum protocolVersion rentConfig
    obtain ⟨s, hfeed, -⟩ := exists_feed hseparates hlegal henum protocolVersion rentConfig
    exact ⟨s, hfeed⟩
  · intro s ledger codeSizes taken hrun
    obtain ⟨hlegal, hrep, htaken⟩ := hrun.represents hseparates
    refine ⟨hrep.toMirrors hseparates hlegal, ?_, ?_⟩
    · intro initEntries liveEntries deadEntries ledger' hstep protocolVersion rentConfig
      obtain ⟨s', hupdate, -⟩ := hrep.updateState hseparates hlegal hstep (Or.inr rfl)
        protocolVersion rentConfig
      exact ⟨s', hupdate⟩
    · intro snapshot hmem key hkey
      obtain ⟨hpast, sizes, hrep⟩ := htaken snapshot hmem
      exact hrep.get hseparates hpast hkey

/-! ### A short run -/

def numberedCodec : SorobanCodec Nat Nat Unit where
  hashXdr
    | .contractData contract key durability =>
      2 * Nat.pair contract (Nat.pair key (if durability = .temporary then 0 else 1))
    | .contractCode hash => 2 * hash + 1
    | _ => 0
  xdrEncodedLen entry :=
    match entry.data with
    | .contractData _ _ _ body => body
    | .contractCode _ body => body
    | _ => 0
  entrySizeForRentP24 _ _ xdrSize _ := xdrSize
  entrySizeForRentP25 _ _ xdrSize := some (xdrSize + 1)
  entrySizeForRentP26 _ _ xdrSize := some (xdrSize + 1)
  entrySizeForRentP27 _ _ _ := none

theorem numberedCodec_separates : numberedCodec.Separates := by
  intro key key' hkey hkey' hhash
  cases key with
  | contractData contract dataKey durability =>
    cases key' with
    | contractData contract' dataKey' durability' =>
      have hpairs := Nat.eq_of_mul_eq_mul_left Nat.zero_lt_two hhash
      obtain ⟨rfl, hrest⟩ := Nat.pair_eq_pair.mp hpairs
      obtain ⟨rfl, hdurability⟩ := Nat.pair_eq_pair.mp hrest
      cases durability <;> cases durability' <;> first | rfl | cases hdurability
    | contractCode hash => simp only [numberedCodec] at hhash; omega
    | account | trustline | offer | data | claimableBalance | liquidityPool | configSetting | ttl =>
      cases hkey'
  | contractCode hash =>
    cases key' with
    | contractData contract dataKey durability => simp only [numberedCodec] at hhash; omega
    | contractCode hash' =>
      simp only [numberedCodec] at hhash
      congr 1
      omega
    | account | trustline | offer | data | claimableBalance | liquidityPool | configSetting | ttl =>
      cases hkey'
  | account | trustline | offer | data | claimableBalance | liquidityPool | configSetting | ttl =>
    cases hkey

def ttlOf (entry : LedgerEntry Nat Nat) : LedgerEntry Nat Nat :=
  ⟨5, .ttl (numberedCodec.hashXdr (entryToKey entry)) 100, none⟩

/-- The ledger of some contract entries and their TTLs. -/
def holding (contracts : List (LedgerEntry Nat Nat)) : LedgerMap Nat Nat := fun key =>
  (contracts ++ contracts.map ttlOf).find? fun entry => entryToKey entry = key

theorem holding_isSome {contracts : List (LedgerEntry Nat Nat)} {key : LedgerKey Nat} :
    (holding contracts key).isSome ↔
      key ∈ contracts.map entryToKey ∨ ∃ entry ∈ contracts, entryToKey (ttlOf entry) = key := by
  rw [holding, find?_isSome]
  simp [or_and_right, exists_or]

/-- Contract entries with their TTLs make a legal ledger. -/
theorem holding_legal {contracts : List (LedgerEntry Nat Nat)}
    (hcontracts : ∀ entry ∈ contracts, (entryToKey entry).isContract = true) :
    (holding contracts).Legal numberedCodec where
  keyed key entry hentry := by simpa using find?_some hentry
  paired key hkey := by
    rw [holding_isSome, holding_isSome]
    constructor
    · rintro (hmem | ⟨entry, -, rfl⟩)
      · obtain ⟨entry, hentry, rfl⟩ := mem_map.mp hmem
        exact .inr ⟨entry, hentry, rfl⟩
      · cases hkey
    · rintro (hmem | ⟨entry, hentry, httl⟩)
      · obtain ⟨entry, hentry, httl⟩ := mem_map.mp hmem
        exact absurd httl.symm (ttl_ne_of_isContract (hcontracts entry hentry) _)
      · rw [← numberedCodec_separates _ key (hcontracts entry hentry) hkey (LedgerKey.ttl.inj httl)]
        exact .inl (mem_map_of_mem hentry)
  owned keyHash hsome := by
    rcases holding_isSome.mp hsome with hmem | ⟨entry, hentry, httl⟩
    · obtain ⟨entry, hentry, httl⟩ := mem_map.mp hmem
      exact absurd httl.symm (ttl_ne_of_isContract (hcontracts entry hentry) _)
    · exact ⟨entryToKey entry, hcontracts entry hentry, LedgerKey.ttl.inj httl,
        holding_isSome.mpr (.inl (mem_map_of_mem hentry))⟩
  unsponsored keyHash entry hentry := by
    rcases mem_append.mp (mem_of_find?_eq_some hentry) with hmem | hmem
    · have hkey : entryToKey entry = .ttl keyHash := by simpa using find?_some hentry
      exact absurd hkey.symm (ttl_ne_of_isContract (hcontracts entry hmem) _)
    · obtain ⟨owner, -, rfl⟩ := mem_map.mp hmem
      rfl

def dataKey : LedgerKey Nat := .contractData 1 2 .persistent

def dataEntry (body : Nat) : LedgerEntry Nat Nat := ⟨5, .contractData 1 2 .persistent body, none⟩

def codeEntry : LedgerEntry Nat Nat := ⟨5, .contractCode 7 30, none⟩

theorem dataEntry_enumerates :
    Enumerates (holding [dataEntry 40]) [ttlOf (dataEntry 40), dataEntry 40] where
  distinct := by decide
  live := by decide
  complete key entry _ hentry := by
    have hmem := mem_of_find?_eq_some hentry
    rwa [map_cons, map_nil, singleton_append, mem_pair, or_comm, ← mem_pair] at hmem

/-- Code is created and the data entry written. -/
theorem legalStep_create : LegalStep numberedCodec (holding [dataEntry 40])
    [codeEntry, ttlOf codeEntry] [dataEntry 50] [] (holding [dataEntry 50, codeEntry]) where
  legal := holding_legal (by decide)
  distinct := by decide
  created := by decide
  updated := by decide
  deleted := by decide
  noConfig := nofun
  written := by decide
  erased := by decide
  kept key hkey _ := by
    simp only [map_append, map_cons, map_nil, mem_append, mem_cons,
      not_mem_nil, or_false, not_or] at hkey
    obtain ⟨⟨hcode, httl⟩, hdata⟩ := hkey
    have hdata' : entryToKey (dataEntry 40) ≠ key := fun heq => hdata heq.symm
    simp [holding, find?_cons, Ne.symm hcode, Ne.symm httl, Ne.symm hdata, hdata']
    rfl

/-- The data entry is deleted with its TTL. -/
theorem legalStep_delete : LegalStep numberedCodec (holding [dataEntry 50, codeEntry]) [] []
    [dataKey, entryToKey (ttlOf (dataEntry 50))] (holding [codeEntry]) where
  legal := holding_legal (by decide)
  distinct := by decide
  created := by decide
  updated := by decide
  deleted := by decide
  noConfig := by
    intro key hkey configSettingId
    rcases mem_pair.mp hkey with rfl | rfl <;> exact nofun
  written := by decide
  erased := by decide
  kept key _ hkey := by
    obtain ⟨hdata, httl⟩ := not_or.mp (mt mem_pair.mpr hkey)
    have hdata' : entryToKey (dataEntry 50) ≠ key := fun heq => hdata heq.symm
    simp [holding, find?_cons, hdata', Ne.symm httl]

/-- Fed with the TTL first, the state takes in a code entry and loses its data entry; a
snapshot keeps that. -/
theorem Mirroring.mirrors_legalSteps : ∃ s created deleted,
    [ttlOf (dataEntry 40), dataEntry 40].foldlM (processEntryCreate numberedCodec 25 none) new =
        .ok s ∧
      (s.setLastClosedLedgerSeq 5).updateState numberedCodec 6 [codeEntry, ttlOf codeEntry]
        [dataEntry 50] [] 25 none = .ok created ∧
      created.updateState numberedCodec (created.lastClosedLedgerSeq + 1) [] []
        [dataKey, entryToKey (ttlOf (dataEntry 50))] 25 none = .ok deleted ∧
      created.get numberedCodec dataKey = some (dataEntry 50) ∧
      deleted.get numberedCodec dataKey = none ∧
      deleted.get numberedCodec (entryToKey codeEntry) = some codeEntry ∧
      deleted.contractDataStateSize = 0 ∧ deleted.contractCodeStateSize = 31 ∧
      created.snapshot.get numberedCodec dataKey = some (dataEntry 50) := by
  obtain ⟨hfeeds, hruns⟩ := Mirroring.mirrors numberedCodec numberedCodec_separates
  obtain ⟨s, hfeed⟩ := hfeeds _ _ (holding_legal (by decide)) dataEntry_enumerates 25 none
  have hbuilt := Mirroring.built (holding_legal (by decide)) dataEntry_enumerates 25 none hfeed 5
  obtain ⟨created, hcreated⟩ := (hruns _ _ _ _ hbuilt).2.1 _ _ _ _ legalStep_create 25 none
  have htaken := (hbuilt.update legalStep_create 25 none hcreated).snapshot
  obtain ⟨hmirrors, hsteps, -⟩ := hruns _ _ _ _ htaken
  obtain ⟨deleted, hdeleted⟩ := hsteps _ _ _ _ legalStep_delete 25 none
  obtain ⟨hmirrors', -, hkept⟩ :=
    hruns _ _ _ _ (htaken.update legalStep_delete 25 none hdeleted)
  refine ⟨s, created, deleted, hfeed, hcreated, hdeleted, hmirrors.get dataKey (.inl rfl),
    hmirrors'.get dataKey (.inl rfl), hmirrors'.get _ (.inl rfl), ?_, ?_,
    hkept _ mem_cons_self dataKey (.inl rfl)⟩
  · refine hmirrors'.dataSize [] nodup_nil fun key => ?_
    refine iff_of_false not_mem_nil fun ⟨hkey, hsome⟩ => ?_
    rcases holding_isSome.mp hsome with hmem | ⟨entry, -, rfl⟩
    · rw [mem_singleton.mp hmem] at hkey
      cases hkey
    · cases hkey
  · refine (hmirrors'.codeSize [entryToKey codeEntry] (nodup_singleton _) fun key => ?_).trans
      rfl
    rw [mem_singleton]
    constructor
    · rintro rfl
      exact ⟨rfl, rfl⟩
    · rintro ⟨hkey, hsome⟩
      rcases holding_isSome.mp hsome with hmem | ⟨entry, -, rfl⟩
      · exact mem_singleton.mp hmem
      · cases hkey

end InMemorySorobanState

end Henyey.Ledger
