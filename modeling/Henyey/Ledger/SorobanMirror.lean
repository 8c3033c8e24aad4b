import Henyey.Ledger.SorobanState

/-!
# The Soroban state mirrors the ledger

While the entries of a ledger are processed, the state stands for the ledger they are
read into: a TTL is inside its entry when that entry is there and waits otherwise.
-/

namespace Henyey.Ledger

open Foundation LedgerKey
open LedgerKey
open Function
open Table

variable {I D R : Type}

namespace LedgerKey

def isContractData : LedgerKey I → Bool
  | .contractData .. => true
  | _ => false

def isContractCode : LedgerKey I → Bool
  | .contractCode _ => true
  | _ => false

/-- The keys whose entries have a TTL. -/
def isContract (key : LedgerKey I) : Bool := key.isContractData || key.isContractCode

end LedgerKey

variable {key : LedgerKey I}

theorem LedgerKey.isContract_of_data (hkey : key.isContractData = true) :
    key.isContract = true := by
  rw [isContract, hkey, Bool.true_or]

theorem LedgerKey.isContract_of_code (hkey : key.isContractCode = true) :
    key.isContract = true := by
  rw [isContract, hkey, Bool.or_true]

theorem LedgerKey.ne_of_data_of_code {data code : LedgerKey I} (hdata : data.isContractData = true)
    (hcode : code.isContractCode = true) : code ≠ data := by
  rintro rfl
  cases code <;> simp [isContractData, isContractCode] at hdata hcode

theorem ttl_ne_of_isContract (hkey : key.isContract = true) (keyHash : I) : ttl keyHash ≠ key := by
  rintro rfl
  cases hkey

namespace SorobanCodec

/-- The hash tells the keys of contract data and code apart. -/
def Separates (codec : SorobanCodec I D R) : Prop :=
  ∀ key key', key.isContract = true → key'.isContract = true →
    codec.hashXdr key = codec.hashXdr key' → key = key'

variable {codec : SorobanCodec I D R}

theorem Separates.data (hseparates : codec.Separates) (key key' : LedgerKey I)
    (hkey : key.isContractData = true) (hkey' : key'.isContractData = true) :
    codec.hashXdr key = codec.hashXdr key' → key = key' :=
  hseparates key key' (isContract_of_data hkey) (isContract_of_data hkey')

theorem Separates.code (hseparates : codec.Separates) (key key' : LedgerKey I)
    (hkey : key.isContractCode = true) (hkey' : key'.isContractCode = true) :
    codec.hashXdr key = codec.hashXdr key' → key = key' :=
  hseparates key key' (isContract_of_code hkey) (isContract_of_code hkey')

end SorobanCodec

/-- What a TTL entry leaves inside the entry it belongs to. -/
def LedgerEntry.ttlData (entry : LedgerEntry I D) : TtlData :=
  ⟨entry.liveUntil, entry.lastModifiedLedgerSeq⟩

namespace LedgerMap

variable (ledger : LedgerMap I D) (codec : SorobanCodec I D R)

def ttlAt (keyHash : I) : TtlData :=
  ((ledger (.ttl keyHash)).map LedgerEntry.ttlData).getD default

/-- The ledger has an entry for the TTL to belong to. -/
def Owned (keyHash : I) : Prop :=
  ∃ key, key.isContract = true ∧ codec.hashXdr key = keyHash ∧ (ledger key).isSome

/-- Contract entries as the state holds them, each with its TTL. -/
def view {α : Type} (held : LedgerKey I → LedgerEntry I D → TtlData → α) (key : LedgerKey I) :
    Option α :=
  (ledger key).map fun entry => held key entry (ledger.ttlAt (codec.hashXdr key))

open Classical in
/-- A TTL that no entry has yet. -/
noncomputable def waiting (keyHash : I) : Option TtlData :=
  if ledger.Owned codec keyHash then none else (ledger (.ttl keyHash)).map LedgerEntry.ttlData

/-- A ledger as it is between two steps: every contract entry with its TTL. -/
structure Legal : Prop where
  keyed : ∀ key entry, ledger key = some entry → entryToKey entry = key
  paired : ∀ key, key.isContract = true →
    ((ledger key).isSome ↔ (ledger (.ttl (codec.hashXdr key))).isSome)
  owned : ∀ keyHash, (ledger (.ttl keyHash)).isSome → ledger.Owned codec keyHash
  unsponsored : ∀ keyHash entry, ledger (.ttl keyHash) = some entry → entry.sponsoringId = none

end LedgerMap

namespace InMemorySorobanState

variable [DecidableEq I]

def heldData (_ : LedgerKey I) (entry : LedgerEntry I D) (ttlData : TtlData) :
    ContractDataMapEntry I D :=
  ⟨entry, ttlData⟩

/-- Code is held at its last computed size. -/
def heldCode (codec : SorobanCodec I D R) (codeSizes : LedgerKey I → Nat) (key : LedgerKey I)
    (entry : LedgerEntry I D) (ttlData : TtlData) : ContractCodeMapEntry I D :=
  ⟨entry, ttlData, codeSizes key, codec.xdrEncodedLen entry⟩

/-- The state stands for the ledger, with the code sizes as last computed. -/
structure Represents (codec : SorobanCodec I D R) (ledger : LedgerMap I D)
    (codeSizes : LedgerKey I → Nat) (s : InMemorySorobanState I D) : Prop where
  data : Hashed codec.hashXdr isContractData (ledger.view codec heldData)
    s.contractDataEntries
  code : Hashed codec.hashXdr isContractCode (ledger.view codec (heldCode codec codeSizes))
    s.contractCodeEntries
  config : ∀ configSettingId,
    s.configSettings.lookup configSettingId = ledger (.configSetting configSettingId)
  pending : ∀ keyHash, s.pendingTtls.lookup keyHash = ledger.waiting codec keyHash
  dataSize : s.contractDataStateSize =
    s.contractDataEntries.tally fun _ entry => codec.xdrEncodedLen entry.ledgerEntry
  codeSize : s.contractCodeStateSize = s.contractCodeEntries.tally fun _ entry => entry.sizeBytes

end InMemorySorobanState

namespace LedgerMap

variable {codec : SorobanCodec I D R} {ledger ledger' : LedgerMap I D} {α : Type}
  {held held' : LedgerKey I → LedgerEntry I D → TtlData → α} {key : LedgerKey I} {keyHash : I}

theorem ttlAt_congr (hagree : ledger' (.ttl keyHash) = ledger (.ttl keyHash)) :
    ledger'.ttlAt keyHash = ledger.ttlAt keyHash := by
  rw [ttlAt, ttlAt, hagree]

theorem view_congr (hkey : ledger' key = ledger key)
    (httl : ledger' (.ttl (codec.hashXdr key)) = ledger (.ttl (codec.hashXdr key)))
    (hheld : held' key = held key) : ledger'.view codec held' key = ledger.view codec held key := by
  rw [view, view, hkey, ttlAt_congr httl, hheld]

theorem view_of_some {entry : LedgerEntry I D} (hentry : ledger key = some entry) :
    ledger.view codec held key = some (held key entry (ledger.ttlAt (codec.hashXdr key))) := by
  rw [view, hentry]
  rfl

theorem view_of_none (hnone : ledger key = none) : ledger.view codec held key = none := by
  rw [view, hnone]
  rfl

theorem owned_congr (hagree : ∀ key, key.isContract = true → codec.hashXdr key = keyHash →
    ledger' key = ledger key) : ledger'.Owned codec keyHash ↔ ledger.Owned codec keyHash := by
  constructor
  · rintro ⟨key, hkey, hhash, hsome⟩
    exact ⟨key, hkey, hhash, hagree key hkey hhash ▸ hsome⟩
  · rintro ⟨key, hkey, hhash, hsome⟩
    exact ⟨key, hkey, hhash, (hagree key hkey hhash).symm ▸ hsome⟩

theorem waiting_of_owned (howned : ledger.Owned codec keyHash) :
    ledger.waiting codec keyHash = none :=
  if_pos howned

theorem waiting_of_free (hfree : ¬ledger.Owned codec keyHash) :
    ledger.waiting codec keyHash = (ledger (.ttl keyHash)).map LedgerEntry.ttlData :=
  if_neg hfree

theorem waiting_congr (howned : ledger'.Owned codec keyHash ↔ ledger.Owned codec keyHash)
    (httl : ledger' (.ttl keyHash) = ledger (.ttl keyHash)) :
    ledger'.waiting codec keyHash = ledger.waiting codec keyHash := by
  by_cases hown : ledger.Owned codec keyHash
  · rw [waiting_of_owned hown, waiting_of_owned (howned.mpr hown)]
  · rw [waiting_of_free hown, waiting_of_free (mt howned.mp hown), httl]

/-- Write or erase the entry of one key. -/
def set [DecidableEq I] (ledger : LedgerMap I D) (key : LedgerKey I)
    (entry : Option (LedgerEntry I D)) : LedgerMap I D :=
  update ledger key entry

@[simp]
theorem set_self [DecidableEq I] (key : LedgerKey I) (entry : Option (LedgerEntry I D)) :
    ledger.set key entry key = entry :=
  update_self _ _ _

theorem set_of_ne [DecidableEq I] {key other : LedgerKey I} (hne : other ≠ key)
    (entry : Option (LedgerEntry I D)) : ledger.set key entry other = ledger other :=
  update_of_ne hne _ _

theorem owned_setTtl [DecidableEq I] (keyHash : I) (ttl : Option (LedgerEntry I D)) (other : I) :
    (ledger.set (.ttl keyHash) ttl).Owned codec other ↔ ledger.Owned codec other :=
  owned_congr fun _ hkey _ => set_of_ne (ttl_ne_of_isContract hkey _).symm _

theorem not_owned_of_none (hseparates : codec.Separates) (hkey : key.isContract = true)
    (hnone : ledger key = none) : ¬ledger.Owned codec (codec.hashXdr key) := by
  rintro ⟨other, hother, hhash, hsome⟩
  rw [hseparates other key hother hkey hhash, hnone] at hsome
  cases hsome

/-! ### A change of one contract entry -/

/-- Apart from a contract entry and its TTL nothing changes, and that TTL does not wait. -/
structure ChangedAt (codec : SorobanCodec I D R) (key : LedgerKey I) (ledger ledger' : LedgerMap I D) :
    Prop where
  agree : ∀ other, other ≠ key → other ≠ .ttl (codec.hashXdr key) → ledger' other = ledger other
  settled : ledger'.waiting codec (codec.hashXdr key) = none

namespace ChangedAt

variable (hchanged : ChangedAt codec key ledger ledger') (hkey : key.isContract = true)
include hchanged hkey

theorem ttl (hne : keyHash ≠ codec.hashXdr key) : ledger' (.ttl keyHash) = ledger (.ttl keyHash) :=
  hchanged.agree _ (ttl_ne_of_isContract hkey _) fun heq => hne (ttl.inj heq)

theorem config (configSettingId : I) :
    ledger' (.configSetting configSettingId) = ledger (.configSetting configSettingId) :=
  hchanged.agree _ (by rintro rfl; cases hkey) fun heq => by cases heq

theorem waiting [DecidableEq I] (keyHash : I) : ledger'.waiting codec keyHash =
    if keyHash = codec.hashXdr key then none else ledger.waiting codec keyHash := by
  split
  next heq => rw [heq, hchanged.settled]
  next hne =>
    refine waiting_congr (owned_congr fun other hother hhash => ?_) (hchanged.ttl hkey hne)
    refine hchanged.agree other ?_ (ttl_ne_of_isContract hother _).symm
    rintro rfl
    exact hne hhash.symm

/-- The other contract entries are held as before. -/
theorem view (hseparates : codec.Separates) {other : LedgerKey I}
    (hother : other.isContract = true) (hne : other ≠ key) (hheld : held' other = held other) :
    ledger'.view codec held' other = ledger.view codec held other :=
  view_congr (hchanged.agree other hne (ttl_ne_of_isContract hother _).symm)
    (hchanged.ttl hkey fun hhash => hne (hseparates other key hother hkey hhash)) hheld

end ChangedAt

variable [DecidableEq I]

/-- Deleting a contract entry takes its TTL with it. -/
def deleteFrom (codec : SorobanCodec I D R) (ledger : LedgerMap I D) (key : LedgerKey I) :
    LedgerMap I D :=
  (ledger.set key none).set (.ttl (codec.hashXdr key)) none

theorem changedAt_set (hkey : key.isContract = true) (entry : LedgerEntry I D) :
    ChangedAt codec key ledger (ledger.set key (some entry)) where
  agree _ hne _ := set_of_ne hne _
  settled := waiting_of_owned ⟨key, hkey, rfl, by rw [set_self]; rfl⟩

theorem changedAt_deleteFrom : ChangedAt codec key ledger (deleteFrom codec ledger key) where
  agree _ hne httl := (set_of_ne httl _).trans (set_of_ne hne _)
  settled := by
    unfold LedgerMap.waiting deleteFrom
    rw [set_self]
    split <;> rfl

theorem changedAt_setTtl (hkey : key.isContract = true) (hsome : (ledger key).isSome)
    (ttl : LedgerEntry I D) :
    ChangedAt codec key ledger (ledger.set (.ttl (codec.hashXdr key)) (some ttl)) where
  agree _ _ httl := set_of_ne httl _
  settled := waiting_of_owned ((owned_setTtl _ _ _).mpr ⟨key, hkey, rfl, hsome⟩)

theorem deleteFrom_self (hkey : key.isContract = true) : deleteFrom codec ledger key key = none := by
  rw [deleteFrom, set_of_ne (ttl_ne_of_isContract hkey _).symm, set_self]

theorem view_set (hkey : key.isContract = true) (entry : LedgerEntry I D) :
    (ledger.set key (some entry)).view codec held key =
      some (held key entry (ledger.ttlAt (codec.hashXdr key))) := by
  rw [view_of_some (set_self _ _), ttlAt_congr (set_of_ne (ttl_ne_of_isContract hkey _) _)]

theorem view_setTtl (hkey : key.isContract = true) {entry : LedgerEntry I D}
    (hentry : ledger key = some entry) (ttl : LedgerEntry I D) :
    (ledger.set (.ttl (codec.hashXdr key)) (some ttl)).view codec held key =
      some (held key entry ttl.ttlData) := by
  rw [view_of_some ((set_of_ne (ttl_ne_of_isContract hkey _).symm _).trans hentry), ttlAt, set_self]
  rfl

end LedgerMap

namespace InMemorySorobanState

open LedgerMap

variable [DecidableEq I] {codec : SorobanCodec I D R} {ledger ledger' : LedgerMap I D}
  {codeSizes codeSizes' : LedgerKey I → Nat} {s : InMemorySorobanState I D} {key : LedgerKey I}
  {keyHash : I}

theorem lookup_of_free {α : Type} {held : LedgerKey I → LedgerEntry I D → TtlData → α}
    {keep : LedgerKey I → Bool} {table : Table I α}
    (hheld : Hashed codec.hashXdr keep (ledger.view codec held) table)
    (hkeep : ∀ key, keep key = true → key.isContract = true) (hfree : ¬ledger.Owned codec keyHash) :
    table.lookup keyHash = none := by
  refine Option.eq_none_iff_forall_ne_some.mpr fun entry hlookup => hfree ?_
  obtain ⟨key, hkey, hhash, hview⟩ := hheld.view_of_lookup hlookup
  obtain ⟨found, hfound, -⟩ := Option.map_eq_some_iff.mp hview
  exact ⟨key, hkeep key hkey, hhash, hfound ▸ rfl⟩

section

variable (hrep : Represents codec ledger codeSizes s)
include hrep

/-- Only the entries of the kinds that the state holds matter. -/
theorem Represents.congr (hcontract : ∀ key, key.isContract = true → ledger' key = ledger key)
    (httl : ∀ keyHash, ledger' (.ttl keyHash) = ledger (.ttl keyHash))
    {configSettings : Table I (LedgerEntry I D)} (hconfig : ∀ configSettingId,
      configSettings.lookup configSettingId = ledger' (.configSetting configSettingId)) :
    Represents codec ledger' codeSizes { s with configSettings } where
  data := hrep.data.congr fun key hkey =>
    (view_congr (hcontract key (isContract_of_data hkey)) (httl _) rfl).symm
  code := hrep.code.congr fun key hkey =>
    (view_congr (hcontract key (isContract_of_code hkey)) (httl _) rfl).symm
  config := hconfig
  pending keyHash := (hrep.pending keyHash).trans
    (waiting_congr (owned_congr fun key hkey _ => hcontract key hkey) (httl keyHash)).symm
  dataSize := hrep.dataSize
  codeSize := hrep.codeSize

/-- Nothing waits for an entry that is there. -/
theorem Represents.pending_of_isSome (hkey : key.isContract = true) (hsome : (ledger key).isSome)
    (keyHash : I) : s.pendingTtls.lookup keyHash =
      if keyHash = codec.hashXdr key then none else s.pendingTtls.lookup keyHash := by
  split
  next heq => rw [heq, hrep.pending, waiting_of_owned ⟨key, hkey, rfl, hsome⟩]
  · rfl

theorem Represents.pending_getD (hfree : ¬ledger.Owned codec keyHash) :
    (s.pendingTtls.lookup keyHash).getD default = ledger.ttlAt keyHash := by
  rw [hrep.pending, waiting_of_free hfree, ttlAt]

variable (hseparates : codec.Separates) (hchanged : ChangedAt codec key ledger ledger')
  {pendingTtls : Table I TtlData} (hpending : ∀ keyHash, pendingTtls.lookup keyHash =
    if keyHash = codec.hashXdr key then none else s.pendingTtls.lookup keyHash)
include hseparates hchanged hpending

theorem Represents.change_data (hkey : key.isContractData = true)
    {contractDataEntries : Table I (ContractDataMapEntry I D)}
    (htable : Hashed codec.hashXdr isContractData
      (update (ledger.view codec heldData) key (ledger'.view codec heldData key))
      contractDataEntries)
    {contractDataStateSize : Int} (hsize : contractDataStateSize =
      contractDataEntries.tally fun _ entry => codec.xdrEncodedLen entry.ledgerEntry) :
    Represents codec ledger' codeSizes
      { s with contractDataEntries, pendingTtls, contractDataStateSize } where
  data := htable.congr fun other hother => by
    by_cases heq : other = key
    · rw [heq, update_self]
    · rw [update_of_ne heq, hchanged.view (isContract_of_data hkey) hseparates
        (isContract_of_data hother) heq rfl]
  code := hrep.code.congr fun other hother => (hchanged.view (isContract_of_data hkey) hseparates
    (isContract_of_code hother) (ne_of_data_of_code hkey hother) rfl).symm
  config id := (hrep.config id).trans (hchanged.config (isContract_of_data hkey) id).symm
  pending keyHash := by rw [hpending, hchanged.waiting (isContract_of_data hkey), hrep.pending]
  dataSize := hsize
  codeSize := hrep.codeSize

theorem Represents.change_code (hkey : key.isContractCode = true)
    (hsizes : ∀ other, other ≠ key → codeSizes' other = codeSizes other)
    {contractCodeEntries : Table I (ContractCodeMapEntry I D)}
    (htable : Hashed codec.hashXdr isContractCode
      (update (ledger.view codec (heldCode codec codeSizes)) key
        (ledger'.view codec (heldCode codec codeSizes') key)) contractCodeEntries)
    {contractCodeStateSize : Int} (hsize : contractCodeStateSize =
      contractCodeEntries.tally fun _ entry => entry.sizeBytes) :
    Represents codec ledger' codeSizes'
      { s with contractCodeEntries, pendingTtls, contractCodeStateSize } where
  data := hrep.data.congr fun other hother => (hchanged.view (isContract_of_code hkey) hseparates
    (isContract_of_data hother) (ne_of_data_of_code hother hkey).symm rfl).symm
  code := htable.congr fun other hother => by
    by_cases heq : other = key
    · rw [heq, update_self]
    · rw [update_of_ne heq, hchanged.view (isContract_of_code hkey) hseparates
        (isContract_of_code hother) heq]
      funext entry ttlData
      rw [heldCode, heldCode, hsizes other heq]
  config id := (hrep.config id).trans (hchanged.config (isContract_of_code hkey) id).symm
  pending keyHash := by rw [hpending, hchanged.waiting (isContract_of_code hkey), hrep.pending]
  dataSize := hrep.dataSize
  codeSize := hsize

end

/-! ### Contract data -/

section

variable (hrep : Represents codec ledger codeSizes s) (hseparates : codec.Separates)
include hrep hseparates

theorem Represents.createContractData (hkey : key.isContractData = true) (hnone : ledger key = none)
    (entry : LedgerEntry I D) :
    ∃ s', s.createContractData codec key entry = .ok s' ∧
      Represents codec (ledger.set key (some entry)) codeSizes s' := by
  have hcontract := isContract_of_data hkey
  have hlookup := (hrep.data.lookup key hkey).trans (view_of_none hnone)
  have hpending := hrep.pending_getD (not_owned_of_none hseparates hcontract hnone)
  refine ⟨_, by rw [InMemorySorobanState.createContractData, hlookup]; rfl,
    hrep.change_data hseparates (changedAt_set hcontract entry) (lookup_erase_eq _ _) hkey ?_ ?_⟩
  · rw [view_set hcontract, hpending]
    exact hrep.data.insert hseparates.data hkey _
  · rw [tally_insert, weightAt_of_none hlookup, ← hrep.dataSize, sub_zero]

theorem Represents.updateContractData (hkey : key.isContractData = true)
    (hsome : (ledger key).isSome) (entry : LedgerEntry I D) :
    ∃ s', s.updateContractData codec key entry = .ok s' ∧
      Represents codec (ledger.set key (some entry)) codeSizes s' := by
  have hcontract := isContract_of_data hkey
  obtain ⟨old, hold⟩ := Option.isSome_iff_exists.mp hsome
  have hlookup := (hrep.data.lookup key hkey).trans (view_of_some hold)
  refine ⟨_, by rw [InMemorySorobanState.updateContractData, hlookup],
    hrep.change_data hseparates (changedAt_set hcontract entry)
      (hrep.pending_of_isSome hcontract hsome) hkey ?_ ?_⟩
  · rw [view_set hcontract]
    exact hrep.data.insert hseparates.data hkey _
  · rw [tally_insert, weightAt_of_lookup hlookup, ← hrep.dataSize]
    dsimp only [heldData]
    omega

theorem Represents.deleteContractData (hkey : key.isContractData = true)
    (hsome : (ledger key).isSome) :
    ∃ s', s.deleteContractData codec key = .ok s' ∧
      Represents codec (deleteFrom codec ledger key) codeSizes s' := by
  have hcontract := isContract_of_data hkey
  obtain ⟨old, hold⟩ := Option.isSome_iff_exists.mp hsome
  have hlookup := (hrep.data.lookup key hkey).trans (view_of_some hold)
  refine ⟨_, by rw [InMemorySorobanState.deleteContractData, hlookup],
    hrep.change_data hseparates changedAt_deleteFrom (hrep.pending_of_isSome hcontract hsome) hkey
      ?_ ?_⟩
  · rw [view_of_none (deleteFrom_self hcontract)]
    exact hrep.data.erase hseparates.data hkey
  · rw [tally_erase, weightAt_of_lookup hlookup, ← hrep.dataSize]

theorem Represents.setDataTtl {entry : ContractDataMapEntry I D}
    (hlookup : s.contractDataEntries.lookup keyHash = some entry) (ttl : LedgerEntry I D) :
    Represents codec (ledger.set (.ttl keyHash) (some ttl)) codeSizes { s with
      contractDataEntries :=
        s.contractDataEntries.insert keyHash { entry with ttlData := ttl.ttlData } } := by
  obtain ⟨key, hkey, rfl, hview⟩ := hrep.data.view_of_lookup hlookup
  obtain ⟨found, hfound, rfl⟩ := Option.map_eq_some_iff.mp hview
  have hcontract := isContract_of_data hkey
  have hsome : (ledger key).isSome := hfound ▸ rfl
  refine hrep.change_data hseparates (changedAt_setTtl hcontract hsome ttl)
    (hrep.pending_of_isSome hcontract hsome) hkey ?_ ?_
  · rw [view_setTtl hcontract hfound]
    exact hrep.data.insert hseparates.data hkey _
  · rw [tally_insert, weightAt_of_lookup hlookup, ← hrep.dataSize]
    dsimp only
    omega

/-! ### Contract code -/

theorem Represents.createContractCode (hkey : key.isContractCode = true) (hnone : ledger key = none)
    (entry : LedgerEntry I D) (protocolVersion : Nat) (rentConfig : Option R) :
    ∃ s', s.createContractCode codec key entry protocolVersion rentConfig = .ok s' ∧
      Represents codec (ledger.set key (some entry))
        (update codeSizes key (codec.calculateCodeSize entry (codec.xdrEncodedLen entry)
          protocolVersion rentConfig)) s' := by
  have hcontract := isContract_of_code hkey
  have hlookup := (hrep.code.lookup key hkey).trans (view_of_none hnone)
  have hpending := hrep.pending_getD (not_owned_of_none hseparates hcontract hnone)
  refine ⟨_, by rw [InMemorySorobanState.createContractCode, hlookup]; rfl,
    hrep.change_code hseparates (changedAt_set hcontract entry) (lookup_erase_eq _ _) hkey
      (fun other hne => update_of_ne hne _ _) ?_ ?_⟩
  · rw [view_set hcontract, hpending, heldCode, update_self]
    exact hrep.code.insert hseparates.code hkey _
  · rw [tally_insert, weightAt_of_none hlookup, ← hrep.codeSize, sub_zero]

theorem Represents.updateContractCode (hkey : key.isContractCode = true)
    (hsome : (ledger key).isSome) (entry : LedgerEntry I D) (protocolVersion : Nat)
    (rentConfig : Option R) :
    ∃ s', s.updateContractCode codec key entry protocolVersion rentConfig = .ok s' ∧
      Represents codec (ledger.set key (some entry))
        (update codeSizes key (codec.calculateCodeSize entry (codec.xdrEncodedLen entry)
          protocolVersion rentConfig)) s' := by
  have hcontract := isContract_of_code hkey
  obtain ⟨old, hold⟩ := Option.isSome_iff_exists.mp hsome
  have hlookup := (hrep.code.lookup key hkey).trans (view_of_some hold)
  refine ⟨_, by rw [InMemorySorobanState.updateContractCode, hlookup],
    hrep.change_code hseparates (changedAt_set hcontract entry)
      (hrep.pending_of_isSome hcontract hsome) hkey (fun other hne => update_of_ne hne _ _) ?_ ?_⟩
  · rw [view_set hcontract, heldCode, update_self]
    exact hrep.code.insert hseparates.code hkey _
  · rw [tally_insert, weightAt_of_lookup hlookup, ← hrep.codeSize]
    dsimp only
    omega

theorem Represents.deleteContractCode (hkey : key.isContractCode = true)
    (hsome : (ledger key).isSome) :
    ∃ s', s.deleteContractCode codec key = .ok s' ∧
      Represents codec (deleteFrom codec ledger key) codeSizes s' := by
  have hcontract := isContract_of_code hkey
  obtain ⟨old, hold⟩ := Option.isSome_iff_exists.mp hsome
  have hlookup := (hrep.code.lookup key hkey).trans (view_of_some hold)
  refine ⟨_, by rw [InMemorySorobanState.deleteContractCode, hlookup],
    hrep.change_code hseparates changedAt_deleteFrom (hrep.pending_of_isSome hcontract hsome) hkey
      (fun _ _ => rfl) ?_ ?_⟩
  · rw [view_of_none (deleteFrom_self hcontract)]
    exact hrep.code.erase hseparates.code hkey
  · rw [tally_erase, weightAt_of_lookup hlookup, ← hrep.codeSize]

theorem Represents.setCodeTtl {entry : ContractCodeMapEntry I D}
    (hlookup : s.contractCodeEntries.lookup keyHash = some entry) (ttl : LedgerEntry I D) :
    Represents codec (ledger.set (.ttl keyHash) (some ttl)) codeSizes { s with
      contractCodeEntries :=
        s.contractCodeEntries.insert keyHash { entry with ttlData := ttl.ttlData } } := by
  obtain ⟨key, hkey, rfl, hview⟩ := hrep.code.view_of_lookup hlookup
  obtain ⟨found, hfound, rfl⟩ := Option.map_eq_some_iff.mp hview
  have hcontract := isContract_of_code hkey
  have hsome : (ledger key).isSome := hfound ▸ rfl
  refine hrep.change_code hseparates (changedAt_setTtl hcontract hsome ttl)
    (hrep.pending_of_isSome hcontract hsome) hkey (fun _ _ => rfl) ?_ ?_
  · rw [view_setTtl hcontract hfound]
    exact hrep.code.insert hseparates.code hkey _
  · rw [tally_insert, weightAt_of_lookup hlookup, ← hrep.codeSize]
    dsimp only [heldCode]
    omega

end

end InMemorySorobanState

end Henyey.Ledger
