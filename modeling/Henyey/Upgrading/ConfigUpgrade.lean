import Henyey.Herder.Upgrades
import Henyey.Upgrading.CloseState

/-!
# Config upgrades

Config upgrade sets live in the ledger as temporary contract data. Applying one
rewrites the settings it lists one after the other.
-/

namespace Henyey.Upgrading

open Foundation Ledger
open Herder (ConfigUpgradeSetKey ConfigUpgradeValidity minSorobanProtocolVersion)
open TxQueue (Hash256)

/-- The settings that no upgrade looks into. -/
inductive OtherSettingId where
  | contractMaxSizeBytes
  | contractLedgerCostV0
  | contractHistoricalDataV0
  | contractEventsV0
  | contractBandwidthV0
  | contractDataKeySizeBytes
  | contractDataEntrySizeBytes
  | contractParallelComputeV0
  | contractLedgerCostExtV0
  | scpTiming
deriving DecidableEq

inductive ConfigSettingId where
  | contractComputeV0
  | contractCostParamsCpuInstructions
  | contractCostParamsMemoryBytes
  | stateArchival
  | contractExecutionLanes
  | liveSorobanStateSizeWindow
  | evictionIterator
  | frozenLedgerKeys
  | frozenLedgerKeysDelta
  | freezeBypassTxs
  | freezeBypassTxsDelta
  | other (id : OtherSettingId)
deriving DecidableEq

/-- The numbers by which settings are ordered. -/
def OtherSettingId.number : OtherSettingId → ℕ
  | contractMaxSizeBytes => 0
  | contractLedgerCostV0 => 2
  | contractHistoricalDataV0 => 3
  | contractEventsV0 => 4
  | contractBandwidthV0 => 5
  | contractDataKeySizeBytes => 8
  | contractDataEntrySizeBytes => 9
  | contractParallelComputeV0 => 14
  | contractLedgerCostExtV0 => 15
  | scpTiming => 16

namespace ConfigSettingId

def number : ConfigSettingId → ℕ
  | contractComputeV0 => 1
  | contractCostParamsCpuInstructions => 6
  | contractCostParamsMemoryBytes => 7
  | stateArchival => 10
  | contractExecutionLanes => 11
  | liveSorobanStateSizeWindow => 12
  | evictionIterator => 13
  | frozenLedgerKeys => 17
  | frozenLedgerKeysDelta => 18
  | freezeBypassTxs => 19
  | freezeBypassTxsDelta => 20
  | other id => id.number

/-- The protocol version that a setting asks for. -/
def startsFrom : ConfigSettingId → UInt32
  | frozenLedgerKeys => 26
  | frozenLedgerKeysDelta => 26
  | freezeBypassTxs => 26
  | freezeBypassTxsDelta => 26
  | other .contractParallelComputeV0 => 23
  | other .contractLedgerCostExtV0 => 23
  | other .scpTiming => 23
  | _ => 0

end ConfigSettingId

/-- Settings that the upgrades look into; all others are opaque. -/
inductive ConfigSettingEntry (B : Type) where
  | contractComputeV0 (compute : B)
  | contractCostParamsCpuInstructions (params : B)
  | contractCostParamsMemoryBytes (params : B)
  | stateArchival (liveSorobanStateSizeWindowSampleSize : Nat) (rest : B)
  | contractExecutionLanes (ledgerMaxTxCount : UInt32)
  | liveSorobanStateSizeWindow (window : List UInt64)
  | evictionIterator (iterator : B)
  | frozenLedgerKeys (keys : Finset Nat)
  | frozenLedgerKeysDelta (keysToFreeze keysToUnfreeze : Finset Nat)
  | freezeBypassTxs (txHashes : Finset Nat)
  | freezeBypassTxsDelta (addTxs removeTxs : Finset Nat)
  | other (id : OtherSettingId) (setting : B)
deriving DecidableEq

def ConfigSettingEntry.discriminant {B : Type} : ConfigSettingEntry B → ConfigSettingId
  | contractComputeV0 _ => .contractComputeV0
  | contractCostParamsCpuInstructions _ => .contractCostParamsCpuInstructions
  | contractCostParamsMemoryBytes _ => .contractCostParamsMemoryBytes
  | stateArchival _ _ => .stateArchival
  | contractExecutionLanes _ => .contractExecutionLanes
  | liveSorobanStateSizeWindow _ => .liveSorobanStateSizeWindow
  | evictionIterator _ => .evictionIterator
  | frozenLedgerKeys _ => .frozenLedgerKeys
  | frozenLedgerKeysDelta _ _ => .frozenLedgerKeysDelta
  | freezeBypassTxs _ => .freezeBypassTxs
  | freezeBypassTxsDelta _ _ => .freezeBypassTxsDelta
  | other id _ => .other id

/-- The body of an entry: a config setting, or anything else. -/
inductive EntryBody (B : Type) where
  | config (setting : ConfigSettingEntry B)
  | other (body : B)
deriving DecidableEq

structure SorobanRentConfig (B : Type) where
  cpuCostParams : B
  memCostParams : B
  compute : B

/-- How ledger keys, hashes and encodings look, and the size of the Soroban state. -/
structure Encoding (I B S : Type) where
  settingKey : ConfigSettingId → I
  settingKey_injective : Function.Injective settingKey
  upgradeSetContract : ConfigUpgradeSetKey → I
  upgradeSetKey : ConfigUpgradeSetKey → I
  keyHash : LedgerKey I → I
  decodeUpgradeSet : B → Option (List (ConfigSettingEntry B))
  hashUpgradeSet : List (ConfigSettingEntry B) → Hash256
  meetsConstraints : ConfigSettingEntry B → UInt32 → Bool
  recomputeContractCodeSizes : UInt32 → SorobanRentConfig B → S → S
  totalSize : S → UInt64

variable {I B S : Type}

namespace Encoding

variable (encoding : Encoding I B S)

def configKey (id : ConfigSettingId) : LedgerKey I := .configSetting (encoding.settingKey id)

def configEntry (ledgerSeq : U32) (setting : ConfigSettingEntry B) :
    LedgerEntry I (EntryBody B) where
  lastModifiedLedgerSeq := ledgerSeq
  data := .configSetting (encoding.settingKey setting.discriminant) (.config setting)
  sponsoringId := none

end Encoding

def settingOf (entry : LedgerEntry I (EntryBody B)) : Option (ConfigSettingEntry B) :=
  match entry.data with
  | .configSetting _ (.config setting) => some setting
  | _ => none

/-! ### Loading an upgrade set -/

structure ConfigUpgradeSetFrame (B : Type) where
  configUpgradeSet : List (ConfigSettingEntry B)
  validXdr : Bool
  ledgerVersion : UInt32

namespace ConfigUpgradeSetFrame

variable (encoding : Encoding I B S)

def getLedgerKey (upgradeKey : ConfigUpgradeSetKey) : LedgerKey I :=
  .contractData (encoding.upgradeSetContract upgradeKey) (encoding.upgradeSetKey upgradeKey)
    .temporary

def isLive (ttlEntry : LedgerEntry I (EntryBody B)) (currentLedger : U32) : Bool :=
  match ttlEntry.data with
  | .ttl _ liveUntilLedgerSeq => currentLedger ≤ liveUntilLedgerSeq
  | _ => false

/-- The hash matches, and there are settings in strictly increasing order. -/
def isValidXdrStatic (upgradeSet : List (ConfigSettingEntry B))
    (key : ConfigUpgradeSetKey) : Bool :=
  encoding.hashUpgradeSet upgradeSet == key.contentHash && !upgradeSet.isEmpty &&
    (upgradeSet.zip (upgradeSet.drop 1)).all fun (a, b) =>
      decide (a.discriminant.number < b.discriminant.number)

/-- The set that an entry holds: live, temporary bytes that decode. -/
def decodeEntry (key : ConfigUpgradeSetKey) (closingLedgerSeq : U32) (protocolVersion : UInt32)
    (entry ttlEntry : LedgerEntry I (EntryBody B)) : Option (ConfigUpgradeSetFrame B) :=
  if !isLive ttlEntry closingLedgerSeq then none
  else
    match entry.data with
    | .contractData _ _ .temporary (.other body) =>
      match encoding.decodeUpgradeSet body with
      | none => none
      | some upgradeSet =>
        some
          { configUpgradeSet := upgradeSet
            validXdr := isValidXdrStatic encoding upgradeSet key
            ledgerVersion := protocolVersion }
    | _ => none

/-- `none` when there is no usable set; a set without its TTL entry is an error. -/
def makeFromKey (key : ConfigUpgradeSetKey) (closingLedgerSeq : U32) (protocolVersion : UInt32) :
    CloseM I (EntryBody B) S (Option (ConfigUpgradeSetFrame B)) := do
  let lk := getLedgerKey encoding key
  match ← getEntry lk with
  | none => return none
  | some entry =>
    match ← getEntry (.ttl (encoding.keyHash lk)) with
    | none => throw (.internal "CONFIG_DATA entry exists but TTL entry is missing")
    | some ttlEntry =>
      return decodeEntry encoding key closingLedgerSeq protocolVersion entry ttlEntry

/-- What the bucket list or deltas define is not upgraded. -/
def isNonUpgradeable : ConfigSettingId → Bool
  | .liveSorobanStateSizeWindow => true
  | .evictionIterator => true
  | .frozenLedgerKeys => true
  | .freezeBypassTxs => true
  | _ => false

/-- The constraints of single settings, of which those on the version and on the number of
samples are spelled out. -/
def isValidConfigSettingEntry (entry : ConfigSettingEntry B) (ledgerVersion : UInt32) : Bool :=
  ledgerVersion ≥ entry.discriminant.startsFrom &&
    (match entry with
      | .stateArchival sampleSize _ => sampleSize ≥ 1
      | _ => true) &&
    encoding.meetsConstraints entry ledgerVersion

def isValidForApply (frame : ConfigUpgradeSetFrame B) : ConfigUpgradeValidity :=
  if !frame.validXdr then .xdrInvalid
  else if frame.configUpgradeSet.any fun entry =>
      !isValidConfigSettingEntry encoding entry frame.ledgerVersion ||
        isNonUpgradeable entry.discriminant then .invalid
  else .valid

end ConfigUpgradeSetFrame

/-! ### Rewriting entries -/

variable [DecidableEq I]

/-- Read an entry that must be there and record what it is rewritten to. -/
def rewriteEntry (key : LedgerKey I) (missing : UpgradeError)
    (rewrite : LedgerEntry I (EntryBody B) → Except UpgradeError (LedgerEntry I (EntryBody B))) :
    CloseM I (EntryBody B) S (LedgerEntry I (EntryBody B) × LedgerEntry I (EntryBody B)) := do
  match ← getEntry key with
  | none => throw missing
  | some previous =>
    match rewrite previous with
    | .error error => throw error
    | .ok updated =>
      recordUpdate previous updated
      return (previous, updated)

namespace ConfigUpgradeSetFrame

variable (encoding : Encoding I B S)

/-- Add keys to the base setting, then take keys out. -/
def applyFrozenKeysDelta (deltaEntry : ConfigSettingEntry B) : CloseM I (EntryBody B) S Unit := do
  let ledgerSeq := (← get).ltx.ledgerSeq
  let _ ← rewriteEntry (encoding.configKey .frozenLedgerKeys)
    (.internal "FrozenLedgerKeys config setting not found") fun previous =>
      match settingOf previous with
      | some (.frozenLedgerKeys keys) =>
        match deltaEntry with
        | .frozenLedgerKeysDelta keysToFreeze keysToUnfreeze =>
          .ok (encoding.configEntry ledgerSeq
            (.frozenLedgerKeys ((keys ∪ keysToFreeze) \ keysToUnfreeze)))
        | _ => .error (.internal "Expected FrozenLedgerKeysDelta entry")
      | _ => .error (.internal "Unexpected entry type for FrozenLedgerKeys")

def applyFreezeBypassDelta (deltaEntry : ConfigSettingEntry B) : CloseM I (EntryBody B) S Unit := do
  let ledgerSeq := (← get).ltx.ledgerSeq
  let _ ← rewriteEntry (encoding.configKey .freezeBypassTxs)
    (.internal "FreezeBypassTxs config setting not found") fun previous =>
      match settingOf previous with
      | some (.freezeBypassTxs txHashes) =>
        match deltaEntry with
        | .freezeBypassTxsDelta addTxs removeTxs =>
          .ok (encoding.configEntry ledgerSeq
            (.freezeBypassTxs ((txHashes ∪ addTxs) \ removeTxs)))
        | _ => .error (.internal "Expected FreezeBypassTxsDelta entry")
      | _ => .error (.internal "Unexpected entry type for FreezeBypassTxs")

/-- Drop the oldest sizes, or repeat the oldest one. -/
def resizeWindow (newSampleSize : Nat) (window : List UInt64) : List UInt64 :=
  if newSampleSize < window.length then window.drop (window.length - newSampleSize)
  else List.replicate (newSampleSize - window.length) (window.head?.getD 0) ++ window

def sampleSizeOf : ConfigSettingEntry B → Option Nat
  | .stateArchival sampleSize _ => some sampleSize
  | _ => none

def maybeUpdateStateSizeWindow (frame : ConfigUpgradeSetFrame B) :
    CloseM I (EntryBody B) S Unit := do
  match frame.configUpgradeSet.findSome? sampleSizeOf with
  | none => return ()
  | some newSampleSize =>
    match ← getEntry (encoding.configKey .liveSorobanStateSizeWindow) with
    | none =>
      throw (.upgradeError
        "LiveSorobanStateSizeWindow config setting not found during upgrade")
    | some windowEntry =>
      match settingOf windowEntry with
      | some (.liveSorobanStateSizeWindow window) =>
        if newSampleSize = window.length then return ()
        else
          let ledgerSeq := (← get).ltx.ledgerSeq
          recordUpdate windowEntry (encoding.configEntry ledgerSeq
            (.liveSorobanStateSizeWindow (resizeWindow newSampleSize window)))
      | _ => throw (.upgradeError "LiveSorobanStateSizeWindow has unexpected entry type")

/-- What applying the settings has met so far. -/
structure Met where
  stateArchivalChanged : Bool
  memoryCostParamsChanged : Bool
  windowSampleSizeChanged : Bool

/-- Whether a setting changes the number of samples in the window. -/
def changesSampleSize (previous : LedgerEntry I (EntryBody B)) (newEntry : ConfigSettingEntry B) :
    Bool :=
  match settingOf previous, newEntry with
  | some (.stateArchival old _), .stateArchival new _ => old != new
  | _, _ => false

def applySetting (met : Met) (newEntry : ConfigSettingEntry B) : CloseM I (EntryBody B) S Met := do
  if newEntry.discriminant = .frozenLedgerKeysDelta then
    applyFrozenKeysDelta encoding newEntry
    return met
  else if newEntry.discriminant = .freezeBypassTxsDelta then
    applyFreezeBypassDelta encoding newEntry
    return met
  else
    let ledgerSeq := (← get).ltx.ledgerSeq
    let (previous, _) ← rewriteEntry (encoding.configKey newEntry.discriminant)
      (.upgradeError "Config setting not found during upgrade — expected to exist") fun _ =>
        .ok (encoding.configEntry ledgerSeq newEntry)
    return {
      stateArchivalChanged :=
        met.stateArchivalChanged || newEntry.discriminant = .stateArchival
      memoryCostParamsChanged :=
        met.memoryCostParamsChanged || newEntry.discriminant = .contractCostParamsMemoryBytes
      windowSampleSizeChanged :=
        met.windowSampleSizeChanged || changesSampleSize previous newEntry }

/-- Whether the archival settings and the memory costs were rewritten. -/
def applyTo (frame : ConfigUpgradeSetFrame B) : CloseM I (EntryBody B) S (Bool × Bool) := do
  let met ← frame.configUpgradeSet.foldlM (applySetting encoding) ⟨false, false, false⟩
  onlyIf met.windowSampleSizeChanged (maybeUpdateStateSizeWindow encoding frame)
  return (met.stateArchivalChanged, met.memoryCostParamsChanged)

end ConfigUpgradeSetFrame

end Henyey.Upgrading
