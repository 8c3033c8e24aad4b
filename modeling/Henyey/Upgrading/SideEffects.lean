import Henyey.Upgrading.ConfigUpgrade

/-!
# Side effects of upgrades

A version upgrade creates and rewrites settings, protocol by protocol. Whatever
changes the cost of memory has the size of the Soroban state computed anew.
-/

namespace Henyey.Upgrading

open Foundation Ledger
open Herder (ConfigUpgradeSetKey ConfigUpgradeValidity minSorobanProtocolVersion)

variable {I B S : Type}

/-! ### The size of the Soroban state -/

def loadConfigSetting (encoding : Encoding I B S) (id : ConfigSettingId) :
    CloseM I (EntryBody B) S (Option (ConfigSettingEntry B)) := do
  match ← getEntry (encoding.configKey id) with
  | none => return none
  | some entry =>
    match settingOf entry with
    | some setting => return some setting
    | none => throw (.internal "load_config_setting: expected ConfigSetting data")

/-- All three settings, or none of them. -/
def buildSorobanRentConfig (encoding : Encoding I B S) :
    CloseM I (EntryBody B) S (Option (SorobanRentConfig B)) := do
  let cpuRaw ← loadConfigSetting encoding .contractCostParamsCpuInstructions
  let memRaw ← loadConfigSetting encoding .contractCostParamsMemoryBytes
  let computeRaw ← loadConfigSetting encoding .contractComputeV0
  match cpuRaw, memRaw, computeRaw with
  | none, none, none => return none
  | some (.contractCostParamsCpuInstructions cpu), some (.contractCostParamsMemoryBytes mem),
      some (.contractComputeV0 compute) => return some ⟨cpu, mem, compute⟩
  | some _, some _, some _ =>
    throw (.internal "build_soroban_rent_config: unexpected ConfigSettingEntry variant")
  | _, _, _ => throw (.internal "build_soroban_rent_config: inconsistent config state")

variable [DecidableEq I]

def overwriteWindow (encoding : Encoding I B S) (ledgerSeq : U32) (newSize : UInt64) :
    CloseM I (EntryBody B) S Unit := do
  match ← getEntry (encoding.configKey .liveSorobanStateSizeWindow) with
  | none => return ()
  | some previousEntry =>
    match settingOf previousEntry with
    | some (.liveSorobanStateSizeWindow window) =>
      recordUpdate previousEntry (encoding.configEntry ledgerSeq
        (.liveSorobanStateSizeWindow (window.map fun _ => newSize)))
    | _ => throw (.internal "LiveSorobanStateSizeWindow has unexpected entry type")

/-- The sizes in memory are recomputed first, then the window in the ledger. -/
def handleUpgradeAffectingSorobanStateSize (encoding : Encoding I B S) (protocolVersion : UInt32)
    (ledgerSeq : U32) : CloseM I (EntryBody B) S Unit := do
  match ← buildSorobanRentConfig encoding with
  | none => return ()
  | some rentConfig =>
    modify fun s => { s with
      sorobanState :=
        encoding.recomputeContractCodeSizes protocolVersion rentConfig s.sorobanState }
    let newSize := encoding.totalSize (← get).sorobanState
    onlyIf (protocolVersion ≥ 23) (overwriteWindow encoding ledgerSeq newSize)

/-! ### Version upgrades -/

/-- What readers see of the settings, of contract data and of TTL entries is unchanged, and
so is the Soroban state. -/
structure SparesSettings (before after : CloseState I (EntryBody B) S) : Prop where
  settings : ∀ id, after.ltx.getEntry (.configSetting id) = before.ltx.getEntry (.configSetting id)
  contractData : ∀ contract key durability,
    after.ltx.getEntry (.contractData contract key durability) =
      before.ltx.getEntry (.contractData contract key durability)
  ttl : ∀ keyHash, after.ltx.getEntry (.ttl keyHash) = before.ltx.getEntry (.ttl keyHash)
  sorobanState : after.sorobanState = before.sorobanState

/-- The tables that single protocol versions write, and what is not looked into: the
settings that version 20 begins with, and the preparation of liabilities, which works on
accounts, trustlines and offers. -/
structure VersionSteps (I B S : Type) where
  createLedgerEntriesForV20 (ledgerSeq : U32) (initialBucketListSize : UInt64) :
    CloseM I (EntryBody B) S Unit
  cpuUpdates (version : UInt32) : B → B
  memUpdates (version : UInt32) : B → B
  initialParallelCompute : B
  initialScpTiming : B
  initialLedgerCostExt (ledgerCost : B) : B
  ledgerCostForV23 (ledgerCost : B) : B
  archivalForV23 (rest : B) : B
  prepareLiabilities (protocolVersion newReserve : UInt32) (ledgerSeq : U32) :
    { program : CloseM I (EntryBody B) S Unit // Keeps SparesSettings program }

/-- Rewrite one table of cost parameters. -/
def updateParams (encoding : Encoding I B S) (ledgerSeq : U32) (settingId : ConfigSettingId)
    (updates : B → B) (wrap : B → ConfigSettingEntry B) (label : String) :
    CloseM I (EntryBody B) S Unit := do
  let _ ← rewriteEntry (encoding.configKey settingId) (.internal (label ++ " entry not found"))
    fun entry =>
      match settingOf entry with
      | some (.contractCostParamsCpuInstructions params) =>
        .ok (encoding.configEntry ledgerSeq (wrap (updates params)))
      | some (.contractCostParamsMemoryBytes params) =>
        .ok (encoding.configEntry ledgerSeq (wrap (updates params)))
      | _ => .error (.internal ("Unexpected entry type for " ++ label))

def resizeAndUpdateCostParams (encoding : Encoding I B S) (ledgerSeq : U32)
    (cpuUpdates memUpdates : B → B) : CloseM I (EntryBody B) S Unit := do
  updateParams encoding ledgerSeq .contractCostParamsCpuInstructions cpuUpdates
    .contractCostParamsCpuInstructions "ContractCostParamsCpuInstructions"
  updateParams encoding ledgerSeq .contractCostParamsMemoryBytes memUpdates
    .contractCostParamsMemoryBytes "ContractCostParamsMemoryBytes"

def needsUpgradeToVersion (target prevVersion newVersion : UInt32) : Bool :=
  prevVersion < target && newVersion ≥ target

/-- What a close knows when it applies its upgrades. -/
structure CloseContext (I B S : Type) where
  encoding : Encoding I B S
  steps : VersionSteps I B S
  ledgerSeq : U32
  isMainnet : Bool
  bucketListSize : UInt64

variable (context : CloseContext I B S)

def createCostTypesForV21 : CloseM I (EntryBody B) S Unit :=
  resizeAndUpdateCostParams context.encoding context.ledgerSeq (context.steps.cpuUpdates 21)
    (context.steps.memUpdates 21)

def createCostTypesForV22 : CloseM I (EntryBody B) S Unit :=
  resizeAndUpdateCostParams context.encoding context.ledgerSeq (context.steps.cpuUpdates 22)
    (context.steps.memUpdates 22)

def createCostTypesForV25 : CloseM I (EntryBody B) S Unit :=
  resizeAndUpdateCostParams context.encoding context.ledgerSeq (context.steps.cpuUpdates 25)
    (context.steps.memUpdates 25)

def updateCostTypesForV26 : CloseM I (EntryBody B) S Unit :=
  resizeAndUpdateCostParams context.encoding context.ledgerSeq (context.steps.cpuUpdates 26)
    (context.steps.memUpdates 26)

/-- New rent parameters; the sample size of the archival settings stays. -/
def updateRentCostParamsForV23 : CloseM I (EntryBody B) S Unit := do
  let _ ← rewriteEntry (context.encoding.configKey (.other .contractLedgerCostV0))
    (.internal "ContractLedgerCostV0 entry not found") fun costEntry =>
      match settingOf costEntry with
      | some (.other .contractLedgerCostV0 cost) =>
        .ok (context.encoding.configEntry context.ledgerSeq
          (.other .contractLedgerCostV0 (context.steps.ledgerCostForV23 cost)))
      | _ => .error (.internal "Unexpected entry type for ContractLedgerCostV0")
  let _ ← rewriteEntry (context.encoding.configKey .stateArchival)
    (.internal "StateArchival entry not found") fun archivalEntry =>
      match settingOf archivalEntry with
      | some (.stateArchival sampleSize rest) =>
        .ok (context.encoding.configEntry context.ledgerSeq
          (.stateArchival sampleSize (context.steps.archivalForV23 rest)))
      | _ => .error (.internal "Unexpected entry type for StateArchival")

def createAndUpdateLedgerEntriesForV23 : CloseM I (EntryBody B) S Unit := do
  recordCreate (context.encoding.configEntry context.ledgerSeq
    (.other .contractParallelComputeV0 context.steps.initialParallelCompute))
  recordCreate (context.encoding.configEntry context.ledgerSeq
    (.other .scpTiming context.steps.initialScpTiming))
  match ← getEntry (context.encoding.configKey (.other .contractLedgerCostV0)) with
  | none =>
    throw (.internal
      "CONFIG_SETTING_CONTRACT_LEDGER_COST_V0 not found (required for V23 upgrade)")
  | some costEntry =>
    match settingOf costEntry with
    | some (.other .contractLedgerCostV0 cost) =>
      recordCreate (context.encoding.configEntry context.ledgerSeq
        (.other .contractLedgerCostExtV0 (context.steps.initialLedgerCostExt cost)))
      updateRentCostParamsForV23 context
    | _ => throw (.internal "Unexpected entry type for ContractLedgerCost")

def createLedgerEntriesForV26 : CloseM I (EntryBody B) S Unit := do
  recordCreate (context.encoding.configEntry context.ledgerSeq (.frozenLedgerKeys ∅))
  recordCreate (context.encoding.configEntry context.ledgerSeq (.freezeBypassTxs ∅))

/-- The steps between two versions; whether memory costs have changed. -/
def applyVersionUpgradeSideEffects (baseReserve prevVersion protocolVersion : UInt32) :
    CloseM I (EntryBody B) S Bool := do
  let needs (target : UInt32) : Bool := needsUpgradeToVersion target prevVersion protocolVersion
  let seq := context.ledgerSeq
  onlyIf (needs 20) (context.steps.createLedgerEntriesForV20 seq context.bucketListSize)
  onlyIf (needs 21) (createCostTypesForV21 context)
  onlyIf (needs 22) (createCostTypesForV22 context)
  onlyIf (needs 23) (createAndUpdateLedgerEntriesForV23 context)
  onlyIf (needs 25) (createCostTypesForV25 context)
  onlyIf (needs 26) do
    updateCostTypesForV26 context
    createLedgerEntriesForV26 context
  onlyIf (needs 10) (context.steps.prepareLiabilities protocolVersion baseReserve seq).1
  onlyIf (prevVersion == 23 && protocolVersion == 24 && context.isMainnet)
    (recordFeePoolDelta 31879035)
  return needs 20 || needs 21 || needs 22 || needs 23 || needs 25 || needs 26

/-! ### Config upgrades and the size of Soroban transaction sets -/

variable [DecidableEq B]

omit [DecidableEq B] in
/-- Apply a valid upgrade set; whether archival settings and memory costs changed. -/
def applyFrame (protocolVersion : UInt32) (frame : ConfigUpgradeSetFrame B) :
    CloseM I (EntryBody B) S (Bool × Bool) := do
  let (archival, memoryCost) ← frame.applyTo context.encoding
  onlyIf (memoryCost && protocolVersion ≥ minSorobanProtocolVersion)
    (handleUpgradeAffectingSorobanStateSize context.encoding protocolVersion context.ledgerSeq)
  return (archival, memoryCost)

def applyConfigUpgrade (protocolVersion : UInt32) (key : ConfigUpgradeSetKey) :
    CloseM I (EntryBody B) S ((Bool × Bool) × List (LedgerEntryChange I (EntryBody B))) := do
  match ← ConfigUpgradeSetFrame.makeFromKey context.encoding key context.ledgerSeq
      protocolVersion with
  | none => throw (.upgradeError "Failed to retrieve valid config upgrade set")
  | some frame =>
    match frame.isValidForApply context.encoding with
    | .valid => captureEntryChanges (applyFrame context protocolVersion frame)
    | _ => throw (.upgradeError "Config upgrade set is no longer valid")

structure ConfigUpgradeResult (I B : Type) where
  stateArchivalChanged : Bool
  memoryCostParamsChanged : Bool
  perUpgradeChanges : ConfigUpgradeSetKey → Option (List (LedgerEntryChange I (EntryBody B)))

omit [DecidableEq I] [DecidableEq B] in
def ConfigUpgradeResult.add (result : ConfigUpgradeResult I B) (key : ConfigUpgradeSetKey)
    (told : (Bool × Bool) × List (LedgerEntryChange I (EntryBody B))) :
    ConfigUpgradeResult I B where
  stateArchivalChanged := result.stateArchivalChanged || told.1.1
  memoryCostParamsChanged := result.memoryCostParamsChanged || told.1.2
  perUpgradeChanges := Function.update result.perUpgradeChanges key (some told.2)

/-- One round of the loop over the config upgrades. -/
def applyNextConfigUpgrade (protocolVersion : UInt32) (result : ConfigUpgradeResult I B)
    (key : ConfigUpgradeSetKey) : CloseM I (EntryBody B) S (ConfigUpgradeResult I B) := do
  let told ← applyConfigUpgrade context protocolVersion key
  return result.add key told

/-- All config upgrades in their order, up to the first that fails. -/
def applyConfigUpgrades (protocolVersion : UInt32) (keys : List ConfigUpgradeSetKey) :
    CloseM I (EntryBody B) S (ConfigUpgradeResult I B) :=
  keys.foldlM (applyNextConfigUpgrade context protocolVersion) ⟨false, false, fun _ => none⟩

omit [DecidableEq I] [DecidableEq B] in
/-- The lanes setting with another number of transactions. -/
def withLedgerMaxTxCount (encoding : Encoding I B S) (ledgerSeq : U32) (newSize : UInt32)
    (previous : LedgerEntry I (EntryBody B)) : Except UpgradeError (LedgerEntry I (EntryBody B)) :=
  match settingOf previous with
  | some (.contractExecutionLanes _) =>
    .ok { encoding.configEntry ledgerSeq (.contractExecutionLanes newSize) with
      sponsoringId := previous.sponsoringId }
  | _ => .error (.internal "CONFIG_SETTING_CONTRACT_EXECUTION_LANES has unexpected type")

omit [DecidableEq B] in
def applyMaxSorobanTxSetSize (newSize : UInt32) :
    CloseM I (EntryBody B) S (List (LedgerEntryChange I (EntryBody B))) := do
  let (previous, updated) ← rewriteEntry (context.encoding.configKey .contractExecutionLanes)
    (.internal "CONFIG_SETTING_CONTRACT_EXECUTION_LANES entry not found")
    (withLedgerMaxTxCount context.encoding context.ledgerSeq newSize)
  return [.state previous, .updated updated]

end Henyey.Upgrading
