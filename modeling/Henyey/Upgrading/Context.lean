import Henyey.Upgrading.SideEffects

/-!
# Applying the upgrades of a close

The upgrades of a ledger are applied kind by kind. Errors are logged and swallowed;
the header is written by a loop of its own.
-/

namespace Henyey.Upgrading

open Foundation Ledger
open Herder (ConfigUpgradeSetKey LedgerUpgrade currentLedgerProtocolVersion
  minSorobanProtocolVersion)

inductive LedgerHeaderExt where
  | v0
  | v1 (flags : UInt32)
deriving DecidableEq

/-- The fields of the header that upgrades write. -/
structure LedgerHeader where
  ledgerVersion : UInt32
  baseFee : UInt32
  maxTxSetSize : UInt32
  baseReserve : UInt32
  ext : LedgerHeaderExt
deriving DecidableEq

/-- Write the header field of an upgrade. -/
def LedgerHeader.set (header : LedgerHeader) : LedgerUpgrade → LedgerHeader
  | .version v => { header with ledgerVersion := v }
  | .baseFee fee => { header with baseFee := fee }
  | .maxTxSetSize size => { header with maxTxSetSize := size }
  | .baseReserve reserve => { header with baseReserve := reserve }
  | .flags flags => { header with ext := .v1 flags }
  | .config _ => header
  | .maxSorobanTxSetSize _ => header

structure UpgradeContext where
  upgrades : List LedgerUpgrade
  currentVersion : UInt32

namespace UpgradeContext

variable (upgradeCtx : UpgradeContext)

def baseReserveUpgrade : Option UInt32 :=
  upgradeCtx.upgrades.findSome? fun
    | .baseReserve reserve => some reserve
    | _ => none

def configUpgradeKeys : List ConfigUpgradeSetKey :=
  upgradeCtx.upgrades.filterMap fun
    | .config key => some key
    | _ => none

def maxSorobanTxSetSizeUpgrade : Option UInt32 :=
  upgradeCtx.upgrades.findSome? fun
    | .maxSorobanTxSetSize size => some size
    | _ => none

def raisedBy (effectiveVersion : UInt32) (upgrade : LedgerUpgrade) (valid : Bool) : UInt32 :=
  match upgrade with
  | .version v => if valid then v else effectiveVersion
  | _ => effectiveVersion

def skips (maxProtocolVersion : UInt32) : UInt32 → List LedgerUpgrade → List Bool
  | _, [] => []
  | effectiveVersion, upgrade :: rest =>
    let valid := upgrade.validForApplyNonConfig effectiveVersion maxProtocolVersion
    (!valid) :: skips maxProtocolVersion (raisedBy effectiveVersion upgrade valid) rest

/-- For each upgrade, whether it is skipped as invalid. -/
def applyTimeSkipSet (maxProtocolVersion : UInt32) : List Bool :=
  skips maxProtocolVersion upgradeCtx.currentVersion upgradeCtx.upgrades

def applyToHeader (header : LedgerHeader) : LedgerHeader :=
  (upgradeCtx.upgrades.zip (upgradeCtx.applyTimeSkipSet currentLedgerProtocolVersion)).foldl
    (fun header (upgrade, skip) => if skip then header else header.set upgrade) header

end UpgradeContext

variable {I B S : Type} [DecidableEq I] [DecidableEq B]

/-- The metadata of one upgrade. -/
structure UpgradeEntryMeta (I B : Type) where
  upgrade : LedgerUpgrade
  changes : List (LedgerEntryChange I (EntryBody B))
deriving DecidableEq

/-- What an upgrade kind comes to: its changes, unless it failed. -/
abbrev Applied (I B : Type) : Type := Option (List (LedgerEntryChange I (EntryBody B)))

variable (context : CloseContext I B S)

/-- The side effects of a version upgrade; a failing recomputation of the state size
is only logged. -/
def upgradeVersion (baseReserve prevVersion protocolVersion : UInt32) :
    CloseM I (EntryBody B) S (List (LedgerEntryChange I (EntryBody B))) := do
  let (_, changes) ← captureEntryChanges do
    let memoryCostChanged ←
      applyVersionUpgradeSideEffects context baseReserve prevVersion protocolVersion
    onlyIf (protocolVersion ≥ 23 && protocolVersion ≥ minSorobanProtocolVersion)
      (discard (observing (handleUpgradeAffectingSorobanStateSize context.encoding protocolVersion
        context.ledgerSeq)))
    return memoryCostChanged
  return changes

def applyVersion (prevHeader : LedgerHeader) (protocolVersion : UInt32)
    (s : CloseState I (EntryBody B) S) : Applied I B × CloseState I (EntryBody B) S :=
  if prevHeader.ledgerVersion ≠ protocolVersion then
    caught (upgradeVersion context prevHeader.baseReserve prevHeader.ledgerVersion
      protocolVersion) s
  else (some [], s)

/-- An increased reserve has the liabilities prepared. -/
def applyReserve (upgradeCtx : UpgradeContext) (prevHeader : LedgerHeader)
    (protocolVersion : UInt32) (s : CloseState I (EntryBody B) S) :
    Applied I B × CloseState I (EntryBody B) S :=
  match upgradeCtx.baseReserveUpgrade with
  | none => (some [], s)
  | some newReserve =>
    if protocolVersion ≥ 10 ∧ newReserve > prevHeader.baseReserve then
      caught (do
        let (_, changes) ← captureEntryChanges
          (context.steps.prepareLiabilities protocolVersion newReserve context.ledgerSeq).1
        return changes) s
    else (some [], s)

/-- All config upgrades share the outcome. -/
def applyConfigs (upgradeCtx : UpgradeContext) (protocolVersion : UInt32)
    (s : CloseState I (EntryBody B) S) :
    Option (ConfigUpgradeResult I B) × CloseState I (EntryBody B) S :=
  caught (applyConfigUpgrades context protocolVersion upgradeCtx.configUpgradeKeys) s

omit [DecidableEq B] in
def applyMaxSoroban (upgradeCtx : UpgradeContext) (s : CloseState I (EntryBody B) S) :
    Applied I B × CloseState I (EntryBody B) S :=
  match upgradeCtx.maxSorobanTxSetSizeUpgrade with
  | none => (some [], s)
  | some newSize => caught (applyMaxSorobanTxSetSize context newSize) s

omit [DecidableEq I] [DecidableEq B] in
/-- Metadata for the upgrades that are not skipped and whose kind succeeded; the
changes of a config upgrade are handed out once. -/
def upgradesMeta (version reserve maxSoroban : Applied I B) :
    Option (ConfigUpgradeSetKey → Applied I B) → List (LedgerUpgrade × Bool) →
      List (UpgradeEntryMeta I B)
  | _, [] => []
  | configs, (upgrade, skip) :: rest =>
    if skip then upgradesMeta version reserve maxSoroban configs rest
    else
      match upgrade with
      | .config key =>
        match configs with
        | some perConfigChanges =>
          ⟨upgrade, (perConfigChanges key).getD []⟩ ::
            upgradesMeta version reserve maxSoroban
              (some (Function.update perConfigChanges key none)) rest
        | none => upgradesMeta version reserve maxSoroban configs rest
      | _ =>
        let applied :=
          match upgrade with
          | .version _ => version
          | .baseReserve _ => reserve
          | .maxSorobanTxSetSize _ => maxSoroban
          | _ => some []
        (applied.map (⟨upgrade, ·⟩)).toList ++ upgradesMeta version reserve maxSoroban configs rest

/-- What the upgrades of a close come to. -/
structure Upgraded (I B S : Type) where
  state : CloseState I (EntryBody B) S
  header : LedgerHeader
  metas : List (UpgradeEntryMeta I B)

def applyUpgradesToDelta (upgradeCtx : UpgradeContext) (prevHeader : LedgerHeader)
    (protocolVersion : UInt32) (s : CloseState I (EntryBody B) S) :
    List (UpgradeEntryMeta I B) × CloseState I (EntryBody B) S :=
  let skipSet := upgradeCtx.applyTimeSkipSet currentLedgerProtocolVersion
  let (version, s) := applyVersion context prevHeader protocolVersion s
  let (reserve, s) := applyReserve context upgradeCtx prevHeader protocolVersion s
  let (configs, s) := applyConfigs context upgradeCtx protocolVersion s
  let (maxSoroban, s) := applyMaxSoroban context upgradeCtx s
  (upgradesMeta version reserve maxSoroban (configs.map (·.perUpgradeChanges))
    (upgradeCtx.upgrades.zip skipSet), s)

/-- The upgrades of a close: the header for the version that they lead to, then the
ledger, then the header that is committed. -/
def closeUpgrades (upgrades : List LedgerUpgrade) (prevHeader : LedgerHeader)
    (s : CloseState I (EntryBody B) S) : Upgraded I B S :=
  let upgradeCtx : UpgradeContext := ⟨upgrades, prevHeader.ledgerVersion⟩
  let upgradedHeader := upgradeCtx.applyToHeader prevHeader
  let (metas, s) :=
    applyUpgradesToDelta context upgradeCtx prevHeader upgradedHeader.ledgerVersion s
  { state := s, header := upgradeCtx.applyToHeader prevHeader, metas := metas }

end Henyey.Upgrading
