import Henyey.Herder.Deferral
import Henyey.Herder.TxSetOrder
import Henyey.Herder.Upgrades

/-!
# Combining the candidates of a nomination

Every candidate is decoded, its upgrades are merged, its transaction set is looked up,
and the best transaction set is returned with the merged upgrades. A candidate that
passed validation makes none of these steps fail.
-/

namespace Henyey.Herder

open TxQueue (Hash256)

/-- The encodings of values and upgrades, and what is taken from the crypto library. -/
structure ValueCodec (N V : Type) where
  stellarValueFromXdr : V → Option (StellarValue N Hash256)
  stellarValueToXdr : StellarValue N Hash256 → V
  hashValue : V → Hash256
  upgradeFromXdr : List UInt8 → Option LedgerUpgrade
  upgradeToXdr : LedgerUpgrade → List UInt8
  verifyFromRawKey : N → List UInt8 → List UInt8 → Bool
  txSets : TxSetCodec

def maxUpgradesPerValue : Nat := 6
def maxUpgradeTypeBytes : Nat := 128

/-- The bounds of the encoded types. -/
structure StellarValue.Bounded {N : Type} (sv : StellarValue N Hash256) : Prop where
  txSetHash : sv.txSetHash < 2 ^ 256
  closeTime : sv.closeTime < 2 ^ 64
  upgrades : sv.upgrades.length ≤ maxUpgradesPerValue
  upgrade : ∀ upgrade ∈ sv.upgrades, upgrade.length ≤ maxUpgradeTypeBytes
  signature : ∀ sig, sv.ext = .signed sig → sig.signature.length ≤ 64

/-- What encodes and decodes again is what it was. -/
structure ValueCodec.Lawful {N V : Type} (codec : ValueCodec N V) : Prop where
  bounded : ∀ value sv, codec.stellarValueFromXdr value = some sv → sv.Bounded
  roundTrip : ∀ sv, sv.Bounded → codec.stellarValueFromXdr (codec.stellarValueToXdr sv) = some sv
  upgrade_roundTrip : ∀ bytes upgrade, codec.upgradeFromXdr bytes = some upgrade →
    codec.upgradeFromXdr (codec.upgradeToXdr upgrade) = some upgrade
  upgrade_length : ∀ upgrade, (codec.upgradeToXdr upgrade).length ≤ maxUpgradeTypeBytes

/-- How combining fails loudly. -/
inductive CombinePanic where
  | cannotParseCandidate
  | cannotParseUpgrade
  | txSetMissing (hash : Hash256)
  | prepareForApplyFailed (hash : Hash256)
  | upgradeExceedsLimit
  | upgradesExceedMax
deriving DecidableEq

/-- What the driver reads while the last closed ledger does not change. -/
structure ScpDriver (N V : Type) where
  codec : ValueCodec N V
  networkId : Hash256
  context : ValueValidationContext
  lclHash : Hash256
  ledgerVersion : UInt32
  txTracker : Foundation.Table Hash256 TransactionSet
  /-- Structural checks of a transaction set, and its check against the ledger at an
  offset of the close time. -/
  prepareForApply : TransactionSet → Bool
  checkValid : TransactionSet → Nat → Bool
  configUpgradeSet : ConfigUpgradeSetKey → Option ConfigUpgradeValidity
  upgrades : UpgradeParameters

/-- A decoded candidate with its transaction set. -/
structure ResolvedCandidate (N V : Type) where
  raw : V
  sv : StellarValue N Hash256
  txSet : TransactionSet
  txSetHash : Hash256

/-- What the loop over the candidates has collected. -/
structure CollectedCandidates (N V : Type) where
  candidatesHash : Hash256
  mergedUpgrades : List LedgerUpgrade
  decoded : List (V × StellarValue N Hash256)

namespace ScpDriver

variable {N V : Type} (d : ScpDriver N V)

/-! ### Validation -/

/-- The signed bytes are the network, the type of the envelope, the transaction set
and the close time. -/
def verifyStellarValueSignature (sig : LedgerCloseValueSignature N) (txSetHash : Hash256)
    (closeTime : Nat) : Bool :=
  let data := bigEndian 32 d.networkId ++ bigEndian 4 4 ++ bigEndian 32 txSetHash ++
    bigEndian 8 closeTime
  if sig.signature.length = 64 then d.codec.verifyFromRawKey sig.nodeId data sig.signature
  else false

/-- A verdict is remembered for the ledger, the set and the offset. -/
def checkAndCacheTxSetValid (txSet : TransactionSet) (closeTimeOffset : Nat) : Bool :=
  if !d.prepareForApply txSet then false
  else if d.ledgerVersion < 20 then true
  else d.checkValid txSet closeTimeOffset

/-- The checks of a transaction set that the tracker has. -/
def checkContent (closeTime : Nat) (txSetHash : Hash256) : Bool :=
  match d.txTracker.lookup txSetHash with
  | none => false
  | some txSet =>
    if txSet.recomputeHash d.codec.txSets ≠ txSetHash then false
    else if txSet.previousLedgerHash ≠ d.lclHash then false
    else if !txSet.isTxSetWellFormed d.codec.txSets then false
    else d.checkAndCacheTxSetValid txSet (closeTime - d.context.lclCloseTime)

def checkUpgradeOrderingAbove : Option Nat → List (List UInt8) → Bool
  | _, [] => true
  | lastUpgradeOrder, bytes :: rest =>
    match d.codec.upgradeFromXdr bytes with
    | none => false
    | some upgrade =>
      let order := upgrade.upgradeTypeOrder
      if lastUpgradeOrder.any fun prev => order ≤ prev then false
      else checkUpgradeOrderingAbove (some order) rest

/-- The types of the upgrades strictly increase. -/
def checkUpgradeOrdering (sv : StellarValue N Hash256) : Bool :=
  d.checkUpgradeOrderingAbove none sv.upgrades

def isUpgradeValid (upgrade : LedgerUpgrade) (nomination : Bool) : Bool :=
  upgrade.isValidForApply d.configUpgradeSet d.ledgerVersion &&
    (!nomination || upgrade.isValidForNomination d.upgrades d.context.lclCloseTime)

def checkUpgradesValid (sv : StellarValue N Hash256) (nomination : Bool) : Bool :=
  sv.upgrades.all fun bytes =>
    match d.codec.upgradeFromXdr bytes with
    | none => false
    | some upgrade => d.isUpgradeValid upgrade nomination

def validateValue (slotIndex : Nat) (value : V) (nomination : Bool) : ValueValidation :=
  match d.codec.stellarValueFromXdr value with
  | none => .invalid
  | some sv =>
    match sv.ext with
    | .basic => .invalid
    | .signed sig =>
      if !d.verifyStellarValueSignature sig sv.txSetHash sv.closeTime then .invalid
      else
        let result := (validateValueAgainstLocalState d.context d.txTracker.keys.toFinset
          (d.checkContent sv.closeTime) slotIndex sv.closeTime sv.txSetHash nomination).1
        if result = .invalid then .invalid
        else if !d.checkUpgradeOrdering sv then .invalid
        else if !d.checkUpgradesValid sv nomination then .invalid
        else result

/-! ### Combination -/

def mergeUpgradeBytes (mergedUpgrades : List LedgerUpgrade) (bytes : List UInt8) :
    Except CombinePanic (List LedgerUpgrade) :=
  match d.codec.upgradeFromXdr bytes with
  | none => .error .cannotParseUpgrade
  | some upgrade => .ok (LedgerUpgrade.mergeUpgrade mergedUpgrades upgrade)

/-- Decode one candidate, mask its hash in and merge its upgrades. -/
def collectCandidate (collected : CollectedCandidates N V) (value : V) :
    Except CombinePanic (CollectedCandidates N V) :=
  match d.codec.stellarValueFromXdr value with
  | none => .error .cannotParseCandidate
  | some sv => do
    let mergedUpgrades ← sv.upgrades.foldlM d.mergeUpgradeBytes collected.mergedUpgrades
    return {
      candidatesHash :=
        collected.candidatesHash ^^^ d.codec.hashValue (d.codec.stellarValueToXdr sv)
      mergedUpgrades
      decoded := collected.decoded ++ [(value, sv)] }

def resolveCandidate (decoded : V × StellarValue N Hash256) :
    Except CombinePanic (ResolvedCandidate N V) :=
  let txSetHash := decoded.2.txSetHash
  match d.txTracker.lookup txSetHash with
  | none => .error (.txSetMissing txSetHash)
  | some txSet =>
    if d.prepareForApply txSet then .ok { raw := decoded.1, sv := decoded.2, txSet, txSetHash }
    else .error (.prepareForApplyFailed txSetHash)

def compareCandidates (candidatesHash : Hash256) (a b : ResolvedCandidate N V) : Ordering :=
  compareTxSets d.codec.txSets a.txSet b.txSet a.txSetHash b.txSetHash candidatesHash
    d.ledgerVersion

/-- The first candidate that none is above. -/
def bestCandidate (candidatesHash : Hash256) (first : ResolvedCandidate N V)
    (rest : List (ResolvedCandidate N V)) : ResolvedCandidate N V :=
  rest.foldl (fun best c => if d.compareCandidates candidatesHash best c = .lt then c else best)
    first

def encodeUpgrade (upgrade : LedgerUpgrade) : Except CombinePanic (List UInt8) :=
  let bytes := d.codec.upgradeToXdr upgrade
  if bytes.length ≤ maxUpgradeTypeBytes then .ok bytes else .error .upgradeExceedsLimit

variable [LinearOrder V]

/-- The combined value, none where no candidate follows the last closed ledger. -/
def combineCandidates (values : List V) : Except CombinePanic (Option V) :=
  if values.isEmpty then .ok none
  else do
    let sortedValues := values.insertionSort (· ≤ ·)
    let collected ← sortedValues.foldlM d.collectCandidate ⟨0, [], []⟩
    let allCandidates ← collected.decoded.mapM d.resolveCandidate
    let selectable := allCandidates.filter fun c => c.txSet.previousLedgerHash = d.lclHash
    match selectable.insertionSort fun a b => a.raw ≤ b.raw with
    | [] => return none
    | first :: rest =>
      let best := d.bestCandidate collected.candidatesHash first rest
      let upgrades ← collected.mergedUpgrades.mapM d.encodeUpgrade
      if upgrades.length > maxUpgradesPerValue then .error .upgradesExceedMax
      else return some (d.codec.stellarValueToXdr { best.sv with upgrades })

end ScpDriver

end Henyey.Herder
