import Mathlib.Data.Prod.Lex
import Mathlib.Data.UInt
import Henyey.TxQueue.Envelope

/-!
# Ledger upgrades

The upgrades a value may carry, when one of them is valid, and how the upgrades of
several values are merged into one of each type.
-/

namespace Henyey.Herder

open List

open TxQueue (Hash256)

structure ConfigUpgradeSetKey where
  contractId : Hash256
  contentHash : Hash256
deriving DecidableEq

inductive LedgerUpgrade where
  | version (newLedgerVersion : UInt32)
  | baseFee (newBaseFee : UInt32)
  | maxTxSetSize (newMaxTxSetSize : UInt32)
  | baseReserve (newBaseReserve : UInt32)
  | flags (newFlags : UInt32)
  | config (newConfig : ConfigUpgradeSetKey)
  | maxSorobanTxSetSize (newMaxSorobanTxSetSize : UInt32)
deriving DecidableEq

inductive ConfigUpgradeValidity where
  | valid
  | xdrInvalid
  | invalid
deriving DecidableEq

def currentLedgerProtocolVersion : UInt32 := 27
def minSorobanProtocolVersion : UInt32 := 20
def maskLedgerHeaderFlags : UInt32 := 0x7

/-- What a node is configured to vote for. -/
structure UpgradeParameters where
  upgradeTime : Nat
  protocolVersion : Option UInt32
  baseFee : Option UInt32
  maxTxSetSize : Option UInt32
  baseReserve : Option UInt32
  flags : Option UInt32
  maxSorobanTxSetSize : Option UInt32
  configUpgradeSetKey : Option ConfigUpgradeSetKey

namespace LedgerUpgrade

def upgradeTypeOrder : LedgerUpgrade → Nat
  | version _ => 0
  | baseFee _ => 1
  | maxTxSetSize _ => 2
  | baseReserve _ => 3
  | flags _ => 4
  | config _ => 5
  | maxSorobanTxSetSize _ => 6

/-- Validity of everything but a config upgrade, which needs the ledger. -/
def validForApplyNonConfig (upgrade : LedgerUpgrade)
    (currentVersion maxProtocolVersion : UInt32) : Bool :=
  match upgrade with
  | version newVersion => newVersion ≤ maxProtocolVersion && newVersion > currentVersion
  | baseFee fee => fee != 0
  | maxTxSetSize _ => true
  | baseReserve reserve => reserve != 0
  | flags newFlags => currentVersion ≥ 18 && newFlags &&& ~~~maskLedgerHeaderFlags == 0
  | maxSorobanTxSetSize _ => currentVersion ≥ 20
  | config _ => true

def isValidForApply (configUpgradeSet : ConfigUpgradeSetKey → Option ConfigUpgradeValidity)
    (currentVersion : UInt32) : LedgerUpgrade → Bool
  | config key =>
    if currentVersion < minSorobanProtocolVersion then false
    else configUpgradeSet key == some .valid
  | other => other.validForApplyNonConfig currentVersion currentLedgerProtocolVersion

/-- It is time, and the upgrade is the one that the node is configured for. -/
def isValidForNomination (params : UpgradeParameters) (closeTime : Nat)
    (upgrade : LedgerUpgrade) : Bool :=
  if closeTime ≥ params.upgradeTime then
    match upgrade with
    | version newVersion => params.protocolVersion == some newVersion
    | baseFee fee => params.baseFee == some fee
    | maxTxSetSize size => params.maxTxSetSize == some size
    | baseReserve reserve => params.baseReserve == some reserve
    | flags newFlags => params.flags == some newFlags
    | config key => params.configUpgradeSetKey == some key
    | maxSorobanTxSetSize size => params.maxSorobanTxSetSize == some size
  else false

/-- Whether the new upgrade is above the one held, of the same type. -/
def compareUpgrades (new existing : LedgerUpgrade) : Bool :=
  match new, existing with
  | version a, version b => a > b
  | baseFee a, baseFee b => a > b
  | maxTxSetSize a, maxTxSetSize b => a > b
  | baseReserve a, baseReserve b => a > b
  | flags a, flags b => a > b
  | config a, config b =>
    a.contractId > b.contractId || b.contractId == a.contractId && a.contentHash > b.contentHash
  | maxSorobanTxSetSize a, maxSorobanTxSetSize b => a > b
  | _, _ => false

def mergeUpgrade : List LedgerUpgrade → LedgerUpgrade → List LedgerUpgrade
  | [], upgrade => [upgrade]
  | existing :: rest, upgrade =>
    if upgrade.upgradeTypeOrder < existing.upgradeTypeOrder then upgrade :: existing :: rest
    else if upgrade.upgradeTypeOrder = existing.upgradeTypeOrder then
      (if compareUpgrades upgrade existing then upgrade else existing) :: rest
    else existing :: mergeUpgrade rest upgrade

/-! ### The maximum of each type -/

/-- Types strictly increase. -/
def Ordered (upgrades : List LedgerUpgrade) : Prop :=
  upgrades.Pairwise fun a b => a.upgradeTypeOrder < b.upgradeTypeOrder

/-- The upgrades held are the maxima of the types among those seen. -/
structure MaximaOf (seen merged : List LedgerUpgrade) : Prop where
  ordered : Ordered merged
  seen_of_mem : ∀ upgrade ∈ merged, upgrade ∈ seen
  maximum : ∀ upgrade ∈ seen, ∃ held ∈ merged,
    held.upgradeTypeOrder = upgrade.upgradeTypeOrder ∧ compareUpgrades upgrade held = false

def magnitude : LedgerUpgrade → Nat ×ₗ Nat
  | version n => toLex (n.toNat, 0)
  | baseFee n => toLex (n.toNat, 0)
  | maxTxSetSize n => toLex (n.toNat, 0)
  | baseReserve n => toLex (n.toNat, 0)
  | flags n => toLex (n.toNat, 0)
  | config key => toLex (key.contractId, key.contentHash)
  | maxSorobanTxSetSize n => toLex (n.toNat, 0)

theorem compareUpgrades_iff {new existing : LedgerUpgrade}
    (htype : new.upgradeTypeOrder = existing.upgradeTypeOrder) :
    compareUpgrades new existing = true ↔ existing.magnitude < new.magnitude := by
  cases new <;> cases existing <;> first
    | (cases htype; done)
    | simp [compareUpgrades, magnitude, Prod.Lex.toLex_lt_toLex, UInt32.lt_iff_toNat_lt]

theorem compareUpgrades_self (upgrade : LedgerUpgrade) :
    compareUpgrades upgrade upgrade = false := by
  rw [Bool.eq_false_iff, Ne, compareUpgrades_iff rfl]
  exact lt_irrefl _

/-- What is not above the smaller one is not above the larger one. -/
theorem compareUpgrades_mono {upgrade held larger : LedgerUpgrade}
    (htype : upgrade.upgradeTypeOrder = held.upgradeTypeOrder)
    (hlarger : larger.upgradeTypeOrder = held.upgradeTypeOrder)
    (hle : compareUpgrades upgrade held = false) (habove : compareUpgrades larger held = true) :
    compareUpgrades upgrade larger = false := by
  rw [Bool.eq_false_iff, Ne, compareUpgrades_iff htype] at hle
  rw [compareUpgrades_iff hlarger] at habove
  rw [Bool.eq_false_iff, Ne, compareUpgrades_iff (htype.trans hlarger.symm)]
  exact fun habove' => hle (habove.trans habove')

variable {merged : List LedgerUpgrade} {upgrade : LedgerUpgrade}

theorem mem_mergeUpgrade {held : LedgerUpgrade} (hheld : held ∈ mergeUpgrade merged upgrade) :
    held = upgrade ∨ held ∈ merged := by
  induction merged with
  | nil => exact Or.inl (mem_singleton.mp hheld)
  | cons existing rest ih =>
    unfold mergeUpgrade at hheld
    split at hheld
    · exact mem_cons.mp hheld
    split at hheld
    · rcases mem_cons.mp hheld with rfl | hrest
      · split
        · exact Or.inl rfl
        · exact Or.inr mem_cons_self
      · exact Or.inr (mem_cons_of_mem _ hrest)
    · rcases mem_cons.mp hheld with rfl | hrest
      · exact Or.inr mem_cons_self
      · exact (ih hrest).imp_right (mem_cons_of_mem _)

theorem order_mem_mergeUpgrade {held : LedgerUpgrade} (hheld : held ∈ mergeUpgrade merged upgrade) :
    held.upgradeTypeOrder = upgrade.upgradeTypeOrder ∨
      ∃ before ∈ merged, held.upgradeTypeOrder = before.upgradeTypeOrder :=
  (mem_mergeUpgrade hheld).imp (congrArg _) fun hbefore => ⟨held, hbefore, rfl⟩

theorem Ordered.mergeUpgrade (hordered : Ordered merged) :
    Ordered (mergeUpgrade merged upgrade) := by
  induction merged with
  | nil => exact pairwise_singleton _ _
  | cons existing rest ih =>
    obtain ⟨habove, hrest⟩ := pairwise_cons.mp hordered
    unfold LedgerUpgrade.mergeUpgrade
    split
    next hlt =>
      refine pairwise_cons.mpr ⟨fun held hheld => ?_, hordered⟩
      rcases mem_cons.mp hheld with rfl | hheld
      · exact hlt
      · exact hlt.trans (habove held hheld)
    next hlt =>
      split
      next heq =>
        refine pairwise_cons.mpr ⟨fun held hheld => ?_, hrest⟩
        split
        · exact heq ▸ habove held hheld
        · exact habove held hheld
      next hne =>
        refine pairwise_cons.mpr ⟨fun held hheld => ?_, ih hrest⟩
        rcases order_mem_mergeUpgrade hheld with heq | ⟨before, hbefore, heq⟩
        · omega
        · exact heq ▸ habove before hbefore

theorem exists_held_mergeUpgrade (merged : List LedgerUpgrade) (upgrade : LedgerUpgrade) :
    (∃ held ∈ mergeUpgrade merged upgrade,
      held.upgradeTypeOrder = upgrade.upgradeTypeOrder ∧ compareUpgrades upgrade held = false) ∧
    ∀ before ∈ merged, ∃ held ∈ mergeUpgrade merged upgrade,
      held.upgradeTypeOrder = before.upgradeTypeOrder ∧
        (held = before ∨ compareUpgrades held before = true) := by
  induction merged with
  | nil =>
    refine ⟨⟨upgrade, mem_singleton_self _, rfl, compareUpgrades_self upgrade⟩, ?_⟩
    intro before hbefore
    cases hbefore
  | cons existing rest ih =>
    unfold mergeUpgrade
    split
    next hlt =>
      refine ⟨⟨upgrade, mem_cons_self, rfl, compareUpgrades_self upgrade⟩, ?_⟩
      intro before hbefore
      exact ⟨before, mem_cons_of_mem _ hbefore, rfl, Or.inl rfl⟩
    next hlt =>
      split
      next heq =>
        have hkept (chosen : LedgerUpgrade) : ∀ before ∈ rest, ∃ held ∈ chosen :: rest,
            held.upgradeTypeOrder = before.upgradeTypeOrder ∧
              (held = before ∨ compareUpgrades held before = true) := fun before hbefore =>
          ⟨before, mem_cons_of_mem _ hbefore, rfl, Or.inl rfl⟩
        split
        next hcompare =>
          refine ⟨⟨upgrade, mem_cons_self, rfl, compareUpgrades_self upgrade⟩, ?_⟩
          rintro before (_ | ⟨_, hbefore⟩)
          · exact ⟨upgrade, mem_cons_self, heq, Or.inr hcompare⟩
          · exact hkept upgrade before hbefore
        next hcompare =>
          refine ⟨⟨existing, mem_cons_self, heq.symm, Bool.eq_false_iff.mpr hcompare⟩, ?_⟩
          rintro before (_ | ⟨_, hbefore⟩)
          · exact ⟨existing, mem_cons_self, rfl, Or.inl rfl⟩
          · exact hkept existing before hbefore
      next hne =>
        obtain ⟨⟨held, hheld, hspec⟩, hkept⟩ := ih
        refine ⟨⟨held, mem_cons_of_mem _ hheld, hspec⟩, ?_⟩
        rintro before (_ | ⟨_, hbefore⟩)
        · exact ⟨existing, mem_cons_self, rfl, Or.inl rfl⟩
        · obtain ⟨held, hheld, hspec⟩ := hkept before hbefore
          exact ⟨held, mem_cons_of_mem _ hheld, hspec⟩

theorem MaximaOf.nil : MaximaOf [] [] where
  ordered := List.Pairwise.nil
  seen_of_mem _ hmem := hmem
  maximum _ hmem := absurd hmem not_mem_nil

variable {seen : List LedgerUpgrade}

theorem MaximaOf.mergeUpgrade (hmaxima : MaximaOf seen merged) :
    MaximaOf (seen ++ [upgrade]) (mergeUpgrade merged upgrade) where
  ordered := hmaxima.ordered.mergeUpgrade
  seen_of_mem held hheld := by
    rcases mem_mergeUpgrade hheld with rfl | hbefore
    · exact mem_append_right _ (mem_singleton_self _)
    · exact mem_append_left _ (hmaxima.seen_of_mem held hbefore)
  maximum := by
    obtain ⟨hnew, hkept⟩ := exists_held_mergeUpgrade merged upgrade
    intro other hother
    rcases mem_append.mp hother with hother | hother
    · obtain ⟨before, hbefore, htype, hle⟩ := hmaxima.maximum other hother
      obtain ⟨held, hheld, hheldType, habove⟩ := hkept before hbefore
      refine ⟨held, hheld, hheldType.trans htype, ?_⟩
      rcases habove with rfl | habove
      · exact hle
      · exact compareUpgrades_mono htype.symm hheldType hle habove
    · rw [mem_singleton.mp hother]
      exact hnew

theorem maximaOf_foldl (upgrades : List LedgerUpgrade) (hmaxima : MaximaOf seen merged) :
    MaximaOf (seen ++ upgrades) (upgrades.foldl LedgerUpgrade.mergeUpgrade merged) := by
  induction upgrades generalizing seen merged with
  | nil => rwa [append_nil]
  | cons upgrade rest ih =>
    rw [foldl_cons, append_cons]
    exact ih hmaxima.mergeUpgrade

theorem MaximaOf.perm {seen seen' : List LedgerUpgrade} (hmaxima : MaximaOf seen merged)
    (hperm : seen.Perm seen') : MaximaOf seen' merged where
  ordered := hmaxima.ordered
  seen_of_mem upgrade hupgrade := hperm.mem_iff.mp (hmaxima.seen_of_mem upgrade hupgrade)
  maximum upgrade hupgrade := hmaxima.maximum upgrade (hperm.mem_iff.mpr hupgrade)

theorem MaximaOf.length_eq (hmaxima : MaximaOf seen merged) :
    merged.length = (seen.map upgradeTypeOrder).toFinset.card := by
  have hnodup : (merged.map upgradeTypeOrder).Nodup :=
    pairwise_map.mpr (hmaxima.ordered.imp fun hlt => hlt.ne)
  rw [← length_map upgradeTypeOrder, ← toFinset_card_of_nodup hnodup]
  congr 1
  ext order
  simp only [mem_toFinset, mem_map]
  constructor
  · rintro ⟨held, hheld, rfl⟩
    exact ⟨held, hmaxima.seen_of_mem held hheld, rfl⟩
  · rintro ⟨upgrade, hupgrade, rfl⟩
    obtain ⟨held, hheld, htype, -⟩ := hmaxima.maximum upgrade hupgrade
    exact ⟨held, hheld, htype⟩

end LedgerUpgrade

end Henyey.Herder
