import Henyey.Upgrading.UpgradedWindow

/-!
# The window of state sizes at a commit

Upgrades resize the window of state sizes and overwrite its samples. The commit samples
the size of the Soroban state from time to time; it reads the window that the ledger
began with, resizes it anew, and replaces what the upgrades have left.
-/

namespace Henyey.Upgrading

open Foundation Ledger List
open ConfigUpgradeSetFrame (resizeWindow)
open Herder (LedgerUpgrade currentLedgerProtocolVersion minSorobanProtocolVersion)
open UpgradeContext

variable {I B S : Type}

def windowIn (encoding : Encoding I B S) (ledger : LedgerMap I (EntryBody B)) :
    Option (List UInt64) :=
  match settingIn encoding ledger .liveSorobanStateSizeWindow with
  | some (.liveSorobanStateSizeWindow window) => some window
  | _ => none

/-- Drop the oldest sample and append a new one. -/
def sample (window : List UInt64) (size : UInt64) : List UInt64 := window.tail ++ [size]

/-- The window of the bucket list, resized, and sampled on a sample ledger; `none` when
neither changes it. -/
def computeStateSizeWindowEntry (encoding : Encoding I B S) (seq : U32) (protocolVersion : UInt32)
    (bucketList : LedgerMap I (EntryBody B)) (sorobanStateSize : UInt64)
    (samplePeriod sampleSize : ℕ) : Except UpgradeError (Option (LedgerEntry I (EntryBody B))) :=
  if protocolVersion < minSorobanProtocolVersion then .ok none
  else if samplePeriod = 0 ∨ sampleSize = 0 then
    .error (.internal
      "compute_state_size_window_entry: sample_period or sample_size is 0 (invalid config)")
  else
    match bucketList (encoding.configKey .liveSorobanStateSizeWindow) with
    | none =>
      .error (.internal
        "compute_state_size_window_entry: LiveSorobanStateSizeWindow config entry not found")
    | some windowEntry =>
      match settingOf windowEntry with
      | some (.liveSorobanStateSizeWindow window) =>
        if window = [] then
          .error (.internal
            "compute_state_size_window_entry: window vec is empty (invariant violation)")
        else
          let resized :=
            if window.length ≠ sampleSize then resizeWindow sampleSize window else window
          let isSample := seq.val % samplePeriod = 0 ∧ resized ≠ []
          if window.length = sampleSize ∧ ¬isSample then .ok none
          else
            .ok (some (encoding.configEntry seq (.liveSorobanStateSizeWindow
              (if isSample then sample resized sorobanStateSize else resized))))
      | _ =>
        .error (.internal
          "compute_state_size_window_entry: expected LiveSorobanStateSizeWindow, got wrong variant")

/-- The number of samples, and the other archival settings, after the upgrades. -/
def loadStateArchivalSettings (encoding : Encoding I B S) :
    CloseM I (EntryBody B) S (Option (ℕ × B)) := do
  match ← loadConfigSetting encoding .stateArchival with
  | none => return none
  | some (.stateArchival sampleSize rest) => return some (sampleSize, rest)
  | some _ =>
    throw (.internal
      "load_state_archival_settings: unexpected ConfigSettingEntry variant for StateArchival")

theorem length_sample {window : List UInt64} (hwindow : window ≠ []) (size : UInt64) :
    (sample window size).length = window.length := by
  have hpos := length_pos_iff.mpr hwindow
  simp only [sample, length_append, length_tail, length_singleton]
  omega

/-- On a sample ledger the window of the bucket list is resized and sampled. -/
theorem compute_of_sample {encoding : Encoding I B S} {seq : U32} {protocolVersion : UInt32}
    {bucketList : LedgerMap I (EntryBody B)} (size : UInt64) {samplePeriod sampleSize : ℕ}
    {old : List UInt64} (hversion : minSorobanProtocolVersion ≤ protocolVersion)
    (hsample : 0 < samplePeriod ∧ seq.val % samplePeriod = 0) (hsize : 0 < sampleSize)
    (hold : settingIn encoding bucketList .liveSorobanStateSizeWindow =
      some (.liveSorobanStateSizeWindow old)) (hsamples : old ≠ []) :
    computeStateSizeWindowEntry encoding seq protocolVersion bucketList size samplePeriod
      sampleSize = .ok (some (encoding.configEntry seq (.liveSorobanStateSizeWindow
        (sample (resizeWindow sampleSize old) size)))) := by
  have hresized : resizeWindow sampleSize old ≠ [] := by
    rw [← length_pos_iff, length_resizeWindow]
    exact hsize
  obtain ⟨windowEntry, hentry, hwindow⟩ := Option.bind_eq_some_iff.mp hold
  -- a window of the right length is its own resized window
  have heq : (if old.length ≠ sampleSize then resizeWindow sampleSize old else old) =
      resizeWindow sampleSize old := by
    split
    · rfl
    next hlength => rw [← not_not.mp hlength, resizeWindow_self]
  have hvalid : ¬(samplePeriod = 0 ∨ sampleSize = 0) := by omega
  unfold computeStateSizeWindowEntry
  rw [if_neg (UInt32.not_lt.mpr hversion), if_neg hvalid, hentry]
  dsimp only
  rw [hwindow]
  dsimp only
  rw [if_neg hsamples, heq, if_neg (fun h => h.2 ⟨hsample.2, hresized⟩),
    if_pos ⟨hsample.2, hresized⟩]

/-! ### The commit -/

variable [DecidableEq I] [DecidableEq B] (context : CloseContext I B S) (samplePeriodOf : B → ℕ)

omit [DecidableEq B] in
/-- The ledger that a close commits, from what its upgrades have left and from the bucket
list of the ledger before. The computed window replaces every other one of the batch. -/
def commitStateSizeWindow (bucketList : LedgerMap I (EntryBody B))
    (prevVersion protocolVersion : UInt32) :
    CloseM I (EntryBody B) S (LedgerMap I (EntryBody B)) := do
  let evictionSettings ←
    if prevVersion ≥ 20 then loadStateArchivalSettings context.encoding else pure none
  let s ← get
  if prevVersion < minSorobanProtocolVersion then return s.ltx.getEntry
  let samplePeriod := (evictionSettings.map fun settings => samplePeriodOf settings.2).getD 64
  let sampleSize := (evictionSettings.map Prod.fst).getD 0
  if ¬(0 < samplePeriod ∧ context.ledgerSeq.val % samplePeriod = 0) then return s.ltx.getEntry
  -- the size in memory does not know the changes of this ledger yet
  let sorobanStateSize := context.encoding.totalSize s.sorobanState
  if sampleSize = 0 then return s.ltx.getEntry
  match computeStateSizeWindowEntry context.encoding context.ledgerSeq protocolVersion bucketList
      sorobanStateSize samplePeriod sampleSize with
  | .error error => throw error
  | .ok none => return s.ltx.getEntry
  | .ok (some windowEntry) =>
    return Function.update s.ltx.getEntry
      (context.encoding.configKey .liveSorobanStateSizeWindow) (some windowEntry)

variable (upgrades : List LedgerUpgrade) (prevHeader : LedgerHeader)
  (s : CloseState I (EntryBody B) S)

def committedWindow : Option (List UInt64) :=
  let upgraded := closeUpgrades context upgrades prevHeader s
  match commitStateSizeWindow context samplePeriodOf s.ltx.snapshot prevHeader.ledgerVersion
      upgraded.header.ledgerVersion upgraded.state with
  | .ok ledger _ => windowIn context.encoding ledger
  | .error _ _ => none

theorem le_ledgerVersion_applyToHeader (header : LedgerHeader) :
    header.ledgerVersion ≤
      (applyToHeader ⟨upgrades, header.ledgerVersion⟩ header).ledgerVersion := by
  unfold applyToHeader applyTimeSkipSet
  dsimp only
  -- each upgrade is judged by the version of the header that those before it have left
  induction upgrades generalizing header with
  | nil => exact UInt32.le_refl _
  | cons upgrade rest ih =>
    simp only [skips, zip_cons_cons, foldl_cons]
    cases hvalid : upgrade.validForApplyNonConfig header.ledgerVersion
        currentLedgerProtocolVersion with
    | false =>
      have hraised : raisedBy header.ledgerVersion upgrade false = header.ledgerVersion := by
        cases upgrade <;> rfl
      rw [hraised]
      exact ih header
    | true =>
      have hraised : raisedBy header.ledgerVersion upgrade true =
          (header.set upgrade).ledgerVersion := by
        cases upgrade <;> rfl
      rw [hraised]
      refine UInt32.le_trans ?_ (ih (header.set upgrade))
      cases upgrade with
      | version v =>
        simp only [LedgerUpgrade.validForApplyNonConfig, Bool.and_eq_true,
          decide_eq_true_eq] at hvalid
        exact UInt32.le_of_lt hvalid.2
      | _ => exact UInt32.le_refl _

/-! ### What a close should commit -/

/-- The upgrades have left what they should, and the close commits it, sampled once on a
sample ledger; the committed window has as many samples as the settings name, and is
the old one on other ledgers unless the upgrades change it. -/
structure SampledOnce (isSample : Prop) [Decidable isSample] (sampleSize : ℕ) (size : UInt64)
    (old expected : List UInt64) (left committed : Option (List UInt64)) : Prop where
  left : left = some expected
  window : committed = some (if isSample then sample expected size else expected)
  length : ∀ window ∈ committed, window.length = sampleSize
  unchanged : ¬isSample → expected = old → committed = some old

/-- What the upgrades do to the window is done by them, and done again by the sampling. -/
structure Redone (isSample : Prop) (version : UInt32) (rewrites : Bool) (sampleSize : ℕ)
    (size : UInt64) (old resized : List UInt64) : Prop where
  overwritten : rewrites = true → version < 23 → ∀ sample ∈ resized, sample = size
  resampled : isSample →
    (overwrittenBy size rewrites resized).tail = (resizeWindow sampleSize old).tail

theorem overwrittenBy_eq_iff {size : UInt64} {rewrites : Bool} {version : UInt32}
    {resized : List UInt64} :
    overwrittenBy size (rewrites && version ≥ 23) resized = overwrittenBy size rewrites resized ↔
      (rewrites = true → version < 23 → ∀ sample ∈ resized, sample = size) := by
  cases rewrites with
  | false => simp
  | true =>
    by_cases hversion : version ≥ 23
    · simp [hversion, UInt32.not_lt.mpr hversion]
    · have hlow := UInt32.not_le.mp hversion
      simp only [Bool.true_and, decide_eq_false hversion, hlow, forall_const, overwrittenBy,
        Bool.false_eq_true, if_false, if_true]
      constructor
      · intro heq sample hsample
        rw [heq] at hsample
        exact (mem_map.mp hsample).elim fun _ h => h.2.symm
      · intro hall
        exact (map_id resized).symm.trans (map_congr_left fun sample h => hall sample h)

variable {context upgrades prevHeader s} {old : List UInt64} {sampleSize : ℕ}
  {rest : B}

/-- A close from protocol 20 on commits the window that its upgrades have left, or the old
window in its new size, sampled. -/
theorem committedWindow_eq (hprev : minSorobanProtocolVersion ≤ prevHeader.ledgerVersion)
    (hready : Ready context prevHeader.ledgerVersion old s)
    (hsettings : settingIn context.encoding
      (closeUpgrades context upgrades prevHeader s).state.ltx.getEntry .stateArchival =
        some (.stateArchival sampleSize rest)) :
    let upgraded := (closeUpgrades context upgrades prevHeader s).state
    let size := context.encoding.totalSize upgraded.sorobanState
    let left := overwrittenBy size (rewritesSizes context upgrades prevHeader s &&
      upgradedVersion upgrades prevHeader ≥ 23)
        (resizedBy (upgradeFrames context upgrades prevHeader s) old)
    windowIn context.encoding upgraded.ltx.getEntry = some left ∧ left.length = sampleSize ∧
      0 < sampleSize ∧
        committedWindow context samplePeriodOf upgrades prevHeader s = some
          (if 0 < samplePeriodOf rest ∧ context.ledgerSeq.val % samplePeriodOf rest = 0
            then sample (resizeWindow sampleSize old) size else left) := by
  obtain ⟨hplain, -, sorobanState, hsettled⟩ :=
    upheld_closeUpgrades upgrades hprev hready
  have hversion := UInt32.le_trans hprev (le_ledgerVersion_applyToHeader upgrades prevHeader)
  have hheader : (closeUpgrades context upgrades prevHeader s).header =
      UpgradeContext.applyToHeader ⟨upgrades, prevHeader.ledgerVersion⟩ prevHeader := rfl
  unfold committedWindow
  dsimp only
  rw [hheader]
  generalize (closeUpgrades context upgrades prevHeader s).state = upgraded at *
  generalize resizedBy (upgradeFrames context upgrades prevHeader s) old = resized at *
  generalize (rewritesSizes context upgrades prevHeader s &&
    decide (upgradedVersion upgrades prevHeader ≥ 23)) = overwrites at *
  obtain ⟨rest', harchival⟩ := hsettled.archival
  rw [harchival] at hsettings
  cases hsettings
  rw [hsettled.sorobanState]
  have hleft : windowIn context.encoding upgraded.ltx.getEntry = some
      (overwrittenBy (context.encoding.totalSize sorobanState) overwrites resized) := by
    unfold windowIn
    rw [hsettled.window]
  have hpos : 0 < resized.length := length_pos_iff.mpr hplain
  refine ⟨hleft, length_overwrittenBy _ _ _, hpos, ?_⟩
  -- the settings that count are those after the upgrades
  have hload : loadStateArchivalSettings context.encoding upgraded =
      .ok (some (resized.length, rest)) upgraded := by
    obtain ⟨entry, hentry, hsetting⟩ := Option.bind_eq_some_iff.mp harchival
    have hread : loadConfigSetting context.encoding .stateArchival upgraded =
        .ok (some (.stateArchival resized.length rest)) upgraded := by
      unfold loadConfigSetting
      rw [bind_of_ok (show getEntry _ upgraded = .ok _ upgraded from rfl), hentry]
      dsimp only
      rw [hsetting]
      rfl
    unfold loadStateArchivalSettings
    rw [bind_of_ok hread]
    rfl
  have hprev20 : prevHeader.ledgerVersion ≥ 20 := hprev
  unfold commitStateSizeWindow
  rw [if_pos hprev20, bind_of_ok hload]
  dsimp only [Option.map_some, Option.getD_some]
  rw [bind_of_ok (show (get : CloseM I (EntryBody B) S _) upgraded = .ok upgraded upgraded from rfl),
    if_neg (UInt32.not_lt.mpr hprev)]
  by_cases hsample : 0 < samplePeriodOf rest ∧ context.ledgerSeq.val % samplePeriodOf rest = 0
  · rw [if_neg (not_not.mpr hsample), if_neg hpos.ne', if_pos hsample, hsettled.sorobanState,
      compute_of_sample _ hversion hsample hpos hready.bucketList hready.samples]
    change windowIn context.encoding (Function.update upgraded.ltx.getEntry
      (context.encoding.configKey .liveSorobanStateSizeWindow) (some _)) = _
    rw [windowIn, settingIn, Function.update_self]
    rfl
  · rw [if_pos hsample, if_neg hsample]
    exact hleft

/-- A window of two samples, with a new one every third ledger. -/
def windowSettings : ConfigSettingId → Option (ConfigSettingEntry ℕ)
  | .contractComputeV0 => some (.contractComputeV0 0)
  | .contractCostParamsCpuInstructions => some (.contractCostParamsCpuInstructions 0)
  | .contractCostParamsMemoryBytes => some (.contractCostParamsMemoryBytes 0)
  | .stateArchival => some (.stateArchival 2 3)
  | .contractExecutionLanes => some (.contractExecutionLanes 100)
  | .liveSorobanStateSizeWindow => some (.liveSorobanStateSizeWindow [10, 20])
  | .evictionIterator => some (.evictionIterator 0)
  | .other id => some (.other id 0)
  | _ => none

/-- Two upgrade sets, which their lengths stand for: three samples, and with them new memory
costs that add 20 to the size of the Soroban state. -/
def windowEncoding : Encoding (ConfigSettingId ⊕ ℕ) ℕ ℕ where
  settingKey := .inl
  settingKey_injective := Sum.inl_injective
  upgradeSetContract key := .inr key.contractId
  upgradeSetKey key := .inr key.contentHash
  keyHash
    | .contractData _ key _ => key
    | _ => .inr 0
  decodeUpgradeSet
    | 1 => some [.stateArchival 3 3]
    | 2 => some [.contractCostParamsMemoryBytes 20, .stateArchival 3 3]
    | _ => none
  hashUpgradeSet := length
  meetsConstraints _ _ := true
  recomputeContractCodeSizes _ rentConfig size := size + rentConfig.memCostParams
  totalSize := UInt64.ofNat

def windowContext (ledgerSeq : U32) : CloseContext (ConfigSettingId ⊕ ℕ) ℕ ℕ where
  encoding := windowEncoding
  steps :=
    { createLedgerEntriesForV20 _ _ := pure ()
      cpuUpdates _ := id
      memUpdates _ := id
      initialParallelCompute := 0
      initialScpTiming := 0
      initialLedgerCostExt := id
      ledgerCostForV23 := id
      archivalForV23 := id
      prepareLiabilities _ _ _ := ⟨pure (), fun _ => ⟨fun _ => rfl, fun _ _ _ => rfl, fun _ => rfl, rfl⟩⟩ }
  ledgerSeq := ledgerSeq
  isMainnet := false
  bucketListSize := 0

def windowLedger : LedgerMap (ConfigSettingId ⊕ ℕ) (EntryBody ℕ)
  | .configSetting (.inl id) => (windowSettings id).map (windowEncoding.configEntry 1)
  | .contractData contract (.inr hash) .temporary =>
    some ⟨1, .contractData contract (.inr hash) .temporary (.other hash), none⟩
  | .ttl keyHash => some ⟨1, .ttl keyHash 100, none⟩
  | _ => none

def windowClose (ledgerSeq : U32) : CloseState (ConfigSettingId ⊕ ℕ) (EntryBody ℕ) ℕ where
  ltx := { snapshot := windowLedger, current := .new ledgerSeq, ledgerSeq := ledgerSeq }
  sorobanState := 50

def header25 : LedgerHeader := ⟨25, 100, 1000, 5000000, .v0⟩

theorem ready_windowClose (ledgerSeq : U32) :
    Ready (windowContext ledgerSeq) 25 [10, 20] (windowClose ledgerSeq) := by
  refine ⟨?_, ⟨3, rfl⟩, rfl, rfl, by decide⟩
  rintro id ⟨hstored, hversion⟩
  cases id with
  | frozenLedgerKeysDelta | freezeBypassTxsDelta => cases hstored
  | frozenLedgerKeys | freezeBypassTxs => exact absurd hversion (by decide)
  | _ => rfl

/-- A new version, and the upgrade set with new memory costs. -/
def upgrades26 : List LedgerUpgrade := [.version 26, .config ⟨7, 2⟩]

end Henyey.Upgrading
