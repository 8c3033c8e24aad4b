import Henyey.Upgrading.Settings

/-!
# What the upgrades do to the window

A version upgrade finds and keeps the settings of its version. Every valid upgrade set that
is loaded resizes the window to the number of samples it names, and new memory costs
overwrite the samples, as a new version does.
-/

namespace Henyey.Upgrading

open Foundation Ledger ConfigUpgradeSetFrame ConfigSettingEntry List
open Herder (ConfigUpgradeSetKey LedgerUpgrade minSorobanProtocolVersion)

variable {I B S : Type} [DecidableEq I] {encoding : Encoding I B S}
  {start : CloseState I (EntryBody B) S} {held : Set ConfigSettingId} {sampleSize : ℕ}
  {window : List UInt64} {sorobanState : S}

/-! ### Version steps -/

theorem triple_onlyIf {σ : Type} {pre post failed : σ → Prop} {condition : Bool}
    {program : EStateM UpgradeError σ Unit}
    (hprogram : condition = true → Triple pre program (fun _ => post) failed)
    (hskip : condition = false → ∀ start, pre start → post start) :
    Triple pre (onlyIf condition program) (fun _ => post) failed := by
  cases condition with
  | true => exact hprogram rfl
  | false => exact .pure (hskip rfl)

theorem triple_resizeAndUpdateCostParams (ledgerSeq : U32) (cpuUpdates memUpdates : B → B)
    (hcpu : .contractCostParamsCpuInstructions ∈ held)
    (hmem : .contractCostParamsMemoryBytes ∈ held) :
    Triple (Settled encoding start held sampleSize window sorobanState)
      (resizeAndUpdateCostParams encoding ledgerSeq cpuUpdates memUpdates)
      (fun _ => Settled encoding start held sampleSize window sorobanState) never := by
  refine .through (fun _ => Settled encoding start held sampleSize window sorobanState) ?_
    fun _ => ?_
  · refine .bind (triple_rewriteKept hcpu (by decide) ?_) fun _ => .pure fun _ h => h
    intro entry setting hsetting hdiscriminant
    cases setting <;> cases hdiscriminant
    rw [hsetting]
    exact ⟨_, _, rfl, rfl, rfl, rfl, rfl⟩
  · refine .bind (triple_rewriteKept hmem (by decide) ?_) fun _ => .pure fun _ h => h
    intro entry setting hsetting hdiscriminant
    cases setting <;> cases hdiscriminant
    rw [hsetting]
    exact ⟨_, _, rfl, rfl, rfl, rfl, rfl⟩

theorem ConfigSettingId.startsFrom_cases (id : ConfigSettingId) :
    id.startsFrom = 0 ∨ id.startsFrom = 23 ∨ id.startsFrom = 26 := by
  cases id with
  | other id => cases id <;> decide
  | _ => decide

theorem mem_heldAt {id : ConfigSettingId} (hstored : id.storedAs = id) (hbase : id.startsFrom = 0)
    (version : UInt32) : id ∈ heldAt version := by
  refine ⟨hstored, ?_⟩
  rw [hbase]
  exact UInt32.zero_le

/-- A version that needs no upgrade was reached before. -/
theorem le_of_not_needs {target prevVersion newVersion : UInt32}
    (hneeds : needsUpgradeToVersion target prevVersion newVersion = false)
    (hle : target ≤ newVersion) : target ≤ prevVersion := by
  by_contra hlt
  have hyes : needsUpgradeToVersion target prevVersion newVersion = true := by
    simp [needsUpgradeToVersion, UInt32.not_le.mp hlt, hle]
  rw [hneeds] at hyes
  cases hyes

variable {context : CloseContext I B S}

theorem triple_updateRentCostParamsForV23 (hcost : .other .contractLedgerCostV0 ∈ held)
    (harchival : .stateArchival ∈ held) :
    Triple (Settled context.encoding start held sampleSize window sorobanState)
      (updateRentCostParamsForV23 context)
      (fun _ => Settled context.encoding start held sampleSize window sorobanState) never := by
  refine .bind (triple_rewriteKept hcost (by simp) ?_) fun _ => ?_
  · intro entry setting hsetting hdiscriminant
    cases setting <;> cases hdiscriminant
    rw [hsetting]
    exact ⟨_, _, rfl, rfl, rfl, rfl, rfl⟩
  refine .bind (triple_rewriteKept harchival (by simp) ?_) fun _ => .pure fun _ h => h
  intro entry setting hsetting hdiscriminant
  cases setting <;> cases hdiscriminant
  rw [hsetting]
  exact ⟨_, _, rfl, rfl, rfl, rfl, rfl⟩

/-- Protocol 23 creates the settings that start with it. -/
theorem triple_createAndUpdateLedgerEntriesForV23 (hcost : .other .contractLedgerCostV0 ∈ held)
    (harchival : .stateArchival ∈ held) :
    Triple (Settled context.encoding start held sampleSize window sorobanState)
      (createAndUpdateLedgerEntriesForV23 context)
      (fun _ => Settled context.encoding start {id | id ∈ held ∨ id.startsFrom = 23} sampleSize
        window sorobanState) never := by
  refine .bind (triple_createSetting _ (by simp [discriminant]) rfl) fun _ => ?_
  refine .bind (triple_createSetting _ (by simp [discriminant]) rfl) fun _ => ?_
  refine .of_pre fun s hsettled => ?_
  obtain ⟨entry, setting, hentry, hsetting, hdiscriminant, -⟩ :=
    hsettled.exists_entry (.inr (.inr hcost))
  refine .bind (triple_getEntry _) fun read => .of_pre ?_
  rintro _ ⟨rfl, rfl⟩
  rw [hentry]
  dsimp only
  cases setting <;> cases hdiscriminant
  rw [hsetting]
  dsimp only
  refine (Triple.bind (triple_createSetting _ (by simp [discriminant]) rfl)
    fun _ => ?_).strengthen fun _ h => h ▸ hsettled
  refine (triple_updateRentCostParamsForV23 (.inr (.inr (.inr hcost)))
    (.inr (.inr (.inr harchival)))).weaken fun _ reached hreached => ?_
  refine hreached.mono fun id hid => ?_
  rcases hid with hid | hid
  · exact .inr (.inr (.inr hid))
  · cases id with
    | other id =>
      cases id with
      | contractLedgerCostExtV0 => exact .inl rfl
      | scpTiming => exact .inr (.inl rfl)
      | contractParallelComputeV0 => exact .inr (.inr (.inl rfl))
      | _ => cases hid
    | _ => cases hid

theorem triple_createLedgerEntriesForV26 :
    Triple (Settled context.encoding start held sampleSize window sorobanState)
      (createLedgerEntriesForV26 context)
      (fun _ => Settled context.encoding start
        {id | id ∈ held ∨ id.storedAs = id ∧ id.startsFrom = 26} sampleSize window sorobanState)
      never := by
  refine .bind (triple_createSetting _ (by simp [discriminant]) rfl) fun _ => ?_
  refine (triple_createSetting _ (by simp [discriminant]) rfl).weaken
    fun _ reached hreached => ?_
  refine hreached.mono fun id hid => ?_
  rcases hid with hid | ⟨hstored, hid⟩
  · exact .inr (.inr hid)
  · cases id with
    | frozenLedgerKeys => exact .inr (.inl rfl)
    | freezeBypassTxs => exact .inl rfl
    | other id => cases id <;> cases hid
    | frozenLedgerKeysDelta | freezeBypassTxsDelta => cases hstored
    | _ => cases hid

/-- From protocol 20 on a version upgrade succeeds, and the ledger holds the settings of the
new version. -/
theorem triple_applyVersionUpgradeSideEffects {prevVersion protocolVersion : UInt32}
    (baseReserve : UInt32) (hprev : minSorobanProtocolVersion ≤ prevVersion) :
    Triple (Settled context.encoding start (heldAt prevVersion) sampleSize window sorobanState)
      (applyVersionUpgradeSideEffects context baseReserve prevVersion protocolVersion)
      (fun _ => Settled context.encoding start (heldAt protocolVersion) sampleSize window
        sorobanState) never := by
  have hnever (target : UInt32) (htarget : target ≤ minSorobanProtocolVersion) :
      ¬needsUpgradeToVersion target prevVersion protocolVersion = true := by
    intro hneeds
    rw [needsUpgradeToVersion, Bool.and_eq_true, decide_eq_true_eq] at hneeds
    exact UInt32.not_lt.mpr (UInt32.le_trans htarget hprev) hneeds.1
  -- the settings held until protocol 26 is reached
  let before26 : Set ConfigSettingId :=
    {id ∈ heldAt protocolVersion | id.startsFrom = 26 → 26 ≤ prevVersion}
  have hbase (id : ConfigSettingId) (hid : id.storedAs = id) (hbase : id.startsFrom = 0) :
      id ∈ heldAt prevVersion ∧ id ∈ before26 :=
    ⟨mem_heldAt hid hbase _, mem_heldAt hid hbase _, fun h26 => by rw [hbase] at h26; cases h26⟩
  unfold applyVersionUpgradeSideEffects
  dsimp only
  refine .bind (triple_onlyIf (fun h => absurd h (hnever 20 (by decide))) fun _ _ h => h) fun _ => ?_
  refine .bind (triple_onlyIf (fun _ => triple_resizeAndUpdateCostParams _ _ _
    (hbase _ rfl rfl).1 (hbase _ rfl rfl).1) fun _ _ h => h) fun _ => ?_
  refine .bind (triple_onlyIf (fun _ => triple_resizeAndUpdateCostParams _ _ _
    (hbase _ rfl rfl).1 (hbase _ rfl rfl).1) fun _ _ h => h) fun _ => ?_
  refine .through (fun _ => Settled context.encoding start before26 sampleSize window sorobanState)
    (triple_onlyIf (fun hneeds => ?_) fun hneeds s hsettled => ?_) fun _ => ?_
  · refine (triple_createAndUpdateLedgerEntriesForV23 (hbase _ rfl rfl).1
      (hbase _ rfl rfl).1).weaken fun _ s hsettled => ?_
    refine hsettled.mono fun id ⟨⟨hstored, _⟩, h26⟩ => ?_
    rcases id.startsFrom_cases with hfrom | hfrom | hfrom
    · exact .inl (mem_heldAt hstored hfrom _)
    · exact .inr hfrom
    · exact .inl ⟨hstored, hfrom ▸ h26 hfrom⟩
  · refine hsettled.mono fun id ⟨⟨hstored, hversion⟩, h26⟩ => ⟨hstored, ?_⟩
    rcases id.startsFrom_cases with hfrom | hfrom | hfrom
    · exact hfrom ▸ UInt32.zero_le
    · rw [hfrom] at hversion ⊢
      exact le_of_not_needs hneeds hversion
    · exact hfrom ▸ h26 hfrom
  refine .bind (triple_onlyIf (fun _ => triple_resizeAndUpdateCostParams _ _ _
    (hbase _ rfl rfl).2 (hbase _ rfl rfl).2) fun _ _ h => h) fun _ => ?_
  refine .through (fun _ => Settled context.encoding start (heldAt protocolVersion) sampleSize window
    sorobanState) (triple_onlyIf (fun hneeds => ?_) fun hneeds s hsettled => ?_) fun _ => ?_
  · refine .bind (triple_resizeAndUpdateCostParams _ _ _ (hbase _ rfl rfl).2
      (hbase _ rfl rfl).2) fun _ => ?_
    refine triple_createLedgerEntriesForV26.weaken fun _ s hsettled => ?_
    refine hsettled.mono fun id ⟨hstored, hversion⟩ => ?_
    by_cases hfrom : id.startsFrom = 26
    · exact .inr ⟨hstored, hfrom⟩
    · exact .inl ⟨⟨hstored, hversion⟩, fun h26 => absurd h26 hfrom⟩
  · refine hsettled.mono fun id ⟨hstored, hversion⟩ => ⟨⟨hstored, hversion⟩, fun h26 => ?_⟩
    exact le_of_not_needs hneeds (h26 ▸ hversion)
  refine .bind (triple_onlyIf (fun h => absurd h (hnever 10 (by decide))) fun _ _ h => h) fun _ => ?_
  refine .bind (triple_onlyIf (fun _ => .of_pre fun s hsettled => ?_) fun _ _ h => h)
    fun _ => .pure fun _ h => h
  refine (triple_recordFeePoolDelta _).weaken fun _ reached hsame => ?_
  exact hsettled.spared ⟨fun _ => by rw [hsame.1], fun _ _ _ => by rw [hsame.1],
    fun _ => by rw [hsame.1], hsame.2⟩

/-! ### Applying an upgrade set -/

namespace ConfigUpgradeSetFrame

variable (frame : ConfigUpgradeSetFrame B)

def newSampleSize : Option ℕ := frame.configUpgradeSet.findSome? sampleSizeOf

def writesMemoryCosts : Bool :=
  frame.configUpgradeSet.any fun setting => setting.discriminant = .contractCostParamsMemoryBytes

/-- The window in the size that the upgrade set names, if it names one. -/
def resized (window : List UInt64) : List UInt64 :=
  match frame.newSampleSize with
  | none => window
  | some newSampleSize => resizeWindow newSampleSize window

end ConfigUpgradeSetFrame

/-- Settings that an upgrade may write: held, and at most one number of samples. -/
structure Writable (held : Set ConfigSettingId) (settings : List (ConfigSettingEntry B)) : Prop where
  held : ∀ setting ∈ settings, setting.discriminant.storedAs ∈ held
  upgradeable : ∀ setting ∈ settings, isNonUpgradeable setting.discriminant = false
  once : (settings.filterMap sampleSizeOf).length ≤ 1

theorem triple_applyFrozenKeysDelta {delta : ConfigSettingEntry B}
    (hdelta : delta.discriminant = .frozenLedgerKeysDelta) (hheld : .frozenLedgerKeys ∈ held) :
    Triple (Settled encoding start held sampleSize window sorobanState)
      (applyFrozenKeysDelta encoding delta)
      (fun _ => Settled encoding start held sampleSize window sorobanState) never := by
  cases delta <;> cases hdelta
  refine .bind .get fun _ => ?_
  refine .bind ((triple_rewriteKept hheld (by decide) ?_).strengthen fun _ h => h.2)
    fun _ => .pure fun _ h => h
  intro entry setting hsetting hdiscriminant
  cases setting <;> cases hdiscriminant
  rw [hsetting]
  exact ⟨_, _, rfl, rfl, rfl, rfl, rfl⟩

theorem triple_applyFreezeBypassDelta {delta : ConfigSettingEntry B}
    (hdelta : delta.discriminant = .freezeBypassTxsDelta) (hheld : .freezeBypassTxs ∈ held) :
    Triple (Settled encoding start held sampleSize window sorobanState)
      (applyFreezeBypassDelta encoding delta)
      (fun _ => Settled encoding start held sampleSize window sorobanState) never := by
  cases delta <;> cases hdelta
  refine .bind .get fun _ => ?_
  refine .bind ((triple_rewriteKept hheld (by decide) ?_).strengthen fun _ h => h.2)
    fun _ => .pure fun _ h => h
  intro entry setting hsetting hdiscriminant
  cases setting <;> cases hdiscriminant
  rw [hsetting]
  exact ⟨_, _, rfl, rfl, rfl, rfl, rfl⟩

open ConfigUpgradeSetFrame (Met applySetting)

/-- What a setting adds to what has been met, over a window of `sampleSize` samples. -/
structure Meets (sampleSize : ℕ) (setting : ConfigSettingEntry B) (met met' : Met) : Prop where
  memoryCosts : met'.memoryCostParamsChanged =
    (met.memoryCostParamsChanged || setting.discriminant = .contractCostParamsMemoryBytes)
  sampleSize : met'.windowSampleSizeChanged =
    (met.windowSampleSizeChanged || (sampleSizeOf setting).any (sampleSize != ·))

theorem triple_applySetting (met : Met) {setting : ConfigSettingEntry B}
    (hheld : setting.discriminant.storedAs ∈ held)
    (hupgradeable : isNonUpgradeable setting.discriminant = false) :
    Triple (Settled encoding start held sampleSize window sorobanState)
      (applySetting encoding met setting)
      (fun met' reached =>
        Settled encoding start held ((sampleSizeOf setting).getD sampleSize) window sorobanState
          reached ∧ Meets sampleSize setting met met') never := by
  unfold applySetting
  by_cases hfrozen : setting.discriminant = .frozenLedgerKeysDelta
  · rw [if_pos hfrozen]
    refine .bind (triple_applyFrozenKeysDelta hfrozen (by rw [hfrozen] at hheld; exact hheld))
      fun _ => .pure fun _ h => ?_
    cases setting <;> cases hfrozen
    exact ⟨h, by simp [discriminant], by simp [sampleSizeOf]⟩
  rw [if_neg hfrozen]
  by_cases hbypass : setting.discriminant = .freezeBypassTxsDelta
  · rw [if_pos hbypass]
    refine .bind (triple_applyFreezeBypassDelta hbypass (by rw [hbypass] at hheld; exact hheld))
      fun _ => .pure fun _ h => ?_
    cases setting <;> cases hbypass
    exact ⟨h, by simp [discriminant], by simp [sampleSizeOf]⟩
  rw [if_neg hbypass]
  have hstored : setting.discriminant.storedAs = setting.discriminant := by
    cases setting with
    | frozenLedgerKeysDelta => exact absurd rfl hfrozen
    | freezeBypassTxsDelta => exact absurd rfl hbypass
    | _ => rfl
  rw [hstored] at hheld
  have hwindow : setting.discriminant ≠ .liveSorobanStateSizeWindow := by
    intro hwindow
    rw [hwindow] at hupgradeable
    cases hupgradeable
  refine .bind .get fun _ => ?_
  refine .bind ((triple_rewriteEntry ((sampleSizeOf setting).getD sampleSize) hheld hwindow
    ?_).strengthen fun _ h => h.2) fun (previous, _) => .pure ?_
  · intro entry old hold hdiscriminant hsize
    exact ⟨_, _, rfl, rfl, rfl, rfl, rfl⟩
  · rintro reached ⟨hreached, old, hold, hkind, hsize⟩
    refine ⟨hreached, rfl, ?_⟩
    -- the number of samples before is that of the window
    dsimp only at hold ⊢
    unfold changesSampleSize
    rw [hold]
    cases setting with
    | stateArchival size rest =>
      cases old <;> cases hkind
      simp [sampleSizeOf, hsize _ rfl]
    | _ => cases old <;> simp [sampleSizeOf]

theorem Writable.tail {setting : ConfigSettingEntry B} {rest : List (ConfigSettingEntry B)}
    (hwritable : Writable held (setting :: rest)) : Writable held rest where
  held other hother := hwritable.held other (mem_cons_of_mem _ hother)
  upgradeable other hother := hwritable.upgradeable other (mem_cons_of_mem _ hother)
  once := by
    have honce := hwritable.once
    rw [filterMap_cons] at honce
    split at honce
    · exact honce
    · rw [length_cons] at honce
      omega

/-- All settings are written; the number of samples is the one that is named. -/
theorem triple_applySettings (settings : List (ConfigSettingEntry B))
    (hwritable : Writable held settings) (met : Met) :
    Triple (Settled encoding start held sampleSize window sorobanState)
      (settings.foldlM (applySetting encoding) met)
      (fun met' reached =>
        Settled encoding start held ((settings.findSome? sampleSizeOf).getD sampleSize) window
          sorobanState reached ∧
        met'.memoryCostParamsChanged = (met.memoryCostParamsChanged ||
          settings.any (·.discriminant = .contractCostParamsMemoryBytes)) ∧
        met'.windowSampleSizeChanged = (met.windowSampleSizeChanged ||
          (settings.findSome? sampleSizeOf).any (sampleSize != ·))) never := by
  induction settings generalizing met sampleSize with
  | nil => exact .pure fun _ h => ⟨h, by simp, by simp⟩
  | cons setting rest ih =>
    rw [foldlM_cons]
    refine .bind (triple_applySetting met (hwritable.held setting mem_cons_self)
      (hwritable.upgradeable setting mem_cons_self)) fun met' => .of_pre ?_
    rintro _ ⟨hsettled, hmeets⟩
    refine (ih hwritable.tail met').consequence (fun _ h => h ▸ hsettled) (fun met'' reached h => ?_)
      fun _ h => h
    obtain ⟨hreached, hmemory, hsize⟩ := h
    rw [hmeets.memoryCosts] at hmemory
    rw [hmeets.sampleSize] at hsize
    -- no other setting names a number of samples
    have hnone (size : ℕ) (hnamed : sampleSizeOf setting = some size) :
        rest.findSome? sampleSizeOf = none := by
      have honce := hwritable.once
      rw [filterMap_cons, hnamed, length_cons] at honce
      have hempty : rest.filterMap sampleSizeOf = [] :=
        eq_nil_of_length_eq_zero (by omega)
      rw [filterMap_eq_nil_iff] at hempty
      exact findSome?_eq_none_iff.mpr hempty
    rw [findSome?_cons]
    cases hnamed : sampleSizeOf setting with
    | none =>
      rw [hnamed] at hreached hsize
      exact ⟨hreached, by rw [hmemory, any_cons, Bool.or_assoc], by simpa using hsize⟩
    | some size =>
      rw [hnamed, hnone size hnamed] at hreached hsize
      exact ⟨hreached, by rw [hmemory, any_cons, Bool.or_assoc], by simpa using hsize⟩

theorem length_resizeWindow (sampleSize : ℕ) (window : List UInt64) :
    (resizeWindow sampleSize window).length = sampleSize := by
  unfold resizeWindow
  split
  · rw [length_drop]
    omega
  · rw [length_append, length_replicate]
    omega

theorem resizeWindow_self (window : List UInt64) : resizeWindow window.length window = window := by
  simp [resizeWindow]

omit [DecidableEq I] in
theorem Settled.exists_window {s : CloseState I (EntryBody B) S}
    (hsettled : Settled encoding start held sampleSize window sorobanState s) :
    ∃ entry, s.ltx.getEntry (encoding.configKey .liveSorobanStateSizeWindow) = some entry ∧
      settingOf entry = some (.liveSorobanStateSizeWindow window) :=
  Option.bind_eq_some_iff.mp hsettled.window

theorem triple_maybeUpdateStateSizeWindow {frame : ConfigUpgradeSetFrame B} {newSampleSize : ℕ}
    (hnamed : frame.configUpgradeSet.findSome? sampleSizeOf = some newSampleSize)
    (hchanged : newSampleSize ≠ window.length) :
    Triple (Settled encoding start held sampleSize window sorobanState)
      (maybeUpdateStateSizeWindow encoding frame)
      (fun _ => Settled encoding start held sampleSize (resizeWindow newSampleSize window)
        sorobanState) never := by
  refine .of_pre fun s hsettled => ?_
  obtain ⟨entry, hentry, hwindow⟩ := hsettled.exists_window
  unfold maybeUpdateStateSizeWindow
  rw [hnamed]
  refine .bind (triple_getEntry _) fun read => .of_pre ?_
  rintro _ ⟨rfl, rfl⟩
  rw [hentry]
  dsimp only
  rw [hwindow]
  dsimp only
  rw [if_neg hchanged]
  refine .bind .get fun _ => ?_
  exact (triple_updateWindow entry _ _).strengthen fun _ h => h.2 ▸ hsettled

/-- An upgrade set that may be written leaves the window in the size that it names. -/
theorem triple_applyTo {frame : ConfigUpgradeSetFrame B}
    (hwritable : Writable held frame.configUpgradeSet) :
    Triple (Settled encoding start held window.length window sorobanState)
      (frame.applyTo encoding)
      (fun told reached =>
        Settled encoding start held (frame.resized window).length (frame.resized window)
          sorobanState reached ∧ told.2 = frame.writesMemoryCosts) never := by
  refine .bind (triple_applySettings _ hwritable _) fun met => .of_pre ?_
  rintro s ⟨hsettled, hmemory, hsize⟩
  rw [Bool.false_or] at hmemory hsize
  have hend : Triple (· = s) (onlyIf met.windowSampleSizeChanged
      (maybeUpdateStateSizeWindow encoding frame))
      (fun _ => Settled encoding start held (frame.resized window).length (frame.resized window)
        sorobanState) never := by
    cases hnamed : frame.newSampleSize with
    | none =>
      have hsame : frame.resized window = window := by
        rw [resized, hnamed]
      rw [newSampleSize] at hnamed
      rw [hnamed] at hsettled hsize
      rw [hsame]
      refine triple_onlyIf (fun hchanged => ?_) fun _ _ h => h ▸ hsettled
      rw [hsize] at hchanged
      cases hchanged
    | some size =>
      have hresized : frame.resized window = resizeWindow size window := by
        rw [resized, hnamed]
      rw [newSampleSize] at hnamed
      rw [hnamed] at hsettled hsize
      rw [hresized, length_resizeWindow]
      refine triple_onlyIf (fun hchanged => ?_) fun hkept _ h => ?_
      · have hne : size ≠ window.length := by
          intro heq
          rw [hsize, heq] at hchanged
          simp at hchanged
        exact (triple_maybeUpdateStateSizeWindow hnamed hne).strengthen fun _ h => h ▸ hsettled
      · subst h
        have hlength : window.length = size := by simpa [hkept] using hsize
        rw [← hlength, resizeWindow_self]
        rwa [← hlength] at hsettled
  exact .bind hend fun _ => .pure fun _ h => ⟨h, hmemory⟩

/-! ### The size of the Soroban state -/

omit [DecidableEq I] in
theorem triple_loadConfigSetting {id : ConfigSettingId} (hid : id ∈ held) :
    Triple (Settled encoding start held sampleSize window sorobanState)
      (loadConfigSetting encoding id)
      (fun loaded reached => Settled encoding start held sampleSize window sorobanState reached ∧
        ∃ setting, loaded = some setting ∧ setting.discriminant = id) never := by
  refine .of_pre fun s hsettled => ?_
  obtain ⟨entry, setting, hentry, hsetting, hdiscriminant, -⟩ := hsettled.exists_entry hid
  unfold loadConfigSetting
  refine .bind (triple_getEntry _) fun read => .of_pre ?_
  rintro _ ⟨rfl, rfl⟩
  rw [hentry]
  dsimp only
  rw [hsetting]
  exact .pure fun _ h => ⟨h ▸ hsettled, setting, rfl, hdiscriminant⟩

omit [DecidableEq I] in
theorem triple_buildSorobanRentConfig (hcpu : .contractCostParamsCpuInstructions ∈ held)
    (hmem : .contractCostParamsMemoryBytes ∈ held) (hcompute : .contractComputeV0 ∈ held) :
    Triple (Settled encoding start held sampleSize window sorobanState)
      (buildSorobanRentConfig encoding)
      (fun rentConfig reached =>
        Settled encoding start held sampleSize window sorobanState reached ∧
          ∃ config, rentConfig = some config) never := by
  refine .bind (triple_loadConfigSetting hcpu) fun cpuRaw => .of_pre ?_
  rintro s ⟨hs, cpu, rfl, hcpuKind⟩
  refine .bind ((triple_loadConfigSetting hmem).strengthen fun _ h => h ▸ hs)
    fun memRaw => .of_pre ?_
  rintro s' ⟨hs', mem, rfl, hmemKind⟩
  refine .bind ((triple_loadConfigSetting hcompute).strengthen fun _ h => h ▸ hs')
    fun computeRaw => .of_pre ?_
  rintro s'' ⟨hs'', compute, rfl, hcomputeKind⟩
  cases cpu <;> cases hcpuKind
  cases mem <;> cases hmemKind
  cases compute <;> cases hcomputeKind
  exact .pure fun _ h => ⟨h ▸ hs'', _, rfl⟩

theorem triple_overwriteWindow (ledgerSeq : U32) (newSize : UInt64) :
    Triple (Settled encoding start held sampleSize window sorobanState)
      (overwriteWindow encoding ledgerSeq newSize)
      (fun _ => Settled encoding start held sampleSize (window.map fun _ => newSize) sorobanState)
      never := by
  refine .of_pre fun s hsettled => ?_
  obtain ⟨entry, hentry, hwindow⟩ := hsettled.exists_window
  unfold overwriteWindow
  refine .bind (triple_getEntry _) fun read => .of_pre ?_
  rintro _ ⟨rfl, rfl⟩
  rw [hentry]
  dsimp only
  rw [hwindow]
  exact (triple_updateWindow entry _ _).strengthen fun _ h => h ▸ hsettled

/-- From protocol 23 on all samples are the size that has been computed anew. -/
theorem triple_handleUpgradeAffectingSorobanStateSize (version : UInt32) (ledgerSeq : U32)
    (hcpu : .contractCostParamsCpuInstructions ∈ held)
    (hmem : .contractCostParamsMemoryBytes ∈ held) (hcompute : .contractComputeV0 ∈ held) :
    Triple (Settled encoding start held sampleSize window sorobanState)
      (handleUpgradeAffectingSorobanStateSize encoding version ledgerSeq)
      (fun _ reached => ∃ recomputed, Settled encoding start held sampleSize
        (if version ≥ 23 then window.map fun _ => encoding.totalSize recomputed else window)
          recomputed reached) never := by
  refine .bind (triple_buildSorobanRentConfig hcpu hmem hcompute) fun rentConfig => .of_pre ?_
  rintro s ⟨hsettled, config, rfl⟩
  dsimp only
  let recomputed := encoding.recomputeContractCodeSizes version config s.sorobanState
  refine .through (fun _ => Settled encoding start held sampleSize window recomputed) ?_
    fun _ => ?_
  · rintro _ rfl
    exact { hsettled with sorobanState := rfl }
  refine .bind .get fun after => .of_pre ?_
  rintro _ ⟨rfl, hafter⟩
  refine triple_onlyIf (fun hversion => ?_) fun hversion _ h => ⟨recomputed, ?_⟩
  · rw [hafter.sorobanState]
    refine (triple_overwriteWindow _ _).consequence (fun _ h => h ▸ hafter) (fun _ _ h => ?_)
      fun _ h => h
    exact ⟨recomputed, by rwa [if_pos (of_decide_eq_true hversion)]⟩
  · rw [if_neg (of_decide_eq_false hversion)]
    exact h ▸ hafter

end Henyey.Upgrading
