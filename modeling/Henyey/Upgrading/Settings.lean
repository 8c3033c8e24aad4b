import Henyey.Upgrading.Context

/-!
# Settings during the upgrades

From protocol 20 on a ledger holds the settings of its version, and its window of state
sizes has the length that the archival settings name. The upgrades of a close keep it so:
they resize the window and overwrite its samples.
-/

namespace Henyey.Upgrading

open Foundation Ledger
open ConfigUpgradeSetFrame (resizeWindow sampleSizeOf isNonUpgradeable)

variable {I B S : Type} (encoding : Encoding I B S)

def settingIn (ledger : LedgerMap I (EntryBody B)) (id : ConfigSettingId) :
    Option (ConfigSettingEntry B) :=
  (ledger (encoding.configKey id)).bind settingOf

/-- The setting that an upgrade of a setting rewrites: deltas rewrite their base. -/
def ConfigSettingId.storedAs : ConfigSettingId → ConfigSettingId
  | frozenLedgerKeysDelta => frozenLedgerKeys
  | freezeBypassTxsDelta => freezeBypassTxs
  | id => id

/-- The settings that a ledger holds at a protocol version. -/
def heldAt (version : UInt32) : Set ConfigSettingId :=
  {id | id.storedAs = id ∧ id.startsFrom ≤ version}

/-- The settings held, the number of samples and the window, while a close upgrades them;
contract data and TTL entries are those of the start. -/
structure Settled (start : CloseState I (EntryBody B) S) (held : Set ConfigSettingId)
    (sampleSize : ℕ) (window : List UInt64) (sorobanState : S)
    (s : CloseState I (EntryBody B) S) : Prop where
  held : ∀ id ∈ held, (settingIn encoding s.ltx.getEntry id).map (·.discriminant) = some id
  archival : ∃ rest, settingIn encoding s.ltx.getEntry .stateArchival =
    some (.stateArchival sampleSize rest)
  window : settingIn encoding s.ltx.getEntry .liveSorobanStateSizeWindow =
    some (.liveSorobanStateSizeWindow window)
  contractData : ∀ contract key durability,
    s.ltx.getEntry (.contractData contract key durability) =
      start.ltx.getEntry (.contractData contract key durability)
  ttl : ∀ keyHash, s.ltx.getEntry (.ttl keyHash) = start.ltx.getEntry (.ttl keyHash)
  sorobanState : s.sorobanState = sorobanState

@[simp]
theorem settingOf_configEntry (ledgerSeq : U32) (setting : ConfigSettingEntry B) :
    settingOf (encoding.configEntry ledgerSeq setting) = some setting := rfl

variable {encoding} {start s reached : CloseState I (EntryBody B) S} {held held' : Set ConfigSettingId}
  {sampleSize sampleSize' : ℕ} {window : List UInt64} {sorobanState : S}

namespace Settled

theorem mono (hsettled : Settled encoding start held sampleSize window sorobanState s)
    (hheld : ∀ id ∈ held', id ∈ held) :
    Settled encoding start held' sampleSize window sorobanState s :=
  { hsettled with held := fun id hid => hsettled.held id (hheld id hid) }

/-- A setting that is held has an entry, of its own kind. -/
theorem exists_entry (hsettled : Settled encoding start held sampleSize window sorobanState s)
    {id : ConfigSettingId} (hid : id ∈ held) :
    ∃ entry setting, s.ltx.getEntry (encoding.configKey id) = some entry ∧
      settingOf entry = some setting ∧ setting.discriminant = id ∧
        ∀ size ∈ sampleSizeOf setting, size = sampleSize := by
  have hheld := hsettled.held id hid
  obtain ⟨setting, hsetting, hdiscriminant⟩ := Option.map_eq_some_iff.mp hheld
  obtain ⟨entry, hentry, hsettingOf⟩ := Option.bind_eq_some_iff.mp hsetting
  refine ⟨entry, setting, hentry, hsettingOf, hdiscriminant, fun size hsize => ?_⟩
  -- only the archival settings name a number of samples
  cases setting with
  | stateArchival size' rest =>
    obtain ⟨rest', harchival⟩ := hsettled.archival
    rw [show id = .stateArchival from hdiscriminant.symm, harchival] at hsetting
    cases hsetting
    exact (Option.some.inj hsize).symm
  | _ => cases hsize

theorem spared (hsettled : Settled encoding start held sampleSize window sorobanState s)
    (hspares : SparesSettings s reached) :
    Settled encoding start held sampleSize window sorobanState reached := by
  have hsame (id : ConfigSettingId) : settingIn encoding reached.ltx.getEntry id =
      settingIn encoding s.ltx.getEntry id := by
    unfold settingIn Encoding.configKey
    rw [hspares.settings]
  refine ⟨fun id hid => ?_, ?_, ?_, fun contract key durability => ?_, fun keyHash => ?_, ?_⟩
  · rw [hsame]
    exact hsettled.held id hid
  · rw [hsame]
    exact hsettled.archival
  · rw [hsame]
    exact hsettled.window
  · rw [hspares.contractData]
    exact hsettled.contractData contract key durability
  · rw [hspares.ttl]
    exact hsettled.ttl keyHash
  · rw [hspares.sorobanState]
    exact hsettled.sorobanState

end Settled

/-! ### Writing a setting -/

variable [DecidableEq I]

theorem settingIn_wrote {id : ConfigSettingId} {entry : LedgerEntry I (EntryBody B)}
    (hwrote : Wrote entry s reached) (hkey : entryToKey entry = encoding.configKey id)
    (other : ConfigSettingId) :
    settingIn encoding reached.ltx.getEntry other =
      if other = id then settingOf entry else settingIn encoding s.ltx.getEntry other := by
  unfold settingIn
  rw [hwrote.getEntry, hkey]
  split
  next hother => rw [hother, Function.update_self, Option.bind_some]
  next hother =>
    have hne : encoding.configKey other ≠ encoding.configKey id := by
      intro heq
      exact hother (encoding.settingKey_injective (LedgerKey.configSetting.inj heq))
    rw [Function.update_of_ne hne]

/-- Contract data, TTL entries and the Soroban state stay when a setting is written. -/
theorem Settled.wrote {entry : LedgerEntry I (EntryBody B)} {setting : ConfigSettingEntry B}
    {window' : List UInt64}
    (hsettled : Settled encoding start held sampleSize window sorobanState s)
    (hwrote : Wrote entry s reached)
    (hkey : entryToKey entry = encoding.configKey setting.discriminant)
    (hsetting : settingOf entry = some setting)
    (hsize : (sampleSizeOf setting).getD sampleSize = sampleSize')
    (hwindow : setting = .liveSorobanStateSizeWindow window' ∨
      setting.discriminant ≠ .liveSorobanStateSizeWindow ∧ window' = window) :
    Settled encoding start (insert setting.discriminant held) sampleSize' window' sorobanState
      reached := by
  have hother (key : LedgerKey I) (hne : ∀ id, key ≠ .configSetting id) :
      reached.ltx.getEntry key = s.ltx.getEntry key := by
    rw [hwrote.getEntry, hkey]
    exact Function.update_of_ne (hne _) _ _
  refine ⟨fun id hid => ?_, ?_, ?_, fun contract key durability => ?_, fun keyHash => ?_, ?_⟩
  · rw [settingIn_wrote hwrote hkey]
    split
    next heq => rw [hsetting, heq, Option.map_some]
    next hne => exact hsettled.held id (hid.resolve_left hne)
  · rw [settingIn_wrote hwrote hkey]
    split
    next heq =>
      -- the archival settings themselves are written
      cases setting with
      | stateArchival size rest => exact ⟨rest, by rw [hsetting, ← hsize]; rfl⟩
      | _ => cases heq
    next hne =>
      have hnone : sampleSizeOf setting = none := by
        cases setting with
        | stateArchival size rest => exact absurd rfl hne
        | _ => rfl
      rw [← hsize, hnone]
      exact hsettled.archival
  · rw [settingIn_wrote hwrote hkey]
    rcases hwindow with rfl | ⟨hne, rfl⟩
    · exact (if_pos rfl).trans hsetting
    · rw [if_neg hne.symm]
      exact hsettled.window
  · rw [hother _ fun id h => by cases h]
    exact hsettled.contractData contract key durability
  · rw [hother _ fun id h => by cases h]
    exact hsettled.ttl keyHash
  · rw [hwrote.sorobanState]
    exact hsettled.sorobanState

/-- A setting that is neither the window nor names a number of samples. -/
theorem triple_createSetting (ledgerSeq : U32) {setting : ConfigSettingEntry B}
    (hwindow : setting.discriminant ≠ .liveSorobanStateSizeWindow)
    (hsize : sampleSizeOf setting = none) :
    Triple (Settled encoding start held sampleSize window sorobanState)
      (recordCreate (encoding.configEntry ledgerSeq setting))
      (fun _ => Settled encoding start (insert setting.discriminant held) sampleSize window
        sorobanState) never := by
  refine .of_pre fun s hsettled => ?_
  refine (triple_recordCreate _).weaken fun _ reached hwrote => ?_
  exact hsettled.wrote hwrote rfl rfl (by rw [hsize]; rfl) (.inr ⟨hwindow, rfl⟩)

/-- Rewriting a setting that is held succeeds when the rewriting does. -/
theorem triple_rewriteEntry (sampleSize' : ℕ) {id : ConfigSettingId} {missing : UpgradeError}
    {rewrite : LedgerEntry I (EntryBody B) → Except UpgradeError (LedgerEntry I (EntryBody B))}
    (hid : id ∈ held) (hwindow : id ≠ .liveSorobanStateSizeWindow)
    (hrewrite : ∀ entry setting, settingOf entry = some setting → setting.discriminant = id →
      (∀ size ∈ sampleSizeOf setting, size = sampleSize) →
        ∃ updated new, rewrite entry = .ok updated ∧ entryToKey updated = encoding.configKey id ∧
          settingOf updated = some new ∧ new.discriminant = id ∧
            (sampleSizeOf new).getD sampleSize = sampleSize') :
    Triple (Settled encoding start held sampleSize window sorobanState)
      (rewriteEntry (encoding.configKey id) missing rewrite)
      (fun told reached =>
        Settled encoding start held sampleSize' window sorobanState reached ∧
          ∃ setting, settingOf told.1 = some setting ∧ setting.discriminant = id ∧
            ∀ size ∈ sampleSizeOf setting, size = sampleSize) never := by
  refine .of_pre fun s hsettled => ?_
  obtain ⟨entry, setting, hentry, hsetting, hdiscriminant, hsize⟩ := hsettled.exists_entry hid
  obtain ⟨updated, new, hupdated, hkey, hnew, rfl, hsize'⟩ :=
    hrewrite entry setting hsetting hdiscriminant hsize
  unfold rewriteEntry
  refine .bind (triple_getEntry _) fun read => .of_pre ?_
  rintro _ ⟨rfl, rfl⟩
  rw [hentry]
  dsimp only
  rw [hupdated]
  dsimp only
  have httl : (entryToKey updated).isTtl = false := by
    rw [hkey]
    rfl
  refine .bind (triple_recordUpdate entry httl) fun _ => .pure fun reached hwrote => ?_
  refine ⟨?_, setting, hsetting, hdiscriminant, hsize⟩
  have hwritten := hsettled.wrote hwrote hkey hnew hsize' (.inr ⟨hwindow, rfl⟩)
  exact hwritten.mono fun other hother => .inr hother

/-- Rewriting that keeps the number of samples. -/
theorem triple_rewriteKept {id : ConfigSettingId} {missing : UpgradeError}
    {rewrite : LedgerEntry I (EntryBody B) → Except UpgradeError (LedgerEntry I (EntryBody B))}
    (hid : id ∈ held) (hwindow : id ≠ .liveSorobanStateSizeWindow)
    (hrewrite : ∀ entry setting, settingOf entry = some setting → setting.discriminant = id →
      ∃ updated new, rewrite entry = .ok updated ∧ entryToKey updated = encoding.configKey id ∧
        settingOf updated = some new ∧ new.discriminant = id ∧
          sampleSizeOf new = sampleSizeOf setting) :
    Triple (Settled encoding start held sampleSize window sorobanState)
      (rewriteEntry (encoding.configKey id) missing rewrite)
      (fun _ => Settled encoding start held sampleSize window sorobanState) never := by
  refine (triple_rewriteEntry sampleSize hid hwindow ?_).weaken fun _ _ h => h.1
  intro entry setting hsetting hdiscriminant hsize
  obtain ⟨updated, new, hupdated, hkey, hnew, hkind, hsame⟩ :=
    hrewrite entry setting hsetting hdiscriminant
  refine ⟨updated, new, hupdated, hkey, hnew, hkind, ?_⟩
  rw [hsame]
  cases hnamed : sampleSizeOf setting with
  | none => rfl
  | some size => exact hsize size hnamed

/-- Writing the window anew. -/
theorem triple_updateWindow (previous : LedgerEntry I (EntryBody B)) (ledgerSeq : U32)
    (window' : List UInt64) :
    Triple (Settled encoding start held sampleSize window sorobanState)
      (recordUpdate previous
        (encoding.configEntry ledgerSeq (.liveSorobanStateSizeWindow window')))
      (fun _ => Settled encoding start held sampleSize window' sorobanState) never := by
  refine .of_pre fun s hsettled => ?_
  refine (triple_recordUpdate previous rfl).weaken fun _ reached hwrote => ?_
  have hwritten := hsettled.wrote hwrote rfl rfl rfl (.inl rfl)
  exact hwritten.mono fun other hother => .inr hother

end Henyey.Upgrading
