import Henyey.Upgrading.WindowUpgrades

/-!
# The window that the upgrades leave

The upgrade sets that are loaded and valid, up to the first that is not, resize the window
one after the other. A new version and new memory costs have it overwritten.
-/

namespace Henyey.Upgrading

open Foundation Ledger ConfigUpgradeSetFrame List
open Herder (ConfigUpgradeSetKey ConfigUpgradeValidity LedgerUpgrade minSorobanProtocolVersion)

variable {I B S : Type} (context : CloseContext I B S)

/-- The upgrade set of a key, if it is usable in the ledger of the start. -/
def frameAt (version : UInt32) (start : CloseState I (EntryBody B) S)
    (key : ConfigUpgradeSetKey) : Option (ConfigUpgradeSetFrame B) :=
  match makeFromKey context.encoding key context.ledgerSeq version start with
  | .ok (some frame) _ =>
    if frame.isValidForApply context.encoding = .valid then some frame else none
  | _ => none

/-- The upgrade sets of the keys, up to the first that is not usable. -/
def framesAt (version : UInt32) (start : CloseState I (EntryBody B) S) :
    List ConfigUpgradeSetKey → List (ConfigUpgradeSetFrame B)
  | [] => []
  | key :: rest =>
    match frameAt context version start key with
    | none => []
    | some frame => frame :: framesAt version start rest

/-- The window in the sizes that the upgrade sets name, one after the other. -/
def resizedBy (frames : List (ConfigUpgradeSetFrame B)) (window : List UInt64) : List UInt64 :=
  frames.foldl (fun window frame => frame.resized window) window

/-- A window with every sample overwritten. -/
def overwrittenBy (size : UInt64) (overwrites : Bool) (window : List UInt64) : List UInt64 :=
  if overwrites then window.map fun _ => size else window

/-- The ledger is settled, and the window is the plain one, overwritten with the size of the
Soroban state if something overwrites it. -/
def Upheld (start : CloseState I (EntryBody B) S) (version : UInt32) (overwrites : Bool)
    (plain : List UInt64) (s : CloseState I (EntryBody B) S) : Prop :=
  plain ≠ [] ∧ (overwrites = true → 23 ≤ version) ∧
    ∃ sorobanState, Settled context.encoding start (heldAt version) plain.length
      (overwrittenBy (context.encoding.totalSize sorobanState) overwrites plain) sorobanState s

/-- What a ledger brings to a close: the settings of its version, and a window of as many
samples as the archival settings name. Transactions write none of these, so the bucket list
has the same window. -/
structure Ready (version : UInt32) (old : List UInt64) (s : CloseState I (EntryBody B) S) :
    Prop where
  held : ∀ id ∈ heldAt version,
    (settingIn context.encoding s.ltx.getEntry id).map (·.discriminant) = some id
  archival : ∃ rest, settingIn context.encoding s.ltx.getEntry .stateArchival =
    some (.stateArchival old.length rest)
  window : settingIn context.encoding s.ltx.getEntry .liveSorobanStateSizeWindow =
    some (.liveSorobanStateSizeWindow old)
  bucketList : settingIn context.encoding s.ltx.snapshot .liveSorobanStateSizeWindow =
    some (.liveSorobanStateSizeWindow old)
  samples : old ≠ []

section

variable (size : UInt64) {overwrites : Bool} {window : List UInt64}

@[simp]
theorem length_overwrittenBy (overwrites : Bool) (window : List UInt64) :
    (overwrittenBy size overwrites window).length = window.length := by
  cases overwrites <;> simp [overwrittenBy]

theorem map_overwrittenBy (newSize : UInt64) (overwrites : Bool) (window : List UInt64) :
    (overwrittenBy size overwrites window).map (fun _ => newSize) =
      overwrittenBy newSize true window := by
  cases overwrites <;> simp [overwrittenBy]

theorem resizeWindow_overwrittenBy (overwrites : Bool) (sampleSize : ℕ) (hwindow : window ≠ []) :
    resizeWindow sampleSize (overwrittenBy size overwrites window) =
      overwrittenBy size overwrites (resizeWindow sampleSize window) := by
  cases overwrites with
  | false => rfl
  | true =>
    simp only [overwrittenBy, if_true, resizeWindow, length_map]
    split
    · rw [map_drop]
    · obtain ⟨oldest, rest, rfl⟩ := exists_cons_of_ne_nil hwindow
      simp

theorem resized_overwrittenBy (frame : ConfigUpgradeSetFrame B) (overwrites : Bool)
    (hwindow : window ≠ []) :
    frame.resized (overwrittenBy size overwrites window) =
      overwrittenBy size overwrites (frame.resized window) := by
  unfold resized
  cases frame.newSampleSize with
  | none => rfl
  | some newSampleSize => exact resizeWindow_overwrittenBy size overwrites newSampleSize hwindow

end

/-! ### Config upgrades -/

variable [DecidableEq I] {context} {start : CloseState I (EntryBody B) S} {version : UInt32}
  {overwrites : Bool} {plain : List UInt64}

/-- What is known of an upgrade set that is usable. -/
structure Usable (version : UInt32) (frame : ConfigUpgradeSetFrame B) : Prop where
  writable : Writable (heldAt version) frame.configUpgradeSet
  positive : ∀ size ∈ frame.newSampleSize, 0 < size

theorem Usable.resized_ne {frame : ConfigUpgradeSetFrame B} (husable : Usable version frame)
    (hplain : plain ≠ []) : frame.resized plain ≠ [] := by
  unfold resized
  cases hnamed : frame.newSampleSize with
  | none => exact hplain
  | some size =>
    rw [← length_pos_iff, length_resizeWindow]
    exact husable.positive size hnamed

theorem triple_applyFrame {frame : ConfigUpgradeSetFrame B} (husable : Usable version frame) :
    Triple (Upheld context start version overwrites plain) (applyFrame context version frame)
      (fun _ => Upheld context start version
        (overwrites || frame.writesMemoryCosts && version ≥ 23) (frame.resized plain)) never := by
  refine .of_pre fun s => ?_
  rintro ⟨hplain, hgate, sorobanState, hsettled⟩
  have hlength := length_overwrittenBy (context.encoding.totalSize sorobanState) overwrites plain
  rw [← hlength] at hsettled
  refine .bind ((triple_applyTo husable.writable).strengthen fun _ h => h ▸ hsettled)
    fun (archival, memoryCost) => .of_pre ?_
  rintro s' ⟨hsettled', hmemory⟩
  dsimp only at hmemory ⊢
  rw [resized_overwrittenBy _ _ _ hplain, length_overwrittenBy] at hsettled'
  have hne := husable.resized_ne hplain
  refine .bind (triple_onlyIf (fun hhandled => ?_) fun hskipped _ h => ?_) fun _ => .pure fun _ h => h
  · refine (triple_handleUpgradeAffectingSorobanStateSize version context.ledgerSeq
      (mem_heldAt rfl rfl _) (mem_heldAt rfl rfl _) (mem_heldAt rfl rfl _)).consequence
        (fun _ h => h ▸ hsettled') (fun _ reached h => ?_) fun _ h => h
    obtain ⟨recomputed, hrecomputed⟩ := h
    rw [hmemory, Bool.and_eq_true] at hhandled
    rw [hhandled.1, Bool.true_and]
    by_cases hversion : version ≥ 23
    · rw [if_pos hversion, map_overwrittenBy] at hrecomputed
      rw [decide_eq_true hversion, Bool.or_true]
      exact ⟨hne, fun _ => hversion, recomputed, hrecomputed⟩
    · -- before protocol 23 nothing is overwritten
      have hnot : overwrites = false := by
        rw [Bool.eq_false_iff]
        exact fun h => hversion (hgate h)
      subst hnot
      rw [if_neg hversion] at hrecomputed
      rw [decide_eq_false hversion, Bool.or_false]
      exact ⟨hne, hgate, recomputed, hrecomputed⟩
  · have hkept : (frame.writesMemoryCosts && decide (version ≥ 23)) = false := by
      rw [hmemory] at hskipped
      rw [Bool.and_eq_false_iff] at hskipped ⊢
      refine hskipped.imp_right fun hlow => decide_eq_false fun hversion => ?_
      exact of_decide_eq_false hlow (UInt32.le_trans (by decide) hversion)
    rw [hkept, Bool.or_false]
    exact ⟨hne, hgate, sorobanState, h ▸ hsettled'⟩

omit [DecidableEq I] in
/-- An upgrade set is read from contract data and its TTL entry. -/
theorem makeFromKey_congr (encoding : Encoding I B S) (key : ConfigUpgradeSetKey) (ledgerSeq : U32)
    (version : UInt32) {s : CloseState I (EntryBody B) S}
    (hdata : s.ltx.getEntry (getLedgerKey encoding key) =
      start.ltx.getEntry (getLedgerKey encoding key))
    (httl : ∀ keyHash, s.ltx.getEntry (.ttl keyHash) = start.ltx.getEntry (.ttl keyHash)) :
    makeFromKey encoding key ledgerSeq version s =
      match makeFromKey encoding key ledgerSeq version start with
      | .ok made _ => .ok made s
      | .error error _ => .error error s := by
  have hread (key : LedgerKey I) (hkey : s.ltx.getEntry key = start.ltx.getEntry key) :
      (getEntry key : CloseM I (EntryBody B) S _) s = .ok (start.ltx.getEntry key) s := by
    rw [← hkey]
    rfl
  have hread' (key : LedgerKey I) :
      (getEntry key : CloseM I (EntryBody B) S _) start = .ok (start.ltx.getEntry key) start := rfl
  unfold makeFromKey
  rw [bind_of_ok (hread _ hdata), bind_of_ok (hread' _)]
  cases start.ltx.getEntry (getLedgerKey encoding key) with
  | none => rfl
  | some entry =>
    dsimp only
    rw [bind_of_ok (hread _ (httl _)), bind_of_ok (hread' _)]
    cases start.ltx.getEntry
      (.ttl (encoding.keyHash (getLedgerKey encoding key))) <;> rfl

omit [DecidableEq I] in
/-- A set that is read has the version of the close, and was judged by its key. -/
theorem makeFromKey_ok {encoding : Encoding I B S} {key : ConfigUpgradeSetKey} {ledgerSeq : U32}
    {frame : ConfigUpgradeSetFrame B} {reached : CloseState I (EntryBody B) S}
    (hmade : makeFromKey encoding key ledgerSeq version start = .ok (some frame) reached) :
    frame.ledgerVersion = version ∧ frame.validXdr =
      isValidXdrStatic encoding frame.configUpgradeSet key := by
  have hread (key : LedgerKey I) :
      (getEntry key : CloseM I (EntryBody B) S _) start = .ok (start.ltx.getEntry key) start := rfl
  unfold makeFromKey at hmade
  rw [bind_of_ok (hread _)] at hmade
  cases hentry : start.ltx.getEntry (getLedgerKey encoding key) with
  | none =>
    rw [hentry] at hmade
    cases hmade
  | some entry =>
    rw [hentry] at hmade
    dsimp only at hmade
    rw [bind_of_ok (hread _)] at hmade
    cases httl : start.ltx.getEntry
        (.ttl (encoding.keyHash (getLedgerKey encoding key))) with
    | none =>
      rw [httl] at hmade
      cases hmade
    | some ttlEntry =>
      rw [httl] at hmade
      have hframe : decodeEntry encoding key ledgerSeq version entry
          ttlEntry = some frame := by
        injection hmade
      unfold decodeEntry at hframe
      split at hframe
      · cases hframe
      · split at hframe
        · split at hframe
          · cases hframe
          · cases hframe
            exact ⟨rfl, rfl⟩
        · cases hframe

theorem ConfigSettingId.storedAs_mem_heldAt {id : ConfigSettingId} (hversion : id.startsFrom ≤ version) :
    id.storedAs ∈ heldAt version := by
  cases id <;> exact ⟨rfl, hversion⟩

/-- Settings in strictly increasing order name one number of samples at most. -/
theorem length_sampleSizes_le {settings : List (ConfigSettingEntry B)}
    (hsorted : (settings.zip (settings.drop 1)).all (fun (a, b) =>
      decide (a.discriminant.number < b.discriminant.number)) = true) :
    (settings.filterMap sampleSizeOf).length ≤ 1 := by
  have hpairwise : settings.Pairwise fun a b => a.discriminant.number < b.discriminant.number := by
    have : IsTrans (ConfigSettingEntry B) fun a b =>
        a.discriminant.number < b.discriminant.number := ⟨fun _ _ _ => Nat.lt_trans⟩
    rw [← isChain_iff_pairwise]
    induction settings with
    | nil => exact .nil
    | cons first rest ih =>
      cases rest with
      | nil => exact .singleton _
      | cons second rest =>
        rw [drop_one, tail_cons, zip_cons_cons, all_cons, Bool.and_eq_true,
          decide_eq_true_eq] at hsorted
        exact .cons_cons hsorted.1 (ih (by rw [drop_one]; exact hsorted.2))
  -- two archival settings would have the same number
  have hnone : (settings.filterMap sampleSizeOf).Pairwise fun _ _ => False := by
    rw [pairwise_filterMap]
    refine hpairwise.imp fun {a b} hlt size hsize size' hsize' => ?_
    cases a <;> cases hsize
    cases b <;> cases hsize'
    exact lt_irrefl _ hlt
  match settings.filterMap sampleSizeOf, hnone with
  | [], _ => exact Nat.zero_le 1
  | [_], _ => exact Nat.le_refl 1
  | _ :: _ :: _, hpair => exact absurd (rel_of_pairwise_cons hpair mem_cons_self) id

omit [DecidableEq I] in
/-- A usable upgrade set lists settings that the ledger holds at its version. -/
theorem usable_of_frameAt {frame : ConfigUpgradeSetFrame B} {key : ConfigUpgradeSetKey}
    (hframe : frameAt context version start key = some frame) : Usable version frame := by
  unfold frameAt at hframe
  split at hframe
  next made reached hmade =>
    split at hframe
    next hvalid =>
      cases hframe
      obtain ⟨hversion, hxdr⟩ := makeFromKey_ok hmade
      unfold isValidForApply at hvalid
      split at hvalid
      · cases hvalid
      next hvalidXdr =>
      split at hvalid
      · cases hvalid
      next hentries =>
        rw [Bool.not_eq_true, Bool.not_eq_false', hxdr] at hvalidXdr
        simp only [isValidXdrStatic, Bool.and_eq_true] at hvalidXdr
        simp only [any_eq_true, not_exists, not_and, Bool.or_eq_true, not_or,
          Bool.not_eq_true, Bool.not_eq_false', isValidConfigSettingEntry,
          Bool.and_eq_true, decide_eq_true_eq, hversion] at hentries
        refine ⟨⟨fun setting hsetting => ?_, fun setting hsetting => ?_, ?_⟩, fun size hsize => ?_⟩
        · exact ConfigSettingId.storedAs_mem_heldAt (hentries setting hsetting).1.1.1
        · exact (hentries setting hsetting).2
        · exact length_sampleSizes_le hvalidXdr.2
        · obtain ⟨setting, hsetting, hnamed⟩ := exists_of_findSome?_eq_some hsize
          have hpositive := (hentries setting hsetting).1.1.2
          cases setting <;> cases hnamed
          exact of_decide_eq_true hpositive
    · cases hframe
  · cases hframe

omit [DecidableEq I] in
theorem triple_makeFromKey {s : CloseState I (EntryBody B) S} (key : ConfigUpgradeSetKey)
    (hupheld : Upheld context start version overwrites plain s) :
    Triple (· = s)
      (makeFromKey context.encoding key context.ledgerSeq version)
      (fun made reached => reached = s ∧ ∃ read, makeFromKey
        context.encoding key context.ledgerSeq version start = .ok made read)
      (fun reached => reached = s ∧ frameAt context version start key = none) := by
  obtain ⟨-, -, sorobanState, hsettled⟩ := hupheld
  have hmade := makeFromKey_congr context.encoding key context.ledgerSeq version
    (hsettled.contractData _ _ _) hsettled.ttl
  rintro _ rfl
  rw [hmade]
  cases hstart : makeFromKey context.encoding key context.ledgerSeq version
      start with
  | ok made reached => exact ⟨rfl, reached, rfl⟩
  | error error reached => exact ⟨rfl, by rw [frameAt, hstart]⟩

variable [DecidableEq B]

/-- An upgrade set that is not usable fails before anything is written. -/
theorem triple_applyConfigUpgrade (key : ConfigUpgradeSetKey) :
    Triple (Upheld context start version overwrites plain)
      (applyConfigUpgrade context version key)
      (fun _ reached => ∃ frame, frameAt context version start key = some frame ∧
        Upheld context start version (overwrites || frame.writesMemoryCosts && version ≥ 23)
          (frame.resized plain) reached)
      (fun reached => frameAt context version start key = none ∧
        Upheld context start version overwrites plain reached) := by
  refine .of_pre fun s hupheld => ?_
  unfold applyConfigUpgrade
  refine .bind ((triple_makeFromKey key hupheld).failing fun _ h => ⟨h.2, h.1 ▸ hupheld⟩)
    fun made => .of_pre ?_
  rintro _ ⟨rfl, read, hmade⟩
  cases made with
  | none =>
    refine .throw fun _ h => ⟨?_, h ▸ hupheld⟩
    rw [frameAt, hmade]
  | some frame =>
    dsimp only
    cases hvalid : frame.isValidForApply context.encoding with
    | valid =>
      have hframe : frameAt context version start key = some frame := by
        rw [frameAt, hmade]
        exact if_pos hvalid
      refine (triple_captureEntryChanges (triple_applyFrame (usable_of_frameAt hframe))).consequence
        (fun _ h => ?_) (fun _ _ h => ⟨frame, hframe, h⟩) fun _ h => h.elim
      exact h ▸ hupheld
    | xdrInvalid | invalid =>
      refine .throw fun _ h => ⟨?_, h ▸ hupheld⟩
      rw [frameAt, hmade]
      exact if_neg (by rw [hvalid]; decide)

theorem triple_applyNextConfigUpgrade (result : ConfigUpgradeResult I B)
    (key : ConfigUpgradeSetKey) :
    Triple (Upheld context start version overwrites plain)
      (applyNextConfigUpgrade context version result key)
      (fun _ reached => ∃ frame, frameAt context version start key = some frame ∧
        Upheld context start version (overwrites || frame.writesMemoryCosts && version ≥ 23)
          (frame.resized plain) reached)
      (fun reached => frameAt context version start key = none ∧
        Upheld context start version overwrites plain reached) :=
  .bind (triple_applyConfigUpgrade key) fun _ => .pure fun _ h => h

/-- The config upgrades do to the window what their usable upgrade sets do. -/
theorem triple_applyConfigUpgrades (keys : List ConfigUpgradeSetKey)
    (result : ConfigUpgradeResult I B) :
    let frames := framesAt context version start keys
    let left := Upheld context start version
      (overwrites || frames.any (·.writesMemoryCosts) && version ≥ 23) (resizedBy frames plain)
    Triple (Upheld context start version overwrites plain)
      (keys.foldlM (applyNextConfigUpgrade context version) result) (fun _ => left) left := by
  dsimp only
  induction keys generalizing overwrites plain result with
  | nil =>
    refine .pure fun _ h => ?_
    simpa [framesAt, resizedBy] using h
  | cons key rest ih =>
    rw [foldlM_cons]
    refine .bind ((triple_applyNextConfigUpgrade result key).failing ?_) fun next => .of_pre ?_
    · rintro reached ⟨hframe, hreached⟩
      rw [framesAt, hframe]
      simpa [resizedBy] using hreached
    · rintro s ⟨frame, hframe, hs⟩
      have hgoal : (overwrites || frame.writesMemoryCosts && decide (version ≥ 23) ||
          (framesAt context version start rest).any (·.writesMemoryCosts) && decide (version ≥ 23)) =
          (overwrites || (framesAt context version start (key :: rest)).any (·.writesMemoryCosts) &&
            decide (version ≥ 23)) := by
        rw [framesAt, hframe]
        simp only [any_cons, Bool.or_assoc, Bool.and_or_distrib_right]
      have hplain : resizedBy (framesAt context version start rest) (frame.resized plain) =
          resizedBy (framesAt context version start (key :: rest)) plain := by
        rw [framesAt, hframe]
        rfl
      rw [← hgoal, ← hplain]
      exact (ih next).strengthen fun _ h => h ▸ hs

/-! ### All upgrades of a close -/

section

omit [DecidableEq I] [DecidableEq B]

theorem caught_of_triple {α : Type} {program : CloseM I (EntryBody B) S α}
    {pre kept : CloseState I (EntryBody B) S → Prop} {s : CloseState I (EntryBody B) S}
    (hprogram : Triple pre program (fun _ => kept) kept) (hs : pre s) :
    kept (caught program s).2 := by
  have hrun := hprogram s hs
  unfold caught
  cases hend : program s with
  | ok value reached =>
    rw [hend] at hrun
    exact hrun
  | error error reached =>
    rw [hend] at hrun
    exact hrun

theorem caught_of_never {α : Type} {program : CloseM I (EntryBody B) S α}
    {pre kept : CloseState I (EntryBody B) S → Prop} {s : CloseState I (EntryBody B) S}
    (hprogram : Triple pre program (fun _ => kept) never) (hs : pre s) :
    kept (caught program s).2 :=
  caught_of_triple (hprogram.failing fun _ h => h.elim) hs

/-- A program that does not fail is not changed by having its failure swallowed. -/
theorem triple_discard_observing {program : CloseM I (EntryBody B) S Unit}
    {pre kept : CloseState I (EntryBody B) S → Prop}
    (hprogram : Triple pre program (fun _ => kept) never) :
    Triple pre (discard (observing program)) (fun _ => kept) never := by
  intro start hstart
  have hrun := hprogram start hstart
  cases hend : program start with
  | ok value reached =>
    rw [hend] at hrun
    have hobserved : observing program start = .ok (.ok value) reached := by
      rw [observing_apply, hend]
    have hdiscard : discard (observing program) start = .ok () reached := by
      change EStateM.map _ (observing program) start = _
      simp only [EStateM.map, hobserved]
    rw [hdiscard]
    exact hrun
  | error error reached =>
    rw [hend] at hrun
    exact hrun.elim

end

theorem triple_upgradeVersion (version : UInt32) {prevVersion : UInt32} (baseReserve : UInt32) {old : List UInt64}
    {sorobanState : S} (hprev : minSorobanProtocolVersion ≤ prevVersion) (hold : old ≠ []) :
    Triple (Settled context.encoding start (heldAt prevVersion) old.length old sorobanState)
      (upgradeVersion context baseReserve prevVersion version)
      (fun _ => Upheld context start version (version ≥ 23) old) never := by
  refine .bind (triple_captureEntryChanges (.bind
    (triple_applyVersionUpgradeSideEffects baseReserve hprev) fun _ => .bind (triple_onlyIf
      (fun _ => triple_discard_observing ((triple_handleUpgradeAffectingSorobanStateSize version
        context.ledgerSeq (mem_heldAt rfl rfl _) (mem_heldAt rfl rfl _)
          (mem_heldAt rfl rfl _)).weaken fun _ _ h => ?_))
      fun hearly _ h => ?_) fun _ => .pure fun _ h => h)) fun _ => .pure fun _ h => h
  · obtain ⟨recomputed, hrecomputed⟩ := h
    refine ⟨hold, of_decide_eq_true, recomputed, ?_⟩
    simpa [overwrittenBy] using hrecomputed
  · have hbefore : decide (version ≥ 23) = false := by
      rw [Bool.and_eq_false_iff] at hearly
      refine hearly.elim id fun hlow => decide_eq_false fun hversion => ?_
      exact of_decide_eq_false hlow (UInt32.le_trans (by decide) hversion)
    rw [hbefore]
    exact ⟨hold, Bool.false_ne_true.elim, sorobanState, h⟩

variable {s : CloseState I (EntryBody B) S} {old : List UInt64}

omit [DecidableEq I] [DecidableEq B] in
theorem Ready.settled (hready : Ready context version old s) :
    Settled context.encoding s (heldAt version) old.length old s.sorobanState s :=
  ⟨hready.held, hready.archival, hready.window, fun _ _ _ => rfl, fun _ => rfl, rfl⟩

theorem upheld_applyVersion (version : UInt32) {prevHeader : LedgerHeader}
    (hprev : minSorobanProtocolVersion ≤ prevHeader.ledgerVersion)
    (hready : Ready context prevHeader.ledgerVersion old s) :
    Upheld context s version (prevHeader.ledgerVersion ≠ version ∧ version ≥ 23) old
      (applyVersion context prevHeader version s).2 := by
  unfold applyVersion
  split
  next hchanged =>
    have hleft := caught_of_never (triple_upgradeVersion version prevHeader.baseReserve hprev
      hready.samples) hready.settled
    simpa [hchanged] using hleft
  next hsame =>
    rw [not_not] at hsame
    refine ⟨hready.samples, fun h => ?_, s.sorobanState, ?_⟩
    · rw [decide_eq_true_eq] at h
      exact h.2
    · rw [hsame]
      simpa [overwrittenBy, hsame] using hready.settled

theorem Upheld.applyReserve (hupheld : Upheld context start version overwrites plain s)
    (upgradeCtx : UpgradeContext) (prevHeader : LedgerHeader) :
    Upheld context start version overwrites plain
      (applyReserve context upgradeCtx prevHeader version s).2 := by
  unfold Upgrading.applyReserve
  split
  · exact hupheld
  next newReserve _ =>
    split
    · -- the preparation of liabilities spares the settings, whether it fails or not
      have hprepared : Triple (Upheld context start version overwrites plain)
          (context.steps.prepareLiabilities version newReserve context.ledgerSeq).1
          (fun _ => Upheld context start version overwrites plain)
          (Upheld context start version overwrites plain) := by
        intro before hbefore
        have hspares :=
          (context.steps.prepareLiabilities version newReserve context.ledgerSeq).2 before
        obtain ⟨hplain, hgate, sorobanState, hsettled⟩ := hbefore
        have hend := hsettled.spared hspares
        unfold endState at hend
        cases hrun : (context.steps.prepareLiabilities version newReserve context.ledgerSeq).1
            before with
        | ok _ reached =>
          rw [hrun] at hend
          exact ⟨hplain, hgate, sorobanState, hend⟩
        | error _ reached =>
          rw [hrun] at hend
          exact ⟨hplain, hgate, sorobanState, hend⟩
      refine caught_of_triple ?_ hupheld
      exact .bind (triple_captureEntryChanges hprepared) fun _ => .pure fun _ h => h
    · exact hupheld

theorem Upheld.applyConfigs (hupheld : Upheld context start version overwrites plain s)
    (upgradeCtx : UpgradeContext) :
    let frames := framesAt context version start upgradeCtx.configUpgradeKeys
    Upheld context start version
      (overwrites || frames.any (·.writesMemoryCosts) && version ≥ 23) (resizedBy frames plain)
      (applyConfigs context upgradeCtx version s).2 :=
  caught_of_triple (triple_applyConfigUpgrades _ _) hupheld

omit [DecidableEq B] in
theorem triple_applyMaxSorobanTxSetSize {window : List UInt64} {sampleSize : ℕ} {sorobanState : S}
    (newSize : UInt32) :
    Triple (Settled context.encoding start (heldAt version) sampleSize window sorobanState)
      (applyMaxSorobanTxSetSize context newSize)
      (fun _ => Settled context.encoding start (heldAt version) sampleSize window sorobanState)
      never := by
  refine .bind (triple_rewriteKept (mem_heldAt rfl rfl _) (by decide) ?_) fun _ => .pure fun _ h => h
  intro entry setting hsetting hdiscriminant
  cases setting <;> cases hdiscriminant
  unfold withLedgerMaxTxCount
  rw [hsetting]
  exact ⟨_, _, rfl, rfl, rfl, rfl, rfl⟩

omit [DecidableEq B] in
theorem Upheld.applyMaxSoroban (hupheld : Upheld context start version overwrites plain s)
    (upgradeCtx : UpgradeContext) :
    Upheld context start version overwrites plain (applyMaxSoroban context upgradeCtx s).2 := by
  unfold Upgrading.applyMaxSoroban
  split
  · exact hupheld
  · obtain ⟨hplain, hgate, sorobanState, hsettled⟩ := hupheld
    exact ⟨hplain, hgate, sorobanState,
      caught_of_never (triple_applyMaxSorobanTxSetSize _) hsettled⟩

/-- The version that the upgrades of a close lead to. -/
def upgradedVersion (upgrades : List LedgerUpgrade) (prevHeader : LedgerHeader) : UInt32 :=
  (UpgradeContext.applyToHeader ⟨upgrades, prevHeader.ledgerVersion⟩ prevHeader).ledgerVersion

/-- The upgrade sets that a close applies. -/
def upgradeFrames (context : CloseContext I B S) (upgrades : List LedgerUpgrade)
    (prevHeader : LedgerHeader) (s : CloseState I (EntryBody B) S) :
    List (ConfigUpgradeSetFrame B) :=
  framesAt context (upgradedVersion upgrades prevHeader) s
    (UpgradeContext.configUpgradeKeys ⟨upgrades, prevHeader.ledgerVersion⟩)

/-- Whether a close changes the version or the memory costs. -/
def rewritesSizes (context : CloseContext I B S) (upgrades : List LedgerUpgrade)
    (prevHeader : LedgerHeader) (s : CloseState I (EntryBody B) S) : Bool :=
  prevHeader.ledgerVersion ≠ upgradedVersion upgrades prevHeader ||
    (upgradeFrames context upgrades prevHeader s).any (·.writesMemoryCosts)

/-- The upgrades of a close resize the window and, from protocol 23 on, overwrite it. -/
theorem upheld_closeUpgrades (upgrades : List LedgerUpgrade) {prevHeader : LedgerHeader}
    (hprev : minSorobanProtocolVersion ≤ prevHeader.ledgerVersion)
    (hready : Ready context prevHeader.ledgerVersion old s) :
    Upheld context s (upgradedVersion upgrades prevHeader)
      (rewritesSizes context upgrades prevHeader s && upgradedVersion upgrades prevHeader ≥ 23)
      (resizedBy (upgradeFrames context upgrades prevHeader s) old)
      (closeUpgrades context upgrades prevHeader s).state := by
  have hversion := upheld_applyVersion (upgradedVersion upgrades prevHeader) hprev hready
  have hreserve := hversion.applyReserve ⟨upgrades, prevHeader.ledgerVersion⟩ prevHeader
  have hconfigs := hreserve.applyConfigs ⟨upgrades, prevHeader.ledgerVersion⟩
  have hlanes := hconfigs.applyMaxSoroban ⟨upgrades, prevHeader.ledgerVersion⟩
  rw [Bool.decide_and, ← Bool.and_or_distrib_right] at hlanes
  exact hlanes

end Henyey.Upgrading
