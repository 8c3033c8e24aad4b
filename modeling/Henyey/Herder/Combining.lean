import Henyey.Herder.Combination

/-!
# What the candidates combine into

For candidates that pass validation the combined value is that of the best transaction
set, with the maximum of each upgrade type, and it passes validation itself.
-/

namespace Henyey.Herder

open List LedgerUpgrade

open TxQueue (Hash256)

/-- Keeping the first of the best leaves one that is nowhere beaten, and with equals
only after it. -/
theorem foldl_best {α κ ρ : Type} [LinearOrder κ] [LinearOrder ρ] (rank : α → κ) (raw : α → ρ)
    (first : α) (rest : List α) (hsorted : ((first :: rest).map raw).Pairwise (· ≤ ·)) :
    let best := rest.foldl (fun best c => if rank best < rank c then c else best) first
    best ∈ first :: rest ∧
      ∀ c ∈ first :: rest, rank c ≤ rank best ∧ (rank c = rank best → raw best ≤ raw c) := by
  induction rest generalizing first with
  | nil =>
    refine ⟨mem_singleton_self _, fun c hc => ?_⟩
    rw [mem_singleton.mp hc]
    exact ⟨le_rfl, fun _ => le_rfl⟩
  | cons second rest ih =>
    obtain ⟨hfirst, hrest⟩ := pairwise_cons.mp hsorted
    rw [foldl_cons]
    split
    next hlt =>
      obtain ⟨hmem, hbest⟩ := ih second hrest
      refine ⟨mem_cons_of_mem _ hmem, ?_⟩
      rintro c (_ | ⟨_, hc⟩)
      · have habove := hlt.trans_le (hbest second mem_cons_self).1
        exact ⟨habove.le, fun heq => absurd heq habove.ne⟩
      · exact hbest c hc
    next hle =>
      have hskipped : ((first :: rest).map raw).Pairwise (· ≤ ·) :=
        hsorted.sublist ((List.Sublist.cons_cons first (sublist_cons_self second rest)).map raw)
      obtain ⟨hmem, hbest⟩ := ih first hskipped
      have hfirstBest := hbest first mem_cons_self
      refine ⟨?_, ?_⟩
      · rcases mem_cons.mp hmem with heq | hmem
        · exact mem_cons.mpr (Or.inl heq)
        · exact mem_cons_of_mem _ (mem_cons_of_mem _ hmem)
      · rintro c (_ | ⟨_, _ | ⟨_, hc⟩⟩)
        · exact hfirstBest
        · have hsecond : rank second ≤ rank first := not_lt.mp hle
          refine ⟨hsecond.trans hfirstBest.1, fun heq => ?_⟩
          have hfirstEq := le_antisymm hfirstBest.1 (heq ▸ hsecond)
          exact (hfirstBest.2 hfirstEq).trans (hfirst _ (mem_map_of_mem mem_cons_self))
        · exact hbest c (mem_cons_of_mem _ hc)

namespace ScpDriver

variable {N V : Type} {d : ScpDriver N V}

/-! ### Values that pass -/

/-- What a value has to pass apart from its upgrades. -/
structure PassesLocally (d : ScpDriver N V) (slotIndex : Nat) (sv : StellarValue N Hash256) :
    Prop where
  signed : ∃ sig, sv.ext = .signed sig ∧
    d.verifyStellarValueSignature sig sv.txSetHash sv.closeTime = true
  slot : slotIndex = d.context.lclSeq + 1
  closeTime : d.context.checkCloseTime d.context.lclCloseTime sv.closeTime = true
  cached : sv.txSetHash ∈ d.txTracker.keys.toFinset
  content : d.checkContent sv.closeTime sv.txSetHash = true

theorem validatePastOrFutureValue_ne_valid {H : Type} (context : ValueValidationContext)
    (slotIndex closeTime : Nat) :
    (validatePastOrFutureValue (H := H) context slotIndex closeTime).1 ≠ .valid := by
  unfold validatePastOrFutureValue
  split
  · exact nofun
  · dsimp only
    repeat' split
    all_goals exact nofun

theorem validateValueAgainstLocalState_eq_valid {H : Type} [DecidableEq H]
    {context : ValueValidationContext} {cached : Finset H} {checkContent : H → Bool}
    {slotIndex closeTime : Nat} {txSetHash : H} {nomination : Bool} :
    (validateValueAgainstLocalState context cached checkContent slotIndex closeTime txSetHash
        nomination).1 = .valid ↔
      slotIndex = context.lclSeq + 1 ∧ context.checkCloseTime context.lclCloseTime closeTime ∧
        txSetHash ∈ cached ∧ checkContent txSetHash := by
  unfold validateValueAgainstLocalState
  split
  next hslot =>
    cases hclose : context.checkCloseTime context.lclCloseTime closeTime with
    | false => simp
    | true =>
      by_cases hcached : txSetHash ∈ cached
      · cases hcontent : checkContent txSetHash <;> simp [hslot, hcached]
      · cases nomination <;> simp [hcached]
  next hslot =>
    refine iff_of_false (validatePastOrFutureValue_ne_valid _ _ _) fun hvalid => hslot hvalid.1

theorem validateValue_eq_valid {slotIndex : Nat} {value : V} {nomination : Bool} :
    d.validateValue slotIndex value nomination = .valid ↔
      ∃ sv, d.codec.stellarValueFromXdr value = some sv ∧ d.PassesLocally slotIndex sv ∧
        d.checkUpgradeOrdering sv ∧ d.checkUpgradesValid sv nomination := by
  unfold validateValue
  split
  next hnone => exact iff_of_false nofun fun ⟨sv, hsv, _⟩ => by rw [hnone] at hsv; cases hsv
  next sv hsv =>
    split
    next hbasic =>
      refine iff_of_false nofun fun ⟨sv', hsv', hlocal, _⟩ => ?_
      obtain rfl := Option.some.inj (hsv.symm.trans hsv')
      obtain ⟨sig, hsigned, -⟩ := hlocal.signed
      rw [hbasic] at hsigned
      cases hsigned
    next sig hsigned =>
      constructor
      · intro hvalid
        dsimp only at hvalid
        split at hvalid
        · cases hvalid
        next hverified =>
        split at hvalid
        · cases hvalid
        split at hvalid
        · cases hvalid
        next hordering =>
        split at hvalid
        · cases hvalid
        next hupgrades =>
        obtain ⟨hslot, hclose, hcached, hcontent⟩ :=
          validateValueAgainstLocalState_eq_valid.mp hvalid
        simp only [Bool.not_eq_true', Bool.not_eq_false] at hverified hordering hupgrades
        exact ⟨sv, hsv, ⟨⟨sig, hsigned, hverified⟩, hslot, hclose, hcached, hcontent⟩, hordering,
          hupgrades⟩
      · rintro ⟨sv', hsv', hlocal, hordering, hupgrades⟩
        obtain rfl := Option.some.inj (hsv.symm.trans hsv')
        obtain ⟨sig', hsigned', hverified⟩ := hlocal.signed
        obtain rfl := StellarValueExt.signed.inj (hsigned.symm.trans hsigned')
        have hlocalValid : (validateValueAgainstLocalState d.context d.txTracker.keys.toFinset
            (d.checkContent sv.closeTime) slotIndex sv.closeTime sv.txSetHash nomination).1 =
              .valid :=
          validateValueAgainstLocalState_eq_valid.mpr
            ⟨hlocal.slot, hlocal.closeTime, hlocal.cached, hlocal.content⟩
        simp only [hverified, hlocalValid, hordering, hupgrades]
        rfl

/-- A candidate, decoded, with the transaction set that the tracker has for it. -/
structure Resolves (d : ScpDriver N V) (value : V) (c : ResolvedCandidate N V) : Prop where
  raw : c.raw = value
  decoded : d.codec.stellarValueFromXdr value = some c.sv
  hash : c.txSetHash = c.sv.txSetHash
  txSet : d.txTracker.lookup c.sv.txSetHash = some c.txSet
  prepared : d.prepareForApply c.txSet = true
  follows : c.txSet.previousLedgerHash = d.lclHash
  parsed : ∀ bytes ∈ c.sv.upgrades, (d.codec.upgradeFromXdr bytes).isSome

theorem checkContent_eq_true {closeTime : Nat} {txSetHash : Hash256}
    (hcontent : d.checkContent closeTime txSetHash = true) :
    ∃ txSet, d.txTracker.lookup txSetHash = some txSet ∧ d.prepareForApply txSet = true ∧
      txSet.previousLedgerHash = d.lclHash := by
  unfold checkContent at hcontent
  split at hcontent
  · cases hcontent
  next txSet hlookup =>
  split at hcontent
  · cases hcontent
  split at hcontent
  · cases hcontent
  next hfollows =>
  split at hcontent
  · cases hcontent
  unfold checkAndCacheTxSetValid at hcontent
  split at hcontent
  · cases hcontent
  next hprepared =>
  exact ⟨txSet, hlookup, by simpa using hprepared, not_not.mp hfollows⟩

theorem parsed_of_checkUpgradesValid {sv : StellarValue N Hash256} {nomination : Bool}
    (hupgrades : d.checkUpgradesValid sv nomination = true) {bytes : List UInt8}
    (hbytes : bytes ∈ sv.upgrades) :
    ∃ upgrade, d.codec.upgradeFromXdr bytes = some upgrade ∧
      d.isUpgradeValid upgrade nomination = true := by
  have hvalid := all_eq_true.mp hupgrades bytes hbytes
  split at hvalid
  · cases hvalid
  next upgrade hupgrade => exact ⟨upgrade, hupgrade, hvalid⟩

theorem exists_resolves {slotIndex : Nat} {value : V} {nomination : Bool}
    (hvalid : d.validateValue slotIndex value nomination = .valid) :
    ∃ c, d.Resolves value c ∧ d.PassesLocally slotIndex c.sv ∧
      d.checkUpgradesValid c.sv nomination = true := by
  obtain ⟨sv, hsv, hlocal, -, hupgrades⟩ := validateValue_eq_valid.mp hvalid
  obtain ⟨txSet, hlookup, hprepared, hfollows⟩ := checkContent_eq_true hlocal.content
  refine ⟨⟨value, sv, txSet, sv.txSetHash⟩, ?_, hlocal, hupgrades⟩
  refine ⟨rfl, hsv, rfl, hlookup, hprepared, hfollows, fun bytes hbytes => ?_⟩
  obtain ⟨upgrade, hupgrade, -⟩ := parsed_of_checkUpgradesValid hupgrades hbytes
  rw [hupgrade]
  rfl

theorem Resolves.unique {value : V} {c c' : ResolvedCandidate N V} (hc : d.Resolves value c)
    (hc' : d.Resolves value c') : c = c' := by
  obtain ⟨raw, sv, txSet, txSetHash⟩ := c
  obtain ⟨raw', sv', txSet', txSetHash'⟩ := c'
  obtain rfl : raw = raw' := hc.raw.trans hc'.raw.symm
  obtain rfl : sv = sv' := Option.some.inj (hc.decoded.symm.trans hc'.decoded)
  obtain rfl : txSet = txSet' := Option.some.inj (hc.txSet.symm.trans hc'.txSet)
  obtain rfl : txSetHash = txSetHash' := hc.hash.trans hc'.hash.symm
  rfl

/-! ### The loop over the candidates -/

def upgradesOf (d : ScpDriver N V) (value : V) : List LedgerUpgrade :=
  match d.codec.stellarValueFromXdr value with
  | none => []
  | some sv => sv.upgrades.filterMap d.codec.upgradeFromXdr

/-- The hash of a candidate, after it is decoded and encoded again. -/
def candidateHash (d : ScpDriver N V) (value : V) : Hash256 :=
  match d.codec.stellarValueFromXdr value with
  | none => 0
  | some sv => d.codec.hashValue (d.codec.stellarValueToXdr sv)

/-- The mask of the candidates: all their hashes together. -/
def candidatesHash (d : ScpDriver N V) (values : List V) : Hash256 :=
  values.foldl (fun mask value => mask ^^^ d.candidateHash value) 0

theorem candidatesHash_perm {values values' : List V} (hperm : values.Perm values') :
    d.candidatesHash values = d.candidatesHash values' := by
  have : RightCommutative fun mask value => mask ^^^ d.candidateHash value :=
    ⟨fun mask value value' => Nat.xor_right_comm _ _ _⟩
  exact hperm.foldl_eq 0

theorem foldlM_mergeUpgradeBytes (upgrades : List (List UInt8))
    (hparsed : ∀ bytes ∈ upgrades, (d.codec.upgradeFromXdr bytes).isSome)
    (mergedUpgrades : List LedgerUpgrade) :
    upgrades.foldlM d.mergeUpgradeBytes mergedUpgrades =
      .ok ((upgrades.filterMap d.codec.upgradeFromXdr).foldl mergeUpgrade
        mergedUpgrades) := by
  induction upgrades generalizing mergedUpgrades with
  | nil => rfl
  | cons bytes rest ih =>
    obtain ⟨upgrade, hupgrade⟩ := Option.isSome_iff_exists.mp (hparsed bytes mem_cons_self)
    rw [foldlM_cons, mergeUpgradeBytes, hupgrade, filterMap_cons_some hupgrade, foldl_cons]
    exact ih (fun other hother => hparsed other (mem_cons_of_mem _ hother)) _

theorem Resolves.collectCandidate {value : V} {c : ResolvedCandidate N V} (hc : d.Resolves value c)
    (collected : CollectedCandidates N V) :
    d.collectCandidate collected value = .ok
      { candidatesHash := collected.candidatesHash ^^^ d.candidateHash value
        mergedUpgrades :=
          (d.upgradesOf value).foldl mergeUpgrade collected.mergedUpgrades
        decoded := collected.decoded ++ [(value, c.sv)] } := by
  rw [ScpDriver.collectCandidate, candidateHash, upgradesOf, hc.decoded]
  dsimp only
  rw [foldlM_mergeUpgradeBytes c.sv.upgrades hc.parsed]
  rfl

theorem foldlM_collectCandidate (candidates : List (ResolvedCandidate N V))
    (hresolves : ∀ c ∈ candidates, d.Resolves c.raw c) (collected : CollectedCandidates N V) :
    (candidates.map (·.raw)).foldlM d.collectCandidate collected = .ok
      { candidatesHash := (candidates.map (·.raw)).foldl
          (fun mask value => mask ^^^ d.candidateHash value) collected.candidatesHash
        mergedUpgrades := ((candidates.map (·.raw)).flatMap d.upgradesOf).foldl
          mergeUpgrade collected.mergedUpgrades
        decoded := collected.decoded ++ candidates.map fun c => (c.raw, c.sv) } := by
  induction candidates generalizing collected with
  | nil =>
    simp only [map_nil, flatMap_nil, foldl_nil, append_nil]
    rfl
  | cons c rest ih =>
    rw [map_cons, foldlM_cons, (hresolves c mem_cons_self).collectCandidate]
    refine (ih (fun other hother => hresolves other (mem_cons_of_mem _ hother)) _).trans ?_
    simp only [map_cons, flatMap_cons, foldl_cons, foldl_append,
      append_assoc, cons_append, nil_append]

theorem mapM_resolveCandidate (candidates : List (ResolvedCandidate N V))
    (hresolves : ∀ c ∈ candidates, d.Resolves c.raw c) :
    (candidates.map fun c => (c.raw, c.sv)).mapM d.resolveCandidate = .ok candidates := by
  induction candidates with
  | nil => rfl
  | cons c rest ih =>
    have hc := hresolves c mem_cons_self
    have hresolve : d.resolveCandidate (c.raw, c.sv) = .ok c := by
      rw [resolveCandidate]
      dsimp only
      rw [hc.txSet]
      dsimp only
      rw [if_pos hc.prepared, ← hc.hash]
    rw [map_cons, mapM_cons, hresolve,
      ih fun other hother => hresolves other (mem_cons_of_mem _ hother)]
    rfl

theorem mapM_encodeUpgrade (hcodec : d.codec.Lawful) (upgrades : List LedgerUpgrade) :
    upgrades.mapM d.encodeUpgrade = .ok (upgrades.map d.codec.upgradeToXdr) := by
  induction upgrades with
  | nil => rfl
  | cons upgrade rest ih =>
    rw [mapM_cons, encodeUpgrade, ih]
    rw [if_pos (hcodec.upgrade_length upgrade)]
    rfl

theorem exists_candidates (values : List V)
    (hresolves : ∀ value ∈ values, ∃ c, d.Resolves value c) :
    ∃ candidates : List (ResolvedCandidate N V), candidates.map (·.raw) = values ∧
      ∀ c ∈ candidates, d.Resolves c.raw c := by
  induction values with
  | nil => exact ⟨[], rfl, fun c hc => absurd hc not_mem_nil⟩
  | cons value rest ih =>
    obtain ⟨candidates, rfl, hcandidates⟩ :=
      ih fun other hother => hresolves other (mem_cons_of_mem _ hother)
    obtain ⟨c, hc⟩ := hresolves value mem_cons_self
    refine ⟨c :: candidates, by rw [map_cons, hc.raw], ?_⟩
    rintro other (_ | ⟨_, hother⟩)
    · rwa [hc.raw]
    · exact hcandidates other hother

/-! ### The order of the candidates -/

/-- What a candidate is compared by. -/
def rank (d : ScpDriver N V) (mask : Hash256) (c : ResolvedCandidate N V) :
    Nat ×ₗ Int ×ₗ Int ×ₗ Int ×ₗ Nat :=
  txSetRank d.codec.txSets mask d.ledgerVersion c.txSet c.txSetHash

theorem compareCandidates_eq_compare (mask : Hash256) (a b : ResolvedCandidate N V) :
    d.compareCandidates mask a b = compare (d.rank mask a) (d.rank mask b) :=
  compareTxSets_eq_compare _ _ _ _

theorem compareCandidates_transCmp (mask : Hash256) : Std.TransCmp (d.compareCandidates mask) where
  eq_swap {a b} := by
    rw [compareCandidates_eq_compare, compareCandidates_eq_compare]
    exact Std.OrientedCmp.eq_swap
  isLE_trans {a b c} hab hbc := by
    rw [compareCandidates_eq_compare] at hab hbc ⊢
    exact Std.TransCmp.isLE_trans hab hbc

/-- Two candidates are equal in the order when they carry the same transaction set. -/
theorem compareCandidates_eq_iff {mask : Hash256} {value value' : V} {c c' : ResolvedCandidate N V}
    (hc : d.Resolves value c) (hc' : d.Resolves value' c') :
    d.compareCandidates mask c c' = .eq ↔ c.sv.txSetHash = c'.sv.txSetHash := by
  rw [compareCandidates_eq_compare, compare_eq_iff_eq, rank, rank]
  constructor
  · intro hrank
    rw [← hc.hash, ← hc'.hash]
    exact hash_eq_of_txSetRank_eq hrank
  · intro hhash
    have htxSet : c.txSet = c'.txSet :=
      Option.some.inj (hc.txSet.symm.trans (hhash ▸ hc'.txSet))
    rw [htxSet, hc.hash, hc'.hash, hhash]

/-! ### The merged upgrades -/

theorem checkUpgradeOrderingAbove_encoded (upgrades : List LedgerUpgrade)
    (hroundTrip : ∀ upgrade ∈ upgrades,
      d.codec.upgradeFromXdr (d.codec.upgradeToXdr upgrade) = some upgrade)
    (hordered : LedgerUpgrade.Ordered upgrades) (last : Option Nat)
    (habove : ∀ prev ∈ last, ∀ upgrade ∈ upgrades, prev < upgrade.upgradeTypeOrder) :
    d.checkUpgradeOrderingAbove last (upgrades.map d.codec.upgradeToXdr) = true := by
  induction upgrades generalizing last with
  | nil => rfl
  | cons upgrade rest ih =>
    obtain ⟨hupgrade, hrest⟩ := pairwise_cons.mp hordered
    rw [map_cons, checkUpgradeOrderingAbove, hroundTrip upgrade mem_cons_self]
    have hfirst : ¬(last.any fun prev => upgrade.upgradeTypeOrder ≤ prev) = true := by
      cases last with
      | none => exact nofun
      | some prev =>
        have hlt := habove prev rfl upgrade mem_cons_self
        simpa using hlt
    dsimp only
    rw [if_neg hfirst]
    refine ih (fun other hother => hroundTrip other (mem_cons_of_mem _ hother)) hrest _ ?_
    intro prev hprev other hother
    obtain rfl := Option.some.inj hprev
    exact hupgrade other hother

theorem mem_upgradesOf {value : V} {upgrade : LedgerUpgrade} :
    upgrade ∈ d.upgradesOf value ↔ ∃ sv, d.codec.stellarValueFromXdr value = some sv ∧
      ∃ bytes ∈ sv.upgrades, d.codec.upgradeFromXdr bytes = some upgrade := by
  unfold upgradesOf
  split
  next hnone =>
    refine iff_of_false not_mem_nil fun ⟨sv, hsv, _⟩ => ?_
    rw [hnone] at hsv
    cases hsv
  next sv hsv =>
    rw [mem_filterMap]
    constructor
    · exact fun hupgrade => ⟨sv, hsv, hupgrade⟩
    · rintro ⟨sv', hsv', hupgrade⟩
      rwa [Option.some.inj (hsv.symm.trans hsv')]

theorem isUpgradeValid_of_nomination {upgrade : LedgerUpgrade}
    (hvalid : d.isUpgradeValid upgrade true = true) : d.isUpgradeValid upgrade false = true := by
  simp only [isUpgradeValid, Bool.and_eq_true] at hvalid ⊢
  exact ⟨hvalid.1, rfl⟩

theorem PassesLocally.withUpgrades {slotIndex : Nat} {sv : StellarValue N Hash256}
    (hlocal : d.PassesLocally slotIndex sv) (upgrades : List (List UInt8)) :
    d.PassesLocally slotIndex { sv with upgrades } :=
  ⟨hlocal.signed, hlocal.slot, hlocal.closeTime, hlocal.cached, hlocal.content⟩

variable [LinearOrder V]

theorem bestCandidate_spec (mask : Hash256) {first : ResolvedCandidate N V}
    {rest : List (ResolvedCandidate N V)}
    (hsorted : ((first :: rest).map (·.raw)).Pairwise (· ≤ ·)) :
    d.bestCandidate mask first rest ∈ first :: rest ∧ ∀ c ∈ first :: rest,
      d.compareCandidates mask c (d.bestCandidate mask first rest) ≠ .gt ∧
        (d.compareCandidates mask c (d.bestCandidate mask first rest) = .eq →
          (d.bestCandidate mask first rest).raw ≤ c.raw) := by
  have hbest := foldl_best (d.rank mask) (·.raw) first rest hsorted
  have hfold : d.bestCandidate mask first rest =
      rest.foldl (fun best c => if d.rank mask best < d.rank mask c then c else best) first := by
    unfold bestCandidate
    congr 1
    funext best c
    rw [compareCandidates_eq_compare]
    exact if_congr compare_lt_iff_lt rfl rfl
  rw [hfold]
  refine ⟨hbest.1, fun c hc => ?_⟩
  rw [compareCandidates_eq_compare, compare_eq_iff_eq, ne_eq, compare_gt_iff_gt, not_lt]
  exact hbest.2 c hc

/-! ### The combined value -/

structure IsCombination (d : ScpDriver N V) (values : List V) (sv : StellarValue N Hash256) :
    Prop where
  best : ∃ value ∈ values, ∃ c, d.Resolves value c ∧ sv = { c.sv with upgrades := sv.upgrades } ∧
    ∀ value' ∈ values, ∀ c', d.Resolves value' c' →
      d.compareCandidates (d.candidatesHash values) c' c ≠ .gt ∧
        (d.compareCandidates (d.candidatesHash values) c' c = .eq → value ≤ value')
  upgrades : ∃ upgrades, sv.upgrades.map d.codec.upgradeFromXdr = upgrades.map some ∧
    LedgerUpgrade.MaximaOf (values.flatMap d.upgradesOf) upgrades

/-- The types of the upgrades that any of the candidates carries. -/
def upgradeTypes (d : ScpDriver N V) (values : List V) : Finset Nat :=
  ((values.flatMap d.upgradesOf).map upgradeTypeOrder).toFinset

theorem combineCandidates_perm {values values' : List V} (hperm : values.Perm values') :
    d.combineCandidates values = d.combineCandidates values' := by
  have hsorted : values.insertionSort (· ≤ ·) = values'.insertionSort (· ≤ ·) :=
    (((perm_insertionSort _ values).trans hperm).trans
      (perm_insertionSort _ values').symm).eq_of_pairwise'
      (pairwise_insertionSort _ _) (pairwise_insertionSort _ _)
  rw [combineCandidates, combineCandidates, hsorted, hperm.isEmpty_eq]

theorem combineCandidates_valid (hcodec : d.codec.Lawful) (slotIndex : Nat) (values : List V)
    (hne : values ≠ []) (hvalid : ∀ value ∈ values, d.validateValue slotIndex value true = .valid)
    (htypes : (d.upgradeTypes values).card ≤ maxUpgradesPerValue) :
    ∃ sv, d.combineCandidates values = .ok (some (d.codec.stellarValueToXdr sv)) ∧
      d.IsCombination values sv ∧
      d.validateValue slotIndex (d.codec.stellarValueToXdr sv) false = .valid := by
  have hperm := perm_insertionSort (· ≤ ·) values
  obtain ⟨candidates, hraws, hresolves⟩ := exists_candidates (values.insertionSort (· ≤ ·))
    fun value hvalue => by
      obtain ⟨c, hc, -⟩ := exists_resolves (hvalid value (hperm.mem_iff.mp hvalue))
      exact ⟨c, hc⟩
  have hsorted : (candidates.map (·.raw)).Pairwise (· ≤ ·) :=
    hraws ▸ pairwise_insertionSort _ _
  have hselectable : candidates.filter (fun c => c.txSet.previousLedgerHash = d.lclHash) =
      candidates :=
    filter_eq_self.mpr fun c hc => decide_eq_true (hresolves c hc).follows
  have hresorted : candidates.insertionSort (fun a b => a.raw ≤ b.raw) = candidates :=
    (pairwise_map.mp hsorted).insertionSort_eq
  have hmem : ∀ c ∈ candidates, c.raw ∈ values := fun c hc =>
    hperm.mem_iff.mp (hraws ▸ mem_map_of_mem hc)
  cases candidates with
  | nil =>
    rw [← hraws] at hperm
    exact absurd hperm.nil_eq.symm hne
  | cons first rest =>
    -- The merged upgrades are the maxima, and there is room for them.
    generalize hmerged : ((values.insertionSort (· ≤ ·)).flatMap d.upgradesOf).foldl
      mergeUpgrade [] = merged
    have hmaxima : LedgerUpgrade.MaximaOf (values.flatMap d.upgradesOf) merged := by
      have hfold := maximaOf_foldl
        ((values.insertionSort (· ≤ ·)).flatMap d.upgradesOf) LedgerUpgrade.MaximaOf.nil
      rw [hmerged] at hfold
      exact hfold.perm (hperm.flatMap_right _)
    have hlength : merged.length ≤ maxUpgradesPerValue := hmaxima.length_eq ▸ htypes
    obtain ⟨hbestMem, hbest⟩ := bestCandidate_spec (d.candidatesHash values) hsorted
    generalize hbestEq : d.bestCandidate (d.candidatesHash values) first rest = best
      at hbestMem hbest
    have hbestResolves := hresolves best hbestMem
    -- Every merged upgrade was read from some candidate.
    have hread : ∀ upgrade ∈ merged, ∃ bytes, d.codec.upgradeFromXdr bytes = some upgrade ∧
        d.isUpgradeValid upgrade true = true := by
      intro upgrade hupgrade
      obtain ⟨value, hvalue, hmem⟩ := mem_flatMap.mp (hmaxima.seen_of_mem upgrade hupgrade)
      obtain ⟨sv, hsv, bytes, hbytes, hparsed⟩ := mem_upgradesOf.mp hmem
      obtain ⟨sv', hsv', -, -, hupgrades⟩ := validateValue_eq_valid.mp (hvalid value hvalue)
      obtain rfl := Option.some.inj (hsv.symm.trans hsv')
      obtain ⟨upgrade', hparsed', hvalid'⟩ := parsed_of_checkUpgradesValid hupgrades hbytes
      obtain rfl := Option.some.inj (hparsed.symm.trans hparsed')
      exact ⟨bytes, hparsed, hvalid'⟩
    have hroundTrip : ∀ upgrade ∈ merged,
        d.codec.upgradeFromXdr (d.codec.upgradeToXdr upgrade) = some upgrade := by
      intro upgrade hupgrade
      obtain ⟨bytes, hparsed, -⟩ := hread upgrade hupgrade
      exact hcodec.upgrade_roundTrip bytes upgrade hparsed
    refine ⟨{ best.sv with upgrades := merged.map d.codec.upgradeToXdr }, ?_, ?_, ?_⟩
    · have hhash : (values.insertionSort (· ≤ ·)).foldl
          (fun mask value => mask ^^^ d.candidateHash value) 0 = d.candidatesHash values :=
        candidatesHash_perm hperm
      have hcollected := foldlM_collectCandidate (first :: rest) hresolves ⟨0, [], []⟩
      rw [hraws, hhash, hmerged, nil_append] at hcollected
      have hnonempty : values.isEmpty = false := by
        rw [Bool.eq_false_iff, Ne, List.isEmpty_iff]
        exact hne
      have hfits : ¬(merged.map d.codec.upgradeToXdr).length > maxUpgradesPerValue := by
        rw [length_map]
        exact not_lt.mpr hlength
      simp only [combineCandidates, hnonempty, Bool.false_eq_true, if_false, hcollected, bind,
        Except.bind, mapM_resolveCandidate _ hresolves, hselectable, hresorted, hbestEq,
        mapM_encodeUpgrade hcodec, hfits]
      rfl
    · refine ⟨⟨best.raw, hmem best hbestMem, best, hbestResolves, rfl, ?_⟩, merged, ?_, hmaxima⟩
      · intro value' hvalue' c' hc'
        obtain ⟨c, hc, hraw⟩ := mem_map.mp (hraws ▸ hperm.mem_iff.mpr hvalue')
        subst hraw
        rw [hc'.unique (hresolves c hc)]
        exact hbest c hc
      · rw [map_map]
        exact map_congr_left hroundTrip
    · obtain ⟨c, hc, hlocal, -⟩ := exists_resolves (hvalid best.raw (hmem best hbestMem))
      rw [hc.unique hbestResolves] at hlocal
      have hbounded := hcodec.bounded _ _ hbestResolves.decoded
      refine validateValue_eq_valid.mpr ⟨_, hcodec.roundTrip _ ⟨hbounded.txSetHash,
        hbounded.closeTime, ?_, ?_, hbounded.signature⟩, hlocal.withUpgrades _, ?_, ?_⟩
      · rwa [length_map]
      · intro bytes hbytes
        obtain ⟨upgrade, -, rfl⟩ := mem_map.mp hbytes
        exact hcodec.upgrade_length upgrade
      · exact checkUpgradeOrderingAbove_encoded merged hroundTrip hmaxima.ordered none nofun
      · refine all_eq_true.mpr fun bytes hbytes => ?_
        obtain ⟨upgrade, hupgrade, rfl⟩ := mem_map.mp hbytes
        obtain ⟨-, -, hnomination⟩ := hread upgrade hupgrade
        rw [hroundTrip upgrade hupgrade]
        exact isUpgradeValid_of_nomination hnomination

theorem combineCandidates_single (hcodec : d.codec.Lawful) {slotIndex : Nat} {value : V}
    {sv : StellarValue N Hash256} (hvalid : d.validateValue slotIndex value true = .valid)
    (hsv : d.codec.stellarValueFromXdr value = some sv) (hnone : sv.upgrades = []) :
    d.combineCandidates [value] = .ok (some (d.codec.stellarValueToXdr sv)) := by
  have hupgrades : d.upgradesOf value = [] := by
    rw [upgradesOf, hsv]
    dsimp only
    rw [hnone]
    rfl
  have hall : [value].flatMap d.upgradesOf = [] := by
    rw [flatMap_singleton, hupgrades]
  obtain ⟨combined, hcombined, ⟨⟨value', hvalue', c, hc, heq, -⟩, upgrades, hmap, hmaxima⟩, -⟩ :=
    combineCandidates_valid hcodec slotIndex [value] (cons_ne_nil _ _)
      (fun other hother => by rwa [mem_singleton.mp hother])
      (by rw [upgradeTypes, hall]; exact Nat.zero_le _)
  rw [hall] at hmaxima
  have hempty : upgrades = [] :=
    eq_nil_iff_forall_not_mem.mpr fun upgrade hupgrade =>
      absurd (hmaxima.seen_of_mem upgrade hupgrade) not_mem_nil
  rw [hempty, map_nil, map_eq_nil_iff] at hmap
  obtain rfl := mem_singleton.mp hvalue'
  obtain rfl := Option.some.inj (hsv.symm.trans hc.decoded)
  rw [hcombined, heq, hmap, ← hnone]

/-- Candidates that pass validation and carry at most six types of upgrades combine, in
whatever order they come, into the best of them with the merged upgrades, and the result
passes validation. -/
theorem combineCandidates_spec (d : ScpDriver N V) (hcodec : d.codec.Lawful) (slotIndex : Nat)
    (values : List V) (hne : values ≠ [])
    (hvalid : ∀ value ∈ values, d.validateValue slotIndex value true = .valid)
    (htypes : (d.upgradeTypes values).card ≤ maxUpgradesPerValue) :
    (∃ sv, d.combineCandidates values = .ok (some (d.codec.stellarValueToXdr sv)) ∧
      d.IsCombination values sv ∧
      d.validateValue slotIndex (d.codec.stellarValueToXdr sv) false = .valid) ∧
    (∀ values', values.Perm values' → d.combineCandidates values' = d.combineCandidates values) ∧
    (∀ value sv, values = [value] → d.codec.stellarValueFromXdr value = some sv →
      sv.upgrades = [] →
      d.combineCandidates values = .ok (some (d.codec.stellarValueToXdr sv))) ∧
    (∀ mask, Std.TransCmp (d.compareCandidates mask)) ∧
    (∀ mask value value' c c', d.Resolves value c → d.Resolves value' c' →
      (d.compareCandidates mask c c' = .eq ↔ c.sv.txSetHash = c'.sv.txSetHash)) := by
  refine ⟨combineCandidates_valid hcodec slotIndex values hne hvalid htypes,
    fun values' hperm => (combineCandidates_perm hperm).symm, ?_, compareCandidates_transCmp,
    fun mask value value' c c' hc hc' => compareCandidates_eq_iff hc hc'⟩
  rintro value sv rfl hsv hnone
  exact combineCandidates_single hcodec (hvalid value mem_cons_self) hsv hnone

/-! ### A driver with rows of numbers as values -/

namespace Rows

def ofBigEndian (bytes : List UInt8) : Nat := bytes.foldl (fun n byte => n * 256 + byte.toNat) 0

def upgradeToXdr : LedgerUpgrade → List UInt8
  | .version n => bigEndian 4 1 ++ bigEndian 4 n.toNat
  | .baseFee n => bigEndian 4 2 ++ bigEndian 4 n.toNat
  | .maxTxSetSize n => bigEndian 4 3 ++ bigEndian 4 n.toNat
  | .baseReserve n => bigEndian 4 4 ++ bigEndian 4 n.toNat
  | .flags n => bigEndian 4 5 ++ bigEndian 4 n.toNat
  | .config key => bigEndian 4 6 ++ (bigEndian 32 key.contractId ++ bigEndian 32 key.contentHash)
  | .maxSorobanTxSetSize n => bigEndian 4 7 ++ bigEndian 4 n.toNat

def upgradeFromXdr (bytes : List UInt8) : Option LedgerUpgrade :=
  let body := bytes.drop 4
  let n := UInt32.ofNat (ofBigEndian body)
  let upgrade : Option LedgerUpgrade :=
    match ofBigEndian (bytes.take 4) with
    | 1 => some (.version n)
    | 2 => some (.baseFee n)
    | 3 => some (.maxTxSetSize n)
    | 4 => some (.baseReserve n)
    | 5 => some (.flags n)
    | 6 => some (.config ⟨ofBigEndian (body.take 32), ofBigEndian (body.drop 32)⟩)
    | 7 => some (.maxSorobanTxSetSize n)
    | _ => none
  upgrade.filter fun upgrade => upgradeToXdr upgrade = bytes

def extToRow : StellarValueExt Nat → List Nat
  | .basic => []
  | .signed sig => sig.nodeId :: sig.signature.map UInt8.toNat

def extFromRow : List Nat → StellarValueExt Nat
  | [] => .basic
  | nodeId :: signature => .signed ⟨nodeId, signature.map UInt8.ofNat⟩

def stellarValueFromXdr : List (List Nat) → Option (StellarValue Nat Hash256)
  | [txSetHash, closeTime] :: ext :: upgrades =>
    if txSetHash < 2 ^ 256 ∧ closeTime < 2 ^ 64 ∧ ext.length ≤ 65 ∧
        upgrades.length ≤ maxUpgradesPerValue ∧
        ∀ upgrade ∈ upgrades, upgrade.length ≤ maxUpgradeTypeBytes then
      some ⟨txSetHash, closeTime, upgrades.map (·.map UInt8.ofNat), extFromRow ext⟩
    else none
  | _ => none

def stellarValueToXdr (sv : StellarValue Nat Hash256) : List (List Nat) :=
  [sv.txSetHash, sv.closeTime] :: extToRow sv.ext :: sv.upgrades.map (·.map UInt8.toNat)

def mix (row : List Nat) : Hash256 := row.foldl (fun hash n => (hash * 1000003 + n) % 2 ^ 61) 1

def envelopeToXdr (env : TxQueue.TransactionEnvelope) : List UInt8 :=
  bigEndian 8 (TxQueue.accountKey env) ++ bigEndian 8 (TxQueue.envelopeFee env).toNat

def codec : ValueCodec Nat (List (List Nat)) where
  stellarValueFromXdr
  stellarValueToXdr
  hashValue value := mix value.flatten
  upgradeFromXdr
  upgradeToXdr
  verifyFromRawKey _ _ signature := signature = replicate 64 1
  txSets :=
    { envelopeToXdr
      generalizedToXdr := fun gen => bigEndian 32 gen.previousLedgerHash ++
        gen.phases.flatMap fun phase => phase.transactions.flatMap envelopeToXdr
      hash := fun bytes => mix (bytes.map UInt8.toNat) }

theorem map_ofNat_toNat (bytes : List UInt8) : (bytes.map UInt8.toNat).map UInt8.ofNat = bytes := by
  rw [map_map]
  exact (map_congr_left fun byte _ => UInt8.ofNat_toNat).trans (map_id bytes)

theorem bigEndian_length (width n : Nat) : (bigEndian width n).length = width := by
  induction width generalizing n with
  | zero => rfl
  | succ width ih => rw [bigEndian, length_append, ih, length_singleton]

theorem codec_lawful : codec.Lawful where
  bounded value sv hsv := by
    change stellarValueFromXdr value = some sv at hsv
    unfold stellarValueFromXdr at hsv
    split at hsv
    next txSetHash closeTime ext upgrades =>
      split at hsv
      next hbounds =>
        obtain ⟨hhash, hclose, hext, hupgrades, hupgrade⟩ := hbounds
        obtain rfl := Option.some.inj hsv
        refine ⟨hhash, hclose, by rwa [length_map], ?_, ?_⟩
        · intro bytes hbytes
          obtain ⟨row, hrow, rfl⟩ := mem_map.mp hbytes
          rw [length_map]
          exact hupgrade row hrow
        · intro sig hsig
          cases ext with
          | nil => cases hsig
          | cons nodeId signature =>
            obtain rfl := StellarValueExt.signed.inj hsig
            rw [length_map]
            exact Nat.le_of_succ_le_succ hext
      · cases hsv
    · cases hsv
  roundTrip sv hsv := by
    change stellarValueFromXdr (stellarValueToXdr sv) = some sv
    have hext : extFromRow (extToRow sv.ext) = sv.ext ∧ (extToRow sv.ext).length ≤ 65 := by
      cases hsigned : sv.ext with
      | basic => exact ⟨rfl, Nat.zero_le _⟩
      | signed sig =>
        refine ⟨by rw [extToRow, extFromRow, map_ofNat_toNat], ?_⟩
        rw [extToRow, length_cons, length_map]
        exact Nat.succ_le_succ (hsv.signature sig hsigned)
    have hupgrades : (sv.upgrades.map (·.map UInt8.toNat)).map (·.map UInt8.ofNat) = sv.upgrades := by
      rw [map_map]
      exact (map_congr_left fun bytes _ => map_ofNat_toNat bytes).trans (map_id _)
    rw [stellarValueToXdr, stellarValueFromXdr, if_pos, hext.1, hupgrades]
    refine ⟨hsv.txSetHash, hsv.closeTime, hext.2, by rw [length_map]; exact hsv.upgrades, ?_⟩
    intro row hrow
    obtain ⟨bytes, hbytes, rfl⟩ := mem_map.mp hrow
    rw [length_map]
    exact hsv.upgrade bytes hbytes
  upgrade_roundTrip bytes upgrade hupgrade := by
    have hcanonical : upgradeToXdr upgrade = bytes :=
      of_decide_eq_true (Option.filter_eq_some_iff.mp hupgrade).2
    exact (congrArg upgradeFromXdr hcanonical).trans hupgrade
  upgrade_length upgrade := by
    change (upgradeToXdr upgrade).length ≤ maxUpgradeTypeBytes
    cases upgrade <;> simp [upgradeToXdr, bigEndian_length, maxUpgradeTypeBytes]

def payment (source : Nat) : TxQueue.TransactionEnvelope :=
  .tx ⟨source, 100, 1, [.payment], none, 0⟩

/-- A transaction set with one payment, on top of ledger 7. -/
def txSet (source : Nat) : TransactionSet :=
  .generalized ⟨7, [.v0 [⟨none, [payment source]⟩], .v0 []]⟩

def txSetHash (source : Nat) : Hash256 := (txSet source).recomputeHash codec.txSets

def driver : ScpDriver Nat (List (List Nat)) where
  codec
  networkId := 3
  context := { lclSeq := 10, lclCloseTime := 100, tracking := none, now := 100, maxTimeDrift := 60 }
  lclHash := 7
  ledgerVersion := 25
  txTracker := ((∅ : Foundation.Table _ _).insert (txSetHash 1) (txSet 1)).insert (txSetHash 2)
    (txSet 2)
  prepareForApply _ := true
  checkValid _ _ := true
  configUpgradeSet key := if key = ⟨5, 6⟩ then some .valid else none
  upgrades :=
    { upgradeTime := 50
      protocolVersion := some 26
      baseFee := some 200
      maxTxSetSize := some 2000
      baseReserve := some 1000
      flags := some 1
      maxSorobanTxSetSize := some 100
      configUpgradeSetKey := some ⟨5, 6⟩ }

def value (source closeTime : Nat) (upgrades : List LedgerUpgrade) : List (List Nat) :=
  stellarValueToXdr
    { txSetHash := txSetHash source
      closeTime
      upgrades := upgrades.map upgradeToXdr
      ext := .signed ⟨source, replicate 64 1⟩ }

end Rows

/-- Two transaction sets, and upgrades of three types. -/
theorem combineCandidates_spec_merges :
    let values := [Rows.value 2 102 [.version 26, .flags 1], Rows.value 1 101 [.baseFee 200]]
    (∀ value ∈ values, Rows.driver.validateValue 11 value true = .valid) ∧
      (∃ sv, Rows.driver.combineCandidates values = .ok (some (Rows.stellarValueToXdr sv)) ∧
        Rows.driver.IsCombination values sv ∧
        Rows.driver.validateValue 11 (Rows.stellarValueToXdr sv) false = .valid) ∧
      Rows.driver.combineCandidates values =
        .ok (some (Rows.value 2 102 [.version 26, .baseFee 200, .flags 1])) := by
  intro values
  have hvalid : ∀ value ∈ values, Rows.driver.validateValue 11 value true = .valid := by
    decide +kernel
  have htypes : (Rows.driver.upgradeTypes values).card ≤ maxUpgradesPerValue := by decide +kernel
  exact ⟨hvalid, (combineCandidates_spec Rows.driver Rows.codec_lawful 11 values
    (cons_ne_nil _ _) hvalid htypes).1, by decide +kernel⟩

/-- Candidates that carry all seven types between them make combining panic, a candidate
that is repeated can change the winner, and two candidates for one transaction set are
equal in the order. -/
theorem seven_types_panic :
    (∃ values, values = [Rows.value 1 101 [.version 26, .baseFee 200, .maxTxSetSize 2000,
          .baseReserve 1000, .flags 1, .config ⟨5, 6⟩],
        Rows.value 1 101 [.maxSorobanTxSetSize 100]] ∧
      (∀ value ∈ values, Rows.driver.validateValue 11 value true = .valid) ∧
      Rows.driver.combineCandidates values = .error .upgradesExceedMax) ∧
    (∃ one other, one = Rows.value 1 102 [] ∧ other = Rows.value 2 101 [] ∧
      (∀ value ∈ [one, other], Rows.driver.validateValue 11 value true = .valid) ∧
      Rows.driver.combineCandidates [one, other] = .ok (some other) ∧
      Rows.driver.combineCandidates [one, one, other] = .ok (some one)) ∧
    (∃ one other, one = Rows.value 1 101 [] ∧ other = Rows.value 1 102 [] ∧ one ≠ other ∧
      (∀ value ∈ [one, other], Rows.driver.validateValue 11 value true = .valid) ∧
      compareTxSets Rows.codec.txSets (Rows.txSet 1) (Rows.txSet 1) (Rows.txSetHash 1)
        (Rows.txSetHash 1) (Rows.driver.candidatesHash [one, other]) 25 = .eq) := by
  refine ⟨⟨_, rfl, ?_⟩, ⟨_, _, rfl, rfl, ?_⟩, ⟨_, _, rfl, rfl, ?_⟩⟩
  all_goals decide +kernel

end ScpDriver

end Henyey.Herder
