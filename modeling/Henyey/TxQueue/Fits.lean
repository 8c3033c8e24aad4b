import Henyey.TxQueue.Thresholds

/-!
# What fits

A list of transactions fits a lane configuration when all of it is within the
limit of the generic lane, and each lane within its own. A fit check that
succeeds names enough to evict.
-/

namespace Henyey.TxQueue

open SurgePricingLaneConfig List Resource

namespace Resource

variable {d : Nat}

/-- What is needed after something was taken away. -/
theorem le_add_of_subtract_le {a b c : Resource d} (hle : a.subtractNonNegative b ≤ c) :
    a ≤ b + c := by
  intro i
  have hi : a i - b i ≤ c i := (le_max_left _ _).trans (hle i)
  exact sub_le_iff_le_add'.mp hi

theorem subtract_le_iff {a b c : Resource d} (hc : 0 ≤ c) :
    a.subtractNonNegative b ≤ c ↔ a ≤ b + c :=
  ⟨le_add_of_subtract_le, fun hle i => max_le (sub_le_iff_le_add'.mpr (hle i)) (hc i)⟩

end Resource

namespace SurgePricingLaneConfig

variable {d : Nat} {laneConfig : SurgePricingLaneConfig d} {ledgerVersion : Nat}

/-- The weight of transactions over all lanes. -/
def totalWeight (laneConfig : SurgePricingLaneConfig d) (ledgerVersion : Nat)
    (txs : List QueuedTransaction) : Resource d :=
  (txs.map fun tx => laneConfig.txResources tx.envelope ledgerVersion).sum

/-- Every transaction goes into a lane that has a limit. -/
def Laned (laneConfig : SurgePricingLaneConfig d) : Prop :=
  ∀ env, laneConfig.getLane env < laneConfig.laneLimits.length

/-- All lanes together, and each by itself, are within their limits. -/
structure Fits (laneConfig : SurgePricingLaneConfig d) (ledgerVersion : Nat)
    (txs : List QueuedTransaction) : Prop where
  total : laneConfig.totalWeight ledgerVersion txs ≤ laneConfig.limit genericLane
  lane : ∀ lane < laneConfig.laneLimits.length,
    laneConfig.laneWeight ledgerVersion txs lane ≤ laneConfig.limit lane

@[simp]
theorem totalWeight_nil : laneConfig.totalWeight ledgerVersion [] = 0 := rfl

@[simp]
theorem totalWeight_cons (tx : QueuedTransaction) (txs : List QueuedTransaction) :
    laneConfig.totalWeight ledgerVersion (tx :: txs) =
      laneConfig.txResources tx.envelope ledgerVersion + laneConfig.totalWeight ledgerVersion txs :=
  sum_cons

theorem totalWeight_append (txs others : List QueuedTransaction) :
    laneConfig.totalWeight ledgerVersion (txs ++ others) =
      laneConfig.totalWeight ledgerVersion txs + laneConfig.totalWeight ledgerVersion others := by
  rw [totalWeight, map_append, sum_append, totalWeight, totalWeight]

theorem laneWeight_append (txs others : List QueuedTransaction) (lane : Nat) :
    laneConfig.laneWeight ledgerVersion (txs ++ others) lane =
      laneConfig.laneWeight ledgerVersion txs lane +
        laneConfig.laneWeight ledgerVersion others lane := by
  rw [laneWeight, filter_append, map_append, sum_append, laneWeight, laneWeight]

theorem totalWeight_perm {txs others : List QueuedTransaction} (hperm : txs.Perm others) :
    laneConfig.totalWeight ledgerVersion txs = laneConfig.totalWeight ledgerVersion others :=
  (hperm.map _).sum_eq

/-- What is in one lane of several, added up over all lanes. -/
theorem sum_range_ite (weight : Resource d) (lane n : Nat) :
    ((range n).map fun other => if lane = other then weight else 0).sum =
      if lane < n then weight else 0 := by
  induction n with
  | zero => simp
  | succ n ih =>
    rw [range_succ, map_append, sum_append, ih]
    rcases Nat.lt_trichotomy lane n with hless | rfl | hmore
    · simp [hless, Nat.lt_succ_of_lt hless, hless.ne]
    · simp
    · simp [hmore.ne', not_lt.mpr hmore.le, not_lt.mpr (Nat.succ_le_of_lt hmore)]

/-- The lanes add up to everything. -/
theorem sum_laneWeight (hlaned : laneConfig.Laned) (txs : List QueuedTransaction) :
    ((range laneConfig.laneLimits.length).map
      (laneConfig.laneWeight ledgerVersion txs)).sum = laneConfig.totalWeight ledgerVersion txs := by
  induction txs with
  | nil =>
    apply sum_eq_zero
    intro weight hweight
    obtain ⟨lane, -, rfl⟩ := mem_map.mp hweight
    rfl
  | cons head rest ih =>
    have hsplit : laneConfig.laneWeight ledgerVersion (head :: rest) = fun lane =>
        (if laneConfig.getLane head.envelope = lane then
          laneConfig.txResources head.envelope ledgerVersion else 0) +
          laneConfig.laneWeight ledgerVersion rest lane :=
      funext (laneWeight_cons head rest)
    rw [hsplit, sum_map_add, sum_range_ite, if_pos (hlaned _), ih, totalWeight_cons]

section

variable (hnonneg : laneConfig.NonNegative)
include hnonneg

variable {txs others : List QueuedTransaction}

theorem totalWeight_le_of_subperm (hsubperm : txs.Subperm others) :
    laneConfig.totalWeight ledgerVersion txs ≤ laneConfig.totalWeight ledgerVersion others := by
  obtain ⟨middle, hperm, hsublist⟩ := hsubperm
  rw [← totalWeight_perm hperm]
  apply (hsublist.map _).sum_le_sum
  intro weight hweight
  obtain ⟨tx, -, rfl⟩ := mem_map.mp hweight
  exact hnonneg _ _

theorem laneWeight_le_of_subperm (hsubperm : txs.Subperm others) (lane : Nat) :
    laneConfig.laneWeight ledgerVersion txs lane ≤
      laneConfig.laneWeight ledgerVersion others lane :=
  totalWeight_le_of_subperm hnonneg (hsubperm.filter _)

theorem laneWeight_le_totalWeight (txs : List QueuedTransaction) (lane : Nat) :
    laneConfig.laneWeight ledgerVersion txs lane ≤ laneConfig.totalWeight ledgerVersion txs :=
  totalWeight_le_of_subperm hnonneg filter_sublist.subperm

/-- Fewer transactions fit as well. -/
theorem Fits.of_subperm (hfits : laneConfig.Fits ledgerVersion others)
    (hsubperm : txs.Subperm others) : laneConfig.Fits ledgerVersion txs where
  total := (totalWeight_le_of_subperm hnonneg hsubperm).trans hfits.total
  lane lane hlane := (laneWeight_le_of_subperm hnonneg hsubperm lane).trans (hfits.lane lane hlane)

end

section

variable (hlimits : ∀ limit ∈ laneConfig.laneLimits, 0 ≤ limit)
include hlimits

theorem limit_nonneg (lane : Nat) : 0 ≤ laneConfig.limit lane := by
  rw [limit, getD_eq_getElem?_getD]
  cases hlane : laneConfig.laneLimits[lane]? with
  | none => exact le_rfl
  | some limit => exact hlimits limit (mem_of_getElem? hlane)

/-- Nothing fits where no limit is negative. -/
theorem fits_nil : laneConfig.Fits ledgerVersion [] :=
  ⟨limit_nonneg hlimits genericLane, fun lane _ => limit_nonneg hlimits lane⟩

end

theorem Laned.dex {codec : Codec} {limit : Resource d} {dexLimit : Option (Resource d)} :
    (dexLimitingLaneConfig codec limit dexLimit).Laned := by
  intro env
  simp only [dexLimitingLaneConfig]
  split
  · next hdex => exact (Bool.and_eq_true_iff.mp hdex).1 |> of_decide_eq_true
  · exact Nat.zero_lt_succ _

theorem Laned.soroban {codec : Codec} {limit : Resource 7} :
    (sorobanGenericLaneConfig codec limit).Laned := fun _ => Nat.zero_lt_one

theorem Laned.ops {limit : Resource 1} : (opsOnlyLaneConfig limit).Laned :=
  fun _ => Nat.zero_lt_one

end SurgePricingLaneConfig

/-- What an exclusion leaves out, and that it weighs it right. -/
structure EvictionExclusion.Excludes {d : Nat} (exclusion : EvictionExclusion d)
    (laneConfig : SurgePricingLaneConfig d) (ledgerVersion : Nat)
    (excluded : List QueuedTransaction) : Prop where
  hashes : ∀ hash, hash ∈ exclusion.hashes ↔ hash ∈ excluded.map (·.hash)
  discount : ∀ lane, exclusion.laneResourceDiscount lane =
    laneConfig.laneWeight ledgerVersion excluded lane

def withoutAll (hashes : List Hash256) (txs : List QueuedTransaction) : List QueuedTransaction :=
  txs.filter fun tx => tx.hash ∉ hashes

theorem mem_withoutAll {hashes : List Hash256} {txs : List QueuedTransaction}
    {tx : QueuedTransaction} : tx ∈ withoutAll hashes txs ↔ tx ∈ txs ∧ tx.hash ∉ hashes := by
  simp [withoutAll]

theorem DistinctHashes.nodup {txs : List QueuedTransaction} (hdistinct : DistinctHashes txs) :
    txs.Nodup := List.Nodup.of_map _ hdistinct

/-- Taking some transactions out and putting them back in front reorders. -/
theorem perm_append_withoutAll {txs part : List QueuedTransaction} (hdistinct : DistinctHashes txs)
    (hpart : DistinctHashes part) (hsubset : part ⊆ txs) :
    txs.Perm (part ++ withoutAll (part.map (·.hash)) txs) := by
  apply (perm_ext_iff_of_nodup hdistinct.nodup ?_).mpr
  · intro tx
    rw [mem_append, mem_withoutAll]
    constructor
    · intro htx
      by_cases hhash : tx.hash ∈ part.map (·.hash)
      · obtain ⟨other, hother, heq⟩ := mem_map.mp hhash
        left
        rwa [← hdistinct.eq_of_hash (hsubset hother) htx heq]
      · exact .inr ⟨htx, hhash⟩
    · rintro (htx | ⟨htx, -⟩)
      · exact hsubset htx
      · exact htx
  · refine nodup_append.mpr ⟨hpart.nodup, hdistinct.nodup.filter _, ?_⟩
    rintro tx htx _ hother rfl
    exact (mem_withoutAll.mp hother).2 (mem_map_of_mem htx)

namespace SurgePricingPriorityQueue

variable {d : Nat} {queue : SurgePricingPriorityQueue d}

section

variable {evictions : List (QueuedTransaction × Bool)} {tx : QueuedTransaction}
  {ledgerVersion fuel : Nat} {neededTotal neededLane : Resource d}
  {cursors : List (Nat × List QueueEntry)}

/-- The transactions weigh what is needed. The generic lane needs no more than
all lanes do together. -/
def Enough (queue : SurgePricingPriorityQueue d) (tx : QueuedTransaction) (ledgerVersion : Nat)
    (neededTotal neededLane : Resource d) (txs : List QueuedTransaction) : Prop :=
  neededTotal ≤ queue.laneConfig.totalWeight ledgerVersion txs ∧
    (queue.getLane tx.envelope ≠ genericLane →
      neededLane ≤ queue.laneConfig.laneWeight ledgerVersion txs (queue.getLane tx.envelope))

theorem Enough.perm {txs others : List QueuedTransaction} (hperm : txs.Perm others)
    (henough : queue.Enough tx ledgerVersion neededTotal neededLane txs) :
    queue.Enough tx ledgerVersion neededTotal neededLane others := by
  unfold Enough at henough ⊢
  rwa [← totalWeight_perm hperm, ← laneWeight_perm hperm]

variable (hnonneg : queue.laneConfig.NonNegative)
include hnonneg

theorem enough_cons_iff (entry : QueueEntry) {txs : List QueuedTransaction} :
    queue.Enough tx ledgerVersion neededTotal neededLane (entry.tx :: txs) ↔
      queue.Enough tx ledgerVersion
        (neededTotal.subtractNonNegative (queue.txResources entry.tx.envelope ledgerVersion))
        (queue.neededLaneAfter tx ledgerVersion neededLane (queue.getLane entry.tx.envelope) entry)
        txs := by
  have hweight : 0 ≤ queue.laneConfig.totalWeight ledgerVersion txs :=
    totalWeight_le_of_subperm hnonneg nil_subperm
  unfold Enough neededLaneAfter getLane
  rw [totalWeight_cons, laneWeight_cons]
  refine and_congr (subtract_le_iff hweight).symm (imp_congr_right fun hspecial => ?_)
  -- an entry of another lane makes no room in the lane
  by_cases hown : queue.laneConfig.getLane entry.tx.envelope = queue.laneConfig.getLane tx.envelope
  · rw [if_pos hown, if_pos (by simp [hown])]
    exact (subtract_le_iff (laneWeight_nonneg hnonneg _ _)).symm
  · rw [if_neg hown, if_neg (by simpa [Ne.symm hown] using hspecial), zero_add]

theorem enough_of_collectEvictions {due : Bool}
    (hcursors : ∀ lane entry, Ahead cursors lane entry → queue.getLane entry.tx.envelope = lane)
    (hevictions : queue.collectEvictions tx ledgerVersion fuel neededTotal neededLane cursors due =
      some evictions) :
    queue.Enough tx ledgerVersion neededTotal neededLane (evictions.map (·.1)) := by
  induction fuel using Nat.strong_induction_on
    generalizing neededTotal neededLane cursors due evictions with
  | _ fuel ih =>
    obtain ⟨hnone, rfl⟩ | ⟨rounds, hless, lane, entry, -, hbest, hround⟩ :=
      collectEvictions_cases hevictions
    · obtain ⟨htotal, hlane⟩ := Bool.or_eq_false_iff.mp hnone
      exact ⟨anyPositive_eq_false.mp htotal, fun _ => anyPositive_eq_false.mp hlane⟩
    · obtain ⟨-, later, rfl, hlater⟩ | hlater := hround
      · obtain rfl := hcursors lane entry (ahead_of_bestCursor hbest)
        exact (enough_cons_iff hnonneg entry).mpr (ih rounds hless
          (fun _ _ hahead => hcursors _ _ (ahead_of_advance hahead)) hlater)
      · exact ih rounds hless (fun _ _ hahead => hcursors _ _ (ahead_of_dropLane hahead)) hlater

end

/-- What the newcomer is counted with. -/
def charge (queue : SurgePricingPriorityQueue d) (tx : QueuedTransaction)
    (txDiscount : Option (Resource d)) (ledgerVersion : Nat) : Resource d :=
  (queue.txResources tx.envelope ledgerVersion).discounted txDiscount

/-- What all lanes together lack. -/
def lackTotal (queue : SurgePricingPriorityQueue d) (tx : QueuedTransaction)
    (txDiscount : Option (Resource d)) (ledgerVersion : Nat) (exclusion : EvictionExclusion d) :
    Resource d :=
  (queue.effectiveTotal exclusion + queue.charge tx txDiscount ledgerVersion).subtractNonNegative
    (queue.laneConfig.limit genericLane)

def lackLane (queue : SurgePricingPriorityQueue d) (tx : QueuedTransaction)
    (txDiscount : Option (Resource d)) (ledgerVersion : Nat) (exclusion : EvictionExclusion d) :
    Resource d :=
  (queue.effectiveLaneCount exclusion (queue.getLane tx.envelope) +
    queue.charge tx txDiscount ledgerVersion).subtractNonNegative
      (queue.laneConfig.limit (queue.getLane tx.envelope))

/-- The newcomer, counted with a weight of its own, has room in its lane and over all lanes
once a part is gone. -/
def RoomWithout (laneConfig : SurgePricingLaneConfig d) (ledgerVersion : Nat)
    (tx : QueuedTransaction) (weight : Resource d) (kept part : List QueuedTransaction) : Prop :=
  weight + laneConfig.totalWeight ledgerVersion (withoutAll (part.map (·.hash)) kept) ≤
      laneConfig.limit genericLane ∧
    weight + laneConfig.laneWeight ledgerVersion (withoutAll (part.map (·.hash)) kept)
      (laneConfig.getLane tx.envelope) ≤ laneConfig.limit (laneConfig.getLane tx.envelope)

theorem room_iff {whole part left weight limit : Resource d} (hsplit : whole = part + left) :
    whole + weight ≤ limit + part ↔ weight + left ≤ limit := by
  subst hsplit
  refine forall_congr' fun i => ?_
  simp only [Pi.add_apply]
  omega

/-- A fit check that succeeds goes through the loop, which has nothing to do
where all fits. -/
theorem collectEvictions_of_canFitWithEviction {tx : QueuedTransaction}
    {txDiscount : Option (Resource d)} {ledgerVersion : Nat} {exclusion : EvictionExclusion d}
    {evictions : List (QueuedTransaction × Bool)} (hevictions :
      queue.canFitWithEviction tx txDiscount ledgerVersion exclusion = some evictions) :
    queue.collectEvictions tx ledgerVersion ((queue.cursorsOf exclusion).map (·.2.length)).sum
      (queue.lackTotal tx txDiscount ledgerVersion exclusion)
      (queue.lackLane tx txDiscount ledgerVersion exclusion) (queue.cursorsOf exclusion) false =
        some evictions := by
  unfold canFitWithEviction at hevictions
  simp only at hevictions
  split at hevictions
  · cases hevictions
  · split at hevictions
    · cases hevictions
    · split at hevictions
      · next hfits =>
        cases hevictions
        obtain ⟨htotal, hlane⟩ := Bool.and_eq_true_iff.mp hfits
        have hzero {a b : Resource d} (hle : a.leq b = true) :
            (a.subtractNonNegative b).anyPositive = false := by
          refine anyPositive_eq_false.mpr fun i => max_le ?_ le_rfl
          exact sub_nonpos_of_le (leq_iff.mp hle i)
        unfold collectEvictions lackTotal lackLane charge
        rw [hzero htotal, hzero hlane]
        rfl
      · exact hevictions

variable {laneConfig : SurgePricingLaneConfig d} {seed ledgerVersion : Nat}
  {txs excluded : List QueuedTransaction} {exclusion : EvictionExclusion d}
  {tx : QueuedTransaction} {txDiscount : Option (Resource d)}

theorem Holds.subset_of_canFitWithEviction (hholds : queue.Holds laneConfig seed ledgerVersion txs)
    (hexcludes : exclusion.Excludes laneConfig ledgerVersion excluded)
    (hevictions : queue.canFitWithEviction tx txDiscount ledgerVersion exclusion = some evictions) :
    evictions.map (·.1) ⊆ withoutAll (excluded.map (·.hash)) txs := by
  intro other hother
  obtain ⟨evicted, hevicted, rfl⟩ := mem_map.mp hother
  obtain ⟨hheld, hfree, -, -⟩ := hholds.yields_of_canFitWithEviction hevictions evicted hevicted
  exact mem_withoutAll.mpr ⟨hheld, fun hhash => hfree ((hexcludes.hashes _).mpr hhash)⟩

section

variable (hholds : queue.Holds laneConfig seed ledgerVersion txs) (hnonneg : laneConfig.NonNegative)
include hholds hnonneg

theorem Holds.effectiveLaneCount_eq (hdistinct : DistinctHashes txs)
    (hexcluded : DistinctHashes excluded) (hsubset : excluded ⊆ txs)
    (hexcludes : exclusion.Excludes laneConfig ledgerVersion excluded) (lane : Nat) :
    queue.effectiveLaneCount exclusion lane =
      laneConfig.laneWeight ledgerVersion (withoutAll (excluded.map (·.hash)) txs) lane := by
  have hperm := perm_append_withoutAll hdistinct hexcluded hsubset
  rw [effectiveLaneCount, hholds.count_eq, hexcludes.discount,
    laneWeight_perm hperm, laneWeight_append]
  funext i
  have hleft : 0 ≤ laneConfig.laneWeight ledgerVersion
      (withoutAll (excluded.map (·.hash)) txs) lane i :=
    laneWeight_nonneg hnonneg _ lane i
  simp only [subtractNonNegative, Pi.add_apply, add_sub_cancel_left]
  exact max_eq_left hleft

section

variable (hlaned : laneConfig.Laned) (hdistinct : DistinctHashes txs)
  (hexcluded : DistinctHashes excluded) (hsubset : excluded ⊆ txs)
  (hexcludes : exclusion.Excludes laneConfig ledgerVersion excluded)
include hlaned hdistinct hexcluded hsubset hexcludes

theorem Holds.effectiveTotal_eq :
    queue.effectiveTotal exclusion =
      laneConfig.totalWeight ledgerVersion (withoutAll (excluded.map (·.hash)) txs) := by
  have hlane : queue.effectiveLaneCount exclusion =
      laneConfig.laneWeight ledgerVersion (withoutAll (excluded.map (·.hash)) txs) :=
    funext (hholds.effectiveLaneCount_eq hnonneg hdistinct hexcluded hsubset hexcludes)
  rw [effectiveTotal, numLanes, hholds.config_eq, hlane, sum_laneWeight hlaned]

theorem Holds.enough_iff_roomWithout {part : List QueuedTransaction} (hpart : DistinctHashes part)
    (hheld : part ⊆ withoutAll (excluded.map (·.hash)) txs) :
    queue.Enough tx ledgerVersion (queue.lackTotal tx txDiscount ledgerVersion exclusion)
        (queue.lackLane tx txDiscount ledgerVersion exclusion) part ↔
      RoomWithout laneConfig ledgerVersion tx
        ((laneConfig.txResources tx.envelope ledgerVersion).discounted txDiscount)
        (withoutAll (excluded.map (·.hash)) txs) part := by
  have hperm := perm_append_withoutAll (hdistinct.filter _) hpart hheld
  have htotal := hholds.effectiveTotal_eq hnonneg hlaned hdistinct hexcluded hsubset hexcludes
  have hlane := hholds.effectiveLaneCount_eq hnonneg hdistinct hexcluded hsubset hexcludes
    (laneConfig.getLane tx.envelope)
  obtain rfl := hholds.config_eq
  have hroomTotal : queue.lackTotal tx txDiscount ledgerVersion exclusion ≤
      queue.laneConfig.totalWeight ledgerVersion part ↔ _ :=
    (subtract_le_iff (totalWeight_le_of_subperm hnonneg nil_subperm)).trans
      (htotal ▸ room_iff ((totalWeight_perm hperm).trans (totalWeight_append _ _)))
  have hroomLane : queue.lackLane tx txDiscount ledgerVersion exclusion ≤
      queue.laneConfig.laneWeight ledgerVersion part (queue.getLane tx.envelope) ↔ _ :=
    (subtract_le_iff (laneWeight_nonneg hnonneg _ _)).trans
      (hlane ▸ room_iff ((laneWeight_perm hperm _).trans (laneWeight_append _ _ _)))
  unfold Enough RoomWithout
  rw [hroomTotal, hroomLane]
  refine and_congr_right fun hfits => ⟨fun hspecial => ?_, fun hroom _ => hroom⟩
  by_cases hown : queue.getLane tx.envelope = genericLane
  · refine (add_le_add le_rfl (laneWeight_le_totalWeight hnonneg _ _)).trans ?_
    rw [show queue.laneConfig.getLane tx.envelope = genericLane from hown]
    exact hfits
  · exact hspecial hown

section

theorem Holds.roomWithout_of_canFitWithEviction (hevictions :
      queue.canFitWithEviction tx txDiscount ledgerVersion exclusion = some evictions) :
    RoomWithout laneConfig ledgerVersion tx
      ((laneConfig.txResources tx.envelope ledgerVersion).discounted txDiscount)
      (withoutAll (excluded.map (·.hash)) txs) (evictions.map (·.1)) := by
  refine (hholds.enough_iff_roomWithout hnonneg hlaned hdistinct hexcluded hsubset hexcludes
    (hdistinct.of_subperm (hholds.subperm_of_canFitWithEviction hevictions))
    (hholds.subset_of_canFitWithEviction hexcludes hevictions)).mp ?_
  exact enough_of_collectEvictions (hholds.config_eq ▸ hnonneg) (hholds.placed exclusion)
    (collectEvictions_of_canFitWithEviction hevictions)

variable (hevictions : queue.canFitWithEviction tx none ledgerVersion exclusion = some evictions)
include hevictions

/-- What a fit check leaves, with the newcomer, fits where the queue did. -/
theorem Holds.fits_of_canFitWithEviction
    (hlanes : ∀ lane < laneConfig.laneLimits.length, lane ≠ genericLane →
      laneConfig.laneWeight ledgerVersion txs lane ≤ laneConfig.limit lane)
    {after : List QueuedTransaction} (hafter : DistinctHashes after)
    (hmem : ∀ other ∈ after, other = tx ∨ other ∈ txs ∧ other.hash ∉ excluded.map (·.hash) ∧
      other.hash ∉ (evictions.map (·.1)).map (·.hash)) :
    laneConfig.Fits ledgerVersion after := by
  obtain ⟨htotal, hlane⟩ := hholds.roomWithout_of_canFitWithEviction hnonneg hlaned hdistinct
    hexcluded hsubset hexcludes hevictions
  generalize hleft : withoutAll ((evictions.map (·.1)).map (·.hash))
    (withoutAll (excluded.map (·.hash)) txs) = left at htotal hlane
  replace htotal : laneConfig.totalWeight ledgerVersion (tx :: left) ≤
      laneConfig.limit genericLane := totalWeight_cons tx left ▸ htotal
  replace hlane : laneConfig.laneWeight ledgerVersion (tx :: left)
      (laneConfig.getLane tx.envelope) ≤ laneConfig.limit (laneConfig.getLane tx.envelope) := by
    rw [laneWeight_cons, if_pos rfl]
    exact hlane
  have hsubperm : after.Subperm (tx :: left) := by
    apply subperm_of_subset hafter.nodup
    intro other hother
    rcases hmem other hother with rfl | ⟨hheld, hfree, hstays⟩
    · exact mem_cons_self
    · rw [← hleft]
      exact mem_cons_of_mem _ (mem_withoutAll.mpr ⟨mem_withoutAll.mpr ⟨hheld, hfree⟩, hstays⟩)
  refine ⟨(totalWeight_le_of_subperm hnonneg hsubperm).trans htotal,
    fun lane hbound => (laneWeight_le_of_subperm hnonneg hsubperm lane).trans
      ?_⟩
  by_cases hgeneric : lane = genericLane
  · subst hgeneric
    exact (laneWeight_le_totalWeight hnonneg _ _).trans htotal
  · by_cases hown : laneConfig.getLane tx.envelope = lane
    · subst hown
      exact hlane
    · rw [laneWeight_cons, if_neg hown, zero_add]
      have hbefore : left.Subperm txs := by
        rw [← hleft]
        exact (filter_sublist.trans filter_sublist).subperm
      exact (laneWeight_le_of_subperm hnonneg hbefore lane).trans
        (hlanes lane hbound hgeneric)

/-- Where the newcomer fits with all that is not excluded, nothing is
evicted. -/
theorem Holds.spared_of_fits
    (hfits : laneConfig.Fits ledgerVersion (tx :: withoutAll (excluded.map (·.hash)) txs)) :
    evictions = [] := by
  have htotal := hholds.effectiveTotal_eq hnonneg hlaned hdistinct hexcluded hsubset hexcludes
  have hlane := hholds.effectiveLaneCount_eq hnonneg hdistinct hexcluded hsubset hexcludes
    (laneConfig.getLane tx.envelope)
  have hroomTotal := hfits.total
  have hroomLane := hfits.lane _ (hlaned tx.envelope)
  obtain ⟨rfl, -, -, -, -, -⟩ := hholds
  rw [totalWeight_cons, ← htotal, add_comm] at hroomTotal
  rw [laneWeight_cons, if_pos rfl, ← hlane, add_comm] at hroomLane
  unfold canFitWithEviction at hevictions
  simp only at hevictions
  split at hevictions
  · cases hevictions
  · split at hevictions
    · cases hevictions
    · split at hevictions
      · cases hevictions
        rfl
      · next hfull =>
        refine absurd (Bool.and_eq_true_iff.mpr ⟨?_, ?_⟩) hfull
        · exact leq_iff.mpr hroomTotal
        · exact leq_iff.mpr hroomLane

end

end

end

theorem excludes_exclude (hexcludes : exclusion.Excludes laneConfig ledgerVersion excluded)
    (hconfig : queue.laneConfig = laneConfig) (other : QueuedTransaction) :
    EvictionExclusion.Excludes
      { hashes := insert other.hash exclusion.hashes
        laneResourceDiscount := Function.update exclusion.laneResourceDiscount
          (queue.getLane other.envelope)
          (exclusion.laneResourceDiscount (queue.getLane other.envelope) +
            queue.txResources other.envelope ledgerVersion) }
      laneConfig ledgerVersion (excluded ++ [other]) := by
  subst hconfig
  refine ⟨fun hash => ?_, fun lane => ?_⟩
  · rw [Finset.mem_insert, hexcludes.hashes]
    simp [or_comm]
  · rw [laneWeight_append, laneWeight_cons, laneWeight_nil, add_zero]
    by_cases hlane : queue.laneConfig.getLane other.envelope = lane
    · subst hlane
      rw [if_pos rfl, ← hexcludes.discount]
      exact Function.update_self _ _ _
    · rw [if_neg hlane, add_zero, ← hexcludes.discount]
      exact Function.update_of_ne (Ne.symm hlane) _ _

/-- The exclusion of a fit check leaves out the replaced transaction and what is
pending. -/
theorem excludes_buildEvictionExclusion (hconfig : queue.laneConfig = laneConfig)
    {byHash pending : List QueuedTransaction} (hdistinct : DistinctHashes byHash)
    (hpending : pending ⊆ byHash) (replacedTx : Option QueuedTransaction)
    (hnodup : DistinctHashes (replacedTx.toList ++ pending)) :
    (buildEvictionExclusion queue byHash replacedTx (pending.map (·.hash))
      ledgerVersion).Excludes laneConfig ledgerVersion (replacedTx.toList ++ pending) := by
  unfold buildEvictionExclusion
  simp only
  have hfirst : EvictionExclusion.Excludes (replacedTx.elim (EvictionExclusion.new d) fun tx =>
      { hashes := insert tx.hash (EvictionExclusion.new d).hashes
        laneResourceDiscount := Function.update (EvictionExclusion.new d).laneResourceDiscount
          (queue.getLane tx.envelope)
          ((EvictionExclusion.new d).laneResourceDiscount (queue.getLane tx.envelope) +
            queue.txResources tx.envelope ledgerVersion) })
      laneConfig ledgerVersion replacedTx.toList := by
    have hnone : (EvictionExclusion.new d).Excludes laneConfig ledgerVersion [] :=
      ⟨fun hash => by simp [EvictionExclusion.new], fun _ => rfl⟩
    cases replacedTx with
    | none => exact hnone
    | some oldTx => exact excludes_exclude hnone hconfig oldTx
  generalize replacedTx.elim _ _ = exclusion at hfirst ⊢
  generalize replacedTx.toList = excluded at hfirst hnodup ⊢
  induction pending generalizing exclusion excluded with
  | nil => rwa [append_nil]
  | cons head rest ih =>
    obtain ⟨hhead, hrest⟩ := cons_subset.mp hpending
    have hfresh : head.hash ∉ exclusion.hashes := by
      rw [hfirst.hashes]
      intro hmem
      rw [DistinctHashes, map_append] at hnodup
      exact (nodup_append.mp hnodup).2.2 _ hmem _ mem_cons_self rfl
    have hfind : (byHash.find? fun tx => tx.hash = head.hash) = some head := by
      cases hfound : byHash.find? fun tx => tx.hash = head.hash with
      | none => exact absurd (by simp) (find?_eq_none.mp hfound head hhead)
      | some found =>
        have hhash := find?_some hfound
        rw [hdistinct.eq_of_hash (mem_of_find?_eq_some hfound) hhead (by simpa using hhash)]
    rw [map_cons, foldl_cons, if_neg hfresh, hfind, append_cons]
    rw [append_cons] at hnodup
    exact ih hrest _ _ (excludes_exclude hfirst hconfig head) hnodup

end SurgePricingPriorityQueue

end Henyey.TxQueue
