import Henyey.TxQueue.Fits

/-!
# Cheapest first

A fit check evicts from the cheapest entry upwards. What it names makes room,
and no longer does without its last entry. Where it names nothing, no set of
cheaper entries makes room either.
-/

namespace Henyey.TxQueue

open SurgePricingLaneConfig List

theorem QueueEntry.not_lt_trans {a b c : QueueEntry} (ha : a.Rated) (hb : b.Rated) (hc : c.Rated)
    (hab : a.cmp b ≠ .lt) (hbc : b.cmp c ≠ .lt) : a.cmp c ≠ .lt := by
  rw [ne_eq, cmp_eq_lt ha hb] at hab
  rw [ne_eq, cmp_eq_lt hb hc] at hbc
  rw [ne_eq, cmp_eq_lt ha hc]
  grind

namespace SurgePricingPriorityQueue

variable {d : Nat} {queue : SurgePricingPriorityQueue d} {tx : QueuedTransaction}
  {ledgerVersion fuel : Nat} {neededTotal neededLane : Resource d} {due : Bool}
  {cursors : List (Nat × List QueueEntry)} {entry : QueueEntry}

/-! ### What is needed -/

theorem mayEvict_after {evictLane lane : Nat}
    (hevict : queue.mayEvict tx neededTotal neededLane evictLane = true) (hafter : queue.mayEvict tx
      (neededTotal.subtractNonNegative (queue.txResources entry.tx.envelope ledgerVersion))
      (queue.neededLaneAfter tx ledgerVersion neededLane evictLane entry) lane = true) :
    queue.mayEvict tx neededTotal neededLane lane = true := by
  unfold mayEvict neededLaneAfter at *
  by_cases hown : (queue.getLane tx.envelope = genericLane ||
      queue.getLane tx.envelope = evictLane : Bool) = true
  · rw [if_pos hown] at hafter
    rw [Bool.or_eq_true] at hafter ⊢
    refine hafter.imp_right fun hgreater => ?_
    obtain ⟨i, hi⟩ := of_decide_eq_true hgreater
    refine decide_eq_true ⟨i, ?_⟩
    simp only [Resource.subtractNonNegative] at hi
    omega
  · rw [Bool.or_eq_true] at hevict ⊢
    exact .inr (hevict.resolve_left hown)

theorem not_enough_nil (hpositive : (neededTotal.anyPositive || neededLane.anyPositive) = true)
    (hgeneric : queue.getLane tx.envelope = genericLane → neededLane ≤ neededTotal) :
    ¬queue.Enough tx ledgerVersion neededTotal neededLane [] := by
  rintro ⟨htotal, hlane⟩
  have hzero : neededLane ≤ 0 := by
    by_cases hown : queue.getLane tx.envelope = genericLane
    · exact (hgeneric hown).trans htotal
    · exact hlane hown
  rw [Resource.anyPositive_eq_false.mpr htotal, Resource.anyPositive_eq_false.mpr hzero]
    at hpositive
  cases hpositive

theorem neededLaneAfter_le {evictLane : Nat}
    (hgeneric : queue.getLane tx.envelope = genericLane → neededLane ≤ neededTotal)
    (hown : queue.getLane tx.envelope = genericLane) :
    queue.neededLaneAfter tx ledgerVersion neededLane evictLane entry ≤
      neededTotal.subtractNonNegative (queue.txResources entry.tx.envelope ledgerVersion) := by
  unfold neededLaneAfter
  rw [if_pos (by simp [hown])]
  exact fun i => max_le_max_right 0 (sub_le_sub_right (hgeneric hown i) _)

/-! ### No entry too many -/

theorem not_enough_of_collectEvictions (hnonneg : queue.laneConfig.NonNegative)
    {evictions : List (QueuedTransaction × Bool)} {last : QueuedTransaction × Bool}
    (hgeneric : queue.getLane tx.envelope = genericLane → neededLane ≤ neededTotal)
    (hcursors : ∀ lane entry, Ahead cursors lane entry → queue.getLane entry.tx.envelope = lane)
    (hevictions : queue.collectEvictions tx ledgerVersion fuel neededTotal neededLane cursors due =
      some (evictions ++ [last])) :
    ¬queue.Enough tx ledgerVersion neededTotal neededLane (evictions.map (·.1)) := by
  induction fuel using Nat.strong_induction_on
    generalizing neededTotal neededLane cursors due evictions with
  | _ fuel ih =>
    obtain ⟨-, hnil⟩ | ⟨rounds, hless, lane, entry, hpositive, hbest, hround⟩ :=
      collectEvictions_cases hevictions
    · simp at hnil
    · obtain ⟨-, later, heq, hlater⟩ | hlater := hround
      · cases evictions with
        | nil => exact not_enough_nil hpositive hgeneric
        | cons head rest =>
          obtain ⟨rfl, rfl⟩ := cons.inj heq
          obtain rfl := hcursors lane entry (ahead_of_bestCursor hbest)
          intro henough
          exact ih rounds hless (neededLaneAfter_le hgeneric)
            (fun _ _ hahead => hcursors _ _ (ahead_of_advance hahead)) hlater
            ((enough_cons_iff hnonneg entry).mp henough)
      · exact ih rounds hless hgeneric
          (fun _ _ hahead => hcursors _ _ (ahead_of_dropLane hahead)) hlater

/-! ### No set overlooked -/

/-- The cursors go through the lanes in order. -/
structure Arranged (queue : SurgePricingPriorityQueue d) (cursors : List (Nat × List QueueEntry)) :
    Prop where
  lanes : (cursors.map (·.1)).Nodup
  entries : (entriesAhead cursors).Nodup
  sorted : ∀ cursor ∈ cursors, cursor.2.Pairwise fun a b => a.cmp b = .lt
  rated : ∀ entry ∈ entriesAhead cursors, entry.Rated
  placed : ∀ lane entry, Ahead cursors lane entry → queue.getLane entry.tx.envelope = lane

section

variable (harranged : queue.Arranged cursors)
include harranged

theorem Arranged.shorten {shorter : List QueueEntry → List QueueEntry}
    (hshorter : ∀ entries, (shorter entries).Sublist entries) (lane : Nat) :
    queue.Arranged (shorten shorter lane cursors) where
  lanes := by
    rw [lanes_shorten]
    exact harranged.lanes
  entries := harranged.entries.sublist (entriesAhead_shorten hshorter lane cursors)
  sorted := by
    rintro _ hcursor
    obtain ⟨cursor, hbefore, rfl⟩ := mem_map.mp hcursor
    split
    · exact (harranged.sorted cursor hbefore).sublist (hshorter _)
    · exact harranged.sorted cursor hbefore
  rated other hother := harranged.rated other ((entriesAhead_shorten hshorter _ _).subset hother)
  placed _ _ hahead := harranged.placed _ _ (ahead_of_shorten hshorter hahead)

theorem Arranged.advance (lane : Nat) :
    queue.Arranged (advance lane cursors) := harranged.shorten tail_sublist lane

theorem Arranged.dropLane (lane : Nat) :
    queue.Arranged (dropLane lane cursors) := harranged.shorten nil_sublist lane

end

theorem ahead_dropLane_of_ne {lane dropped : Nat} (hahead : Ahead cursors lane entry)
    (hne : lane ≠ dropped) : Ahead (dropLane dropped cursors) lane entry := by
  obtain ⟨entries, hcursor, hentry⟩ := hahead
  exact ⟨entries, mem_map.mpr ⟨_, hcursor, if_neg hne⟩, hentry⟩

theorem not_ahead_dropLane (lane : Nat) : ¬Ahead (dropLane lane cursors) lane entry := by
  rintro ⟨entries, hcursor, hentry⟩
  obtain ⟨cursor, -, heq⟩ := mem_map.mp hcursor
  split at heq
  · cases heq
    cases hentry
  · next hne => exact hne (congrArg Prod.fst heq)

theorem length_dropLane_lt (harranged : queue.Arranged cursors) {lane : Nat}
    (hahead : Ahead cursors lane entry) :
    (entriesAhead (dropLane lane cursors)).length < (entriesAhead cursors).length := by
  have hsub : (entriesAhead (dropLane lane cursors)).Sublist _ :=
    entriesAhead_shorten nil_sublist lane cursors
  refine hsub.length_le.lt_of_ne fun heq => ?_
  have hmem := mem_entriesAhead.mpr ⟨lane, hahead⟩
  rw [← hsub.eq_of_length heq] at hmem
  obtain ⟨other, hstill⟩ := mem_entriesAhead.mp hmem
  obtain rfl := (harranged.placed _ _ (ahead_of_dropLane hstill)).symm.trans
    (harranged.placed _ _ hahead)
  exact not_ahead_dropLane _ hstill

/-- The best head comes before nothing else that is ahead. -/
theorem bestCursor_least (hsorted : ∀ cursor ∈ cursors, cursor.2.Pairwise fun a b => a.cmp b = .lt)
    (hrated : ∀ entry ∈ entriesAhead cursors, entry.Rated) {other : QueueEntry}
    (hother : other ∈ entriesAhead cursors) :
    ∃ lane best, bestCursor cursors = some (lane, best) ∧ other.cmp best ≠ .lt := by
  induction cursors generalizing other with
  | nil => cases hother
  | cons cursor rest ih =>
    obtain ⟨cursorLane, entries⟩ := cursor
    have hsortedRest := fun cursor hmem => hsorted cursor (mem_cons_of_mem _ hmem)
    have hratedRest : ∀ entry ∈ entriesAhead rest, entry.Rated :=
      fun entry hmem => hrated entry (mem_append_right entries hmem)
    cases entries with
    | nil => exact ih hsortedRest hratedRest hother
    | cons head tail =>
      have hswap {a b : QueueEntry} (hlt : a.cmp b = .lt) : b.cmp a ≠ .lt := by
        simp [← QueueEntry.cmp_swap a b, hlt]
      have hhead (entry : QueueEntry) (hentry : entry ∈ head :: tail) : entry.cmp head ≠ .lt := by
        rcases mem_cons.mp hentry with rfl | htail
        · simp
        · exact hswap (rel_of_pairwise_cons (hsorted _ mem_cons_self) htail)
      have hheadRated : head.Rated := hrated head mem_cons_self
      have hotherRated : other.Rated := hrated other hother
      unfold bestCursor
      cases hbest : bestCursor rest with
      | none =>
        rcases mem_append.mp hother with hfirst | hlater
        · exact ⟨_, _, rfl, hhead other hfirst⟩
        · obtain ⟨_, _, hsome, -⟩ := ih hsortedRest hratedRest hlater
          rw [hbest] at hsome
          cases hsome
      | some found =>
        obtain ⟨lane, best⟩ := found
        have hbestRated : best.Rated :=
          hratedRest best (mem_entriesAhead.mpr ⟨_, ahead_of_bestCursor hbest⟩)
        have hleast (hlater : other ∈ entriesAhead rest) : other.cmp best ≠ .lt := by
          obtain ⟨_, _, hsome, hle⟩ := ih hsortedRest hratedRest hlater
          rw [hbest] at hsome
          cases hsome
          exact hle
        by_cases hlt : best.cmp head = .lt
        · refine ⟨lane, best, if_pos hlt, ?_⟩
          rcases mem_append.mp hother with hfirst | hlater
          · exact QueueEntry.not_lt_trans hotherRated hheadRated hbestRated
              (hhead other hfirst) (hswap hlt)
          · exact hleast hlater
        · refine ⟨cursorLane, head, if_neg hlt, ?_⟩
          rcases mem_append.mp hother with hfirst | hlater
          · exact hhead other hfirst
          · exact QueueEntry.not_lt_trans hotherRated hbestRated hheadRated (hleast hlater) hlt

theorem enough_nil_of_no_lane {entries : List QueueEntry} (hfixed : ∀ entry ∈ entries,
      queue.mayEvict tx neededTotal neededLane (queue.getLane entry.tx.envelope) = false)
    (henough : queue.Enough tx ledgerVersion neededTotal neededLane (entries.map (·.tx))) :
    queue.Enough tx ledgerVersion neededTotal neededLane [] := by
  cases entries with
  | nil => exact henough
  | cons first rest =>
    have hfirst := hfixed first mem_cons_self
    simp only [mayEvict, Bool.or_eq_false_iff, decide_eq_false_iff_not] at hfirst hfixed
    have hle : neededTotal ≤ neededLane := fun i =>
      not_lt.mp fun hlt => of_decide_eq_false hfirst.2 ⟨i, hlt⟩
    have hweight : queue.laneConfig.laneWeight ledgerVersion ((first :: rest).map (·.tx))
        (queue.getLane tx.envelope) = 0 := by
      unfold laneWeight
      rw [filter_eq_nil_iff.mpr, map_nil, sum_nil]
      intro other hother
      obtain ⟨entry, hentry, rfl⟩ := mem_map.mp hother
      rw [decide_eq_true_eq]
      exact Ne.symm (hfixed entry hentry).1.2
    have hzero : neededLane ≤ 0 := hweight ▸ henough.2 hfirst.1.1
    exact ⟨hle.trans hzero, fun _ => hzero⟩

/-- Where the loop gives up, no set will do that takes with an entry all that
come before it. -/
theorem not_enough_of_none (hnonneg : queue.laneConfig.NonNegative)
    (harranged : queue.Arranged cursors) (hfuel : (entriesAhead cursors).length ≤ fuel)
    (hgeneric : queue.getLane tx.envelope = genericLane → neededLane ≤ neededTotal)
    {entries : List QueueEntry} (hnodup : entries.Nodup)
    (hyields : ∀ entry ∈ entries, Yields tx entry)
    (hplaced : ∀ entry ∈ entries, entry ∈ entriesAhead cursors ∨
      queue.mayEvict tx neededTotal neededLane (queue.getLane entry.tx.envelope) = false)
    (hclosed : ∀ entry ∈ entries, ∀ other ∈ entriesAhead cursors,
      queue.mayEvict tx neededTotal neededLane (queue.getLane other.tx.envelope) = true →
        entry.cmp other ≠ .lt → other ∈ entries)
    (hnone : queue.collectEvictions tx ledgerVersion fuel neededTotal neededLane cursors due =
      none) :
    ¬queue.Enough tx ledgerVersion neededTotal neededLane (entries.map (·.tx)) := by
  intro henough
  induction fuel generalizing neededTotal neededLane cursors due entries with
  | zero =>
    have hnil : entriesAhead cursors = [] := length_eq_zero_iff.mp (Nat.le_zero.mp hfuel)
    unfold collectEvictions at hnone
    split at hnone
    · next hpositive =>
      refine not_enough_nil hpositive hgeneric (enough_nil_of_no_lane (fun entry hentry => ?_) henough)
      exact (hplaced entry hentry).resolve_left (by simp [hnil])
    · cases hnone
  | succ fuel ih =>
    unfold collectEvictions at hnone
    split at hnone
    · next hpositive =>
      by_cases hmovable : ∃ entry ∈ entries,
          queue.mayEvict tx neededTotal neededLane (queue.getLane entry.tx.envelope) = true
      · obtain ⟨first, hfirst, hmay⟩ := hmovable
        have hahead := (hplaced first hfirst).resolve_right (by simp [hmay])
        obtain ⟨lane, best, hbest, hleast⟩ :=
          bestCursor_least harranged.sorted harranged.rated hahead
        have hbestAhead := ahead_of_bestCursor hbest
        obtain rfl : queue.getLane best.tx.envelope = lane := harranged.placed _ _ hbestAhead
        simp only [hbest] at hnone
        split at hnone
        · next hevict =>
          -- the cheapest entry is one of the set, so that it yields
          have hin : best ∈ entries := hclosed first hfirst best
            (mem_entriesAhead.mpr ⟨_, hbestAhead⟩) hevict hleast
          rw [if_neg (not_not.mpr (hyields best hin).cheaper),
            if_neg (hyields best hin).other_account, Option.map_eq_none_iff] at hnone
          obtain ⟨tail, hmem⟩ := mem_of_bestCursor hbest
          have hperm := perm_advance harranged.lanes hmem
          have hsplit : (entries.map (·.tx)).Perm (best.tx :: (entries.erase best).map (·.tx)) :=
            (perm_cons_erase hin).map _
          refine ih (harranged.advance _) ?_ (neededLaneAfter_le hgeneric) (hnodup.erase best)
            (fun entry hentry => hyields entry (mem_of_mem_erase hentry)) ?_ ?_ hnone
            ((enough_cons_iff hnonneg best).mp (henough.perm hsplit))
          · have hlength := hperm.length_eq
            rw [length_cons] at hlength
            omega
          · intro entry hentry
            obtain ⟨hne, hentry⟩ := hnodup.mem_erase_iff.mp hentry
            refine (hplaced entry hentry).imp (fun hthere => ?_) fun hfixed => ?_
            · exact (mem_cons.mp (hperm.mem_iff.mp hthere)).resolve_left hne
            · exact Bool.eq_false_of_not_eq_true fun hlater =>
                Bool.false_ne_true (hfixed.symm.trans (mayEvict_after hevict hlater))
          · intro entry hentry other hother hlater hle
            have hthere := hperm.mem_iff.mpr (mem_cons_of_mem _ hother)
            refine hnodup.mem_erase_iff.mpr ⟨?_, hclosed entry (mem_of_mem_erase hentry) other
              hthere (mayEvict_after hevict hlater) hle⟩
            rintro rfl
            exact (nodup_cons.mp (hperm.nodup_iff.mp harranged.entries)).1 hother
        · next hevict =>
          refine ih (harranged.dropLane _) ?_ hgeneric hnodup hyields ?_ ?_ hnone henough
          · exact Nat.le_of_lt_succ ((length_dropLane_lt harranged hbestAhead).trans_le hfuel)
          · intro entry hentry
            rcases hplaced entry hentry with hthere | hfixed
            · obtain ⟨lane, hlane⟩ := mem_entriesAhead.mp hthere
              obtain rfl := harranged.placed _ _ hlane
              by_cases hsame : queue.getLane entry.tx.envelope = queue.getLane best.tx.envelope
              · exact .inr (hsame ▸ Bool.eq_false_of_not_eq_true hevict)
              · exact .inl (mem_entriesAhead.mpr ⟨_, ahead_dropLane_of_ne hlane hsame⟩)
            · exact .inr hfixed
          · exact fun entry hentry other hother => hclosed entry hentry other
              ((entriesAhead_shorten nil_sublist _ _).subset hother)
      · refine not_enough_nil hpositive hgeneric
          (enough_nil_of_no_lane (fun entry hentry => ?_) henough)
        exact Bool.eq_false_of_not_eq_true fun hmay => hmovable ⟨entry, hentry, hmay⟩
    · cases hnone

/-! ### The fit check -/

/-- Entries that yield to the newcomer, and with each all that come before it in
a lane that may give way. -/
structure Cheapest (queue : SurgePricingPriorityQueue d) (tx : QueuedTransaction)
    (txDiscount : Option (Resource d)) (ledgerVersion : Nat) (exclusion : EvictionExclusion d)
    (entries : List QueueEntry) : Prop where
  nodup : entries.Nodup
  evictable : ∀ entry ∈ entries, entry ∈ queue.evictable exclusion (queue.getLane entry.tx.envelope)
  yields : ∀ entry ∈ entries, Yields tx entry
  closed : ∀ entry ∈ entries, ∀ lane, ∀ other ∈ queue.evictable exclusion lane,
    queue.mayEvict tx (queue.lackTotal tx txDiscount ledgerVersion exclusion)
      (queue.lackLane tx txDiscount ledgerVersion exclusion) lane = true →
    entry.cmp other ≠ .lt → other ∈ entries

variable {exclusion : EvictionExclusion d} {txDiscount : Option (Resource d)}
  {laneConfig : SurgePricingLaneConfig d} {seed : Nat} {txs excluded : List QueuedTransaction}

theorem Holds.arranged (hholds : queue.Holds laneConfig seed ledgerVersion txs)
    (hdistinct : DistinctHashes txs) : queue.Arranged (queue.cursorsOf exclusion) where
  lanes := queue.lanes_cursorsOf exclusion
  entries := List.Nodup.of_map _
    (hdistinct.of_subperm (hholds.entriesAhead_subperm exclusion)).nodup
  sorted cursor hcursor := by
    obtain ⟨lane, -, rfl⟩ := mem_map.mp hcursor
    exact (hholds.sorted lane).filter _
  rated entry hentry := by
    obtain ⟨_, hahead⟩ := mem_entriesAhead.mp hentry
    obtain ⟨held, hheld, -, rfl, -⟩ := hholds.of_ahead hahead
    exact hholds.rated held hheld
  placed := hholds.placed exclusion

/-! ### The sums -/

/-- A transaction whose weights are 32-bit numbers in every dimension. -/
def Sized (laneConfig : SurgePricingLaneConfig d) (ledgerVersion : Nat) (tx : QueuedTransaction) :
    Prop :=
  ∀ i, laneConfig.txResources tx.envelope ledgerVersion i < 2 ^ 32

/-- The bounds that its XDR type and its size put on an envelope. -/
structure Received (codec : Codec) (env : TransactionEnvelope) : Prop where
  size : envelopeTxSizeBytes codec env < 2 ^ 32
  operations : (envelopeOperations env).length ≤ 100
  resources : ∀ data ∈ envelopeSorobanData env, data.resources.instructions < 2 ^ 32 ∧
    data.resources.diskReadBytes < 2 ^ 32 ∧ data.resources.writeBytes < 2 ^ 32 ∧
    data.resources.readOnly.length + data.resources.readWrite.length +
      (data.archivedSorobanEntries.map length).getD 0 < 2 ^ 32

section

variable {codec : Codec}

theorem envelopeOperationCount_le {env : TransactionEnvelope} (hreceived : Received codec env) :
    envelopeOperationCount env ≤ 101 := by
  have hoperations := hreceived.operations
  unfold envelopeOperationCount
  dsimp only
  split <;> omega

variable (hreceived : Received codec tx.envelope)
include hreceived

theorem Sized.dex {limit : Resource d} {dexLimit : Option (Resource d)} :
    Sized (dexLimitingLaneConfig codec limit dexLimit) ledgerVersion tx := by
  intro i
  have hcount := envelopeOperationCount_le hreceived
  have hsize := hreceived.size
  simp only [dexLimitingLaneConfig, classicResourcesFromEnvelope]
  split <;> omega

theorem Sized.ops {limit : Resource 1} : Sized (opsOnlyLaneConfig limit) ledgerVersion tx := by
  intro i
  have hcount := envelopeOperationCount_le hreceived
  simp only [opsOnlyLaneConfig]
  omega

theorem Sized.soroban {limit : Resource 7} :
    Sized (sorobanGenericLaneConfig codec limit) ledgerVersion tx := by
  have hcount := envelopeOperationCount_le hreceived
  have hsize := hreceived.size
  have hdata : ∀ resources archived isRestore, resources.readOnly.length +
      resources.readWrite.length + (archived.map length).getD 0 < 2 ^ 32 →
        sorobanDiskReadEntries resources archived isRestore ledgerVersion < 2 ^ 32 := by
    intro resources archived isRestore hbound
    have hread := countP_le_length (p := fun key => !key.isSorobanKey)
      (l := resources.readOnly)
    have hwrite := countP_le_length (p := fun key => !key.isSorobanKey)
      (l := resources.readWrite)
    unfold sorobanDiskReadEntries
    split
    · omega
    · split <;> omega
  have hops : (if isFeeBumpEnvelope tx.envelope then (envelopeOperationCount tx.envelope : Int)
      else 1) < 2 ^ 32 := by
    split <;> omega
  intro i
  simp only [sorobanGenericLaneConfig, sorobanResourcesFromEnvelope]
  cases hsoroban : envelopeSorobanData tx.envelope with
  | none =>
    have hread := hdata ⟨[], [], 0, 0, 0⟩ none
      ((envelopeOperations tx.envelope).any fun op => op = .restoreFootprint) (by decide)
    fin_cases i <;> simp <;> omega
  | some data =>
    obtain ⟨hinstructions, hreadBytes, hwriteBytes, hkeys⟩ := hreceived.resources data hsoroban
    have hread := hdata data.resources data.archivedSorobanEntries
      ((envelopeOperations tx.envelope).any fun op => op = .restoreFootprint) hkeys
    fin_cases i <;> simp <;> omega

end

theorem totalWeight_le_of_sized (hsized : ∀ other ∈ txs, Sized laneConfig ledgerVersion other)
    (i : Fin d) : laneConfig.totalWeight ledgerVersion txs i ≤ txs.length * (2 ^ 32 - 1) := by
  induction txs with
  | nil => simp
  | cons head rest ih =>
    have hhead := hsized head mem_cons_self i
    have hrest := ih fun other hother => hsized other (mem_cons_of_mem _ hother)
    rw [totalWeight_cons, Pi.add_apply, length_cons, Nat.cast_succ]
    omega

theorem discounted_nonneg {weight : Resource d} (hweight : 0 ≤ weight) :
    0 ≤ weight.discounted txDiscount := by
  cases txDiscount with
  | none => exact hweight
  | some discount => exact fun i => le_max_right _ _

theorem discounted_le {weight : Resource d} (hweight : 0 ≤ weight)
    (hdiscount : ∀ discount ∈ txDiscount, 0 ≤ discount) :
    weight.discounted txDiscount ≤ weight := by
  cases txDiscount with
  | none => exact le_rfl
  | some discount =>
    exact fun i => max_le (sub_le_self _ (hdiscount discount rfl i)) (hweight i)

/-- Fewer than `2 ^ 31` entries with 32-bit weights leave room in 64 bits for one more. -/
theorem canAdd_of_sized (hnonneg : laneConfig.NonNegative)
    (hsized : ∀ other ∈ tx :: txs, Sized laneConfig ledgerVersion other)
    (hfew : txs.length < 2 ^ 31) (hdiscount : ∀ discount ∈ txDiscount, 0 ≤ discount)
    {counted : Resource d} (hzero : 0 ≤ counted) {left : List QueuedTransaction}
    (hleft : left.Sublist txs) (hcounted : counted ≤ laneConfig.totalWeight ledgerVersion left) :
    counted.canAdd ((laneConfig.txResources tx.envelope ledgerVersion).discounted txDiscount) =
      true := by
  have hweight := hnonneg tx.envelope ledgerVersion
  refine decide_eq_true fun i => ?_
  have hlow : 0 ≤ (laneConfig.txResources tx.envelope ledgerVersion).discounted txDiscount i :=
    discounted_nonneg hweight i
  have hcharge : _ ≤ laneConfig.txResources tx.envelope ledgerVersion i :=
    discounted_le hweight hdiscount i
  have hown := hsized tx mem_cons_self i
  have hothers := totalWeight_le_of_sized
    (fun other hother => hsized other (mem_cons_of_mem _ (hleft.subset hother))) i
  have hlength := hleft.length_le
  have hcount : counted i ≤ laneConfig.totalWeight ledgerVersion left i := hcounted i
  have hstart : 0 ≤ counted i := hzero i
  unfold i64Min i64Max
  omega

/-- More rounds than there are entries change nothing. -/
theorem collectEvictions_of_le (harranged : queue.Arranged cursors)
    (hfuel : (entriesAhead cursors).length ≤ fuel) :
    queue.collectEvictions tx ledgerVersion (fuel + 1) neededTotal neededLane cursors due =
      queue.collectEvictions tx ledgerVersion fuel neededTotal neededLane cursors due := by
  induction fuel generalizing neededTotal neededLane cursors due with
  | zero =>
    have hnone : bestCursor cursors = none := by
      rw [Option.eq_none_iff_forall_ne_some]
      rintro ⟨lane, entry⟩ hbest
      have hmem := mem_entriesAhead.mpr ⟨lane, ahead_of_bestCursor hbest⟩
      rw [length_eq_zero_iff.mp (Nat.le_zero.mp hfuel)] at hmem
      cases hmem
    unfold collectEvictions
    simp only [hnone]
  | succ fuel ih =>
    rw [collectEvictions, collectEvictions]
    cases hbest : bestCursor cursors with
    | none => rfl
    | some best =>
      obtain ⟨lane, entry⟩ := best
      obtain ⟨tail, hmem⟩ := mem_of_bestCursor hbest
      have hlength := (perm_advance harranged.lanes hmem).length_eq
      have hdropped := length_dropLane_lt harranged (ahead_of_bestCursor hbest)
      rw [length_cons] at hlength
      simp only
      rw [ih (harranged.advance _) (by omega), ih (harranged.dropLane lane) (by omega)]

section

variable (hholds : queue.Holds laneConfig seed ledgerVersion txs) (hnonneg : laneConfig.NonNegative)
  (hlaned : laneConfig.Laned) (hdistinct : DistinctHashes txs)
  (hexcluded : DistinctHashes excluded) (hsubset : excluded ⊆ txs)
  (hexcludes : exclusion.Excludes laneConfig ledgerVersion excluded)
include hholds hnonneg hlaned hdistinct hexcluded hsubset hexcludes

/-- A fit check names the cheapest entries that make room, no one too many, and
it names none only where no such set makes room. -/
theorem canFitWithEviction_greedy (tx : QueuedTransaction)
    (hsized : ∀ other ∈ tx :: txs, Sized laneConfig ledgerVersion other)
    (hfew : txs.length < 2 ^ 31) (hdiscount : ∀ discount ∈ txDiscount, 0 ≤ discount) :
    (∀ evictions, queue.canFitWithEviction tx txDiscount ledgerVersion exclusion = some evictions →
      (evictions.map (·.1)).Nodup ∧
        (∀ evicted ∈ evictions, evicted.1 ∈ txs ∧ evicted.1.hash ∉ exclusion.hashes ∧
          evicted.1.feeRate.cmpRate tx.feeRate = .lt ∧ evicted.1.account ≠ tx.account) ∧
        RoomWithout laneConfig ledgerVersion tx
          ((laneConfig.txResources tx.envelope ledgerVersion).discounted txDiscount)
          (withoutAll (excluded.map (·.hash)) txs) (evictions.map (·.1)) ∧
        ∀ others last, evictions = others ++ [last] →
          ¬RoomWithout laneConfig ledgerVersion tx
            ((laneConfig.txResources tx.envelope ledgerVersion).discounted txDiscount)
            (withoutAll (excluded.map (·.hash)) txs) (others.map (·.1))) ∧
      (queue.canFitWithEviction tx txDiscount ledgerVersion exclusion = none →
        ∀ entries, queue.Cheapest tx txDiscount ledgerVersion exclusion entries →
          ¬RoomWithout laneConfig ledgerVersion tx
            ((laneConfig.txResources tx.envelope ledgerVersion).discounted txDiscount)
            (withoutAll (excluded.map (·.hash)) txs) (entries.map (·.tx))) ∧
      ∀ more neededTotal neededLane due,
        queue.collectEvictions tx ledgerVersion
            (((queue.cursorsOf exclusion).map (·.2.length)).sum + more) neededTotal neededLane
            (queue.cursorsOf exclusion) due =
          queue.collectEvictions tx ledgerVersion
            ((queue.cursorsOf exclusion).map (·.2.length)).sum neededTotal neededLane
            (queue.cursorsOf exclusion) due := by
  have harranged : queue.Arranged (queue.cursorsOf exclusion) := hholds.arranged hdistinct
  have hcount : ((queue.cursorsOf exclusion).map (·.2.length)).sum =
      (entriesAhead (queue.cursorsOf exclusion)).length := by
    rw [entriesAhead, length_flatten, map_map]
    rfl
  have htotal := hholds.effectiveTotal_eq hnonneg hlaned hdistinct hexcluded hsubset hexcludes
  have hlane := hholds.effectiveLaneCount_eq hnonneg hdistinct hexcluded hsubset hexcludes
    (queue.getLane tx.envelope)
  obtain rfl := hholds.config_eq
  have hpositive (others : List QueuedTransaction) :
      0 ≤ queue.laneConfig.totalWeight ledgerVersion others :=
    totalWeight_le_of_subperm hnonneg nil_subperm
  have hle : queue.effectiveLaneCount exclusion (queue.getLane tx.envelope) ≤
      queue.effectiveTotal exclusion := by
    rw [htotal, hlane]
    exact laneWeight_le_totalWeight hnonneg _ _
  have hgeneric : queue.getLane tx.envelope = genericLane →
      queue.lackLane tx txDiscount ledgerVersion exclusion ≤
        queue.lackTotal tx txDiscount ledgerVersion exclusion := by
    intro hown i
    unfold lackLane lackTotal
    rw [hown] at hlane ⊢
    have hsum := add_le_add hle (le_refl (queue.charge tx txDiscount ledgerVersion))
    rw [hown] at hsum
    exact max_le_max_right 0 (sub_le_sub_right (hsum i) _)
  refine ⟨fun evictions hevictions => ?_, fun hnone => ?_, fun more _ _ _ => ?_⟩
  · have hsubperm := hholds.subperm_of_canFitWithEviction hevictions
    refine ⟨(hdistinct.of_subperm hsubperm).nodup, hholds.yields_of_canFitWithEviction hevictions,
      hholds.roomWithout_of_canFitWithEviction hnonneg hlaned hdistinct hexcluded hsubset
        hexcludes hevictions, ?_⟩
    rintro others last rfl hroom
    have hpart := (sublist_append_left others [last]).map (·.1)
    exact not_enough_of_collectEvictions hnonneg hgeneric (hholds.placed exclusion)
      (collectEvictions_of_canFitWithEviction hevictions)
      ((hholds.enough_iff_roomWithout hnonneg hlaned hdistinct hexcluded hsubset hexcludes
        (hdistinct.of_subperm (hpart.subperm.trans hsubperm))
        fun _ hmem => hholds.subset_of_canFitWithEviction hexcludes hevictions
          (hpart.subset hmem)).mpr hroom)
  · unfold canFitWithEviction at hnone
    simp only at hnone
    split at hnone
    · next hgreater =>
      rintro entries - ⟨hroom, hroomLane⟩
      rcases Bool.or_eq_true_iff.mp hgreater with hmore | hmore
      · obtain ⟨i, hi⟩ := of_decide_eq_true hmore
        exact hi.not_ge (((le_add_of_nonneg_right (hpositive _)).trans hroom) i)
      · obtain ⟨i, hi⟩ := of_decide_eq_true hmore
        exact hi.not_ge
          (((le_add_of_nonneg_right (laneWeight_nonneg hnonneg _ _)).trans hroomLane) i)
    · split at hnone
      · next hoverflow =>
        have hleft : (withoutAll (excluded.map (·.hash)) txs).Sublist txs := filter_sublist
        have hcan {counted : Resource d} (hzero : 0 ≤ counted)
            (hcounted : counted ≤ queue.effectiveTotal exclusion) :=
          canAdd_of_sized hnonneg hsized hfew hdiscount hzero hleft (htotal ▸ hcounted)
        simp only [txResources] at hoverflow
        rw [hcan (htotal ▸ hpositive _) le_rfl, hcan (hlane ▸ laneWeight_nonneg hnonneg _ _) hle]
          at hoverflow
        cases hoverflow
      · split at hnone
        · cases hnone
        · intro entries hcheapest hroom
          have hahead : ∀ entry ∈ entries, entry ∈ entriesAhead (queue.cursorsOf exclusion) :=
            fun entry hentry => mem_entriesAhead.mpr ⟨_, _,
              mem_map.mpr ⟨_, mem_range.mpr (hlaned _), rfl⟩,
              hcheapest.evictable entry hentry⟩
          obtain ⟨_, hperm, hsublist⟩ := subperm_of_subset hcheapest.nodup hahead
          have hsubperm := ((hperm.map (·.tx)).symm.subperm.trans (hsublist.map _).subperm).trans
            (hholds.entriesAhead_subperm exclusion)
          refine not_enough_of_none hnonneg harranged hcount.ge hgeneric hcheapest.nodup
            hcheapest.yields (fun entry hentry => .inl (hahead entry hentry)) ?_ hnone
            ((hholds.enough_iff_roomWithout hnonneg hlaned hdistinct hexcluded hsubset hexcludes
              (hdistinct.of_subperm hsubperm) ?_).mpr hroom)
          · intro entry hentry other hother
            obtain ⟨lane, hlane⟩ := mem_entriesAhead.mp hother
            obtain rfl := hholds.placed exclusion lane other hlane
            obtain ⟨_, hcursor, hmem⟩ := hlane
            obtain ⟨_, -, heq⟩ := mem_map.mp hcursor
            cases heq
            exact hcheapest.closed entry hentry _ other hmem
          · intro other hother
            obtain ⟨entry, hentry, rfl⟩ := mem_map.mp hother
            obtain ⟨_, hlane⟩ := mem_entriesAhead.mp (hahead entry hentry)
            obtain ⟨held, hheld, -, rfl, hfree⟩ := hholds.of_ahead hlane
            exact mem_withoutAll.mpr ⟨hheld, fun hhash => hfree ((hexcludes.hashes _).mpr hhash)⟩
  · induction more with
    | zero => rfl
    | succ more ih =>
      exact (collectEvictions_of_le harranged (hcount ▸ Nat.le_add_right _ more)).trans ih

end

/-! ### A queue of three payments -/

def payments (account fee count : Nat) : QueuedTransaction where
  envelope := .tx ⟨account, fee, 1, replicate count .payment, none, 0⟩
  hash := account
  receivedAt := 0
  feePerOp := fee / count
  feeRate := ⟨fee, count⟩
  totalFee := fee
  isDex := false

def threePayments : List QueuedTransaction := [payments 3 300 1, payments 2 150 1, payments 1 100 1]

/-- At most three operations fit. -/
def threeQueue : SurgePricingPriorityQueue 1 :=
  (((new (opsOnlyLaneConfig fun _ => 3) 0).add (payments 1 100 1) 22).add (payments 2 150 1) 22).add
    (payments 3 300 1) 22

theorem threeQueue_holds : threeQueue.Holds (opsOnlyLaneConfig fun _ => 3) 0 22 threePayments :=
  (((holds_new _ 0 22).add (by decide) (by decide)).add (by decide) (by decide)).add (by decide)
    (by decide)

/-- The most expensive payment is left out. -/
def withoutThird : EvictionExclusion 1 where
  hashes := {3}
  laneResourceDiscount := (opsOnlyLaneConfig fun _ => 3).laneWeight 22 [payments 3 300 1]

/-- Two operations at a high rate take the place of the cheapest payment, which has to go. Three
at a low rate find no room. Two fit in the place of a replaced one. -/
theorem canFitWithEviction_greedy_three :
    (RoomWithout (opsOnlyLaneConfig fun _ => 3) 22 (payments 4 400 2) (fun _ => 2)
        (withoutAll [3] threePayments) [payments 1 100 1] ∧
      ¬RoomWithout (opsOnlyLaneConfig fun _ => 3) 22 (payments 4 400 2) (fun _ => 2)
        (withoutAll [3] threePayments) []) ∧
      (∀ entries, threeQueue.Cheapest (payments 5 360 3) none 22 withoutThird entries →
        ¬RoomWithout (opsOnlyLaneConfig fun _ => 3) 22 (payments 5 360 3) (fun _ => 3)
          (withoutAll [3] threePayments) (entries.map (·.tx))) ∧
      RoomWithout (opsOnlyLaneConfig fun _ => 3) 22 (payments 2 500 2) (fun _ => 1)
        (withoutAll [3] threePayments) [] := by
  have hexcludes : withoutThird.Excludes (opsOnlyLaneConfig fun _ => 3) 22 [payments 3 300 1] :=
    ⟨fun hash => by simp [withoutThird, payments], fun _ => rfl⟩
  have hdistinct : DistinctHashes threePayments := by
    unfold DistinctHashes
    decide
  have hgreedy := fun tx txDiscount =>
    @canFitWithEviction_greedy 1 threeQueue 22 withoutThird txDiscount _ 0 threePayments
      [payments 3 300 1] threeQueue_holds NonNegative.ops Laned.ops hdistinct
      (nodup_singleton _) (by decide) hexcludes tx
  have hsized : ∀ tx ∈ [payments 4 400 2, payments 5 360 3, payments 2 500 2] ++ threePayments,
      Sized (opsOnlyLaneConfig fun _ => 3) 22 tx := by
    unfold Sized
    decide
  have hcheap := (hgreedy (payments 4 400 2) none (fun tx htx => hsized tx (by grind))
    (by decide) nofun).1 [(payments 1 100 1, false)] (by decide)
  have hlow := (hgreedy (payments 5 360 3) none (fun tx htx => hsized tx (by grind))
    (by decide) nofun).2.1 (by decide)
  have hdiscount : ∀ discount ∈ some (fun _ => 1 : Resource 1), 0 ≤ discount := by
    rintro discount ⟨⟩
    exact fun _ => zero_le_one
  have hreplaced := (hgreedy (payments 2 500 2) (some fun _ => 1)
    (fun tx htx => hsized tx (by grind)) (by decide) hdiscount).1 [] (by decide)
  exact ⟨⟨hcheap.2.2.1, hcheap.2.2.2 [] _ rfl⟩, hlow, hreplaced.2.2.1⟩

end SurgePricingPriorityQueue

end Henyey.TxQueue
