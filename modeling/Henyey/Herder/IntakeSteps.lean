import Henyey.Herder.Delivery
import Henyey.Herder.Trackers

/-!
# What one critical section does to a parked envelope

Fetching only adds to trackers. Checking an envelope that misses nothing moves it to the
ready ones, discarding takes it out of fetching and of the trackers, and erasing a slot
takes all of it.
-/

namespace Henyey.Herder

open Scp List

namespace FetchingEnvelopes

variable {N V H : Type} [DecidableEq N] [LinearOrder V] [DecidableEq H] {codec : Codec N V H}
  {s s' s'' : FetchingEnvelopes N V H} {envelope : ScpEnvelope N V H}
  {seen : List (ScpEnvelope N V H)}

/-! ### Places -/

section

variable (hslots : ∀ slot, s'.slotState slot = s.slotState slot)
include hslots

omit [DecidableEq N] [LinearOrder V] in
theorem parked_congr : s'.Parked codec envelope ↔ s.Parked codec envelope := by
  unfold Parked
  rw [hslots]

omit [DecidableEq N] [LinearOrder V] [DecidableEq H] in
theorem delivered_congr : s'.Delivered codec envelope ↔ s.Delivered codec envelope := by
  unfold Delivered
  rw [hslots]

end

omit [DecidableEq N] [LinearOrder V] [DecidableEq H] in
theorem slotState_of_slots (hslots : s'.slots = s.slots) (slot : Nat) :
    s'.slotState slot = s.slotState slot := by
  unfold slotState
  rw [hslots]

/-- Entries stand in the slot and under the hash of their envelopes, which were seen. -/
def Filed (codec : Codec N V H) (seen : List (ScpEnvelope N V H))
    (s : FetchingEnvelopes N V H) : Prop :=
  ∀ slot hash entry, (s.slotState slot).fetching.lookup hash = some entry →
    entry.envelope.statement.slotIndex = slot ∧
      computeEnvelopeHash codec entry.envelope = hash ∧ entry.envelope ∈ seen

section

variable (hfiled : s.Filed codec seen)
include hfiled

section

omit [DecidableEq N] [LinearOrder V]

theorem Filed.mono {seen' : List (ScpEnvelope N V H)}
    (hsubset : seen ⊆ seen') : s.Filed codec seen' := by
  intro slot hash entry hlookup
  obtain ⟨hslot, hhash, hseen⟩ := hfiled slot hash entry hlookup
  exact ⟨hslot, hhash, hsubset hseen⟩

theorem Filed.seen_of_parked (hparked : s.Parked codec envelope) : envelope ∈ seen := by
  obtain ⟨entry, hlookup, rfl⟩ := hparked
  exact (hfiled _ _ entry hlookup).2.2

theorem Filed.parked_of_lookup (hfree : codec.CollisionFree seen) (hseen : envelope ∈ seen)
    {entry : FetchingEntry N V H}
    (hlookup : (s.slotState envelope.statement.slotIndex).fetching.lookup
      (computeEnvelopeHash codec envelope) = some entry) : s.Parked codec envelope := by
  obtain ⟨-, hhash, hentry⟩ := hfiled _ _ entry hlookup
  exact ⟨entry, hlookup, hfree envelope hseen entry.envelope hentry hhash⟩

theorem Filed.of_slots
    (hslots : ∀ slot, s'.slotState slot = s.slotState slot) : s'.Filed codec seen := by
  intro slot hash entry hlookup
  rw [hslots] at hlookup
  exact hfiled slot hash entry hlookup

theorem Filed.of_lookup
    (hlookup : ∀ slot hash entry, (s'.slotState slot).fetching.lookup hash = some entry →
      (s.slotState slot).fetching.lookup hash = some entry) : s'.Filed codec seen :=
  fun slot hash entry hfound => hfiled slot hash entry (hlookup slot hash entry hfound)

end

end

/-! ### Fetching -/

/-- Only the trackers have changed, and they list no less. -/
structure Grown (codec : Codec N V H) (seen : List (ScpEnvelope N V H))
    (s s' : FetchingEnvelopes N V H) : Prop where
  slots : s'.slots = s.slots
  hasTxSet : s'.hasTxSet = s.hasTxSet
  quorumSetCache : s'.quorumSetCache = s.quorumSetCache
  lists : ∀ dependency envelope, s.Lists codec dependency envelope →
    s'.Lists codec dependency envelope
  txConsistent : s.txSetFetcher.Consistent codec seen → s'.txSetFetcher.Consistent codec seen
  quorumSetConsistent : s.quorumSetFetcher.Consistent codec seen →
    s'.quorumSetFetcher.Consistent codec seen

section

omit [DecidableEq N] [LinearOrder V]

theorem Grown.refl : Grown codec seen s s :=
  ⟨rfl, rfl, rfl, fun _ _ h => h, fun h => h, fun h => h⟩

theorem Grown.trans (hfirst : Grown codec seen s s') (hsecond : Grown codec seen s' s'') :
    Grown codec seen s s'' where
  slots := hsecond.slots.trans hfirst.slots
  hasTxSet := hsecond.hasTxSet.trans hfirst.hasTxSet
  quorumSetCache := hsecond.quorumSetCache.trans hfirst.quorumSetCache
  lists dependency envelope hlists := hsecond.lists _ _ (hfirst.lists _ _ hlists)
  txConsistent h := hsecond.txConsistent (hfirst.txConsistent h)
  quorumSetConsistent h := hsecond.quorumSetConsistent (hfirst.quorumSetConsistent h)

theorem Grown.available (hgrown : Grown codec seen s s') (slot : Nat) (dependency : Dependency H) :
    s'.Available slot dependency ↔ s.Available slot dependency := by
  cases dependency with
  | txSet hash => simp [Available, hgrown.hasTxSet]
  | quorumSet hash => simp [Available, hgrown.quorumSetCache]

theorem grown_fetchTxSet (hash : H) (hseen : envelope ∈ seen) :
    Grown codec seen s { s with
      txSetFetcher := (s.txSetFetcher.fetch codec hash envelope).1 } where
  slots := rfl
  hasTxSet := rfl
  quorumSetCache := rfl
  lists dependency other hlists := by
    cases dependency with
    | txSet asked => exact ItemFetcher.Lists.fetch hlists
    | quorumSet asked => exact hlists
  txConsistent hconsistent := hconsistent.fetch hseen
  quorumSetConsistent h := h

theorem grown_fetchQuorumSet (hash : H) (hseen : envelope ∈ seen) :
    Grown codec seen s { s with
      quorumSetFetcher := (s.quorumSetFetcher.fetch codec hash envelope).1 } where
  slots := rfl
  hasTxSet := rfl
  quorumSetCache := rfl
  lists dependency other hlists := by
    cases dependency with
    | txSet asked => exact hlists
    | quorumSet asked => exact ItemFetcher.Lists.fetch hlists
  txConsistent h := h
  quorumSetConsistent hconsistent := hconsistent.fetch hseen

end

variable (codec envelope) in
/-- One round of `fetchTxSets`. -/
def fetchTxSet (result : FetchingEnvelopes N V H × Bool) (hash : H) :
    FetchingEnvelopes N V H × Bool :=
  if result.1.hasTxSet hash envelope.statement.slotIndex then result
  else
    let (txSetFetcher, tracked) := result.1.txSetFetcher.fetch codec hash envelope
    ({ result.1 with txSetFetcher }, result.2 || tracked)

omit [DecidableEq N] in
theorem fetchTxSets_eq_foldl :
    s.fetchTxSets codec envelope =
      (extractTxSetHashes codec envelope).foldl (fetchTxSet codec envelope) (s, false) :=
  rfl

variable (codec) in
theorem foldl_fetchTxSet_grown (hseen : envelope ∈ seen) (hashes : List H)
    (result : FetchingEnvelopes N V H × Bool) :
    Grown codec seen result.1 (hashes.foldl (fetchTxSet codec envelope) result).1 ∧
      (result.2 = true → (hashes.foldl (fetchTxSet codec envelope) result).2 = true) := by
  induction hashes generalizing result with
  | nil => exact ⟨Grown.refl, fun h => h⟩
  | cons hash rest ih =>
    rw [foldl_cons]
    obtain ⟨hgrown, htracked⟩ := ih (fetchTxSet codec envelope result hash)
    have hround : Grown codec seen result.1 (fetchTxSet codec envelope result hash).1 ∧
        (result.2 = true → (fetchTxSet codec envelope result hash).2 = true) := by
      unfold fetchTxSet
      split
      · exact ⟨Grown.refl, fun h => h⟩
      · exact ⟨grown_fetchTxSet hash hseen, fun h => by simp [h]⟩
    exact ⟨hround.1.trans hgrown, fun h => htracked (hround.2 h)⟩

/-- When the fetch of a missing transaction set is accepted, some missing one lists the
envelope. -/
theorem foldl_fetchTxSet_lists (result : FetchingEnvelopes N V H × Bool)
    (hfree : codec.CollisionFree seen) (hseen : envelope ∈ seen) {hashes : List H}
    (hconsistent : result.1.txSetFetcher.Consistent codec seen)
    (haccepts : ∃ hash ∈ hashes, result.1.hasTxSet hash envelope.statement.slotIndex = false ∧
      result.1.txSetFetcher.Accepts hash) :
    (hashes.foldl (fetchTxSet codec envelope) result).2 = true ∧
      ∃ hash ∈ hashes, result.1.hasTxSet hash envelope.statement.slotIndex = false ∧
        (hashes.foldl (fetchTxSet codec envelope) result).1.txSetFetcher.Lists codec hash
          envelope := by
  induction hashes generalizing result with
  | nil => obtain ⟨hash, hmem, -⟩ := haccepts; cases hmem
  | cons first rest ih =>
    rw [foldl_cons]
    by_cases hfirst : result.1.hasTxSet first envelope.statement.slotIndex = false ∧
        result.1.txSetFetcher.Accepts first
    · obtain ⟨havailable, hfirst⟩ := hfirst
      obtain ⟨hfetched, hlisted⟩ := ItemFetcher.lists_of_fetch hconsistent hfree hseen hfirst
      obtain ⟨hgrown, htracked⟩ := foldl_fetchTxSet_grown codec hseen rest
        (fetchTxSet codec envelope result first)
      have hround : fetchTxSet codec envelope result first =
          ({ result.1 with
            txSetFetcher := (result.1.txSetFetcher.fetch codec first envelope).1 }, true) := by
        simp [fetchTxSet, havailable, hfetched]
      rw [hround] at hgrown htracked ⊢
      refine ⟨htracked rfl, first, mem_cons_self, havailable, ?_⟩
      exact hgrown.lists (.txSet first) envelope hlisted
    · have hskip : fetchTxSet codec envelope result first = result := by
        cases havailable : result.1.hasTxSet first envelope.statement.slotIndex with
        | true => simp [fetchTxSet, havailable]
        | false =>
          have hrefused := fun haccept => hfirst ⟨havailable, haccept⟩
          simp [fetchTxSet, havailable, ItemFetcher.fetch_of_not_accepts hrefused]
      obtain ⟨hash, hmem, haccept⟩ := haccepts
      have hrest : hash ∈ rest := by
        rcases mem_cons.mp hmem with rfl | hrest
        · exact absurd haccept hfirst
        · exact hrest
      rw [hskip]
      obtain ⟨htracked, other, hother, hlists⟩ := ih result hconsistent ⟨hash, hrest, haccept⟩
      exact ⟨htracked, other, mem_cons_of_mem _ hother, hlists⟩

omit [DecidableEq N] [LinearOrder V] in
theorem foldl_fetchTxSet_refused {hashes : List H} {result : FetchingEnvelopes N V H × Bool}
    (hrefused : ∀ hash ∈ hashes, result.1.hasTxSet hash envelope.statement.slotIndex = false →
      ¬result.1.txSetFetcher.Accepts hash) :
    hashes.foldl (fetchTxSet codec envelope) result = result := by
  induction hashes with
  | nil => rfl
  | cons first rest ih =>
    have hskip : fetchTxSet codec envelope result first = result := by
      unfold fetchTxSet
      split
      · rfl
      next hmissing =>
        have hfirst := hrefused first mem_cons_self (Bool.eq_false_iff.mpr hmissing)
        simp [ItemFetcher.fetch_of_not_accepts hfirst]
    rw [foldl_cons, hskip]
    exact ih fun hash hhash => hrefused hash (mem_cons_of_mem _ hhash)

variable (s envelope) in
/-- A fetch that is asked for and accepted: of a missing transaction set, or of the quorum
set, whether or not it is still missing. -/
def Tracks (codec : Codec N V H) (needTxSet needQuorumSet : Bool) : Prop :=
  needTxSet = true ∧ (∃ hash ∈ extractTxSetHashes codec envelope,
      s.hasTxSet hash envelope.statement.slotIndex = false ∧ s.txSetFetcher.Accepts hash) ∨
    needQuorumSet = true ∧ ∃ hash, extractQuorumSetHash envelope = some hash ∧
      s.quorumSetFetcher.Accepts hash

theorem startFetch_grown (hseen : envelope ∈ seen) (needTxSet needQuorumSet : Bool) :
    Grown codec seen s (s.startFetch codec envelope needTxSet needQuorumSet).1 := by
  have htx : Grown codec seen s (s.fetchTxSets codec envelope).1 :=
    (foldl_fetchTxSet_grown codec hseen _ (s, false)).1
  have hquorumSet : ∀ start : FetchingEnvelopes N V H,
      Grown codec seen start (start.fetchQuorumSet codec envelope).1 := by
    intro start
    unfold fetchQuorumSet
    split
    · exact grown_fetchQuorumSet _ hseen
    · exact Grown.refl
  unfold startFetch
  cases needTxSet <;> cases needQuorumSet
  · exact Grown.refl
  · exact hquorumSet s
  · exact htx
  · exact htx.trans (hquorumSet _)

omit [DecidableEq N] [LinearOrder V] in
theorem foldl_fetchTxSet_quorumSetFetcher (hashes : List H)
    (result : FetchingEnvelopes N V H × Bool) :
    (hashes.foldl (fetchTxSet codec envelope) result).1.quorumSetFetcher =
      result.1.quorumSetFetcher := by
  induction hashes generalizing result with
  | nil => rfl
  | cons hash rest ih =>
    rw [foldl_cons, ih]
    unfold fetchTxSet
    split <;> rfl

section

variable (hfree : codec.CollisionFree seen) (hseen : envelope ∈ seen)
include hfree hseen

theorem fetchTxSets_tracked (hconsistent : s.txSetFetcher.Consistent codec seen) :
    (s.fetchTxSets codec envelope).2 = true ↔
      ∃ hash ∈ extractTxSetHashes codec envelope,
        s.hasTxSet hash envelope.statement.slotIndex = false ∧ s.txSetFetcher.Accepts hash := by
  rw [fetchTxSets_eq_foldl]
  constructor
  · intro htracked
    by_contra hnone
    rw [foldl_fetchTxSet_refused fun hash hhash hmissing haccepts =>
      hnone ⟨hash, hhash, hmissing, haccepts⟩] at htracked
    cases htracked
  · exact fun haccepts => (foldl_fetchTxSet_lists (s, false) hfree hseen hconsistent haccepts).1

omit [DecidableEq N] [LinearOrder V] in
theorem fetchQuorumSet_tracked (hconsistent : s.quorumSetFetcher.Consistent codec seen) :
    (s.fetchQuorumSet codec envelope).2 = true ↔
      ∃ hash, extractQuorumSetHash envelope = some hash ∧ s.quorumSetFetcher.Accepts hash := by
  unfold fetchQuorumSet
  cases hhash : extractQuorumSetHash envelope with
  | none => simp
  | some hash =>
    dsimp only
    by_cases haccepts : s.quorumSetFetcher.Accepts hash
    · simp [(ItemFetcher.lists_of_fetch hconsistent hfree hseen haccepts).1, haccepts]
    · simp [ItemFetcher.fetch_of_not_accepts haccepts, haccepts]

theorem startFetch_tracked (htx : s.txSetFetcher.Consistent codec seen)
    (hquorumSet : s.quorumSetFetcher.Consistent codec seen) (needTxSet needQuorumSet : Bool) :
    (s.startFetch codec envelope needTxSet needQuorumSet).2 = true ↔
      s.Tracks envelope codec needTxSet needQuorumSet := by
  have hfetcher : (s.fetchTxSets codec envelope).1.quorumSetFetcher = s.quorumSetFetcher :=
    foldl_fetchTxSet_quorumSetFetcher _ (s, false)
  have htxIff := fetchTxSets_tracked hfree hseen htx
  have hquorumSetIff := fetchQuorumSet_tracked hfree hseen hquorumSet
  have hafterIff := fetchQuorumSet_tracked (s := (s.fetchTxSets codec envelope).1) hfree hseen
    (by rw [hfetcher]; exact hquorumSet)
  rw [hfetcher] at hafterIff
  unfold startFetch Tracks
  cases needTxSet <;> cases needQuorumSet
  · simp
  · simpa using hquorumSetIff
  · simpa using htxIff
  · simp [htxIff, hafterIff]

end

variable {dependency : Dependency H}

/-- A missing dependency whose fetch is asked for and accepted lists the envelope, or
another one does. -/
theorem startFetch_lists (hfree : codec.CollisionFree seen) (hseen : envelope ∈ seen)
    (htx : s.txSetFetcher.Consistent codec seen)
    (hquorumSet : s.quorumSetFetcher.Consistent codec seen) {needTxSet needQuorumSet : Bool}
    (hdependency : dependency ∈ dependencies codec envelope)
    (hmissing : ¬s.Available envelope.statement.slotIndex dependency)
    (hasked : match dependency with
      | .txSet _ => needTxSet = true
      | .quorumSet _ => needQuorumSet = true)
    (haccepts : s.Accepts dependency) :
    ∃ dependency ∈ dependencies codec envelope,
      ¬s.Available envelope.statement.slotIndex dependency ∧
        (s.startFetch codec envelope needTxSet needQuorumSet).1.Lists codec dependency
          envelope := by
  have hfetcher : (s.fetchTxSets codec envelope).1.quorumSetFetcher = s.quorumSetFetcher :=
    foldl_fetchTxSet_quorumSetFetcher _ (s, false)
  cases dependency with
  | txSet hash =>
    obtain rfl : needTxSet = true := hasked
    have hhash : hash ∈ extractTxSetHashes codec envelope := by
      simpa [dependencies] using hdependency
    obtain ⟨-, other, hother, hotherMissing, hlists⟩ :=
      foldl_fetchTxSet_lists (s, false) hfree hseen htx
        ⟨hash, hhash, by simpa [Available] using hmissing, haccepts⟩
    dsimp only at hotherMissing
    refine ⟨.txSet other, by simp [dependencies, hother], by simp [Available, hotherMissing], ?_⟩
    unfold startFetch
    cases needQuorumSet with
    | false => exact hlists
    | true =>
      change ((s.fetchTxSets codec envelope).1.fetchQuorumSet codec envelope).1.Lists codec _ _
      unfold fetchQuorumSet
      split
      · exact hlists
      · exact hlists
  | quorumSet hash =>
    obtain rfl : needQuorumSet = true := hasked
    have hhash : extractQuorumSetHash envelope = some hash := by
      simpa [dependencies] using hdependency
    have hlisted : ∀ start : FetchingEnvelopes N V H,
        start.quorumSetFetcher = s.quorumSetFetcher →
          (start.fetchQuorumSet codec envelope).1.Lists codec (.quorumSet hash) envelope := by
      intro start hstart
      unfold fetchQuorumSet
      rw [hhash]
      change ItemFetcher.Lists codec (start.quorumSetFetcher.fetch codec hash envelope).1 hash
        envelope
      rw [hstart]
      exact (ItemFetcher.lists_of_fetch hquorumSet hfree hseen haccepts).2
    refine ⟨.quorumSet hash, hdependency, hmissing, ?_⟩
    unfold startFetch
    cases needTxSet with
    | false => exact hlisted s rfl
    | true => exact hlisted _ hfetcher

/-! ### Leaving fetching -/

/-- Some envelopes have left fetching, and nothing else is lost. -/
structure Released (codec : Codec N V H) (seen : List (ScpEnvelope N V H))
    (gone : ScpEnvelope N V H → Prop) (s s' : FetchingEnvelopes N V H) : Prop where
  lookup : ∀ slot hash entry, (s'.slotState slot).fetching.lookup hash = some entry →
    (s.slotState slot).fetching.lookup hash = some entry
  parked : ∀ envelope ∈ seen, s.Parked codec envelope → ¬gone envelope → s'.Parked codec envelope
  not_parked : ∀ envelope, s'.Parked codec envelope → ¬gone envelope
  delivered : ∀ envelope, s.Delivered codec envelope → s'.Delivered codec envelope

section

omit [DecidableEq N] [LinearOrder V]

theorem Released.parked_of (hreleased : Released codec seen gone s s')
    (hparked : s'.Parked codec envelope) : s.Parked codec envelope := by
  obtain ⟨entry, hlookup, hentry⟩ := hparked
  exact ⟨entry, hreleased.lookup _ _ entry hlookup, hentry⟩

theorem released_of_erase (hfree : codec.CollisionFree seen) (hseen : envelope ∈ seen)
    (hself : (s'.slotState envelope.statement.slotIndex).fetching =
      (s.slotState envelope.statement.slotIndex).fetching.erase
        (computeEnvelopeHash codec envelope))
    (hothers : ∀ slot ≠ envelope.statement.slotIndex,
      (s'.slotState slot).fetching = (s.slotState slot).fetching)
    (hdelivered : ∀ other, s.Delivered codec other → s'.Delivered codec other) :
    Released codec seen (· = envelope) s s' where
  lookup slot hash entry hlookup := by
    by_cases hslot : slot = envelope.statement.slotIndex
    · subst hslot
      rw [hself] at hlookup
      by_cases hhash : hash = computeEnvelopeHash codec envelope
      · subst hhash
        rw [AList.lookup_erase] at hlookup
        cases hlookup
      · rwa [AList.lookup_erase_ne hhash] at hlookup
    · rwa [hothers slot hslot] at hlookup
  parked other hother hparked hne := by
    obtain ⟨entry, hlookup, hentry⟩ := hparked
    refine ⟨entry, ?_, hentry⟩
    by_cases hslot : other.statement.slotIndex = envelope.statement.slotIndex
    · rw [hslot] at hlookup ⊢
      rw [hself, AList.lookup_erase_ne]
      · exact hlookup
      · exact fun hhash => hne (hfree envelope hseen other hother hhash)
    · rw [hothers _ hslot]
      exact hlookup
  not_parked other hparked := by
    rintro rfl
    obtain ⟨entry, hlookup, -⟩ := hparked
    rw [hself, AList.lookup_erase] at hlookup
    cases hlookup
  delivered := hdelivered

end

variable (s) in
theorem released_dropUntracked (hfree : codec.CollisionFree seen) (hseen : envelope ∈ seen) :
    Released codec seen (· = envelope) s
      (s.dropUntracked envelope.statement.slotIndex (computeEnvelopeHash codec envelope)) := by
  unfold dropUntracked
  cases hlookup : s.slots.lookup envelope.statement.slotIndex with
  | none =>
    have hdefault : s.slotState envelope.statement.slotIndex = default := by
      rw [slotState, hlookup]
      rfl
    refine released_of_erase hfree hseen ?_ (fun _ _ => rfl) fun _ h => h
    dsimp only
    rw [hdefault]
    rfl
  | some slotState =>
    have hstate := slotState_of_lookup hlookup
    refine released_of_erase hfree hseen ?_ ?_ ?_
    · simp [slotState_setSlot, hstate]
    · intro slot hslot
      simp [slotState_setSlot, hslot]
    · intro other hdelivered
      unfold Delivered at hdelivered ⊢
      rw [slotState_setSlot]
      split
      next hslot =>
        rw [hslot, hstate] at hdelivered
        exact hdelivered
      · exact hdelivered

omit [DecidableEq N] [LinearOrder V] [DecidableEq H] in
theorem delivered_setSlot {slot : Nat} {slotState : SlotEnvelopes N V H}
    (hready : ∀ other ∈ (s.slotState slot).ready, other ∈ slotState.ready ∨
      computeEnvelopeHash codec other ∈ slotState.processed)
    (hprocessed : (s.slotState slot).processed ⊆ slotState.processed)
    (hdelivered : s.Delivered codec envelope) :
    (s.setSlot slot slotState).Delivered codec envelope := by
  unfold Delivered at hdelivered ⊢
  rw [slotState_setSlot]
  split
  next hslot =>
    rw [hslot] at hdelivered
    rcases hdelivered with hmem | hmem
    · exact hready _ hmem
    · exact Or.inr (hprocessed hmem)
  · exact hdelivered

/-! ### Checking -/

omit [DecidableEq N] in
theorem checkDependencies_eq :
    s.checkDependencies codec envelope =
      (decide (∃ hash ∈ extractTxSetHashes codec envelope,
        ¬s.Available envelope.statement.slotIndex (.txSet hash)),
      decide (∃ hash, extractQuorumSetHash envelope = some hash ∧
        ¬s.Available envelope.statement.slotIndex (.quorumSet hash))) := by
  unfold checkDependencies
  dsimp only
  congr 1
  · rw [Bool.eq_iff_iff]
    simp [Available]
  · cases hhash : extractQuorumSetHash envelope with
    | none => simp
    | some hash =>
      rw [Bool.eq_iff_iff]
      simp [Available]

theorem checkDependencies_none :
    ((!(s.checkDependencies codec envelope).1 && !(s.checkDependencies codec envelope).2) = true) ↔
      ∀ dependency ∈ dependencies codec envelope,
        s.Available envelope.statement.slotIndex dependency := by
  rw [checkDependencies_eq]
  simp only [Bool.and_eq_true, Bool.not_eq_true', decide_eq_false_iff_not, dependencies,
    mem_append, mem_map, Option.mem_toList]
  push Not
  constructor
  · rintro ⟨htxSets, hquorumSet⟩ dependency (⟨hash, hhash, rfl⟩ | ⟨hash, hhash, rfl⟩)
    · exact htxSets hash hhash
    · exact hquorumSet hash hhash
  · intro hall
    exact ⟨fun hash hhash => hall _ (Or.inl ⟨hash, hhash, rfl⟩),
      fun hash hhash => hall _ (Or.inr ⟨hash, hhash, rfl⟩)⟩

theorem asked_of_missing (hdependency : dependency ∈ dependencies codec envelope)
    (hmissing : ¬s.Available envelope.statement.slotIndex dependency) :
    match dependency with
    | .txSet _ => (s.checkDependencies codec envelope).1 = true
    | .quorumSet _ => (s.checkDependencies codec envelope).2 = true := by
  rw [checkDependencies_eq]
  simp only [dependencies, mem_append, mem_map, Option.mem_toList] at hdependency
  rcases hdependency with ⟨hash, hhash, rfl⟩ | ⟨hash, hhash, rfl⟩
  · simpa using ⟨hash, hhash, hmissing⟩
  · simpa using ⟨hash, hhash, hmissing⟩

theorem released_checkAndMoveToReady (hfree : codec.CollisionFree seen) (hseen : envelope ∈ seen)
    (hfiled : s.Filed codec seen) (hall : ∀ dependency ∈ dependencies codec envelope,
      s.Available envelope.statement.slotIndex dependency) :
    Released codec seen (· = envelope) s (s.checkAndMoveToReady codec envelope) ∧
      (s.Parked codec envelope → (s.checkAndMoveToReady codec envelope).Delivered codec envelope) := by
  unfold checkAndMoveToReady
  dsimp only
  rw [if_pos (checkDependencies_none.mpr hall)]
  have hunparked : ∀ hparked : ¬s.Parked codec envelope,
      Released codec seen (· = envelope) s s := by
    intro hparked
    refine ⟨fun _ _ _ h => h, fun _ _ h _ => h, ?_, fun _ h => h⟩
    rintro other hother rfl
    exact hparked hother
  split
  next slotState hslot =>
    have hstate := slotState_of_lookup hslot
    split
    next entry hentry =>
      have hparked : s.Parked codec envelope := by
        apply hfiled.parked_of_lookup hfree hseen
        rw [hstate]
        exact hentry
      have hslots : ∀ receivedAt, ((s.setSlot envelope.statement.slotIndex { slotState with
            fetching := slotState.fetching.erase (computeEnvelopeHash codec envelope)
            ready := slotState.ready ++ [envelope] }).broadcastEnvelope envelope receivedAt
              .deferred).slots = (s.setSlot envelope.statement.slotIndex { slotState with
            fetching := slotState.fetching.erase (computeEnvelopeHash codec envelope)
            ready := slotState.ready ++ [envelope] }).slots := by
        intro receivedAt
        unfold broadcastEnvelope
        split <;> rfl
      have hsame := slotState_of_slots (hslots entry.receivedAt)
      constructor
      · refine released_of_erase hfree hseen ?_ ?_ ?_
        · rw [hsame, slotState_setSlot, if_pos rfl, hstate]
        · intro slot hne
          rw [hsame, slotState_setSlot, if_neg hne]
        · intro other hdelivered
          rw [delivered_congr hsame]
          refine delivered_setSlot ?_ ?_ hdelivered
          · rw [hstate]
            exact fun ready hready => Or.inl (mem_append_left _ hready)
          · rw [hstate]
      · intro _
        rw [delivered_congr hsame]
        left
        rw [slotState_setSlot, if_pos rfl]
        exact mem_append_right _ mem_cons_self
    next hentry =>
      have hparked : ¬s.Parked codec envelope := by
        rintro ⟨entry, hlookup, -⟩
        rw [hstate, hentry] at hlookup
        cases hlookup
      exact ⟨hunparked hparked, fun h => absurd h hparked⟩
  next hslot =>
    have hparked : ¬s.Parked codec envelope := by
      rintro ⟨entry, hlookup, -⟩
      have hdefault : s.slotState envelope.statement.slotIndex = default := by
        simp [slotState, hslot]
      rw [hdefault] at hlookup
      cases hlookup
    exact ⟨hunparked hparked, fun h => absurd h hparked⟩

theorem checkAndMoveToReady_fetchers (hall : ∀ dependency ∈ dependencies codec envelope,
      s.Available envelope.statement.slotIndex dependency) :
    (s.checkAndMoveToReady codec envelope).txSetFetcher = s.txSetFetcher ∧
      (s.checkAndMoveToReady codec envelope).quorumSetFetcher = s.quorumSetFetcher ∧
      (s.checkAndMoveToReady codec envelope).hasTxSet = s.hasTxSet ∧
      (s.checkAndMoveToReady codec envelope).quorumSetCache = s.quorumSetCache := by
  unfold checkAndMoveToReady
  dsimp only
  rw [if_pos (checkDependencies_none.mpr hall)]
  split
  · split
    · unfold broadcastEnvelope
      split <;> exact ⟨rfl, rfl, rfl, rfl⟩
    · exact ⟨rfl, rfl, rfl, rfl⟩
  · exact ⟨rfl, rfl, rfl, rfl⟩

theorem checkAndMoveToReady_of_missing (hmissing : ¬∀ dependency ∈ dependencies codec envelope,
      s.Available envelope.statement.slotIndex dependency) :
    s.checkAndMoveToReady codec envelope =
      (s.startFetch codec envelope (s.checkDependencies codec envelope).1
        (s.checkDependencies codec envelope).2).1 := by
  unfold checkAndMoveToReady
  dsimp only
  rw [if_neg fun h => hmissing (checkDependencies_none.mp h)]

/-! ### Discarding -/

/-- Some envelopes were discarded; the trackers of the others list them as before. -/
structure Discarded (codec : Codec N V H) (seen removed : List (ScpEnvelope N V H))
    (s s' : FetchingEnvelopes N V H) : Prop where
  lookup : ∀ slot hash entry, (s'.slotState slot).fetching.lookup hash = some entry →
    (s.slotState slot).fetching.lookup hash = some entry
  parked : ∀ envelope ∈ seen, s.Parked codec envelope → envelope ∉ removed →
    s'.Parked codec envelope
  delivered : ∀ envelope, s.Delivered codec envelope → s'.Delivered codec envelope
  available : ∀ slot dependency, s'.Available slot dependency ↔ s.Available slot dependency
  lists : ∀ envelope ∈ seen, s'.Parked codec envelope → ∀ dependency,
    s.Lists codec dependency envelope → s'.Lists codec dependency envelope
  txConsistent : s.txSetFetcher.Consistent codec seen → s'.txSetFetcher.Consistent codec seen
  quorumSetConsistent : s.quorumSetFetcher.Consistent codec seen →
    s'.quorumSetFetcher.Consistent codec seen

omit [DecidableEq N] [LinearOrder V] in
theorem Discarded.parked_of {removed : List (ScpEnvelope N V H)}
    (hdiscarded : Discarded codec seen removed s s') (hparked : s'.Parked codec envelope) :
    s.Parked codec envelope := by
  obtain ⟨entry, hlookup, hentry⟩ := hparked
  exact ⟨entry, hdiscarded.lookup _ _ entry hlookup, hentry⟩

theorem Discarded.trans {first second : List (ScpEnvelope N V H)}
    (hfirst : Discarded codec seen first s s') (hsecond : Discarded codec seen second s' s'') :
    Discarded codec seen (first ++ second) s s'' where
  lookup slot hash entry hlookup :=
    hfirst.lookup slot hash entry (hsecond.lookup slot hash entry hlookup)
  parked envelope hseen hparked hkept := by
    rw [mem_append, not_or] at hkept
    exact hsecond.parked envelope hseen (hfirst.parked envelope hseen hparked hkept.1) hkept.2
  delivered envelope hdelivered := hsecond.delivered envelope (hfirst.delivered envelope hdelivered)
  available slot dependency :=
    (hsecond.available slot dependency).trans (hfirst.available slot dependency)
  lists envelope hseen hparked dependency hlists :=
    hsecond.lists envelope hseen hparked dependency
      (hfirst.lists envelope hseen (hsecond.parked_of hparked) dependency hlists)
  txConsistent h := hsecond.txConsistent (hfirst.txConsistent h)
  quorumSetConsistent h := hsecond.quorumSetConsistent (hfirst.quorumSetConsistent h)

section

omit [DecidableEq N] [LinearOrder V]

theorem foldl_stopFetch_consistent {fetcher : ItemFetcher N V H} (hashes : List H)
    (hconsistent : fetcher.Consistent codec seen) :
    (hashes.foldl (fun fetcher hash => fetcher.stopFetch codec hash envelope) fetcher).Consistent
      codec seen := by
  induction hashes generalizing fetcher with
  | nil => exact hconsistent
  | cons hash rest ih => exact ih hconsistent.stopFetch

theorem foldl_stopFetch_lists {fetcher : ItemFetcher N V H} {itemHash : H}
    {listed : ScpEnvelope N V H} (hne : codec.hashXdr listed ≠ codec.hashXdr envelope)
    (hashes : List H) (hlists : fetcher.Lists codec itemHash listed) :
    (hashes.foldl (fun fetcher hash => fetcher.stopFetch codec hash envelope) fetcher).Lists
      codec itemHash listed := by
  induction hashes generalizing fetcher with
  | nil => exact hlists
  | cons hash rest ih => exact ih (hlists.stopFetch hne)

end

theorem stopFetch_consistent :
    (s.txSetFetcher.Consistent codec seen →
      (s.stopFetch codec envelope).txSetFetcher.Consistent codec seen) ∧
    (s.quorumSetFetcher.Consistent codec seen →
      (s.stopFetch codec envelope).quorumSetFetcher.Consistent codec seen) := by
  refine ⟨foldl_stopFetch_consistent _, fun hconsistent => ?_⟩
  unfold stopFetch
  dsimp only
  split
  · exact hconsistent.stopFetch
  · exact hconsistent

theorem stopFetch_lists {listed : ScpEnvelope N V H}
    (hne : codec.hashXdr listed ≠ codec.hashXdr envelope)
    (hlists : s.Lists codec dependency listed) :
    (s.stopFetch codec envelope).Lists codec dependency listed := by
  cases dependency with
  | txSet hash => exact foldl_stopFetch_lists hne _ hlists
  | quorumSet hash =>
    change (s.stopFetch codec envelope).quorumSetFetcher.Lists codec hash listed
    unfold stopFetch
    dsimp only
    split
    · exact ItemFetcher.Lists.stopFetch hlists hne
    · exact hlists

theorem discarded_discardEnvelope (hfree : codec.CollisionFree seen) (hseen : envelope ∈ seen) :
    Discarded codec seen [envelope] s (s.discardEnvelope codec envelope) := by
  unfold discardEnvelope
  dsimp only
  split
  · have hsame : ∀ slot, (s.setSlot envelope.statement.slotIndex
        (s.slotState envelope.statement.slotIndex)).slotState slot = s.slotState slot := by
      intro slot
      rw [slotState_setSlot]
      split
      next hslot => rw [hslot]
      · rfl
    exact {
      lookup := fun slot hash entry hlookup => by rwa [hsame] at hlookup
      parked := fun other _ hparked _ => (parked_congr hsame).mpr hparked
      delivered := fun other hdelivered => (delivered_congr hsame).mpr hdelivered
      available := fun slot dependency => by cases dependency <;> rfl
      lists := fun other _ _ dependency hlists => by cases dependency <;> exact hlists
      txConsistent := fun h => h
      quorumSetConsistent := fun h => h }
  · have hreleased : Released codec seen (· = envelope) s
        (s.setSlot envelope.statement.slotIndex { s.slotState envelope.statement.slotIndex with
          discarded := insert (computeEnvelopeHash codec envelope)
            (s.slotState envelope.statement.slotIndex).discarded
          fetching := (s.slotState envelope.statement.slotIndex).fetching.erase
            (computeEnvelopeHash codec envelope) }) := by
      refine released_of_erase hfree hseen ?_ ?_ ?_
      · rw [slotState_setSlot, if_pos rfl]
      · intro slot hne
        rw [slotState_setSlot, if_neg hne]
      · intro other hdelivered
        exact delivered_setSlot (fun ready hready => Or.inl hready) (Finset.Subset.refl _)
          hdelivered
    generalize hset : s.setSlot envelope.statement.slotIndex _ = released at hreleased
    have hsame : ∀ slot, ((released.record (.discarded envelope)).stopFetch codec
        envelope).slotState slot = released.slotState slot := fun _ => rfl
    have hfetchers : released.txSetFetcher = s.txSetFetcher ∧
        released.quorumSetFetcher = s.quorumSetFetcher ∧ released.hasTxSet = s.hasTxSet ∧
        released.quorumSetCache = s.quorumSetCache := by
      rw [← hset]
      exact ⟨rfl, rfl, rfl, rfl⟩
    obtain ⟨htx, hquorumSet, hhas, hcache⟩ := hfetchers
    have hrecorded : ∀ dependency listed, s.Lists codec dependency listed →
        (released.record (.discarded envelope)).Lists codec dependency listed := by
      intro dependency listed hlists
      cases dependency with
      | txSet hash =>
        change released.txSetFetcher.Lists codec hash listed
        rw [htx]
        exact hlists
      | quorumSet hash =>
        change released.quorumSetFetcher.Lists codec hash listed
        rw [hquorumSet]
        exact hlists
    exact {
      __ := hreleased
      parked := fun other hother hparked hne =>
        hreleased.parked other hother hparked fun heq => hne (mem_singleton.mpr heq)
      available := fun slot dependency => by
        cases dependency with
        | txSet hash =>
          change released.hasTxSet hash slot = true ↔ _
          rw [hhas]
          rfl
        | quorumSet hash =>
          change released.quorumSetCache.exists hash = true ↔ _
          rw [hcache]
          rfl
      lists := fun other hother hparked dependency hlists => by
        apply stopFetch_lists _ (hrecorded dependency other hlists)
        intro hhash
        exact hreleased.not_parked other hparked (hfree envelope hseen other hother hhash)
      txConsistent := fun h => stopFetch_consistent.1 (by
        change released.txSetFetcher.Consistent codec seen
        rw [htx]
        exact h)
      quorumSetConsistent := fun h => stopFetch_consistent.2 (by
        change released.quorumSetFetcher.Consistent codec seen
        rw [hquorumSet]
        exact h) }

theorem discarded_all (hfree : codec.CollisionFree seen) (removed : List (ScpEnvelope N V H))
    (hseen : ∀ envelope ∈ removed, envelope ∈ seen) (s : FetchingEnvelopes N V H) :
    Discarded codec seen removed s
      (removed.foldl (fun s envelope => s.discardEnvelope codec envelope) s) := by
  induction removed generalizing s with
  | nil =>
    exact ⟨fun _ _ _ h => h, fun _ _ h _ => h, fun _ h => h, fun _ _ => Iff.rfl,
      fun _ _ _ _ h => h, fun h => h, fun h => h⟩
  | cons envelope rest ih =>
    exact (discarded_discardEnvelope hfree (hseen envelope mem_cons_self)).trans
      (ih (fun other hother => hseen other (mem_cons_of_mem _ hother)) _)

/-! ### Erasing -/

omit [DecidableEq N] [LinearOrder V] [DecidableEq H] in
theorem slotState_foldl_eraseSlot (slots : List Nat) (slot : Nat) :
    (slots.foldl eraseSlot s).slotState slot =
      if slot ∈ slots then default else s.slotState slot := by
  induction slots generalizing s with
  | nil => simp
  | cons first rest ih =>
    rw [foldl_cons, ih, slotState_eraseSlot]
    by_cases hrest : slot ∈ rest
    · simp [hrest]
    · by_cases hfirst : slot = first <;> simp [hrest, hfirst]

theorem slotState_retainSlots (keep : Nat → Bool) (slot : Nat) :
    (s.retainSlots keep).slotState slot = if keep slot then s.slotState slot else default := by
  unfold retainSlots
  rw [slotState_foldl_eraseSlot]
  cases hkeep : keep slot with
  | true => simp [hkeep]
  | false =>
    by_cases hmem : slot ∈ s.slots.keys
    · simp [hmem, hkeep]
    · have hnone : s.slots.lookup slot = none := by
        rw [AList.lookup_eq_none]
        exact hmem
      simp [hkeep, hmem, slotState, hnone]

theorem parked_retainSlots (keep : Nat → Bool) :
    (s.retainSlots keep).Parked codec envelope ↔
      keep envelope.statement.slotIndex = true ∧ s.Parked codec envelope := by
  unfold Parked
  rw [slotState_retainSlots]
  cases keep envelope.statement.slotIndex with
  | true => simp
  | false =>
    simp only [Bool.false_eq_true, if_false, false_and, iff_false]
    rintro ⟨entry, hlookup, -⟩
    cases hlookup

theorem delivered_retainSlots {keep : Nat → Bool} (hkeep : keep envelope.statement.slotIndex = true)
    (hdelivered : s.Delivered codec envelope) : (s.retainSlots keep).Delivered codec envelope := by
  unfold Delivered
  rw [slotState_retainSlots, if_pos hkeep]
  exact hdelivered

theorem filed_retainSlots (hfiled : s.Filed codec seen) (keep : Nat → Bool) :
    (s.retainSlots keep).Filed codec seen := by
  apply hfiled.of_lookup
  intro slot hash entry hlookup
  rw [slotState_retainSlots] at hlookup
  split at hlookup
  · exact hlookup
  · cases hlookup

variable (s) in
omit [DecidableEq N] [LinearOrder V] [DecidableEq H] in
theorem retainSlots_fetchers (keep : Nat → Bool) :
    (s.retainSlots keep).txSetFetcher = s.txSetFetcher ∧
      (s.retainSlots keep).quorumSetFetcher = s.quorumSetFetcher ∧
      (s.retainSlots keep).hasTxSet = s.hasTxSet ∧
      (s.retainSlots keep).quorumSetCache = s.quorumSetCache := by
  unfold retainSlots
  apply foldlRecOn (motive := fun reached : FetchingEnvelopes N V H =>
    reached.txSetFetcher = s.txSetFetcher ∧ reached.quorumSetFetcher = s.quorumSetFetcher ∧
      reached.hasTxSet = s.hasTxSet ∧ reached.quorumSetCache = s.quorumSetCache)
  · exact ⟨rfl, rfl, rfl, rfl⟩
  · exact fun reached hreached slot _ => hreached

/-! ### Popping -/

omit [DecidableEq N] [LinearOrder V] in
theorem slotState_popFromSlot (slot other : Nat) :
    ((s.popFromSlot codec slot).1.slotState other).fetching = (s.slotState other).fetching := by
  unfold popFromSlot
  split
  next slotState hlookup =>
    split
    · change ((s.setSlot slot _).slotState other).fetching = _
      rw [slotState_setSlot]
      split
      next hother =>
        rw [hother, slotState_of_lookup hlookup]
      · rfl
    · rfl
  · rfl

theorem delivered_popFromSlot (slot : Nat) (hdelivered : s.Delivered codec envelope) :
    (s.popFromSlot codec slot).1.Delivered codec envelope := by
  unfold popFromSlot
  split
  next slotState hlookup =>
    have hstate := slotState_of_lookup hlookup
    split
    next popped hpopped =>
      refine delivered_setSlot (s := s) ?_ ?_ hdelivered
      · rw [hstate]
        intro other hother
        rcases eq_nil_or_concat slotState.ready with hnil | ⟨rest, last, hready⟩
        · rw [hnil] at hother
          cases hother
        · dsimp only
          rw [hready] at hother hpopped ⊢
          simp only [concat_eq_append, getLast?_append, getLast?_singleton,
            Option.some_or, Option.some.injEq] at hpopped
          subst hpopped
          rw [concat_eq_append] at hother ⊢
          rw [dropLast_concat]
          rcases mem_append.mp hother with hrest | hlast
          · exact Or.inl hrest
          · rw [mem_singleton.mp hlast]
            exact Or.inr (Finset.mem_insert_self _ _)
      · rw [hstate]
        exact Finset.subset_insert _ _
    · exact hdelivered
  · exact hdelivered

variable (codec s) in
omit [DecidableEq N] [LinearOrder V] in
theorem popFromSlot_fetchers (slot : Nat) :
    (s.popFromSlot codec slot).1.txSetFetcher = s.txSetFetcher ∧
      (s.popFromSlot codec slot).1.quorumSetFetcher = s.quorumSetFetcher ∧
      (s.popFromSlot codec slot).1.hasTxSet = s.hasTxSet ∧
      (s.popFromSlot codec slot).1.quorumSetCache = s.quorumSetCache := by
  unfold popFromSlot
  split
  · split <;> exact ⟨rfl, rfl, rfl, rfl⟩
  · exact ⟨rfl, rfl, rfl, rfl⟩

end FetchingEnvelopes

end Henyey.Herder
