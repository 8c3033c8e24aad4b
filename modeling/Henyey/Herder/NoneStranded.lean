import Henyey.Herder.Stranding

/-!
# Every action keeps the parked envelopes reachable

An arrival hands the listed envelopes to the thread that checks them, an erased slot takes
its envelopes along, and a check or a registration anchors what it does not move on.
-/

namespace Henyey.Herder

open Scp List
open FetchingEnvelopes
open ItemFetcher.Lists

variable {N V H : Type} [DecidableEq N] [LinearOrder V] [DecidableEq H]

namespace Intake

variable {codec : Codec N V H} {s s' : Intake N V H} {envelope other : ScpEnvelope N V H}

/-! ### What is left of the work -/

variable {index : Nat}

theorem mem_eraseIdx_of_ne {α : Type} {items : List α} {item removed : α} (hmem : item ∈ items)
    (hat : items[index]? = some removed) (hne : item ≠ removed) : item ∈ items.eraseIdx index := by
  obtain ⟨position, hposition⟩ := mem_iff_getElem?.mp hmem
  refine mem_eraseIdx_iff_getElem?.mpr ⟨position, ?_, hposition⟩
  rintro rfl
  rw [hat] at hposition
  exact hne (Option.some.inj hposition).symm

variable {reception : Reception N V H}

section

omit [DecidableEq N] [LinearOrder V] [DecidableEq H]

theorem Pending.eraseReception (hpending : s.Pending other)
    (hat : s.receptions[index]? = some reception) (hne : other ≠ reception.envelope) :
    { s with receptions := s.receptions.eraseIdx index }.Pending other := by
  refine hpending.imp_left ?_
  rintro ⟨found, hfound, rfl⟩
  refine ⟨found, mem_eraseIdx_of_ne hfound hat ?_, rfl⟩
  rintro rfl
  exact hne rfl

theorem Pending.eraseRecheck (hpending : s.Pending other) (hat : s.rechecks[index]? = some envelope)
    (hne : other ≠ envelope) : { s with rechecks := s.rechecks.eraseIdx index }.Pending other :=
  hpending.imp_right fun hmem => mem_eraseIdx_of_ne hmem hat hne

end

omit [DecidableEq N] in
theorem Anchored.mono (hanchored : s.Anchored codec envelope)
    (havailable : ∀ dependency, s'.state.Available envelope.statement.slotIndex dependency →
      s.state.Available envelope.statement.slotIndex dependency ∨ dependency ∈ s'.announced)
    (hannounced : ∀ dependency ∈ s.announced, dependency ∈ s'.announced)
    (hlists : ∀ dependency, s.state.Lists codec dependency envelope →
      s'.state.Lists codec dependency envelope) : s'.Anchored codec envelope := by
  obtain ⟨dependency, hdependency, hmissing, hlisted⟩ := hanchored
  refine ⟨dependency, hdependency, ?_, hlists dependency hlisted⟩
  rcases hmissing with hmissing | hmem
  · by_cases hnow : s'.state.Available envelope.statement.slotIndex dependency
    · exact (havailable dependency hnow).elim (fun h => absurd h hmissing) Or.inr
    · exact Or.inl hnow
  · exact Or.inr (hannounced dependency hmem)

/-! ### Registering -/

omit [DecidableEq N] [LinearOrder V] in
theorem dropUntracked_fetchers (state : FetchingEnvelopes N V H) (slot : Nat) (envHash : H) :
    (state.dropUntracked slot envHash).txSetFetcher = state.txSetFetcher ∧
      (state.dropUntracked slot envHash).quorumSetFetcher = state.quorumSetFetcher ∧
      (state.dropUntracked slot envHash).hasTxSet = state.hasTxSet ∧
      (state.dropUntracked slot envHash).quorumSetCache = state.quorumSetCache := by
  unfold dropUntracked
  split <;> exact ⟨rfl, rfl, rfl, rfl⟩

variable {state state' : FetchingEnvelopes N V H}

section

omit [DecidableEq N] [LinearOrder V]

theorem lists_of_fetchers {dependency : Dependency H}
    (htx : state'.txSetFetcher = state.txSetFetcher)
    (hquorumSet : state'.quorumSetFetcher = state.quorumSetFetcher) :
    state'.Lists codec dependency envelope ↔ state.Lists codec dependency envelope := by
  cases dependency with
  | txSet hash => simp [FetchingEnvelopes.Lists, fetcherOf, htx]
  | quorumSet hash => simp [FetchingEnvelopes.Lists, fetcherOf, hquorumSet]

theorem available_of_caches {slot : Nat} {dependency : Dependency H}
    (hhas : state'.hasTxSet = state.hasTxSet)
    (hcache : state'.quorumSetCache = state.quorumSetCache) :
    state'.Available slot dependency ↔ state.Available slot dependency := by
  cases dependency with
  | txSet hash => simp [FetchingEnvelopes.Available, hhas]
  | quorumSet hash => simp [FetchingEnvelopes.Available, hcache]

end

theorem Kept.registerTracked (hkept : s.Kept codec) (hfree : codec.CollisionFree s.seen)
    (hat : s.receptions[index]? = some reception) (hregisters : s.Registers codec index reception)
    (htracked : (s.state.startFetch codec reception.envelope reception.needTxSet
      reception.needQuorumSet).2 = true) :
    { s with
      state := (s.state.startFetch codec reception.envelope reception.needTxSet
        reception.needQuorumSet).1
      receptions := s.receptions.eraseIdx index }.Kept codec := by
  have hseen : reception.envelope ∈ s.seen :=
    hkept.receptionsSeen reception (mem_of_getElem? hat)
  have hgrown : FetchingEnvelopes.Grown codec s.seen s.state
      (s.state.startFetch codec reception.envelope reception.needTxSet
        reception.needQuorumSet).1 :=
    startFetch_grown hseen _ _
  have hslots := slotState_of_slots hgrown.slots
  have htracks := (startFetch_tracked hfree hseen hkept.txConsistent
    hkept.quorumSetConsistent reception.needTxSet reception.needQuorumSet).mp htracked
  refine {
    filed := hkept.filed.of_slots hslots
    txConsistent := hgrown.txConsistent hkept.txConsistent
    quorumSetConsistent := hgrown.quorumSetConsistent hkept.quorumSetConsistent
    receptionsSeen := fun found hfound =>
      hkept.receptionsSeen found (mem_of_mem_eraseIdx hfound)
    __ := hkept
    anchored := ?_
    held := fun found hfound => (hkept.held found hfound).imp
      (parked_congr hslots).mpr (delivered_congr hslots).mpr }
  intro found hparked
  have hwas : s.state.Parked codec found := (parked_congr hslots).mp hparked
  have hgrows : s.Anchored codec found → ({ s with
      state := (s.state.startFetch codec reception.envelope reception.needTxSet
        reception.needQuorumSet).1
      receptions := s.receptions.eraseIdx index } : Intake N V H).Anchored codec found :=
    fun hanchored => hanchored.mono
      (fun dependency havailable => Or.inl ((hgrown.available _ dependency).mp havailable))
      (fun _ hmem => hmem) fun dependency hlists => hgrown.lists dependency found hlists
  by_cases hsame : found = reception.envelope
  · subst hsame
    rcases hregisters with hnot | ⟨hregisters, -⟩
    · exact absurd hwas hnot
    rcases hregisters htracks with
      hpending | hanchored | ⟨dependency, hmem, hmissing, hasked, haccepts⟩
    · exact Or.inl hpending
    · exact Or.inr (hgrows hanchored)
    · obtain ⟨listing, hlisting, hstill, hlists⟩ := startFetch_lists hfree hseen
        hkept.txConsistent hkept.quorumSetConsistent hmem hmissing
        (by cases dependency <;> exact hasked) haccepts
      exact Or.inr ⟨listing, hlisting,
        Or.inl fun havailable => hstill ((hgrown.available _ _).mp havailable), hlists⟩
  · exact (hkept.anchored found hwas).imp (fun hpending => hpending.eraseReception hat hsame) hgrows

/-- Nothing tracks the envelope, and it is dropped. -/
theorem Kept.registerUntracked (hkept : s.Kept codec) (hfree : codec.CollisionFree s.seen)
    (hat : s.receptions[index]? = some reception) {owed : List (ScpEnvelope N V H)}
    (howed : owed ⊆ s.owed) (hdropped : ∀ found ∈ owed, found = reception.envelope →
      ¬s.state.Parked codec reception.envelope) :
    { s with
      state := (s.state.startFetch codec reception.envelope reception.needTxSet
        reception.needQuorumSet).1.dropUntracked reception.envelope.statement.slotIndex
          (computeEnvelopeHash codec reception.envelope)
      receptions := s.receptions.eraseIdx index
      owed }.Kept codec := by
  have hseen : reception.envelope ∈ s.seen :=
    hkept.receptionsSeen reception (mem_of_getElem? hat)
  have hgrown : FetchingEnvelopes.Grown codec s.seen s.state
      (s.state.startFetch codec reception.envelope reception.needTxSet
        reception.needQuorumSet).1 :=
    startFetch_grown hseen _ _
  generalize (s.state.startFetch codec reception.envelope reception.needTxSet
    reception.needQuorumSet).1 = fetched at hgrown
  have hslots := slotState_of_slots hgrown.slots
  have hreleased := released_dropUntracked fetched hfree hseen
  obtain ⟨htx, hquorumSet, hhas, hcache⟩ := dropUntracked_fetchers fetched
    reception.envelope.statement.slotIndex (computeEnvelopeHash codec reception.envelope)
  generalize fetched.dropUntracked reception.envelope.statement.slotIndex
    (computeEnvelopeHash codec reception.envelope) = dropped at hreleased htx hquorumSet hhas hcache
  refine {
    filed := (hkept.filed.of_slots hslots).of_lookup hreleased.lookup
    txConsistent := by
      dsimp only
      rw [htx]
      exact hgrown.txConsistent hkept.txConsistent
    quorumSetConsistent := by
      dsimp only
      rw [hquorumSet]
      exact hgrown.quorumSetConsistent hkept.quorumSetConsistent
    receptionsSeen := fun found hfound =>
      hkept.receptionsSeen found (mem_of_mem_eraseIdx hfound)
    rechecksSeen := hkept.rechecksSeen
    owedSeen := fun found hfound => hkept.owedSeen found (howed hfound)
    anchored := ?_
    held := ?_ }
  · intro found hparked
    have hne : found ≠ reception.envelope := hreleased.not_parked found hparked
    have hwas : s.state.Parked codec found :=
      (parked_congr hslots).mp (hreleased.parked_of hparked)
    refine (hkept.anchored found hwas).imp (fun hpending => hpending.eraseReception hat hne) ?_
    intro hanchored
    apply hanchored.mono
    · intro dependency havailable
      exact Or.inl ((hgrown.available _ dependency).mp
        ((available_of_caches hhas hcache).mp havailable))
    · exact fun _ hmem => hmem
    · intro dependency hlists
      exact (lists_of_fetchers htx hquorumSet).mpr (hgrown.lists dependency found hlists)
  · intro found hfound
    rcases hkept.held found (howed hfound) with hparked | hdelivered
    · left
      apply hreleased.parked found (hkept.owedSeen found (howed hfound))
        ((parked_congr hslots).mpr hparked)
      rintro rfl
      exact hdropped _ hfound rfl hparked
    · exact Or.inr (hreleased.delivered found
        ((delivered_congr hslots).mpr hdelivered))

theorem Kept.register (hkept : s.Kept codec) (hfree : codec.CollisionFree s.seen)
    (hat : s.receptions[index]? = some reception) (hregisters : s.Registers codec index reception) :
    ({ s with receptions := s.receptions.eraseIdx index }.register codec reception).Kept
      codec := by
  have hseen : reception.envelope ∈ s.seen :=
    hkept.receptionsSeen reception (mem_of_getElem? hat)
  unfold Intake.register FetchingEnvelopes.register
  dsimp only
  cases htracked : (s.state.startFetch codec reception.envelope reception.needTxSet
    reception.needQuorumSet).2 with
  | true => exact hkept.registerTracked hfree hat hregisters htracked
  | false =>
    have huntracked : ¬s.state.Tracks reception.envelope codec reception.needTxSet
        reception.needQuorumSet := by
      rw [← startFetch_tracked hfree hseen hkept.txConsistent
        hkept.quorumSetConsistent, htracked]
      exact Bool.false_ne_true
    simp only [Bool.false_eq_true, if_false, Bool.not_false, Bool.true_and]
    split
    · apply hkept.registerUntracked hfree hat (filter_subset_self _)
      rintro found hfound rfl
      simp at hfound
    next hnone =>
      apply hkept.registerUntracked hfree hat (List.Subset.refl _)
      rintro found - -
      rcases hregisters with hnot | ⟨-, hmissing⟩
      · exact hnot
      obtain ⟨dependency, hmem, hmissing⟩ := hmissing huntracked
      exact absurd (any_eq_true.mpr ⟨dependency, hmem, by simpa using hmissing⟩) hnone

/-! ### Arrivals -/

theorem mem_announced_filter {dependency arrived : Dependency H} {announced : List (Dependency H)}
    (hmem : dependency ∈ announced) (hne : dependency ≠ arrived) :
    dependency ∈ announced.filter (· ≠ arrived) :=
  mem_filter.mpr ⟨hmem, by simpa using hne⟩

section

variable (hkept : s.Kept codec)
include hkept

/-- The tracker of a transaction set goes, and its envelopes are to be checked. -/
theorem Kept.notifyTxSet (hash : H) : (s.notifyTxSet hash).Kept codec where
  filed := hkept.filed.of_slots fun _ => rfl
  txConsistent := hkept.txConsistent.recv
  __ := hkept
  rechecksSeen found hfound := by
    rcases mem_append.mp hfound with hold | hwaiting
    · exact hkept.rechecksSeen found hold
    · exact hkept.txConsistent.seen_of_fetchingFor hwaiting
  anchored found hparked := by
    rcases hkept.anchored found hparked with hpending | ⟨dependency, hmem, hmissing, hlists⟩
    · exact Or.inl (hpending.imp_right fun hrecheck => mem_append_left _ hrecheck)
    · by_cases hsame : dependency = .txSet hash
      · subst hsame
        exact Or.inl (Or.inr (mem_append_right _ (mem_fetchingFor hlists)))
      · refine Or.inr ⟨dependency, hmem, ?_, ?_⟩
        · exact hmissing.imp id fun hannounced => mem_announced_filter hannounced hsame
        · cases dependency with
          | txSet asked =>
            apply erase_of_ne hlists
            rintro rfl
            exact hsame rfl
          | quorumSet asked => exact hlists

theorem Kept.recvTxSet (hash : H) : (s.recvTxSet hash).Kept codec := by
  unfold Intake.recvTxSet
  split
  · exact hkept
  · exact hkept.notifyTxSet hash

theorem Kept.storeTxSet (hash : H) : (s.perform codec (.storeTxSet hash)).Kept codec where
  filed := hkept.filed.of_slots fun _ => rfl
  __ := hkept
  anchored found hparked := by
    refine (hkept.anchored found hparked).imp id fun hanchored => hanchored.mono ?_ ?_ ?_
    · intro dependency havailable
      cases dependency with
      | txSet asked =>
        have hnow : (asked == hash ||
            s.state.hasTxSet asked found.statement.slotIndex) = true := havailable
        rcases Bool.or_eq_true_iff.mp hnow with hsame | hold
        · rw [beq_iff_eq.mp hsame]
          exact Or.inr mem_cons_self
        · exact Or.inl hold
      | quorumSet asked => exact Or.inl havailable
    · exact fun _ hmem => mem_cons_of_mem _ hmem
    · exact fun dependency hlists => (lists_of_fetchers rfl rfl).mpr hlists

theorem Kept.forgetTxSets (keep : H → Nat → Bool) :
    (s.perform codec (.forgetTxSets keep)).Kept codec where
  filed := hkept.filed.of_slots fun _ => rfl
  __ := hkept
  anchored found hparked := by
    refine (hkept.anchored found hparked).imp id fun hanchored => hanchored.mono ?_ ?_ ?_
    · intro dependency havailable
      cases dependency with
      | txSet asked =>
        have hnow : (s.state.hasTxSet asked found.statement.slotIndex &&
            keep asked found.statement.slotIndex) = true := havailable
        exact Or.inl (Bool.and_eq_true_iff.mp hnow).1
      | quorumSet asked => exact Or.inl havailable
    · exact fun _ hmem => hmem
    · exact fun dependency hlists => (lists_of_fetchers rfl rfl).mpr hlists

end

variable {state : FetchingEnvelopes N V H}

section

omit [DecidableEq N] [LinearOrder V]

theorem mem_parked (hparked : state.Parked codec envelope) : envelope ∈ state.parked := by
  obtain ⟨entry, hlookup, rfl⟩ := hparked
  unfold parked
  refine mem_flatMap.mpr ⟨entry.envelope.statement.slotIndex, ?_, ?_⟩
  · rw [mem_insertionSort]
    by_contra hnone
    have hdefault : state.slotState entry.envelope.statement.slotIndex = default := by
      rw [FetchingEnvelopes.slotState, AList.lookup_eq_none.mpr hnone]
      rfl
    rw [hdefault] at hlookup
    cases hlookup
  · exact mem_map.mpr ⟨_, AList.mem_lookup_iff.mp hlookup, rfl⟩

theorem mem_parked_seen (hfiled : s.state.Filed codec s.seen) (hmem : envelope ∈ s.state.parked) :
    envelope ∈ s.seen := by
  unfold parked at hmem
  obtain ⟨slot, -, hslot⟩ := mem_flatMap.mp hmem
  obtain ⟨entry, hentry, rfl⟩ := mem_map.mp hslot
  exact (hfiled slot entry.1 entry.2 (AList.mem_lookup_iff.mpr hentry)).2.2

end

omit [DecidableEq N] in
theorem Kept.check (hkept : s.Kept codec) (envelopes : List (ScpEnvelope N V H))
    (hseen : ∀ found ∈ envelopes, found ∈ s.seen) :
    { s with rechecks := s.rechecks ++ envelopes }.Kept codec where
  __ := hkept
  rechecksSeen found hfound :=
    (mem_append.mp hfound).elim (hkept.rechecksSeen found) (hseen found)
  anchored found hparked := (hkept.anchored found hparked).imp
    (fun hpending => hpending.imp_right fun hrecheck => mem_append_left _ hrecheck) id

/-- The parked envelopes that refer to a quorum set are found without its tracker. -/
theorem Kept.scanQuorumSet (hkept : s.Kept codec) (hash : H) :
    (s.perform codec (.scanQuorumSet hash)).Kept codec := by
  have hchecked := hkept.check (s.state.parked.filter fun envelope =>
    extractQuorumSetHash envelope == some hash)
      fun found hfound => mem_parked_seen hkept.filed (mem_of_mem_filter hfound)
  refine { hchecked with anchored := ?_ }
  intro found hparked
  rcases hchecked.anchored found hparked with hpending | ⟨dependency, hmem, hmissing, hlists⟩
  · exact Or.inl hpending
  · by_cases hsame : dependency = .quorumSet hash
    · subst hsame
      have hhash : extractQuorumSetHash found = some hash := by
        simpa [dependencies] using hmem
      refine Or.inl (Or.inr (mem_append_right _ (mem_filter.mpr ⟨?_, ?_⟩)))
      · exact mem_parked hparked
      · exact beq_iff_eq.mpr hhash
    · refine Or.inr ⟨dependency, hmem, ?_, hlists⟩
      exact hmissing.imp id fun hannounced => mem_announced_filter hannounced hsame

/-! ### Quorum sets -/

/-- Caching a quorum set makes no other one available. -/
theorem exists_put {κ ν : Type} [DecidableEq κ] {cache : RandomEvictionCache κ ν} {key asked : κ}
    {value : ν} {draws : Nat × Nat} (hexists : (cache.put key value draws).exists asked = true) :
    asked = key ∨ cache.exists asked = true := by
  by_cases hsame : asked = key
  · exact Or.inl hsame
  right
  have hinsert : ∀ entry, (cache.map.insert key entry).lookup asked = cache.map.lookup asked :=
    fun _ => AList.lookup_insert_ne hsame
  have herase : ∀ entry victim,
      (((cache.map.insert key entry).erase victim).lookup asked).isSome = true →
        (cache.map.lookup asked).isSome = true := by
    intro entry victim hfound
    by_cases hvictim : asked = victim
    · subst hvictim
      rw [AList.lookup_erase] at hfound
      cases hfound
    · rwa [AList.lookup_erase_ne hvictim, hinsert] at hfound
  unfold RandomEvictionCache.put at hexists
  unfold RandomEvictionCache.exists at hexists ⊢
  dsimp only at hexists
  split at hexists
  · rwa [hinsert] at hexists
  split at hexists
  · unfold RandomEvictionCache.evictOne at hexists
    dsimp only at hexists
    split at hexists
    · exact herase _ _ hexists
    · rwa [hinsert] at hexists
  · rwa [hinsert] at hexists

section

variable (hkept : s.Kept codec)
include hkept

theorem Kept.putQuorumSet (hash : H) (quorumSet : ScpQuorumSet N)
    (draws : Nat × Nat) : (s.perform codec (.putQuorumSet hash quorumSet draws)).Kept codec where
  filed := hkept.filed.of_slots fun _ => rfl
  __ := hkept
  anchored found hparked := by
    refine (hkept.anchored found hparked).imp id fun hanchored => hanchored.mono ?_ ?_ ?_
    · intro dependency havailable
      cases dependency with
      | txSet asked => exact Or.inl havailable
      | quorumSet asked =>
        rcases exists_put havailable with rfl | hold
        · exact Or.inr mem_cons_self
        · exact Or.inl hold
    · exact fun _ hmem => mem_cons_of_mem _ hmem
    · exact fun dependency hlists => (lists_of_fetchers rfl rfl).mpr hlists

theorem Kept.of_discarded {state' : FetchingEnvelopes N V H}
    {removed owed : List (ScpEnvelope N V H)}
    (hdiscarded : FetchingEnvelopes.Discarded codec s.seen removed s.state state')
    (howed : ∀ found ∈ owed, found ∈ s.owed ∧ found ∉ removed) :
    { s with state := state', owed }.Kept codec where
  filed := hkept.filed.of_lookup hdiscarded.lookup
  txConsistent := hdiscarded.txConsistent hkept.txConsistent
  quorumSetConsistent := hdiscarded.quorumSetConsistent hkept.quorumSetConsistent
  __ := hkept
  owedSeen found hfound := hkept.owedSeen found (howed found hfound).1
  anchored found hparked := by
    have hwas := hdiscarded.parked_of hparked
    refine (hkept.anchored found hwas).imp id fun hanchored => hanchored.mono ?_ ?_ ?_
    · exact fun dependency havailable => Or.inl ((hdiscarded.available _ dependency).mp havailable)
    · exact fun _ hmem => hmem
    · exact hdiscarded.lists found (hkept.filed.seen_of_parked hwas) hparked
  held found hfound := by
    obtain ⟨hold, hstays⟩ := howed found hfound
    exact (hkept.held found hold).imp
      (fun hparked => hdiscarded.parked found (hkept.owedSeen found hold) hparked hstays)
      (hdiscarded.delivered found)

theorem Kept.discard (hfree : codec.CollisionFree (envelope :: s.seen)) :
    (s.perform codec (.discard envelope)).Kept codec := by
  apply (hkept.see envelope).of_discarded
    (discarded_discardEnvelope hfree mem_cons_self)
  intro found hfound
  obtain ⟨hold, hne⟩ := mem_filter.mp hfound
  exact ⟨hold, by simpa using hne⟩

theorem Kept.recvQuorumSet (hfree : codec.CollisionFree s.seen) (hash : H)
    (quorumSet : ScpQuorumSet N) (draws : Nat × Nat) :
    (s.recvQuorumSet codec hash quorumSet draws).Kept codec := by
  unfold Intake.recvQuorumSet
  split
  · exact hkept
  split
  · have hseen : ∀ found ∈ s.state.quorumSetFetcher.fetchingFor hash, found ∈ s.seen :=
      fun found => hkept.quorumSetConsistent.seen_of_fetchingFor
    apply hkept.of_discarded (discarded_all hfree _ hseen s.state)
    intro found hfound
    obtain ⟨hold, hstays⟩ := mem_filter.mp hfound
    refine ⟨hold, fun hmem => ?_⟩
    rw [Bool.not_eq_true', any_eq_false] at hstays
    exact hstays found hmem (beq_self_eq_true _)
  · exact {
      filed := hkept.filed.of_slots fun _ => rfl
      __ := hkept
      quorumSetConsistent := hkept.quorumSetConsistent.recv
      rechecksSeen := fun found hfound =>
        (mem_append.mp hfound).elim (hkept.rechecksSeen found)
          hkept.quorumSetConsistent.seen_of_fetchingFor
      anchored := fun found hparked => by
        rcases hkept.anchored found hparked with hpending | ⟨dependency, hmem, hmissing, hlists⟩
        · exact Or.inl (hpending.imp_right fun hrecheck => mem_append_left _ hrecheck)
        by_cases hsame : dependency = .quorumSet hash
        · subst hsame
          exact Or.inl (Or.inr (mem_append_right _
            (mem_fetchingFor hlists)))
        refine Or.inr ⟨dependency, hmem, ?_, ?_⟩
        · refine hmissing.imp (fun hmissing havailable => hmissing ?_)
            fun hannounced => mem_announced_filter hannounced hsame
          cases dependency with
          | txSet asked => exact havailable
          | quorumSet asked =>
            rcases exists_put havailable with rfl | hold
            · exact absurd rfl hsame
            · exact hold
        · cases dependency with
          | txSet asked => exact hlists
          | quorumSet asked =>
            apply erase_of_ne hlists
            rintro rfl
            exact hsame rfl }

end

/-! ### Checking -/

theorem Kept.recheck (hkept : s.Kept codec) (hfree : codec.CollisionFree s.seen)
    (hat : s.rechecks[index]? = some envelope) (hrechecks : s.Rechecks codec index envelope) :
    { s with
      state := s.state.checkAndMoveToReady codec envelope
      rechecks := s.rechecks.eraseIdx index }.Kept codec := by
  have hseen : envelope ∈ s.seen := hkept.rechecksSeen envelope (mem_of_getElem? hat)
  by_cases hall : ∀ dependency ∈ dependencies codec envelope,
      s.state.Available envelope.statement.slotIndex dependency
  · -- Nothing is missing: the envelope is ready.
    obtain ⟨hreleased, hready⟩ :=
      released_checkAndMoveToReady hfree hseen hkept.filed hall
    obtain ⟨htx, hquorumSet, hhas, hcache⟩ := checkAndMoveToReady_fetchers hall
    generalize s.state.checkAndMoveToReady codec envelope = checked at *
    exact {
      filed := hkept.filed.of_lookup hreleased.lookup
      txConsistent := by
        dsimp only
        rw [htx]
        exact hkept.txConsistent
      quorumSetConsistent := by
        dsimp only
        rw [hquorumSet]
        exact hkept.quorumSetConsistent
      __ := hkept
      rechecksSeen := fun found hfound => hkept.rechecksSeen found (mem_of_mem_eraseIdx hfound)
      anchored := fun found hparked => by
        have hne : found ≠ envelope := hreleased.not_parked found hparked
        refine (hkept.anchored found (hreleased.parked_of hparked)).imp
          (fun hpending => hpending.eraseRecheck hat hne) fun hanchored => hanchored.mono ?_ ?_ ?_
        · exact fun dependency havailable => Or.inl ((available_of_caches hhas hcache).mp havailable)
        · exact fun _ hmem => hmem
        · exact fun dependency hlists => (lists_of_fetchers htx hquorumSet).mpr hlists
      held := fun found hfound => by
        rcases hkept.held found hfound with hparked | hdelivered
        · by_cases hsame : found = envelope
          · subst hsame
            exact Or.inr (hready hparked)
          · exact Or.inl (hreleased.parked found (hkept.owedSeen found hfound) hparked hsame)
        · exact Or.inr (hreleased.delivered found hdelivered) }
  · -- Something is missing: its fetches are registered again.
    rw [checkAndMoveToReady_of_missing hall]
    have hgrown : FetchingEnvelopes.Grown codec s.seen s.state
        (s.state.startFetch codec envelope (s.state.checkDependencies codec envelope).1
          (s.state.checkDependencies codec envelope).2).1 :=
      startFetch_grown hseen _ _
    have hslots := slotState_of_slots hgrown.slots
    refine {
      filed := hkept.filed.of_slots hslots
      txConsistent := hgrown.txConsistent hkept.txConsistent
      quorumSetConsistent := hgrown.quorumSetConsistent hkept.quorumSetConsistent
      __ := hkept
      rechecksSeen := fun found hfound => hkept.rechecksSeen found (mem_of_mem_eraseIdx hfound)
      anchored := ?_
      held := fun found hfound => (hkept.held found hfound).imp
        (parked_congr hslots).mpr
        (delivered_congr hslots).mpr }
    intro found hparked
    have hwas : s.state.Parked codec found := (parked_congr hslots).mp hparked
    have hgrows : s.Anchored codec found → ({ s with
        state := (s.state.startFetch codec envelope (s.state.checkDependencies codec envelope).1
          (s.state.checkDependencies codec envelope).2).1
        rechecks := s.rechecks.eraseIdx index } : Intake N V H).Anchored codec found :=
      fun hanchored => hanchored.mono
        (fun dependency havailable => Or.inl ((hgrown.available _ dependency).mp havailable))
        (fun _ hmem => hmem) fun dependency hlists => hgrown.lists dependency found hlists
    by_cases hsame : found = envelope
    · subst hsame
      rcases hrechecks with hnot | hpending | hanchored | havailable |
        ⟨dependency, hmem, hmissing, haccepts⟩
      · exact absurd hwas hnot
      · exact Or.inl hpending
      · exact Or.inr (hgrows hanchored)
      · exact absurd havailable hall
      · obtain ⟨listing, hlisting, hstill, hlists⟩ := startFetch_lists hfree hseen
          hkept.txConsistent hkept.quorumSetConsistent hmem hmissing
          (asked_of_missing hmem hmissing) haccepts
        exact Or.inr ⟨listing, hlisting,
          Or.inl fun havailable => hstill ((hgrown.available _ _).mp havailable), hlists⟩
    · exact (hkept.anchored found hwas).imp (fun hpending => hpending.eraseRecheck hat hsame) hgrows

/-! ### Popping and erasing -/

theorem alike_popFromSlot (state : FetchingEnvelopes N V H) (slot : Nat) :
    Alike codec state (state.popFromSlot codec slot).1 := by
  obtain ⟨htx, hquorumSet, hhas, hcache⟩ :=
    popFromSlot_fetchers codec state slot
  exact {
    lookup := fun other hash => by rw [slotState_popFromSlot]
    delivered := fun _ => delivered_popFromSlot slot
    txSetFetcher := htx
    quorumSetFetcher := hquorumSet
    hasTxSet := hhas
    quorumSetCache := hcache }

theorem alike_pop (state : FetchingEnvelopes N V H) (maxSlot : Nat) :
    Alike codec state (state.pop codec maxSlot).1 := by
  unfold FetchingEnvelopes.pop
  dsimp only
  split
  · exact alike_popFromSlot state _
  · exact Alike.refl state

/-- Slots are erased, and the trackers are changed. -/
theorem Kept.of_retainSlots (hkept : s.Kept codec) (keep : Nat → Bool)
    {txSetFetcher quorumSetFetcher : ItemFetcher N V H} (htx : txSetFetcher.Consistent codec s.seen)
    (hquorumSet : quorumSetFetcher.Consistent codec s.seen)
    (hanchored : ∀ found, s.state.Parked codec found →
      keep found.statement.slotIndex = true → s.Pending found ∨
        ∃ dependency ∈ dependencies codec found,
          (¬s.state.Available found.statement.slotIndex dependency ∨ dependency ∈ s.announced) ∧
            (match dependency with
              | .txSet hash => txSetFetcher.Lists codec hash found
              | .quorumSet hash => quorumSetFetcher.Lists codec hash found)) :
    { s with
      state := { s.state.retainSlots keep with txSetFetcher, quorumSetFetcher }
      owed := s.keepOwed keep }.Kept codec := by
  obtain ⟨-, -, hhas, hcache⟩ := retainSlots_fetchers s.state keep
  exact {
    filed := (filed_retainSlots hkept.filed keep).of_slots fun _ => rfl
    txConsistent := htx
    quorumSetConsistent := hquorumSet
    __ := hkept
    owedSeen := fun found hfound => hkept.owedSeen found (mem_of_mem_filter hfound)
    anchored := fun found hparked => by
      obtain ⟨hkeep, hwas⟩ := (parked_retainSlots keep).mp hparked
      refine (hanchored found hwas hkeep).imp id ?_
      rintro ⟨dependency, hmem, hmissing, hlists⟩
      refine ⟨dependency, hmem, ?_, by cases dependency <;> exact hlists⟩
      exact hmissing.imp (fun hmissing havailable =>
        hmissing ((available_of_caches hhas hcache).mp havailable)) id
    held := fun found hfound => by
      obtain ⟨hold, hkeep⟩ := mem_filter.mp hfound
      exact (hkept.held found hold).imp
        (fun hparked => (parked_retainSlots keep).mpr ⟨hkeep, hparked⟩)
        (delivered_retainSlots hkeep) }

theorem Kept.trimStale (hkept : s.Kept codec) (keepAfterSlot : Nat)
    (htrims : s.Trims codec keepAfterSlot) :
    (s.perform codec (.trimStale keepAfterSlot)).Kept codec := by
  have hfetcher := (retainSlots_fetchers s.state
    fun slot => slot > keepAfterSlot).2.1
  have hcleared : (s.state.retainSlots fun slot => slot > keepAfterSlot).txSetFetcher.clear.Consistent
      codec s.seen := by
    intro itemHash tracker hlookup
    cases hlookup
  have herased := hkept.of_retainSlots (fun slot => slot > keepAfterSlot) hcleared
    hkept.quorumSetConsistent ?_
  · rw [← hfetcher] at herased
    exact herased
  · intro found hparked hkeep
    refine (htrims found hparked (of_decide_eq_true hkeep)).imp id ?_
    rintro ⟨hash, hmem, hmissing, hlists⟩
    exact ⟨.quorumSet hash, hmem, hmissing, hlists⟩

theorem Kept.eraseOutsideRange (hkept : s.Kept codec) (minSlot maxSlot : Option Nat)
    (slotToKeep : Nat) :
    (s.perform codec (.eraseOutsideRange minSlot maxSlot slotToKeep)).Kept codec := by
  obtain ⟨htx, hquorumSet, -, -⟩ := retainSlots_fetchers s.state
    (keepsSlot minSlot maxSlot slotToKeep)
  have herased := hkept.of_retainSlots (keepsSlot minSlot maxSlot slotToKeep)
    (hkept.txConsistent.stopFetchingOutsideRange minSlot maxSlot slotToKeep)
    (hkept.quorumSetConsistent.stopFetchingOutsideRange minSlot maxSlot slotToKeep) ?_
  · rw [← htx, ← hquorumSet] at herased
    exact herased
  · intro found hparked hkeep
    refine (hkept.anchored found hparked).imp id ?_
    rintro ⟨dependency, hmem, hmissing, hlists⟩
    refine ⟨dependency, hmem, hmissing, ?_⟩
    cases dependency with
    | txSet hash => exact stopFetchingOutsideRange hlists hkeep
    | quorumSet hash => exact stopFetchingOutsideRange hlists hkeep

/-! ### Runs -/

omit [DecidableEq N] in
theorem kept_new (config : FetchingConfig) (hasTxSet : H → Nat → Bool) :
    (Intake.new config hasTxSet : Intake N V H).Kept codec where
  filed slot hash entry hlookup := by cases hlookup
  txConsistent itemHash tracker hlookup := by cases hlookup
  quorumSetConsistent itemHash tracker hlookup := by cases hlookup
  receptionsSeen := nofun
  rechecksSeen := nofun
  owedSeen := nofun
  anchored found := by
    rintro ⟨entry, hlookup, -⟩
    cases hlookup
  held := nofun

theorem seen_subset_perform (action : Action N V H) : s.seen ⊆ (s.perform codec action).seen := by
  cases action with
  | receive received receivedAt =>
    change s.seen ⊆ (s.receive codec received receivedAt).seen
    unfold Intake.receive
    dsimp only
    split
    · exact subset_cons_self _ _
    split <;> exact subset_cons_self _ _
  | register index =>
    unfold Intake.perform
    dsimp only
    split <;> exact List.Subset.refl _
  | recvTxSet hash =>
    change s.seen ⊆ (s.recvTxSet hash).seen
    unfold Intake.recvTxSet
    split <;> exact List.Subset.refl _
  | recvQuorumSet hash quorumSet draws =>
    change s.seen ⊆ (s.recvQuorumSet codec hash quorumSet draws).seen
    unfold Intake.recvQuorumSet
    split
    · exact List.Subset.refl _
    split <;> exact List.Subset.refl _
  | recheck index =>
    unfold Intake.perform
    dsimp only
    split <;> exact List.Subset.refl _
  | discard discarded => exact subset_cons_self _ _
  | storeTxSet | notifyTxSet | scanTxSet | putQuorumSet | scanQuorumSet | forgetTxSets | pop
  | popFromSlot | trimStale | eraseOutsideRange | setCurrentSlot | setBroadcast =>
    exact List.Subset.refl _

theorem Kept.perform (hkept : s.Kept codec) (action : Action N V H)
    (hfree : codec.CollisionFree (s.perform codec action).seen) (hspares : s.Spares codec action) :
    (s.perform codec action).Kept codec := by
  have hbefore : codec.CollisionFree s.seen := hfree.mono (seen_subset_perform action)
  cases action with
  | receive received receivedAt =>
    apply hkept.receive receivedAt
    change codec.CollisionFree (s.receive codec received receivedAt).seen at hfree
    unfold Intake.receive at hfree
    dsimp only at hfree
    split at hfree
    · exact hfree
    split at hfree <;> exact hfree
  | register index =>
    cases hat : s.receptions[index]? with
    | none => simpa [Intake.perform, hat] using hkept
    | some reception =>
      simpa [Intake.perform, hat] using hkept.register hbefore hat (hspares reception hat)
  | recvTxSet hash => exact hkept.recvTxSet hash
  | recvQuorumSet hash quorumSet draws => exact hkept.recvQuorumSet hbefore hash quorumSet draws
  | storeTxSet hash => exact hkept.storeTxSet hash
  | notifyTxSet hash => exact hkept.notifyTxSet hash
  | scanTxSet hash =>
    exact hkept.check _ fun found hfound =>
      mem_parked_seen hkept.filed (mem_of_mem_filter hfound)
  | putQuorumSet hash quorumSet draws => exact hkept.putQuorumSet hash quorumSet draws
  | scanQuorumSet hash => exact hkept.scanQuorumSet hash
  | recheck index =>
    cases hat : s.rechecks[index]? with
    | none => simpa [Intake.perform, hat] using hkept
    | some checked =>
      simpa [Intake.perform, hat] using hkept.recheck hbefore hat (hspares checked hat)
  | forgetTxSets keep => exact hkept.forgetTxSets keep
  | pop maxSlot => exact hkept.of_alike (alike_pop s.state maxSlot)
  | popFromSlot slot => exact hkept.of_alike (alike_popFromSlot s.state slot)
  | discard discarded => exact hkept.discard hfree
  | trimStale keepAfterSlot => exact hkept.trimStale keepAfterSlot hspares
  | eraseOutsideRange minSlot maxSlot slotToKeep =>
    exact hkept.eraseOutsideRange minSlot maxSlot slotToKeep
  | setCurrentSlot slot =>
    exact hkept.of_alike ⟨fun _ _ => rfl, fun _ h => h, rfl, rfl, rfl, rfl⟩
  | setBroadcast => exact hkept.of_alike ⟨fun _ _ => rfl, fun _ h => h, rfl, rfl, rfl, rfl⟩

theorem alike_rehash {slot : Nat} {slotState : SlotEnvelopes N V H}
    {fetching : AList fun _ : H => FetchingEntry N V H}
    (hlookup : state.slots.lookup slot = some slotState)
    (hperm : fetching.entries.Perm slotState.fetching.entries) :
    Alike codec state (state.setSlot slot { slotState with fetching }) where
  lookup other hash := by
    rw [slotState_setSlot]
    split
    next hother =>
      rw [hother, slotState_of_lookup hlookup]
      exact AList.perm_lookup hperm
    · rfl
  delivered other hdelivered := by
    refine delivered_setSlot ?_ ?_ hdelivered
    · rw [slotState_of_lookup hlookup]
      exact fun _ hready => Or.inl hready
    · rw [slotState_of_lookup hlookup]
  txSetFetcher := rfl
  quorumSetFetcher := rfl
  hasTxSet := rfl
  quorumSetCache := rfl

theorem kept_of_reachable {config : FetchingConfig}
    (hreachable : Reachable codec config (Spares codec) s)
    (hfree : codec.CollisionFree s.seen) : s.Kept codec := by
  induction hreachable with
  | new hasTxSet => exact kept_new config hasTxSet
  | perform action _ hspares ih =>
    exact (ih (hfree.mono (seen_subset_perform action))).perform action hfree hspares
  | rehash slot fetching _ hlookup hperm ih => exact (ih hfree).of_alike (alike_rehash hlookup hperm)

omit [DecidableEq N] in
theorem Kept.noneStranded (hkept : s.Kept codec) : s.NoneStranded codec where
  __ := hkept
  delivered found hfound hnotPending hall := by
    rcases hkept.held found hfound with hparked | hdelivered
    · rcases hkept.anchored found hparked with hpending | ⟨dependency, hmem, hmissing, -⟩
      · exact absurd hpending hnotPending
      · obtain ⟨havailable, hunannounced⟩ := hall dependency hmem
        exact hmissing.elim (fun h => absurd havailable h) fun h => absurd h hunannounced
    · exact hdelivered

/-- In every run whose registrations, checks and trims spare the envelopes, none is stranded,
in whatever order the threads and the arrivals come. -/
theorem none_stranded {config : FetchingConfig}
    (hreachable : Reachable codec config (Spares codec) s)
    (hfree : codec.CollisionFree s.seen) : s.NoneStranded codec :=
  (kept_of_reachable hreachable hfree).noneStranded

/-! ### Runs of a slot -/

section Slot

/-- The state after some actions, with no transaction set at hand. -/
def afterActions (actions : List (Action Unit Nat Nat)) : Intake Unit Nat Nat :=
  actions.foldl (fun s action => s.perform plainCodec action) (.new plainConfig fun _ _ => false)

theorem reachable_afterActions (actions : List (Action Unit Nat Nat)) :
    Reachable plainCodec plainConfig (fun _ _ => True) (afterActions actions) := by
  refine foldlRecOn (motive := fun s : Intake Unit Nat Nat =>
    Reachable plainCodec plainConfig (fun _ _ => True) s) _ _ (.new _) ?_
  exact fun _ hcurrent action _ => hcurrent.perform action trivial

theorem collisionFree_singleton : plainCodec.CollisionFree [externalizeEnvelope] := by
  intro found hfound other hother _
  rw [mem_singleton.mp hfound, mem_singleton.mp hother]

/-- Its quorum set is cached and its transaction set is asked for; then older slots are
trimmed. -/
def trimWhileFetching : List (Action Unit Nat Nat) :=
  [.putQuorumSet 1 (simpleQuorumSet 1 [()]) (0, 0), .scanQuorumSet 1,
    .receive externalizeEnvelope none, .register 0, .trimStale 3]

/-- Trimming older slots clears the tracker of an envelope that is kept. -/
theorem stranded_by_trimStale :
    ∃ s : Intake Unit Nat Nat,
      Reachable plainCodec plainConfig (fun _ _ => True) s ∧ plainCodec.CollisionFree s.seen ∧
        s.state.Parked plainCodec externalizeEnvelope ∧ s.receptions = [] ∧ s.rechecks = [] ∧
        s.announced = [] ∧ s.state.txSetFetcher.trackers = ∅ ∧
        s.state.quorumSetFetcher.trackers = ∅ ∧ ¬s.NoneStranded plainCodec := by
  have hparked : (afterActions trimWhileFetching).state.Parked plainCodec externalizeEnvelope :=
    ⟨{ envelope := externalizeEnvelope, receivedAt := none }, by decide, rfl⟩
  refine ⟨afterActions trimWhileFetching, reachable_afterActions _, collisionFree_singleton,
    hparked, rfl, rfl, rfl, rfl, rfl, fun hnone => ?_⟩
  rcases hnone.anchored externalizeEnvelope hparked with
    (⟨reception, hreception, -⟩ | hrecheck) | ⟨dependency, hdependency, -, tracker, hlookup, -⟩
  · cases hreception
  · cases hrecheck
  · cases dependency <;> cases hlookup

/-- Both items are asked for, then the quorum set arrives and then the transaction set. -/
theorem none_stranded_arrivals :
    (afterActions [.receive externalizeEnvelope none, .register 0,
      .recvQuorumSet 1 (simpleQuorumSet 1 [()]) (0, 0), .recheck 0, .storeTxSet 7,
      .notifyTxSet 7, .recheck 0]).NoneStranded plainCodec := by
  have hnew : Reachable plainCodec plainConfig (Spares plainCodec)
      (.new plainConfig fun _ _ => false) := .new fun _ _ => false
  have hreceived := hnew.perform (.receive externalizeEnvelope none) trivial
  have hregistered := hreceived.perform (.register 0) (by
    rintro reception hreception
    cases hreception
    exact Or.inr ⟨fun _ => Or.inr (Or.inr ⟨.txSet 7, by decide, by decide, rfl, Or.inr (by decide)⟩),
      fun _ => ⟨.txSet 7, by decide, by decide⟩⟩)
  have hquorumSet := hregistered.perform
    (.recvQuorumSet 1 (simpleQuorumSet 1 [()]) (0, 0)) trivial
  have hchecked := hquorumSet.perform (.recheck 0) (by
    rintro envelope henvelope
    cases henvelope
    exact Or.inr (Or.inr (Or.inr (Or.inr ⟨.txSet 7, by decide, by decide, Or.inl (by decide)⟩))))
  have hstored := hchecked.perform (.storeTxSet 7) trivial
  have hnotified := hstored.perform (.notifyTxSet 7) trivial
  have hready := hnotified.perform (.recheck 0) (by
    rintro envelope henvelope
    cases henvelope
    exact Or.inr (Or.inr (Or.inr (Or.inl (by decide)))))
  exact none_stranded hready collisionFree_singleton

end Slot

end Intake

end Henyey.Herder
