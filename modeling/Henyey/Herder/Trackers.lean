import Henyey.Herder.Intake

/-!
# What the trackers list

Fetching adds an envelope to a tracker and takes none away; an envelope leaves a tracker
when the item arrives, when the envelope is discarded or when its slot is erased.
-/

namespace Henyey.Herder

open Scp List

variable {N V H : Type} [DecidableEq H] {codec : Codec N V H}

/-- No two of the envelopes have one hash. -/
def Codec.CollisionFree (codec : Codec N V H) (seen : List (ScpEnvelope N V H)) : Prop :=
  ∀ envelope ∈ seen, ∀ other ∈ seen, codec.hashXdr other = codec.hashXdr envelope → other = envelope

omit [DecidableEq H] in
theorem Codec.CollisionFree.mono {seen seen' : List (ScpEnvelope N V H)}
    (hfree : codec.CollisionFree seen') (hsubset : seen ⊆ seen') : codec.CollisionFree seen :=
  fun envelope henvelope other hother =>
    hfree envelope (hsubset henvelope) other (hsubset hother)

namespace ItemFetcher

variable {fetcher : ItemFetcher N V H} {itemHash other : H}
  {envelope listed : ScpEnvelope N V H} {seen : List (ScpEnvelope N V H)}

/-- Trackers list envelopes that were seen, each under its own hash. -/
def Consistent (codec : Codec N V H) (seen : List (ScpEnvelope N V H))
    (fetcher : ItemFetcher N V H) : Prop :=
  ∀ itemHash tracker, fetcher.trackers.lookup itemHash = some tracker →
    ∀ waiting ∈ tracker.waitingEnvelopes, waiting.1 = codec.hashXdr waiting.2 ∧ waiting.2 ∈ seen

theorem Consistent.mono {seen' : List (ScpEnvelope N V H)}
    (hconsistent : fetcher.Consistent codec seen) (hsubset : seen ⊆ seen') :
    fetcher.Consistent codec seen' := by
  intro itemHash tracker hlookup waiting hwaiting
  obtain ⟨hhash, hseen⟩ := hconsistent itemHash tracker hlookup waiting hwaiting
  exact ⟨hhash, hsubset hseen⟩

variable {tracker : Tracker N V H}

theorem Consistent.insert (hconsistent : fetcher.Consistent codec seen)
    (htracker : ∀ waiting ∈ tracker.waitingEnvelopes,
      waiting.1 = codec.hashXdr waiting.2 ∧ waiting.2 ∈ seen) :
    Consistent codec seen { fetcher with
      trackers := fetcher.trackers.insert itemHash tracker } := by
  intro asked found hlookup
  by_cases hasked : asked = itemHash
  · subst hasked
    rw [AList.lookup_insert] at hlookup
    cases hlookup
    exact htracker
  · rw [AList.lookup_insert_ne hasked] at hlookup
    exact hconsistent asked found hlookup

theorem Consistent.erase (hconsistent : fetcher.Consistent codec seen) :
    Consistent codec seen { fetcher with trackers := fetcher.trackers.erase itemHash } := by
  intro asked found hlookup
  by_cases hasked : asked = itemHash
  · subst hasked
    rw [AList.lookup_erase] at hlookup
    cases hlookup
  · rw [AList.lookup_erase_ne hasked] at hlookup
    exact hconsistent asked found hlookup

/-! ### Fetching -/

variable {waiting : H × ScpEnvelope N V H}

theorem mem_listen (hwaiting : waiting ∈ (tracker.listen codec envelope).waitingEnvelopes) :
    waiting ∈ tracker.waitingEnvelopes ∨ waiting = (codec.hashXdr envelope, envelope) := by
  unfold Tracker.listen at hwaiting
  dsimp only at hwaiting
  split at hwaiting
  · exact Or.inl hwaiting
  · rcases mem_append.mp hwaiting with hold | hnew
    · exact Or.inl hold
    · exact Or.inr (mem_singleton.mp hnew)

theorem mem_listen_of_mem (hwaiting : waiting ∈ tracker.waitingEnvelopes) :
    waiting ∈ (tracker.listen codec envelope).waitingEnvelopes := by
  unfold Tracker.listen
  dsimp only
  split
  · exact hwaiting
  · exact mem_append_left _ hwaiting

theorem mem_listen_self (hfree : codec.CollisionFree seen) (hseen : envelope ∈ seen)
    (htracker : ∀ waiting ∈ tracker.waitingEnvelopes,
      waiting.1 = codec.hashXdr waiting.2 ∧ waiting.2 ∈ seen) :
    (codec.hashXdr envelope, envelope) ∈ (tracker.listen codec envelope).waitingEnvelopes := by
  unfold Tracker.listen
  dsimp only
  split
  next hany =>
    obtain ⟨waiting, hwaiting, hsame⟩ := any_eq_true.mp hany
    obtain ⟨hhash, hmem⟩ := htracker waiting hwaiting
    have heq := hfree envelope hseen waiting.2 hmem (hhash.symm.trans (beq_iff_eq.mp hsame))
    obtain ⟨hash, waitingEnvelope⟩ := waiting
    dsimp only at hhash heq
    subst hhash heq
    exact hwaiting
  · exact mem_append_right _ mem_cons_self

theorem fetch_of_not_accepts (hrefused : ¬fetcher.Accepts itemHash) :
    fetcher.fetch codec itemHash envelope = (fetcher, false) := by
  unfold Accepts isTracking at hrefused
  push Not at hrefused
  obtain ⟨huntracked, hfull⟩ := hrefused
  unfold fetch
  cases hlookup : fetcher.trackers.lookup itemHash with
  | some tracker => simp [hlookup] at huntracked
  | none => simp [hfull]

theorem Consistent.fetch (hconsistent : fetcher.Consistent codec seen) (hseen : envelope ∈ seen) :
    (fetcher.fetch codec itemHash envelope).1.Consistent codec seen := by
  unfold ItemFetcher.fetch
  split
  next tracker hlookup =>
    apply hconsistent.insert
    intro waiting hwaiting
    rcases mem_listen hwaiting with hold | rfl
    · exact hconsistent itemHash tracker hlookup waiting hold
    · exact ⟨rfl, hseen⟩
  next hlookup =>
    split
    · exact hconsistent
    · apply hconsistent.insert
      intro waiting hwaiting
      rcases mem_listen hwaiting with hold | rfl
      · cases hold
      · exact ⟨rfl, hseen⟩

section

variable (hlists : fetcher.Lists codec other listed)
include hlists

theorem Lists.insert_of_ne (hne : other ≠ itemHash) :
    ({ fetcher with trackers := fetcher.trackers.insert itemHash tracker } :
      ItemFetcher N V H).Lists codec other listed := by
  obtain ⟨found, hlookup, hmem⟩ := hlists
  exact ⟨found, by rw [AList.lookup_insert_ne hne]; exact hlookup, hmem⟩

theorem Lists.erase_of_ne (hne : other ≠ itemHash) :
    ({ fetcher with trackers := fetcher.trackers.erase itemHash } :
      ItemFetcher N V H).Lists codec other listed := by
  obtain ⟨found, hlookup, hmem⟩ := hlists
  exact ⟨found, by rw [AList.lookup_erase_ne hne]; exact hlookup, hmem⟩

theorem Lists.fetch : (fetcher.fetch codec itemHash envelope).1.Lists codec other listed := by
  unfold ItemFetcher.fetch
  split
  next tracker hlookup =>
    by_cases hother : other = itemHash
    · subst hother
      obtain ⟨found, hfound, hmem⟩ := hlists
      rw [hlookup] at hfound
      cases hfound
      exact ⟨_, AList.lookup_insert _, mem_listen_of_mem hmem⟩
    · exact hlists.insert_of_ne hother
  next hlookup =>
    split
    · exact hlists
    · apply hlists.insert_of_ne
      rintro rfl
      obtain ⟨found, hfound, -⟩ := hlists
      rw [hlookup] at hfound
      cases hfound

end

theorem lists_of_fetch (hconsistent : fetcher.Consistent codec seen)
    (hfree : codec.CollisionFree seen) (hseen : envelope ∈ seen)
    (haccepts : fetcher.Accepts itemHash) :
    (fetcher.fetch codec itemHash envelope).2 = true ∧
      (fetcher.fetch codec itemHash envelope).1.Lists codec itemHash envelope := by
  unfold ItemFetcher.fetch
  split
  next tracker hlookup =>
    exact ⟨rfl, _, AList.lookup_insert _,
      mem_listen_self hfree hseen (hconsistent itemHash tracker hlookup)⟩
  next hlookup =>
    have hroom : ¬(fetcher.maxTrackers > 0 ∧
        fetcher.trackers.keys.length ≥ fetcher.maxTrackers) := by
      rcases haccepts with htracked | hroom
      · simp [isTracking, hlookup] at htracked
      · exact hroom
    rw [if_neg hroom]
    exact ⟨rfl, _, AList.lookup_insert _, mem_listen_self hfree hseen nofun⟩

/-! ### Leaving a tracker -/

theorem Consistent.stopFetch (hconsistent : fetcher.Consistent codec seen) :
    (fetcher.stopFetch codec itemHash envelope).Consistent codec seen := by
  unfold ItemFetcher.stopFetch
  split
  · exact hconsistent
  next tracker hlookup =>
    dsimp only
    split
    · exact hconsistent.erase
    · apply hconsistent.insert
      intro waiting hwaiting
      exact hconsistent itemHash tracker hlookup waiting (mem_of_mem_filter hwaiting)

theorem Lists.stopFetch (hlists : fetcher.Lists codec other listed)
    (hne : codec.hashXdr listed ≠ codec.hashXdr envelope) :
    (fetcher.stopFetch codec itemHash envelope).Lists codec other listed := by
  unfold ItemFetcher.stopFetch
  split
  · exact hlists
  next tracker hlookup =>
    dsimp only
    by_cases hother : other = itemHash
    · subst hother
      obtain ⟨found, hfound, hmem⟩ := hlists
      rw [hlookup] at hfound
      cases hfound
      have hkept : (codec.hashXdr listed, listed) ∈
          (tracker.discard codec envelope).waitingEnvelopes := by
        apply mem_filter.mpr
        exact ⟨hmem, by simpa using hne⟩
      have hnonempty : (tracker.discard codec envelope).isEmpty = false := by
        unfold Tracker.isEmpty
        rw [isEmpty_eq_false_iff]
        exact ne_nil_of_mem hkept
      rw [hnonempty]
      exact ⟨_, AList.lookup_insert _, hkept⟩
    · split
      · exact hlists.erase_of_ne hother
      · exact hlists.insert_of_ne hother

theorem Consistent.recv (hconsistent : fetcher.Consistent codec seen) :
    (fetcher.recv itemHash).1.Consistent codec seen :=
  hconsistent.erase

theorem Lists.mem_fetchingFor (hlists : fetcher.Lists codec itemHash envelope) :
    envelope ∈ fetcher.fetchingFor itemHash := by
  obtain ⟨tracker, hlookup, hmem⟩ := hlists
  simp only [fetchingFor, hlookup, Option.map_some, Option.getD_some, mem_map]
  exact ⟨_, hmem, rfl⟩

theorem Consistent.seen_of_fetchingFor (hconsistent : fetcher.Consistent codec seen)
    (hmem : envelope ∈ fetcher.fetchingFor itemHash) : envelope ∈ seen := by
  unfold fetchingFor at hmem
  cases hlookup : fetcher.trackers.lookup itemHash with
  | none => simp [hlookup] at hmem
  | some tracker =>
    simp only [hlookup, Option.map_some, Option.getD_some, mem_map] at hmem
    obtain ⟨waiting, hwaiting, rfl⟩ := hmem
    exact (hconsistent itemHash tracker hlookup waiting hwaiting).2

theorem lookup_stopFetchingOutsideRange (minSlot maxSlot : Option Nat) (slotToKeep : Nat)
    (itemHash : H) :
    (fetcher.stopFetchingOutsideRange minSlot maxSlot slotToKeep).trackers.lookup itemHash =
      (fetcher.trackers.lookup itemHash).bind
        (Tracker.clearEnvelopesOutsideRange minSlot maxSlot slotToKeep) := by
  unfold stopFetchingOutsideRange
  rw [AList.lookup_to_alist]
  have hnodup := fetcher.trackers.nodupKeys
  change dlookup _ _ = (dlookup itemHash fetcher.trackers.entries).bind _
  generalize fetcher.trackers.entries = entries at hnodup
  induction entries with
  | nil => rfl
  | cons entry rest ih =>
    obtain ⟨hash, tracker⟩ := entry
    have hrest := (nodupKeys_cons.mp hnodup).2
    have hfresh := (nodupKeys_cons.mp hnodup).1
    by_cases hsame : itemHash = hash
    · subst hsame
      rw [dlookup_cons_eq, filterMap_cons]
      cases hcleared : tracker.clearEnvelopesOutsideRange minSlot maxSlot slotToKeep with
      | some cleared => simp [hcleared]
      | none =>
        simp only [hcleared, Option.map_none, Option.bind_some]
        rw [ih hrest, dlookup_eq_none.mpr hfresh]
        rfl
    · rw [dlookup_cons_ne _ _ hsame, filterMap_cons, ← ih hrest]
      cases hcleared : tracker.clearEnvelopesOutsideRange minSlot maxSlot slotToKeep with
      | some cleared =>
        exact dlookup_cons_ne _ (⟨hash, cleared⟩ : Sigma fun _ : H => Tracker N V H) hsame
      | none => rfl

theorem Consistent.stopFetchingOutsideRange (hconsistent : fetcher.Consistent codec seen)
    (minSlot maxSlot : Option Nat) (slotToKeep : Nat) :
    (fetcher.stopFetchingOutsideRange minSlot maxSlot slotToKeep).Consistent codec seen := by
  intro itemHash tracker hlookup waiting hwaiting
  rw [lookup_stopFetchingOutsideRange] at hlookup
  obtain ⟨found, hfound, hcleared⟩ := Option.bind_eq_some_iff.mp hlookup
  unfold Tracker.clearEnvelopesOutsideRange at hcleared
  dsimp only at hcleared
  split at hcleared
  · cases hcleared
  · cases hcleared
    exact hconsistent itemHash found hfound waiting (mem_of_mem_filter hwaiting)

theorem Lists.stopFetchingOutsideRange {minSlot maxSlot : Option Nat} {slotToKeep : Nat}
    (hlists : fetcher.Lists codec itemHash envelope)
    (hkeeps : keepsSlot minSlot maxSlot slotToKeep envelope.statement.slotIndex = true) :
    (fetcher.stopFetchingOutsideRange minSlot maxSlot slotToKeep).Lists codec itemHash
      envelope := by
  obtain ⟨tracker, hlookup, hmem⟩ := hlists
  have hkept : (codec.hashXdr envelope, envelope) ∈ tracker.waitingEnvelopes.filter
      fun waiting => keepsSlot minSlot maxSlot slotToKeep waiting.2.statement.slotIndex :=
    mem_filter.mpr ⟨hmem, hkeeps⟩
  have hnonempty : (tracker.waitingEnvelopes.filter fun waiting =>
      keepsSlot minSlot maxSlot slotToKeep waiting.2.statement.slotIndex).isEmpty = false := by
    rw [isEmpty_eq_false_iff]
    exact ne_nil_of_mem hkept
  have hcleared : ∃ cleared,
      tracker.clearEnvelopesOutsideRange minSlot maxSlot slotToKeep = some cleared ∧
        (codec.hashXdr envelope, envelope) ∈ cleared.waitingEnvelopes := by
    unfold Tracker.clearEnvelopesOutsideRange
    dsimp only
    rw [hnonempty]
    exact ⟨_, rfl, hkept⟩
  obtain ⟨cleared, hcleared, hmem⟩ := hcleared
  refine ⟨cleared, ?_, hmem⟩
  rw [lookup_stopFetchingOutsideRange, hlookup]
  exact hcleared

end ItemFetcher

end Henyey.Herder
