import Henyey.Herder.IntakeSteps

/-!
# No envelope is stranded

A parked envelope is listed by the tracker of something it misses, or a thread still has to
look at it. This holds as long as no fetch that it depends on is refused when it is checked
again, no stale reception registers or drops it, and trimming clears no tracker that the
envelope of a kept slot depends on.
-/

namespace Henyey.Herder

open Scp FetchingEnvelopes List

variable {N V H : Type} [DecidableEq N] [LinearOrder V] [DecidableEq H]

namespace Intake

section Statements

variable (codec : Codec N V H) (s : Intake N V H)

/-- A thread still has to register the fetches of the envelope or to check it. -/
def Pending (envelope : ScpEnvelope N V H) : Prop :=
  (∃ reception ∈ s.receptions, reception.envelope = envelope) ∨ envelope ∈ s.rechecks

/-- A tracker lists the envelope for something that it misses, or that has just arrived and
whose envelopes are about to be looked for. -/
def Anchored (envelope : ScpEnvelope N V H) : Prop :=
  ∃ dependency ∈ dependencies codec envelope,
    (¬s.state.Available envelope.statement.slotIndex dependency ∨ dependency ∈ s.announced) ∧
      s.state.Lists codec dependency envelope

/-- Every parked envelope is waited for, and every envelope that was parked and not given up
is ready or popped as soon as it misses nothing. -/
structure NoneStranded : Prop where
  anchored : ∀ envelope, s.state.Parked codec envelope →
    s.Pending envelope ∨ s.Anchored codec envelope
  held : ∀ envelope ∈ s.owed, s.state.Parked codec envelope ∨ s.state.Delivered codec envelope
  delivered : ∀ envelope ∈ s.owed, ¬s.Pending envelope →
    (∀ dependency ∈ dependencies codec envelope,
      s.state.Available envelope.statement.slotIndex dependency ∧ dependency ∉ s.announced) →
    s.state.Delivered codec envelope

/-- Registering the fetches of this reception leaves its envelope anchored, or drops it
while something is missing. -/
def Registers (index : Nat) (reception : Reception N V H) : Prop :=
  let envelope := reception.envelope
  let slot := envelope.statement.slotIndex
  let tracks := s.state.Tracks envelope codec reception.needTxSet reception.needQuorumSet
  ¬s.state.Parked codec envelope ∨
    (tracks →
      { s with receptions := s.receptions.eraseIdx index }.Pending envelope ∨
        s.Anchored codec envelope ∨
        ∃ dependency ∈ dependencies codec envelope, ¬s.state.Available slot dependency ∧
          (match dependency with
            | .txSet _ => reception.needTxSet = true
            | .quorumSet _ => reception.needQuorumSet = true) ∧
          s.state.Accepts dependency) ∧
    (¬tracks → ∃ dependency ∈ dependencies codec envelope, ¬s.state.Available slot dependency)

/-- Checking this envelope moves it on or leaves it anchored. -/
def Rechecks (index : Nat) (envelope : ScpEnvelope N V H) : Prop :=
  let slot := envelope.statement.slotIndex
  ¬s.state.Parked codec envelope ∨
    { s with rechecks := s.rechecks.eraseIdx index }.Pending envelope ∨
    s.Anchored codec envelope ∨
    (∀ dependency ∈ dependencies codec envelope, s.state.Available slot dependency) ∨
    ∃ dependency ∈ dependencies codec envelope,
      ¬s.state.Available slot dependency ∧ s.state.Accepts dependency

/-- The envelopes of the slots that are kept do not depend on a transaction set tracker. -/
def Trims (keepAfterSlot : Nat) : Prop :=
  ∀ envelope, s.state.Parked codec envelope → keepAfterSlot < envelope.statement.slotIndex →
    s.Pending envelope ∨
      ∃ hash, .quorumSet hash ∈ dependencies codec envelope ∧
        (¬s.state.Available envelope.statement.slotIndex (.quorumSet hash) ∨
          .quorumSet hash ∈ s.announced) ∧
        s.state.Lists codec (.quorumSet hash) envelope

def Spares : Action N V H → Prop
  | .register index => ∀ reception, s.receptions[index]? = some reception →
      s.Registers codec index reception
  | .recheck index => ∀ envelope, s.rechecks[index]? = some envelope →
      s.Rechecks codec index envelope
  | .trimStale keepAfterSlot => s.Trims codec keepAfterSlot
  | _ => True

/-- The states of runs in which every action is an allowed one. In between a hash map may
change its order. -/
inductive Reachable (config : FetchingConfig) (allowed : Intake N V H → Action N V H → Prop) :
    Intake N V H → Prop where
  | new (hasTxSet : H → Nat → Bool) : Reachable config allowed (.new config hasTxSet)
  | perform {s : Intake N V H} (action : Action N V H) :
      Reachable config allowed s → allowed s action →
        Reachable config allowed (s.perform codec action)
  | rehash {s : Intake N V H} (slot : Nat) {slotState : SlotEnvelopes N V H}
      (fetching : AList fun _ : H => FetchingEntry N V H) :
      Reachable config allowed s → s.state.slots.lookup slot = some slotState →
        fetching.entries.Perm slotState.fetching.entries →
        Reachable config allowed { s with
          state := s.state.setSlot slot { slotState with fetching } }

end Statements

/-! ### The invariant -/

variable {codec : Codec N V H} {s : Intake N V H} {envelope : ScpEnvelope N V H}

structure Kept (codec : Codec N V H) (s : Intake N V H) : Prop where
  filed : s.state.Filed codec s.seen
  txConsistent : s.state.txSetFetcher.Consistent codec s.seen
  quorumSetConsistent : s.state.quorumSetFetcher.Consistent codec s.seen
  receptionsSeen : ∀ reception ∈ s.receptions, reception.envelope ∈ s.seen
  rechecksSeen : ∀ envelope ∈ s.rechecks, envelope ∈ s.seen
  owedSeen : ∀ envelope ∈ s.owed, envelope ∈ s.seen
  anchored : ∀ envelope, s.state.Parked codec envelope →
    s.Pending envelope ∨ s.Anchored codec envelope
  held : ∀ envelope ∈ s.owed, s.state.Parked codec envelope ∨ s.state.Delivered codec envelope

/-- Fetching, trackers and caches are the same, and no less is delivered. -/
structure Alike (codec : Codec N V H) (state state' : FetchingEnvelopes N V H) : Prop where
  lookup : ∀ slot hash, (state'.slotState slot).fetching.lookup hash =
    (state.slotState slot).fetching.lookup hash
  delivered : ∀ envelope, state.Delivered codec envelope → state'.Delivered codec envelope
  txSetFetcher : state'.txSetFetcher = state.txSetFetcher
  quorumSetFetcher : state'.quorumSetFetcher = state.quorumSetFetcher
  hasTxSet : state'.hasTxSet = state.hasTxSet
  quorumSetCache : state'.quorumSetCache = state.quorumSetCache

namespace Alike

variable {state state' : FetchingEnvelopes N V H}

section

variable (halike : Alike codec state state')
include halike

section

omit [DecidableEq N] [LinearOrder V]

theorem parked : state'.Parked codec envelope ↔ state.Parked codec envelope := by
  unfold FetchingEnvelopes.Parked
  rw [halike.lookup]

theorem available (slot : Nat) (dependency : Dependency H) :
    state'.Available slot dependency ↔ state.Available slot dependency := by
  cases dependency with
  | txSet hash => simp [FetchingEnvelopes.Available, halike.hasTxSet]
  | quorumSet hash => simp [FetchingEnvelopes.Available, halike.quorumSetCache]

theorem lists (dependency : Dependency H) :
    state'.Lists codec dependency envelope ↔ state.Lists codec dependency envelope := by
  cases dependency with
  | txSet hash => simp [FetchingEnvelopes.Lists, fetcherOf, halike.txSetFetcher]
  | quorumSet hash =>
    simp [FetchingEnvelopes.Lists, fetcherOf, halike.quorumSetFetcher]

end

end

end Alike

theorem Kept.see (hkept : s.Kept codec) (envelope : ScpEnvelope N V H) :
    { s with seen := envelope :: s.seen }.Kept codec where
  filed := hkept.filed.mono (subset_cons_self _ _)
  txConsistent := hkept.txConsistent.mono (subset_cons_self _ _)
  quorumSetConsistent := hkept.quorumSetConsistent.mono (subset_cons_self _ _)
  receptionsSeen reception hreception :=
    mem_cons_of_mem _ (hkept.receptionsSeen reception hreception)
  rechecksSeen other hother := mem_cons_of_mem _ (hkept.rechecksSeen other hother)
  owedSeen other hother := mem_cons_of_mem _ (hkept.owedSeen other hother)
  __ := hkept

theorem Kept.of_alike (hkept : s.Kept codec) {state' : FetchingEnvelopes N V H}
    (halike : Alike codec s.state state') : { s with state := state' }.Kept codec where
  filed := hkept.filed.of_lookup fun slot hash entry hlookup => by
    rwa [halike.lookup] at hlookup
  txConsistent := by
    dsimp only
    rw [halike.txSetFetcher]
    exact hkept.txConsistent
  quorumSetConsistent := by
    dsimp only
    rw [halike.quorumSetFetcher]
    exact hkept.quorumSetConsistent
  __ := hkept
  anchored other hparked := by
    refine (hkept.anchored other (halike.parked.mp hparked)).imp (fun h => h) ?_
    rintro ⟨dependency, hdependency, hmissing, hlists⟩
    refine ⟨dependency, hdependency, ?_, (halike.lists dependency).mpr hlists⟩
    exact hmissing.imp_left fun h havailable => h ((halike.available _ _).mp havailable)
  held other hother := (hkept.held other hother).imp halike.parked.mpr (halike.delivered other)

/-! ### Receiving -/

variable (codec) in
theorem alike_setSlot {state : FetchingEnvelopes N V H} {slot : Nat}
    {slotState : SlotEnvelopes N V H} (ready : List (ScpEnvelope N V H))
    (hstate : state.slotState slot = slotState) :
    Alike codec state (state.setSlot slot { slotState with ready := slotState.ready ++ ready }) where
  lookup other hash := by
    rw [slotState_setSlot]
    split
    next hother => rw [hother, hstate]
    · rfl
  delivered other hdelivered := by
    refine delivered_setSlot ?_ ?_ hdelivered
    · rw [hstate]
      exact fun _ hready => Or.inl (mem_append_left _ hready)
    · rw [hstate]
  txSetFetcher := rfl
  quorumSetFetcher := rfl
  hasTxSet := rfl
  quorumSetCache := rfl

section

omit [DecidableEq N] [LinearOrder V]

theorem Alike.refl (state : FetchingEnvelopes N V H) : Alike codec state state :=
  ⟨fun _ _ => rfl, fun _ h => h, rfl, rfl, rfl, rfl⟩

theorem Alike.trans {state state' state'' : FetchingEnvelopes N V H}
    (hfirst : Alike codec state state') (hsecond : Alike codec state' state'') :
    Alike codec state state'' where
  lookup slot hash := (hsecond.lookup slot hash).trans (hfirst.lookup slot hash)
  delivered other hdelivered := hsecond.delivered other (hfirst.delivered other hdelivered)
  txSetFetcher := hsecond.txSetFetcher.trans hfirst.txSetFetcher
  quorumSetFetcher := hsecond.quorumSetFetcher.trans hfirst.quorumSetFetcher
  hasTxSet := hsecond.hasTxSet.trans hfirst.hasTxSet
  quorumSetCache := hsecond.quorumSetCache.trans hfirst.quorumSetCache

end

theorem alike_broadcastEnvelope (state : FetchingEnvelopes N V H) (envelope : ScpEnvelope N V H)
    (receivedAt : Option Nat) (readyPath : ReadyPath) :
    Alike codec state (state.broadcastEnvelope envelope receivedAt readyPath) := by
  unfold broadcastEnvelope
  split
  · exact ⟨fun _ _ => rfl, fun _ h => h, rfl, rfl, rfl, rfl⟩
  · exact Alike.refl state

variable (codec) in
theorem alike_setSlot_same (state : FetchingEnvelopes N V H) (slot : Nat) :
    Alike codec state (state.setSlot slot (state.slotState slot)) := by
  have hsame := alike_setSlot codec [] (rfl : state.slotState slot = _)
  simpa using hsame

variable {state state' : FetchingEnvelopes N V H}

/-- Nothing is parked: at most the envelope is ready. -/
theorem alike_enter {receivedAt : Option Nat} {result : RecvResult}
    (henter : state.enter codec envelope receivedAt = (state', result, none)) :
    Alike codec state state' := by
  have hsame := alike_setSlot_same codec state envelope.statement.slotIndex
  unfold enter at henter
  dsimp only at henter
  split at henter
  · cases henter
    exact Alike.refl state
  split at henter
  · cases henter
    exact hsame
  split at henter
  · cases henter
    exact hsame
  split at henter
  · cases henter
    exact hsame
  split at henter
  · cases henter
    exact hsame
  split at henter
  · cases henter
    refine Alike.trans ?_ (alike_broadcastEnvelope _ envelope receivedAt .immediate)
    refine hsame.trans (alike_setSlot codec [envelope] ?_)
    rw [slotState_setSlot, if_pos rfl]
  · cases henter

theorem parked_enter {receivedAt : Option Nat} {result : RecvResult} {needs : Bool × Bool}
    (henter : state.enter codec envelope receivedAt = (state', result, some needs)) :
    (∀ slot hash, (state'.slotState slot).fetching.lookup hash =
      if slot = envelope.statement.slotIndex ∧ hash = computeEnvelopeHash codec envelope then
        some { envelope, receivedAt }
      else (state.slotState slot).fetching.lookup hash) ∧
    (∀ other, state.Delivered codec other → state'.Delivered codec other) ∧
    state'.txSetFetcher = state.txSetFetcher ∧
    state'.quorumSetFetcher = state.quorumSetFetcher ∧
    state'.hasTxSet = state.hasTxSet ∧ state'.quorumSetCache = state.quorumSetCache := by
  unfold enter at henter
  dsimp only at henter
  split at henter
  · cases henter
  split at henter
  · cases henter
  split at henter
  · cases henter
  split at henter
  · cases henter
  split at henter
  · cases henter
  split at henter
  · cases henter
  · cases henter
    refine ⟨fun slot hash => ?_, fun other hdelivered => ?_, rfl, rfl, rfl, rfl⟩
    · rw [slotState_setSlot]
      by_cases hslot : slot = envelope.statement.slotIndex
      · subst hslot
        by_cases hhash : hash = computeEnvelopeHash codec envelope
        · subst hhash
          simp
        · simp [hhash]
      · simp [hslot, slotState_setSlot]
    · have hsame := alike_setSlot_same codec state envelope.statement.slotIndex
      refine delivered_setSlot ?_ ?_ (hsame.delivered other hdelivered)
      · rw [slotState_setSlot, if_pos rfl]
        exact fun _ hready => Or.inl hready
      · rw [slotState_setSlot, if_pos rfl]

theorem Kept.receive (hkept : s.Kept codec) (receivedAt : Option Nat)
    (hfree : codec.CollisionFree (envelope :: s.seen)) :
    (s.receive codec envelope receivedAt).Kept codec := by
  have hseen := hkept.see envelope
  unfold Intake.receive
  dsimp only
  split
  · exact hseen
  split
  next state result henter => exact hseen.of_alike (alike_enter henter)
  next state result needTxSet needQuorumSet henter =>
    obtain ⟨hlookup, hdelivered, htx, hquorumSet, hhas, hcache⟩ := parked_enter henter
    have hself : state.Parked codec envelope := by
      refine ⟨{ envelope, receivedAt }, ?_, rfl⟩
      rw [hlookup, if_pos ⟨rfl, rfl⟩]
    have hold : ∀ other ∈ envelope :: s.seen, other ≠ envelope →
        (state.Parked codec other ↔ s.state.Parked codec other) := by
      intro other hother hne
      unfold FetchingEnvelopes.Parked
      rw [hlookup, if_neg]
      rintro ⟨-, hhash⟩
      exact hne (hfree envelope mem_cons_self other hother hhash)
    have hfiled : state.Filed codec (envelope :: s.seen) := by
      intro slot hash entry hentry
      rw [hlookup] at hentry
      split at hentry
      next hsame =>
        cases hentry
        exact ⟨hsame.1.symm, hsame.2.symm, mem_cons_self⟩
      · exact hseen.filed slot hash entry hentry
    refine {
      filed := hfiled
      txConsistent := by
        dsimp only
        rw [htx]
        exact hseen.txConsistent
      quorumSetConsistent := by
        dsimp only
        rw [hquorumSet]
        exact hseen.quorumSetConsistent
      receptionsSeen := ?_
      rechecksSeen := hseen.rechecksSeen
      owedSeen := ?_
      anchored := ?_
      held := ?_ }
    · intro reception hreception
      rcases mem_cons.mp hreception with rfl | hrest
      · exact mem_cons_self
      · exact hseen.receptionsSeen reception hrest
    · intro other hother
      rcases mem_cons.mp hother with rfl | hrest
      · exact mem_cons_self
      · exact hseen.owedSeen other hrest
    · intro other hparked
      by_cases hne : other = envelope
      · exact Or.inl (Or.inl ⟨_, mem_cons_self, hne.symm⟩)
      · have hwas := (hold other (hfiled.seen_of_parked hparked) hne).mp hparked
        rcases hkept.anchored other hwas with hpending | ⟨dependency, hmem, hmissing, hlists⟩
        · refine Or.inl (hpending.imp_left ?_)
          rintro ⟨reception, hreception, hsame⟩
          exact ⟨reception, mem_cons_of_mem _ hreception, hsame⟩
        · refine Or.inr ⟨dependency, hmem, ?_, ?_⟩
          · refine hmissing.imp_left fun h havailable => h ?_
            cases dependency with
            | txSet hash =>
              simpa [FetchingEnvelopes.Available, hhas] using havailable
            | quorumSet hash =>
              simpa [FetchingEnvelopes.Available, hcache] using havailable
          · cases dependency with
            | txSet hash =>
              simpa [FetchingEnvelopes.Lists, fetcherOf, htx] using hlists
            | quorumSet hash =>
              simpa [FetchingEnvelopes.Lists, fetcherOf, hquorumSet] using hlists
    · intro other hother
      rcases mem_cons.mp hother with rfl | hrest
      · exact Or.inl hself
      · by_cases hne : other = envelope
        · exact Or.inl (hne ▸ hself)
        · refine (hkept.held other hrest).imp ?_ (hdelivered other)
          exact (hold other (hseen.owedSeen other hrest) hne).mpr

end Intake

end Henyey.Herder
