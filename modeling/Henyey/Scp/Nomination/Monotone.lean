import Henyey.Scp.Nomination.Protocol

/-!
# Nomination only grows

Every call extends the state it starts from: votes, accepted values, candidates
and recorded nominations only gain values, and what is sent keeps getting
newer.
-/

namespace Henyey.Scp

open Foundation NominationProtocol

variable {N V H : Type} [LinearOrder V]

/-! ### The order of nominations -/

theorem toFinset_subset_iff {values values' : List V} :
    values.toFinset ⊆ values'.toFinset ↔ values ⊆ values' := by
  simp [Finset.subset_iff, List.subset_def]

theorem isNewerNomination_iff {oldNom newNom : ScpNomination V H} :
    isNewerNomination oldNom newNom = true ↔
      oldNom.votes ⊆ newNom.votes ∧ oldNom.accepted ⊆ newNom.accepted ∧
        (oldNom.votes.toFinset.card < newNom.votes.toFinset.card ∨
          oldNom.accepted.toFinset.card < newNom.accepted.toFinset.card) := by
  simp only [isNewerNomination, Bool.and_eq_true, Bool.or_eq_true, decide_eq_true_eq,
    toFinset_subset_iff]
  tauto

theorem isNewerNomination_trans {a b c : ScpNomination V H} (hab : isNewerNomination a b = true)
    (hbc : isNewerNomination b c = true) : isNewerNomination a c = true := by
  obtain ⟨hvotes, haccepted, hgrew⟩ := isNewerNomination_iff.mp hab
  obtain ⟨hvotes', haccepted', _⟩ := isNewerNomination_iff.mp hbc
  have hcard := Finset.card_le_card (toFinset_subset_iff.mpr hvotes')
  have hcard' := Finset.card_le_card (toFinset_subset_iff.mpr haccepted')
  refine isNewerNomination_iff.mpr
    ⟨List.Subset.trans hvotes hvotes', List.Subset.trans haccepted haccepted', ?_⟩
  exact hgrew.imp (fun h => h.trans_le hcard) (fun h => h.trans_le hcard')

def ScpEnvelope.nomination? (envelope : ScpEnvelope N V H) : Option (ScpNomination V H) :=
  match envelope.statement.pledges with
  | .nominate nomination => some nomination
  | _ => none

def NewerNomination (earlier later : ScpEnvelope N V H) : Prop :=
  ∃ old ∈ earlier.nomination?, ∃ new ∈ later.nomination?, isNewerNomination old new = true

theorem NewerNomination.trans {a b c : ScpEnvelope N V H} (hab : NewerNomination a b)
    (hbc : NewerNomination b c) : NewerNomination a c := by
  obtain ⟨old, hold, mid, hmid, hnewer⟩ := hab
  obtain ⟨mid', hmid', new, hnew, hnewer'⟩ := hbc
  obtain rfl := Option.mem_unique hmid hmid'
  exact ⟨old, hold, new, hnew, isNewerNomination_trans hnewer hnewer'⟩

/-- Both lists are strictly increasing, and accepted values are voted for. -/
structure ScpNomination.WellFormed (nomination : ScpNomination V H) : Prop where
  votes : nomination.votes.Pairwise (· < ·)
  accepted : nomination.accepted.Pairwise (· < ·)
  subset : nomination.accepted ⊆ nomination.votes

theorem sortedValues_pairwise (values : List V) : (sortedValues values).Pairwise (· < ·) := by
  have hle : (sortedValues values).Pairwise (· ≤ ·) := List.pairwise_insertionSort _ _
  have hnodup : (sortedValues values).Nodup := by
    unfold sortedValues
    rw [(List.perm_insertionSort _ _).nodup_iff]
    exact List.nodup_dedup values
  exact hle.imp_of_mem (fun _ _ h => h) |>.and hnodup |>.imp fun h => lt_of_le_of_ne h.1 h.2

variable [LinearOrder N] [DecidableEq H]

def NominationProtocol.nomination? (s : NominationProtocol N V H) (node : N) :
    Option (ScpNomination V H) :=
  (s.latestNominations.lookup node).bind ScpEnvelope.nomination?

omit [DecidableEq H] in
theorem isNewerNominationInternal_iff {s : NominationProtocol N V H} {node : N}
    {nomination : ScpNomination V H} : isNewerNominationInternal s node nomination = true ↔
      ∀ old ∈ s.nomination? node, isNewerNomination old nomination = true := by
  unfold isNewerNominationInternal nomination? Envelopes.statement?
  cases s.latestNominations.lookup node with
  | none => simp
  | some envelope =>
    simp only [Option.map_some, Option.bind_some, ScpEnvelope.nomination?]
    cases envelope.statement.pledges <;> simp

/-! ### Extensions -/

/-- What holds between calls: candidates are accepted and accepted values are
voted for; what was sent last is the last own envelope or older, and all that
was sent is well formed and rising. -/
structure Nominates (c : Nomination N V H) : Prop where
  accepted : c.state.accepted ⊆ c.state.votes
  candidates : c.state.candidates ⊆ c.state.accepted
  last : ∀ l ∈ c.state.lastEnvelope, ∃ nomination ∈ l.nomination?, nomination.WellFormed
  sent : ∀ e ∈ c.state.lastEnvelopeEmit, ∃ l ∈ c.state.lastEnvelope, l = e ∨ NewerNomination e l
  head : (emitted c.log).head? = c.state.lastEnvelopeEmit
  wellFormed : ∀ e ∈ emitted c.log, ∃ nomination ∈ e.nomination?, nomination.WellFormed
  rising : (emitted c.log).Pairwise fun later earlier => NewerNomination earlier later

/-- Nothing is lost and what held before holds after. -/
structure Extends (c c' : Nomination N V H) : Prop where
  votes : c.state.votes ⊆ c'.state.votes
  accepted : c.state.accepted ⊆ c'.state.accepted
  candidates : c.state.candidates ⊆ c'.state.candidates
  recorded : ∀ node, ∀ old ∈ c.state.nomination? node, ∃ new ∈ c'.state.nomination? node,
    old.votes ⊆ new.votes ∧ old.accepted ⊆ new.accepted
  log : Appends (fun e => e.decides = false) c c'
  nominates : Nominates c → Nominates c'

namespace Extends

variable {a b c : Nomination N V H}

section

omit [DecidableEq H]

theorem refl (c : Nomination N V H) : Extends c c :=
  ⟨List.Subset.refl _, List.Subset.refl _, List.Subset.refl _,
    fun _ old hold => ⟨old, hold, List.Subset.refl _, List.Subset.refl _⟩, Appends.refl c, id⟩

theorem trans (hab : Extends a b) (hbc : Extends b c) : Extends a c where
  votes := List.Subset.trans hab.votes hbc.votes
  accepted := List.Subset.trans hab.accepted hbc.accepted
  candidates := List.Subset.trans hab.candidates hbc.candidates
  recorded := by
    intro node old hold
    obtain ⟨mid, hmid, hvotes, haccepted⟩ := hab.recorded node old hold
    obtain ⟨new, hnew, hvotes', haccepted'⟩ := hbc.recorded node mid hmid
    exact ⟨new, hnew, List.Subset.trans hvotes hvotes', List.Subset.trans haccepted haccepted'⟩
  log := hab.log.trans hbc.log
  nominates := fun h => hbc.nominates (hab.nominates h)

/-- Bookkeeping: the sets, the records and the own envelopes stay, and nothing
is sent. -/
theorem of_same (hvotes : b.state.votes = a.state.votes)
    (haccepted : b.state.accepted = a.state.accepted)
    (hcandidates : b.state.candidates = a.state.candidates)
    (hrecorded : b.state.latestNominations = a.state.latestNominations)
    (hlast : b.state.lastEnvelope = a.state.lastEnvelope)
    (hsent : b.state.lastEnvelopeEmit = a.state.lastEnvelopeEmit)
    (hemitted : emitted b.log = emitted a.log) (hlog : Appends (fun e => e.decides = false) a b) :
    Extends a b where
  votes := hvotes ▸ List.Subset.refl _
  accepted := haccepted ▸ List.Subset.refl _
  candidates := hcandidates ▸ List.Subset.refl _
  recorded := by
    intro node old hold
    refine ⟨old, ?_, List.Subset.refl _, List.Subset.refl _⟩
    unfold nomination? at hold ⊢
    rwa [hrecorded]
  log := hlog
  nominates := fun h =>
    { accepted := by rw [haccepted, hvotes]; exact h.accepted
      candidates := by rw [hcandidates, haccepted]; exact h.candidates
      last := by rw [hlast]; exact h.last
      sent := by rw [hlast, hsent]; exact h.sent
      head := by rw [hemitted, hsent]; exact h.head
      wellFormed := by rw [hemitted]; exact h.wellFormed
      rising := by rw [hemitted]; exact h.rising }

/-- A callback that neither sends nor decides. -/
theorem notify (c : Nomination N V H) {e : ScpEvent N V H} (hsilent : e.emittedEnvelope = none)
    (hdecides : e.decides = false) : Extends c (c.notify e) := by
  refine of_same rfl rfl rfl rfl rfl rfl ?_ (Appends.notify c hdecides)
  simp [emitted, hsilent]

theorem ite {p : Prop} [Decidable p] (hb : Extends a b) (hc : Extends a c) :
    Extends a (if p then b else c) := by
  split
  · exact hb
  · exact hc

end

end Extends

/-! ### Gaining values -/

omit [LinearOrder N] [DecidableEq H] in
theorem insertUnique_spec (values : List V) (value : V) :
    values ⊆ (insertUnique values value).2 ∧ value ∈ (insertUnique values value).2 ∧
      ∀ v ∈ (insertUnique values value).2, v ∈ values ∨ v = value := by
  unfold insertUnique
  split
  next hmem => exact ⟨List.Subset.refl _, hmem, fun v hv => .inl hv⟩
  · refine ⟨List.subset_append_left _ _, by simp, fun v hv => ?_⟩
    rcases List.mem_append.mp hv with hv | hv
    · exact .inl hv
    · exact .inr (List.mem_singleton.mp hv)

section

omit [DecidableEq H]

theorem mem_insertOrdered {α : Type} [LinearOrder α] {a b : α} {members : List α} :
    b ∈ insertOrdered a members ↔ b = a ∨ b ∈ members := by
  unfold insertOrdered
  split
  next hmem =>
    refine ⟨.inr, ?_⟩
    rintro (rfl | hb)
    · exact hmem
    · exact hb
  · exact List.mem_orderedInsert _

theorem insertVote_extends (value : V) (c : Nomination N V H) :
    Extends c (insertVote value c).2 := by
  obtain ⟨hsub, -, -⟩ := insertUnique_spec c.state.votes value
  exact
    { votes := hsub
      accepted := List.Subset.refl _
      candidates := List.Subset.refl _
      recorded := (Extends.refl c).recorded
      log := Appends.refl c
      nominates := fun h =>
        ⟨List.Subset.trans h.accepted hsub, h.candidates, h.last, h.sent, h.head, h.wellFormed,
          h.rising⟩ }

theorem announceVote_extends (value : V) (c : Nomination N V H) :
    Extends c (announceVote value c).2 := by
  have hvoted := insertVote_extends value c
  unfold announceVote
  dsimp only
  split
  · exact hvoted.trans (Extends.notify _ rfl rfl)
  · exact hvoted

theorem acceptValue_extends (value : V) (c : Nomination N V H) :
    Extends c (acceptValue value c).2 := by
  obtain ⟨hvotes, hvoted, -⟩ := insertUnique_spec c.state.votes value
  obtain ⟨haccepted, -, honly⟩ := insertUnique_spec c.state.accepted value
  unfold acceptValue
  dsimp only
  split
  · refine
      { votes := hvotes
        accepted := haccepted
        candidates := List.Subset.refl _
        recorded := (Extends.refl c).recorded
        log := Appends.refl c
        nominates := fun h =>
          ⟨fun v hv => ?_, List.Subset.trans h.candidates haccepted, h.last, h.sent, h.head,
            h.wellFormed, h.rising⟩ }
    rcases honly v hv with hv | rfl
    · exact hvotes (h.accepted hv)
    · exact hvoted
  next hold =>
    -- The value was accepted already.
    have hsame : (insertUnique c.state.accepted value).2 = c.state.accepted := by
      change ¬(insertUnique c.state.accepted value).1 = true at hold
      unfold insertUnique at hold ⊢
      split at hold
      next hmem => rw [if_pos hmem]
      · simp at hold
    exact Extends.of_same rfl hsame rfl rfl rfl rfl rfl (Appends.refl _)

theorem validateValue_extends (driver : SCPDriver N V H) (value : V) (c : Nomination N V H) :
    Extends c (validateValue driver value true c).2 :=
  Extends.notify c rfl rfl

theorem extractValidValue_extends (driver : SCPDriver N V H) (value : V)
    (c : Nomination N V H) : Extends c (extractValidValue driver value c).2 :=
  Extends.notify c rfl rfl

end

variable (ctx : SlotContext N V H)

omit [DecidableEq H] in
theorem promoteVote_extends (value : V) (c : Nomination N V H) :
    Extends c (promoteVote ctx value c).2 := by
  have hvalidated := validateValue_extends ctx.driver value c
  unfold promoteVote
  dsimp only
  split
  · exact hvalidated.trans (acceptValue_extends value _)
  · have hextracted := extractValidValue_extends ctx.driver value
      (validateValue ctx.driver value true c).2
    split
    next extracted c' heq =>
      rw [heq] at hextracted
      exact (hvalidated.trans hextracted).trans (insertVote_extends extracted c')
    next c' heq =>
      rw [heq] at hextracted
      exact hvalidated.trans hextracted

theorem acceptVotes_extends (votes : List V) (c : Nomination N V H) :
    Extends c (acceptVotes ctx votes c).2 := by
  induction votes generalizing c with
  | nil => exact Extends.refl c
  | cons value rest ih =>
    unfold acceptVotes
    split
    · exact ih c
    · split
      · exact ih c
      · exact (promoteVote_extends ctx value c).trans (ih _)

theorem ratifyAccepted_extends (values : List V) (c : Nomination N V H)
    (haccepted : values ⊆ c.state.accepted) : Extends c (ratifyAccepted ctx values c).2 := by
  induction values generalizing c with
  | nil => exact Extends.refl c
  | cons value rest ih =>
    obtain ⟨hvalue, hrest⟩ := List.cons_subset.mp haccepted
    unfold ratifyAccepted
    split
    · exact ih c hrest
    · split
      · have hconfirmed : Extends c (c.modify fun s =>
            { s with candidates := insertOrdered value s.candidates }) :=
          { votes := List.Subset.refl _
            accepted := List.Subset.refl _
            candidates := fun v hv => mem_insertOrdered.mpr (.inr hv)
            recorded := (Extends.refl c).recorded
            log := Appends.refl c
            nominates := fun h =>
              ⟨h.accepted, fun v hv => (mem_insertOrdered.mp hv).elim (fun heq => heq ▸ hvalue)
                (fun hv => h.candidates hv), h.last, h.sent, h.head, h.wellFormed, h.rising⟩ }
        exact (hconfirmed.trans (Extends.notify _ rfl rfl)).trans (ih _ hrest)
      · exact ih c hrest

theorem attemptPromote_extends (votesToCheck : List V) (c : Nomination N V H) :
    Extends c (attemptPromote ctx votesToCheck c).2 :=
  (acceptVotes_extends ctx votesToCheck c).trans
    (ratifyAccepted_extends ctx _ _ (List.Subset.refl _))

omit [DecidableEq H] in
theorem updateComposite_extends (c : Nomination N V H) : Extends c (updateComposite ctx c) := by
  unfold updateComposite
  split
  · exact Extends.refl c
  · have hcombined : Extends c (c.notify (.combineCandidates c.state.candidates)) :=
      Extends.notify c rfl rfl
    dsimp only
    split
    · exact hcombined
    · split
      · exact hcombined
      · exact (hcombined.trans (Extends.notify _ rfl rfl)).trans
          (Extends.of_same rfl rfl rfl rfl rfl rfl rfl (Appends.refl _))

/-! ### New votes -/

section

omit [DecidableEq H]

theorem validCandidate_extends (driver : SCPDriver N V H) (value : V) (c : Nomination N V H) :
    Extends c (validCandidate driver value c).2 := by
  have hvalidated := validateValue_extends driver value c
  unfold validCandidate
  dsimp only
  split
  · exact hvalidated
  · exact hvalidated.trans (extractValidValue_extends driver value _)

theorem considerValue_extends (value : V) (found : NewValue V) (c : Nomination N V H) :
    Extends c (considerValue ctx value found c).2 := by
  have hcandidate := validCandidate_extends ctx.driver value c
  unfold considerValue
  split
  next c' heq =>
    rw [heq] at hcandidate
    exact hcandidate
  next candidate c' heq =>
    rw [heq] at hcandidate
    dsimp only
    split <;> exact hcandidate

theorem considerValues_extends (values : List V) (found : NewValue V) (c : Nomination N V H) :
    Extends c (considerValues ctx values found c).2 := by
  induction values generalizing found c with
  | nil => exact Extends.refl c
  | cons value rest ih => exact (considerValue_extends ctx value found c).trans (ih _ _)

theorem getNewValueFromNomination_extends (nomination : ScpNomination V H)
    (c : Nomination N V H) : Extends c (getNewValueFromNomination ctx nomination c).2 := by
  have haccepted := considerValues_extends ctx nomination.accepted ⟨false, none⟩ c
  unfold getNewValueFromNomination
  dsimp only
  split
  · exact haccepted
  · exact haccepted.trans (considerValues_extends ctx nomination.votes _ _)

theorem adoptValue_extends (nomination : ScpNomination V H) (c : Nomination N V H) :
    Extends c (adoptValue ctx nomination c).2 := by
  have hoffered := getNewValueFromNomination_extends ctx nomination c
  unfold adoptValue
  split
  next newVote c' heq =>
    rw [heq] at hoffered
    exact hoffered.trans (announceVote_extends newVote c')
  next c' heq =>
    rw [heq] at hoffered
    exact hoffered

theorem adoptLeaderValues_extends (leaders : List N) (c : Nomination N V H) :
    Extends c (adoptLeaderValues ctx leaders c).2 := by
  induction leaders generalizing c with
  | nil => exact Extends.refl c
  | cons leader rest ih =>
    unfold adoptLeaderValues
    dsimp only
    refine Extends.trans ?_ (ih _)
    split
    · exact adoptValue_extends ctx _ c
    · exact Extends.refl c

theorem voteAsLeader_extends (value : V) (c : Nomination N V H) :
    Extends c (voteAsLeader ctx value c).2 := by
  unfold voteAsLeader
  split
  · exact Extends.refl c
  · dsimp only
    split
    · have hvalidated := validateValue_extends ctx.driver (ownVote ctx c.state value).2 c
      split
      · exact hvalidated
      · exact hvalidated.trans (announceVote_extends _ _)
    · exact Extends.refl c

theorem updateRoundLeaders_extends {prevValue : V} {c c' : Nomination N V H}
    (hresult : updateRoundLeaders ctx prevValue c = .ok c') : Extends c c' := by
  unfold updateRoundLeaders at hresult
  obtain ⟨⟨round, roundLeaders⟩, -, hok⟩ := bind_ok_iff.mp hresult
  obtain rfl := Except.ok.inj hok
  exact Extends.of_same rfl rfl rfl rfl rfl rfl rfl (Appends.refl _)

end

/-! ### Recording and sending -/

variable {nomination : ScpNomination V H} {envelope : ScpEnvelope N V H} {c : Nomination N V H}

omit [DecidableEq H] in
theorem recordNomination_extends {node : N} (henvelope : envelope.nomination? = some nomination)
    (hnewer : isNewerNominationInternal c.state node nomination = true) :
    Extends c (recordNomination node envelope c) where
  votes := List.Subset.refl _
  accepted := List.Subset.refl _
  candidates := List.Subset.refl _
  recorded := by
    intro other old hold
    by_cases hnode : other = node
    · subst hnode
      obtain ⟨hvotes, haccepted, _⟩ :=
        isNewerNomination_iff.mp (isNewerNominationInternal_iff.mp hnewer old hold)
      refine ⟨nomination, ?_, hvotes, haccepted⟩
      simp [nomination?, recordNomination, henvelope]
    · refine ⟨old, ?_, List.Subset.refl _, List.Subset.refl _⟩
      simpa [nomination?, recordNomination, hnode] using hold
  log := Appends.refl c
  nominates := fun h =>
    ⟨h.accepted, h.candidates, h.last, h.sent, h.head, h.wellFormed, h.rising⟩

omit [DecidableEq H] in
omit [LinearOrder N] in
theorem newerThanLast_iff {s : NominationProtocol N V H} :
    newerThanLast s nomination = true ↔
      ∀ l ∈ s.lastEnvelope, ∀ old ∈ l.nomination?, isNewerNomination old nomination = true := by
  unfold newerThanLast
  cases s.lastEnvelope with
  | none => simp
  | some last =>
    simp only [Option.mem_some_iff, forall_eq', ScpEnvelope.nomination?]
    cases last.statement.pledges <;> simp

omit [LinearOrder N] [DecidableEq H] in
theorem Nominates.send (h : Nominates c) (hlast : c.state.lastEnvelope = some envelope)
    (hemit : c.state.lastEnvelopeEmit ≠ some envelope) :
    Nominates ((c.modify fun s => { s with lastEnvelopeEmit := some envelope }).notify
      (.emitEnvelope envelope)) where
  __ := h
  sent := by
    intro e he
    obtain rfl := Option.some.inj he
    exact ⟨envelope, hlast, .inl rfl⟩
  head := rfl
  wellFormed := by
    intro e he
    rcases List.mem_cons.mp he with rfl | he
    · exact h.last _ hlast
    · exact h.wellFormed e he
  rising := by
    refine List.pairwise_cons.mpr ⟨?_, h.rising⟩
    -- The latest of the earlier envelopes is older, the others are older still.
    have hhead : ∀ e ∈ (emitted c.log).head?, NewerNomination e envelope := by
      rw [h.head]
      intro e he
      obtain ⟨l, hl, hcases⟩ := h.sent e he
      obtain rfl := Option.mem_unique hl hlast
      rcases hcases with rfl | hnewer
      · exact absurd he hemit
      · exact hnewer
    have hrising := h.rising
    revert hhead hrising
    change (∀ e ∈ (emitted c.log).head?, _) → _ → ∀ e ∈ emitted c.log, NewerNomination e envelope
    cases emitted c.log with
    | nil => simp
    | cons latest older =>
      intro hhead hrising e he
      have hlatest := hhead latest rfl
      rcases List.mem_cons.mp he with rfl | he
      · exact hlatest
      · exact ((List.pairwise_cons.mp hrising).1 e he).trans hlatest

theorem emitDeferred_extends (c : Nomination N V H) : Extends c (emitDeferred c) := by
  unfold emitDeferred
  split
  · exact Extends.refl c
  · split
    · exact Extends.refl c
    next envelope hlast =>
      split
      · exact Extends.refl c
      next hemit =>
        exact
          { votes := List.Subset.refl _
            accepted := List.Subset.refl _
            candidates := List.Subset.refl _
            recorded := (Extends.refl c).recorded
            log := ⟨[.emitEnvelope envelope], rfl, by simp [ScpEvent.decides]⟩
            nominates := fun h => h.send hlast hemit }

omit [LinearOrder N] [DecidableEq H] in
theorem Nominates.replace (h : Nominates c) (henvelope : envelope.nomination? = some nomination)
    (hwellFormed : nomination.WellFormed) (hnewer : newerThanLast c.state nomination = true) :
    Nominates (c.modify fun s => { s with lastEnvelope := some envelope }) :=
  { h with
    last := by
      intro l hl
      obtain rfl := Option.some.inj hl
      exact ⟨nomination, henvelope, hwellFormed⟩
    sent := by
      intro e he
      refine ⟨envelope, rfl, .inr ?_⟩
      obtain ⟨l, hl, hcases⟩ := h.sent e he
      obtain ⟨old, hold, -⟩ := h.last l hl
      have hnewer' : NewerNomination l envelope :=
        ⟨old, hold, nomination, henvelope, newerThanLast_iff.mp hnewer l hl old hold⟩
      rcases hcases with rfl | hlt
      · exact hnewer'
      · exact hlt.trans hnewer' }

theorem Nominates.publish (h : Nominates c) (henvelope : envelope.nomination? = some nomination)
    (hwellFormed : nomination.WellFormed) : Nominates (publishNomination envelope nomination c) := by
  unfold publishNomination
  split
  next hnewer =>
    have hreplaced := h.replace henvelope hwellFormed hnewer
    dsimp only
    split
    next hsend => exact hreplaced.send rfl hsend.2
    · exact hreplaced
  · exact h

theorem Extends.publish {a c : Nomination N V H} (hbefore : Extends a c)
    (henvelope : envelope.nomination? = some nomination)
    (hwellFormed : Nominates a → nomination.WellFormed) :
    Extends a (publishNomination envelope nomination c) := by
  have hframe : (publishNomination envelope nomination c).state.votes = c.state.votes ∧
      (publishNomination envelope nomination c).state.accepted = c.state.accepted ∧
      (publishNomination envelope nomination c).state.candidates = c.state.candidates ∧
      (publishNomination envelope nomination c).state.latestNominations =
        c.state.latestNominations ∧
      Appends (fun e => e.decides = false) c (publishNomination envelope nomination c) := by
    unfold publishNomination
    split
    · dsimp only
      split
      · exact ⟨rfl, rfl, rfl, rfl, [.emitEnvelope envelope], rfl, by simp [ScpEvent.decides]⟩
      · exact ⟨rfl, rfl, rfl, rfl, Appends.refl c⟩
    · exact ⟨rfl, rfl, rfl, rfl, Appends.refl c⟩
  obtain ⟨hvotes, haccepted, hcandidates, hrecorded, hlog⟩ := hframe
  exact
    { votes := hvotes ▸ hbefore.votes
      accepted := haccepted ▸ hbefore.accepted
      candidates := hcandidates ▸ hbefore.candidates
      recorded := by
        unfold nomination?
        rw [hrecorded]
        exact hbefore.recorded
      log := hbefore.log.trans hlog
      nominates := fun h => (hbefore.nominates h).publish henvelope (hwellFormed h) }

omit [LinearOrder N] [DecidableEq H] in
theorem Nominates.selfNomination_wellFormed (h : Nominates c) :
    (selfNomination ctx c.state).WellFormed where
  votes := sortedValues_pairwise _
  accepted := sortedValues_pairwise _
  subset := fun _ hv => mem_sortedValues.mpr (h.accepted (mem_sortedValues.mp hv))

variable {c c' : Nomination N V H} {emit : Nomination N V H → Except Abort (Nomination N V H)}

section

variable (hemit : ∀ {c c'}, emit c = .ok c' → Extends c c')
include hemit

omit [DecidableEq H] in
theorem emitIf_extends {modified : Bool}
    (hresult : emitIf emit modified c = .ok c') : Extends c c' := by
  unfold emitIf at hresult
  split at hresult
  · exact hemit hresult
  · obtain rfl := Except.ok.inj hresult
    exact Extends.refl c

theorem selfProcess_extends {votes : List V}
    (hresult : selfProcess ctx emit votes c = .ok c') : Extends c c' := by
  unfold selfProcess at hresult
  split at hresult
  · obtain ⟨c₁, hcascade, hok⟩ := bind_ok_iff.mp hresult
    obtain rfl := Except.ok.inj hok
    exact ((attemptPromote_extends ctx votes c).trans (emitIf_extends hemit hcascade)).trans
      (Extends.ite (updateComposite_extends ctx c₁) (Extends.refl c₁))
  · obtain rfl := Except.ok.inj hresult
    exact Extends.refl c

end

/-- Emission records, promotes, emits what follows from it and publishes. -/
theorem emitNomination_extends (fuel : Nat)
    (hresult : emitNomination ctx fuel c = .ok c') : Extends c c' := by
  induction fuel generalizing c c' with
  | zero => simp [emitNomination] at hresult
  | succ fuel ih =>
    unfold emitNomination at hresult
    dsimp only at hresult
    split at hresult
    · obtain rfl := Except.ok.inj hresult
      exact Extends.refl c
    next hnewer =>
      rw [Bool.not_eq_false] at hnewer
      split at hresult
      · obtain rfl := Except.ok.inj hresult
        exact Extends.refl c
      · obtain ⟨c₁, hprocessed, hok⟩ := bind_ok_iff.mp hresult
        obtain rfl := Except.ok.inj hok
        have hbefore : Extends c c₁ := (recordNomination_extends rfl hnewer).trans
          (selfProcess_extends ctx (fun h => ih h) hprocessed)
        exact hbefore.publish rfl fun h => h.selfNomination_wellFormed ctx

/-! ### Calls and runs -/

/-- What a slot does with its nomination protocol. -/
inductive NominationOp (N V H : Type) where
  | nominate (value prevValue : V) (timedout : Bool)
  | processEnvelope (envelope : ScpEnvelope N V H)
  | stop
  | emitDeferred
  | setFullyValidated (fullyValidated : Bool)

/-- Perform one operation; only the state it leads to matters here. -/
def execNomination (fuel : Nat) (op : NominationOp N V H) (c : Nomination N V H) :
    Except Abort (Nomination N V H) :=
  match op with
  | .nominate value prevValue timedout =>
    (nominate ctx fuel value prevValue timedout c).map Prod.snd
  | .processEnvelope envelope => (processNomination ctx fuel envelope c).map Prod.snd
  | .stop => .ok (stopNomination c)
  | .emitDeferred => .ok (emitDeferred c)
  | .setFullyValidated fullyValidated => .ok (setNominationValidated fullyValidated c)

variable {fuel : Nat} {result : Bool × Nomination N V H}

theorem nominate_extends {value prevValue : V} {timedout : Bool}
    (hresult : nominate ctx fuel value prevValue timedout c = .ok result) : Extends c result.2 := by
  unfold nominate at hresult
  split at hresult
  · obtain rfl := Except.ok.inj hresult
    exact Extends.refl c
  · split at hresult
    · obtain rfl := Except.ok.inj hresult
      exact Extends.refl c
    · dsimp only at hresult
      set c₀ := (if timedout = true then
        c.modify fun s => { s with timerExpCount := U32.saturatingSucc s.timerExpCount } else c)
        with hc₀
      have hcounted : Extends c c₀ :=
        Extends.ite (Extends.of_same rfl rfl rfl rfl rfl rfl rfl (Appends.refl _)) (Extends.refl c)
      split at hresult
      · obtain rfl := Except.ok.inj hresult
        exact hcounted
      · obtain ⟨c₁, hleaders, hrest⟩ := bind_ok_iff.mp hresult
        obtain ⟨c₂, hemitted, hok⟩ := bind_ok_iff.mp hrest
        obtain rfl := Except.ok.inj hok
        have hstarted : Extends c₀ (c₀.modify fun s =>
            { s with
              started := true
              previousValue := some prevValue
              round := U32.saturatingSucc s.round }) :=
                Extends.of_same rfl rfl rfl rfl rfl rfl rfl (Appends.refl _)
        exact ((((hcounted.trans hstarted).trans (updateRoundLeaders_extends ctx hleaders)).trans
          (adoptLeaderValues_extends ctx _ c₁)).trans (voteAsLeader_extends ctx value _)).trans
            (emitIf_extends (fun h => emitNomination_extends ctx fuel h) hemitted)

theorem reactToNomination_extends {nodeId : N}
    (hresult : reactToNomination ctx fuel nodeId nomination c = .ok result) :
    Extends c result.2 := by
  unfold reactToNomination at hresult
  obtain ⟨c₁, hemitted, hok⟩ := bind_ok_iff.mp hresult
  obtain rfl := Except.ok.inj hok
  have hadopted : Extends (attemptPromote ctx nomination.votes c).2
      (adoptFromLeader ctx nodeId nomination (attemptPromote ctx nomination.votes c).2).2 := by
    unfold adoptFromLeader
    split
    · exact adoptValue_extends ctx nomination _
    · exact Extends.refl _
  exact (((attemptPromote_extends ctx nomination.votes c).trans hadopted).trans
    (emitIf_extends (fun h => emitNomination_extends ctx fuel h) hemitted)).trans
      (Extends.ite (updateComposite_extends ctx c₁) (Extends.refl c₁))

theorem processNomination_extends {result : EnvelopeState × Nomination N V H}
    (hresult : processNomination ctx fuel envelope c = .ok result) : Extends c result.2 := by
  unfold processNomination at hresult
  split at hresult
  next nomination hpledges =>
    dsimp only at hresult
    split at hresult
    · obtain rfl := Except.ok.inj hresult
      exact Extends.refl c
    next hnewer =>
      rw [Bool.not_eq_false] at hnewer
      split at hresult
      · obtain rfl := Except.ok.inj hresult
        exact Extends.refl c
      · have hsome : envelope.nomination? = some nomination := by
          simp [ScpEnvelope.nomination?, hpledges]
        have hrecorded := recordNomination_extends hsome hnewer
        split at hresult
        · obtain ⟨⟨stateChanged, c₁⟩, hreacted, hok⟩ := bind_ok_iff.mp hresult
          obtain rfl := Except.ok.inj hok
          exact hrecorded.trans (reactToNomination_extends ctx hreacted)
        · obtain rfl := Except.ok.inj hresult
          exact hrecorded
  · obtain rfl := Except.ok.inj hresult
    exact Extends.refl c

theorem execNomination_extends {op : NominationOp N V H}
    (hresult : execNomination ctx fuel op c = .ok c') : Extends c c' := by
  cases op with
  | nominate value prevValue timedout =>
    obtain ⟨updated, hok⟩ := map_snd_ok_iff.mp hresult
    exact nominate_extends ctx hok
  | processEnvelope envelope =>
    obtain ⟨state, hok⟩ := map_snd_ok_iff.mp hresult
    exact processNomination_extends ctx hok
  | stop =>
    obtain rfl := Except.ok.inj hresult
    exact Extends.of_same rfl rfl rfl rfl rfl rfl rfl (Appends.refl _)
  | emitDeferred =>
    obtain rfl := Except.ok.inj hresult
    exact emitDeferred_extends c
  | setFullyValidated fullyValidated =>
    obtain rfl := Except.ok.inj hresult
    exact Extends.of_same rfl rfl rfl rfl rfl rfl rfl (Appends.refl _)

/-- A protocol that has not started. -/
def Nomination.new : Nomination N V H := ⟨NominationProtocol.new, []⟩

/-- One call, under any driver. -/
def NominationCall (c c' : Nomination N V H) : Prop :=
  ∃ driver fuel op, execNomination { ctx with driver := driver } fuel op c = .ok c'

/-- The states that calls reach from a fresh protocol, or from one that took up
an envelope which the node had sent. -/
inductive NominationRun : Nomination N V H → Prop where
  | new : NominationRun Nomination.new
  | restored {c : Nomination N V H} (hrun : NominationRun c) (envelope : ScpEnvelope N V H)
      (hemitted : envelope ∈ emitted c.log) :
      NominationRun (setNominationFromEnvelope envelope Nomination.new).2
  | call {c c' : Nomination N V H} (hrun : NominationRun c) (hcall : NominationCall ctx c c') :
      NominationRun c'

omit [LinearOrder N] [DecidableEq H] in
theorem nominates_new : Nominates (Nomination.new : Nomination N V H) where
  accepted := List.Subset.refl _
  candidates := by simp [Nomination.new, NominationProtocol.new]
  last := by simp [Nomination.new, NominationProtocol.new]
  sent := by simp [Nomination.new, NominationProtocol.new]
  head := rfl
  wellFormed := by simp [Nomination.new, emitted]
  rising := List.Pairwise.nil

omit [DecidableEq H] in
theorem nominates_restored (henvelope : envelope.nomination? = some nomination)
    (hwellFormed : nomination.WellFormed) :
    Nominates (setNominationFromEnvelope envelope Nomination.new).2 := by
  unfold ScpEnvelope.nomination? at henvelope
  split at henvelope
  next nomination' hpledges =>
    obtain rfl := Option.some.inj henvelope
    simp only [setNominationFromEnvelope, Nomination.new, NominationProtocol.new, hpledges,
      Bool.false_eq_true, if_false]
    exact
      { accepted := hwellFormed.subset
        candidates := by simp
        last := by
          intro l hl
          obtain rfl := Option.some.inj hl
          exact ⟨nomination', by simp [ScpEnvelope.nomination?, hpledges], hwellFormed⟩
        sent := by simp
        head := rfl
        wellFormed := by simp [emitted]
        rising := List.Pairwise.nil }
  · simp at henvelope

theorem NominationRun.nominates (hrun : NominationRun ctx c) : Nominates c := by
  induction hrun with
  | new => exact nominates_new
  | restored hrun envelope hemitted ih =>
    obtain ⟨nomination, henvelope, hwellFormed⟩ := ih.wellFormed envelope hemitted
    exact nominates_restored henvelope hwellFormed
  | call hrun hcall ih =>
    obtain ⟨driver, fuel, op, hresult⟩ := hcall
    exact (execNomination_extends _ hresult).nominates ih

theorem NominationCalls.extends
    (hcalls : Relation.ReflTransGen (NominationCall ctx) c c') : Extends c c' := by
  induction hcalls with
  | refl => exact Extends.refl _
  | tail hcalls hcall ih =>
    obtain ⟨driver, fuel, op, hresult⟩ := hcall
    exact ih.trans (execNomination_extends _ hresult)

/-- In every run candidates are accepted and accepted values are voted for, the
envelopes sent are well formed and rise, and whatever calls follow, no set and
no recorded nomination loses a value. -/
theorem nomination_monotone {c : Nomination N V H} (hrun : NominationRun ctx c) :
    (c.state.candidates ⊆ c.state.accepted ∧ c.state.accepted ⊆ c.state.votes) ∧
      ((emitted c.log).Pairwise fun later earlier => NewerNomination earlier later) ∧
      (∀ e ∈ emitted c.log, ∃ nomination ∈ e.nomination?,
        nomination.votes.Pairwise (· < ·) ∧ nomination.accepted.Pairwise (· < ·)) ∧
      ∀ c', Relation.ReflTransGen (NominationCall ctx) c c' →
        c.state.votes ⊆ c'.state.votes ∧ c.state.accepted ⊆ c'.state.accepted ∧
          c.state.candidates ⊆ c'.state.candidates ∧
          ∀ node, ∀ old ∈ c.state.nomination? node, ∃ new ∈ c'.state.nomination? node,
            old.votes ⊆ new.votes ∧ old.accepted ⊆ new.accepted := by
  have h := hrun.nominates
  refine ⟨⟨h.candidates, h.accepted⟩, h.rising, fun e he => ?_, fun c' hcalls => ?_⟩
  · obtain ⟨nomination, henvelope, hwellFormed⟩ := h.wellFormed e he
    exact ⟨nomination, henvelope, hwellFormed.votes, hwellFormed.accepted⟩
  · have hextends := NominationCalls.extends ctx hcalls
    exact ⟨hextends.votes, hextends.accepted, hextends.candidates, hextends.recorded⟩

/-! ### A node that nominates with its peer -/

/-- The node asks for itself and one peer, and every node leads. -/
def nominatingNode : SlotContext ℕ ℕ Unit where
  localNodeId := 0
  localQuorumSet := simpleQuorumSet 2 [0, 1]
  slotIndex := 1
  hashQuorumSet _ := ()
  driver :=
    { SCPDriver.permissive (simpleQuorumSet 2 [0, 1]) with
      computeHashNode := fun _ isPriority _ _ => if isPriority then 1 else 0 }

/-- The peer votes for the same value. -/
def peerNominates : ScpEnvelope ℕ ℕ Unit where
  statement :=
    { nodeId := 1
      slotIndex := 1
      pledges := .nominate { quorumSetHash := (), votes := [7], accepted := [] } }
  signature := []

def nominatingRun : Except Abort (Nomination ℕ ℕ Unit × Nomination ℕ ℕ Unit) := do
  let nominated ← execNomination nominatingNode 3 (.nominate 7 5 false) Nomination.new
  let accepted ← execNomination nominatingNode 3 (.processEnvelope peerNominates) nominated
  .ok (nominated, accepted)

theorem nominatingRun_returns : ∃ c c',
    execNomination nominatingNode 3 (.nominate 7 5 false) Nomination.new = .ok c ∧
      execNomination nominatingNode 3 (.processEnvelope peerNominates) c = .ok c' ∧
        c'.state.accepted = [7] ∧ (emitted c'.log).length = 2 := by
  have hcheck : (match nominatingRun with
      | .ok (_, c') => decide (c'.state.accepted = [7] ∧ (emitted c'.log).length = 2)
      | .error _ => false) = true := by decide +kernel
  unfold nominatingRun at hcheck
  cases hnominate : execNomination nominatingNode 3 (.nominate 7 5 false) Nomination.new with
  | error e =>
    rw [hnominate] at hcheck
    simp [Bind.bind, Except.bind] at hcheck
  | ok c =>
    rw [hnominate] at hcheck
    cases haccept : execNomination nominatingNode 3 (.processEnvelope peerNominates) c with
    | error e => simp [Bind.bind, Except.bind, haccept] at hcheck
    | ok c' =>
      simp only [Bind.bind, Except.bind, haccept, decide_eq_true_eq] at hcheck
      exact ⟨c, c', rfl, haccept, hcheck⟩

/-- Its two envelopes rise. -/
theorem nomination_monotone_nominatingNode : ∃ c : Nomination ℕ ℕ Unit,
    c.state.accepted = [7] ∧ (emitted c.log).length = 2 ∧
      (emitted c.log).Pairwise fun later earlier => NewerNomination earlier later := by
  obtain ⟨c, c', hnominate, haccept, hvalues, htwice⟩ := nominatingRun_returns
  have hrun : NominationRun nominatingNode c' :=
    .call (.call .new ⟨_, 3, _, hnominate⟩) ⟨_, 3, _, haccept⟩
  exact ⟨c', hvalues, htwice, (nomination_monotone nominatingNode hrun).2.1⟩

end Henyey.Scp
