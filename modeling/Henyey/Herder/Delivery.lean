import Henyey.Herder.FetchingEnvelopes

/-!
# Each envelope is delivered once

Every envelope of a slot has an account: in which collections it is, and how often
it was broadcast, popped and discarded since the slot was last erased. The account
stays balanced as long as no envelope comes back while it is ready and none that
went ahead is discarded.
-/

namespace Henyey.Herder

open Scp List Event

variable {N V H : Type} [DecidableEq N] [LinearOrder V] [DecidableEq H]

/-! ### Accounts -/

/-- Where one envelope is, and what happened to it since its slot was erased. -/
structure Account where
  fetching : Nat
  ready : Nat
  processed : Nat
  discarded : Nat
  timesBroadcast : Nat
  timesPopped : Nat
  timesDiscarded : Nat

namespace Account

def places (account : Account) : Nat :=
  account.fetching + account.ready + account.processed + account.discarded

/-- One place at most, and only what went ahead was broadcast or popped. -/
structure Balanced (account : Account) : Prop where
  places : account.places ≤ 1
  broadcast : account.timesBroadcast ≤ account.ready + account.processed
  popped : account.timesPopped ≤ account.processed
  discarded : account.timesDiscarded ≤ account.discarded

end Account

section Accounting

variable (codec : Codec N V H) (slot : Nat) (hash : H)

def concerns (envelope : ScpEnvelope N V H) : Bool :=
  envelope.statement.slotIndex == slot && computeEnvelopeHash codec envelope == hash

def Event.broadcasts : Event N V H → Bool
  | .broadcast relay => concerns codec slot hash relay.envelope
  | _ => false

def Event.pops : Event N V H → Bool
  | .popped envelope => concerns codec slot hash envelope
  | _ => false

def Event.discards : Event N V H → Bool
  | .discarded envelope => concerns codec slot hash envelope
  | _ => false

/-- What happened since the slot was last erased. -/
def sinceErased (history : List (Event N V H)) : List (Event N V H) :=
  history.takeWhile fun event => event != .erased slot

/-- How often an event happened since the slot was last erased. -/
def times (event : Event N V H → Bool) (history : List (Event N V H)) : Nat :=
  (sinceErased slot history).countP event

def SlotEnvelopes.isReady (slotState : SlotEnvelopes N V H) : Bool :=
  slotState.ready.any fun envelope => computeEnvelopeHash codec envelope == hash

def SlotEnvelopes.account (slotState : SlotEnvelopes N V H) (history : List (Event N V H)) :
    Account where
  fetching := if hash ∈ slotState.fetching then 1 else 0
  ready := slotState.ready.countP fun envelope => computeEnvelopeHash codec envelope == hash
  processed := if hash ∈ slotState.processed then 1 else 0
  discarded := if hash ∈ slotState.discarded then 1 else 0
  timesBroadcast := times slot (broadcasts codec slot hash) history
  timesPopped := times slot (pops codec slot hash) history
  timesDiscarded := times slot (discards codec slot hash) history

namespace FetchingEnvelopes

def account (s : FetchingEnvelopes N V H) : Account :=
  (s.slotState slot).account codec slot hash s.history

/-- Every account is balanced, and envelopes are ready in their own slots. -/
structure Balanced (s : FetchingEnvelopes N V H) : Prop where
  accounts : ∀ slot hash, (s.account codec slot hash).Balanced
  filed : ∀ slot, ∀ envelope ∈ (s.slotState slot).ready, envelope.statement.slotIndex = slot

end FetchingEnvelopes

end Accounting

/-! ### Counting events -/

section Times

variable {slot : Nat} {event : Event N V H} {counted : Event N V H → Bool}
  {history : List (Event N V H)}

theorem times_cons (hevent : event ≠ .erased slot) :
    times slot counted (event :: history) =
      times slot counted history + if counted event then 1 else 0 := by
  rw [times, sinceErased, takeWhile_cons_of_pos (by simpa using hevent), countP_cons]
  rfl

theorem times_erased : times slot counted (.erased slot :: history) = 0 := by
  rw [times, sinceErased, takeWhile_cons_of_neg (by simp)]
  rfl

theorem times_erased_ne {other : Nat} (hne : other ≠ slot)
    (hcounted : counted (.erased other) = false) :
    times slot counted (.erased other :: history) = times slot counted history := by
  have hevent : (.erased other : Event N V H) ≠ .erased slot := by
    intro heq
    exact hne (erased.inj heq)
  rw [times_cons hevent, hcounted]
  rfl

end Times

namespace FetchingEnvelopes

variable {codec : Codec N V H} {s : FetchingEnvelopes N V H}

/-! ### Slots and history -/

variable {slotState : SlotEnvelopes N V H}

section

omit [DecidableEq N] [LinearOrder V] [DecidableEq H]

theorem slotState_setSlot (slot other : Nat) (slotState : SlotEnvelopes N V H) :
    (s.setSlot slot slotState).slotState other =
      if other = slot then slotState else s.slotState other := by
  unfold setSlot
  rw [FetchingEnvelopes.slotState]
  split
  next heq =>
    rw [heq, AList.lookup_insert]
    rfl
  next hne => rw [AList.lookup_insert_ne hne, FetchingEnvelopes.slotState]

@[simp]
theorem setSlot_history (slot : Nat) (slotState : SlotEnvelopes N V H) :
    (s.setSlot slot slotState).history = s.history :=
  rfl

theorem slotState_of_lookup {slot : Nat}
    (hlookup : s.slots.lookup slot = some slotState) : s.slotState slot = slotState := by
  rw [FetchingEnvelopes.slotState, hlookup]
  rfl

end

/-- Accounts do not depend on what is being fetched. -/
theorem Balanced.of_same {s' : FetchingEnvelopes N V H} (hbalanced : s.Balanced codec)
    (hslots : s'.slots = s.slots) (hhistory : s'.history = s.history) : s'.Balanced codec := by
  constructor
  · intro slot hash
    rw [account, slotState, hslots, hhistory]
    exact hbalanced.accounts slot hash
  · intro slot
    rw [slotState, hslots]
    exact hbalanced.filed slot

theorem account_setSlot (slot : Nat) (slotState : SlotEnvelopes N V H) (hash : H) :
    (s.setSlot slot slotState).account codec slot hash =
      slotState.account codec slot hash s.history := by
  rw [account, slotState_setSlot, if_pos rfl, setSlot_history]

theorem Balanced.setSlot (hbalanced : s.Balanced codec) {slot : Nat}
    (hfiled : ∀ envelope ∈ slotState.ready, envelope.statement.slotIndex = slot)
    (hslot : ∀ hash, (slotState.account codec slot hash s.history).Balanced) :
    (s.setSlot slot slotState).Balanced codec := by
  constructor
  · intro other hash
    rw [account, slotState_setSlot, setSlot_history]
    split
    next heq =>
      rw [heq]
      exact hslot hash
    · exact hbalanced.accounts other hash
  · intro other
    rw [slotState_setSlot]
    split
    next heq =>
      rw [heq]
      exact hfiled
    · exact hbalanced.filed other

theorem Balanced.setSlot_same (hbalanced : s.Balanced codec) (slot : Nat) :
    (s.setSlot slot (s.slotState slot)).Balanced codec :=
  hbalanced.setSlot (hbalanced.filed slot) (hbalanced.accounts slot)

/-! ### Recording what happens -/

section Record

variable {slot : Nat} {hash : H} {envelope : ScpEnvelope N V H}

omit [DecidableEq N] [LinearOrder V] in
theorem concerns_iff : concerns codec slot hash envelope = true ↔
    envelope.statement.slotIndex = slot ∧ computeEnvelopeHash codec envelope = hash := by
  simp [concerns]

theorem account_record {event : Event N V H} (hevent : ∀ slot, event ≠ .erased slot) :
    (s.record event).account codec slot hash =
      { s.account codec slot hash with
        timesBroadcast := (s.account codec slot hash).timesBroadcast +
          if event.broadcasts codec slot hash then 1 else 0
        timesPopped := (s.account codec slot hash).timesPopped +
          if event.pops codec slot hash then 1 else 0
        timesDiscarded := (s.account codec slot hash).timesDiscarded +
          if event.discards codec slot hash then 1 else 0 } := by
  simp only [account, SlotEnvelopes.account, record, times_cons (hevent slot)]
  rfl

variable (codec) in
def accountOf (s : FetchingEnvelopes N V H) (envelope : ScpEnvelope N V H) : Account :=
  s.account codec envelope.statement.slotIndex (computeEnvelopeHash codec envelope)

section

variable (hbalanced : s.Balanced codec)
include hbalanced

theorem Balanced.record_broadcast (receivedAt : Option Nat)
    (readyPath : ReadyPath) (hroom : (s.accountOf codec envelope).timesBroadcast <
      (s.accountOf codec envelope).ready + (s.accountOf codec envelope).processed) :
    (s.record (.broadcast { envelope, receivedAt, readyPath })).Balanced codec := by
  refine ⟨fun slot hash => ?_, hbalanced.filed⟩
  have hold := hbalanced.accounts slot hash
  rw [account_record (by simp)]
  refine ⟨hold.places, ?_, hold.popped, hold.discarded⟩
  by_cases hconcerns : concerns codec slot hash envelope = true
  · obtain ⟨rfl, rfl⟩ := concerns_iff.mp hconcerns
    simp only [broadcasts, hconcerns, if_true]
    exact hroom
  · simp only [broadcasts, hconcerns]
    exact hold.broadcast

theorem Balanced.record_popped
    (hroom : (s.accountOf codec envelope).timesPopped < (s.accountOf codec envelope).processed) :
    (s.record (.popped envelope)).Balanced codec := by
  refine ⟨fun slot hash => ?_, hbalanced.filed⟩
  have hold := hbalanced.accounts slot hash
  rw [account_record (by simp)]
  refine ⟨hold.places, hold.broadcast, ?_, hold.discarded⟩
  by_cases hconcerns : concerns codec slot hash envelope = true
  · obtain ⟨rfl, rfl⟩ := concerns_iff.mp hconcerns
    simp only [pops, hconcerns, if_true]
    exact hroom
  · simp only [pops, hconcerns]
    exact hold.popped

theorem Balanced.record_discarded (hroom : (s.accountOf codec envelope).timesDiscarded <
      (s.accountOf codec envelope).discarded) :
    (s.record (.discarded envelope)).Balanced codec := by
  refine ⟨fun slot hash => ?_, hbalanced.filed⟩
  have hold := hbalanced.accounts slot hash
  rw [account_record (by simp)]
  refine ⟨hold.places, hold.broadcast, hold.popped, ?_⟩
  by_cases hconcerns : concerns codec slot hash envelope = true
  · obtain ⟨rfl, rfl⟩ := concerns_iff.mp hconcerns
    simp only [discards, hconcerns, if_true]
    exact hroom
  · simp only [discards, hconcerns]
    exact hold.discarded

end

end Record

/-! ### Moving one envelope -/

section Moves

variable {slotState : SlotEnvelopes N V H} {slot : Nat} {hash : H}
  {envelope : ScpEnvelope N V H}

theorem account_congr (hfetching : hash ∈ slotState.fetching ↔ hash ∈ (s.slotState slot).fetching)
    (hready : (slotState.ready.countP fun envelope => computeEnvelopeHash codec envelope == hash) =
      (s.slotState slot).ready.countP fun envelope => computeEnvelopeHash codec envelope == hash)
    (hprocessed : hash ∈ slotState.processed ↔ hash ∈ (s.slotState slot).processed)
    (hdiscarded : hash ∈ slotState.discarded ↔ hash ∈ (s.slotState slot).discarded) :
    slotState.account codec slot hash s.history = s.account codec slot hash := by
  simp only [account, SlotEnvelopes.account, hfetching, hready, hprocessed, hdiscarded]

theorem Balanced.move (hbalanced : s.Balanced codec) (envHash : H)
    (hfiled : ∀ envelope ∈ slotState.ready, envelope.statement.slotIndex = slot)
    (hothers : ∀ hash ≠ envHash, slotState.account codec slot hash s.history =
      s.account codec slot hash)
    (hmoved : (slotState.account codec slot envHash s.history).Balanced) :
    (s.setSlot slot slotState).Balanced codec := by
  apply hbalanced.setSlot hfiled
  intro hash
  by_cases heq : hash = envHash
  · rw [heq]
    exact hmoved
  · rw [hothers hash heq]
    exact hbalanced.accounts slot hash

theorem Balanced.filed_append (hbalanced : s.Balanced codec)
    (hslot : envelope.statement.slotIndex = slot) :
    ∀ other ∈ (s.slotState slot).ready ++ [envelope], other.statement.slotIndex = slot := by
  intro other hother
  rcases mem_append.mp hother with hold | hnew
  · exact hbalanced.filed slot other hold
  · rw [mem_singleton.mp hnew]
    exact hslot

omit [DecidableEq N] [LinearOrder V] in
theorem countP_append_ne (ready : List (ScpEnvelope N V H))
    (hne : hash ≠ computeEnvelopeHash codec envelope) :
    ((ready ++ [envelope]).countP fun envelope => computeEnvelopeHash codec envelope == hash) =
      ready.countP fun envelope => computeEnvelopeHash codec envelope == hash := by
  rw [countP_append, countP_singleton, if_neg (by simpa using hne.symm), Nat.add_zero]

section

variable (hbalanced : s.Balanced codec)
include hbalanced

/-- Park an envelope that is nowhere yet. -/
theorem Balanced.park (envHash : H) (entry : FetchingEntry N V H)
    (hplaces : (s.account codec slot envHash).places = 0) :
    (s.setSlot slot { s.slotState slot with
      fetching := (s.slotState slot).fetching.insert envHash entry }).Balanced codec := by
  refine hbalanced.move envHash (hbalanced.filed slot) ?_ ?_
  · intro hash hne
    exact account_congr (by simp [hne]) rfl Iff.rfl Iff.rfl
  · obtain ⟨_, hbroadcast, hpopped, hdiscarded⟩ := hbalanced.accounts slot envHash
    simp only [account, SlotEnvelopes.account, Account.places] at *
    constructor <;> simp [Account.places] <;> omega

theorem Balanced.dropParked (slot : Nat) (envHash : H) :
    (s.setSlot slot { s.slotState slot with
      fetching := (s.slotState slot).fetching.erase envHash }).Balanced codec := by
  refine hbalanced.move envHash (hbalanced.filed slot) ?_ ?_
  · intro hash hne
    exact account_congr (by simp [hne]) rfl Iff.rfl Iff.rfl
  · obtain ⟨hplaces, hbroadcast, hpopped, hdiscarded⟩ := hbalanced.accounts slot envHash
    simp only [account, SlotEnvelopes.account, Account.places] at *
    constructor <;> simp [Account.places] <;> omega

theorem Balanced.broadcastEnvelope (receivedAt : Option Nat) (readyPath : ReadyPath)
    (hroom : (s.accountOf codec envelope).timesBroadcast <
      (s.accountOf codec envelope).ready + (s.accountOf codec envelope).processed) :
    (s.broadcastEnvelope envelope receivedAt readyPath).Balanced codec := by
  unfold FetchingEnvelopes.broadcastEnvelope
  split
  · exact hbalanced.record_broadcast receivedAt readyPath hroom
  · exact hbalanced

theorem Balanced.readyAtOnce (receivedAt : Option Nat) (hslot : envelope.statement.slotIndex = slot)
    (hplaces : (s.accountOf codec envelope).places = 0) :
    ((s.setSlot slot { s.slotState slot with
      ready := (s.slotState slot).ready ++ [envelope] }).broadcastEnvelope envelope receivedAt
        .immediate).Balanced codec := by
  subst hslot
  have hold :=
    hbalanced.accounts envelope.statement.slotIndex (computeEnvelopeHash codec envelope)
  obtain ⟨_, hbroadcast, hpopped, hdiscarded⟩ := hold
  simp only [accountOf, account, SlotEnvelopes.account, Account.places] at *
  apply Balanced.broadcastEnvelope
  · apply hbalanced.move (computeEnvelopeHash codec envelope) (hbalanced.filed_append rfl)
    · intro hash hne
      exact account_congr Iff.rfl (countP_append_ne _ hne) Iff.rfl Iff.rfl
    · constructor <;> simp [SlotEnvelopes.account, Account.places] <;> omega
  · rw [accountOf, account_setSlot]
    simp [SlotEnvelopes.account]
    omega

theorem Balanced.readyFromParked (receivedAt : Option Nat)
    (hslot : envelope.statement.slotIndex = slot)
    (hfetching : computeEnvelopeHash codec envelope ∈ (s.slotState slot).fetching) :
    ((s.setSlot slot { s.slotState slot with
      fetching := (s.slotState slot).fetching.erase (computeEnvelopeHash codec envelope)
      ready := (s.slotState slot).ready ++ [envelope] }).broadcastEnvelope envelope receivedAt
        .deferred).Balanced codec := by
  subst hslot
  have hold :=
    hbalanced.accounts envelope.statement.slotIndex (computeEnvelopeHash codec envelope)
  obtain ⟨hplaces, hbroadcast, hpopped, hdiscarded⟩ := hold
  simp only [account, SlotEnvelopes.account, Account.places, if_pos hfetching] at *
  apply Balanced.broadcastEnvelope
  · apply hbalanced.move (computeEnvelopeHash codec envelope) (hbalanced.filed_append rfl)
    · intro hash hne
      exact account_congr (by simp [hne]) (countP_append_ne _ hne) Iff.rfl Iff.rfl
    · constructor <;> simp [SlotEnvelopes.account, Account.places] <;> omega
  · rw [accountOf, account_setSlot]
    simp [SlotEnvelopes.account]
    omega

theorem Balanced.popReady {rest : List (ScpEnvelope N V H)}
    (hready : (s.slotState slot).ready = rest ++ [envelope]) :
    ((s.setSlot slot { s.slotState slot with
      ready := rest
      processed := insert (computeEnvelopeHash codec envelope)
        (s.slotState slot).processed }).record (.popped envelope)).Balanced codec := by
  have hfiled := hbalanced.filed slot
  rw [hready] at hfiled
  obtain rfl := hfiled envelope (mem_append_right rest (mem_singleton.mpr rfl))
  have hrest : ∀ other ∈ rest, other.statement.slotIndex = envelope.statement.slotIndex :=
    fun other hother => hfiled other (mem_append_left _ hother)
  have hold :=
    hbalanced.accounts envelope.statement.slotIndex (computeEnvelopeHash codec envelope)
  obtain ⟨hplaces, hbroadcast, hpopped, hdiscarded⟩ := hold
  simp only [account, SlotEnvelopes.account, Account.places, hready, countP_append,
    countP_singleton, beq_self_eq_true, if_true] at hplaces hbroadcast hpopped hdiscarded
  apply Balanced.record_popped
  · apply hbalanced.move (computeEnvelopeHash codec envelope) hrest
    · intro hash hne
      refine account_congr Iff.rfl ?_ (by simp [hne]) Iff.rfl
      rw [hready, countP_append_ne _ hne]
    · constructor <;> simp [SlotEnvelopes.account, Account.places] <;> omega
  · rw [accountOf, account_setSlot]
    simp [SlotEnvelopes.account]
    omega

theorem Balanced.discardOne (hslot : envelope.statement.slotIndex = slot)
    (hready : (s.accountOf codec envelope).ready = 0)
    (hprocessed : (s.accountOf codec envelope).processed = 0)
    (hfresh : computeEnvelopeHash codec envelope ∉ (s.slotState slot).discarded) :
    ((s.setSlot slot { s.slotState slot with
      discarded := insert (computeEnvelopeHash codec envelope) (s.slotState slot).discarded
      fetching := (s.slotState slot).fetching.erase
        (computeEnvelopeHash codec envelope) }).record (.discarded envelope)).Balanced codec := by
  subst hslot
  have hold :=
    hbalanced.accounts envelope.statement.slotIndex (computeEnvelopeHash codec envelope)
  obtain ⟨hplaces, hbroadcast, hpopped, hdiscarded⟩ := hold
  simp only [accountOf, account, SlotEnvelopes.account, Account.places, if_neg hfresh] at *
  apply Balanced.record_discarded
  · refine hbalanced.move (computeEnvelopeHash codec envelope) (hbalanced.filed _) ?_ ?_
    · intro hash hne
      exact account_congr (by simp [hne]) rfl Iff.rfl (by simp [hne])
    · constructor <;> simp only [SlotEnvelopes.account, Account.places, AList.mem_erase,
        Finset.mem_insert_self, ne_eq, not_true_eq_false, false_and, if_true, if_false] <;> omega
  · rw [accountOf, account_setSlot]
    simp [SlotEnvelopes.account]
    omega

end

end Moves

/-! ### Fetching does not touch the slots -/

section Fetching

variable {envelope : ScpEnvelope N V H}

omit [DecidableEq N] in
theorem fetchTxSets_frame :
    (s.fetchTxSets codec envelope).1.slots = s.slots ∧
      (s.fetchTxSets codec envelope).1.history = s.history := by
  unfold fetchTxSets
  apply foldlRecOn (motive := fun result : FetchingEnvelopes N V H × Bool =>
    result.1.slots = s.slots ∧ result.1.history = s.history)
  · exact ⟨rfl, rfl⟩
  · intro result hsame hash _
    dsimp only
    split
    · exact hsame
    · exact hsame

omit [DecidableEq N] [LinearOrder V] in
theorem fetchQuorumSet_frame :
    (s.fetchQuorumSet codec envelope).1.slots = s.slots ∧
      (s.fetchQuorumSet codec envelope).1.history = s.history := by
  unfold fetchQuorumSet
  split <;> exact ⟨rfl, rfl⟩

omit [DecidableEq N] in
theorem startFetch_frame (needTxSet needQuorumSet : Bool) :
    (s.startFetch codec envelope needTxSet needQuorumSet).1.slots = s.slots ∧
      (s.startFetch codec envelope needTxSet needQuorumSet).1.history = s.history := by
  unfold startFetch
  cases needTxSet <;> cases needQuorumSet
  · exact ⟨rfl, rfl⟩
  · exact fetchQuorumSet_frame
  · exact fetchTxSets_frame
  · exact ⟨fetchQuorumSet_frame.1.trans fetchTxSets_frame.1,
      fetchQuorumSet_frame.2.trans fetchTxSets_frame.2⟩

theorem Balanced.startFetch (hbalanced : s.Balanced codec) (needTxSet needQuorumSet : Bool) :
    (s.startFetch codec envelope needTxSet needQuorumSet).1.Balanced codec :=
  hbalanced.of_same (startFetch_frame needTxSet needQuorumSet).1
    (startFetch_frame needTxSet needQuorumSet).2

theorem Balanced.dropUntracked (hbalanced : s.Balanced codec) (slot : Nat) (envHash : H) :
    (s.dropUntracked slot envHash).Balanced codec := by
  unfold FetchingEnvelopes.dropUntracked
  split
  next slotState hlookup =>
    rw [← slotState_of_lookup hlookup]
    exact hbalanced.dropParked slot envHash
  · exact hbalanced

end Fetching

/-! ### Receiving -/

section Receiving

variable {envelope : ScpEnvelope N V H} (codec s envelope) in
/-- The envelope waits to be popped, and its slot would take it in again. -/
def readmits : Prop :=
  checkStellarValueSigned codec envelope = true ∧
    (s.slotState envelope.statement.slotIndex).isReady codec
      (computeEnvelopeHash codec envelope) = true ∧
    s.perSlotFull envelope.statement.slotIndex = false

omit [DecidableEq N] [LinearOrder V] in
theorem countP_eq_zero_of_not_isReady {slotState : SlotEnvelopes N V H} {hash : H}
    (hready : slotState.isReady codec hash = false) :
    (slotState.ready.countP fun envelope => computeEnvelopeHash codec envelope == hash) = 0 := by
  rw [countP_eq_zero]
  intro other hother htrue
  exact any_eq_false.mp hready other hother htrue

omit [DecidableEq N] [LinearOrder V] [DecidableEq H] in
theorem perSlotFull_setSlot_same (slot : Nat) :
    (s.setSlot slot (s.slotState slot)).perSlotFull slot = s.perSlotFull slot := by
  rw [perSlotFull, slotState_setSlot, if_pos rfl]
  rfl

theorem Balanced.recvEnvelopeInner (hbalanced : s.Balanced codec) (receivedAt : Option Nat)
    (hadmits : s.perSlotFull envelope.statement.slotIndex = true ∨
      (s.slotState envelope.statement.slotIndex).isReady codec
        (computeEnvelopeHash codec envelope) = false) :
    (s.recvEnvelopeInner codec envelope receivedAt).1.Balanced codec := by
  unfold FetchingEnvelopes.recvEnvelopeInner
  dsimp only
  split
  · exact hbalanced
  have hsame := hbalanced.setSlot_same envelope.statement.slotIndex
  rw [perSlotFull_setSlot_same]
  have hstate : (s.setSlot envelope.statement.slotIndex
      (s.slotState envelope.statement.slotIndex)).slotState envelope.statement.slotIndex =
      s.slotState envelope.statement.slotIndex := by
    rw [slotState_setSlot, if_pos rfl]
  generalize s.slotState envelope.statement.slotIndex = slotState at *
  generalize s.setSlot envelope.statement.slotIndex slotState = s₁ at *
  subst hstate
  split
  · exact hsame
  next hprocessed =>
  split
  · exact hsame
  next hdiscarded =>
  split
  · exact hsame
  next hfetching =>
  split
  · exact hsame
  next hfull =>
  -- From here on the envelope is in none of the four collections.
  have hready := countP_eq_zero_of_not_isReady (hadmits.resolve_left hfull)
  have hplaces : (s₁.accountOf codec envelope).places = 0 := by
    simp only [accountOf, account, SlotEnvelopes.account, Account.places, hready,
      if_neg hprocessed, if_neg hdiscarded, if_neg hfetching]
  split
  · exact hsame.readyAtOnce receivedAt rfl hplaces
  · have hparked := hsame.park (computeEnvelopeHash codec envelope)
      { envelope, receivedAt } hplaces
    split
    · exact hparked.startFetch _ _
    · exact (hparked.startFetch _ _).dropUntracked _ _

omit [LinearOrder V] in
theorem slotFull_or_not_ready (hreadmits : ¬s.readmits codec envelope)
    (hsigned : checkStellarValueSigned codec envelope = true) :
    s.perSlotFull envelope.statement.slotIndex = true ∨
      (s.slotState envelope.statement.slotIndex).isReady codec
        (computeEnvelopeHash codec envelope) = false := by
  by_contra hneither
  rw [not_or, Bool.not_eq_true, Bool.not_eq_false] at hneither
  exact hreadmits ⟨hsigned, hneither.2, hneither.1⟩

theorem Balanced.recvEnvelope (hbalanced : s.Balanced codec)
    (hreadmits : ¬s.readmits codec envelope) :
    (s.recvEnvelope codec envelope).1.Balanced codec := by
  unfold FetchingEnvelopes.recvEnvelope
  split
  · exact hbalanced
  next hsigned =>
    exact hbalanced.recvEnvelopeInner none
      (slotFull_or_not_ready hreadmits (by simpa using hsigned))

theorem Balanced.recvEnvelopeValidated (hbalanced : s.Balanced codec) (receivedAt : Option Nat)
    (hreadmits : ¬s.readmits codec envelope) :
    (s.recvEnvelopeValidated codec envelope receivedAt).1.Balanced codec := by
  unfold FetchingEnvelopes.recvEnvelopeValidated
  split
  · exact hbalanced
  next hsigned =>
    exact hbalanced.recvEnvelopeInner receivedAt
      (slotFull_or_not_ready hreadmits (by simpa using hsigned))

end Receiving

/-! ### Arrivals -/

section Arrivals

section

variable (hbalanced : s.Balanced codec)
include hbalanced

theorem Balanced.checkAndMoveToReady
    (envelope : ScpEnvelope N V H) : (s.checkAndMoveToReady codec envelope).Balanced codec := by
  unfold FetchingEnvelopes.checkAndMoveToReady
  dsimp only
  split
  · split
    next slotState hlookup =>
      split
      next entry hentry =>
        rw [← slotState_of_lookup hlookup] at hentry ⊢
        apply hbalanced.readyFromParked entry.receivedAt rfl
        rw [← AList.lookup_isSome, hentry]
        rfl
      · exact hbalanced
    · exact hbalanced
  · exact hbalanced.startFetch _ _

theorem Balanced.moveAll (envelopes : List (ScpEnvelope N V H)) :
    (s.moveAll codec envelopes).Balanced codec := by
  unfold FetchingEnvelopes.moveAll
  refine foldlRecOn (motive := fun s : FetchingEnvelopes N V H => s.Balanced codec) _ _ ?_ ?_
  · exact hbalanced
  · exact fun _ hcurrent envelope _ => hcurrent.checkAndMoveToReady envelope

theorem Balanced.recvTxSet (hash : H) : (s.recvTxSet codec hash).1.Balanced codec := by
  unfold FetchingEnvelopes.recvTxSet
  split
  · exact hbalanced
  · apply Balanced.moveAll
    exact hbalanced.of_same rfl rfl

theorem Balanced.onTxSetAccepted (hash : H) : (s.onTxSetAccepted codec hash).Balanced codec := by
  apply Balanced.moveAll
  apply Balanced.moveAll
  exact hbalanced.of_same rfl rfl

theorem Balanced.cacheQuorumSet (hash : H) (quorumSet : ScpQuorumSet N) (draws : Nat × Nat) :
    (s.cacheQuorumSet codec hash quorumSet draws).Balanced codec := by
  apply Balanced.moveAll
  exact hbalanced.of_same rfl rfl

end

end Arrivals

/-! ### Discarding -/

section Discarding

variable {envelope : ScpEnvelope N V H} (codec s envelope) in
/-- The envelope is ready or was popped. -/
def wentAhead : Prop :=
  (s.slotState envelope.statement.slotIndex).isReady codec
      (computeEnvelopeHash codec envelope) = true ∨
    computeEnvelopeHash codec envelope ∈ (s.slotState envelope.statement.slotIndex).processed

omit [DecidableEq N] in
theorem discardEnvelope_ahead (slot : Nat) :
    ((s.discardEnvelope codec envelope).slotState slot).ready = (s.slotState slot).ready ∧
      ((s.discardEnvelope codec envelope).slotState slot).processed =
        (s.slotState slot).processed := by
  unfold discardEnvelope
  dsimp only
  split
  · rw [slotState_setSlot]
    split
    next heq => rw [heq]; exact ⟨rfl, rfl⟩
    · exact ⟨rfl, rfl⟩
  · change ((s.setSlot _ _).slotState slot).ready = _ ∧ ((s.setSlot _ _).slotState slot).processed = _
    rw [slotState_setSlot]
    split
    next heq => rw [heq]; exact ⟨rfl, rfl⟩
    · exact ⟨rfl, rfl⟩

section

variable (hbalanced : s.Balanced codec)
include hbalanced

theorem Balanced.discardEnvelope (hahead : ¬s.wentAhead codec envelope) :
    (s.discardEnvelope codec envelope).Balanced codec := by
  rw [wentAhead, not_or, Bool.not_eq_true] at hahead
  unfold FetchingEnvelopes.discardEnvelope
  dsimp only
  split
  · exact hbalanced.setSlot_same _
  next hfresh =>
    have hdiscarded := hbalanced.discardOne rfl (countP_eq_zero_of_not_isReady hahead.1)
      (if_neg hahead.2) hfresh
    exact hdiscarded.of_same rfl rfl

theorem Balanced.discardEnvelopesWithQuorumSet (qsHash : H)
    (hahead : ∀ envelope ∈ s.quorumSetFetcher.fetchingFor qsHash, ¬s.wentAhead codec envelope) :
    (s.discardEnvelopesWithQuorumSet codec qsHash).Balanced codec := by
  unfold FetchingEnvelopes.discardEnvelopesWithQuorumSet
  generalize s.quorumSetFetcher.fetchingFor qsHash = envelopes at hahead
  induction envelopes generalizing s with
  | nil => exact hbalanced
  | cons envelope rest ih =>
    apply ih
    · exact hbalanced.discardEnvelope (hahead envelope mem_cons_self)
    · intro other hother
      rw [wentAhead, SlotEnvelopes.isReady, (discardEnvelope_ahead _).1,
        (discardEnvelope_ahead _).2]
      exact hahead other (mem_cons_of_mem _ hother)

theorem Balanced.recvQuorumSet (hash : H)
    (quorumSet : ScpQuorumSet N) (draws : Nat × Nat) (hahead : quorumSet.sane = false →
      ∀ envelope ∈ s.quorumSetFetcher.fetchingFor hash, ¬s.wentAhead codec envelope) :
    (s.recvQuorumSet codec hash quorumSet draws).1.Balanced codec := by
  unfold FetchingEnvelopes.recvQuorumSet
  split
  · exact hbalanced
  split
  next hsane => exact hbalanced.discardEnvelopesWithQuorumSet hash (hahead (by simpa using hsane))
  · apply Balanced.moveAll
    exact hbalanced.of_same rfl rfl

end

end Discarding

/-! ### Popping and erasing -/

section Popping

theorem Balanced.popFromSlot (hbalanced : s.Balanced codec) (slot : Nat) :
    (s.popFromSlot codec slot).1.Balanced codec := by
  unfold FetchingEnvelopes.popFromSlot
  split
  next slotState hlookup =>
    split
    next envelope hlast =>
      rw [← slotState_of_lookup hlookup] at hlast ⊢
      exact hbalanced.popReady (dropLast_append_getLast? envelope hlast).symm
    · exact hbalanced
  · exact hbalanced

theorem Balanced.pop (hbalanced : s.Balanced codec) (maxSlot : Nat) :
    (s.pop codec maxSlot).1.Balanced codec := by
  unfold FetchingEnvelopes.pop
  dsimp only
  split
  · exact hbalanced.popFromSlot _
  · exact hbalanced

omit [DecidableEq N] [LinearOrder V] [DecidableEq H] in
theorem slotState_eraseSlot (slot other : Nat) :
    (s.eraseSlot slot).slotState other = if other = slot then default else s.slotState other := by
  unfold eraseSlot
  rw [slotState]
  split
  next heq =>
    rw [heq, AList.lookup_erase]
    rfl
  next hne => rw [AList.lookup_erase_ne hne, slotState]

theorem account_default (slot : Nat) (hash : H) (history : List (Event N V H)) :
    (default : SlotEnvelopes N V H).account codec slot hash history =
      { fetching := 0, ready := 0, processed := 0, discarded := 0
        timesBroadcast := times slot (broadcasts codec slot hash) history
        timesPopped := times slot (pops codec slot hash) history
        timesDiscarded := times slot (discards codec slot hash) history } := by
  have hfetching : hash ∉ (default : SlotEnvelopes N V H).fetching := AList.notMem_empty hash
  have hprocessed : hash ∉ (default : SlotEnvelopes N V H).processed := Finset.notMem_empty hash
  have hdiscarded : hash ∉ (default : SlotEnvelopes N V H).discarded := Finset.notMem_empty hash
  simp only [SlotEnvelopes.account, if_neg hfetching, if_neg hprocessed, if_neg hdiscarded]
  rfl

theorem Balanced.eraseSlot (hbalanced : s.Balanced codec) (slot : Nat) :
    (s.eraseSlot slot).Balanced codec := by
  constructor
  · intro other hash
    rw [account, slotState_eraseSlot]
    split
    next heq =>
      rw [heq, account_default]
      simp only [FetchingEnvelopes.eraseSlot, times_erased]
      exact ⟨Nat.zero_le 1, le_refl 0, le_refl 0, le_refl 0⟩
    next hne =>
      have hold := hbalanced.accounts other hash
      simp only [account, SlotEnvelopes.account] at hold ⊢
      rw [FetchingEnvelopes.eraseSlot, times_erased_ne (Ne.symm hne) rfl,
        times_erased_ne (Ne.symm hne) rfl, times_erased_ne (Ne.symm hne) rfl]
      exact hold
  · intro other
    rw [slotState_eraseSlot]
    split
    · exact fun envelope hmem => absurd hmem not_mem_nil
    · exact hbalanced.filed other

theorem Balanced.retainSlots (hbalanced : s.Balanced codec) (keep : Nat → Bool) :
    (s.retainSlots keep).Balanced codec := by
  unfold FetchingEnvelopes.retainSlots
  refine foldlRecOn (motive := fun s : FetchingEnvelopes N V H => s.Balanced codec) _ _ ?_ ?_
  · exact hbalanced
  · exact fun _ hcurrent slot _ => hcurrent.eraseSlot slot

end Popping

/-! ### Runs -/

/-- What the rest of the node asks for. -/
inductive Operation (N V H : Type) where
  | recvEnvelope (envelope : ScpEnvelope N V H)
  | recvEnvelopeValidated (envelope : ScpEnvelope N V H) (receivedAt : Option Nat)
  | recvTxSet (hash : H)
  | recvQuorumSet (hash : H) (quorumSet : ScpQuorumSet N) (draws : Nat × Nat)
  | onTxSetAccepted (hash : H)
  | cacheQuorumSet (hash : H) (quorumSet : ScpQuorumSet N) (draws : Nat × Nat)
  | pop (maxSlot : Nat)
  | popFromSlot (slot : Nat)
  | discard (envelope : ScpEnvelope N V H)
  | trimStale (keepAfterSlot : Nat)
  | eraseOutsideRange (minSlot maxSlot : Option Nat) (slotToKeep : Nat)
  | setCurrentSlot (slot : Nat)
  | setBroadcast

section Runs

variable (codec)

def operate (s : FetchingEnvelopes N V H) : Operation N V H → FetchingEnvelopes N V H
  | .recvEnvelope envelope => (s.recvEnvelope codec envelope).1
  | .recvEnvelopeValidated envelope receivedAt =>
    (s.recvEnvelopeValidated codec envelope receivedAt).1
  | .recvTxSet hash => (s.recvTxSet codec hash).1
  | .recvQuorumSet hash quorumSet draws => (s.recvQuorumSet codec hash quorumSet draws).1
  | .onTxSetAccepted hash => s.onTxSetAccepted codec hash
  | .cacheQuorumSet hash quorumSet draws => s.cacheQuorumSet codec hash quorumSet draws
  | .pop maxSlot => (s.pop codec maxSlot).1
  | .popFromSlot slot => (s.popFromSlot codec slot).1
  | .discard envelope => s.discardEnvelope codec envelope
  | .trimStale keepAfterSlot => s.trimStale keepAfterSlot
  | .eraseOutsideRange minSlot maxSlot slotToKeep => s.eraseOutsideRange minSlot maxSlot slotToKeep
  | .setCurrentSlot slot => { s with currentSlot := slot }
  | .setBroadcast => { s with broadcast := true }

/-- No envelope comes back while it is ready, and none that went ahead is discarded. -/
def Spares (s : FetchingEnvelopes N V H) : Operation N V H → Prop
  | .recvEnvelope envelope => ¬s.readmits codec envelope
  | .recvEnvelopeValidated envelope _ => ¬s.readmits codec envelope
  | .recvQuorumSet hash quorumSet _ =>
    quorumSet.sane = false →
      ∀ envelope ∈ s.quorumSetFetcher.fetchingFor hash, ¬s.wentAhead codec envelope
  | .discard envelope => ¬s.wentAhead codec envelope
  | _ => True

/-- The states of runs in which every operation is an allowed one. In between, the
driver may change its answers and a hash map its order. -/
inductive Reachable (config : FetchingConfig)
    (allowed : FetchingEnvelopes N V H → Operation N V H → Prop) :
    FetchingEnvelopes N V H → Prop where
  | new (hasTxSet : H → Nat → Bool) : Reachable config allowed (.new config hasTxSet)
  | operate {s : FetchingEnvelopes N V H} (operation : Operation N V H) :
      Reachable config allowed s → allowed s operation →
        Reachable config allowed (s.operate codec operation)
  | driver {s : FetchingEnvelopes N V H} (hasTxSet : H → Nat → Bool) :
      Reachable config allowed s → Reachable config allowed { s with hasTxSet }
  | rehash {s : FetchingEnvelopes N V H} (slot : Nat) {slotState : SlotEnvelopes N V H}
      (fetching : AList fun _ : H => FetchingEntry N V H) :
      Reachable config allowed s → s.slots.lookup slot = some slotState →
        fetching.entries.Perm slotState.fetching.entries →
        Reachable config allowed (s.setSlot slot { slotState with fetching })

variable {codec}

theorem balanced_new (config : FetchingConfig) (hasTxSet : H → Nat → Bool) :
    Balanced codec (.new config hasTxSet : FetchingEnvelopes N V H) := by
  constructor
  · intro slot hash
    change ((default : SlotEnvelopes N V H).account codec slot hash []).Balanced
    rw [account_default]
    exact ⟨Nat.zero_le 1, le_refl 0, le_refl 0, le_refl 0⟩
  · intro slot envelope hmem
    exact absurd hmem not_mem_nil

theorem Balanced.rehash (hbalanced : s.Balanced codec) {slot : Nat}
    {slotState : SlotEnvelopes N V H} (hlookup : s.slots.lookup slot = some slotState)
    {fetching : AList fun _ : H => FetchingEntry N V H}
    (hperm : fetching.entries.Perm slotState.fetching.entries) :
    (s.setSlot slot { slotState with fetching }).Balanced codec := by
  rw [← slotState_of_lookup hlookup] at hperm ⊢
  refine hbalanced.setSlot (hbalanced.filed slot) fun hash => ?_
  have hsame : SlotEnvelopes.account codec slot hash { s.slotState slot with fetching } s.history =
      s.account codec slot hash :=
    account_congr (AList.mem_of_perm hperm) rfl Iff.rfl Iff.rfl
  rw [hsame]
  exact hbalanced.accounts slot hash

theorem Balanced.operate (hbalanced : s.Balanced codec) {operation : Operation N V H}
    (hspares : s.Spares codec operation) : (s.operate codec operation).Balanced codec := by
  cases operation with
  | recvEnvelope envelope => exact hbalanced.recvEnvelope hspares
  | recvEnvelopeValidated envelope receivedAt =>
    exact hbalanced.recvEnvelopeValidated receivedAt hspares
  | recvTxSet hash => exact hbalanced.recvTxSet hash
  | recvQuorumSet hash quorumSet draws => exact hbalanced.recvQuorumSet hash quorumSet draws hspares
  | onTxSetAccepted hash => exact hbalanced.onTxSetAccepted hash
  | cacheQuorumSet hash quorumSet draws => exact hbalanced.cacheQuorumSet hash quorumSet draws
  | pop maxSlot => exact hbalanced.pop maxSlot
  | popFromSlot slot => exact hbalanced.popFromSlot slot
  | discard envelope => exact hbalanced.discardEnvelope hspares
  | trimStale keepAfterSlot => exact (hbalanced.retainSlots _).of_same rfl rfl
  | eraseOutsideRange minSlot maxSlot slotToKeep =>
    exact (hbalanced.retainSlots _).of_same rfl rfl
  | setCurrentSlot slot => exact hbalanced.of_same rfl rfl
  | setBroadcast => exact hbalanced.of_same rfl rfl

theorem Reachable.balanced {config : FetchingConfig}
    (hreachable : s.Reachable codec config (Spares codec)) : s.Balanced codec := by
  induction hreachable with
  | new hasTxSet => exact balanced_new config hasTxSet
  | operate operation _ hspares ih => exact ih.operate hspares
  | driver hasTxSet _ ih => exact ih.of_same rfl rfl
  | rehash slot fetching _ hlookup hperm ih => exact ih.rehash hlookup hperm

end Runs

end FetchingEnvelopes

/-! ### Delivered once -/

open FetchingEnvelopes

/-- In one place, broadcast and popped once at most, and never popped when
discarded. -/
structure Account.DeliveredOnce (account : Account) : Prop where
  onePlace : account.places ≤ 1
  broadcastOnce : account.timesBroadcast ≤ 1
  poppedOnce : account.timesPopped ≤ 1
  discardedNever : 0 < account.discarded ∨ 0 < account.timesDiscarded → account.timesPopped = 0

theorem Account.Balanced.deliveredOnce {account : Account} (hbalanced : account.Balanced) :
    account.DeliveredOnce := by
  obtain ⟨hplaces, hbroadcast, hpopped, hdiscarded⟩ := hbalanced
  rw [Account.places] at hplaces
  constructor
  · exact hplaces
  · omega
  · omega
  · omega

/-- As long as every operation spares what went ahead, every envelope is in one
place, broadcast once and popped once until its slot is erased. -/
theorem envelopes_delivered_once {codec : Codec N V H} {config : FetchingConfig}
    {s : FetchingEnvelopes N V H} (hreachable : s.Reachable codec config (Spares codec))
    (slot : Nat) (hash : H) : (s.account codec slot hash).DeliveredOnce :=
  (hreachable.balanced.accounts slot hash).deliveredOnce

/-! ### An envelope that comes back -/

section Resent

/-- Values are their own transaction set hashes, and slots the hashes of envelopes. -/
def plainCodec : Codec Unit Nat Nat where
  stellarValueFromXdr value := some {
    txSetHash := value
    closeTime := 0
    upgrades := []
    ext := .signed { nodeId := (), signature := [] } }
  hashXdr envelope := envelope.statement.slotIndex

def plainConfig : FetchingConfig where
  maxTxSetTrackers := 512
  maxQuorumSetTrackers := 512
  maxQuorumSetCache := 10000
  maxEnvelopesPerSlot := 5000
  maxFutureSlots := 100

def externalizeEnvelope : ScpEnvelope Unit Nat Nat where
  statement := {
    nodeId := ()
    slotIndex := 5
    pledges := .externalize {
      commit := { counter := 1, value := 7 }
      nH := 1
      commitQuorumSetHash := 1 } }
  signature := []

/-- The state after some operations, with every transaction set at hand. -/
def afterOperations (operations : List (Operation Unit Nat Nat)) : FetchingEnvelopes Unit Nat Nat :=
  operations.foldl (operate plainCodec) (.new plainConfig fun _ _ => true)

def cacheThenReceive : List (Operation Unit Nat Nat) :=
  [.setBroadcast, .cacheQuorumSet 1 (simpleQuorumSet 1 [()]) (0, 0),
    .recvEnvelope externalizeEnvelope]

theorem reachable_afterOperations (operations : List (Operation Unit Nat Nat)) :
    (afterOperations operations).Reachable plainCodec plainConfig (fun _ _ => True) := by
  refine foldlRecOn (motive := fun s : FetchingEnvelopes Unit Nat Nat =>
    s.Reachable plainCodec plainConfig fun _ _ => True) _ _ (.new _) ?_
  exact fun _ hcurrent operation _ => hcurrent.operate operation trivial

/-- Received again while it is ready, an envelope is broadcast and popped twice. -/
theorem resent_while_ready :
    ∃ s : FetchingEnvelopes Unit Nat Nat,
      s.Reachable plainCodec plainConfig (fun _ _ => True) ∧
        (s.account plainCodec 5 5).timesBroadcast = 2 ∧
        (s.account plainCodec 5 5).timesPopped = 2 ∧
        ¬(s.account plainCodec 5 5).DeliveredOnce := by
  refine ⟨afterOperations (cacheThenReceive ++ [.recvEnvelope externalizeEnvelope,
    .pop 5, .pop 5]), reachable_afterOperations _, by decide, by decide, ?_⟩
  intro honce
  exact absurd honce.poppedOnce (by decide)

/-- Received again after it was popped, an envelope is recognised. -/
theorem envelopes_delivered_once_popped :
    ((afterOperations (cacheThenReceive ++ [.pop 5, .recvEnvelope externalizeEnvelope])).account
      plainCodec 5 5).DeliveredOnce := by
  have hnew : Reachable plainCodec plainConfig (Spares plainCodec)
      (.new plainConfig fun _ _ => true) := .new fun _ _ => true
  have hbroadcast := hnew.operate .setBroadcast trivial
  have hcached := hbroadcast.operate
    (.cacheQuorumSet 1 (simpleQuorumSet 1 [()]) (0, 0)) trivial
  have hreceived := hcached.operate (.recvEnvelope externalizeEnvelope)
    fun hreadmits => absurd hreadmits.2.1 (by decide)
  have hpopped := hreceived.operate (.pop 5) trivial
  have hagain := hpopped.operate (.recvEnvelope externalizeEnvelope)
    fun hreadmits => absurd hreadmits.2.1 (by decide)
  exact envelopes_delivered_once hagain 5 5

end Resent

end Henyey.Herder
