import Henyey.Herder.FetchingEnvelopes

/-!
# Between the locks of the envelope intake

Taking an envelope in, announcing what has arrived and checking the envelopes that wait
for it are separate critical sections; other threads may come in between. Here each of
them is an action of its own.
-/

namespace Henyey.Herder

open Scp

variable {N V H : Type}

/-! ### Dependencies -/

inductive Dependency (H : Type) where
  | txSet (hash : H)
  | quorumSet (hash : H)
deriving DecidableEq

def Dependency.hash : Dependency H → H
  | .txSet hash => hash
  | .quorumSet hash => hash

/-- What an envelope refers to. -/
def dependencies [LinearOrder V] (codec : Codec N V H) (envelope : ScpEnvelope N V H) :
    List (Dependency H) :=
  (extractTxSetHashes codec envelope).map .txSet ++
    (extractQuorumSetHash envelope).toList.map .quorumSet

/-- An envelope among those that a tracker lists. -/
def ItemFetcher.Lists [DecidableEq H] (codec : Codec N V H) (fetcher : ItemFetcher N V H)
    (itemHash : H) (envelope : ScpEnvelope N V H) : Prop :=
  ∃ tracker, fetcher.trackers.lookup itemHash = some tracker ∧
    (codec.hashXdr envelope, envelope) ∈ tracker.waitingEnvelopes

/-- An item that is tracked, or for which there is room. -/
def ItemFetcher.Accepts [DecidableEq H] (fetcher : ItemFetcher N V H) (itemHash : H) : Prop :=
  fetcher.isTracking itemHash = true ∨
    ¬(fetcher.maxTrackers > 0 ∧ fetcher.trackers.keys.length ≥ fetcher.maxTrackers)

instance [DecidableEq H] (fetcher : ItemFetcher N V H) (itemHash : H) :
    Decidable (fetcher.Accepts itemHash) :=
  inferInstanceAs (Decidable (_ ∨ _))

namespace FetchingEnvelopes

section Dependencies

variable [DecidableEq N] [LinearOrder V] [DecidableEq H] (codec : Codec N V H)
  (s : FetchingEnvelopes N V H)

def Available (slot : Nat) : Dependency H → Prop
  | .txSet hash => s.hasTxSet hash slot = true
  | .quorumSet hash => s.quorumSetCache.exists hash = true

instance (slot : Nat) (dependency : Dependency H) : Decidable (s.Available slot dependency) := by
  cases dependency <;> unfold Available <;> infer_instance

/-- The fetcher of the matching kind. -/
def fetcherOf : Dependency H → ItemFetcher N V H
  | .txSet _ => s.txSetFetcher
  | .quorumSet _ => s.quorumSetFetcher

def Lists (dependency : Dependency H) (envelope : ScpEnvelope N V H) : Prop :=
  (s.fetcherOf dependency).Lists codec dependency.hash envelope

def Accepts (dependency : Dependency H) : Prop :=
  (s.fetcherOf dependency).Accepts dependency.hash

/-- The envelope is held in fetching. -/
def Parked (envelope : ScpEnvelope N V H) : Prop :=
  ∃ entry, (s.slotState envelope.statement.slotIndex).fetching.lookup
    (computeEnvelopeHash codec envelope) = some entry ∧ entry.envelope = envelope

/-- The envelope is ready, or it was popped. -/
def Delivered (envelope : ScpEnvelope N V H) : Prop :=
  envelope ∈ (s.slotState envelope.statement.slotIndex).ready ∨
    computeEnvelopeHash codec envelope ∈ (s.slotState envelope.statement.slotIndex).processed

end Dependencies

/-! ### The two phases of a reception -/

section Phases

variable [DecidableEq N] [LinearOrder V] [DecidableEq H] (codec : Codec N V H)
  (s : FetchingEnvelopes N V H)

/-- The first phase of `recv_envelope_inner`, under the lock of the slots. The second
phase is due for an envelope that is parked, with what it needs. -/
def enter (envelope : ScpEnvelope N V H) (receivedAt : Option Nat) :
    FetchingEnvelopes N V H × RecvResult × Option (Bool × Bool) :=
  let slot := envelope.statement.slotIndex
  let envHash := computeEnvelopeHash codec envelope
  if s.futureSlotsFull slot then (s, .futureSlotsFull, none)
  else
    let slotState := s.slotState slot
    let s := s.setSlot slot slotState
    if envHash ∈ slotState.processed then (s, .alreadyProcessed, none)
    else if envHash ∈ slotState.discarded then (s, .discarded, none)
    else if envHash ∈ slotState.fetching then (s, .fetching, none)
    else if s.perSlotFull slot then (s, .perSlotFull, none)
    else
      let (needTxSet, needQuorumSet) := s.checkDependencies codec envelope
      if !needTxSet && !needQuorumSet then
        let s := s.setSlot slot { slotState with ready := slotState.ready ++ [envelope] }
        (s.broadcastEnvelope envelope receivedAt .immediate, .ready, none)
      else
        let entry : FetchingEntry N V H := { envelope, receivedAt }
        (s.setSlot slot { slotState with fetching := slotState.fetching.insert envHash entry },
          .fetching, some (needTxSet, needQuorumSet))

/-- The second phase: register the fetches, or drop the envelope when none is accepted. -/
def register (envelope : ScpEnvelope N V H) (needTxSet needQuorumSet : Bool) :
    FetchingEnvelopes N V H :=
  let (s, anyTracked) := s.startFetch codec envelope needTxSet needQuorumSet
  if anyTracked then s
  else s.dropUntracked envelope.statement.slotIndex (computeEnvelopeHash codec envelope)

omit [DecidableEq N] in
/-- Without another thread in between the two phases are the reception. -/
theorem recvEnvelopeInner_eq_phases (envelope : ScpEnvelope N V H) (receivedAt : Option Nat) :
    s.recvEnvelopeInner codec envelope receivedAt =
      match s.enter codec envelope receivedAt with
      | (s, result, none) => (s, result)
      | (s, result, some (needTxSet, needQuorumSet)) =>
        (s.register codec envelope needTxSet needQuorumSet, result) := by
  unfold recvEnvelopeInner enter
  dsimp only
  split
  · rfl
  split
  · rfl
  split
  · rfl
  split
  · rfl
  split
  · rfl
  split
  · rfl
  · unfold register
    dsimp only
    split <;> rfl

end Phases

end FetchingEnvelopes

/-! ### Actions -/

structure Reception (N V H : Type) where
  envelope : ScpEnvelope N V H
  needTxSet : Bool
  needQuorumSet : Bool
deriving DecidableEq

/-- The intake with what the threads in it still have to do. -/
structure Intake (N V H : Type) where
  state : FetchingEnvelopes N V H
  /-- Parked envelopes whose fetches are not registered yet. -/
  receptions : List (Reception N V H)
  /-- Envelopes that wait for something that arrived and are not checked yet. -/
  rechecks : List (ScpEnvelope N V H)
  /-- What has arrived and whose envelopes are not looked for yet. -/
  announced : List (Dependency H)
  /-- Every envelope that was received or discarded. -/
  seen : List (ScpEnvelope N V H)
  /-- Envelopes that were parked; less those that were discarded, those of erased slots and
  those that were dropped while something was missing. -/
  owed : List (ScpEnvelope N V H)

inductive Action (N V H : Type) where
  /-- The first phase of a reception. -/
  | receive (envelope : ScpEnvelope N V H) (receivedAt : Option Nat)
  /-- The second phase. -/
  | register (index : Nat)
  | recvTxSet (hash : H)
  | recvQuorumSet (hash : H) (quorumSet : ScpQuorumSet N) (draws : Nat × Nat)
  /-- The driver stores a transaction set that it is about to report. -/
  | storeTxSet (hash : H)
  /-- The first half of `on_tx_set_accepted`. -/
  | notifyTxSet (hash : H)
  /-- Its second half. -/
  | scanTxSet (hash : H)
  /-- The first half of `cache_quorum_set`. -/
  | putQuorumSet (hash : H) (quorumSet : ScpQuorumSet N) (draws : Nat × Nat)
  /-- Its second half. -/
  | scanQuorumSet (hash : H)
  /-- `check_and_move_to_ready` of one envelope. -/
  | recheck (index : Nat)
  /-- The driver forgets transaction sets. -/
  | forgetTxSets (keep : H → Nat → Bool)
  | pop (maxSlot : Nat)
  | popFromSlot (slot : Nat)
  | discard (envelope : ScpEnvelope N V H)
  | trimStale (keepAfterSlot : Nat)
  | eraseOutsideRange (minSlot maxSlot : Option Nat) (slotToKeep : Nat)
  | setCurrentSlot (slot : Nat)
  | setBroadcast

namespace Intake

variable [DecidableEq N] [LinearOrder V] [DecidableEq H] (codec : Codec N V H)

def new (config : FetchingConfig) (hasTxSet : H → Nat → Bool) : Intake N V H where
  state := .new config hasTxSet
  receptions := []
  rechecks := []
  announced := []
  seen := []
  owed := []

variable (s : Intake N V H)

def receive (envelope : ScpEnvelope N V H) (receivedAt : Option Nat) : Intake N V H :=
  let s := { s with seen := envelope :: s.seen }
  if !checkStellarValueSigned codec envelope then s
  else
    match s.state.enter codec envelope receivedAt with
    | (state, _, none) => { s with state }
    | (state, _, some (needTxSet, needQuorumSet)) =>
      { s with
        state
        receptions := { envelope, needTxSet, needQuorumSet } :: s.receptions
        owed := envelope :: s.owed }

/-- An envelope that is dropped although nothing is missing is still owed. -/
def register (reception : Reception N V H) : Intake N V H :=
  let envelope := reception.envelope
  let state := s.state.register codec envelope reception.needTxSet reception.needQuorumSet
  let tracked :=
    (s.state.startFetch codec envelope reception.needTxSet reception.needQuorumSet).2
  let missing := (dependencies codec envelope).any fun dependency =>
    !decide (s.state.Available envelope.statement.slotIndex dependency)
  { s with
    state
    owed := if !tracked && missing then s.owed.filter (· ≠ envelope) else s.owed }

def recvTxSet (hash : H) : Intake N V H :=
  if !s.state.txSetFetcher.isTracking hash then s
  else
    let (txSetFetcher, waiting) := s.state.txSetFetcher.recv hash
    { s with
      state := { s.state with txSetFetcher }
      rechecks := s.rechecks ++ waiting
      announced := s.announced.filter (· ≠ .txSet hash) }

def notifyTxSet (hash : H) : Intake N V H :=
  let (txSetFetcher, waiting) := s.state.txSetFetcher.recv hash
  { s with
    state := { s.state with txSetFetcher }
    rechecks := s.rechecks ++ waiting
    announced := s.announced.filter (· ≠ .txSet hash) }

def recvQuorumSet (hash : H) (quorumSet : ScpQuorumSet N) (draws : Nat × Nat) : Intake N V H :=
  if !s.state.quorumSetFetcher.isTracking hash then s
  else
    if !quorumSet.sane then
      { s with
        state := s.state.discardEnvelopesWithQuorumSet codec hash
        owed := s.owed.filter fun envelope =>
          !(s.state.quorumSetFetcher.fetchingFor hash).any fun other =>
            codec.hashXdr other == codec.hashXdr envelope }
    else
      let (quorumSetFetcher, waiting) := s.state.quorumSetFetcher.recv hash
      let quorumSetCache := s.state.quorumSetCache.put hash quorumSet draws
      { s with
        state := { s.state with quorumSetFetcher, quorumSetCache }
        rechecks := s.rechecks ++ waiting
        announced := s.announced.filter (· ≠ .quorumSet hash) }

def keepOwed (keep : Nat → Bool) : List (ScpEnvelope N V H) :=
  s.owed.filter fun envelope => keep envelope.statement.slotIndex

def perform : Action N V H → Intake N V H
  | .receive envelope receivedAt => s.receive codec envelope receivedAt
  | .register index =>
    match s.receptions[index]? with
    | some reception =>
      { s with receptions := s.receptions.eraseIdx index }.register codec reception
    | none => s
  | .recvTxSet hash => s.recvTxSet hash
  | .recvQuorumSet hash quorumSet draws => s.recvQuorumSet codec hash quorumSet draws
  | .storeTxSet hash =>
    { s with
      state := { s.state with
        hasTxSet := fun other slot => other == hash || s.state.hasTxSet other slot }
      announced := .txSet hash :: s.announced }
  | .notifyTxSet hash => s.notifyTxSet hash
  | .scanTxSet hash =>
    { s with rechecks := s.rechecks ++ s.state.parked.filter fun envelope =>
        (extractTxSetHashes codec envelope).any (· == hash) }
  | .putQuorumSet hash quorumSet draws =>
    { s with
      state := { s.state with
        quorumSetCache := s.state.quorumSetCache.put hash quorumSet draws }
      announced := .quorumSet hash :: s.announced }
  | .scanQuorumSet hash =>
    { s with
      rechecks := s.rechecks ++ s.state.parked.filter fun envelope =>
        extractQuorumSetHash envelope == some hash
      announced := s.announced.filter (· ≠ .quorumSet hash) }
  | .recheck index =>
    match s.rechecks[index]? with
    | some envelope =>
      { s with
        state := s.state.checkAndMoveToReady codec envelope
        rechecks := s.rechecks.eraseIdx index }
    | none => s
  | .forgetTxSets keep =>
    { s with state := { s.state with
        hasTxSet := fun hash slot => s.state.hasTxSet hash slot && keep hash slot } }
  | .pop maxSlot => { s with state := (s.state.pop codec maxSlot).1 }
  | .popFromSlot slot => { s with state := (s.state.popFromSlot codec slot).1 }
  | .discard envelope =>
    { s with
      state := s.state.discardEnvelope codec envelope
      seen := envelope :: s.seen
      owed := s.owed.filter (· ≠ envelope) }
  | .trimStale keepAfterSlot =>
    { s with
      state := s.state.trimStale keepAfterSlot
      owed := s.keepOwed fun slot => slot > keepAfterSlot }
  | .eraseOutsideRange minSlot maxSlot slotToKeep =>
    { s with
      state := s.state.eraseOutsideRange minSlot maxSlot slotToKeep
      owed := s.keepOwed (keepsSlot minSlot maxSlot slotToKeep) }
  | .setCurrentSlot slot => { s with state := { s.state with currentSlot := slot } }
  | .setBroadcast => { s with state := { s.state with broadcast := true } }

/-! ### Without another thread in between -/

/-- Check every envelope that is to be checked. -/
def recheckAll : Intake N V H :=
  (fun s : Intake N V H => s.perform codec (.recheck 0))^[s.rechecks.length] s

theorem state_recheckAll : (s.recheckAll codec).state = s.state.moveAll codec s.rechecks := by
  unfold recheckAll
  generalize hrechecks : s.rechecks = rechecks
  induction rechecks generalizing s with
  | nil => rfl
  | cons envelope rest ih =>
    have hstep : s.perform codec (.recheck 0) =
        { s with state := s.state.checkAndMoveToReady codec envelope, rechecks := rest } := by
      simp [perform, hrechecks]
    rw [List.length_cons, Function.iterate_succ_apply, hstep]
    exact ih _ rfl

variable {s}

theorem state_onTxSetAccepted (hnone : s.rechecks = []) (hash : H) :
    let notified := (s.perform codec (.notifyTxSet hash)).recheckAll codec
    (({ notified with rechecks := [] }.perform codec (.scanTxSet hash)).recheckAll codec).state =
      s.state.onTxSetAccepted codec hash := by
  dsimp only
  rw [state_recheckAll]
  change FetchingEnvelopes.moveReadyEnvelopesForTxSet codec
    ((s.perform codec (.notifyTxSet hash)).recheckAll codec).state hash = _
  rw [state_recheckAll]
  change FetchingEnvelopes.moveReadyEnvelopesForTxSet codec
    ((s.notifyTxSet hash).state.moveAll codec (s.notifyTxSet hash).rechecks) hash = _
  unfold notifyTxSet FetchingEnvelopes.onTxSetAccepted
  rw [hnone]
  rfl

end Intake

end Henyey.Herder
