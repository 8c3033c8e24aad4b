import Henyey.Herder.ItemFetcher
import Henyey.Herder.RandomEvictionCache

/-!
# Envelopes that wait for what they refer to

An envelope refers to transaction sets and to a quorum set. It is parked until all
of them are here, then broadcast and handed on. What is broadcast, popped,
discarded and erased is kept in a history, newest first.
-/

namespace Henyey.Herder

open Scp

inductive ReadyPath where
  | immediate
  | deferred
deriving DecidableEq

structure ScpRelayEnvelope (N V H : Type) where
  envelope : ScpEnvelope N V H
  receivedAt : Option Nat
  readyPath : ReadyPath
deriving DecidableEq

inductive RecvResult where
  | ready
  | fetching
  | alreadyProcessed
  | discarded
  | perSlotFull
  | futureSlotsFull
deriving DecidableEq

structure FetchingEntry (N V H : Type) where
  envelope : ScpEnvelope N V H
  receivedAt : Option Nat
deriving DecidableEq

structure SlotEnvelopes (N V H : Type) where
  discarded : Finset H
  processed : Finset H
  fetching : AList fun _ : H => FetchingEntry N V H
  /-- The last one is popped first. -/
  ready : List (ScpEnvelope N V H)

instance {N V H : Type} : Inhabited (SlotEnvelopes N V H) where
  default := { discarded := ∅, processed := ∅, fetching := ∅, ready := [] }

inductive Event (N V H : Type) where
  | broadcast (relay : ScpRelayEnvelope N V H)
  | popped (envelope : ScpEnvelope N V H)
  | discarded (envelope : ScpEnvelope N V H)
  | erased (slot : Nat)
deriving DecidableEq

structure FetchingConfig where
  maxTxSetTrackers : Nat
  maxQuorumSetTrackers : Nat
  maxQuorumSetCache : Nat
  maxEnvelopesPerSlot : Nat
  maxFutureSlots : Nat

structure FetchingEnvelopes (N V H : Type) where
  slots : AList fun _ : Nat => SlotEnvelopes N V H
  txSetFetcher : ItemFetcher N V H
  quorumSetFetcher : ItemFetcher N V H
  quorumSetCache : RandomEvictionCache H (ScpQuorumSet N)
  /-- What the driver answers when asked for a transaction set. -/
  hasTxSet : H → Nat → Bool
  /-- Whether there is anyone to broadcast to. -/
  broadcast : Bool
  maxEnvelopesPerSlot : Nat
  maxFutureSlots : Nat
  currentSlot : Nat
  history : List (Event N V H)

variable {N V H : Type}

/-! ### What an envelope refers to -/

section References

variable (codec : Codec N V H) (envelope : ScpEnvelope N V H)

def checkStellarValueSigned [DecidableEq N] : Bool :=
  let values : List V :=
    match envelope.statement.pledges with
    | .nominate nom => nom.votes ++ nom.accepted
    | .prepare prep =>
      [prep.ballot.value] ++ (prep.prepared.map ScpBallot.value).toList ++
        (prep.preparedPrime.map ScpBallot.value).toList
    | .confirm conf => [conf.ballot.value]
    | .externalize ext => [ext.commit.value]
  values.all fun value =>
    match codec.stellarValueFromXdr value with
    | some stellarValue => stellarValue.ext != .basic
    | none => false

def extractTxSetHashes [LinearOrder V] : List H :=
  (getStatementValues envelope.statement).filterMap fun value =>
    (codec.stellarValueFromXdr value).map StellarValue.txSetHash

def extractQuorumSetHash : Option H :=
  match envelope.statement.pledges with
  | .nominate nom => some nom.quorumSetHash
  | .prepare prep => some prep.quorumSetHash
  | .confirm conf => some conf.quorumSetHash
  | .externalize ext => some ext.commitQuorumSetHash

def computeEnvelopeHash : H :=
  codec.hashXdr envelope

end References

namespace SlotEnvelopes

variable [DecidableEq H]

/-- How many envelopes this slot took in. -/
def lifetimeCount (slotState : SlotEnvelopes N V H) : Nat :=
  slotState.fetching.keys.length + slotState.ready.length + slotState.processed.card +
    slotState.discarded.card

end SlotEnvelopes

namespace FetchingEnvelopes

variable [DecidableEq N] [LinearOrder V] [DecidableEq H]

def new (config : FetchingConfig) (hasTxSet : H → Nat → Bool) : FetchingEnvelopes N V H where
  slots := ∅
  txSetFetcher := .new config.maxTxSetTrackers
  quorumSetFetcher := .new config.maxQuorumSetTrackers
  quorumSetCache := .new config.maxQuorumSetCache
  hasTxSet
  broadcast := false
  maxEnvelopesPerSlot := config.maxEnvelopesPerSlot
  maxFutureSlots := config.maxFutureSlots
  currentSlot := 0
  history := []

variable (codec : Codec N V H) (s : FetchingEnvelopes N V H)

def slotState (slot : Nat) : SlotEnvelopes N V H :=
  (s.slots.lookup slot).getD default

def setSlot (slot : Nat) (slotState : SlotEnvelopes N V H) : FetchingEnvelopes N V H :=
  { s with slots := s.slots.insert slot slotState }

def record (event : Event N V H) : FetchingEnvelopes N V H :=
  { s with history := event :: s.history }

def broadcastEnvelope (envelope : ScpEnvelope N V H) (receivedAt : Option Nat)
    (readyPath : ReadyPath) : FetchingEnvelopes N V H :=
  if s.broadcast then s.record (.broadcast { envelope, receivedAt, readyPath }) else s

/-- Whether a transaction set and whether the quorum set is missing. -/
def checkDependencies (envelope : ScpEnvelope N V H) : Bool × Bool :=
  let slot := envelope.statement.slotIndex
  let needTxSet := (extractTxSetHashes codec envelope).any fun hash => !s.hasTxSet hash slot
  let needQuorumSet :=
    match extractQuorumSetHash envelope with
    | some hash => !s.quorumSetCache.exists hash
    | none => false
  (needTxSet, needQuorumSet)

/-- Fetch the missing transaction sets; whether one of them is tracked now. -/
def fetchTxSets (envelope : ScpEnvelope N V H) : FetchingEnvelopes N V H × Bool :=
  (extractTxSetHashes codec envelope).foldl
    (fun (s, anyTracked) hash =>
      if s.hasTxSet hash envelope.statement.slotIndex then (s, anyTracked)
      else
        let (txSetFetcher, tracked) := s.txSetFetcher.fetch codec hash envelope
        ({ s with txSetFetcher }, anyTracked || tracked))
    (s, false)

def fetchQuorumSet (envelope : ScpEnvelope N V H) : FetchingEnvelopes N V H × Bool :=
  match extractQuorumSetHash envelope with
  | some hash =>
    let (quorumSetFetcher, tracked) := s.quorumSetFetcher.fetch codec hash envelope
    ({ s with quorumSetFetcher }, tracked)
  | none => (s, false)

/-- Fetch what is missing; whether anything is tracked now. -/
def startFetch (envelope : ScpEnvelope N V H) (needTxSet needQuorumSet : Bool) :
    FetchingEnvelopes N V H × Bool :=
  let (s, txSetTracked) := if needTxSet then s.fetchTxSets codec envelope else (s, false)
  let (s, quorumSetTracked) :=
    if needQuorumSet then s.fetchQuorumSet codec envelope else (s, false)
  (s, txSetTracked || quorumSetTracked)

/-- An envelope that nothing tracks would wait for ever. -/
def dropUntracked (slot : Nat) (envHash : H) : FetchingEnvelopes N V H :=
  match s.slots.lookup slot with
  | some slotState =>
    s.setSlot slot { slotState with fetching := slotState.fetching.erase envHash }
  | none => s

/-! ### Receiving -/

/-- A new future slot that does not fit any more. -/
def futureSlotsFull (slot : Nat) : Bool :=
  s.maxFutureSlots > 0 && slot > s.currentSlot && (s.slots.lookup slot).isNone &&
    (s.slots.keys.filter (· > s.currentSlot)).length ≥ s.maxFutureSlots

def perSlotFull (slot : Nat) : Bool :=
  s.maxEnvelopesPerSlot > 0 && (s.slotState slot).lifetimeCount ≥ s.maxEnvelopesPerSlot

def recvEnvelopeInner (envelope : ScpEnvelope N V H) (receivedAt : Option Nat) :
    FetchingEnvelopes N V H × RecvResult :=
  let slot := envelope.statement.slotIndex
  let envHash := computeEnvelopeHash codec envelope
  if s.futureSlotsFull slot then (s, .futureSlotsFull)
  else
    let slotState := s.slotState slot
    let s := s.setSlot slot slotState
    if envHash ∈ slotState.processed then (s, .alreadyProcessed)
    else if envHash ∈ slotState.discarded then (s, .discarded)
    else if envHash ∈ slotState.fetching then (s, .fetching)
    else if s.perSlotFull slot then (s, .perSlotFull)
    else
      let (needTxSet, needQuorumSet) := s.checkDependencies codec envelope
      if !needTxSet && !needQuorumSet then
        let s := s.setSlot slot { slotState with ready := slotState.ready ++ [envelope] }
        (s.broadcastEnvelope envelope receivedAt .immediate, .ready)
      else
        let entry : FetchingEntry N V H := { envelope, receivedAt }
        let s := s.setSlot slot
          { slotState with fetching := slotState.fetching.insert envHash entry }
        let (s, anyTracked) := s.startFetch codec envelope needTxSet needQuorumSet
        if anyTracked then (s, .fetching) else (s.dropUntracked slot envHash, .fetching)

def recvEnvelope (envelope : ScpEnvelope N V H) : FetchingEnvelopes N V H × RecvResult :=
  if !checkStellarValueSigned codec envelope then (s, .discarded)
  else s.recvEnvelopeInner codec envelope none

def recvEnvelopeValidated (envelope : ScpEnvelope N V H) (receivedAt : Option Nat) :
    FetchingEnvelopes N V H × RecvResult :=
  if !checkStellarValueSigned codec envelope then (s, .discarded)
  else s.recvEnvelopeInner codec envelope receivedAt

/-! ### Arrivals -/

/-- Move an envelope out of fetching when nothing is missing any more, or fetch what
is missing again. -/
def checkAndMoveToReady (envelope : ScpEnvelope N V H) : FetchingEnvelopes N V H :=
  let slot := envelope.statement.slotIndex
  let envHash := computeEnvelopeHash codec envelope
  let (needTxSet, needQuorumSet) := s.checkDependencies codec envelope
  if !needTxSet && !needQuorumSet then
    match s.slots.lookup slot with
    | some slotState =>
      match slotState.fetching.lookup envHash with
      | some entry =>
        let s := s.setSlot slot { slotState with
          fetching := slotState.fetching.erase envHash
          ready := slotState.ready ++ [envelope] }
        s.broadcastEnvelope envelope entry.receivedAt .deferred
      | none => s
    | none => s
  else (s.startFetch codec envelope needTxSet needQuorumSet).1

def moveAll (envelopes : List (ScpEnvelope N V H)) : FetchingEnvelopes N V H :=
  envelopes.foldl (fun s envelope => s.checkAndMoveToReady codec envelope) s

def recvTxSet (hash : H) : FetchingEnvelopes N V H × Bool :=
  if !s.txSetFetcher.isTracking hash then (s, false)
  else
    let (txSetFetcher, waiting) := s.txSetFetcher.recv hash
    (moveAll codec { s with txSetFetcher } waiting, true)

/-- All parked envelopes, slot by slot. -/
def parked : List (ScpEnvelope N V H) :=
  (s.slots.keys.insertionSort (· ≤ ·)).flatMap fun slot =>
    (s.slotState slot).fetching.entries.map fun entry => entry.2.envelope

def moveReadyEnvelopesForTxSet (txSetHash : H) : FetchingEnvelopes N V H :=
  s.moveAll codec (s.parked.filter fun envelope =>
    (extractTxSetHashes codec envelope).any (· == txSetHash))

def moveReadyEnvelopesForQuorumSet (qsHash : H) : FetchingEnvelopes N V H :=
  s.moveAll codec (s.parked.filter fun envelope => extractQuorumSetHash envelope == some qsHash)

def onTxSetAccepted (hash : H) : FetchingEnvelopes N V H :=
  let (txSetFetcher, waiting) := s.txSetFetcher.recv hash
  (moveAll codec { s with txSetFetcher } waiting).moveReadyEnvelopesForTxSet codec hash

def cacheQuorumSet (hash : H) (quorumSet : ScpQuorumSet N) (draws : Nat × Nat) :
    FetchingEnvelopes N V H :=
  moveReadyEnvelopesForQuorumSet codec
    { s with quorumSetCache := s.quorumSetCache.put hash quorumSet draws } hash

/-! ### Discarding -/

def stopFetch (envelope : ScpEnvelope N V H) : FetchingEnvelopes N V H :=
  let quorumSetFetcher :=
    match extractQuorumSetHash envelope with
    | some hash => s.quorumSetFetcher.stopFetch codec hash envelope
    | none => s.quorumSetFetcher
  let txSetFetcher := (extractTxSetHashes codec envelope).foldl
    (fun fetcher hash => fetcher.stopFetch codec hash envelope) s.txSetFetcher
  { s with quorumSetFetcher, txSetFetcher }

def discardEnvelope (envelope : ScpEnvelope N V H) : FetchingEnvelopes N V H :=
  let slot := envelope.statement.slotIndex
  let envHash := computeEnvelopeHash codec envelope
  let slotState := s.slotState slot
  if envHash ∈ slotState.discarded then s.setSlot slot slotState
  else
    let s := s.setSlot slot { slotState with
      discarded := insert envHash slotState.discarded
      fetching := slotState.fetching.erase envHash }
    (s.record (.discarded envelope)).stopFetch codec envelope

def discardEnvelopesWithQuorumSet (qsHash : H) : FetchingEnvelopes N V H :=
  (s.quorumSetFetcher.fetchingFor qsHash).foldl
    (fun s envelope => s.discardEnvelope codec envelope) s

def recvQuorumSet (hash : H) (quorumSet : ScpQuorumSet N) (draws : Nat × Nat) :
    FetchingEnvelopes N V H × Bool :=
  if !s.quorumSetFetcher.isTracking hash then (s, false)
  else
    if !quorumSet.sane then (s.discardEnvelopesWithQuorumSet codec hash, false)
    else
      let (quorumSetFetcher, waiting) := s.quorumSetFetcher.recv hash
      let quorumSetCache := s.quorumSetCache.put hash quorumSet draws
      (moveAll codec { s with quorumSetFetcher, quorumSetCache } waiting, true)

/-! ### Popping -/

/-- Take the last ready envelope of a slot. -/
def popFromSlot (slot : Nat) : FetchingEnvelopes N V H × Option (ScpEnvelope N V H) :=
  match s.slots.lookup slot with
  | some slotState =>
    match slotState.ready.getLast? with
    | some envelope =>
      let s := s.setSlot slot { slotState with
        ready := slotState.ready.dropLast
        processed := insert (computeEnvelopeHash codec envelope) slotState.processed }
      (s.record (.popped envelope), some envelope)
    | none => (s, none)
  | none => (s, none)

/-- Take a ready envelope of the lowest slot that has one. -/
def pop (maxSlot : Nat) : FetchingEnvelopes N V H × Option (ScpEnvelope N V H) :=
  let readySlot := (s.slots.keys.filter fun slot =>
    slot ≤ maxSlot && !(s.slotState slot).ready.isEmpty).min?
  match readySlot with
  | some slot => s.popFromSlot codec slot
  | none => (s, none)

/-! ### Erasing -/

def eraseSlot (slot : Nat) : FetchingEnvelopes N V H :=
  { s with slots := s.slots.erase slot, history := .erased slot :: s.history }

def retainSlots (keep : Nat → Bool) : FetchingEnvelopes N V H :=
  (s.slots.keys.filter fun slot => !keep slot).foldl eraseSlot s

def eraseOutsideRange (minSlot maxSlot : Option Nat) (slotToKeep : Nat) : FetchingEnvelopes N V H :=
  let s := s.retainSlots (keepsSlot minSlot maxSlot slotToKeep)
  { s with
    txSetFetcher := s.txSetFetcher.stopFetchingOutsideRange minSlot maxSlot slotToKeep
    quorumSetFetcher := s.quorumSetFetcher.stopFetchingOutsideRange minSlot maxSlot slotToKeep }

/-- Forget old slots and all transaction set requests, but no quorum set request. -/
def trimStale (keepAfterSlot : Nat) : FetchingEnvelopes N V H :=
  let s := s.retainSlots fun slot => slot > keepAfterSlot
  { s with txSetFetcher := s.txSetFetcher.clear }

end FetchingEnvelopes

end Henyey.Herder
