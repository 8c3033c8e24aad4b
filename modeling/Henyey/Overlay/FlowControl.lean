import Henyey.Scp.Statement

/-!
# Flow control of a peer connection

Capacity is counted in messages and in bytes. Flood messages wait in one queue for each
priority until the peer has granted the capacity to send them; a queue that grows too long
is trimmed.
-/

namespace Henyey.Overlay

open Scp (ScpEnvelope ScpNomination ScpStatement ScpStatementPledges isNewerBallotSt)

/-- Messages by what flow control reads of them; all other types are one. -/
inductive StellarMessage (N V H T : Type) where
  | scpMessage (env : ScpEnvelope N V H)
  | transaction (tx : T)
  | floodDemand (txHashes : List H)
  | floodAdvert (txHashes : List H)
  | sendMoreExtended (numMessages numBytes : UInt32)
  | other (body : T)
deriving DecidableEq

/-- Lower values first. -/
inductive MessagePriority where
  | scp
  | transaction
  | floodDemand
  | floodAdvert
deriving DecidableEq

namespace MessagePriority

/-- In the order of the queues. -/
def all : List MessagePriority := [.scp, .transaction, .floodDemand, .floodAdvert]

variable {N V H T : Type}

def fromMessage : StellarMessage N V H T → Option MessagePriority
  | .scpMessage _ => some .scp
  | .transaction _ => some .transaction
  | .floodDemand _ => some .floodDemand
  | .floodAdvert _ => some .floodAdvert
  | _ => none

end MessagePriority

def isFlowControlledMessage {N V H T : Type} : StellarMessage N V H T → Bool
  | .transaction _ | .scpMessage _ | .floodAdvert _ | .floodDemand _ => true
  | _ => false

/-- The encoding of messages, of which flow control reads the length; the tag of the
message type alone takes four bytes. -/
structure Encoding (N V H T : Type) where
  msgBodySize : StellarMessage N V H T → Nat
  four_le_msgBodySize : ∀ msg, 4 ≤ msgBodySize msg

structure FlowControlConfig where
  peerFloodReadingCapacity : Nat
  peerReadingCapacity : Nat
  flowControlSendMoreBatchSize : Nat
  outboundTxQueueByteLimit : Nat
  maxTxSetSizeOps : Nat
  flowControlBytesBatchSize : Nat

/-- What the herder answers when the SCP queue is trimmed. -/
structure ScpQueueCallback where
  minSlotToRemember : Nat
  mostRecentCheckpointSeq : Nat

/-- Each message is emplaced at an instant of its own. -/
structure QueuedOutboundMessage (N V H T : Type) where
  message : StellarMessage N V H T
  timeEmplaced : Nat
  beingSent : Bool
deriving DecidableEq

structure SendMoreCapacity where
  numFloodMessages : Nat
  numFloodBytes : Nat
  numTotalMessages : Nat
deriving DecidableEq

def SendMoreCapacity.shouldSend (capacity : SendMoreCapacity) : Bool :=
  capacity.numFloodMessages > 0 || capacity.numFloodBytes > 0

/-! ### Capacity -/

structure ReadingCapacity where
  floodCapacity : Nat
  totalCapacity : Option Nat
deriving DecidableEq

/-- Capacity counted in one resource: messages, or bytes. -/
structure FlowControlCapacity where
  capacity : ReadingCapacity
  capacityLimits : Option ReadingCapacity
  outboundCapacity : Nat
deriving DecidableEq

namespace FlowControlCapacity

def newMessage (config : FlowControlConfig) : FlowControlCapacity where
  capacity :=
    { floodCapacity := config.peerFloodReadingCapacity
      totalCapacity := some config.peerReadingCapacity }
  capacityLimits := none
  outboundCapacity := 0

def newBytes (initialCapacity : Nat) : FlowControlCapacity where
  capacity := ⟨initialCapacity, none⟩
  capacityLimits := some ⟨initialCapacity, none⟩
  outboundCapacity := 0

variable (tracker : FlowControlCapacity)

def hasOutboundCapacity (count : Nat) : Bool :=
  tracker.outboundCapacity ≥ count

def lockOutboundCapacity (flood : Bool) (count : Nat) : FlowControlCapacity :=
  if flood then { tracker with outboundCapacity := tracker.outboundCapacity - count } else tracker

def canLockLocalCapacity (flood : Bool) (count : Nat) : Bool :=
  tracker.capacity.totalCapacity.all (count ≤ ·) &&
    (!flood || count ≤ tracker.capacity.floodCapacity)

def lockLocalCapacity (flood : Bool) (count : Nat) : FlowControlCapacity :=
  { tracker with capacity :=
    { floodCapacity :=
        if flood then tracker.capacity.floodCapacity - count else tracker.capacity.floodCapacity
      totalCapacity := tracker.capacity.totalCapacity.map (· - count) } }

/-- The flood capacity that was freed, and the tracker. -/
def releaseLocalCapacity (flood : Bool) (count : Nat) : Nat × FlowControlCapacity :=
  (if flood then count else 0,
    { tracker with capacity :=
      { floodCapacity :=
          if flood then tracker.capacity.floodCapacity + count else tracker.capacity.floodCapacity
        totalCapacity := tracker.capacity.totalCapacity.map (· + count) } })

def releaseOutboundCapacity (amount : UInt32) : FlowControlCapacity :=
  { tracker with outboundCapacity := tracker.outboundCapacity + amount.toNat }

def canRead : Bool :=
  (tracker.capacity.totalCapacity.map fun total => decide (total > 0)).getD true

/-- Only bytes have limits. -/
def handleTxSizeIncrease (increase : UInt32) : FlowControlCapacity :=
  match tracker.capacityLimits with
  | some limits =>
    { tracker with
      capacity :=
        { tracker.capacity with
          floodCapacity := tracker.capacity.floodCapacity + increase.toNat }
      capacityLimits :=
        some { limits with floodCapacity := limits.floodCapacity + increase.toNat } }
  | none => tracker

end FlowControlCapacity

/-! ### The state of a connection -/

variable {N V H T : Type}

structure FlowControlState (N V H T : Type) where
  messageCapacity : FlowControlCapacity
  byteCapacity : FlowControlCapacity
  outboundQueues : MessagePriority → List (QueuedOutboundMessage N V H T)
  advertQueueTxHashCount : Nat
  demandQueueTxHashCount : Nat
  txQueueByteCount : Nat
  floodDataProcessed : Nat
  floodDataProcessedBytes : Nat
  totalMsgsProcessed : Nat
  /-- The instant at which the next message is emplaced. -/
  now : Nat

namespace FlowControlState

def withScpCallback (config : FlowControlConfig) (initialBytesCapacity : UInt32) :
    FlowControlState N V H T where
  messageCapacity := .newMessage config
  byteCapacity := .newBytes initialBytesCapacity.toNat
  outboundQueues _ := []
  advertQueueTxHashCount := 0
  demandQueueTxHashCount := 0
  txQueueByteCount := 0
  floodDataProcessed := 0
  floodDataProcessedBytes := 0
  totalMsgsProcessed := 0
  now := 0

variable (encoding : Encoding N V H T) (config : FlowControlConfig)
  (s : FlowControlState N V H T)

def setQueue (priority : MessagePriority) (queue : List (QueuedOutboundMessage N V H T)) :
    FlowControlState N V H T :=
  { s with outboundQueues := Function.update s.outboundQueues priority queue }

/-! ### Queueing -/

/-- Count a message that is queued; a transaction above the limit of the queue is not. -/
def enqueueMessageResources (msg : StellarMessage N V H T) : Option (FlowControlState N V H T) :=
  match msg with
  | .transaction _ =>
    let bytes := encoding.msgBodySize msg
    if bytes > config.outboundTxQueueByteLimit then none
    else some { s with txQueueByteCount := s.txQueueByteCount + bytes }
  | .floodDemand txHashes =>
    some { s with demandQueueTxHashCount := s.demandQueueTxHashCount + txHashes.length }
  | .floodAdvert txHashes =>
    some { s with advertQueueTxHashCount := s.advertQueueTxHashCount + txHashes.length }
  | _ => some s

def dequeueMessageResources (msg : StellarMessage N V H T) : FlowControlState N V H T :=
  match msg with
  | .transaction _ =>
    { s with txQueueByteCount := s.txQueueByteCount - encoding.msgBodySize msg }
  | .floodDemand txHashes =>
    { s with demandQueueTxHashCount := s.demandQueueTxHashCount - txHashes.length }
  | .floodAdvert txHashes =>
    { s with advertQueueTxHashCount := s.advertQueueTxHashCount - txHashes.length }
  | _ => s

end FlowControlState

/-! ### Trimming the SCP queue -/

section Trimming

variable [LinearOrder V]

def isNewerNominate (old new : ScpNomination V H) : Bool :=
  decide (old.votes.toFinset ⊆ new.votes.toFinset) &&
    decide (old.accepted.toFinset ⊆ new.accepted.toFinset) &&
    (decide (new.votes.toFinset.card > old.votes.toFinset.card) ||
      decide (new.accepted.toFinset.card > old.accepted.toFinset.card))

/-- Only a pledge of the same node, slot and protocol is replaced. -/
def isNewerNominationOrBallotSt [DecidableEq N] (oldSt newSt : ScpStatement N V H) : Bool :=
  if oldSt.nodeId ≠ newSt.nodeId ∨ oldSt.slotIndex ≠ newSt.slotIndex then false
  else
    match oldSt.pledges, newSt.pledges with
    | .nominate old, .nominate new => isNewerNominate old new
    | .nominate _, _ => false
    | _, .nominate _ => false
    | _, _ => isNewerBallotSt oldSt newSt

def scpSlotIndex : StellarMessage N V H T → Option Nat
  | .scpMessage env => some env.statement.slotIndex
  | _ => none

/-- The back of the queue, when it can replace an entry before it. -/
def tryReplaceWithBack [DecidableEq N] (entry : QueuedOutboundMessage N V H T)
    (rest : List (QueuedOutboundMessage N V H T)) : Option (QueuedOutboundMessage N V H T) :=
  match rest.getLast? with
  | none => none
  | some back =>
    if back.beingSent then none
    else
      match entry.message, back.message with
      | .scpMessage old, .scpMessage new =>
        if isNewerNominationOrBallotSt old.statement new.statement then some back else none
      | _, _ => none

/-- The queue from an entry on: messages of old slots are dropped, and one message is
replaced with a newer one from the back. -/
def trimScpQueueFrom [DecidableEq N] (cb : ScpQueueCallback) (valueReplaced : Bool) :
    List (QueuedOutboundMessage N V H T) → List (QueuedOutboundMessage N V H T)
  | [] => []
  | entry :: rest =>
    if entry.beingSent then entry :: trimScpQueueFrom cb valueReplaced rest
    else
      match scpSlotIndex entry.message with
      | none => entry :: trimScpQueueFrom cb valueReplaced rest
      | some slotIndex =>
        if slotIndex < cb.minSlotToRemember ∧ slotIndex ≠ cb.mostRecentCheckpointSeq then
          trimScpQueueFrom cb valueReplaced rest
        else if valueReplaced then entry :: trimScpQueueFrom cb valueReplaced rest
        else
          match tryReplaceWithBack entry rest with
          | some back => back :: trimScpQueueFrom cb true rest.dropLast
          | none => entry :: trimScpQueueFrom cb valueReplaced rest
termination_by queue => queue.length

/-- Pop from the front until half the limit is left. -/
def trimScpQueueNaive (limit : Nat) :
    List (QueuedOutboundMessage N V H T) → List (QueuedOutboundMessage N V H T)
  | [] => []
  | front :: rest =>
    if (front :: rest).length > limit / 2 ∧ front.beingSent = false then
      trimScpQueueNaive limit rest
    else front :: rest

def trimScpQueue [DecidableEq N] (limit : Nat) (scpCallback : Option ScpQueueCallback)
    (queue : List (QueuedOutboundMessage N V H T)) : List (QueuedOutboundMessage N V H T) :=
  match scpCallback with
  | none => trimScpQueueNaive limit queue
  | some cb => trimScpQueueFrom cb false queue

end Trimming

namespace FlowControlState

variable (encoding : Encoding N V H T) (config : FlowControlConfig)
  (s : FlowControlState N V H T)

section

variable [LinearOrder V] [DecidableEq N]

/-- A queue over its limit is cleared, or trimmed when it holds SCP messages. -/
def trimQueue (scpCallback : Option ScpQueueCallback) : MessagePriority → FlowControlState N V H T
  | .transaction =>
    if (s.outboundQueues .transaction).length > config.maxTxSetSizeOps ∨
        s.txQueueByteCount > config.outboundTxQueueByteLimit then
      { s.setQueue .transaction [] with txQueueByteCount := 0 }
    else s
  | .scp =>
    if (s.outboundQueues .scp).length > config.maxTxSetSizeOps then
      s.setQueue .scp
        (trimScpQueue config.maxTxSetSizeOps scpCallback (s.outboundQueues .scp))
    else s
  | .floodAdvert =>
    if s.advertQueueTxHashCount > config.maxTxSetSizeOps then
      { s.setQueue .floodAdvert [] with advertQueueTxHashCount := 0 }
    else s
  | .floodDemand =>
    if s.demandQueueTxHashCount > config.maxTxSetSizeOps then
      { s.setQueue .floodDemand [] with demandQueueTxHashCount := 0 }
    else s

/-- Append a message to its queue. -/
def pushBack (priority : MessagePriority) (msg : StellarMessage N V H T) :
    FlowControlState N V H T :=
  { s.setQueue priority (s.outboundQueues priority ++ [⟨msg, s.now, false⟩]) with now := s.now + 1 }

def addMsgAndMaybeTrimQueue (scpCallback : Option ScpQueueCallback) (msg : StellarMessage N V H T) :
    FlowControlState N V H T :=
  match MessagePriority.fromMessage msg with
  | none => s
  | some priority =>
    match s.enqueueMessageResources encoding config msg with
    | none => s
    | some s => (s.pushBack priority msg).trimQueue config scpCallback priority

end

/-! ### Sending -/

/-- Both kinds of capacity suffice for a message. -/
def hasOutboundCapacity (msg : StellarMessage N V H T) : Bool :=
  s.messageCapacity.hasOutboundCapacity 1 &&
    s.byteCapacity.hasOutboundCapacity (encoding.msgBodySize msg)

def lockOutboundCapacity (msg : StellarMessage N V H T) : FlowControlState N V H T :=
  { s with
    messageCapacity := s.messageCapacity.lockOutboundCapacity (isFlowControlledMessage msg) 1
    byteCapacity := s.byteCapacity.lockOutboundCapacity (isFlowControlledMessage msg)
      (encoding.msgBodySize msg) }

/-- Admit the messages of a queue until capacity runs out: the state with less capacity,
the queue with its marks, and the messages admitted. -/
def admitOutbound : FlowControlState N V H T → List (QueuedOutboundMessage N V H T) →
    FlowControlState N V H T ×
      List (QueuedOutboundMessage N V H T) × List (QueuedOutboundMessage N V H T)
  | s, [] => (s, [], [])
  | s, entry :: rest =>
    if s.hasOutboundCapacity encoding entry.message = false then (s, entry :: rest, [])
    else if entry.beingSent then
      let (s, rest, batch) := admitOutbound s rest
      (s, entry :: rest, batch)
    else
      let (s, rest, batch) := admitOutbound (s.lockOutboundCapacity encoding entry.message) rest
      (s, { entry with beingSent := true } :: rest, entry :: batch)

def admitQueue (priority : MessagePriority) :
    FlowControlState N V H T × List (QueuedOutboundMessage N V H T) :=
  let (admitted, queue, batch) := admitOutbound encoding s (s.outboundQueues priority)
  (admitted.setQueue priority queue, batch)

/-- Queues that have run out of capacity leave the lower priorities their turn. -/
def buildNextBatch : FlowControlState N V H T × List (QueuedOutboundMessage N V H T) :=
  MessagePriority.all.foldl (fun (s, batch) priority =>
    let (s, admitted) := s.admitQueue encoding priority
    (s, batch ++ admitted)) (s, [])

def getNextBatchToSend : FlowControlState N V H T × List (QueuedOutboundMessage N V H T) :=
  s.buildNextBatch encoding

variable [DecidableEq (StellarMessage N V H T)]

/-- Pop the front of a queue if it is the message that was sent. -/
def processSentMessage (priority : MessagePriority) (msg : StellarMessage N V H T) :
    FlowControlState N V H T :=
  match s.outboundQueues priority with
  | [] => s
  | front :: rest =>
    if front.message = msg then (s.dequeueMessageResources encoding msg).setQueue priority rest
    else s

def processSentQueue (priority : MessagePriority) (sent : List (StellarMessage N V H T)) :
    FlowControlState N V H T :=
  sent.foldl (fun s msg => s.processSentMessage encoding priority msg) s

def processSentMessages (sentMessages : MessagePriority → List (StellarMessage N V H T)) :
    FlowControlState N V H T :=
  MessagePriority.all.foldl
    (fun s priority => s.processSentQueue encoding priority (sentMessages priority)) s

/-! ### Grants -/

omit [DecidableEq (StellarMessage N V H T)]

/-- A grant has bytes, and does not overflow the capacity. -/
def isSendMoreValid (numMessages numBytes : UInt32) : Bool :=
  numBytes ≠ 0 &&
    numMessages.toNat ≤ UInt64.size - 1 - s.messageCapacity.outboundCapacity &&
    numBytes.toNat ≤ UInt64.size - 1 - s.byteCapacity.outboundCapacity

def maybeReleaseCapacity : StellarMessage N V H T → FlowControlState N V H T
  | .sendMoreExtended numMessages numBytes =>
    { s with
      messageCapacity := s.messageCapacity.releaseOutboundCapacity numMessages
      byteCapacity := s.byteCapacity.releaseOutboundCapacity numBytes }
  | _ => s

/-! ### Receiving -/

/-- Lock local capacity for a received message, or refuse it. -/
def beginMessageProcessing (msg : StellarMessage N V H T) : Option (FlowControlState N V H T) :=
  let flood := isFlowControlledMessage msg
  if s.messageCapacity.canLockLocalCapacity flood 1 = false ∨
      s.byteCapacity.canLockLocalCapacity flood (encoding.msgBodySize msg) = false then none
  else some { s with
    messageCapacity := s.messageCapacity.lockLocalCapacity flood 1
    byteCapacity := s.byteCapacity.lockLocalCapacity flood (encoding.msgBodySize msg) }

/-- Release local capacity, and tell what to grant to the peer; nothing when the assertion on
the messages processed fails. -/
def endMessageProcessing (msg : StellarMessage N V H T) :
    Option (SendMoreCapacity × FlowControlState N V H T) :=
  let flood := isFlowControlledMessage msg
  let (released, messageCapacity) := s.messageCapacity.releaseLocalCapacity flood 1
  let (releasedBytes, byteCapacity) :=
    s.byteCapacity.releaseLocalCapacity flood (encoding.msgBodySize msg)
  let floodDataProcessed := s.floodDataProcessed + released
  let floodDataProcessedBytes := s.floodDataProcessedBytes + releasedBytes
  let totalMsgsProcessed := s.totalMsgsProcessed + 1
  if floodDataProcessed > config.flowControlSendMoreBatchSize then none
  else
    let shouldSendMore := floodDataProcessed = config.flowControlSendMoreBatchSize ∨
      floodDataProcessedBytes ≥ config.flowControlBytesBatchSize
    let totalReached := totalMsgsProcessed ≥ config.peerReadingCapacity
    some
      ({ numFloodMessages := if shouldSendMore then floodDataProcessed else 0
         numFloodBytes := if shouldSendMore then floodDataProcessedBytes else 0
         numTotalMessages := if totalReached then totalMsgsProcessed % UInt32.size else 0 },
        { s with
          messageCapacity := messageCapacity
          byteCapacity := byteCapacity
          floodDataProcessed := if shouldSendMore then 0 else floodDataProcessed
          floodDataProcessedBytes := if shouldSendMore then 0 else floodDataProcessedBytes
          totalMsgsProcessed := if totalReached then 0 else totalMsgsProcessed })

/-- Whether another message may be read. -/
def canRead : Bool :=
  s.messageCapacity.canRead && s.byteCapacity.canRead

def handleTxSizeIncrease (increase : UInt32) : FlowControlState N V H T :=
  if increase > 0 then { s with byteCapacity := s.byteCapacity.handleTxSizeIncrease increase }
  else s

end FlowControlState

end Henyey.Overlay
