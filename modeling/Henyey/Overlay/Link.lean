import Henyey.Overlay.Lossless

/-!
# The two sides of a connection

The sender hands out what its capacity allows; the receiver locks its own capacity for each
message that arrives and returns it as a grant some time after the message is processed.
Both directions of the link are first in, first out.
-/

namespace Henyey.Overlay

/-! ### Byte parameters -/

def initialPeerFloodReadingCapacityBytes : UInt32 := 300000

def initialFlowControlSendMoreBatchSizeBytes : UInt32 := 100000

/-- Fixed values leave room for a batch; when both are zero they follow the size of
transactions. -/
inductive FlowControlBytesConfig where
  | auto
  | fixed (total batch : UInt32) (hbatch : batch ≤ total) (htotal : total ≠ 0)
deriving DecidableEq

namespace FlowControlBytesConfig

/-- A batch may not exceed the capacity. -/
def new (capacity batch : UInt32) : Option FlowControlBytesConfig :=
  if hauto : capacity = 0 ∧ batch = 0 then some .auto
  else if hexceeds : batch > capacity then none
  else
    some (.fixed capacity batch (UInt32.not_lt.mp hexceeds) fun hzero =>
      hauto ⟨hzero, UInt32.le_zero_iff.mp (hzero ▸ UInt32.not_lt.mp hexceeds)⟩)

/-- The initial grant of bytes; no transaction size, or a sum that overflows, ends the
program. -/
def bytesTotal (bytesConfig : FlowControlBytesConfig) (maxTxSize : UInt32) : Option UInt32 :=
  if maxTxSize = 0 then none
  else
    match bytesConfig with
    | .auto =>
      if maxTxSize >
          initialPeerFloodReadingCapacityBytes - initialFlowControlSendMoreBatchSizeBytes then
        if maxTxSize.toNat + initialFlowControlSendMoreBatchSizeBytes.toNat < UInt32.size then
          some (maxTxSize + initialFlowControlSendMoreBatchSizeBytes)
        else none
      else some initialPeerFloodReadingCapacityBytes
    | .fixed total _ _ _ => some total

def bytesBatch : FlowControlBytesConfig → UInt32
  | .auto => initialFlowControlSendMoreBatchSizeBytes
  | .fixed _ batch _ _ => batch

/-- Beside a batch that is not granted yet there must be room for a transaction. -/
def validateHeadroom (bytesConfig : FlowControlBytesConfig) (maxTxSize : UInt32) : Bool :=
  match bytesConfig with
  | .auto => true
  | .fixed total batch _ _ => total.toNat - batch.toNat ≥ maxTxSize.toNat

end FlowControlBytesConfig

/-- The parameters of a peer that is registered: two of them are the node's own. -/
def peerConfig (base : FlowControlConfig) (bytesConfig : FlowControlBytesConfig)
    (peerFloodReadingCapacity : UInt32) : FlowControlConfig :=
  { base with
    flowControlBytesBatchSize := bytesConfig.bytesBatch.toNat
    peerFloodReadingCapacity := peerFloodReadingCapacity.toNat }

/-! ### The link -/

variable {N V H T : Type}

/-- What ends a connection. -/
inductive Failure where
  /-- A message arrived for which there is no capacity. -/
  | overflow
  /-- More messages were processed than a grant is for. -/
  | assertion
  | invalidGrant
deriving DecidableEq

structure Link (N V H T : Type) where
  sender : FlowControlState N V H T
  receiver : FlowControlState N V H T
  /-- Oldest first. -/
  inFlight : List (StellarMessage N V H T)
  /-- Messages that have arrived and whose processing has not ended. -/
  processing : List (StellarMessage N V H T)
  /-- The grants on their way to the sender, messages and bytes. -/
  grants : List (UInt32 × UInt32)
  /-- By how much the size of transactions has increased. -/
  increased : Nat
  failure : Option Failure

inductive LinkStep (N V H T : Type) where
  | addMsg (scpCallback : Option ScpQueueCallback) (msg : StellarMessage N V H T)
  | send
  | processSent (sentMessages : MessagePriority → List (StellarMessage N V H T))
  | arrive
  /-- One of the messages in progress is finished. -/
  | finish (position : Nat)
  | receiveGrant
  | increase (amount : UInt32)

namespace Link

/-- The receiver's first grant is on its way. -/
def new (senderConfig receiverConfig : FlowControlConfig) (senderBytes messages bytes : UInt32) :
    Link N V H T where
  sender := .withScpCallback senderConfig senderBytes
  receiver := .withScpCallback receiverConfig bytes
  inFlight := []
  processing := []
  grants := [(messages, bytes)]
  increased := 0
  failure := none

variable [DecidableEq N] [LinearOrder V] [DecidableEq H] [DecidableEq T]
  (encoding : Encoding N V H T) (senderConfig receiverConfig : FlowControlConfig)
  (link : Link N V H T)

def operate : LinkStep N V H T → Link N V H T
  | .addMsg scpCallback msg =>
    { link with
      sender := link.sender.addMsgAndMaybeTrimQueue encoding senderConfig scpCallback msg }
  | .send =>
    let (sender, batch) := link.sender.getNextBatchToSend encoding
    { link with sender := sender, inFlight := link.inFlight ++ batch.map (·.message) }
  | .processSent sentMessages =>
    { link with sender := link.sender.processSentMessages encoding sentMessages }
  | .arrive =>
    match link.inFlight with
    | [] => link
    | msg :: rest =>
      match link.receiver.beginMessageProcessing encoding msg with
      | none => { link with failure := some .overflow }
      | some receiver =>
        { link with
          receiver := receiver, inFlight := rest, processing := msg :: link.processing }
  | .finish position =>
    match link.processing[position]? with
    | none => link
    | some msg =>
      match link.receiver.endMessageProcessing encoding receiverConfig msg with
      | none => { link with failure := some .assertion }
      | some (capacity, receiver) =>
        { link with
          receiver := receiver
          processing := link.processing.eraseIdx position
          grants :=
            if capacity.shouldSend then
              link.grants ++ [(.ofNat capacity.numFloodMessages, .ofNat capacity.numFloodBytes)]
            else link.grants }
  | .receiveGrant =>
    match link.grants with
    | [] => link
    | (messages, bytes) :: rest =>
      if link.sender.isSendMoreValid messages bytes then
        { link with
          sender := link.sender.maybeReleaseCapacity (.sendMoreExtended messages bytes)
          grants := rest }
      else { link with failure := some .invalidGrant }
  | .increase amount =>
    if amount = 0 then link
    else
      { link with
        receiver := link.receiver.handleTxSizeIncrease amount
        grants := link.grants ++ [(0, amount)]
        increased := link.increased + amount.toNat }

/-- Links that steps reach from the initial grants. -/
inductive Reachable (base : FlowControlConfig) (bytesConfig : FlowControlBytesConfig)
    (messages maxTxSize : UInt32) : Link N V H T → Prop
  | start {senderBytes bytes : UInt32} (hbytes : bytesConfig.bytesTotal maxTxSize = some bytes) :
      Reachable base bytesConfig messages maxTxSize
        (.new senderConfig (peerConfig base bytesConfig messages) senderBytes messages bytes)
  | step {link : Link N V H T} (action : LinkStep N V H T)
      (hreach : Reachable base bytesConfig messages maxTxSize link) (hup : link.failure = none) :
      Reachable base bytesConfig messages maxTxSize
        (link.operate encoding senderConfig (peerConfig base bytesConfig messages) action)

def bytesOf (messages : List (StellarMessage N V H T)) : Nat :=
  (messages.map encoding.msgBodySize).sum

/-- All capacity is accounted for, and a link at rest has room for a transaction. -/
structure Balanced (bytesConfig : FlowControlBytesConfig) (messages maxTxSize : UInt32) : Prop where
  up : link.failure = none
  /-- The next message is not refused. -/
  accepts : ∀ msg ∈ link.inFlight.head?, link.receiver.beginMessageProcessing encoding msg ≠ none
  /-- No message in progress trips the assertion when it ends. -/
  asserts : ∀ msg ∈ link.processing,
    link.receiver.endMessageProcessing encoding receiverConfig msg ≠ none
  messages : link.sender.messageCapacity.outboundCapacity + link.inFlight.length +
    link.processing.length + link.receiver.floodDataProcessed +
      (link.grants.map fun grant => grant.1.toNat).sum = messages.toNat
  bytes : ∀ total ∈ bytesConfig.bytesTotal maxTxSize,
    link.sender.byteCapacity.outboundCapacity + bytesOf encoding link.inFlight +
      bytesOf encoding link.processing + link.receiver.floodDataProcessedBytes +
        (link.grants.map fun grant => grant.2.toNat).sum = total.toNat + link.increased
  atRest : bytesConfig.validateHeadroom maxTxSize = true → link.inFlight = [] →
    link.processing = [] → link.grants = [] → ∀ msg : StellarMessage N V H T,
      encoding.msgBodySize msg ≤ maxTxSize.toNat + link.increased →
        link.sender.hasOutboundCapacity encoding msg = true

end Link

end Henyey.Overlay
