import Henyey.Overlay.Link

/-!
# Capacity is neither lost nor made on a link

What the sender may still send, what is on its way, what is being processed and what is not
granted back yet always add up to the receiver's capacity.
-/

namespace Henyey.Overlay

open FlowControlCapacity List

variable {N V H T : Type}

/-! ### The sender -/

namespace FlowControlState

variable {encoding : Encoding N V H T} {s s' s'' : FlowControlState N V H T}
  {batch : List (QueuedOutboundMessage N V H T)}

/-- All queued messages are flood messages. -/
def Floods (s : FlowControlState N V H T) : Prop :=
  ∀ priority, ∀ entry ∈ s.outboundQueues priority, isFlowControlledMessage entry.message = true

/-- The batch took its capacity from the state. -/
structure Spent (encoding : Encoding N V H T) (s s' : FlowControlState N V H T)
    (batch : List (QueuedOutboundMessage N V H T)) : Prop where
  messages : batch.length + s'.messageCapacity.outboundCapacity = s.messageCapacity.outboundCapacity
  bytes : batchBytes encoding batch + s'.byteCapacity.outboundCapacity =
    s.byteCapacity.outboundCapacity
  floods : s'.Floods
  batch : ∀ entry ∈ batch, isFlowControlledMessage entry.message = true

theorem admitOutbound_spent (encoding : Encoding N V H T)
    (queue : List (QueuedOutboundMessage N V H T))
    (hflood : ∀ entry ∈ queue, isFlowControlledMessage entry.message = true)
    (s : FlowControlState N V H T) :
    ∃ left batch, admitOutbound encoding s queue =
        (s.spend batch.length (batchBytes encoding batch), left, batch) ∧
      batch.length ≤ s.messageCapacity.outboundCapacity ∧
      batchBytes encoding batch ≤ s.byteCapacity.outboundCapacity ∧
      (∀ entry ∈ left, isFlowControlledMessage entry.message = true) ∧
      ∀ entry ∈ batch, isFlowControlledMessage entry.message = true := by
  induction queue generalizing s with
  | nil => exact ⟨[], [], rfl, Nat.zero_le _, Nat.zero_le _, by simp, by simp⟩
  | cons entry rest ih =>
    obtain ⟨hentry, hrest⟩ := forall_mem_cons.mp hflood
    by_cases hcapacity : s.hasOutboundCapacity encoding entry.message = true
    · by_cases hsent : entry.beingSent = true
      · obtain ⟨left, batch, heq, hmessages, hbytes, hleft, hbatch⟩ := ih hrest s
        refine ⟨entry :: left, batch, ?_, hmessages, hbytes,
          forall_mem_cons.mpr ⟨hentry, hleft⟩, hbatch⟩
        rw [admitOutbound, if_neg (by simp [hcapacity]), if_pos hsent, heq]
      · obtain ⟨left, batch, heq, hmessages, hbytes, hleft, hbatch⟩ :=
          ih hrest (s.lockOutboundCapacity encoding entry.message)
        obtain ⟨hmessage, hbyte⟩ := (hasOutboundCapacity_iff encoding).mp hcapacity
        rw [lockOutboundCapacity_eq encoding s hentry] at heq hmessages hbytes
        have hlength : batch.length ≤ s.messageCapacity.outboundCapacity - 1 := hmessages
        have hsize : batchBytes encoding batch ≤
            s.byteCapacity.outboundCapacity - encoding.msgBodySize entry.message := hbytes
        have hsum : batchBytes encoding (entry :: batch) =
            encoding.msgBodySize entry.message + batchBytes encoding batch := by
          simp [batchBytes]
        refine ⟨entry.sent :: left, entry :: batch, ?_, ?_, ?_,
          forall_mem_cons.mpr ⟨hentry, hleft⟩, forall_mem_cons.mpr ⟨hentry, hbatch⟩⟩
        · rw [admitOutbound, if_neg (by simp [hcapacity]), if_neg hsent,
            lockOutboundCapacity_eq encoding s hentry, heq, spend_spend, hsum, length_cons,
            Nat.add_comm 1]
          rfl
        · rw [length_cons]
          omega
        · omega
    · refine ⟨entry :: rest, [], ?_, Nat.zero_le _, Nat.zero_le _, hflood, by simp⟩
      rw [admitOutbound, if_pos (by simpa using hcapacity)]
      rfl

theorem Spent.refl (hfloods : s.Floods) : Spent encoding s s [] :=
  ⟨by simp, by simp [batchBytes], hfloods, by simp⟩

theorem Spent.admitQueue (hspent : Spent encoding s s' batch) (priority : MessagePriority) :
    Spent encoding s (s'.admitQueue encoding priority).1
      (batch ++ (s'.admitQueue encoding priority).2) := by
  obtain ⟨left, admitted, heq, hmessages, hbytes, hleft, hadmitted⟩ :=
    admitOutbound_spent encoding (s'.outboundQueues priority)
      (hspent.floods priority) s'
  have hqueue : s'.admitQueue encoding priority =
      ((s'.spend admitted.length (batchBytes encoding admitted)).setQueue priority left,
        admitted) := by
    simp only [FlowControlState.admitQueue, heq]
  rw [hqueue]
  have hspentMessages := hspent.messages
  have hspentBytes := hspent.bytes
  refine ⟨?_, ?_, fun other entry hentry => ?_, fun entry hentry => ?_⟩
  · change (batch ++ admitted).length + (s'.messageCapacity.outboundCapacity - admitted.length) = _
    rw [length_append]
    omega
  · have hsum : batchBytes encoding (batch ++ admitted) =
        batchBytes encoding batch + batchBytes encoding admitted := by
      simp [batchBytes]
    change batchBytes encoding (batch ++ admitted) +
      (s'.byteCapacity.outboundCapacity - batchBytes encoding admitted) = _
    omega
  · by_cases hother : other = priority
    · subst hother
      rw [outboundQueues_setQueue] at hentry
      exact hleft entry hentry
    · rw [(onlyQueue_setQueue _ priority left).queues other hother] at hentry
      exact hspent.floods other entry hentry
  · rcases mem_append.mp hentry with hold | hnew
    · exact hspent.batch entry hold
    · exact hadmitted entry hnew

theorem getNextBatchToSend_spent (encoding : Encoding N V H T) (hfloods : s.Floods) :
    Spent encoding s (s.getNextBatchToSend encoding).1 (s.getNextBatchToSend encoding).2 := by
  have hstart : Spent encoding s s [] := .refl hfloods
  have hscp := hstart.admitQueue .scp
  have htransaction := hscp.admitQueue .transaction
  have hdemand := htransaction.admitQueue .floodDemand
  exact hdemand.admitQueue .floodAdvert

/-- Neither the capacity changes nor do new messages enter a queue. -/
structure Shrinks (s s' : FlowControlState N V H T) : Prop where
  messageCapacity : s'.messageCapacity = s.messageCapacity
  byteCapacity : s'.byteCapacity = s.byteCapacity
  queues : ∀ priority, s'.outboundQueues priority ⊆ s.outboundQueues priority

theorem Shrinks.refl (s : FlowControlState N V H T) : Shrinks s s :=
  ⟨rfl, rfl, fun _ => List.Subset.refl _⟩

theorem Shrinks.trans (hfirst : Shrinks s s') (hsecond : Shrinks s' s'') : Shrinks s s'' where
  messageCapacity := hsecond.messageCapacity.trans hfirst.messageCapacity
  byteCapacity := hsecond.byteCapacity.trans hfirst.byteCapacity
  queues priority := List.Subset.trans (hsecond.queues priority) (hfirst.queues priority)

theorem Shrinks.floods (hshrinks : Shrinks s s') (hfloods : s.Floods) : s'.Floods :=
  fun priority entry hentry => hfloods priority entry (hshrinks.queues priority hentry)

theorem shrinks_setQueue (priority : MessagePriority) {queue : List (QueuedOutboundMessage N V H T)}
    (hqueue : queue ⊆ s.outboundQueues priority) : Shrinks s (s.setQueue priority queue) := by
  refine ⟨rfl, rfl, fun other => ?_⟩
  by_cases hother : other = priority
  · subst hother
    rw [outboundQueues_setQueue]
    exact hqueue
  · rw [(onlyQueue_setQueue s priority queue).queues other hother]
    exact List.Subset.refl _

theorem shrinks_dequeueMessageResources (encoding : Encoding N V H T) (s : FlowControlState N V H T)
    (msg : StellarMessage N V H T) : Shrinks s (s.dequeueMessageResources encoding msg) := by
  cases msg <;> exact ⟨rfl, rfl, fun _ => List.Subset.refl _⟩

theorem shrinks_processSentMessage [DecidableEq (StellarMessage N V H T)]
    (s : FlowControlState N V H T) (priority : MessagePriority) (msg : StellarMessage N V H T) :
    Shrinks s (s.processSentMessage encoding priority msg) := by
  unfold processSentMessage
  split
  · exact .refl s
  next front rest hqueue =>
    split
    · have hdequeue := shrinks_dequeueMessageResources encoding s msg
      refine hdequeue.trans (shrinks_setQueue priority ?_)
      have hqueues : (s.dequeueMessageResources encoding msg).outboundQueues = s.outboundQueues := by
        cases msg <;> rfl
      rw [hqueues, hqueue]
      exact subset_cons_self front rest
    · exact .refl s

theorem shrinks_foldl {α : Type} {step : FlowControlState N V H T → α → FlowControlState N V H T}
    (hstep : ∀ s a, Shrinks s (step s a)) (items : List α) (s : FlowControlState N V H T) :
    Shrinks s (items.foldl step s) := by
  induction items generalizing s with
  | nil => exact .refl s
  | cons item rest ih => exact (hstep s item).trans (ih _)

theorem shrinks_processSentMessages (encoding : Encoding N V H T)
    [DecidableEq (StellarMessage N V H T)]
    (sentMessages : MessagePriority → List (StellarMessage N V H T))
    (s : FlowControlState N V H T) : Shrinks s (s.processSentMessages encoding sentMessages) :=
  shrinks_foldl (fun s priority =>
    shrinks_foldl (fun s msg => shrinks_processSentMessage s priority msg) _ s) _ s

variable [DecidableEq N] [LinearOrder V]

theorem trimScpQueue_subset (limit : Nat) (scpCallback : Option ScpQueueCallback)
    (queue : List (QueuedOutboundMessage N V H T)) :
    trimScpQueue limit scpCallback queue ⊆ queue := by
  cases scpCallback with
  | none => exact (trimScpQueueNaive_sublist limit queue).subset
  | some cb => exact (trimScpQueueFrom_subperm cb false queue).subset

theorem shrinks_trimQueue (config : FlowControlConfig) (s : FlowControlState N V H T)
    (scpCallback : Option ScpQueueCallback) (priority : MessagePriority) :
    Shrinks s (s.trimQueue config scpCallback priority) := by
  cases priority with
  | scp =>
    rw [trimQueue]
    split
    · exact shrinks_setQueue .scp (trimScpQueue_subset ..)
    · exact .refl s
  | transaction =>
    rw [trimQueue]
    split
    · exact ⟨rfl, rfl, (shrinks_setQueue .transaction (nil_subset _)).queues⟩
    · exact .refl s
  | floodDemand =>
    rw [trimQueue]
    split
    · exact ⟨rfl, rfl, (shrinks_setQueue .floodDemand (nil_subset _)).queues⟩
    · exact .refl s
  | floodAdvert =>
    rw [trimQueue]
    split
    · exact ⟨rfl, rfl, (shrinks_setQueue .floodAdvert (nil_subset _)).queues⟩
    · exact .refl s

theorem addMsgAndMaybeTrimQueue_floods (encoding : Encoding N V H T) (config : FlowControlConfig)
    (scpCallback : Option ScpQueueCallback) (msg : StellarMessage N V H T) (hfloods : s.Floods) :
    let s' := s.addMsgAndMaybeTrimQueue encoding config scpCallback msg
    s'.messageCapacity = s.messageCapacity ∧ s'.byteCapacity = s.byteCapacity ∧ s'.Floods := by
  obtain hsame | ⟨priority, counted, hpriority, henqueue, hadd⟩ :=
    s.addMsgAndMaybeTrimQueue_cases encoding config scpCallback msg
  · rw [hsame]
    exact ⟨rfl, rfl, hfloods⟩
  · obtain ⟨honly, hqueues, -, -⟩ := enqueueMessageResources_spec encoding config hpriority henqueue
    have hpushed : (counted.pushBack priority msg).Floods := by
      intro other entry hentry
      by_cases hother : other = priority
      · subst hother
        have hqueue : (counted.pushBack other msg).outboundQueues other =
            counted.outboundQueues other ++ [⟨msg, counted.now, false⟩] :=
          outboundQueues_setQueue ..
        rw [hqueue, hqueues] at hentry
        rcases mem_append.mp hentry with hold | hnew
        · exact hfloods other entry hold
        · rw [mem_singleton.mp hnew]
          exact isFlowControlledMessage_of_priority hpriority
      · have hqueue : (counted.pushBack priority msg).outboundQueues other =
            counted.outboundQueues other :=
          (onlyQueue_setQueue counted priority _).queues other hother
        rw [hqueue, hqueues] at hentry
        exact hfloods other entry hentry
    have htrim := shrinks_trimQueue config (counted.pushBack priority msg) scpCallback priority
    rw [hadd]
    exact ⟨htrim.messageCapacity.trans honly.messageCapacity,
      htrim.byteCapacity.trans honly.byteCapacity, htrim.floods hpushed⟩

end FlowControlState

/-! ### The receiver -/

namespace FlowControlState

variable {encoding : Encoding N V H T} {config : FlowControlConfig} {s s' : FlowControlState N V H T}
  {msg : StellarMessage N V H T}

/-- The receiver's capacity, apart from what is in progress. -/
structure HasCapacity (s : FlowControlState N V H T) (messages total bytes : Nat) : Prop where
  messages : s.messageCapacity.capacity = ⟨messages, some total⟩
  bytes : s.byteCapacity.capacity = ⟨bytes, none⟩
  limits : ∃ limits, s.byteCapacity.capacityLimits = some limits

theorem beginMessageProcessing_spec (encoding : Encoding N V H T) {messages total bytes : Nat}
    (hcapacity : s.HasCapacity messages total bytes) (hflood : isFlowControlledMessage msg = true)
    (hmessages : 1 ≤ messages) (htotal : 1 ≤ total) (hbytes : encoding.msgBodySize msg ≤ bytes) :
    ∃ s', s.beginMessageProcessing encoding msg = some s' ∧
      s'.HasCapacity (messages - 1) (total - 1) (bytes - encoding.msgBodySize msg) ∧
      s'.floodDataProcessed = s.floodDataProcessed ∧
      s'.floodDataProcessedBytes = s.floodDataProcessedBytes := by
  have hmessage : s.messageCapacity.canLockLocalCapacity true 1 = true := by
    simp [canLockLocalCapacity, hcapacity.messages, hmessages, htotal]
  have hbyte : s.byteCapacity.canLockLocalCapacity true (encoding.msgBodySize msg) = true := by
    simp [canLockLocalCapacity, hcapacity.bytes, hbytes]
  have hbegin : s.beginMessageProcessing encoding msg = some { s with
      messageCapacity := s.messageCapacity.lockLocalCapacity true 1
      byteCapacity := s.byteCapacity.lockLocalCapacity true (encoding.msgBodySize msg) } := by
    unfold beginMessageProcessing
    rw [hflood, if_neg (by simp [hmessage, hbyte])]
  refine ⟨_, hbegin, ⟨?_, ?_, hcapacity.limits⟩, rfl, rfl⟩
  · simp [lockLocalCapacity, hcapacity.messages]
  · simp [lockLocalCapacity, hcapacity.bytes]

/-- What is not granted back yet. -/
structure Ungranted (config : FlowControlConfig) (s : FlowControlState N V H T) : Prop where
  messages : s.floodDataProcessed < config.flowControlSendMoreBatchSize
  bytes : s.floodDataProcessedBytes < config.flowControlBytesBatchSize ∨
    s.floodDataProcessedBytes = 0

/-- A flood message that ends gives its capacity back; what it was processed for is granted
or kept for the next grant. -/
theorem endMessageProcessing_spec (encoding : Encoding N V H T) {messages total bytes : Nat}
    (hcapacity : s.HasCapacity messages total bytes) (hungranted : s.Ungranted config)
    (hflood : isFlowControlledMessage msg = true) :
    ∃ capacity s', s.endMessageProcessing encoding config msg = some (capacity, s') ∧
      s'.HasCapacity (messages + 1) (total + 1) (bytes + encoding.msgBodySize msg) ∧
      s'.Ungranted config ∧
      capacity.numFloodMessages + s'.floodDataProcessed = s.floodDataProcessed + 1 ∧
      capacity.numFloodBytes + s'.floodDataProcessedBytes =
        s.floodDataProcessedBytes + encoding.msgBodySize msg ∧
      (capacity.shouldSend = true → 0 < capacity.numFloodBytes) ∧
      (capacity.shouldSend = false →
        capacity.numFloodMessages = 0 ∧ capacity.numFloodBytes = 0) := by
  have hsize := encoding.four_le_msgBodySize msg
  have hmessages := hungranted.messages
  have hkept : ∀ capacity : SendMoreCapacity, capacity.shouldSend = false →
      capacity.numFloodMessages = 0 ∧ capacity.numFloodBytes = 0 := by
    intro capacity hnot
    simpa [SendMoreCapacity.shouldSend] using hnot
  unfold endMessageProcessing
  simp only [hflood, releaseLocalCapacity, if_true]
  rw [if_neg (by omega)]
  refine ⟨_, _, rfl, ⟨?_, ?_, hcapacity.limits⟩, ⟨?_, ?_⟩, ?_, ?_, ?_, hkept _⟩
  · simp [hcapacity.messages]
  · simp [hcapacity.bytes]
  · dsimp only
    split <;> omega
  · dsimp only
    split <;> omega
  · dsimp only
    split <;> omega
  · dsimp only
    split <;> omega
  · intro hsend
    dsimp only [SendMoreCapacity.shouldSend] at hsend ⊢
    split at hsend
    · split
      · omega
      · omega
    · simp at hsend

end FlowControlState

namespace FlowControlBytesConfig

variable {maxTxSize initial : UInt32}

/-- The first grant computed from the size of transactions is above it by a batch. -/
theorem le_bytesTotal_auto (hinitial : auto.bytesTotal maxTxSize = some initial) :
    100000 + maxTxSize.toNat ≤ initial.toNat := by
  have hbatch : initialFlowControlSendMoreBatchSizeBytes.toNat = 100000 := rfl
  have htotal : initialPeerFloodReadingCapacityBytes.toNat = 300000 := rfl
  have hthreshold : (initialPeerFloodReadingCapacityBytes -
    initialFlowControlSendMoreBatchSizeBytes).toNat = 200000 := rfl
  simp only [bytesTotal] at hinitial
  split at hinitial
  · cases hinitial
  · split at hinitial
    · split at hinitial
      next hfits =>
        have hsum := UInt32.toNat_add maxTxSize initialFlowControlSendMoreBatchSizeBytes
        rw [Nat.mod_eq_of_lt hfits] at hsum
        have hinitial' := congrArg UInt32.toNat (Option.some.inj hinitial)
        omega
      · cases hinitial
    next hsmall =>
      have hle := UInt32.le_iff_toNat_le.mp (UInt32.not_lt.mp hsmall)
      have hinitial' := congrArg UInt32.toNat (Option.some.inj hinitial)
      omega

theorem bytesTotal_fixed {total batch : UInt32} {hbatch : batch ≤ total} {htotal : total ≠ 0}
    (hinitial : (fixed total batch hbatch htotal).bytesTotal maxTxSize = some initial) :
    initial = total ∧ maxTxSize ≠ 0 := by
  simp only [bytesTotal] at hinitial
  split at hinitial
  · cases hinitial
  next hnonzero => exact ⟨(Option.some.inj hinitial).symm, hnonzero⟩

theorem room (bytesConfig : FlowControlBytesConfig)
    (hinitial : bytesConfig.bytesTotal maxTxSize = some initial)
    (hheadroom : bytesConfig.validateHeadroom maxTxSize = true) :
    bytesConfig.bytesBatch.toNat + maxTxSize.toNat ≤ initial.toNat := by
  cases bytesConfig with
  | auto => exact le_bytesTotal_auto hinitial
  | fixed total batch hbatch htotal =>
    obtain ⟨rfl, hnonzero⟩ := bytesTotal_fixed hinitial
    have hpositive : maxTxSize.toNat ≠ 0 := fun hzero => hnonzero (UInt32.toNat_inj.mp hzero)
    have hroom : maxTxSize.toNat ≤ initial.toNat - batch.toNat := by
      simpa [validateHeadroom] using hheadroom
    simp only [bytesBatch]
    omega

theorem bytesTotal_ne_zero (bytesConfig : FlowControlBytesConfig)
    (hinitial : bytesConfig.bytesTotal maxTxSize = some initial) : initial ≠ 0 := by
  cases bytesConfig with
  | auto =>
    rintro rfl
    have hle := le_bytesTotal_auto hinitial
    simp at hle
  | fixed total batch hbatch htotal =>
    obtain ⟨rfl, -⟩ := bytesTotal_fixed hinitial
    exact htotal

end FlowControlBytesConfig

/-! ### The invariant -/

namespace Link

variable {encoding : Encoding N V H T} {config : FlowControlConfig} {link : Link N V H T}
  {messages total bytes : Nat}

theorem bytesOf_append (first second : List (StellarMessage N V H T)) :
    bytesOf encoding (first ++ second) = bytesOf encoding first + bytesOf encoding second := by
  simp [bytesOf]

theorem bytesOf_cons (msg : StellarMessage N V H T) (rest : List (StellarMessage N V H T)) :
    bytesOf encoding (msg :: rest) = encoding.msgBodySize msg + bytesOf encoding rest := by
  simp [bytesOf]

/-- The accounts of a link with a capacity of so many flood messages, messages and bytes. -/
structure Kept (encoding : Encoding N V H T) (config : FlowControlConfig) (link : Link N V H T)
    (messages total bytes : Nat) : Prop where
  up : link.failure = none
  floods : link.sender.Floods
  inFlight : ∀ msg ∈ link.inFlight, isFlowControlledMessage msg = true
  processing : ∀ msg ∈ link.processing, isFlowControlledMessage msg = true
  sum : link.sender.messageCapacity.outboundCapacity + link.inFlight.length +
    link.processing.length + link.receiver.floodDataProcessed +
      (link.grants.map fun grant => grant.1.toNat).sum = messages
  sumBytes : link.sender.byteCapacity.outboundCapacity + bytesOf encoding link.inFlight +
    bytesOf encoding link.processing + link.receiver.floodDataProcessedBytes +
      (link.grants.map fun grant => grant.2.toNat).sum = bytes
  reading : ∃ freeMessages freeTotal freeBytes,
    link.receiver.HasCapacity freeMessages freeTotal freeBytes ∧
      freeMessages + link.processing.length = messages ∧
      freeTotal + link.processing.length = total ∧
      freeBytes + bytesOf encoding link.processing = bytes
  ungranted : link.receiver.Ungranted config
  grants : ∀ grant ∈ link.grants, grant.2 ≠ 0

namespace Kept

theorem new {senderConfig receiverConfig : FlowControlConfig} {senderBytes grantMessages
    grantBytes : UInt32} (hmessages : receiverConfig.peerFloodReadingCapacity = grantMessages.toNat)
    (hbatch : 0 < receiverConfig.flowControlSendMoreBatchSize) (hbytes : grantBytes ≠ 0) :
    Kept encoding receiverConfig
      (Link.new senderConfig receiverConfig senderBytes grantMessages grantBytes)
      grantMessages.toNat receiverConfig.peerReadingCapacity grantBytes.toNat where
  up := rfl
  floods := by simp [FlowControlState.Floods, Link.new, FlowControlState.withScpCallback]
  inFlight := by simp [Link.new]
  processing := by simp [Link.new]
  sum := by
    simp [Link.new, FlowControlState.withScpCallback, newMessage]
  sumBytes := by
    simp [Link.new, FlowControlState.withScpCallback, newBytes, bytesOf]
  reading := by
    refine ⟨_, _, _, ⟨rfl, rfl, _, rfl⟩, ?_, rfl, rfl⟩
    exact hmessages
  ungranted := ⟨hbatch, .inr rfl⟩
  grants := by simpa [Link.new] using hbytes

variable (hkept : Kept encoding config link messages total bytes)
include hkept

/-- There is capacity for the message that arrives next. -/
theorem begin (htotal : messages ≤ total) {msg : StellarMessage N V H T}
    {rest : List (StellarMessage N V H T)} (hinFlight : link.inFlight = msg :: rest) :
    ∃ receiver, link.receiver.beginMessageProcessing encoding msg = some receiver ∧
      Kept encoding config
        { link with receiver := receiver, inFlight := rest, processing := msg :: link.processing }
        messages total bytes := by
  obtain ⟨freeMessages, freeTotal, freeBytes, hcapacity, hfreeMessages, hfreeTotal, hfreeBytes⟩ :=
    hkept.reading
  have hmessages := hkept.sum
  have hbytes := hkept.sumBytes
  rw [hinFlight, length_cons] at hmessages
  rw [hinFlight, bytesOf_cons] at hbytes
  have hflood : isFlowControlledMessage msg = true :=
    hkept.inFlight msg (by rw [hinFlight]; exact mem_cons_self)
  obtain ⟨receiver, hbegin, hcapacity', hprocessed, hprocessedBytes⟩ :=
    FlowControlState.beginMessageProcessing_spec encoding hcapacity hflood
      (by omega) (by omega) (by omega)
  refine ⟨receiver, hbegin, ?_⟩
  refine
    { __ := hkept
      inFlight := fun other hother =>
        hkept.inFlight other (by rw [hinFlight]; exact mem_cons_of_mem msg hother)
      processing := forall_mem_cons.mpr ⟨hflood, hkept.processing⟩
      sum := ?_
      sumBytes := ?_
      reading := ?_
      ungranted := ?_ }
  · dsimp only
    rw [length_cons, hprocessed]
    omega
  · dsimp only
    rw [bytesOf_cons, hprocessedBytes]
    omega
  · refine ⟨_, _, _, hcapacity', ?_, ?_, ?_⟩
    · rw [length_cons]
      omega
    · rw [length_cons]
      omega
    · rw [bytesOf_cons]
      omega
  · refine ⟨?_, ?_⟩
    · rw [hprocessed]
      exact hkept.ungranted.messages
    · rw [hprocessedBytes]
      exact hkept.ungranted.bytes

theorem finish (hmessages : messages < UInt32.size) (hbytes : bytes < UInt32.size) {position : Nat}
    {msg : StellarMessage N V H T} (hmsg : link.processing[position]? = some msg) :
    ∃ capacity receiver,
      link.receiver.endMessageProcessing encoding config msg = some (capacity, receiver) ∧
      Kept encoding config
        { link with
          receiver := receiver
          processing := link.processing.eraseIdx position
          grants :=
            if capacity.shouldSend then
              link.grants ++ [(.ofNat capacity.numFloodMessages, .ofNat capacity.numFloodBytes)]
            else link.grants }
        messages total bytes := by
  obtain ⟨freeMessages, freeTotal, freeBytes, hcapacity, hfreeMessages, hfreeTotal, hfreeBytes⟩ :=
    hkept.reading
  obtain ⟨hposition, hget⟩ := List.getElem?_eq_some_iff.mp hmsg
  have hperm : link.processing.Perm (msg :: link.processing.eraseIdx position) := by
    rw [← hget]
    exact (getElem_cons_eraseIdx_perm hposition).symm
  have hlength := hperm.length_eq
  have hsize : bytesOf encoding link.processing =
      encoding.msgBodySize msg + bytesOf encoding (link.processing.eraseIdx position) := by
    rw [← bytesOf_cons]
    exact (hperm.map encoding.msgBodySize).sum_eq
  rw [length_cons] at hlength
  have hflood : isFlowControlledMessage msg = true :=
    hkept.processing msg (mem_of_getElem? hmsg)
  obtain ⟨capacity, receiver, hend, hcapacity', hungranted, hgrantMessages, hgrantBytes, hsend,
      hkeep⟩ :=
    FlowControlState.endMessageProcessing_spec encoding hcapacity hkept.ungranted
      hflood
  have hsum := hkept.sum
  have hsumBytes := hkept.sumBytes
  have hexact : (UInt32.ofNat capacity.numFloodMessages).toNat = capacity.numFloodMessages :=
    UInt32.toNat_ofNat_of_lt' (by omega)
  have hexactBytes : (UInt32.ofNat capacity.numFloodBytes).toNat = capacity.numFloodBytes :=
    UInt32.toNat_ofNat_of_lt' (by omega)
  refine ⟨capacity, receiver, hend, ?_⟩
  refine
    { __ := hkept
      processing := fun other hother =>
        hkept.processing other (mem_of_mem_eraseIdx hother)
      sum := ?_
      sumBytes := ?_
      reading := ?_
      ungranted := hungranted
      grants := ?_ }
  · dsimp only
    split
    · simp only [map_append, sum_append, map_singleton, sum_singleton, hexact]
      omega
    next hnot =>
      have hnone := hkeep (by simpa using hnot)
      omega
  · dsimp only
    split
    · simp only [map_append, sum_append, map_singleton, sum_singleton, hexactBytes]
      omega
    next hnot =>
      have hnone := hkeep (by simpa using hnot)
      omega
  · refine ⟨_, _, _, hcapacity', ?_, ?_, ?_⟩
    · dsimp only
      omega
    · dsimp only
      omega
    · dsimp only
      omega
  · dsimp only
    split
    next hsends =>
      intro grant hgrant
      rcases mem_append.mp hgrant with hold | hnew
      · exact hkept.grants grant hold
      · rw [mem_singleton.mp hnew]
        intro hzero
        have hpositive := hsend hsends
        rw [← hexactBytes, show UInt32.ofNat capacity.numFloodBytes = 0 from hzero] at hpositive
        exact absurd hpositive (by decide)
    · exact hkept.grants

theorem receiveGrant (hmessages : messages < UInt32.size) (hbytes : bytes < UInt32.size)
    {grant : UInt32 × UInt32} {rest : List (UInt32 × UInt32)}
    (hgrants : link.grants = grant :: rest) :
    link.sender.isSendMoreValid grant.1 grant.2 = true ∧
      Kept encoding config
        { link with
          sender := link.sender.maybeReleaseCapacity (.sendMoreExtended grant.1 grant.2)
          grants := rest }
        messages total bytes := by
  have hsum := hkept.sum
  have hsumBytes := hkept.sumBytes
  rw [hgrants, map_cons, sum_cons] at hsum hsumBytes
  have hnonzero : grant.2 ≠ 0 := hkept.grants grant (by rw [hgrants]; exact mem_cons_self)
  have hsizes : UInt32.size ≤ UInt64.size - 1 := by decide
  refine ⟨?_, ?_⟩
  · simp only [FlowControlState.isSendMoreValid, hnonzero, ne_eq, not_false_eq_true, decide_true,
      Bool.true_and, Bool.and_eq_true, decide_eq_true_eq]
    omega
  · refine
      { __ := hkept
        sum := ?_
        sumBytes := ?_
        grants := fun other hother =>
          hkept.grants other (by rw [hgrants]; exact mem_cons_of_mem grant hother) }
    · have hreleased : (link.sender.maybeReleaseCapacity
          (.sendMoreExtended grant.1 grant.2)).messageCapacity.outboundCapacity =
          link.sender.messageCapacity.outboundCapacity + grant.1.toNat := rfl
      dsimp only
      omega
    · have hreleased : (link.sender.maybeReleaseCapacity
          (.sendMoreExtended grant.1 grant.2)).byteCapacity.outboundCapacity =
          link.sender.byteCapacity.outboundCapacity + grant.2.toNat := rfl
      dsimp only
      omega

/-- A batch moves onto the link. -/
theorem send :
    Kept encoding config
      { link with
        sender := (link.sender.getNextBatchToSend encoding).1
        inFlight := link.inFlight ++ (link.sender.getNextBatchToSend encoding).2.map (·.message) }
      messages total bytes := by
  have hspent := FlowControlState.getNextBatchToSend_spent encoding hkept.floods
  generalize link.sender.getNextBatchToSend encoding = next at hspent ⊢
  obtain ⟨sender, batch⟩ := next
  have hspentMessages := hspent.messages
  have hspentBytes := hspent.bytes
  have hsum := hkept.sum
  have hsumBytes := hkept.sumBytes
  have hbatch : FlowControlState.batchBytes encoding batch =
      bytesOf encoding (batch.map (·.message)) := by
    simp [FlowControlState.batchBytes, bytesOf, Function.comp_def]
  refine
    { __ := hkept
      floods := hspent.floods
      inFlight := fun msg hmsg => ?_
      sum := ?_
      sumBytes := ?_ }
  · rcases mem_append.mp hmsg with hold | hnew
    · exact hkept.inFlight msg hold
    · obtain ⟨entry, hentry, rfl⟩ := mem_map.mp hnew
      exact hspent.batch entry hentry
  · dsimp only at hspentMessages ⊢
    rw [length_append, length_map]
    omega
  · dsimp only at hspentBytes ⊢
    rw [bytesOf_append, ← hbatch]
    omega

theorem sender {s : FlowControlState N V H T} (hfloods : s.Floods)
    (hmessages : s.messageCapacity = link.sender.messageCapacity)
    (hbytes : s.byteCapacity = link.sender.byteCapacity) :
    Kept encoding config { link with sender := s } messages total bytes where
  __ := hkept
  floods := hfloods
  sum := by
    dsimp only
    rw [hmessages]
    exact hkept.sum
  sumBytes := by
    dsimp only
    rw [hbytes]
    exact hkept.sumBytes

/-- An increase adds to the capacity what is granted for it. -/
theorem increase {amount : UInt32} (hamount : amount ≠ 0) :
    Kept encoding config
      { link with
        receiver := link.receiver.handleTxSizeIncrease amount
        grants := link.grants ++ [(0, amount)]
        increased := link.increased + amount.toNat }
      messages total (bytes + amount.toNat) := by
  obtain ⟨freeMessages, freeTotal, freeBytes, hcapacity, hfreeMessages, hfreeTotal, hfreeBytes⟩ :=
    hkept.reading
  obtain ⟨limits, hlimits⟩ := hcapacity.limits
  have hpositive : amount > 0 := UInt32.pos_iff_ne_zero.mpr hamount
  have hreceiver : link.receiver.handleTxSizeIncrease amount = { link.receiver with
      byteCapacity := link.receiver.byteCapacity.handleTxSizeIncrease amount } := by
    unfold FlowControlState.handleTxSizeIncrease
    rw [if_pos hpositive]
  have hsum := hkept.sum
  have hsumBytes := hkept.sumBytes
  rw [hreceiver]
  refine
    { __ := hkept
      sum := ?_
      sumBytes := ?_
      reading := ?_
      ungranted := ⟨hkept.ungranted.messages, hkept.ungranted.bytes⟩
      grants := ?_ }
  · simpa using hsum
  · simp only [map_append, sum_append, map_singleton, sum_singleton]
    omega
  · refine ⟨freeMessages, freeTotal, freeBytes + amount.toNat,
      ⟨hcapacity.messages, ?_, ?_⟩, hfreeMessages, hfreeTotal, ?_⟩
    · simp [handleTxSizeIncrease, hlimits, hcapacity.bytes]
    · refine ⟨{ limits with floodCapacity := limits.floodCapacity + amount.toNat }, ?_⟩
      simp [handleTxSizeIncrease, hlimits]
    · dsimp only
      omega
  · intro grant hgrant
    rcases mem_append.mp hgrant with hold | hnew
    · exact hkept.grants grant hold
    · rw [mem_singleton.mp hnew]
      exact hamount

theorem balanced {bytesConfig : FlowControlBytesConfig} {maxTxSize grantMessages : UInt32}
    (htotal : messages ≤ total) (hbatch : config.flowControlSendMoreBatchSize ≤ messages)
    (hbatchBytes : config.flowControlBytesBatchSize = bytesConfig.bytesBatch.toNat)
    (hmessages : messages = grantMessages.toNat)
    (hbytes : ∀ initial ∈ bytesConfig.bytesTotal maxTxSize, bytes = initial.toNat + link.increased)
    (hconfigured : (bytesConfig.bytesTotal maxTxSize).isSome) :
    link.Balanced encoding config bytesConfig grantMessages maxTxSize where
  up := hkept.up
  accepts msg hmsg := by
    cases hinFlight : link.inFlight with
    | nil =>
      rw [hinFlight] at hmsg
      cases hmsg
    | cons first rest =>
      rw [hinFlight] at hmsg
      cases hmsg
      obtain ⟨receiver, hbegin, -⟩ := hkept.begin htotal hinFlight
      rw [hbegin]
      simp
  asserts msg hmsg := by
    obtain ⟨freeMessages, freeTotal, freeBytes, hcapacity, -⟩ := hkept.reading
    obtain ⟨capacity, receiver, hend, -⟩ :=
      FlowControlState.endMessageProcessing_spec encoding hcapacity
        hkept.ungranted (hkept.processing msg hmsg)
    rw [hend]
    simp
  messages := by
    rw [← hmessages]
    exact hkept.sum
  bytes initial hinitial := by
    rw [← hbytes initial hinitial]
    exact hkept.sumBytes
  atRest hheadroom hinFlight hprocessing hgrants msg hsize := by
    obtain ⟨initial, hinitial⟩ := Option.isSome_iff_exists.mp hconfigured
    have hsum := hkept.sum
    have hsumBytes := hkept.sumBytes
    have hungranted := hkept.ungranted.messages
    have hroom := bytesConfig.room hinitial hheadroom
    have hbytes := hbytes initial hinitial
    rw [hinFlight, hprocessing, hgrants] at hsum hsumBytes
    simp only [bytesOf, length_nil, map_nil, sum_nil, Nat.add_zero] at hsum hsumBytes
    rw [FlowControlState.hasOutboundCapacity_iff]
    refine ⟨by omega, ?_⟩
    have hungrantedBytes := hkept.ungranted.bytes
    rw [hbatchBytes] at hungrantedBytes
    omega

end Kept

section

variable [DecidableEq N] [LinearOrder V] [DecidableEq H] [DecidableEq T]

theorem Kept.operate (hkept : Kept encoding config link messages total bytes)
    (senderConfig : FlowControlConfig) (htotal : messages ≤ total)
    (hmessages : messages < UInt32.size) (action : LinkStep N V H T)
    (hbytes : bytes + ((link.operate encoding senderConfig config action).increased -
      link.increased) < UInt32.size) :
    Kept encoding config (link.operate encoding senderConfig config action) messages total
      (bytes + ((link.operate encoding senderConfig config action).increased -
        link.increased)) := by
  have hbytesNow : bytes < UInt32.size := by omega
  have hsame : ∀ link' : Link N V H T, link'.increased = link.increased →
      Kept encoding config link' messages total bytes →
      Kept encoding config link' messages total (bytes + (link'.increased - link.increased)) := by
    intro link' hincreased hkept'
    rw [hincreased, Nat.sub_self, Nat.add_zero]
    exact hkept'
  cases action with
  | addMsg scpCallback msg =>
    obtain ⟨hcapacity, hbyteCapacity, hfloods⟩ :=
      FlowControlState.addMsgAndMaybeTrimQueue_floods encoding senderConfig
        scpCallback msg hkept.floods
    exact hsame _ rfl (hkept.sender hfloods hcapacity hbyteCapacity)
  | send => exact hsame _ rfl hkept.send
  | processSent sentMessages =>
    have hshrinks := FlowControlState.shrinks_processSentMessages encoding
      sentMessages link.sender
    exact hsame _ rfl (hkept.sender (hshrinks.floods hkept.floods) hshrinks.messageCapacity
      hshrinks.byteCapacity)
  | arrive =>
    simp only [Link.operate]
    split
    · exact hsame _ rfl hkept
    next msg rest hinFlight =>
      obtain ⟨receiver, hbegin, hkept'⟩ := hkept.begin htotal hinFlight
      rw [hbegin]
      exact hsame _ rfl hkept'
  | finish position =>
    simp only [Link.operate]
    split
    · exact hsame _ rfl hkept
    next msg hmsg =>
      obtain ⟨capacity, receiver, hend, hkept'⟩ := hkept.finish hmessages hbytesNow hmsg
      rw [hend]
      exact hsame _ rfl hkept'
  | receiveGrant =>
    simp only [Link.operate]
    split
    · exact hsame _ rfl hkept
    next grantMessages grantBytes rest hgrants =>
      obtain ⟨hvalid, hkept'⟩ := hkept.receiveGrant hmessages hbytesNow hgrants
      rw [if_pos hvalid]
      exact hsame _ rfl hkept'
  | increase amount =>
    simp only [Link.operate]
    split
    · exact hsame _ rfl hkept
    next hamount =>
      dsimp only
      rw [Nat.add_sub_cancel_left]
      exact hkept.increase hamount

variable {base senderConfig : FlowControlConfig} {bytesConfig : FlowControlBytesConfig}
  {grantMessages maxTxSize : UInt32}

theorem increased_operate_le (encoding : Encoding N V H T)
    (senderConfig receiverConfig : FlowControlConfig)
    (link : Link N V H T) (action : LinkStep N V H T) :
    link.increased ≤ (link.operate encoding senderConfig receiverConfig action).increased := by
  cases action with
  | increase amount =>
    simp only [Link.operate]
    split
    · exact Nat.le_refl _
    · exact Nat.le_add_right ..
  | addMsg => exact Nat.le_refl _
  | send => exact Nat.le_refl _
  | processSent => exact Nat.le_refl _
  | arrive =>
    simp only [Link.operate]
    split
    · exact Nat.le_refl _
    · split <;> exact Nat.le_refl _
  | finish position =>
    simp only [Link.operate]
    split
    · exact Nat.le_refl _
    · split <;> exact Nat.le_refl _
  | receiveGrant =>
    simp only [Link.operate]
    split
    · exact Nat.le_refl _
    · split <;> exact Nat.le_refl _

/-- As long as the bytes can be counted in a grant, every link that is reached keeps its
accounts. -/
theorem Reachable.kept (hreading : grantMessages.toNat ≤ base.peerReadingCapacity)
    (hbatch : 0 < base.flowControlSendMoreBatchSize) {initial : UInt32}
    (hinitial : bytesConfig.bytesTotal maxTxSize = some initial)
    (hreach : Reachable encoding senderConfig base bytesConfig grantMessages maxTxSize link)
    (hbytes : initial.toNat + link.increased < UInt32.size) :
    Kept encoding (peerConfig base bytesConfig grantMessages) link grantMessages.toNat
      base.peerReadingCapacity (initial.toNat + link.increased) := by
  induction hreach with
  | start hbytesTotal =>
    cases Option.some.inj (hinitial.symm.trans hbytesTotal)
    exact .new rfl hbatch (bytesConfig.bytesTotal_ne_zero hinitial)
  | @step before action hreach hup ih =>
    have hle := increased_operate_le encoding senderConfig
      (peerConfig base bytesConfig grantMessages) before action
    have hsum : initial.toNat + before.increased +
        ((before.operate encoding senderConfig (peerConfig base bytesConfig grantMessages)
          action).increased - before.increased) =
        initial.toNat + (before.operate encoding senderConfig
          (peerConfig base bytesConfig grantMessages) action).increased := by
      omega
    have hkept := (ih (by omega)).operate senderConfig hreading (UInt32.toNat_lt _) action
      (by rw [hsum]; exact hbytes)
    rw [hsum] at hkept
    exact hkept

/-- With a message batch that is positive and within the flood capacity, a flood capacity
within the reading capacity, and bytes that can be counted in a grant, capacity stays
accounted for on every link, nothing fails, and at rest a transaction can be sent. -/
theorem balanced_of_reachable (hreading : grantMessages.toNat ≤ base.peerReadingCapacity)
    (hbatch : 0 < base.flowControlSendMoreBatchSize)
    (hflood : base.flowControlSendMoreBatchSize ≤ grantMessages.toNat)
    (hreach : Reachable encoding senderConfig base bytesConfig grantMessages maxTxSize link)
    (hbytes : ∀ initial ∈ bytesConfig.bytesTotal maxTxSize,
      initial.toNat + link.increased < UInt32.size) :
    link.Balanced encoding (peerConfig base bytesConfig grantMessages) bytesConfig grantMessages
      maxTxSize := by
  have hconfigured : ∃ initial, bytesConfig.bytesTotal maxTxSize = some initial := by
    clear hbytes
    induction hreach with
    | start hbytesTotal => exact ⟨_, hbytesTotal⟩
    | step _ _ _ ih => exact ih
  obtain ⟨initial, hinitial⟩ := hconfigured
  have hkept := hreach.kept hreading hbatch hinitial (hbytes initial hinitial)
  refine hkept.balanced hreading hflood rfl rfl ?_ (by rw [hinitial]; rfl)
  intro other hother
  cases Option.some.inj (hinitial.symm.trans hother)
  rfl

end

/-! ### Links that come to rest, and links that fail -/

open Session (fourBytes oneTransaction)

/-- The parameters of a connection, apart from its flood capacity and its bytes. -/
def readingAndBatch (reading batch : Nat) : FlowControlConfig :=
  { oneTransaction with peerReadingCapacity := reading, flowControlSendMoreBatchSize := batch }

/-- One message is granted for, sent, processed and returned. -/
def oneMessage : List (LinkStep ℕ ℕ ℕ ℕ) :=
  [.receiveGrant, .addMsg none (.transaction 7), .send, .arrive, .finish 0]

/-- What steps come to from the initial grants, as long as nothing fails. -/
def run (encoding : Encoding ℕ ℕ ℕ ℕ) (base : FlowControlConfig)
    (bytesConfig : FlowControlBytesConfig) (grantMessages bytes : UInt32)
    (actions : List (LinkStep ℕ ℕ ℕ ℕ)) : Link ℕ ℕ ℕ ℕ :=
  actions.foldl
    (fun link action =>
      if link.failure = none then
        link.operate encoding (readingAndBatch 201 40) (peerConfig base bytesConfig grantMessages)
          action
      else link)
    (.new (readingAndBatch 201 40) (peerConfig base bytesConfig grantMessages) 300000
      grantMessages bytes)

theorem reachable_run {encoding : Encoding ℕ ℕ ℕ ℕ} {base : FlowControlConfig}
    {bytesConfig : FlowControlBytesConfig} {grantMessages bytes maxTxSize : UInt32}
    (hbytes : bytesConfig.bytesTotal maxTxSize = some bytes) (actions : List (LinkStep ℕ ℕ ℕ ℕ)) :
    Reachable encoding (readingAndBatch 201 40) base bytesConfig grantMessages maxTxSize
      (run encoding base bytesConfig grantMessages bytes actions) := by
  unfold run
  generalize hstart : Link.new (readingAndBatch 201 40) (peerConfig base bytesConfig grantMessages)
    300000 grantMessages bytes = link
  have hreach : Reachable encoding (readingAndBatch 201 40) base bytesConfig grantMessages
      maxTxSize link := hstart ▸ .start hbytes
  clear hstart
  induction actions generalizing link with
  | nil => exact hreach
  | cons action rest ih =>
    rw [foldl_cons]
    split
    next hup => exact ih _ (hreach.step action hup)
    · exact ih _ hreach

/-- A message back and forth leaves the default link balanced. -/
theorem balanced_oneMessage :
    (run fourBytes (readingAndBatch 201 40) .auto 200 300000 oneMessage).Balanced fourBytes
      (peerConfig (readingAndBatch 201 40) .auto 200) .auto 200 102400 := by
  have hbytes : FlowControlBytesConfig.auto.bytesTotal 102400 = some 300000 := by decide
  refine balanced_of_reachable (by decide) (by decide) (by decide)
    (reachable_run hbytes oneMessage) ?_
  intro initial hinitial
  cases Option.some.inj (hbytes.symm.trans hinitial)
  decide

/-- Every link stays balanced. -/
def AlwaysBalanced (encoding : Encoding ℕ ℕ ℕ ℕ) (base : FlowControlConfig)
    (bytesConfig : FlowControlBytesConfig) (grantMessages maxTxSize : UInt32) : Prop :=
  ∀ link, Reachable encoding (readingAndBatch 201 40) base bytesConfig grantMessages maxTxSize
    link → link.Balanced encoding (peerConfig base bytesConfig grantMessages) bytesConfig
      grantMessages maxTxSize

/-- Every message takes 16 MB. -/
def largeMessages : Encoding ℕ ℕ ℕ ℕ where
  msgBodySize _ := 0x1000000
  four_le_msgBodySize _ := by decide

/-- The peer sends 256 messages before one is processed. -/
def fullWindow : List (LinkStep ℕ ℕ ℕ ℕ) :=
  [.increase 1, .receiveGrant, .receiveGrant] ++
    replicate 256 (.addMsg none (.floodAdvert [])) ++ [.send] ++ replicate 256 .arrive ++
    replicate 256 (.finish 0)

/-- A flood capacity above the reading capacity overflows; a batch of no messages trips the
assertion; a batch above the flood capacity leaves the sender without capacity; and a grant
of `2 ^ 32` bytes for a batch of 256 messages is lost. -/
theorem unbalanced_configurations :
    ¬AlwaysBalanced fourBytes (readingAndBatch 1 1) .auto 2 102400 ∧
      ¬AlwaysBalanced fourBytes (readingAndBatch 201 0) .auto 200 102400 ∧
      ¬AlwaysBalanced fourBytes (readingAndBatch 201 2) .auto 1 102400 ∧
      ¬AlwaysBalanced largeMessages (readingAndBatch 301 256)
        (.fixed 4294967295 4294967295 (by decide) (by decide)) 300 102400 := by
  have hbytes : FlowControlBytesConfig.auto.bytesTotal 102400 = some 300000 := by decide
  refine ⟨fun hall => ?_, fun hall => ?_, fun hall => ?_, fun hall => ?_⟩
  · have hbalanced := hall _ (reachable_run hbytes [.receiveGrant, .addMsg none (.floodAdvert []),
      .addMsg none (.floodAdvert []), .send, .arrive, .arrive])
    exact absurd hbalanced.up (by decide)
  · have hbalanced := hall _ (reachable_run hbytes oneMessage)
    exact absurd hbalanced.up (by decide)
  · have hbalanced := hall _ (reachable_run hbytes oneMessage)
    have hroom := hbalanced.atRest rfl (by decide) (by decide) (by decide) (.transaction 7)
      (by decide)
    exact absurd hroom (by decide)
  · have htotal : (FlowControlBytesConfig.fixed 4294967295 4294967295 (by decide)
        (by decide)).bytesTotal 102400 = some 4294967295 := by decide
    have hbalanced := hall _ (reachable_run htotal fullWindow)
    exact absurd (hbalanced.bytes _ htotal) (by decide +kernel)

end Link

end Henyey.Overlay
