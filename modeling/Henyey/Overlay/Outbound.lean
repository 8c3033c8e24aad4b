import Henyey.Overlay.FlowControl

/-!
# Outbound messages of a connection

Batches are handed out and later reported as sent, oldest first. What has become of each
message that was queued is kept beside the connection's state.
-/

namespace Henyey.Overlay

variable {N V H T : Type} [DecidableEq N] [LinearOrder V] [DecidableEq H] [DecidableEq T]

/-- The entries of a batch that came from the queue of a priority. -/
def part (priority : MessagePriority) (batch : List (QueuedOutboundMessage N V H T)) :
    List (QueuedOutboundMessage N V H T) :=
  batch.filter fun entry => MessagePriority.fromMessage entry.message = some priority

def QueuedOutboundMessage.sent (entry : QueuedOutboundMessage N V H T) :
    QueuedOutboundMessage N V H T :=
  { entry with beingSent := true }

namespace FlowControlState

variable (s : FlowControlState N V H T)

/-- The entries of a queue that have not been handed out. -/
def waiting (priority : MessagePriority) : List (QueuedOutboundMessage N V H T) :=
  (s.outboundQueues priority).filter fun entry => !entry.beingSent

def allWaiting : List (QueuedOutboundMessage N V H T) :=
  MessagePriority.all.flatMap s.waiting

def counter : MessagePriority → Nat
  | .scp => 0
  | .transaction => s.txQueueByteCount
  | .floodDemand => s.demandQueueTxHashCount
  | .floodAdvert => s.advertQueueTxHashCount

end FlowControlState

/-- What a message adds to the count of its queue. -/
def resources (encoding : Encoding N V H T) (msg : StellarMessage N V H T) : Nat :=
  match msg with
  | .transaction _ => encoding.msgBodySize msg
  | .floodDemand txHashes => txHashes.length
  | .floodAdvert txHashes => txHashes.length
  | _ => 0

/-! ### Sessions -/

/-- A connection with what has become of its messages. -/
structure Session (N V H T : Type) where
  state : FlowControlState N V H T
  /-- All messages that were queued. -/
  queued : List (QueuedOutboundMessage N V H T)
  handedOut : List (QueuedOutboundMessage N V H T)
  /-- Dropped by a trimming rule while they were waiting. -/
  trimmed : List (QueuedOutboundMessage N V H T)
  /-- Batches that were handed out and not yet reported as sent. -/
  outstanding : List (List (QueuedOutboundMessage N V H T))
  processed : List (QueuedOutboundMessage N V H T)
  grantedMessages : Nat
  grantedBytes : Nat

def Session.new (config : FlowControlConfig) (initialBytesCapacity : UInt32) : Session N V H T where
  state := .withScpCallback config initialBytesCapacity
  queued := []
  handedOut := []
  trimmed := []
  outstanding := []
  processed := []
  grantedMessages := 0
  grantedBytes := 0

inductive Operation (N V H T : Type) where
  | addMsg (scpCallback : Option ScpQueueCallback) (msg : StellarMessage N V H T)
  | getNextBatch
  /-- The oldest batch was sent. -/
  | processSent
  | sendMore (numMessages numBytes : UInt32)

namespace Session

variable (encoding : Encoding N V H T) (config : FlowControlConfig) (session : Session N V H T)

/-- The entry of a message that was queued in a step. -/
def newly (s' : FlowControlState N V H T) (msg : StellarMessage N V H T) :
    List (QueuedOutboundMessage N V H T) :=
  if s'.now = session.state.now then [] else [⟨msg, session.state.now, false⟩]

def operate : Operation N V H T → Session N V H T
  | .addMsg scpCallback msg =>
    let s' := session.state.addMsgAndMaybeTrimQueue encoding config scpCallback msg
    let newly := session.newly s' msg
    { session with
      state := s'
      queued := session.queued ++ newly
      trimmed := session.trimmed ++ (session.state.allWaiting ++ newly).filter (· ∉ s'.allWaiting) }
  | .getNextBatch =>
    let (s', batch) := session.state.getNextBatchToSend encoding
    { session with
      state := s'
      handedOut := session.handedOut ++ batch
      outstanding := session.outstanding ++ [batch] }
  | .processSent =>
    match session.outstanding with
    | [] => session
    | batch :: rest =>
      { session with
        state := session.state.processSentMessages encoding
          fun priority => (part priority batch).map (·.message)
        outstanding := rest
        processed := session.processed ++ batch }
  | .sendMore numMessages numBytes =>
    { session with
      state := session.state.maybeReleaseCapacity (.sendMoreExtended numMessages numBytes)
      grantedMessages := session.grantedMessages + numMessages.toNat
      grantedBytes := session.grantedBytes + numBytes.toNat }

def Valid : Operation N V H T → Prop
  | .sendMore numMessages numBytes => session.state.isSendMoreValid numMessages numBytes = true
  | _ => True

/-- What the acknowledged batch had in a queue is still there, or was cleared and the
front of the queue is none of its messages. -/
def Unambiguous : Operation N V H T → Prop
  | .processSent => ∀ batch ∈ session.outstanding.head?, ∀ priority,
      (∀ entry ∈ part priority batch, entry.sent ∈ session.state.outboundQueues priority) ∨
      ∀ front ∈ (session.state.outboundQueues priority).head?,
        ∀ entry ∈ part priority batch, front.message ≠ entry.message
  | _ => True

/-- A queue is longer, or counts for more, than it may. -/
def OverLimit (s : FlowControlState N V H T) : MessagePriority → Prop
  | .transaction => (s.outboundQueues .transaction).length > config.maxTxSetSizeOps ∨
      s.txQueueByteCount > config.outboundTxQueueByteLimit
  | .scp => (s.outboundQueues .scp).length > config.maxTxSetSizeOps
  | .floodAdvert => s.advertQueueTxHashCount > config.maxTxSetSizeOps
  | .floodDemand => s.demandQueueTxHashCount > config.maxTxSetSizeOps

/-- Nothing of a queue waits, or a message in it needs more than the capacity left. -/
def Exhausted (s : FlowControlState N V H T) (priority : MessagePriority) : Prop :=
  s.waiting priority = [] ∨
    ∃ entry ∈ s.outboundQueues priority, s.hasOutboundCapacity encoding entry.message = false

/-- Nothing is lost or repeated. -/
structure Lossless : Prop where
  /-- Each queued message waits, or was handed out once, or was trimmed while waiting. -/
  accounted : (session.state.allWaiting ++ session.handedOut ++ session.trimmed).Perm
    session.queued
  once : (session.queued.map (·.timeEmplaced)).Nodup
  /-- The next batch is taken from the front of what waits. -/
  inOrder : ∀ priority, part priority (session.state.getNextBatchToSend encoding).2 <+:
    session.state.waiting priority
  /-- It is the longest one that the capacity admits. -/
  longest : ∀ priority, Exhausted encoding (session.state.getNextBatchToSend encoding).1 priority
  /-- A message drops others, or is dropped, when its queue is over a limit with it. -/
  drops : ∀ scpCallback msg,
    (session.operate encoding config (.addMsg scpCallback msg)).trimmed ≠ session.trimmed →
      ∃ priority s', MessagePriority.fromMessage msg = some priority ∧
        session.state.enqueueMessageResources encoding config msg = some s' ∧
          OverLimit config (s'.pushBack priority msg) priority
  gone : ∀ entry ∈ session.processed, ∀ priority,
    ∀ left ∈ session.state.outboundQueues priority, left.timeEmplaced ≠ entry.timeEmplaced
  counted : ∀ priority, session.state.counter priority =
    ((session.state.outboundQueues priority).map fun entry => resources encoding entry.message).sum
  unsaturated : ∀ priority, ∀ entry ∈ session.state.outboundQueues priority,
    resources encoding entry.message ≤ session.state.counter priority
  messages : session.handedOut.length ≤ session.grantedMessages
  bytes : (session.handedOut.map fun entry => encoding.msgBodySize entry.message).sum ≤
    session.grantedBytes

/-- Sessions that valid operations reach. -/
inductive Reachable (initialBytesCapacity : UInt32)
    (Condition : Session N V H T → Operation N V H T → Prop) : Session N V H T → Prop
  | start : Reachable initialBytesCapacity Condition (.new config initialBytesCapacity)
  | step {session : Session N V H T} (op : Operation N V H T)
      (hreach : Reachable initialBytesCapacity Condition session) (hvalid : session.Valid op)
      (hcondition : Condition session op) :
      Reachable initialBytesCapacity Condition (session.operate encoding config op)

end Session

end Henyey.Overlay

/-!
## What an operation does to the outbound queues

A queue holds the entries that were handed out, then those that wait. Trimming keeps or
clears the first part and keeps some of the second; a batch is taken from the front of the
second; an acknowledgement pops the front of the queue.
-/

namespace Henyey.Overlay

variable {N V H T : Type}

/-! ### Trimming -/

section

variable {sent waiting : List (QueuedOutboundMessage N V H T)}

theorem trimScpQueueNaive_sublist (limit : Nat) (queue : List (QueuedOutboundMessage N V H T)) :
    (trimScpQueueNaive limit queue).Sublist queue := by
  induction queue with
  | nil => exact .slnil
  | cons front rest ih =>
    unfold trimScpQueueNaive
    split
    · exact ih.cons front
    · exact .refl _

/-- Entries that were handed out stop the trimming. -/
theorem trimScpQueueNaive_append (limit : Nat) (hsent : ∀ entry ∈ sent, entry.beingSent = true)
    (waiting : List (QueuedOutboundMessage N V H T)) :
    ∃ kept, trimScpQueueNaive limit (sent ++ waiting) = sent ++ kept ∧ kept.Subperm waiting := by
  cases sent with
  | nil => exact ⟨_, rfl, (trimScpQueueNaive_sublist limit waiting).subperm⟩
  | cons front rest =>
    refine ⟨waiting, ?_, List.Subperm.refl _⟩
    have hfront : front.beingSent = true := hsent front List.mem_cons_self
    simp [trimScpQueueNaive, hfront]

theorem getLast?_of_tryReplaceWithBack [DecidableEq N] [LinearOrder V]
    {entry back : QueuedOutboundMessage N V H T}
    {rest : List (QueuedOutboundMessage N V H T)}
    (hback : tryReplaceWithBack entry rest = some back) : rest.getLast? = some back := by
  unfold tryReplaceWithBack at hback
  split at hback
  · cases hback
  next last hlast =>
    split at hback
    · cases hback
    · split at hback
      · split at hback
        · cases hback
          exact hlast
        · cases hback
      · cases hback

/-- Trimming drops entries and moves one from the back. -/
theorem trimScpQueueFrom_subperm [DecidableEq N] [LinearOrder V] (cb : ScpQueueCallback)
    (valueReplaced : Bool)
    (queue : List (QueuedOutboundMessage N V H T)) :
    (trimScpQueueFrom cb valueReplaced queue).Subperm queue := by
  fun_induction trimScpQueueFrom cb valueReplaced queue with
  | case1 => exact List.Subperm.refl _
  | case2 _ entry rest _ ih => exact (List.subperm_cons entry).mpr ih
  | case3 _ entry rest _ _ ih => exact (List.subperm_cons entry).mpr ih
  | case4 _ entry rest _ _ _ _ ih => exact ih.trans (List.sublist_cons_self entry rest).subperm
  | case5 entry rest _ _ _ _ ih => exact (List.subperm_cons entry).mpr ih
  | case6 valueReplaced entry rest _ _ _ _ _ back hback ih =>
    have hrest : rest.dropLast ++ [back] = rest := by
      have hne : rest ≠ [] := by
        rintro rfl
        exact absurd (getLast?_of_tryReplaceWithBack hback) (by simp)
      have hlast : rest.getLast hne = back := by
        have hget := getLast?_of_tryReplaceWithBack hback
        rw [List.getLast?_eq_some_getLast hne] at hget
        exact Option.some.inj hget
      rw [← hlast]
      exact List.dropLast_concat_getLast hne
    have hmoved : (back :: trimScpQueueFrom cb true rest.dropLast).Subperm (rest.dropLast ++ [back]) :=
      ((List.subperm_cons back).mpr ih).trans
        (List.perm_append_singleton back rest.dropLast).symm.subperm
    rw [hrest] at hmoved
    exact hmoved.trans (List.sublist_cons_self entry rest).subperm
  | case7 _ entry rest _ _ _ _ _ _ ih => exact (List.subperm_cons entry).mpr ih

theorem trimScpQueueFrom_append [DecidableEq N] [LinearOrder V] (cb : ScpQueueCallback)
    (valueReplaced : Bool)
    (hsent : ∀ entry ∈ sent, entry.beingSent = true) :
    trimScpQueueFrom cb valueReplaced (sent ++ waiting) =
      sent ++ trimScpQueueFrom cb valueReplaced waiting := by
  induction sent with
  | nil => rfl
  | cons entry rest ih =>
    obtain ⟨hentry, hrest⟩ := List.forall_mem_cons.mp hsent
    rw [List.cons_append, trimScpQueueFrom, if_pos hentry, ih hrest, List.cons_append]

theorem trimScpQueue_append [DecidableEq N] [LinearOrder V] (limit : Nat)
    (scpCallback : Option ScpQueueCallback)
    (hsent : ∀ entry ∈ sent, entry.beingSent = true)
    (waiting : List (QueuedOutboundMessage N V H T)) :
    ∃ kept, trimScpQueue limit scpCallback (sent ++ waiting) = sent ++ kept ∧
      kept.Subperm waiting := by
  cases scpCallback with
  | none => exact trimScpQueueNaive_append limit hsent waiting
  | some cb =>
    exact ⟨_, trimScpQueueFrom_append cb false hsent, trimScpQueueFrom_subperm cb false waiting⟩

end

/-! ### One queue at a time -/

/-- Only a queue and its count are written. -/
structure OnlyQueue (priority : MessagePriority) (s s' : FlowControlState N V H T) : Prop where
  queues : ∀ other, other ≠ priority → s'.outboundQueues other = s.outboundQueues other
  counters : ∀ other, other ≠ priority → s'.counter other = s.counter other
  messageCapacity : s'.messageCapacity = s.messageCapacity
  byteCapacity : s'.byteCapacity = s.byteCapacity

namespace OnlyQueue

variable {priority : MessagePriority} {s s' s'' : FlowControlState N V H T}

theorem refl (s : FlowControlState N V H T) : OnlyQueue priority s s :=
  ⟨fun _ _ => rfl, fun _ _ => rfl, rfl, rfl⟩

theorem trans (hfirst : OnlyQueue priority s s') (hsecond : OnlyQueue priority s' s'') :
    OnlyQueue priority s s'' where
  queues other hother := (hsecond.queues other hother).trans (hfirst.queues other hother)
  counters other hother := (hsecond.counters other hother).trans (hfirst.counters other hother)
  messageCapacity := hsecond.messageCapacity.trans hfirst.messageCapacity
  byteCapacity := hsecond.byteCapacity.trans hfirst.byteCapacity

end OnlyQueue

/-- What the entries of a queue add to its count. -/
def total (encoding : Encoding N V H T) (queue : List (QueuedOutboundMessage N V H T)) : Nat :=
  (queue.map fun entry => resources encoding entry.message).sum

namespace FlowControlState

variable (encoding : Encoding N V H T) (config : FlowControlConfig)
  {s s' : FlowControlState N V H T} {priority : MessagePriority} {msg : StellarMessage N V H T}

theorem onlyQueue_setQueue (s : FlowControlState N V H T) (priority : MessagePriority)
    (queue : List (QueuedOutboundMessage N V H T)) :
    OnlyQueue priority s (s.setQueue priority queue) where
  queues _ hother := Function.update_of_ne hother ..
  counters other _ := by cases other <;> rfl
  messageCapacity := rfl
  byteCapacity := rfl

@[simp]
theorem outboundQueues_setQueue (s : FlowControlState N V H T) (priority : MessagePriority)
    (queue : List (QueuedOutboundMessage N V H T)) :
    (s.setQueue priority queue).outboundQueues priority = queue :=
  Function.update_self ..

@[simp]
theorem counter_setQueue (s : FlowControlState N V H T) (priority other : MessagePriority)
    (queue : List (QueuedOutboundMessage N V H T)) :
    (s.setQueue priority queue).counter other = s.counter other := by
  cases other <;> rfl

theorem enqueueMessageResources_spec (hpriority : MessagePriority.fromMessage msg = some priority)
    (henqueue : s.enqueueMessageResources encoding config msg = some s') :
    OnlyQueue priority s s' ∧ s'.outboundQueues = s.outboundQueues ∧ s'.now = s.now ∧
      s'.counter priority = s.counter priority + resources encoding msg := by
  cases msg with
  | transaction tx =>
    cases hpriority
    simp only [enqueueMessageResources] at henqueue
    split at henqueue
    · cases henqueue
    · cases henqueue
      refine ⟨⟨fun _ _ => rfl, fun other hother => ?_, rfl, rfl⟩, rfl, rfl, rfl⟩
      cases other with
      | transaction => exact absurd rfl hother
      | _ => rfl
  | floodDemand _ | floodAdvert _ =>
    cases hpriority
    cases henqueue
    refine ⟨⟨fun _ _ => rfl, fun other hother => ?_, rfl, rfl⟩, rfl, rfl, rfl⟩
    cases other <;> first | rfl | exact absurd rfl hother
  | scpMessage env =>
    cases hpriority
    cases henqueue
    exact ⟨.refl s, rfl, rfl, rfl⟩
  | sendMoreExtended numMessages numBytes => cases hpriority
  | other body => cases hpriority

theorem dequeueMessageResources_spec (s : FlowControlState N V H T)
    (hpriority : MessagePriority.fromMessage msg = some priority) :
    OnlyQueue priority s (s.dequeueMessageResources encoding msg) ∧
      (s.dequeueMessageResources encoding msg).outboundQueues = s.outboundQueues ∧
      (s.dequeueMessageResources encoding msg).now = s.now ∧
      (s.dequeueMessageResources encoding msg).counter priority =
        s.counter priority - resources encoding msg := by
  cases msg with
  | transaction _ | floodDemand _ | floodAdvert _ =>
    cases hpriority
    refine ⟨⟨fun _ _ => rfl, fun other hother => ?_, rfl, rfl⟩, rfl, rfl, rfl⟩
    cases other <;> first | rfl | exact absurd rfl hother
  | scpMessage env =>
    cases hpriority
    exact ⟨.refl s, rfl, rfl, rfl⟩
  | sendMoreExtended numMessages numBytes => cases hpriority
  | other body => cases hpriority

/-- A queue after trimming: what was handed out is kept or cleared, of what waits some is kept,
and the count agrees. -/
structure Trimmed (priority : MessagePriority) (sent waiting : List (QueuedOutboundMessage N V H T))
    (s s' : FlowControlState N V H T) : Prop where
  only : OnlyQueue priority s s'
  now : s'.now = s.now
  kept : ∃ left kept, s'.outboundQueues priority = left ++ kept ∧ (left = sent ∨ left = []) ∧
    kept.Subperm waiting
  counted : s'.counter priority = total encoding (s'.outboundQueues priority)

variable {queue : List (QueuedOutboundMessage N V H T)}

theorem total_scp
    (htyped : ∀ entry ∈ queue, MessagePriority.fromMessage entry.message = some .scp) :
    total encoding queue = 0 := by
  refine List.sum_eq_zero fun count hcount => ?_
  obtain ⟨entry, hentry, rfl⟩ := List.mem_map.mp hcount
  have hscp := htyped entry hentry
  cases hmessage : entry.message with
  | scpMessage env => rfl
  | sendMoreExtended numMessages numBytes => rfl
  | other body => rfl
  | _ =>
    rw [hmessage] at hscp
    cases hscp

section

variable {encoding} {sent waiting : List (QueuedOutboundMessage N V H T)}

theorem Trimmed.refl (hqueue : s.outboundQueues priority = sent ++ waiting)
    (hcounted : s.counter priority = total encoding (s.outboundQueues priority)) :
    Trimmed encoding priority sent waiting s s :=
  ⟨.refl s, rfl, ⟨sent, waiting, hqueue, .inl rfl, List.Subperm.refl _⟩, hcounted⟩

theorem Trimmed.cleared (honly : OnlyQueue priority s s') (hnow : s'.now = s.now)
    (hqueue : s'.outboundQueues priority = []) (hcounter : s'.counter priority = 0) :
    Trimmed encoding priority sent waiting s s' where
  only := honly
  now := hnow
  kept := ⟨[], [], hqueue, .inr rfl, List.nil_subperm⟩
  counted := by
    rw [hqueue, hcounter]
    rfl

theorem trimQueue_spec [DecidableEq N] [LinearOrder V] (scpCallback : Option ScpQueueCallback)
    (hqueue : s.outboundQueues priority = sent ++ waiting)
    (hsent : ∀ entry ∈ sent, entry.beingSent = true) (htyped : ∀ entry ∈ s.outboundQueues priority,
      MessagePriority.fromMessage entry.message = some priority)
    (hcounted : s.counter priority = total encoding (s.outboundQueues priority)) :
    Trimmed encoding priority sent waiting s (s.trimQueue config scpCallback priority) := by
  cases priority with
  | scp =>
    rw [trimQueue]
    split
    · obtain ⟨kept, htrim, hkept⟩ :=
        trimScpQueue_append config.maxTxSetSizeOps scpCallback hsent waiting
      rw [hqueue, htrim]
      refine ⟨onlyQueue_setQueue s .scp _, rfl,
        ⟨sent, kept, outboundQueues_setQueue .., .inl rfl, hkept⟩, ?_⟩
      rw [outboundQueues_setQueue, total_scp encoding]
      · rfl
      · intro entry hentry
        apply htyped
        rw [hqueue]
        rcases List.mem_append.mp hentry with hleft | hright
        · exact List.mem_append_left _ hleft
        · exact List.mem_append_right _ (hkept.subset hright)
    · exact .refl hqueue hcounted
  | transaction | floodDemand | floodAdvert =>
    rw [trimQueue]
    split
    · refine .cleared ⟨(onlyQueue_setQueue s _ []).queues, fun other hother => ?_, rfl, rfl⟩ rfl
        (by simp) rfl
      cases other <;> first | rfl | exact absurd rfl hother
    · exact .refl hqueue hcounted

end

/-! ### Queueing a message -/

theorem addMsgAndMaybeTrimQueue_cases [DecidableEq N] [LinearOrder V] (s : FlowControlState N V H T)
    (scpCallback : Option ScpQueueCallback) (msg : StellarMessage N V H T) :
    s.addMsgAndMaybeTrimQueue encoding config scpCallback msg = s ∨
      ∃ priority counted, MessagePriority.fromMessage msg = some priority ∧
        s.enqueueMessageResources encoding config msg = some counted ∧
        s.addMsgAndMaybeTrimQueue encoding config scpCallback msg =
          (counted.pushBack priority msg).trimQueue config scpCallback priority := by
  unfold addMsgAndMaybeTrimQueue
  split
  · exact .inl rfl
  next priority hpriority =>
    split
    · exact .inl rfl
    next counted hcounted => exact .inr ⟨priority, counted, hpriority, hcounted, rfl⟩

section

variable {encoding} {sent waiting : List (QueuedOutboundMessage N V H T)}

theorem addMsg_spec [DecidableEq N] [LinearOrder V] {counted : FlowControlState N V H T}
    (scpCallback : Option ScpQueueCallback)
    (hpriority : MessagePriority.fromMessage msg = some priority)
    (henqueue : s.enqueueMessageResources encoding config msg = some counted)
    (hqueue : s.outboundQueues priority = sent ++ waiting)
    (hsent : ∀ entry ∈ sent, entry.beingSent = true) (htyped : ∀ entry ∈ s.outboundQueues priority,
      MessagePriority.fromMessage entry.message = some priority)
    (hcounted : s.counter priority = total encoding (s.outboundQueues priority)) :
    let s' := (counted.pushBack priority msg).trimQueue config scpCallback priority
    OnlyQueue priority s s' ∧ s'.now = s.now + 1 ∧
      (∃ left kept, s'.outboundQueues priority = left ++ kept ∧ (left = sent ∨ left = []) ∧
        kept.Subperm (waiting ++ [⟨msg, s.now, false⟩])) ∧
      s'.counter priority = total encoding (s'.outboundQueues priority) := by
  obtain ⟨honly, hqueues, hnow, hcounter⟩ :=
    enqueueMessageResources_spec encoding config hpriority henqueue
  have hpush : OnlyQueue priority counted (counted.pushBack priority msg) := by
    have hset := onlyQueue_setQueue counted priority
      (counted.outboundQueues priority ++ [⟨msg, counted.now, false⟩])
    refine ⟨hset.queues, fun other _ => ?_, rfl, rfl⟩
    cases other <;> rfl
  have hpushed : (counted.pushBack priority msg).outboundQueues priority =
      s.outboundQueues priority ++ [⟨msg, s.now, false⟩] := by
    rw [← hqueues, ← hnow]
    exact outboundQueues_setQueue counted priority _
  have hpushedCounter : (counted.pushBack priority msg).counter priority =
      s.counter priority + resources encoding msg := by
    rw [← hcounter]
    cases priority <;> rfl
  obtain ⟨htrim, htrimNow, hkept, htrimCounted⟩ : Trimmed encoding priority sent
      (waiting ++ [⟨msg, s.now, false⟩]) (counted.pushBack priority msg)
      ((counted.pushBack priority msg).trimQueue config scpCallback priority) :=
    trimQueue_spec config scpCallback
      (by rw [hpushed, hqueue, List.append_assoc]) hsent
      (by
        rw [hpushed]
        intro entry hentry
        rcases List.mem_append.mp hentry with hold | hnew
        · exact htyped entry hold
        · rw [List.mem_singleton.mp hnew]
          exact hpriority)
      (by
        rw [hpushed, hpushedCounter, hcounted]
        simp [total])
  refine ⟨(honly.trans hpush).trans htrim, ?_, hkept, htrimCounted⟩
  rw [htrimNow, ← hnow]
  rfl

end

/-! ### Handing out -/

def batchBytes (batch : List (QueuedOutboundMessage N V H T)) : Nat :=
  (batch.map fun entry => encoding.msgBodySize entry.message).sum

/-- The state with outbound capacity spent. -/
def spend (s : FlowControlState N V H T) (messages bytes : Nat) : FlowControlState N V H T :=
  { s with
    messageCapacity :=
      { s.messageCapacity with outboundCapacity := s.messageCapacity.outboundCapacity - messages }
    byteCapacity :=
      { s.byteCapacity with outboundCapacity := s.byteCapacity.outboundCapacity - bytes } }

theorem spend_spend (s : FlowControlState N V H T) (messages bytes messages' bytes' : Nat) :
    (s.spend messages bytes).spend messages' bytes' =
      s.spend (messages + messages') (bytes + bytes') := by
  simp only [spend, Nat.sub_sub]

theorem isFlowControlledMessage_of_priority
    (hpriority : MessagePriority.fromMessage msg = some priority) :
    isFlowControlledMessage msg = true := by
  cases msg with
  | sendMoreExtended numMessages numBytes => cases hpriority
  | other body => cases hpriority
  | _ => rfl

theorem lockOutboundCapacity_eq (s : FlowControlState N V H T)
    (hflood : isFlowControlledMessage msg = true) :
    s.lockOutboundCapacity encoding msg = s.spend 1 (encoding.msgBodySize msg) := by
  simp [lockOutboundCapacity, FlowControlCapacity.lockOutboundCapacity, spend, hflood]

theorem hasOutboundCapacity_iff {s : FlowControlState N V H T} :
    s.hasOutboundCapacity encoding msg = true ↔
      1 ≤ s.messageCapacity.outboundCapacity ∧
        encoding.msgBodySize msg ≤ s.byteCapacity.outboundCapacity := by
  simp [hasOutboundCapacity, FlowControlCapacity.hasOutboundCapacity]

theorem not_hasOutboundCapacity_spend {s : FlowControlState N V H T}
    (hfull : s.hasOutboundCapacity encoding msg = false) (messages bytes : Nat) :
    (s.spend messages bytes).hasOutboundCapacity encoding msg = false := by
  rw [← Bool.not_eq_true, hasOutboundCapacity_iff] at hfull ⊢
  change ¬(1 ≤ s.messageCapacity.outboundCapacity - messages ∧
    _ ≤ s.byteCapacity.outboundCapacity - bytes)
  omega

/-- Messages taken from the front of those that wait, as many as the capacity allows. -/
structure Admitted (s : FlowControlState N V H T)
    (sent waiting admitted rest : List (QueuedOutboundMessage N V H T)) : Prop where
  waiting_eq : waiting = admitted ++ rest
  messages : admitted.length ≤ s.messageCapacity.outboundCapacity
  bytes : batchBytes encoding admitted ≤ s.byteCapacity.outboundCapacity
  exhausted : rest = [] ∨ ∃ entry ∈ sent ++ rest, (s.spend admitted.length
    (batchBytes encoding admitted)).hasOutboundCapacity encoding entry.message = false

section

variable {encoding} {sent waiting : List (QueuedOutboundMessage N V H T)}

theorem admitOutbound_waiting (s : FlowControlState N V H T)
    (hwaiting : ∀ entry ∈ waiting, entry.beingSent = false)
    (htyped : ∀ entry ∈ waiting, MessagePriority.fromMessage entry.message = some priority) :
    ∃ admitted rest, Admitted encoding s [] waiting admitted rest ∧
      admitOutbound encoding s waiting =
        (s.spend admitted.length (batchBytes encoding admitted),
          admitted.map (·.sent) ++ rest, admitted) := by
  induction waiting generalizing s with
  | nil => exact ⟨[], [], ⟨rfl, Nat.zero_le _, Nat.zero_le _, .inl rfl⟩, rfl⟩
  | cons entry rest ih =>
    obtain ⟨hentry, hrest⟩ := List.forall_mem_cons.mp hwaiting
    obtain ⟨hpriority, hpriorities⟩ := List.forall_mem_cons.mp htyped
    have hflood := isFlowControlledMessage_of_priority hpriority
    by_cases hcapacity : s.hasOutboundCapacity encoding entry.message = true
    · obtain ⟨admitted, left, hadmitted, heq⟩ :=
        ih (s.lockOutboundCapacity encoding entry.message) hrest hpriorities
      obtain ⟨hmessage, hbyte⟩ := (hasOutboundCapacity_iff encoding).mp hcapacity
      rw [lockOutboundCapacity_eq encoding s hflood] at hadmitted heq
      have hmessages : admitted.length ≤ s.messageCapacity.outboundCapacity - 1 :=
        hadmitted.messages
      have hbytes : batchBytes encoding admitted ≤
          s.byteCapacity.outboundCapacity - encoding.msgBodySize entry.message := hadmitted.bytes
      have hsum : batchBytes encoding (entry :: admitted) =
          encoding.msgBodySize entry.message + batchBytes encoding admitted := by
        simp [batchBytes]
      have hexhausted := hadmitted.exhausted
      rw [spend_spend, ← hsum, Nat.add_comm 1, ← List.length_cons (a := entry)] at hexhausted
      refine ⟨entry :: admitted, left, ⟨?_, ?_, ?_, hexhausted⟩, ?_⟩
      · rw [hadmitted.waiting_eq]
        rfl
      · rw [List.length_cons]
        omega
      · omega
      · rw [admitOutbound, if_neg (by simp [hcapacity]), if_neg (by simp [hentry]),
          lockOutboundCapacity_eq encoding s hflood, heq, spend_spend, hsum,
          List.length_cons, Nat.add_comm 1]
        rfl
    · rw [Bool.not_eq_true] at hcapacity
      refine ⟨[], entry :: rest, ⟨rfl, Nat.zero_le _, Nat.zero_le _, .inr ⟨entry,
        List.mem_cons_self, not_hasOutboundCapacity_spend encoding hcapacity 0 _⟩⟩, ?_⟩
      rw [admitOutbound, if_pos (by simpa using hcapacity)]
      rfl

/-- Entries that were handed out are passed over, or end the batch. -/
theorem admitOutbound_append (s : FlowControlState N V H T)
    (hsent : ∀ entry ∈ sent, entry.beingSent = true)
    (hwaiting : ∀ entry ∈ waiting, entry.beingSent = false)
    (htyped : ∀ entry ∈ waiting, MessagePriority.fromMessage entry.message = some priority) :
    ∃ admitted rest, Admitted encoding s sent waiting admitted rest ∧
      admitOutbound encoding s (sent ++ waiting) =
        (s.spend admitted.length (batchBytes encoding admitted),
          sent ++ admitted.map (·.sent) ++ rest, admitted) := by
  induction sent with
  | nil => exact admitOutbound_waiting s hwaiting htyped
  | cons entry others ih =>
    obtain ⟨hentry, hothers⟩ := List.forall_mem_cons.mp hsent
    by_cases hcapacity : s.hasOutboundCapacity encoding entry.message = true
    · obtain ⟨admitted, rest, hadmitted, heq⟩ := ih hothers
      refine ⟨admitted, rest, { hadmitted with exhausted := hadmitted.exhausted.imp_right ?_ }, ?_⟩
      · exact fun ⟨full, hmem, hfull⟩ => ⟨full, List.mem_cons_of_mem _ hmem, hfull⟩
      rw [List.cons_append, admitOutbound, if_neg (by simp [hcapacity]), if_pos hentry, heq]
      rfl
    · rw [Bool.not_eq_true] at hcapacity
      refine ⟨[], waiting, ⟨rfl, Nat.zero_le _, Nat.zero_le _, .inr ⟨entry,
        List.mem_cons_self, not_hasOutboundCapacity_spend encoding hcapacity 0 _⟩⟩, ?_⟩
      rw [List.cons_append, admitOutbound, if_pos (by simpa using hcapacity)]
      simp [spend, batchBytes]

theorem admitQueue_spec (s : FlowControlState N V H T)
    (hqueue : s.outboundQueues priority = sent ++ waiting)
    (hsent : ∀ entry ∈ sent, entry.beingSent = true)
    (hwaiting : ∀ entry ∈ waiting, entry.beingSent = false)
    (htyped : ∀ entry ∈ waiting, MessagePriority.fromMessage entry.message = some priority) :
    ∃ admitted rest, Admitted encoding s sent waiting admitted rest ∧
      s.admitQueue encoding priority =
        ((s.spend admitted.length (batchBytes encoding admitted)).setQueue priority
          (sent ++ admitted.map (·.sent) ++ rest), admitted) := by
  obtain ⟨admitted, rest, hadmitted, heq⟩ := admitOutbound_append s hsent hwaiting htyped
  refine ⟨admitted, rest, hadmitted, ?_⟩
  simp only [admitQueue, hqueue, heq]

end

/-! ### Acknowledging -/

variable [DecidableEq (StellarMessage N V H T)]

/-- A queue without its front, when the front is the message. -/
def popSent (queue : List (QueuedOutboundMessage N V H T))
    (msg : StellarMessage N V H T) : List (QueuedOutboundMessage N V H T) :=
  match queue with
  | [] => []
  | front :: rest => if front.message = msg then rest else front :: rest

/-- Queues hold messages of their priority. -/
def Typed (s : FlowControlState N V H T) (priority : MessagePriority) : Prop :=
  ∀ entry ∈ s.outboundQueues priority, MessagePriority.fromMessage entry.message = some priority

/-- A queue and its count agree. -/
def Counted (s : FlowControlState N V H T) (priority : MessagePriority) : Prop :=
  s.counter priority = total encoding (s.outboundQueues priority)

theorem processSentMessage_spec (s : FlowControlState N V H T) (htyped : s.Typed priority)
    (hcounted : s.Counted encoding priority) (msg : StellarMessage N V H T) :
    let s' := s.processSentMessage encoding priority msg
    OnlyQueue priority s s' ∧ s'.now = s.now ∧
      s'.outboundQueues priority = popSent (s.outboundQueues priority) msg ∧
      s'.Counted encoding priority := by
  unfold processSentMessage
  split
  next hempty => exact ⟨.refl s, rfl, by rw [hempty]; rfl, hcounted⟩
  next front rest hqueue =>
    split
    next hfront =>
      have hpriority : MessagePriority.fromMessage msg = some priority := by
        rw [← hfront]
        exact htyped front (by rw [hqueue]; exact List.mem_cons_self)
      obtain ⟨honly, hqueues, hnow, hcounter⟩ := dequeueMessageResources_spec encoding s hpriority
      refine ⟨honly.trans (onlyQueue_setQueue _ priority rest), hnow, ?_, ?_⟩
      · rw [outboundQueues_setQueue, hqueue, popSent, if_pos hfront]
      · unfold Counted at hcounted ⊢
        rw [counter_setQueue, outboundQueues_setQueue, hcounter, hcounted, hqueue, ← hfront]
        simp [total]
    next hfront => exact ⟨.refl s, rfl, by rw [hqueue, popSent, if_neg hfront], hcounted⟩

theorem popSent_subset (queue : List (QueuedOutboundMessage N V H T))
    (msg : StellarMessage N V H T) : popSent queue msg ⊆ queue := by
  cases queue with
  | nil => exact List.Subset.refl []
  | cons front rest =>
    simp only [popSent]
    split
    · exact List.subset_cons_self front rest
    · exact List.Subset.refl _

theorem processSentQueue_spec (sent : List (StellarMessage N V H T)) (s : FlowControlState N V H T)
    (htyped : s.Typed priority) (hcounted : s.Counted encoding priority) :
    let s' := s.processSentQueue encoding priority sent
    OnlyQueue priority s s' ∧ s'.now = s.now ∧
      s'.outboundQueues priority = sent.foldl popSent (s.outboundQueues priority) ∧
      s'.Typed priority ∧ s'.Counted encoding priority := by
  induction sent generalizing s with
  | nil => exact ⟨.refl s, rfl, rfl, htyped, hcounted⟩
  | cons msg rest ih =>
    obtain ⟨honly, hnow, hqueue, hcounted'⟩ := processSentMessage_spec encoding s htyped hcounted msg
    have htyped' : (s.processSentMessage encoding priority msg).Typed priority := by
      intro entry hentry
      rw [hqueue] at hentry
      exact htyped entry (popSent_subset _ msg hentry)
    obtain ⟨honly', hnow', hqueue', hkept⟩ := ih _ htyped' hcounted'
    refine ⟨honly.trans honly', hnow'.trans hnow, ?_, hkept⟩
    rw [List.foldl_cons, ← hqueue]
    exact hqueue'

section

variable (sentMessages : MessagePriority → List (StellarMessage N V H T))
include sentMessages

theorem foldl_processSentQueue_spec {priorities : List MessagePriority} (hnodup : priorities.Nodup)
    (s : FlowControlState N V H T) (htyped : ∀ priority, s.Typed priority)
    (hcounted : ∀ priority, s.Counted encoding priority) :
    let s' := priorities.foldl
      (fun s priority => s.processSentQueue encoding priority (sentMessages priority)) s
    (∀ priority, s'.outboundQueues priority =
      if priority ∈ priorities then (sentMessages priority).foldl popSent (s.outboundQueues priority)
      else s.outboundQueues priority) ∧
    (∀ priority, s'.Typed priority) ∧ (∀ priority, s'.Counted encoding priority) ∧
      s'.now = s.now ∧ s'.messageCapacity = s.messageCapacity ∧ s'.byteCapacity = s.byteCapacity := by
  induction priorities generalizing s with
  | nil => exact ⟨fun _ => by simp, htyped, hcounted, rfl, rfl, rfl⟩
  | cons first rest ih =>
    obtain ⟨hfirst, hrest⟩ := List.nodup_cons.mp hnodup
    obtain ⟨honly, hnow, hqueue, htyped', hcounted'⟩ :=
      processSentQueue_spec encoding (sentMessages first) s (htyped first) (hcounted first)
    obtain ⟨hqueues, htypeds, hcounteds, hnow', hmessages, hbytes⟩ :=
      ih hrest (s.processSentQueue encoding first (sentMessages first))
        (fun priority => by
          by_cases hpriority : priority = first
          · exact hpriority ▸ htyped'
          · unfold Typed
            rw [honly.queues priority hpriority]
            exact htyped priority)
        (fun priority => by
          by_cases hpriority : priority = first
          · exact hpriority ▸ hcounted'
          · unfold Counted
            rw [honly.queues priority hpriority, honly.counters priority hpriority]
            exact hcounted priority)
    refine ⟨fun priority => ?_, htypeds, hcounteds, hnow'.trans hnow,
      hmessages.trans honly.messageCapacity, hbytes.trans honly.byteCapacity⟩
    rw [List.foldl_cons, hqueues priority]
    by_cases hpriority : priority = first
    · rw [hpriority, if_neg hfirst, if_pos List.mem_cons_self]
      exact hqueue
    · rw [honly.queues priority hpriority]
      simp [hpriority]

theorem processSentMessages_spec (s : FlowControlState N V H T)
    (htyped : ∀ priority, s.Typed priority) (hcounted : ∀ priority, s.Counted encoding priority) :
    let s' := s.processSentMessages encoding sentMessages
    (∀ priority, s'.outboundQueues priority =
      (sentMessages priority).foldl popSent (s.outboundQueues priority)) ∧
    (∀ priority, s'.Typed priority) ∧ (∀ priority, s'.Counted encoding priority) ∧
      s'.now = s.now ∧ s'.messageCapacity = s.messageCapacity ∧ s'.byteCapacity = s.byteCapacity := by
  have hnodup : MessagePriority.all.Nodup := by decide
  obtain ⟨hqueues, hrest⟩ := foldl_processSentQueue_spec encoding sentMessages hnodup s htyped hcounted
  refine ⟨fun priority => ?_, hrest⟩
  have hall : priority ∈ MessagePriority.all := by cases priority <;> decide
  have hqueue := hqueues priority
  rw [if_pos hall] at hqueue
  exact hqueue

end

theorem foldl_popSent_self (batch rest : List (QueuedOutboundMessage N V H T)) :
    (batch.map (·.message)).foldl popSent (batch.map (·.sent) ++ rest) = rest := by
  induction batch with
  | nil => rfl
  | cons entry others ih =>
    have hfront : entry.sent.message = entry.message := rfl
    rw [List.map_cons, List.map_cons, List.cons_append, List.foldl_cons, popSent, if_pos hfront]
    exact ih

theorem foldl_popSent_of_ne {messages : List (StellarMessage N V H T)}
    (hne : ∀ front ∈ queue.head?, ∀ msg ∈ messages, front.message ≠ msg) :
    messages.foldl popSent queue = queue := by
  induction messages with
  | nil => rfl
  | cons msg rest ih =>
    have hpop : popSent queue msg = queue := by
      cases queue with
      | nil => rfl
      | cons front others => exact if_neg (hne front rfl msg List.mem_cons_self)
    rw [List.foldl_cons, hpop]
    exact ih fun front hfront other hother => hne front hfront other (List.mem_cons_of_mem msg hother)

end FlowControlState

end Henyey.Overlay
