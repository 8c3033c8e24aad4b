import Mathlib.Algebra.Order.BigOperators.Group.List
import Mathlib.Algebra.Order.Group.Nat
import Henyey.Overlay.Outbound

/-!
# Outbound messages are neither lost nor repeated

Every queued message waits, or was handed out once, or was trimmed while it waited, as long
as no acknowledgement pops an entry that is not of its batch.
-/

namespace Henyey.Overlay

open FlowControlState
open MessagePriority

variable {N V H T : Type}

/-! ### Parts and what waits -/

section

variable {priority other : MessagePriority} {batch admitted : List (QueuedOutboundMessage N V H T)}

theorem part_append (priority : MessagePriority)
    (batch admitted : List (QueuedOutboundMessage N V H T)) :
    part priority (batch ++ admitted) = part priority batch ++ part priority admitted :=
  List.filter_append ..

theorem part_of_typed (htyped : ∀ entry ∈ admitted, fromMessage entry.message = some priority) :
    part priority admitted = admitted :=
  List.filter_eq_self.mpr fun entry hentry => decide_eq_true (htyped entry hentry)

theorem part_of_other (hother : other ≠ priority)
    (htyped : ∀ entry ∈ admitted, fromMessage entry.message = some priority) :
    part other admitted = [] := by
  refine List.filter_eq_nil_iff.mpr fun entry hentry hpart => hother ?_
  have hsome := (of_decide_eq_true hpart).symm.trans (htyped entry hentry)
  exact Option.some.inj hsome

variable {s s' : FlowControlState N V H T}
  {sent waiting : List (QueuedOutboundMessage N V H T)}

theorem waiting_eq (hqueue : s.outboundQueues priority = sent ++ waiting)
    (hsent : ∀ entry ∈ sent, entry.beingSent = true)
    (hwaiting : ∀ entry ∈ waiting, entry.beingSent = false) : s.waiting priority = waiting := by
  have hnone : sent.filter (fun entry => !entry.beingSent) = [] :=
    List.filter_eq_nil_iff.mpr fun entry hentry => by simp [hsent entry hentry]
  have hall : waiting.filter (fun entry => !entry.beingSent) = waiting :=
    List.filter_eq_self.mpr fun entry hentry => by simp [hwaiting entry hentry]
  rw [FlowControlState.waiting, hqueue, List.filter_append, hnone, hall, List.nil_append]

theorem beingSent_of_mem_sent {batch : List (QueuedOutboundMessage N V H T)} :
    ∀ entry ∈ batch.map (·.sent), entry.beingSent = true := by
  intro entry hentry
  obtain ⟨original, -, rfl⟩ := List.mem_map.mp hentry
  rfl

theorem unsent_of_mem_waiting : ∀ entry ∈ s.waiting priority, entry.beingSent = false := by
  intro entry hentry
  simpa using (List.mem_filter.mp hentry).2

theorem typed_of_mem_waiting (htyped : s.Typed priority) :
    ∀ entry ∈ s.waiting priority, fromMessage entry.message = some priority :=
  fun entry hentry => htyped entry (List.mem_filter.mp hentry).1

theorem allWaiting_perm (s : FlowControlState N V H T) (priority : MessagePriority) :
    s.allWaiting.Perm
      (s.waiting priority ++ (all.erase priority).flatMap s.waiting) := by
  have hmem : priority ∈ all := by cases priority <;> decide
  exact (List.perm_cons_erase hmem).flatMap_right s.waiting

theorem others_waiting (hqueues : ∀ other, other ≠ priority →
    s'.outboundQueues other = s.outboundQueues other) :
    (all.erase priority).flatMap s'.waiting = (all.erase priority).flatMap s.waiting := by
  have hnodup : all.Nodup := by decide
  refine List.flatMap_congr fun other hother => ?_
  have hne : other ≠ priority := (hnodup.mem_erase_iff.mp hother).1
  rw [FlowControlState.waiting, hqueues other hne]
  rfl

end

/-! ### The invariant -/

/-- Each queue holds what was handed out since it was last cleared, and what waits. -/
structure Session.Kept (encoding : Encoding N V H T) (session : Session N V H T) : Prop where
  typed : ∀ priority, session.state.Typed priority
  counted : ∀ priority, session.state.Counted encoding priority
  inFlight : ∀ priority, ∃ cleared ≤ session.outstanding.length,
    session.state.outboundQueues priority =
      ((session.outstanding.drop cleared).flatMap (part priority)).map (·.sent) ++
        session.state.waiting priority
  handed : session.handedOut = session.processed ++ session.outstanding.flatten
  accounted : (session.state.allWaiting ++ session.handedOut ++ session.trimmed).Perm
    session.queued
  stamps : session.queued.map (·.timeEmplaced) = List.range session.state.now
  messages : session.handedOut.length + session.state.messageCapacity.outboundCapacity =
    session.grantedMessages
  bytes : batchBytes encoding session.handedOut +
    session.state.byteCapacity.outboundCapacity = session.grantedBytes

namespace Session.Kept

variable {encoding : Encoding N V H T} {config : FlowControlConfig} {session : Session N V H T}

theorem new (initialBytesCapacity : UInt32) :
    Kept encoding (Session.new config initialBytesCapacity) where
  typed _ := by simp [FlowControlState.Typed, Session.new, withScpCallback]
  counted priority := by cases priority <;> rfl
  inFlight _ := ⟨0, Nat.le_refl 0, rfl⟩
  handed := rfl
  accounted := .refl _
  stamps := rfl
  messages := rfl
  bytes := rfl

/-- No two entries were emplaced at one instant. -/
theorem nodup (hkept : session.Kept encoding) :
    ((session.state.allWaiting ++ session.handedOut ++ session.trimmed).map
      (·.timeEmplaced)).Nodup := by
  rw [(hkept.accounted.map _).nodup_iff, hkept.stamps]
  exact List.nodup_range

/-! ### Queueing -/

section

variable [DecidableEq N] [LinearOrder V] [DecidableEq H] [DecidableEq T]

/-- What is left of the entries that waited, and those that are gone. -/
theorem perm_of_subperm {kept before : List (QueuedOutboundMessage N V H T)}
    (hsubperm : kept.Subperm before) (hnodup : before.Nodup) :
    (kept ++ before.filter (· ∉ kept)).Perm before := by
  rw [← hnodup.sdiff_eq_filter]
  exact List.subperm_append_diff_self_of_count_le (List.subperm_ext_iff.mp hsubperm)

theorem addMsg (hkept : session.Kept encoding) (scpCallback : Option ScpQueueCallback)
    (msg : StellarMessage N V H T) :
    (session.operate encoding config (.addMsg scpCallback msg)).Kept encoding := by
  obtain hsame | ⟨priority, counted, hpriority, henqueue, hadd⟩ :=
    session.state.addMsgAndMaybeTrimQueue_cases encoding config scpCallback msg
  · -- a message that is refused changes nothing
    have hgone : session.state.allWaiting.filter (· ∉ session.state.allWaiting) = [] :=
      List.filter_eq_nil_iff.mpr fun entry hentry => by simp [hentry]
    have hstays : session.operate encoding config (.addMsg scpCallback msg) = session := by
      simp only [operate, hsame, newly, if_true, List.append_nil, hgone]
    rw [hstays]
    exact hkept
  obtain ⟨cleared, hcleared, hqueue⟩ := hkept.inFlight priority
  obtain ⟨honly, hnow, ⟨left, kept, hqueue', hleft, hsubperm⟩, hcounted⟩ :=
    addMsg_spec config scpCallback hpriority henqueue hqueue
      beingSent_of_mem_sent (hkept.typed priority) (hkept.counted priority)
  rw [← hadd] at honly hnow hqueue' hcounted
  generalize hs' : session.state.addMsgAndMaybeTrimQueue encoding config scpCallback msg = s' at *
  let entry : QueuedOutboundMessage N V H T := ⟨msg, session.state.now, false⟩
  have hnewly : session.newly s' msg = [entry] := by
    rw [newly, if_neg (by omega)]
  have hleftSent : ∀ entry ∈ left, entry.beingSent = true := by
    rcases hleft with rfl | rfl
    · exact beingSent_of_mem_sent
    · simp
  have hbefore : ∀ old ∈ session.state.waiting priority ++ [entry], old.beingSent = false := by
    intro old hold
    rcases List.mem_append.mp hold with hwaiting | hnew
    · exact unsent_of_mem_waiting old hwaiting
    · rw [List.mem_singleton.mp hnew]
  have hwaiting : s'.waiting priority = kept :=
    waiting_eq hqueue' hleftSent fun old hold => hbefore old (hsubperm.subset hold)
  have hsubpermAll : s'.allWaiting.Subperm (session.state.allWaiting ++ [entry]) := by
    have hold := allWaiting_perm session.state priority
    have hnew := allWaiting_perm s' priority
    rw [hwaiting, others_waiting honly.queues] at hnew
    have hmoved : (session.state.waiting priority ++ [entry] ++
        (all.erase priority).flatMap session.state.waiting).Perm
          (session.state.allWaiting ++ [entry]) := by
      refine List.Perm.trans ?_ (hold.symm.append_right [entry])
      rw [List.append_assoc, List.append_assoc]
      exact List.perm_append_comm.append_left _
    exact hnew.subperm.trans
      (((List.subperm_append_right _).mpr hsubperm).trans hmoved.subperm)
  have hqueuedPerm : (session.state.allWaiting ++ [entry] ++ session.handedOut ++
      session.trimmed).Perm (session.queued ++ [entry]) := by
    refine List.Perm.trans ?_ (hkept.accounted.append_right [entry])
    simp only [List.append_assoc]
    exact List.perm_append_comm.append_left _ |>.trans (by simp)
  have hstamps : (session.queued ++ [entry]).map (·.timeEmplaced) = List.range s'.now := by
    rw [List.map_append, hkept.stamps, hnow, List.range_succ]
    rfl
  have hnodup : (session.state.allWaiting ++ [entry]).Nodup := by
    have hall : ((session.state.allWaiting ++ [entry] ++ session.handedOut ++
        session.trimmed).map (·.timeEmplaced)).Nodup := by
      rw [(hqueuedPerm.map _).nodup_iff, hstamps]
      exact List.nodup_range
    exact (List.nodup_append.mp (List.nodup_append.mp hall.of_map).1).1
  have hoperate : session.operate encoding config (.addMsg scpCallback msg) =
      { session with
        state := s'
        queued := session.queued ++ [entry]
        trimmed := session.trimmed ++
          (session.state.allWaiting ++ [entry]).filter (· ∉ s'.allWaiting) } := by
    simp only [operate, hs', hnewly]
  rw [hoperate]
  have hsplit : ∀ other, other ≠ priority → s'.waiting other = session.state.waiting other := by
    intro other hother
    rw [FlowControlState.waiting, honly.queues other hother]
    rfl
  refine
    { typed := fun other => ?_
      counted := fun other => ?_
      inFlight := fun other => ?_
      handed := hkept.handed
      accounted := ?_
      stamps := hstamps
      messages := by
        rw [honly.messageCapacity]
        exact hkept.messages
      bytes := by
        rw [honly.byteCapacity]
        exact hkept.bytes }
  · by_cases hother : other = priority
    · subst hother
      intro old hold
      rw [hqueue'] at hold
      rcases List.mem_append.mp hold with hsent | hkeeps
      · refine hkept.typed other old ?_
        rw [hqueue]
        rcases hleft with rfl | rfl
        · exact List.mem_append_left _ hsent
        · simp at hsent
      · rcases List.mem_append.mp (hsubperm.subset hkeeps) with hwaits | hnew
        · exact typed_of_mem_waiting (hkept.typed other) old hwaits
        · rw [List.mem_singleton.mp hnew]
          exact hpriority
    · unfold FlowControlState.Typed
      rw [honly.queues other hother]
      exact hkept.typed other
  · by_cases hother : other = priority
    · subst hother
      exact hcounted
    · unfold FlowControlState.Counted
      rw [honly.queues other hother, honly.counters other hother]
      exact hkept.counted other
  · by_cases hother : other = priority
    · subst hother
      rw [hwaiting]
      rcases hleft with hleft | hleft
      · exact ⟨cleared, hcleared, by rw [hqueue', hleft]⟩
      · exact ⟨_, Nat.le_refl _, by rw [hqueue', hleft, List.drop_length]; rfl⟩
    · rw [honly.queues other hother, hsplit other hother]
      exact hkept.inFlight other
  · refine List.Perm.trans ?_ hqueuedPerm
    have hparts := perm_of_subperm hsubpermAll hnodup
    refine List.Perm.trans ?_ ((hparts.append_right session.handedOut).append_right session.trimmed)
    simp only [List.append_assoc]
    refine List.Perm.append_left _ ?_
    rw [← List.append_assoc]
    exact List.perm_append_comm

end

/-! ### Handing out -/

/-- The state while a batch is built, seen from the session before. -/
structure Handing (encoding : Encoding N V H T) (session : Session N V H T)
    (s : FlowControlState N V H T) (batch : List (QueuedOutboundMessage N V H T))
    (tried : List MessagePriority) : Prop where
  typed : ∀ priority, s.Typed priority
  counted : ∀ priority, s.Counted encoding priority
  inFlight : ∀ priority, ∃ cleared ≤ session.outstanding.length,
    s.outboundQueues priority =
      ((session.outstanding.drop cleared ++ [batch]).flatMap (part priority)).map (·.sent) ++
        s.waiting priority
  inOrder : ∀ priority, session.state.waiting priority = part priority batch ++ s.waiting priority
  taken : (s.allWaiting ++ batch).Perm session.state.allWaiting
  now : s.now = session.state.now
  messages : batch.length + s.messageCapacity.outboundCapacity =
    session.state.messageCapacity.outboundCapacity
  bytes : batchBytes encoding batch + s.byteCapacity.outboundCapacity =
    session.state.byteCapacity.outboundCapacity
  exhausted : ∀ priority ∈ tried, Exhausted encoding s priority

theorem Handing.start (hkept : session.Kept encoding) :
    Handing encoding session session.state [] [] where
  __ := hkept
  inFlight priority := by
    obtain ⟨cleared, hcleared, hqueue⟩ := hkept.inFlight priority
    refine ⟨cleared, hcleared, ?_⟩
    rw [List.flatMap_append]
    simpa [part] using hqueue
  inOrder _ := rfl
  taken := by simp
  now := rfl
  messages := by simp
  bytes := by simp [batchBytes]
  exhausted := nofun

variable {batch : List (QueuedOutboundMessage N V H T)}

theorem Handing.admitQueue {s : FlowControlState N V H T}
    {tried : List MessagePriority} (hhanding : Handing encoding session s batch tried)
    (priority : MessagePriority) :
    Handing encoding session (s.admitQueue encoding priority).1
      (batch ++ (s.admitQueue encoding priority).2) (priority :: tried) := by
  obtain ⟨cleared, hcleared, hqueue⟩ := hhanding.inFlight priority
  have htypedWaiting := typed_of_mem_waiting (hhanding.typed priority)
  obtain ⟨admitted, rest, hadmitted, heq⟩ := admitQueue_spec s hqueue
    beingSent_of_mem_sent unsent_of_mem_waiting htypedWaiting
  rw [heq]
  have hwaiting := hadmitted.waiting_eq
  have htypedAdmitted : ∀ entry ∈ admitted,
      fromMessage entry.message = some priority := fun entry hentry =>
    htypedWaiting entry (by rw [hwaiting]; exact List.mem_append_left _ hentry)
  have hunsent : ∀ entry ∈ s.waiting priority, entry.beingSent = false := unsent_of_mem_waiting
  have hunsentRest : ∀ entry ∈ rest, entry.beingSent = false := fun entry hentry =>
    hunsent entry (by rw [hwaiting]; exact List.mem_append_right _ hentry)
  let sentBefore := ((session.outstanding.drop cleared ++ [batch]).flatMap (part priority)).map
    (·.sent)
  let s' := (s.spend admitted.length (batchBytes encoding admitted)).setQueue
    priority (sentBefore ++ admitted.map (·.sent) ++ rest)
  have hqueue' : s'.outboundQueues priority = sentBefore ++ admitted.map (·.sent) ++ rest :=
    outboundQueues_setQueue ..
  have hothers : ∀ other, other ≠ priority → s'.outboundQueues other = s.outboundQueues other :=
    fun other hother => Function.update_of_ne hother ..
  have hsent : ∀ entry ∈ sentBefore ++ admitted.map (·.sent), entry.beingSent = true := by
    intro entry hentry
    rcases List.mem_append.mp hentry with hbefore | hnew
    · exact beingSent_of_mem_sent entry hbefore
    · exact beingSent_of_mem_sent entry hnew
  have hwaiting' : s'.waiting priority = rest := waiting_eq hqueue' hsent hunsentRest
  have hwaitingOthers : ∀ other, other ≠ priority → s'.waiting other = s.waiting other := by
    intro other hother
    rw [FlowControlState.waiting, hothers other hother]
    rfl
  have hcounter : ∀ other, s'.counter other = s.counter other := fun other => by
    cases other <;> rfl
  change Handing encoding session s' (batch ++ admitted) (priority :: tried)
  refine
    { typed := fun other => ?_
      counted := fun other => ?_
      inFlight := fun other => ?_
      inOrder := fun other => ?_
      taken := ?_
      now := hhanding.now
      messages := ?_
      bytes := ?_
      exhausted := fun other hmem => ?_ }
  · by_cases hother : other = priority
    · subst hother
      intro entry hentry
      rw [hqueue'] at hentry
      rcases List.mem_append.mp hentry with hsentEntry | hrest
      · rcases List.mem_append.mp hsentEntry with hbefore | hnew
        · exact hhanding.typed other entry (by rw [hqueue]; exact List.mem_append_left _ hbefore)
        · obtain ⟨original, horiginal, rfl⟩ := List.mem_map.mp hnew
          exact htypedAdmitted original horiginal
      · exact htypedWaiting entry (by rw [hwaiting]; exact List.mem_append_right _ hrest)
    · unfold FlowControlState.Typed
      rw [hothers other hother]
      exact hhanding.typed other
  · unfold FlowControlState.Counted
    rw [hcounter other]
    by_cases hother : other = priority
    · subst hother
      have hold : s.counter other = total encoding (s.outboundQueues other) :=
        hhanding.counted other
      rw [hold, hqueue, hqueue', hwaiting]
      simp [total, sentBefore, QueuedOutboundMessage.sent, Function.comp_def]
    · rw [hothers other hother]
      exact hhanding.counted other
  · by_cases hother : other = priority
    · subst hother
      refine ⟨cleared, hcleared, ?_⟩
      rw [hqueue', hwaiting', List.flatMap_append, List.flatMap_singleton, part_append,
        part_of_typed htypedAdmitted, ← List.append_assoc, List.map_append]
      simp only [sentBefore, List.flatMap_append, List.flatMap_singleton]
    · obtain ⟨cleared', hcleared', hqueueOther⟩ := hhanding.inFlight other
      refine ⟨cleared', hcleared', ?_⟩
      rw [hothers other hother, hwaitingOthers other hother, hqueueOther, List.flatMap_append,
        List.flatMap_append, List.flatMap_singleton, List.flatMap_singleton, part_append,
        part_of_other hother htypedAdmitted, List.append_nil]
  · by_cases hother : other = priority
    · subst hother
      rw [hhanding.inOrder other, hwaiting, hwaiting', part_append, part_of_typed htypedAdmitted,
        List.append_assoc]
    · rw [hhanding.inOrder other, hwaitingOthers other hother, part_append,
        part_of_other hother htypedAdmitted, List.append_nil]
  · have hold := allWaiting_perm s priority
    have hnew := allWaiting_perm s' priority
    rw [hwaiting', others_waiting hothers] at hnew
    rw [hwaiting] at hold
    refine List.Perm.trans ?_ hhanding.taken
    refine (hnew.append_right _).trans (List.Perm.trans ?_ (hold.symm.append_right batch))
    rw [← List.append_assoc]
    refine List.Perm.trans List.perm_append_comm ?_
    simp only [List.append_assoc]
    exact List.Perm.append_left admitted (by rw [← List.append_assoc])
  · have hmessages := hhanding.messages
    have hwithin := hadmitted.messages
    have hspent : s'.messageCapacity.outboundCapacity =
        s.messageCapacity.outboundCapacity - admitted.length := rfl
    rw [hspent, List.length_append]
    omega
  · have hbytes := hhanding.bytes
    have hwithin := hadmitted.bytes
    have hspent : s'.byteCapacity.outboundCapacity =
        s.byteCapacity.outboundCapacity - batchBytes encoding admitted := rfl
    have hsum : batchBytes encoding (batch ++ admitted) =
        batchBytes encoding batch + batchBytes encoding admitted := by
      simp [batchBytes]
    rw [hspent, hsum]
    omega
  · by_cases hother : other = priority
    · subst hother
      refine hadmitted.exhausted.imp hwaiting'.trans ?_
      rintro ⟨entry, hentry, hfull⟩
      refine ⟨entry, ?_, hfull⟩
      rw [hqueue']
      exact (List.mem_append.mp hentry).elim
        (fun hsent => List.mem_append_left _ (List.mem_append_left _ hsent))
        (List.mem_append_right _)
    · have hbefore := hhanding.exhausted other ((List.mem_cons.mp hmem).resolve_left hother)
      refine hbefore.imp (hwaitingOthers other hother).trans ?_
      rintro ⟨entry, hentry, hfull⟩
      rw [← hothers other hother] at hentry
      exact ⟨entry, hentry, not_hasOutboundCapacity_spend encoding hfull _ _⟩

theorem handing_getNextBatchToSend (hkept : session.Kept encoding) :
    Handing encoding session (session.state.getNextBatchToSend encoding).1
      (session.state.getNextBatchToSend encoding).2
      [.floodAdvert, .floodDemand, .transaction, .scp] := by
  have hstart := Handing.start hkept
  have hscp := hstart.admitQueue .scp
  have htransaction := hscp.admitQueue .transaction
  have hdemand := htransaction.admitQueue .floodDemand
  exact hdemand.admitQueue .floodAdvert

variable {rest : List (List (QueuedOutboundMessage N V H T))}

theorem sent_not_mem_of_cleared (hkept : session.Kept encoding)
    (houtstanding : session.outstanding = batch :: rest) {priority : MessagePriority}
    {cleared : Nat} (hqueue : session.state.outboundQueues priority =
      ((rest.drop cleared).flatMap (part priority)).map (·.sent) ++ session.state.waiting priority)
    {entry : QueuedOutboundMessage N V H T} (hentry : entry ∈ batch) :
    entry.sent ∉ session.state.outboundQueues priority := by
  intro hmem
  rw [hqueue] at hmem
  rcases List.mem_append.mp hmem with hlater | hwaits
  · obtain ⟨later, hlater, hsame⟩ := List.mem_map.mp hlater
    obtain ⟨laterBatch, hlaterBatch, hpart⟩ := List.mem_flatMap.mp hlater
    have hstamp : later.timeEmplaced = entry.timeEmplaced := congrArg (·.timeEmplaced) hsame
    have hnodup := hkept.nodup
    rw [hkept.handed, houtstanding, List.flatten_cons] at hnodup
    simp only [List.map_append, List.append_assoc] at hnodup
    have hdistinct := (List.nodup_append.mp (List.nodup_append.mp
      (List.nodup_append.mp hnodup).2.1).2.1).2.2
    refine hdistinct _ (List.mem_map_of_mem hentry) _ (List.mem_append_left _ ?_) hstamp.symm
    exact List.mem_map_of_mem (List.mem_flatten.mpr
      ⟨laterBatch, List.mem_of_mem_drop hlaterBatch, (List.mem_filter.mp hpart).1⟩)
  · have hunsent := unsent_of_mem_waiting _ hwaits
    cases hunsent

section

variable [DecidableEq N] [LinearOrder V] [DecidableEq H] [DecidableEq T]

theorem getNextBatch (hkept : session.Kept encoding) :
    (session.operate encoding config .getNextBatch).Kept encoding := by
  have hhanding := handing_getNextBatchToSend hkept
  generalize hnext : session.state.getNextBatchToSend encoding = next at hhanding
  obtain ⟨s', batch⟩ := next
  have hoperate : session.operate encoding config .getNextBatch =
      { session with
        state := s'
        handedOut := session.handedOut ++ batch
        outstanding := session.outstanding ++ [batch] } := by
    simp only [operate, hnext]
  rw [hoperate]
  refine
    { __ := hhanding
      inFlight := fun priority => ?_
      handed := ?_
      accounted := ?_
      stamps := ?_
      messages := ?_
      bytes := ?_ }
  · obtain ⟨cleared, hcleared, hqueue⟩ := hhanding.inFlight priority
    refine ⟨cleared, ?_, ?_⟩
    · rw [List.length_append]
      exact Nat.le_add_right_of_le hcleared
    · rw [List.drop_append_of_le_length hcleared]
      exact hqueue
  · change session.handedOut ++ batch = _
    rw [hkept.handed, List.flatten_append, List.append_assoc]
    simp
  · refine List.Perm.trans (List.Perm.append_right session.trimmed ?_) hkept.accounted
    change (s'.allWaiting ++ (session.handedOut ++ batch)).Perm _
    refine List.Perm.trans ?_ (hhanding.taken.append_right session.handedOut)
    rw [List.append_assoc]
    exact List.perm_append_comm.append_left _
  · rw [hkept.stamps, hhanding.now]
  · have hkeeps := hkept.messages
    have hhands := hhanding.messages
    rw [List.length_append]
    dsimp only at hhands ⊢
    omega
  · have hkeeps := hkept.bytes
    have hhands := hhanding.bytes
    have hsum : batchBytes encoding (session.handedOut ++ batch) =
        batchBytes encoding session.handedOut + batchBytes encoding batch := by
      simp [batchBytes]
    rw [hsum]
    dsimp only at hhands ⊢
    omega

/-! ### Acknowledging -/

section

variable (hkept : session.Kept encoding)
include hkept

theorem popSent_oldest (hunambiguous : session.Unambiguous .processSent)
    {batch : List (QueuedOutboundMessage N V H T)}
    (houtstanding : session.outstanding = batch :: rest) (priority : MessagePriority) :
    ∃ cleared ≤ rest.length,
      ((part priority batch).map (·.message)).foldl popSent
          (session.state.outboundQueues priority) =
        ((rest.drop cleared).flatMap (part priority)).map (·.sent) ++
          session.state.waiting priority := by
  obtain ⟨cleared, hcleared, hqueue⟩ := hkept.inFlight priority
  rw [houtstanding] at hcleared hqueue
  cases cleared with
  | zero =>
    refine ⟨0, Nat.zero_le _, ?_⟩
    rw [hqueue, List.drop_zero, List.drop_zero, List.flatMap_cons, List.map_append,
      List.append_assoc, foldl_popSent_self]
  | succ cleared =>
    rw [List.drop_succ_cons] at hqueue
    refine ⟨cleared, Nat.le_of_succ_le_succ hcleared, ?_⟩
    rw [← hqueue]
    apply foldl_popSent_of_ne
    intro front hfront msg hmsg
    obtain ⟨entry, hentry, rfl⟩ := List.mem_map.mp hmsg
    rcases hunambiguous batch (by rw [houtstanding]; rfl) priority with hstill | hdiffers
    · exact absurd (hstill entry hentry)
        (sent_not_mem_of_cleared hkept houtstanding hqueue (List.mem_filter.mp hentry).1)
    · exact hdiffers front hfront entry hentry

theorem processSent (hunambiguous : session.Unambiguous .processSent) :
    (session.operate encoding config .processSent).Kept encoding := by
  cases houtstanding : session.outstanding with
  | nil =>
    have hstays : session.operate encoding config .processSent = session := by
      simp only [operate, houtstanding]
    rw [hstays]
    exact hkept
  | cons batch rest =>
    obtain ⟨hqueues, htyped, hcounted, hnow, hmessages, hbytes⟩ :=
      processSentMessages_spec encoding
        (fun priority => (part priority batch).map (·.message)) session.state hkept.typed
        hkept.counted
    generalize hs' : session.state.processSentMessages encoding
      (fun priority => (part priority batch).map (·.message)) = s' at *
    have hoperate : session.operate encoding config .processSent =
        { session with
          state := s'
          outstanding := rest
          processed := session.processed ++ batch } := by
      simp only [operate, houtstanding, hs']
    have hpopped := popSent_oldest hkept hunambiguous houtstanding
    have hwaiting : ∀ priority, s'.waiting priority = session.state.waiting priority := by
      intro priority
      obtain ⟨cleared, -, hqueue⟩ := hpopped priority
      exact waiting_eq ((hqueues priority).trans hqueue) beingSent_of_mem_sent
        unsent_of_mem_waiting
    have hall : s'.allWaiting = session.state.allWaiting :=
      List.flatMap_congr fun priority _ => hwaiting priority
    rw [hoperate]
    refine
      { typed := htyped
        counted := hcounted
        inFlight := fun priority => ?_
        handed := ?_
        accounted := ?_
        stamps := ?_
        messages := ?_
        bytes := ?_ }
    · obtain ⟨cleared, hcleared, hqueue⟩ := hpopped priority
      refine ⟨cleared, hcleared, ?_⟩
      rw [hwaiting priority, hqueues priority, hqueue]
    · rw [hkept.handed, houtstanding]
      simp
    · rw [hall]
      exact hkept.accounted
    · rw [hkept.stamps, hnow]
    · rw [hmessages]
      exact hkept.messages
    · rw [hbytes]
      exact hkept.bytes

theorem operate {op : Operation N V H T} (hunambiguous : session.Unambiguous op) :
    (session.operate encoding config op).Kept encoding := by
  cases op with
  | addMsg scpCallback msg => exact hkept.addMsg scpCallback msg
  | getNextBatch => exact hkept.getNextBatch
  | processSent => exact hkept.processSent hunambiguous
  | sendMore numMessages numBytes =>
    have hmessages := hkept.messages
    have hbytes := hkept.bytes
    refine
      { __ := hkept
        counted := fun priority => ?_
        messages := ?_
        bytes := ?_ }
    · have hcounted := hkept.counted priority
      cases priority <;> exact hcounted
    · change session.handedOut.length +
        (session.state.messageCapacity.outboundCapacity + numMessages.toNat) =
          session.grantedMessages + numMessages.toNat
      omega
    · change batchBytes encoding session.handedOut +
        (session.state.byteCapacity.outboundCapacity + numBytes.toNat) =
          session.grantedBytes + numBytes.toNat
      omega

end

end

/-! ### Nothing lost -/

theorem mem_allWaiting_pushBack {s s' : FlowControlState N V H T}
    (hqueues : s'.outboundQueues = s.outboundQueues) {priority : MessagePriority}
    {msg : StellarMessage N V H T} {entry : QueuedOutboundMessage N V H T}
    (hentry : entry ∈ s.allWaiting ∨ entry = ⟨msg, s'.now, false⟩) :
    entry ∈ (s'.pushBack priority msg).allWaiting := by
  have hself : (s'.pushBack priority msg).outboundQueues priority =
      s.outboundQueues priority ++ [⟨msg, s'.now, false⟩] := by
    rw [← hqueues]
    exact outboundQueues_setQueue ..
  have hall : ∀ other, other ∈ all := fun other => by cases other <;> decide
  rcases hentry with hold | rfl
  · obtain ⟨other, hother, hwaits⟩ := List.mem_flatMap.mp hold
    refine List.mem_flatMap.mpr ⟨other, hother, ?_⟩
    obtain ⟨hmem, hunsent⟩ := List.mem_filter.mp hwaits
    refine List.mem_filter.mpr ⟨?_, hunsent⟩
    by_cases hsame : other = priority
    · rw [hsame, hself]
      exact List.mem_append_left _ (hsame ▸ hmem)
    · rw [← hqueues] at hmem
      exact (onlyQueue_setQueue s' priority _).queues other hsame ▸ hmem
  · refine List.mem_flatMap.mpr ⟨priority, hall _, List.mem_filter.mpr ⟨?_, rfl⟩⟩
    rw [hself]
    exact List.mem_append_right _ (List.mem_singleton_self _)

variable [DecidableEq N] [LinearOrder V]

theorem trimQueue_of_within {s : FlowControlState N V H T} {priority : MessagePriority}
    (hwithin : ¬OverLimit config s priority) (scpCallback : Option ScpQueueCallback) :
    s.trimQueue config scpCallback priority = s := by
  cases priority <;> exact if_neg hwithin

variable [DecidableEq H] [DecidableEq T]

/-- Nothing is trimmed while every queue is within its limits. -/
theorem trimmed_of_within {scpCallback : Option ScpQueueCallback} {msg : StellarMessage N V H T}
    (hwithin : ∀ priority s', fromMessage msg = some priority →
      session.state.enqueueMessageResources encoding config msg = some s' →
        ¬OverLimit config (s'.pushBack priority msg) priority) :
    (session.operate encoding config (.addMsg scpCallback msg)).trimmed = session.trimmed := by
  have hsame : session.state.addMsgAndMaybeTrimQueue encoding config scpCallback msg =
      session.state → (session.operate encoding config (.addMsg scpCallback msg)).trimmed =
        session.trimmed := by
    intro hsame
    simp [Session.operate, hsame, newly]
  cases hpriority : fromMessage msg with
  | none => exact hsame (by simp [addMsgAndMaybeTrimQueue, hpriority])
  | some priority =>
    cases henqueue : session.state.enqueueMessageResources encoding config msg with
    | none => exact hsame (by simp [addMsgAndMaybeTrimQueue, hpriority, henqueue])
    | some s' =>
      have hqueued : s'.outboundQueues = session.state.outboundQueues ∧
          s'.now = session.state.now := by
        unfold enqueueMessageResources at henqueue
        split at henqueue
        · dsimp only at henqueue
          split at henqueue <;> cases henqueue
          exact ⟨rfl, rfl⟩
        all_goals
          cases henqueue
          exact ⟨rfl, rfl⟩
      have hadd : session.state.addMsgAndMaybeTrimQueue encoding config scpCallback msg =
          s'.pushBack priority msg := by
        simp only [addMsgAndMaybeTrimQueue, hpriority, henqueue,
          trimQueue_of_within (hwithin priority s' hpriority henqueue)]
      simp only [Session.operate, hadd, List.append_right_eq_self, List.filter_eq_nil_iff,
        decide_eq_true_eq, not_not]
      intro entry hentry
      refine mem_allWaiting_pushBack hqueued.1 ((List.mem_append.mp hentry).imp_right fun hnew => ?_)
      unfold newly at hnew
      split at hnew
      · cases hnew
      · rw [List.mem_singleton.mp hnew, hqueued.2]

theorem lossless (hkept : session.Kept encoding) : session.Lossless encoding config where
  __ := hkept
  once := by
    rw [hkept.stamps]
    exact List.nodup_range
  inOrder priority := ⟨_, ((handing_getNextBatchToSend hkept).inOrder priority).symm⟩
  longest priority := (handing_getNextBatchToSend hkept).exhausted priority (by cases priority <;> simp)
  drops scpCallback msg htrimmed := by
    by_contra hnone
    exact htrimmed (trimmed_of_within fun priority s' hpriority henqueue hover =>
      hnone ⟨priority, s', hpriority, henqueue, hover⟩)
  gone entry hentry priority left hleft := by
    obtain ⟨cleared, -, hqueue⟩ := hkept.inFlight priority
    have hnodup := hkept.nodup
    rw [hkept.handed] at hnodup
    simp only [List.map_append, List.append_assoc] at hnodup
    have hstamp := List.mem_map_of_mem (f := fun entry => entry.timeEmplaced) hentry
    rw [hqueue] at hleft
    rcases List.mem_append.mp hleft with hsent | hwaits
    · obtain ⟨original, horiginal, rfl⟩ := List.mem_map.mp hsent
      obtain ⟨batch, hbatch, hpart⟩ := List.mem_flatMap.mp horiginal
      have hdistinct := (List.nodup_append.mp (List.nodup_append.mp hnodup).2.1).2.2
      have horiginal' : original ∈ session.outstanding.flatten := List.mem_flatten.mpr
        ⟨batch, List.mem_of_mem_drop hbatch, (List.mem_filter.mp hpart).1⟩
      exact (hdistinct _ hstamp _ (List.mem_append_left _
        (List.mem_map_of_mem (f := fun entry => entry.timeEmplaced) horiginal'))).symm
    · have hdistinct := (List.nodup_append.mp hnodup).2.2
      refine hdistinct _ ?_ _ (List.mem_append_left _ hstamp)
      have hall : priority ∈ all := by cases priority <;> decide
      exact List.mem_map_of_mem (List.mem_flatMap.mpr ⟨priority, hall, hwaits⟩)
  unsaturated priority entry hentry := by
    have hcounted : session.state.counter priority =
      total encoding (session.state.outboundQueues priority) := hkept.counted priority
    rw [hcounted]
    exact List.single_le_sum (fun _ _ => Nat.zero_le _) _
      (List.mem_map_of_mem (f := fun entry => resources encoding entry.message) hentry)
  messages := Nat.le.intro hkept.messages
  bytes := Nat.le.intro hkept.bytes

end Session.Kept

namespace Session

variable [DecidableEq N] [LinearOrder V] [DecidableEq H] [DecidableEq T]
  {encoding : Encoding N V H T} {config : FlowControlConfig} {initialBytesCapacity : UInt32}
  {session : Session N V H T}

theorem Reachable.kept
    (hreach : Reachable encoding config initialBytesCapacity Unambiguous session) :
    session.Kept encoding := by
  induction hreach with
  | start => exact Kept.new initialBytesCapacity
  | step _ _ _ hunambiguous ih => exact ih.operate hunambiguous

/-- As long as no acknowledgement pops an entry that is not of its batch, nothing is lost
or repeated. -/
theorem lossless_of_unambiguous
    (hreach : Reachable encoding config initialBytesCapacity Unambiguous session) :
    session.Lossless encoding config :=
  hreach.kept.lossless

/-! ### A message lost -/

/-- Every message takes four bytes. -/
def fourBytes : Encoding ℕ ℕ ℕ ℕ where
  msgBodySize _ := 4
  four_le_msgBodySize _ := Nat.le_refl 4

/-- A queue of one transaction. -/
def oneTransaction : FlowControlConfig where
  peerFloodReadingCapacity := 200
  peerReadingCapacity := 201
  flowControlSendMoreBatchSize := 40
  outboundTxQueueByteLimit := 3 * 1024 * 1024
  maxTxSetSizeOps := 1
  flowControlBytesBatchSize := 100000

/-- A transaction is handed out. -/
def handedOne : Session ℕ ℕ ℕ ℕ :=
  (((Session.new oneTransaction 300000).operate fourBytes oneTransaction
    (.addMsg none (.transaction 7))).operate fourBytes oneTransaction
      (.sendMore 1 4)).operate fourBytes oneTransaction .getNextBatch

theorem reachable_handedOne (Condition : Session ℕ ℕ ℕ ℕ → Operation ℕ ℕ ℕ ℕ → Prop)
    (hcondition : ∀ session op, op ≠ .processSent → Condition session op) :
    Reachable fourBytes oneTransaction 300000 Condition handedOne := by
  have hstart : Reachable fourBytes oneTransaction 300000 Condition
      (Session.new oneTransaction 300000) := .start
  have hqueued := hstart.step (.addMsg none (.transaction 7)) trivial (hcondition _ _ nofun)
  have hgranted := hqueued.step (.sendMore 1 4) (by unfold Valid; decide) (hcondition _ _ nofun)
  exact hgranted.step .getNextBatch trivial (hcondition _ _ nofun)

theorem lossless_handedOne :
    (handedOne.operate fourBytes oneTransaction .processSent).Lossless fourBytes
      oneTransaction := by
  have hreach : Reachable fourBytes oneTransaction 300000 Unambiguous handedOne := by
    refine reachable_handedOne Unambiguous fun session op hop => ?_
    cases op with
    | processSent => exact absurd rfl hop
    | _ => trivial
  refine lossless_of_unambiguous (hreach.step .processSent trivial ?_)
  · intro batch hbatch priority
    cases hbatch
    cases priority <;> exact .inl (by decide)

/-- While a transaction is being sent its queue is cleared, and the transaction is queued
again; the acknowledgement of the first copy drops the second, which is never sent. -/
theorem acknowledgement_loses_message :
    ¬∀ session, Reachable fourBytes oneTransaction 300000 (fun _ _ => True) session →
      session.Lossless fourBytes oneTransaction := by
  intro hclaim
  have hcleared := (reachable_handedOne (fun _ _ => True) fun _ _ _ => trivial).step
    (.addMsg none (.transaction 8)) trivial trivial
  have hagain := hcleared.step (.addMsg none (.transaction 7)) trivial trivial
  have hlost := hclaim _ (hagain.step .processSent trivial trivial)
  exact absurd hlost.accounted.length_eq (by decide)

end Session

end Henyey.Overlay
