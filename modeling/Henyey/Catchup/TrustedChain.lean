import Henyey.Catchup.Downloads

/-!
# On the trusted chain

What a catchup closes is one chain that extends the last closed ledger. It is the chain of
the header that consensus has confirmed as long as the archive serves for the replay the
headers that it served for the verification.
-/

namespace Henyey.Catchup

open Foundation List LedgerHeader
open History (CheckpointFrequency defaultCheckpointFrequency)
open Triple

variable {H T R D X S : Type} [DecidableEq H]

/-! ### Statements -/

/-- The headers that were closed, oldest first. -/
def World.closed (world : World H X S) : List (LedgerHeader H X) :=
  world.closings.reverse.map Closing.header

/-- The later header is the next one of the chain. -/
abbrev NextHeader (format : Format H T R D X) : LedgerHeader H X → LedgerHeader H X → Prop :=
  Follows format.computeHeaderHash previousLedgerHash ledgerSeq

/-- The chain from this header leads to the one that consensus has confirmed. -/
def LeadsToAnchor (format : Format H T R D X) (anchorSeq : Nat) (anchorHash : H)
    (header : LedgerHeader H X) : Prop :=
  ∃ top, top.ledgerSeq = anchorSeq ∧ format.computeHeaderHash top = anchorHash ∧
    LeadsTo format.computeHeaderHash previousLedgerHash ledgerSeq
      header top

/-- What was closed is one chain that extends the last closed ledger of the start. It leads
to the anchor, and the anchor is on it when the catchup succeeds. -/
structure Trusted (format : Format H T R D X) (anchorSeq : Nat) (anchorHash : H)
    (start : LedgerManager H X S) (succeeded : Prop) (world : World H X S) : Prop where
  linked : world.closed.IsChain (NextHeader format)
  extends_lcl : ∀ first ∈ world.closed.head?, first.previousLedgerHash = start.headerHash ∧
    first.ledgerSeq = start.header.ledgerSeq + 1
  anchored : succeeded → ∃ header ∈ world.closed, header.ledgerSeq = anchorSeq ∧
    format.computeHeaderHash header = anchorHash
  leads : ∀ header ∈ world.closed, header.ledgerSeq ≤ anchorSeq →
    LeadsToAnchor format anchorSeq anchorHash header

/-- Up to the anchor the headers that were served for the replay are among those that were
verified before it. -/
def ServedAsVerified (anchorSeq : Nat) (world : World H X S) : Prop :=
  ∀ closing ∈ world.closings, closing.served.ledgerSeq ≤ anchorSeq →
    closing.served ∈ closing.verified

/-! ### The invariant -/

section Invariant

variable (format : Format H T R D X) (anchorSeq : Nat) (anchorHash : H)

/-- Headers that were verified, of a range that begins no later than the given ledger. -/
def VerifiedFrom (seq : Nat) (headers : List (LedgerHeader H X)) : Prop :=
  Verified format anchorSeq anchorHash headers ∧
    ∃ first length, headers.map ledgerSeq = range' first length ∧ first ≤ seq

/-- What holds between the steps of a catchup that began with the given ledger manager. -/
structure Kept (start : LedgerManager H X S) (world : World H X S) : Prop where
  linked : world.closed.IsChain (Linked format)
  extends_lcl : ∀ first ∈ world.closed.head?, first.previousLedgerHash = start.headerHash
  numbered : world.closed.map ledgerSeq = range' (start.header.ledgerSeq + 1) world.closings.length
  reached : world.manager.header.ledgerSeq = start.header.ledgerSeq + world.closings.length
  current : match world.closings with
    | [] => world.manager.headerHash = start.headerHash
    | newest :: _ => world.manager.headerHash = format.computeHeaderHash newest.header
  served : ∀ closing ∈ world.closings, closing.header = closing.served
  verified : ∀ closing ∈ world.closings,
    VerifiedFrom format anchorSeq anchorHash closing.header.ledgerSeq closing.verified

/-- During the replay the headers of the gap are verified. -/
def Replaying (start : LedgerManager H X S) (world : World H X S) : Prop :=
  Kept format anchorSeq anchorHash start world ∧
    VerifiedFrom format anchorSeq anchorHash (world.manager.header.ledgerSeq + 1) world.verified

end Invariant

variable {format : Format H T R D X} {anchorSeq : Nat} {anchorHash : H}
  {start : LedgerManager H X S} {world : World H X S}

omit [DecidableEq H] in
theorem VerifiedFrom.mono {seq seq' : Nat} {headers : List (LedgerHeader H X)}
    (hverified : VerifiedFrom format anchorSeq anchorHash seq headers) (hle : seq ≤ seq') :
    VerifiedFrom format anchorSeq anchorHash seq' headers := by
  obtain ⟨hheaders, first, length, hrange, hfirst⟩ := hverified
  exact ⟨hheaders, first, length, hrange, by omega⟩

omit [DecidableEq H] in
theorem unasked_kept : Unasked (Kept (S := S) format anchorSeq anchorHash start) :=
  fun _ _ hkept => ⟨hkept.linked, hkept.extends_lcl, hkept.numbered, hkept.reached, hkept.current,
    hkept.served, hkept.verified⟩

theorem unasked_replaying : Unasked (Replaying (S := S) format anchorSeq anchorHash start) :=
  fun world requests hreplaying =>
    ⟨unasked_kept world requests hreplaying.1, hreplaying.2⟩

omit [DecidableEq H] in
theorem Replaying.setStores (hreplaying : Replaying format anchorSeq anchorHash start world)
    (stores : S) : Replaying format anchorSeq anchorHash start
      { world with manager := { world.manager with stores } } := by
  obtain ⟨hkept, hverified⟩ := hreplaying
  exact ⟨⟨hkept.linked, hkept.extends_lcl, hkept.numbered, hkept.reached, hkept.current,
    hkept.served, hkept.verified⟩, hverified⟩

/-! ### Closing a ledger -/

omit [DecidableEq H] in
theorem closed_cons (closing : Closing H X) (closings : List (Closing H X))
    (manager : LedgerManager H X S) :
    World.closed { world with manager, closings := closing :: closings } =
      (closings.reverse.map Closing.header) ++ [closing.header] := by
  simp [World.closed]

theorem Replaying.publish (hreplaying : Replaying format anchorSeq anchorHash start world)
    {newHeader : LedgerHeader H X}
    (hprevious : newHeader.previousLedgerHash = world.manager.headerHash)
    (hseq : newHeader.ledgerSeq = world.manager.header.ledgerSeq + 1) :
    Replaying format anchorSeq anchorHash start { world with
      manager := { world.manager with
        header := newHeader
        headerHash := format.computeHeaderHash newHeader }
      closings := { header := newHeader, served := newHeader, verified := world.verified } ::
        world.closings } := by
  obtain ⟨hkept, hverified⟩ := hreplaying
  have hreached := hkept.reached
  refine ⟨?_, hverified.mono (by dsimp only; omega)⟩
  have hnumber : newHeader.ledgerSeq = start.header.ledgerSeq + 1 + world.closings.length := by
    omega
  refine {
    linked := ?_
    extends_lcl := ?_
    numbered := ?_
    reached := by
      dsimp only
      rw [length_cons]
      omega
    current := rfl
    served := ?_
    verified := ?_ }
  · rw [closed_cons, isChain_append]
    refine ⟨hkept.linked, .singleton _, ?_⟩
    intro last hlast found hfound
    cases hfound
    have hcurrent := hkept.current
    cases hclosings : world.closings with
    | nil =>
      rw [hclosings] at hlast
      cases hlast
    | cons newest rest =>
      rw [hclosings] at hlast hcurrent
      simp only [reverse_cons, map_append, map_cons, map_nil,
        getLast?_concat, Option.mem_some_iff] at hlast
      subst hlast
      exact hprevious.trans hcurrent
  · rw [closed_cons]
    intro first hfirst
    have hcurrent := hkept.current
    have hextends := hkept.extends_lcl
    unfold World.closed at hextends
    cases hclosings : world.closings with
    | nil =>
      rw [hclosings] at hfirst hcurrent
      cases hfirst
      exact hprevious.trans hcurrent
    | cons newest rest =>
      rw [head?_append_of_ne_nil _ (by simp [hclosings])] at hfirst
      exact hextends first hfirst
  · rw [closed_cons, map_append, map_singleton, length_cons, range'_concat, Nat.one_mul, ← hnumber]
    exact congrArg (· ++ [newHeader.ledgerSeq]) hkept.numbered
  · intro closing hclosing
    rcases mem_cons.mp hclosing with rfl | hold
    · rfl
    · exact hkept.served closing hold
  · intro closing hclosing
    rcases mem_cons.mp hclosing with rfl | hold
    · exact hverified.mono (by dsimp only; omega)
    · exact hkept.verified closing hold

namespace CatchupManager

variable {node : CatchupManager H T R D X S}

/-- The replay goes on from this header. -/
def At (format : Format H T R D X) (anchorSeq : Nat) (anchorHash : H) (start : LedgerManager H X S)
    (header : LedgerHeader H X) (hash : H) (world : World H X S) : Prop :=
  Replaying format anchorSeq anchorHash start world ∧
    world.manager.header = header ∧ world.manager.headerHash = hash

omit [DecidableEq H] in
theorem triple_failIf {kept : World H X S → Prop} (condition : Bool) (error : HistoryError) :
    Triple kept (failIf condition error)
      (fun _ world => condition = false ∧ kept world) kept := by
  cases condition with
  | false => exact pure fun _ hworld => ⟨rfl, hworld⟩
  | true => exact throw fun _ hworld => hworld

omit [DecidableEq H] in
theorem triple_raise {kept : World H X S → Prop} (ledger : Nat) (error : Option LedgerError) :
    Triple kept (raise ledger error) (fun _ => kept) kept := by
  cases error with
  | none => exact pure fun _ hworld => hworld
  | some error => exact throw fun _ hworld => hworld

theorem triple_setStores (stores : S) (header : LedgerHeader H X) (hash : H) :
    Triple (At format anchorSeq anchorHash start header hash) (setStores stores)
      (fun _ => At format anchorSeq anchorHash start header hash)
      (Replaying format anchorSeq anchorHash start) :=
  fun _ hworld => ⟨hworld.1.setStores stores, hworld.2⟩

theorem triple_commitClose {header served : LedgerHeader H X} {hash : H}
    (hprevious : served.previousLedgerHash = hash) (hseq : served.ledgerSeq = header.ledgerSeq + 1)
    (stores : S) :
    Triple (At node.format anchorSeq anchorHash start header hash)
      (node.commitClose served served stores)
      (fun _ => Replaying node.format anchorSeq anchorHash start)
      (Replaying node.format anchorSeq anchorHash start) := by
  have hfails : ∀ world, At node.format anchorSeq anchorHash start header hash world →
      Replaying node.format anchorSeq anchorHash start world := fun _ hworld => hworld.1
  refine bind (triple_setStores _ header hash) fun _ => ?_
  refine bind ((triple_raise _ _).failing hfails)
    fun _ => ?_
  refine through (fun _ => Replaying node.format anchorSeq anchorHash start) ?_
    fun _ => ?_
  · rintro world ⟨hreplaying, hheader, hhash⟩
    exact hreplaying.publish (hprevious.trans hhash.symm) (by rw [hheader, hseq])
  refine through (fun _ => Replaying node.format anchorSeq anchorHash start)
    (fun world hworld => hworld.setStores _) fun _ => ?_
  exact triple_raise _ _

theorem triple_closeLedger (hinjective : Function.Injective node.format.computeHeaderHash)
    {served : LedgerHeader H X} {closeData : LedgerCloseData H T D}
    (hexpected : closeData.expectedHeaderHash = some (node.format.computeHeaderHash served)) :
    Triple (Replaying node.format anchorSeq anchorHash start) (node.closeLedger served closeData)
      (fun _ => Replaying node.format anchorSeq anchorHash start)
      (Replaying node.format anchorSeq anchorHash start) := by
  unfold closeLedger
  refine bind get fun world => ?_
  have hat : ∀ reached, world = reached ∧ Replaying node.format anchorSeq anchorHash start reached →
      At node.format anchorSeq anchorHash start world.manager.header world.manager.headerHash
        reached := by
    rintro reached ⟨rfl, hreplaying⟩
    exact ⟨hreplaying, rfl, rfl⟩
  have hfails : ∀ reached, At node.format anchorSeq anchorHash start world.manager.header
      world.manager.headerHash reached →
        Replaying node.format anchorSeq anchorHash start reached := fun _ hreached => hreached.1
  refine bind ((triple_failIf _ _).consequence hat (fun _ _ h => h.2) hfails) fun _ => ?_
  refine bind ((triple_failIf _ _).consequence (fun _ h => h) (fun _ _ h => h.2) hfails)
    fun _ => ?_
  refine bind (triple_setStores _ _ _) fun _ => ?_
  split
  · exact throw hfails
  next fields _ =>
    refine bind ((triple_failIf _ _).failing hfails)
      fun _ => ?_
    refine of_pre fun reached hreached => ?_
    have hserved : node.createNextHeader world.manager closeData fields = served := by
      have hmatches := hreached.1
      rw [hexpected] at hmatches
      exact hinjective (by simpa using hmatches)
    have hprevious : served.previousLedgerHash = world.manager.headerHash := by
      rw [← hserved]
      rfl
    have hseq : served.ledgerSeq = world.manager.header.ledgerSeq + 1 := by
      rw [← hserved]
      rfl
    rw [hserved]
    refine (triple_commitClose hprevious hseq _).strengthen ?_
    rintro _ rfl
    exact hreached.2

/-! ### Replaying -/

section

variable (hinjective : Function.Injective node.format.computeHeaderHash)
  (hverify : node.replayConfig.verifyHeaderHash = true)
include hinjective hverify

theorem triple_replayOne (data : LedgerData H T R X) :
    Triple (Replaying node.format anchorSeq anchorHash start) (node.replayOne data)
      (fun _ => Replaying node.format anchorSeq anchorHash start)
      (Replaying node.format anchorSeq anchorHash start) := by
  unfold replayOne
  refine through (fun _ => Replaying node.format anchorSeq anchorHash start) ?_
    fun _ => ?_
  · split
    · refine bind (triple_request unasked_replaying _) fun _ => ?_
      exact (triple_failIf _ _).weaken fun _ _ h => h.2
    · exact pure fun _ h => h
  refine bind triple_headerSnapshot fun snapshot => ?_
  refine (triple_closeLedger hinjective ?_).strengthen fun _ h => h.1
  rw [if_pos hverify]

theorem triple_replayOneBatch (gateArchive : Nat) (firstBatchLcl : Option (LclContext H))
    (batchFrom batchTo : Nat) :
    Triple (Replaying node.format anchorSeq anchorHash start)
      (node.replayOneBatch gateArchive firstBatchLcl batchFrom batchTo)
      (fun seq world => Replaying node.format anchorSeq anchorHash start world ∧
        world.manager.header.ledgerSeq = seq)
      (Replaying node.format anchorSeq anchorHash start) := by
  unfold replayOneBatch
  refine bind triple_headerSnapshot fun snapshot => ?_
  refine bind ((triple_downloadLedgerData unasked_replaying _ _ _).strengthen fun _ h => h.1)
    fun ledgerData => ?_
  refine bind (triple_check _) fun _ => ?_
  refine through (fun _ => Replaying node.format anchorSeq anchorHash start) ?_
    fun _ => ?_
  · unfold persistLedgerHistory
    split
    · exact pure fun _ h => h.2
    · refine bind ((triple_request unasked_replaying _).strengthen fun _ h => h.2) fun _ => ?_
      exact (triple_failIf _ _).weaken fun _ _ h => h.2
  refine through (fun _ => Replaying node.format anchorSeq anchorHash start) ?_
    fun _ => ?_
  · unfold replayViaCloseLedger
    refine bind (triple_failIf _ _) fun _ => ?_
    refine strengthen (forM ledgerData fun data _ =>
      triple_replayOne hinjective hverify data) (fun _ h => h.2)
  refine bind triple_headerSnapshot fun reached => ?_
  refine pure ?_
  rintro world ⟨hworld, hheader, -⟩
  exact ⟨hworld, by rw [hheader]⟩

theorem triple_driveReplayBatches (gateArchive target rounds : Nat)
    (firstBatchLcl : Option (LclContext H)) (batchFrom : Nat) :
    Triple (fun world => Replaying node.format anchorSeq anchorHash start world ∧
        world.manager.header.ledgerSeq = batchFrom)
      (node.driveReplayBatches gateArchive target rounds firstBatchLcl batchFrom)
      (fun _ world => Replaying node.format anchorSeq anchorHash start world ∧
        target ≤ world.manager.header.ledgerSeq)
      (Replaying node.format anchorSeq anchorHash start) := by
  induction rounds generalizing firstBatchLcl batchFrom with
  | zero =>
    rw [driveReplayBatches]
    split
    · exact throw fun _ h => h.1
    next hreached =>
      refine pure fun world hworld => ⟨hworld.1, ?_⟩
      have hseq := hworld.2
      omega
  | succ rounds ih =>
    rw [driveReplayBatches]
    split
    · refine bind ((triple_replayOneBatch hinjective hverify _ _ _ _).strengthen fun _ h => h.1)
        fun newLclSeq => ?_
      refine bind ((triple_failIf _ _).consequence (fun _ h => h) (fun _ _ h => h.2)
        fun _ h => h.1) fun _ => ?_
      exact ih none newLclSeq
    next hreached =>
      refine pure fun world hworld => ⟨hworld.1, ?_⟩
      have hseq := hworld.2
      omega

end

/-! ### Attempts -/

theorem verified_of_verifyHeaderChain (hverify : node.replayConfig.verifyHeaderChain = true)
    (hanchor : node.trustedScpAnchor = some (anchorSeq, anchorHash))
    {headers : List (LedgerHeader H X)} {lcl : HeaderSnapshot H X} (hheaders : headers ≠ [])
    (hok : node.verifyHeaderChain headers lcl = .ok ()) :
    Verified node.format anchorSeq anchorHash headers := by
  unfold verifyHeaderChain at hok
  rw [if_neg (by simpa using hheaders), if_pos hverify] at hok
  exact verified_of_verifyReverseWalk hheaders (by simp [trustSource, hanchor]) hok

section

variable (hinjective : Function.Injective node.format.computeHeaderHash)
  (hchain : node.replayConfig.verifyHeaderChain = true)
  (hverify : node.replayConfig.verifyHeaderHash = true)
  (hanchor : node.trustedScpAnchor = some (anchorSeq, anchorHash))
include hinjective hchain hverify hanchor

theorem triple_attempt (target : Nat) :
    Triple (Kept node.format anchorSeq anchorHash start) (node.attempt target)
      (fun _ world => Kept node.format anchorSeq anchorHash start world ∧
        target ≤ world.manager.header.ledgerSeq)
      (Kept node.format anchorSeq anchorHash start) := by
  unfold attempt
  refine bind triple_headerSnapshot fun snapshot => ?_
  dsimp only
  split
  next hpast =>
    refine pure ?_
    rintro world ⟨hworld, hheader, -⟩
    refine ⟨hworld, ?_⟩
    rw [← hheader]
    omega
  next hshort =>
    unfold downloadVerifyAndReplayOnce
    generalize hpre : (fun world : World H X S =>
      Kept node.format anchorSeq anchorHash start world ∧
        snapshot.header = world.manager.header ∧
        snapshot.hash = world.manager.headerHash) = pre
    have hunasked : Unasked pre := by
      rw [← hpre]
      exact fun world requests hworld => ⟨unasked_kept world requests hworld.1, hworld.2⟩
    have hkept : ∀ world, pre world → Kept node.format anchorSeq anchorHash start world := by
      rw [← hpre]
      exact fun world hworld => hworld.1
    refine bind (failing (triple_fromArchives (fun archive =>
      triple_request hunasked _) _) hkept) fun has => ?_
    refine bind ((triple_check _).consequence (fun _ h => h) (fun _ _ h => h.2) hkept)
      fun _ => ?_
    refine bind ((triple_downloadLedgerHeaders hunasked _ _).failing hkept) fun collected => ?_
    refine bind (triple_headerSnapshot.failing fun _ h => hkept _ h.1) fun lclSnapshot => ?_
    refine bind ((triple_check _).consequence (fun _ h => h) (fun _ _ h => h.2)
      fun _ h => hkept _ h.1.1) fun _ => ?_
    refine bind ((triple_check _).failing fun _ h => hkept _ h.1.1) fun _ => ?_
    refine through (fun _ => Replaying node.format anchorSeq anchorHash start) ?_
      fun _ => ?_
    · rintro world ⟨hok, ⟨hworld, hnumbered⟩, -⟩
      rw [← hpre] at hworld
      obtain ⟨hworld, hheader, -⟩ := hworld
      have hheaders : collected.1 ≠ [] := by
        intro hnil
        rw [hnil] at hnumbered
        have hlength := congrArg length hnumbered
        simp only [map_nil, length_nil, length_range'] at hlength
        omega
      refine ⟨⟨hworld.linked, hworld.extends_lcl, hworld.numbered, hworld.reached, hworld.current,
        hworld.served, hworld.verified⟩, ?_⟩
      refine ⟨verified_of_verifyHeaderChain hchain hanchor hheaders hok, _, _, hnumbered, ?_⟩
      dsimp only
      rw [hheader]
    refine bind (triple_headerSnapshot.failing fun _ h => h.1) fun initial => ?_
    refine bind ((triple_driveReplayBatches hinjective hverify _ _ _ _ _).consequence
      (fun _ h => ⟨h.1, by rw [h.2.1]⟩) (fun _ _ h => h) fun _ h => h.1) fun _ => ?_
    refine bind (triple_headerSnapshot.failing fun _ h => h.1.1) fun reached => ?_
    exact pure fun world hworld => ⟨hworld.1.1.1, hworld.1.2⟩

theorem triple_downloadVerifyAndReplayWithRetry (target : Nat) :
    Triple (Kept node.format anchorSeq anchorHash start)
      (node.downloadVerifyAndReplayWithRetry target)
      (fun _ world => Kept node.format anchorSeq anchorHash start world ∧
        target ≤ world.manager.header.ledgerSeq)
      (Kept node.format anchorSeq anchorHash start) := by
  unfold downloadVerifyAndReplayWithRetry
  generalize replayRetryCount = retries
  induction retries with
  | zero => exact triple_attempt hinjective hchain hverify hanchor target
  | succ retries ih =>
    refine tryCatch (triple_attempt hinjective hchain hverify hanchor target) fun error => ?_
    split
    · exact throw fun _ h => h
    · exact ih

end

end CatchupManager

/-! ### The chain of the anchor -/

omit [DecidableEq H] in
theorem kept_start (manager : LedgerManager H X S) (requests : Nat)
    (verified : List (LedgerHeader H X)) :
    Kept format anchorSeq anchorHash manager
      { manager, requests, verified, closings := [] } where
  linked := .nil
  extends_lcl := nofun
  numbered := rfl
  reached := rfl
  current := rfl
  served := nofun
  verified := nofun

namespace Kept

variable (hkept : Kept format anchorSeq anchorHash start world)
include hkept

section

omit [DecidableEq H]

theorem next : world.closed.IsChain (NextHeader format) :=
  isChain_follows hkept.linked hkept.numbered

theorem mem_closed {header : LedgerHeader H X} (hheader : header ∈ world.closed) :
    ∃ closing ∈ world.closings, closing.header = header ∧ closing.served = header := by
  obtain ⟨closing, hclosing, rfl⟩ := mem_map.mp hheader
  have hmem := mem_reverse.mp hclosing
  exact ⟨closing, hmem, rfl, (hkept.served closing hmem).symm⟩

theorem leads_of_mem_verified {closing : Closing H X} (hclosing : closing ∈ world.closings)
    {header : LedgerHeader H X} (hheader : header ∈ closing.verified)
    (hle : header.ledgerSeq ≤ anchorSeq) : LeadsToAnchor format anchorSeq anchorHash header := by
  obtain ⟨⟨hlinked, top, htop, hseq, hhash⟩, first, length, hnumbered, -⟩ :=
    hkept.verified closing hclosing
  refine ⟨top, hseq, hhash, ?_⟩
  exact leadsTo_of_isChain (isChain_follows hlinked hnumbered) hheader htop (hle.trans hseq.ge)

theorem mem_verified_of_leads (hinjective : Function.Injective format.computeHeaderHash)
    {closing : Closing H X} (hclosing : closing ∈ world.closings)
    (hle : closing.header.ledgerSeq ≤ anchorSeq)
    (hleads : LeadsToAnchor format anchorSeq anchorHash closing.header) :
    closing.header ∈ closing.verified := by
  obtain ⟨⟨hlinked, top, htop, hseq, hhash⟩, first, length, hnumbered, hfirst⟩ :=
    hkept.verified closing hclosing
  obtain ⟨top', -, hhash', hleads⟩ := hleads
  have htops : top' = top := hinjective (hhash'.trans hhash.symm)
  subst htops
  have hrange : ∀ seq, seq ∈ closing.verified.map ledgerSeq ↔
      first ≤ seq ∧ seq < first + length := by
    intro seq
    rw [hnumbered, mem_range'_1]
  have htopRange := (hrange top'.ledgerSeq).mp (mem_map_of_mem htop)
  obtain ⟨found, hfound, hfoundSeq⟩ := mem_map.mp
    ((hrange closing.header.ledgerSeq).mpr ⟨hfirst, by omega⟩)
  have hfoundLeads := leadsTo_of_isChain (isChain_follows hlinked hnumbered) hfound htop (by omega)
  rw [hleads.unique hinjective hfoundLeads hfoundSeq.symm]
  exact hfound

theorem exists_closing (hlcl : start.header.ledgerSeq < anchorSeq)
    (hreached : anchorSeq ≤ world.manager.header.ledgerSeq) :
    ∃ header ∈ world.closed, header.ledgerSeq = anchorSeq := by
  have hmem : anchorSeq ∈ world.closed.map ledgerSeq := by
    have hcount := hkept.reached
    rw [hkept.numbered, mem_range'_1]
    omega
  obtain ⟨header, hheader, hseq⟩ := mem_map.mp hmem
  exact ⟨header, hheader, hseq⟩

end

theorem trusted_iff (hinjective : Function.Injective format.computeHeaderHash) {succeeded : Prop}
    (hlcl : start.header.ledgerSeq < anchorSeq)
    (hreached : succeeded → anchorSeq ≤ world.manager.header.ledgerSeq) :
    Trusted format anchorSeq anchorHash start succeeded world ↔
      ServedAsVerified anchorSeq world := by
  constructor
  · intro htrusted closing hclosing hle
    have hserved := hkept.served closing hclosing
    rw [← hserved] at hle ⊢
    apply hkept.mem_verified_of_leads hinjective hclosing hle
    exact htrusted.leads closing.header
      (mem_map_of_mem (mem_reverse.mpr hclosing)) hle
  · intro hserved
    have hleads : ∀ header ∈ world.closed, header.ledgerSeq ≤ anchorSeq →
        LeadsToAnchor format anchorSeq anchorHash header := by
      intro header hheader hle
      obtain ⟨closing, hclosing, -, rfl⟩ := hkept.mem_closed hheader
      exact hkept.leads_of_mem_verified hclosing (hserved closing hclosing hle) hle
    refine ⟨hkept.next, ?_, ?_, hleads⟩
    · intro first hfirst
      refine ⟨hkept.extends_lcl first hfirst, ?_⟩
      have hnumbered := hkept.numbered
      obtain ⟨rest, hclosed⟩ : ∃ rest, world.closed = first :: rest :=
        ⟨_, (cons_head?_tail hfirst).symm⟩
      rw [hclosed, map_cons] at hnumbered
      cases hlength : world.closings.length with
      | zero =>
        rw [hlength] at hnumbered
        cases hnumbered
      | succ length =>
        rw [hlength, range'_succ, cons.injEq] at hnumbered
        exact hnumbered.1
    · intro hsucceeded
      obtain ⟨header, hheader, hseq⟩ := hkept.exists_closing hlcl (hreached hsucceeded)
      obtain ⟨top, htopSeq, hhash, htop⟩ := hleads header hheader hseq.le
      have hsame : header = top := htop.unique hinjective .refl (hseq.trans htopSeq.symm)
      exact ⟨header, hheader, hseq, hsame ▸ hhash⟩

end Kept

/-- How a catchup ends. -/
def CatchupManager.run (node : CatchupManager H T R D X S) (manager : LedgerManager H X S)
    (target : Nat) : EStateM.Result HistoryError (World H X S) (HeaderSnapshot H X × Nat) :=
  node.downloadVerifyAndReplayWithRetry target
    { manager, requests := 0, verified := [], closings := [] }

def succeeds {ε σ α : Type} : EStateM.Result ε σ α → Bool
  | .ok _ _ => true
  | .error _ _ => false

def leftBy {ε σ α : Type} : EStateM.Result ε σ α → σ
  | .ok _ reached => reached
  | .error _ reached => reached

/-- What a catchup closes is on the trusted chain exactly when every header that it closes up
to the anchor was served as it was verified. -/
theorem catchup_trusted_iff (node : CatchupManager H T R D X S)
    (hinjective : Function.Injective node.format.computeHeaderHash)
    (hchain : node.replayConfig.verifyHeaderChain = true)
    (hverify : node.replayConfig.verifyHeaderHash = true)
    (hanchor : node.trustedScpAnchor = some (anchorSeq, anchorHash)) {target : Nat}
    (hlcl : start.header.ledgerSeq < anchorSeq) (htarget : anchorSeq ≤ target) :
    Trusted node.format anchorSeq anchorHash start (succeeds (node.run start target) = true)
        (leftBy (node.run start target)) ↔
      ServedAsVerified anchorSeq (leftBy (node.run start target)) := by
  have hrun := CatchupManager.triple_downloadVerifyAndReplayWithRetry hinjective hchain hverify
    hanchor target _ (kept_start start 0 [])
  unfold CatchupManager.run
  split at hrun
  next value reached hok =>
    rw [hok]
    exact hrun.1.trusted_iff hinjective hlcl fun _ => htarget.trans hrun.2
  next error reached herror =>
    rw [herror]
    exact hrun.trusted_iff hinjective hlcl nofun

/-! ### An archive that answers twice -/

section Twice

inductive Digest where
  | number (n : Nat)
  | header (ledgerVersion : Nat) (previousLedgerHash txSetHash : Digest) (closeTime : Nat)
      (upgrades : List (List UInt8)) (ext : StellarValueExt) (txSetResultHash : Digest)
      (ledgerSeq : Nat)
  deriving DecidableEq

/-- Hashes that spell out what they are the hash of. -/
def plainFormat : Format Digest Nat Nat Unit Unit where
  computeHeaderHash header := .header header.ledgerVersion header.previousLedgerHash
    header.txSetHash header.closeTime header.upgrades header.ext header.txSetResultHash
    header.ledgerSeq
  computeTxSetHash := .number
  txCount _ := 0
  makeEmptyTxSet _ := 0
  resultSetXdr _ := [0, 0, 0, 0]
  hashBytes bytes := .number bytes.length
  resultCount _ := 0
  zeroHash := .number 0
  decodeUpgrade _ := none

theorem plainFormat_injective : Function.Injective plainFormat.computeHeaderHash := by
  rintro ⟨_, _, _, _, _, _, _, _, _⟩ ⟨_, _, _, _, _, _, _, _, _⟩ hsame
  cases hsame
  rfl

def plainHeader (ledgerSeq txSet : Nat) (previousLedgerHash : Digest) :
    LedgerHeader Digest Unit where
  ledgerVersion := 24
  previousLedgerHash
  txSetHash := .number txSet
  closeTime := 0
  upgrades := []
  ext := .basic
  txSetResultHash := .number 4
  ledgerSeq
  rest := ()

def genesis : LedgerHeader Digest Unit :=
  plainHeader 1 0 (.number 0)

def secondLedger (txSet : Nat) : LedgerHeader Digest Unit :=
  plainHeader 2 txSet (plainFormat.computeHeaderHash genesis)

/-- The archive answers the first four requests with one transaction set in the second ledger
and the later ones with another. -/
def twoChains (verified replayed : Nat) : Answers Digest Nat Nat Unit where
  fetchCheckpointHas _ _ _ := some 63
  fetchLedgerHeaders number _ _ :=
    some ([genesis, secondLedger (if number < 4 then verified else replayed)].map fun header =>
      { hash := plainFormat.computeHeaderHash header, header })
  fetchTransactions number _ _ :=
    some [{ ledgerSeq := 2, txSet := if number < 4 then verified else replayed }]
  fetchResults _ _ _ := some [{ ledgerSeq := 2, txResultSet := 0 }]
  persists _ := true
  readsPublishQueue _ := true

/-- Consensus has confirmed the second ledger that is served first. -/
def nodeOf (verified replayed : Nat) : CatchupManager Digest Nat Nat Unit Unit Unit where
  freq := defaultCheckpointFrequency
  archives := 1
  answers := twoChains verified replayed
  format := plainFormat
  execution := {
    applyTransactions := fun _ _ _ =>
      ((), .ok { ledgerVersion := 24, upgrades := [], txSetResultHash := .number 4, rest := () })
    commitClose := fun _ _ => ((), none)
    finish := fun _ _ => ((), none) }
  replayConfig := { verifyHeaderChain := true, verifyHeaderHash := true, waitForPublish := false }
  trustedScpAnchor := some (2, plainFormat.computeHeaderHash (secondLedger verified))
  maxSupportedVersion := 27
  minSupportedVersion := 24

def atGenesis : LedgerManager Digest Unit Unit where
  header := genesis
  headerHash := plainFormat.computeHeaderHash genesis
  stores := ()

/-- The catchup succeeds on a chain that was never verified. -/
theorem twoChains_untrusted :
    ∃ node : CatchupManager Digest Nat Nat Unit Unit Unit,
      Function.Injective node.format.computeHeaderHash ∧
        node.replayConfig.verifyHeaderChain = true ∧ node.replayConfig.verifyHeaderHash = true ∧
        node.trustedScpAnchor = some (2, plainFormat.computeHeaderHash (secondLedger 7)) ∧
        succeeds (node.run atGenesis 2) = true ∧
        (leftBy (node.run atGenesis 2)).closed = [secondLedger 8] ∧
        ¬Trusted node.format 2 (plainFormat.computeHeaderHash (secondLedger 7)) atGenesis
          (succeeds (node.run atGenesis 2) = true) (leftBy (node.run atGenesis 2)) := by
  have hsucceeds : succeeds ((nodeOf 7 8).run atGenesis 2) = true := by decide +kernel
  have hclosed : (leftBy ((nodeOf 7 8).run atGenesis 2)).closed = [secondLedger 8] := by
    decide +kernel
  refine ⟨nodeOf 7 8, plainFormat_injective, rfl, rfl, rfl, hsucceeds, hclosed, ?_⟩
  intro htrusted
  obtain ⟨header, hheader, -, hhash⟩ := htrusted.anchored hsucceeds
  rw [hclosed, mem_singleton] at hheader
  subst hheader
  exact absurd (plainFormat_injective hhash) (by decide)

/-- An archive that serves one chain. -/
theorem catchup_trusted_oneChain :
    Trusted plainFormat 2 (plainFormat.computeHeaderHash (secondLedger 7)) atGenesis
        (succeeds ((nodeOf 7 7).run atGenesis 2) = true)
        (leftBy ((nodeOf 7 7).run atGenesis 2)) ∧
      (leftBy ((nodeOf 7 7).run atGenesis 2)).closed = [secondLedger 7] := by
  refine ⟨(catchup_trusted_iff (nodeOf 7 7) plainFormat_injective rfl rfl rfl
    (by decide) (by decide)).mpr ?_, by decide +kernel⟩
  have hserved : ∀ closing ∈ (leftBy ((nodeOf 7 7).run atGenesis 2)).closings,
      closing.served ∈ closing.verified := by decide +kernel
  exact fun closing hclosing _ => hserved closing hclosing

end Twice

end Henyey.Catchup
