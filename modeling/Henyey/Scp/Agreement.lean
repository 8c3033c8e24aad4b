import Henyey.Scp.Ballot.Commitment

/-!
# Agreement

Well-behaved nodes run the ballot protocol for one slot while the others send
any sane statements. A node that externalizes has a quorum behind it whose
well-behaved members all committed to the value, and a committed value never
changes. Intersecting quorums therefore externalize one value.
-/

namespace Henyey.Scp

open Function

/-- The nodes of one slot. -/
structure Network (N H : Type) where
  slotIndex : Nat
  hashQuorumSet : ScpQuorumSet N → H
  quorumSet : N → ScpQuorumSet N
  wellBehaved : N → Prop

variable {N V H : Type}

namespace Network

def context (net : Network N H) (driver : SCPDriver N V H) (node : N) : SlotContext N V H where
  localNodeId := node
  localQuorumSet := net.quorumSet node
  slotIndex := net.slotIndex
  hashQuorumSet := net.hashQuorumSet
  driver := driver

variable [DecidableEq N]

/-- Quorum sets as the nodes may announce them: a well-behaved node its own, any
other node some sane set. -/
def Announced (net : Network N H) (quorumSets : N → Option (ScpQuorumSet N)) : Prop :=
  ∀ node quorumSet, quorumSets node = some quorumSet →
    (net.wellBehaved node → quorumSet = net.quorumSet node) ∧
      (¬net.wellBehaved node → quorumSet.sane = true)

/-- Any two quorums of well-behaved nodes share a well-behaved node. -/
def QuorumIntersection (net : Network N H) : Prop :=
  ∀ i j, net.wellBehaved i → net.wellBehaved j →
    ∀ quorumSets quorumSets', net.Announced quorumSets → net.Announced quorumSets' →
      ∀ quorum quorum', isQuorum (net.quorumSet i) quorum quorumSets = true →
        isQuorum (net.quorumSet j) quorum' quorumSets' = true →
          ∃ k ∈ quorum ∩ quorum', net.wellBehaved k

variable [LinearOrder V] [DecidableEq H]

/-- The hash of a well-behaved node's quorum set leads to that set, or to none. -/
def Resolves (net : Network N H) (driver : SCPDriver N V H) (node : N) : Prop :=
  ∀ other, net.wellBehaved other → ∀ quorumSet,
    resolveQuorumSet (net.context driver node) (net.hashQuorumSet (net.quorumSet other)) other =
      some quorumSet → quorumSet = net.quorumSet other

/-- A received statement is sane, and one that names a well-behaved node was
built by that node. -/
def Delivers (net : Network N H) (states : N → Ballot N V H) (driver : SCPDriver N V H)
    (node : N) : BallotOp N V H → Prop
  | .processEnvelope envelope _ =>
    isStatementSane (net.context driver node) envelope.statement = true ∧
      (net.wellBehaved envelope.statement.nodeId →
        Said (states envelope.statement.nodeId) envelope.statement)
  | _ => True

variable [OrderBot V]

/-- The joint states that operations at well-behaved nodes reach, in any order. -/
inductive Run (net : Network N H) : (N → Ballot N V H) → Prop where
  | new : Run net (fun _ => Ballot.new)
  | op {states : N → Ballot N V H} (hrun : Run net states) (node : N)
      (hnode : net.wellBehaved node) (driver : SCPDriver N V H)
      (hresolves : net.Resolves driver node) (op : BallotOp N V H)
      (hdelivers : net.Delivers states driver node op) (fuel : Nat) {c' : Ballot N V H}
      (hop : execOp (net.context driver node) fuel op (states node) = .ok c') :
      Run net (update states node c')

/-! ### The invariant -/

/-- Every well-behaved member of the set has a slice in it and committed to the
value. -/
def Backs (net : Network N H) (states : N → Ballot N V H) (value : V) (quorum : Finset N) : Prop :=
  ∀ node ∈ quorum, net.wellBehaved node →
    isQuorumSlice (net.quorumSet node) quorum = true ∧ (states node).state.Committed value

structure Invariant (net : Network N H) (states : N → Ballot N V H) : Prop where
  ordered : ∀ node, net.wellBehaved node → (states node).state.Ordered
  truthful : ∀ node, net.wellBehaved node → ∀ st, Said (states node) st →
    Truthful node (net.hashQuorumSet (net.quorumSet node)) (states node).state.toBallots st
  stored : ∀ node other, net.wellBehaved node → net.wellBehaved other → ∀ st,
    (states node).state.latestEnvelopes.statement? other = some st → Said (states other) st
  backed : ∀ node, net.wellBehaved node → (states node).state.phase = .externalize →
    ∀ value, (states node).state.Committed value →
      ∃ quorum, net.Backs states value quorum ∧ isQuorumSlice (net.quorumSet node) quorum = true
  reported : ∀ node, net.wellBehaved node → Reported (states node)

variable {net : Network N H} {states states' : N → Ballot N V H}

omit [LinearOrder V] [OrderBot V] [DecidableEq H] in
theorem Backs.mono {value : V} {quorum : Finset N} (hbacks : net.Backs states value quorum)
    (hkept : ∀ node, net.wellBehaved node → (states node).state.Committed value →
      (states' node).state.Committed value) : net.Backs states' value quorum :=
  fun node hnode hgood => (hbacks node hnode hgood).imp_right (hkept node hgood)

variable {driver : SCPDriver N V H}

omit [OrderBot V] in
/-- The quorum set that a node uses for a stored statement of a well-behaved
node that has not externalized is that node's own. -/
theorem Invariant.quorumSet_of_stored (hinvariant : net.Invariant states) {node other : N}
    (hresolves : net.Resolves driver node) (hnode : net.wellBehaved node)
    (hother : net.wellBehaved other) {slot : Nat} {sender : N} {conf : ScpStatementConfirm V H}
    (hst : (states node).state.latestEnvelopes.statement? other =
      some ⟨sender, slot, .confirm conf⟩)
    {quorumSet : ScpQuorumSet N}
    (hmap : statementQuorumSetMap (net.context driver node) (states node).state other =
      some quorumSet) : quorumSet = net.quorumSet other := by
  obtain ⟨hsender, hhash, _⟩ :=
    hinvariant.truthful other hother _ (hinvariant.stored node other hnode hother _ hst)
  unfold statementQuorumSetMap at hmap
  rw [hst, Option.bind_some] at hmap
  split at hmap
  next q hq =>
    obtain rfl := Option.some.inj hmap
    apply hresolves other hother
    change resolveQuorumSet _ conf.quorumSetHash sender = some q at hq
    rwa [hhash, show sender = other from hsender] at hq
  · split at hmap
    next hlocal =>
      obtain rfl := Option.some.inj hmap
      rw [hlocal]
      rfl
    · simp at hmap

variable {node : N}

omit [OrderBot V] in
/-- A ratified commit is backed by a quorum: the ratifying nodes together with
the quorums of those that have externalized already. -/
theorem Invariant.backs_of_ratified (hinvariant : net.Invariant states)
    (hresolves : net.Resolves driver node) (hnode : net.wellBehaved node) {ballot : ScpBallot V}
    {interval : U32 × U32}
    (hratifies : ratifiesCommit (net.context driver node) (states node).state ballot interval =
      true) :
    ∃ quorum, net.Backs states ballot.value quorum ∧
      isQuorumSlice (net.quorumSet node) quorum = true := by
  obtain ⟨voters, hsub, hclosed, hslice⟩ := (isQuorum_iff _ _ _).mp hratifies
  -- Nodes that have not externalized contribute nothing.
  have hquorums (other : N) : ∃ quorum, net.Backs states ballot.value quorum ∧
      (net.wellBehaved other → (states other).state.phase = .externalize →
        (states other).state.Committed ballot.value →
          isQuorumSlice (net.quorumSet other) quorum = true) := by
    by_cases hdone : net.wellBehaved other ∧ (states other).state.phase = .externalize ∧
        (states other).state.Committed ballot.value
    · obtain ⟨hgood, hphase, hcommitted⟩ := hdone
      obtain ⟨quorum, hbacks, hquorum⟩ := hinvariant.backed other hgood hphase _ hcommitted
      exact ⟨quorum, hbacks, fun _ _ _ => hquorum⟩
    · refine ⟨∅, fun _ h => absurd h (Finset.notMem_empty _), ?_⟩
      intro hgood hphase hcommitted
      exact absurd ⟨hgood, hphase, hcommitted⟩ hdone
  choose earlier hbacks hearlier using hquorums
  have hvoters : voters ⊆ voters ∪ voters.biUnion earlier := Finset.subset_union_left
  refine ⟨voters ∪ voters.biUnion earlier, ?_, isQuorumSlice_mono _ hvoters hslice⟩
  intro other hmem hgood
  rcases Finset.mem_union.mp hmem with hvoter | hmem
  · obtain ⟨⟨sender, slot, pledges⟩, hst, hcommit⟩ :=
      Envelopes.mem_nodesWhere.mp (hsub hvoter)
    have htruthful := hinvariant.truthful other hgood _
      (hinvariant.stored node other hnode hgood _ hst)
    cases pledges with
    | confirm conf =>
      simp only [commitPredicate, Bool.and_eq_true, ballotCompatible_iff] at hcommit
      have hclosed := hclosed other hvoter
      unfold sliceInside at hclosed
      split at hclosed
      next quorumSet hmap =>
        obtain rfl := hinvariant.quorumSet_of_stored hresolves hnode hgood hst hmap
        refine ⟨isQuorumSlice_mono _ hvoters hclosed, ?_⟩
        rw [hcommit.1.1]
        exact htruthful.2.2
      · simp at hclosed
    | externalize ext =>
      simp only [commitPredicate, Bool.and_eq_true, ballotCompatible_iff] at hcommit
      obtain ⟨_, hphase, hcommitted⟩ := htruthful
      have hcommitted' : (states other).state.Committed ballot.value := hcommit.1 ▸ hcommitted
      refine ⟨isQuorumSlice_mono _ ?_ (hearlier other hgood hphase hcommitted'), hcommitted'⟩
      exact (Finset.subset_biUnion_of_mem earlier hvoter).trans Finset.subset_union_right
    | prepare prep => simp [commitPredicate] at hcommit
    | nominate nom => simp [commitPredicate] at hcommit
  · obtain ⟨voter, hvoter, hmem⟩ := Finset.mem_biUnion.mp hmem
    obtain ⟨hslice', hcommitted⟩ := hbacks voter other hmem hgood
    refine ⟨isQuorumSlice_mono _ ?_ hslice', hcommitted⟩
    exact (Finset.subset_biUnion_of_mem earlier hvoter).trans Finset.subset_union_right

/-! ### Steps and runs -/

variable {c' : Ballot N V H}

omit [LinearOrder V] [OrderBot V] [DecidableEq H] in
/-- A property of every node's state, when one node moves. -/
theorem forall_update (good : N → Ballot N V H → Prop) (hnode : good node c')
    (hothers : ∀ other, other ≠ node → good other (states other))
    (other : N) : good other (update states node c' other) := by
  by_cases hother : other = node
  · subst hother
    rwa [update_self]
  · rw [update_of_ne hother]
    exact hothers other hother

variable {arrives : Arrival N V H → Prop}

theorem Invariant.step (hinvariant : net.Invariant states) (hnode : net.wellBehaved node)
    (hresolves : net.Resolves driver node) (hdelivers : ∀ envelope, arrives (.statement envelope) →
      net.wellBehaved envelope.statement.nodeId →
        Said (states envelope.statement.nodeId) envelope.statement)
    (hstep : Step (net.context driver node) arrives (states node) c') :
    net.Invariant (update states node c') := by
  have hordered := hinvariant.ordered node hnode
  have hchange := hstep.change hordered
  have hordered' := hchange.ordered hordered
  -- What was said stays said, and what was committed stays committed.
  have hsaid : ∀ other st, Said (states other) st → Said (update states node c' other) st := by
    intro other st
    refine forall_update (fun other c => Said (states other) st → Said c st) ?_ ?_ other
    · rintro ⟨stored, outcome, hmem⟩
      exact ⟨stored, outcome, (hstep.appends hordered).subset hmem⟩
    · exact fun _ _ => id
  have hcommitted : ∀ value other, net.wellBehaved other →
      (states other).state.Committed value →
        (update states node c' other).state.Committed value := by
    intro value other _
    refine forall_update
      (fun other c => (states other).state.Committed value → c.state.Committed value) ?_ ?_ other
    · exact hchange.committed hordered
    · exact fun _ _ => id
  refine ⟨?_, ?_, ?_, ?_, ?_⟩
  · refine forall_update (fun other c => net.wellBehaved other → c.state.Ordered)
      (fun _ => hordered') ?_
    exact fun other _ hgood => hinvariant.ordered other hgood
  · refine forall_update (fun other c => net.wellBehaved other → ∀ st, Said c st →
      Truthful other (net.hashQuorumSet (net.quorumSet other)) c.state.toBallots st)
      (fun _ => ?_) ?_
    · exact hstep.said hordered (hinvariant.truthful node hnode)
    · exact fun other _ hgood => hinvariant.truthful other hgood
  · intro receiver other hreceiver hother st hst
    by_cases hmoved : receiver = node
    · subst hmoved
      rw [update_self] at hst
      rcases hstep.statement?_cases hordered hst with hold | ⟨hself, hnew⟩ | ⟨envelope, hin, rfl, rfl⟩
      · exact hsaid other st (hinvariant.stored receiver other hreceiver hother st hold)
      · have hself : other = receiver := hself
        rwa [hself, update_self]
      · exact hsaid _ _ (hdelivers envelope hin hother)
    · rw [update_of_ne hmoved] at hst
      exact hsaid other st (hinvariant.stored receiver other hreceiver hother st hst)
  · intro other hother hphase value hvalue
    have hkept : ∃ quorum, net.Backs states value quorum ∧
        isQuorumSlice (net.quorumSet other) quorum = true := by
      by_cases hmoved : other = node
      · subst hmoved
        rw [update_self] at hphase hvalue
        by_cases hbefore : (states other).state.phase = .externalize
        · rw [hchange.final hbefore] at hvalue
          exact hinvariant.backed other hother hbefore value hvalue
        · obtain ⟨newC, newH, c₁, hsend, rfl, ballot, interval, hsame, hratifies⟩ :=
            hstep.enters_externalize hordered hbefore hphase
          have hballots : Ballots.Committed
              (confirmCommit newC newH (states other)).state.toBallots value :=
            reported_toBallots hsend newC.value ▸ hvalue
          obtain ⟨_, high, hhigh, rfl⟩ := hballots
          obtain rfl : newH = high := Option.some.inj hhigh
          rw [← hsame]
          exact hinvariant.backs_of_ratified hresolves hother hratifies
      · rw [update_of_ne hmoved] at hphase hvalue
        exact hinvariant.backed other hother hphase value hvalue
    obtain ⟨quorum, hbacks, hslice⟩ := hkept
    exact ⟨quorum, hbacks.mono (hcommitted value), hslice⟩
  · refine forall_update (fun other c => net.wellBehaved other → Reported c) (fun _ => ?_) ?_
    · exact hstep.reported hordered (hinvariant.reported node hnode)
    · exact fun other _ hgood => hinvariant.reported other hgood

theorem Invariant.steps (hinvariant : net.Invariant states) (hnode : net.wellBehaved node)
    (hresolves : net.Resolves driver node) (hdelivers : ∀ envelope, arrives (.statement envelope) →
      net.wellBehaved envelope.statement.nodeId →
        Said (states envelope.statement.nodeId) envelope.statement)
    (hsteps : Steps (net.context driver node) arrives (states node) c') :
    net.Invariant (update states node c') := by
  suffices hall : net.Invariant (update states node c') ∧
      ∀ other st, Said (states other) st → Said (update states node c' other) st from
    hall.1
  induction hsteps with
  | refl =>
    rw [update_eq_self]
    exact ⟨hinvariant, fun _ _ => id⟩
  | @tail c₁ c₂ hsteps hlast ih =>
    obtain ⟨ih, hsaid⟩ := ih
    have hlast' : Step (net.context driver node) arrives
        (update states node c₁ node) c₂ := by
      rwa [update_self]
    have hnext := ih.step hnode hresolves
      (fun envelope hin hgood => hsaid _ _ (hdelivers envelope hin hgood)) hlast'
    rw [update_idem] at hnext
    refine ⟨hnext, fun other st hst => ?_⟩
    have hordered := ih.ordered node hnode
    rw [update_self] at hordered
    by_cases hother : other = node
    · subst hother
      obtain ⟨stored, outcome, hmem⟩ := hsaid other st hst
      rw [update_self] at hmem ⊢
      exact ⟨stored, outcome, (hlast.appends hordered).subset hmem⟩
    · rw [update_of_ne hother]
      exact hst

omit [DecidableEq H] [OrderBot V] in
theorem Invariant.new : net.Invariant (fun _ => (Ballot.new : Ballot N V H)) := by
  have hsilent (st : ScpStatement N V H) : ¬Said (Ballot.new : Ballot N V H) st := by
    rintro ⟨_, _, hmem⟩
    exact absurd hmem List.not_mem_nil
  refine ⟨fun _ _ => Ballots.ordered_new, fun _ _ st hst => absurd hst (hsilent st), ?_, ?_,
    fun _ _ => rfl⟩
  · intro node other _ _ st hst
    simp [Ballot.new, BallotProtocol.new] at hst
  · intro node _ hphase
    simp [Ballot.new, BallotProtocol.new, Ballots.new] at hphase

theorem Run.invariant (hrun : net.Run states) : net.Invariant states := by
  induction hrun with
  | new => exact Invariant.new
  | @op states hrun node hnode driver hresolves op hdelivers fuel c' hop ih =>
    refine ih.steps hnode hresolves ?_ (execOp_steps (ih.ordered node hnode) hop)
    intro envelope hin hgood
    cases op with
    | processEnvelope received validation =>
      obtain rfl : envelope = received := hin
      exact hdelivers.2 hgood
    | _ => exact hin.elim

/-! ### Agreement -/

omit [DecidableEq H] [LinearOrder V] [OrderBot V] in
/-- Backing makes a quorum for some announcement of the quorum sets, whatever
the other nodes announce. -/
theorem Backs.isQuorum {value : V} {quorum : Finset N} (hbacks : net.Backs states value quorum)
    (hslice : isQuorumSlice (net.quorumSet node) quorum = true) :
    ∃ quorumSets, net.Announced quorumSets ∧
      Scp.isQuorum (net.quorumSet node) quorum quorumSets = true := by
  classical
  refine ⟨fun other => some (if net.wellBehaved other then net.quorumSet other
    else simpleQuorumSet 1 [other]), ?_, ?_⟩
  · intro other quorumSet hsome
    obtain rfl := Option.some.inj hsome
    refine ⟨fun hgood => if_pos hgood, fun hbad => ?_⟩
    rw [if_neg hbad]
    exact simpleQuorumSet_singleton_sane other
  · rw [isQuorum_iff]
    refine ⟨quorum, Finset.Subset.refl quorum, fun other hother => ?_, hslice⟩
    unfold sliceInside
    by_cases hgood : net.wellBehaved other
    · simp only [if_pos hgood]
      exact (hbacks other hother hgood).1
    · simp only [if_neg hgood, simpleQuorumSet_slice_singleton, decide_eq_true_eq]
      exact hother

/-- Well-behaved nodes that externalized have one commit value, and it is the
only value that either of them reported. -/
theorem agreement (hintersection : net.QuorumIntersection) (hrun : net.Run states) {i j : N}
    (hi : net.wellBehaved i) (hj : net.wellBehaved j)
    (hphase : (states i).state.phase = .externalize)
    (hphase' : (states j).state.phase = .externalize) :
    ∃ value, (states i).state.commit.map ScpBallot.value = some value ∧
      (states j).state.commit.map ScpBallot.value = some value ∧
        reported (states i).log = [value] ∧ reported (states j).log = [value] := by
  have hinvariant := hrun.invariant
  have hcommit (node : N) (hnode : net.wellBehaved node)
      (hphase : (states node).state.phase = .externalize) :
      ∃ commit, (states node).state.commit = some commit ∧
        (states node).state.Committed commit.value := by
    have hordered := hinvariant.ordered node hnode
    obtain ⟨commit, hcommit⟩ := Option.ne_none_iff_exists'.mp (hordered.externalized hphase)
    exact ⟨commit, hcommit, hordered.commit_committed (by simp [hphase]) hcommit⟩
  obtain ⟨commit, hc, hcommitted⟩ := hcommit i hi hphase
  obtain ⟨commit', hc', hcommitted'⟩ := hcommit j hj hphase'
  obtain ⟨quorum, hbacks, hslice⟩ := hinvariant.backed i hi hphase _ hcommitted
  obtain ⟨quorum', hbacks', hslice'⟩ := hinvariant.backed j hj hphase' _ hcommitted'
  obtain ⟨quorumSets, hannounced, hquorum⟩ := hbacks.isQuorum hslice
  obtain ⟨quorumSets', hannounced', hquorum'⟩ := hbacks'.isQuorum hslice'
  obtain ⟨k, hk, hgood⟩ := hintersection i j hi hj quorumSets quorumSets' hannounced hannounced'
    quorum quorum' hquorum hquorum'
  obtain ⟨hk, hk'⟩ := Finset.mem_inter.mp hk
  -- The shared node committed to both values.
  have hsame : commit.value = commit'.value :=
    (hbacks k hk hgood).2.unique (hbacks' k hk' hgood).2
  have hreported := hinvariant.reported i hi
  have hreported' := hinvariant.reported j hj
  unfold Reported at hreported hreported'
  rw [if_pos hphase, hc] at hreported
  rw [if_pos hphase', hc'] at hreported'
  refine ⟨commit.value, ?_, ?_, hreported, ?_⟩
  · rw [hc]
    rfl
  · rw [hc', hsame]
    rfl
  · rw [hreported', hsame]
    rfl

/-! ### Two nodes that trust the first -/

/-- Both nodes ask for node 0 alone. -/
def trustingPair : Network ℕ Unit where
  slotIndex := 1
  hashQuorumSet _ := ()
  quorumSet _ := simpleQuorumSet 1 [0]
  wellBehaved node := node < 2

def trustingDriver : SCPDriver ℕ ℕ Unit := .permissive (simpleQuorumSet 1 [0])

/-- Node 0 starts with a value and externalizes it on its own. -/
def leaderRun : Except Abort (Ballot ℕ ℕ Unit) :=
  execOp (trustingPair.context trustingDriver 0) 8 (.bump 7 false) Ballot.new

/-- What node 0 says in the end. -/
def leaderStatement : ScpStatement ℕ ℕ Unit :=
  { nodeId := 0
    slotIndex := 1
    pledges := .externalize { commit := ⟨1, 7⟩, nH := 1, commitQuorumSetHash := () } }

/-- Node 1 follows it. -/
def followerRun : Except Abort (Ballot ℕ ℕ Unit) :=
  execOp (trustingPair.context trustingDriver 1) 8
    (.processEnvelope ⟨leaderStatement, []⟩ .fullyValidated) Ballot.new

theorem leaderRun_returns : ∃ c, leaderRun = .ok c ∧ c.state.phase = .externalize ∧
    Said c leaderStatement := by
  have hcheck : (match leaderRun with
      | .ok c => decide (c.state.phase = .externalize) && c.log.any (fun e =>
        match e with
        | .selfStatement _ st _ => decide (st = leaderStatement)
        | _ => false)
      | .error _ => false) = true := by decide +kernel
  split at hcheck
  next c hok =>
    rw [Bool.and_eq_true, decide_eq_true_eq, List.any_eq_true] at hcheck
    obtain ⟨hphase, e, hmem, he⟩ := hcheck
    refine ⟨c, hok, hphase, ?_⟩
    split at he
    next stored st outcome =>
      obtain rfl := of_decide_eq_true he
      exact ⟨stored, outcome, hmem⟩
    · simp at he
  · simp at hcheck

theorem followerRun_returns : ∃ c, followerRun = .ok c ∧ c.state.phase = .externalize := by
  have hcheck : (match followerRun with
      | .ok c => decide (c.state.phase = .externalize)
      | .error _ => false) = true := by decide +kernel
  split at hcheck
  next c hok => exact ⟨c, hok, of_decide_eq_true hcheck⟩
  · simp at hcheck

theorem trustingPair_wellBehaved : trustingPair.wellBehaved 0 ∧ trustingPair.wellBehaved 1 :=
  ⟨Nat.zero_lt_two, Nat.one_lt_two⟩

theorem trustingPair_intersection : trustingPair.QuorumIntersection := by
  intro i j _ _ quorumSets quorumSets' _ _ quorum quorum' hquorum hquorum'
  have hleader {members : Finset ℕ} {announced : ℕ → Option (ScpQuorumSet ℕ)}
      (hmembers : isQuorum (simpleQuorumSet 1 [0]) members announced = true) : 0 ∈ members := by
    obtain ⟨inner, hsub, _, hslice⟩ := (isQuorum_iff _ _ _).mp hmembers
    rw [simpleQuorumSet_slice_singleton, decide_eq_true_eq] at hslice
    exact hsub hslice
  exact ⟨0, Finset.mem_inter.mpr ⟨hleader hquorum, hleader hquorum'⟩, trustingPair_wellBehaved.1⟩

theorem trustingDriver_resolves (node : ℕ) : trustingPair.Resolves trustingDriver node := by
  intro other _ quorumSet hresolved
  unfold resolveQuorumSet at hresolved
  split at hresolved
  · exact (Option.some.inj hresolved).symm
  · exact (Option.some.inj hresolved).symm

theorem leaderStatement_sane :
    isStatementSane (trustingPair.context trustingDriver 1) leaderStatement = true := by
  decide +kernel

/-- The pair agrees. -/
theorem agreement_trustingPair : ∃ states : ℕ → Ballot ℕ ℕ Unit,
    (states 0).state.phase = .externalize ∧ (states 1).state.phase = .externalize ∧
      ∃ value, (states 0).state.commit.map ScpBallot.value = some value ∧
        (states 1).state.commit.map ScpBallot.value = some value ∧
          reported (states 0).log = [value] ∧ reported (states 1).log = [value] := by
  obtain ⟨hgood, hgood'⟩ := trustingPair_wellBehaved
  obtain ⟨c, hleader, hphase, hsaid⟩ := leaderRun_returns
  obtain ⟨c', hfollower, hphase'⟩ := followerRun_returns
  set states : ℕ → Ballot ℕ ℕ Unit := update (fun _ => Ballot.new) 0 c with hstates
  have hfirst : trustingPair.Run states :=
    .op .new 0 hgood trustingDriver (trustingDriver_resolves 0) (.bump 7 false) trivial 8
      hleader
  have hsecond : trustingPair.Run (update states 1 c') :=
    .op hfirst 1 hgood' trustingDriver (trustingDriver_resolves 1)
      (.processEnvelope ⟨leaderStatement, []⟩ .fullyValidated)
      ⟨leaderStatement_sane, fun _ => hsaid⟩ 8 hfollower
  have h0 : (update states 1 c' 0).state.phase = .externalize := hphase
  have h1 : (update states 1 c' 1).state.phase = .externalize := hphase'
  exact ⟨_, h0, h1, agreement trustingPair_intersection hsecond hgood hgood' h0 h1⟩

end Network

end Henyey.Scp
