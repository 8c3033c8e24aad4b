import Henyey.Herder.ValidityCache

/-!
# Runs of validations and nominations

Where every set is judged against the ledger state whose hash it is judged for, all
verdicts that are kept or answered are right, whatever else happens in between, and
none ever turns.
-/

namespace Henyey.Herder

open List TxSetChecks Option

variable {Header Info Entries Frozen TxSet Hash : Type}

namespace JudgingNode

variable [DecidableEq Hash]
  (checks : TxSetChecks Header Info Entries Frozen TxSet Hash)

/-- The step does not judge against another ledger state than the one its hash was read
from, or against one that is half closed, and does not skip the checks of a set. -/
def InTime (node : JudgingNode Header Info Entries TxSet Hash) :
    JudgingAction Header Info Entries TxSet → Prop
  | .judge thread => ∀ lclHash txSet closeTimeOffset prepared,
      node.tasks thread = .prepared lclHash txSet closeTimeOffset prepared →
        node.closing = false ∧ checks.headerHash node.header = lclHash ∧
          (checks.startsFromV20 node.header = false → checks.isGeneralized prepared = false)
  | .nominate _ => node.closing = false
  | .build thread txSet _ => ∀ snapshot, node.tasks thread = .building snapshot →
      checks.startsFromV20 snapshot.header = false →
        ∃ prepared, checks.prepareForApply txSet = .ok prepared ∧
          checks.isGeneralized prepared = false
  | _ => True

/-- The states of a run in which every step is in time. -/
inductive Run (closed : LedgerSnapshot Header Info Entries) (capacity : Nat) :
    JudgingNode Header Info Entries TxSet Hash → Prop where
  | start : Run closed capacity (.start closed capacity)
  | step {node node' : JudgingNode Header Info Entries TxSet Hash} (hrun : Run closed capacity node)
      (action : JudgingAction Header Info Entries TxSet) (hintime : node.InTime checks action)
      (hstep : node.step checks action = some node') : Run closed capacity node'

/-- There is a closed ledger state with the hash, and the set has the verdict against it. -/
structure Rightly (closed : List (LedgerSnapshot Header Info Entries)) (lclHash : Hash)
    (txSet : TxSet) (closeTimeOffset : Nat) (valid : Bool) : Prop where
  known : ∃ state ∈ closed, checks.headerHash state.header = lclHash
  verdict : ∀ state ∈ closed, checks.headerHash state.header = lclHash →
    checks.verdict state txSet closeTimeOffset = valid

/-- Every verdict that is kept is that of the set against the ledger state of the hash. -/
def CachedRightly (closed : List (LedgerSnapshot Header Info Entries))
    (cache : RandomEvictionCache (ValidityKey Hash) Bool) : Prop :=
  ∀ lclHash txSet closeTimeOffset valid,
    cache.valueOf (lclHash, checks.setHash txSet, closeTimeOffset) = some valid →
      Rightly checks closed lclHash txSet closeTimeOffset valid

/-- Whatever is kept, was answered or is about to be stored is the verdict of the set
against the ledger state of the hash, and no verdict ever turned. -/
structure Consistent (node : JudgingNode Header Info Entries TxSet Hash) : Prop where
  cached : CachedRightly checks node.closed node.validCache
  answered : ∀ given ∈ node.answers, given.decided = true →
    Rightly checks node.closed given.lclHash given.txSet given.closeTimeOffset given.valid
  judged : ∀ thread lclHash txSet closeTimeOffset valid,
    node.tasks thread = .judged lclHash txSet closeTimeOffset valid →
      Rightly checks node.closed lclHash txSet closeTimeOffset valid
  built : ∀ thread snapshot txSet closeTimeOffset,
    node.tasks thread = .built snapshot txSet closeTimeOffset →
      Rightly checks node.closed (checks.headerHash snapshot.header) txSet closeTimeOffset true
  calm : node.panicked = false

/-! ### The invariant -/

/-- Where a task stands: its hash is that of a closed ledger state, and what it has found
out is right. -/
def TaskRight (closed : List (LedgerSnapshot Header Info Entries)) :
    JudgingTask Header Info Entries TxSet Hash → Prop
  | .idle => True
  | .validating lclHash _ _ => ∃ state ∈ closed, checks.headerHash state.header = lclHash
  | .missed lclHash _ _ => ∃ state ∈ closed, checks.headerHash state.header = lclHash
  | .prepared lclHash txSet _ prepared =>
    (∃ state ∈ closed, checks.headerHash state.header = lclHash) ∧
      checks.prepareForApply txSet = .ok prepared
  | .judged lclHash txSet closeTimeOffset valid =>
    Rightly checks closed lclHash txSet closeTimeOffset valid
  | .building snapshot => snapshot ∈ closed
  | .built snapshot txSet closeTimeOffset =>
    Rightly checks closed (checks.headerHash snapshot.header) txSet closeTimeOffset true

/-- The closed ledger states have different hashes, and between two closes the node is in
the last one. -/
structure Chained (node : JudgingNode Header Info Entries TxSet Hash) : Prop where
  current : ∃ state ∈ node.closed, state.header = node.header
  whole : node.closing = false → node.snapshot ∈ node.closed
  below : ∀ state ∈ node.closed, checks.ledgerSeq state.header ≤ checks.ledgerSeq node.header
  unique : ∀ a ∈ node.closed, ∀ b ∈ node.closed, a.header = b.header → a = b

structure Sound (node : JudgingNode Header Info Entries TxSet Hash) : Prop where
  chained : node.Chained checks
  cached : CachedRightly checks node.closed node.validCache
  answered : ∀ given ∈ node.answers, given.decided = true →
    Rightly checks node.closed given.lclHash given.txSet given.closeTimeOffset given.valid
  tasks : ∀ thread, TaskRight checks node.closed (node.tasks thread)
  calm : node.panicked = false

variable {checks} {closed : List (LedgerSnapshot Header Info Entries)}
  {node node' : JudgingNode Header Info Entries TxSet Hash}
  {lclHash : Hash} {txSet : TxSet} {closeTimeOffset : Nat} {valid : Bool}

theorem Sound.consistent (hsound : node.Sound checks) : node.Consistent checks where
  __ := hsound
  judged thread lclHash txSet closeTimeOffset valid htask := by
    have hright := hsound.tasks thread
    rwa [htask] at hright
  built thread snapshot txSet closeTimeOffset htask := by
    have hright := hsound.tasks thread
    rwa [htask] at hright

variable {task : JudgingTask Header Info Entries TxSet Hash}

section

omit [DecidableEq Hash]

theorem rightly_of_mem (hchained : node.Chained checks)
    (hhash : Function.Injective checks.headerHash) {state : LedgerSnapshot Header Info Entries}
    (hmem : state ∈ node.closed) (hverdict : checks.verdict state txSet closeTimeOffset = valid) :
    Rightly checks node.closed (checks.headerHash state.header) txSet closeTimeOffset valid where
  known := ⟨state, hmem, rfl⟩
  verdict other hother hsame := by
    rw [hchained.unique other hother state hmem (hhash hsame), hverdict]

variable {new : LedgerSnapshot Header Info Entries}

section

variable (hnew : ∀ state ∈ closed, checks.headerHash state.header ≠ checks.headerHash new.header)
include hnew

/-- A verdict stands when another ledger state is closed. -/
theorem Rightly.cons (hright : Rightly checks closed lclHash txSet closeTimeOffset valid) :
    Rightly checks (new :: closed) lclHash txSet closeTimeOffset valid := by
  obtain ⟨⟨known, hknown, hhash⟩, hverdict⟩ := hright
  refine ⟨⟨known, mem_cons_of_mem _ hknown, hhash⟩, fun state hstate hsame => ?_⟩
  rcases mem_cons.mp hstate with rfl | hstate
  · exact absurd (hhash.trans hsame.symm) (hnew known hknown)
  · exact hverdict state hstate hsame

theorem TaskRight.cons (hright : TaskRight checks closed task) :
    TaskRight checks (new :: closed) task := by
  have hknown {lclHash : Hash} (hmem : ∃ state ∈ closed, checks.headerHash state.header = lclHash) :
      ∃ state ∈ new :: closed, checks.headerHash state.header = lclHash :=
    hmem.imp fun _ h => h.imp_left (mem_cons_of_mem _)
  cases task with
  | idle => trivial
  | validating lclHash txSet closeTimeOffset => exact hknown hright
  | missed lclHash txSet closeTimeOffset => exact hknown hright
  | prepared lclHash txSet closeTimeOffset prepared => exact hright.imp_left hknown
  | judged lclHash txSet closeTimeOffset valid => exact Rightly.cons hnew hright
  | building snapshot => exact mem_cons_of_mem _ hright
  | built snapshot txSet closeTimeOffset => exact Rightly.cons hnew hright

end

end

section

variable (hsound : node.Sound checks)
include hsound

theorem Sound.setTask (thread : Nat)
    (hright : TaskRight checks node.closed task) : (node.setTask thread task).Sound checks where
  chained := ⟨hsound.chained.current, hsound.chained.whole, hsound.chained.below,
    hsound.chained.unique⟩
  __ := hsound
  tasks other := by
    change TaskRight checks node.closed (Function.update node.tasks thread task other)
    by_cases hsame : other = thread
    · subst hsame
      rwa [Function.update_self]
    · rw [Function.update_of_ne hsame]
      exact hsound.tasks other

theorem Sound.answer (thread : Nat)
    {given : ValidityAnswer TxSet Hash} (hright : given.decided = true →
      Rightly checks node.closed given.lclHash given.txSet given.closeTimeOffset given.valid) :
    (node.answer thread given).Sound checks := by
  have hidle : (node.setTask thread .idle).Sound checks := hsound.setTask thread trivial
  refine ⟨⟨hidle.chained.current, hidle.chained.whole, hidle.chained.below,
    hidle.chained.unique⟩, hidle.cached, fun other hmem hdecided => ?_, hidle.tasks, hidle.calm⟩
  rcases mem_cons.mp hmem with rfl | hmem
  · exact hright hdecided
  · exact hsound.answered other hmem hdecided

theorem Sound.withCache {validCache : RandomEvictionCache (ValidityKey Hash) Bool}
    (hcached : CachedRightly checks node.closed validCache) :
    Sound checks { node with validCache } :=
  ⟨⟨hsound.chained.current, hsound.chained.whole, hsound.chained.below, hsound.chained.unique⟩,
    hcached, hsound.answered, hsound.tasks, hsound.calm⟩

end

theorem CachedRightly.get {cache : RandomEvictionCache (ValidityKey Hash) Bool}
    (hcached : CachedRightly checks closed cache) (key : ValidityKey Hash) :
    CachedRightly checks closed (cache.get key).2 := by
  intro lclHash txSet closeTimeOffset valid hfound
  rw [RandomEvictionCache.valueOf_get] at hfound
  exact hcached lclHash txSet closeTimeOffset valid hfound

theorem Sound.storing (hsound : node.Sound checks) (hset : Function.Injective checks.setHash)
    (hright : Rightly checks node.closed lclHash txSet closeTimeOffset valid)
    (draws : Nat × Nat) (next : JudgingNode Header Info Entries TxSet Hash →
      JudgingNode Header Info Entries TxSet Hash) :
    ∃ validCache, CachedRightly checks node.closed validCache ∧
      node.storing (lclHash, checks.setHash txSet, closeTimeOffset) valid draws next =
        next { node with validCache } := by
  unfold JudgingNode.storing storeValid
  dsimp only
  rw [RandomEvictionCache.get_fst]
  split
  next hstore =>
    split at hstore
    next hturns =>
      -- both verdicts would be that of the one ledger state
      obtain ⟨hinvalid, rfl⟩ := hturns
      obtain ⟨state, hmem, hhash⟩ := hright.known
      have hvalid := hright.verdict state hmem hhash
      rw [(hsound.cached _ _ _ _ hinvalid).verdict state hmem hhash] at hvalid
      cases hvalid
    · cases hstore
  next validCache hstore =>
    split at hstore
    · cases hstore
    · obtain rfl := Except.ok.inj hstore
      refine ⟨_, fun lclHash' txSet' closeTimeOffset' valid' hfound => ?_, rfl⟩
      rcases RandomEvictionCache.valueOf_put hfound with ⟨hkey, rfl⟩ | hfound
      · obtain ⟨rfl, hrest⟩ := Prod.mk.inj hkey
        obtain ⟨hsame, rfl⟩ := Prod.mk.inj hrest
        obtain rfl := hset hsame
        exact hright
      · exact hsound.cached.get _ _ _ _ _ hfound

/-! ### Steps -/

variable {snapshot : LedgerSnapshot Header Info Entries}

theorem verdict_of_selfValidate (hlegacy : checks.startsFromV20 snapshot.header = false →
      ∃ prepared, checks.prepareForApply txSet = .ok prepared ∧
        checks.isGeneralized prepared = false)
    (hvalid : checks.selfValidateNominationTxSet txSet snapshot closeTimeOffset = .ok ()) :
    checks.verdict snapshot txSet closeTimeOffset = true := by
  unfold selfValidateNominationTxSet at hvalid
  unfold verdict
  split at hvalid
  next hold =>
    obtain ⟨prepared, hprepared, hgeneralized⟩ := hlegacy hold
    simp only [hprepared, checkValid, hgeneralized, hold]
    rfl
  · split at hvalid
    · cases hvalid
    next prepared hprepared =>
      split at hvalid
      · cases hvalid
      · split at hvalid
        · cases hvalid
        · rw [hvalid]
          rfl

omit [DecidableEq Hash] in
theorem judge_eq_verdict {prepared : TxSet}
    (hprepared : checks.prepareForApply txSet = .ok prepared)
    (hlegacy : checks.startsFromV20 snapshot.header = false →
      checks.isGeneralized prepared = false) :
    checks.judge prepared snapshot (checks.headerHash snapshot.header) closeTimeOffset =
      checks.verdict snapshot txSet closeTimeOffset := by
  unfold judge verdict
  simp only [hprepared]
  split
  next hold =>
    simp only [checkValid, hlegacy hold, hold]
    rfl
  · rfl

omit [DecidableEq Hash] in
theorem rightly_of_unprepared {message : String}
    (hknown : ∃ state ∈ closed, checks.headerHash state.header = lclHash)
    (hfails : checks.prepareForApply txSet = .error message) :
    Rightly checks closed lclHash txSet closeTimeOffset false where
  known := hknown
  verdict state _ _ := by
    unfold verdict
    rw [hfails]

theorem Sound.commitClose (hsound : node.Sound checks)
    (hhash : Function.Injective checks.headerHash) {header : Header} (sorobanInfo : Option Info)
    (hseq : checks.ledgerSeq header = checks.ledgerSeq node.header + 1) :
    Sound checks
      { node with
        header
        sorobanInfo
        closing := false
        closed := ⟨header, sorobanInfo, node.entries⟩ :: node.closed } := by
  have hbelow : ∀ state ∈ node.closed, checks.ledgerSeq state.header < checks.ledgerSeq header := by
    intro state hstate
    have hle := hsound.chained.below state hstate
    omega
  -- the new ledger state has a hash of its own, so nothing known before turns
  have hnew : ∀ state ∈ node.closed, checks.headerHash state.header ≠
      checks.headerHash (LedgerSnapshot.mk header sorobanInfo node.entries).header := by
    intro state hstate hsame
    have hlt := hbelow state hstate
    rw [hhash hsame] at hlt
    exact lt_irrefl _ hlt
  refine ⟨⟨⟨_, mem_cons_self, rfl⟩, fun _ => mem_cons_self, ?_, ?_⟩, ?_, ?_, ?_, hsound.calm⟩
  · intro state hstate
    rcases mem_cons.mp hstate with rfl | hstate
    · exact le_rfl
    · exact Nat.le_of_lt (hbelow state hstate)
  · intro a ha b hb hsame
    rcases mem_cons.mp ha with rfl | ha
    · rcases mem_cons.mp hb with rfl | hb
      · rfl
      · exact absurd (congrArg checks.headerHash hsame.symm) (hnew b hb)
    · rcases mem_cons.mp hb with rfl | hb
      · exact absurd (congrArg checks.headerHash hsame) (hnew a ha)
      · exact hsound.chained.unique a ha b hb hsame
  · exact fun lclHash txSet closeTimeOffset valid hfound =>
      (hsound.cached lclHash txSet closeTimeOffset valid hfound).cons hnew
  · exact fun given hmem hdecided => (hsound.answered given hmem hdecided).cons hnew
  · exact fun thread => TaskRight.cons hnew (hsound.tasks thread)

theorem Sound.step (hsound : node.Sound checks) (hhash : Function.Injective checks.headerHash)
    (hset : Function.Injective checks.setHash) {action : JudgingAction Header Info Entries TxSet}
    (hintime : node.InTime checks action) (hstep : node.step checks action = some node') :
    node'.Sound checks := by
  unfold JudgingNode.step at hstep
  rw [if_neg (by simp [hsound.calm])] at hstep
  cases action with
  | commitEntries entries =>
    simp only at hstep
    split at hstep
    · cases hstep
    · obtain rfl := some.inj hstep
      exact ⟨⟨hsound.chained.current, nofun, hsound.chained.below, hsound.chained.unique⟩,
        hsound.cached, hsound.answered, hsound.tasks, hsound.calm⟩
  | commitClose header sorobanInfo =>
    simp only at hstep
    split at hstep
    next hguard =>
      obtain rfl := some.inj hstep
      exact hsound.commitClose hhash sorobanInfo hguard.2
    · cases hstep
  | recordExternalized =>
    obtain rfl := some.inj hstep
    exact hsound.withCache nofun
  | validateValue thread txSet closeTime =>
    simp only at hstep
    split at hstep
    · split at hstep
      · obtain rfl := some.inj hstep
        obtain ⟨state, hmem, hheader⟩ := hsound.chained.current
        exact hsound.setTask thread ⟨state, hmem, congrArg checks.headerHash hheader⟩
      · cases hstep
    · cases hstep
  | checkCache thread =>
    simp only at hstep
    split at hstep
    next lclHash txSet closeTimeOffset htask =>
      have hright := hsound.tasks thread
      rw [htask] at hright
      split at hstep
      next valid validCache hget =>
        obtain rfl := some.inj hstep
        have hfound := @RandomEvictionCache.get_fst _ _ _ node.validCache
          (lclHash, checks.setHash txSet, closeTimeOffset)
        have hcached := hsound.cached.get (lclHash, checks.setHash txSet, closeTimeOffset)
        rw [hget] at hfound hcached
        exact (hsound.withCache hcached).answer thread fun _ =>
          hsound.cached lclHash txSet closeTimeOffset valid hfound.symm
      · obtain rfl := some.inj hstep
        exact hsound.setTask thread hright
    · cases hstep
  | prepare thread draws =>
    simp only at hstep
    split at hstep
    next lclHash txSet closeTimeOffset htask =>
      have hright := hsound.tasks thread
      rw [htask] at hright
      split at hstep
      next message hfails =>
        have hfalse : Rightly checks node.closed lclHash txSet closeTimeOffset false :=
          rightly_of_unprepared hright hfails
        obtain ⟨validCache, hcached, hstored⟩ := hsound.storing hset hfalse draws fun node =>
          node.answer thread ⟨lclHash, txSet, closeTimeOffset, false, true⟩
        rw [hstored] at hstep
        obtain rfl := some.inj hstep
        exact (hsound.withCache hcached).answer thread fun _ => hfalse
      next prepared hprepared =>
        obtain rfl := some.inj hstep
        exact hsound.setTask thread ⟨hright, hprepared⟩
    · cases hstep
  | snapshotFails thread =>
    simp only at hstep
    split at hstep
    · obtain rfl := some.inj hstep
      exact hsound.answer thread nofun
    · cases hstep
  | judge thread =>
    simp only at hstep
    split at hstep
    next lclHash txSet closeTimeOffset prepared htask =>
      obtain rfl := some.inj hstep
      have hright := hsound.tasks thread
      rw [htask] at hright
      -- no close came between the hash and the snapshot
      obtain ⟨hwhole, hsame, hlegacy⟩ := hintime lclHash txSet closeTimeOffset prepared htask
      subst hsame
      refine hsound.setTask thread (rightly_of_mem hsound.chained hhash
        (hsound.chained.whole hwhole) ?_)
      exact (judge_eq_verdict hright.2 hlegacy).symm
    · cases hstep
  | store thread draws =>
    simp only at hstep
    split at hstep
    next lclHash txSet closeTimeOffset valid htask =>
      have hright := hsound.tasks thread
      rw [htask] at hright
      obtain ⟨validCache, hcached, hstored⟩ := hsound.storing hset hright draws fun node =>
        node.answer thread ⟨lclHash, txSet, closeTimeOffset, valid, true⟩
      rw [hstored] at hstep
      obtain rfl := some.inj hstep
      exact (hsound.withCache hcached).answer thread fun _ => hright
    · cases hstep
  | nominate thread =>
    simp only at hstep
    split at hstep
    · obtain rfl := some.inj hstep
      exact hsound.setTask thread (hsound.chained.whole hintime)
    · cases hstep
  | build thread txSet closeTime =>
    simp only at hstep
    split at hstep
    next snapshot htask =>
      have hright := hsound.tasks thread
      rw [htask] at hright
      split at hstep
      · obtain rfl := some.inj hstep
        exact hsound.setTask thread trivial
      · split at hstep
        · obtain rfl := some.inj hstep
          exact hsound.setTask thread trivial
        next hvalid =>
          obtain rfl := some.inj hstep
          exact hsound.setTask thread (rightly_of_mem hsound.chained hhash hright
            (verdict_of_selfValidate (hintime snapshot htask) hvalid))
    · cases hstep
  | cacheBuilt thread draws =>
    simp only at hstep
    split at hstep
    next snapshot txSet closeTimeOffset htask =>
      have hright := hsound.tasks thread
      rw [htask] at hright
      obtain ⟨validCache, hcached, hstored⟩ := hsound.storing hset hright draws fun node =>
        node.setTask thread .idle
      rw [hstored] at hstep
      obtain rfl := some.inj hstep
      exact (hsound.withCache hcached).setTask thread trivial
    · cases hstep

theorem sound_start (state : LedgerSnapshot Header Info Entries) (capacity : Nat) :
    Sound checks (start state capacity : JudgingNode Header Info Entries TxSet Hash) where
  chained :=
    { current := ⟨state, mem_singleton_self state, rfl⟩
      whole := fun _ => mem_singleton_self state
      below := fun other hother => by
        rw [mem_singleton.mp hother]
        exact le_rfl
      unique := fun a ha b hb _ => by rw [mem_singleton.mp ha, mem_singleton.mp hb] }
  cached := nofun
  answered := nofun
  tasks := fun _ => trivial
  calm := rfl

/-- In every run whose steps are in time, every verdict that is kept, answered or about to
be stored is that of the set against the ledger state of its hash, and none turns. -/
theorem verdicts_consistent (hhash : Function.Injective checks.headerHash)
    (hset : Function.Injective checks.setHash) {state : LedgerSnapshot Header Info Entries}
    {capacity : Nat} (hrun : Run checks state capacity node) : node.Consistent checks := by
  have hsound : node.Sound checks := by
    induction hrun with
    | start => exact sound_start state capacity
    | step hrun action hintime hstep ih => exact ih.step hhash hset hintime hstep
  exact hsound.consistent

/-- One account, whose balance is the ledger's entries; a set is what it pays. -/
def paying : TxSetChecks Nat Unit Nat Unit Nat Nat where
  ledgerSeq := id
  ledgerVersion _ := 23
  closeTime header := 5 * header
  headerHash := id
  setHash := id
  previousLedgerHash _ := 1
  isGeneralized _ := true
  isTxSetWellFormed _ := true
  prepareForApply := .ok
  loadFrozenKeyConfig _ _ := .ok ()
  checkTxSetValid paid _ _ _ _ balance _ :=
    if paid ≤ balance then .ok () else .error "invalid transaction"

/-- A peer's value is validated, a set is nominated, and the ledger closes in between. -/
theorem verdicts_consistent_paying :
    ∃ node, Run paying ⟨1, none, 7⟩ 10 node ∧ node.answers.length = 1 ∧
      node.validCache.valueOf (1, 7, 5) = some true ∧ node.Consistent paying := by
  have hrun : ∃ node, Run paying ⟨1, none, 7⟩ 10 node ∧ node.answers.length = 1 ∧
      node.validCache.valueOf (1, 7, 5) = some true := by
    refine ⟨_, .step (.step (.step (.step (.step (.step (.step (.step (.step .start
      (.validateValue 1 9 10) trivial rfl) (.nominate 2) rfl rfl) (.checkCache 1) trivial rfl)
      (.prepare 1 (0, 0)) trivial rfl) (.judge 1) ?_ rfl) (.commitEntries 3) trivial rfl)
      (.build 2 7 10) ?_ rfl) (.store 1 (0, 0)) trivial rfl) (.cacheBuilt 2 (0, 0)) trivial rfl,
      rfl, rfl⟩
    · intro lclHash txSet closeTimeOffset prepared htask
      cases htask
      exact ⟨rfl, rfl, nofun⟩
    · intro snapshot htask
      cases htask
      exact nofun
  obtain ⟨node, hrun, hanswers, hcached⟩ := hrun
  exact ⟨node, hrun, hanswers, hcached,
    verdicts_consistent Function.injective_id Function.injective_id hrun⟩

/-- The ledger closes between the reading of the hash and the snapshot: a valid set is
judged against the next ledger and rejected, and the nomination of the same set aborts. -/
theorem verdicts_turn :
    ∃ rejecting aborted,
      [.nominate 2, .validateValue 1 7 10, .checkCache 1, .prepare 1 (0, 0), .commitEntries 3,
        .commitClose 2 none, .recordExternalized, .judge 1, .store 1 (0, 0)].foldlM
          (step paying) (start ⟨1, none, 7⟩ 10) = some rejecting ∧
      rejecting.answers = [⟨1, 7, 5, false, true⟩] ∧
      paying.verdict ⟨1, none, 7⟩ 7 5 = true ∧
      [.build 2 7 10, .cacheBuilt 2 (0, 0)].foldlM (step paying) rejecting = some aborted ∧
      aborted.panicked = true ∧ ¬rejecting.Consistent paying ∧ ¬aborted.Consistent paying := by
  refine ⟨_, _, rfl, rfl, rfl, rfl, rfl, fun hconsistent => ?_, fun hconsistent => ?_⟩
  · have hright := hconsistent.answered ⟨1, 7, 5, false, true⟩ mem_cons_self rfl
    have hverdict := hright.verdict ⟨1, none, 7⟩ (.tail _ (.head _)) rfl
    cases hverdict
  · cases hconsistent.calm

end JudgingNode

end Henyey.Herder
