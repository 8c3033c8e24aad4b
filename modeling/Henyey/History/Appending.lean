import Henyey.Foundation.Failing
import Henyey.History.CheckpointFiles

/-!
# Appending to a checkpoint and completing it

What the writers of a checkpoint hold is said by the ledger at which they were opened and
by how far each of them has come.
-/

namespace Henyey.History

open Foundation CheckpointBuilder
open Function

variable {E : Category → Type} {format : Format E} {freq : CheckpointFrequency}
  {chain : Chain format}

/-! ### Appending -/

/-- The writers of a checkpoint hold the entries from one ledger up to another. -/
structure Opened (freq : CheckpointFrequency) (chain : Chain format) (b : CheckpointBuilder)
    (checkpoint first : Nat) (next : Category → Nat) : Prop where
  current : b.currentCheckpoint = some checkpoint
  writer : ∀ category, ∃ w, b.writer category = some w ∧
    w.dirtyPath = checkpointPath freq category checkpoint ∧
    w.written = chain.content category first (next category)

/-- The writers hold the entries up to a ledger, or they are opened when it is appended. -/
def Building (freq : CheckpointFrequency) (chain : Chain format) (b : CheckpointBuilder)
    (checkpoint first next : Nat) : Prop :=
  Opened freq chain b checkpoint first (fun _ => next) ∨ b.currentCheckpoint = none ∧ first = next

section Appending

variable {b : CheckpointBuilder} {checkpoint first next : Nat}

theorem ensureOpen_opened {reached : Category → Nat} (d : Disk)
    (hopened : Opened freq chain b checkpoint first reached) :
    b.ensureOpen freq d checkpoint = .ok (b, d) := by
  unfold ensureOpen
  rw [hopened.current]
  simp

theorem exists_ensureOpen (d : Disk) (hbuilding : Building freq chain b checkpoint first next) :
    ∃ b' d', b.ensureOpen freq d checkpoint = .ok (b', d') ∧
      Opened freq chain b' checkpoint first (fun _ => next) ∧
      d'.final = d.final := by
  rcases hbuilding with hopened | ⟨hidle, rfl⟩
  · exact ⟨b, d, ensureOpen_opened d hopened, hopened, rfl⟩
  · unfold ensureOpen
    rw [hidle]
    refine ⟨_, _, rfl, ⟨rfl, fun category => ?_⟩, rfl⟩
    exact ⟨_, rfl, rfl, (chain.content_self category first).symm⟩

theorem Opened.write {reached : Category → Nat}
    (hopened : Opened freq chain b checkpoint first reached) (category : Category)
    (entry : E category) (hentry : (chain.ledger (reached category)).entries category = [entry])
    (hfirst : first ≤ reached category) (ledgerSeq : Nat) :
    Opened freq chain (b.write format category entry ledgerSeq) checkpoint first
      (update reached category (reached category + 1)) where
  current := hopened.current
  writer other := by
    obtain ⟨w, hw, hpath, hwritten⟩ := hopened.writer other
    by_cases hother : other = category
    · subst hother
      refine ⟨w.writeXdr (format.codec other) entry ledgerSeq, ?_, hpath, ?_⟩
      · simp [CheckpointBuilder.write, hw]
      · rw [update_self, chain.content_succ hfirst, hentry]
        simp [XdrStreamWriter.writeXdr, hwritten, encodeAll]
    · refine ⟨w, ?_, hpath, ?_⟩
      · simp [CheckpointBuilder.write, update_of_ne hother, hw]
      · rw [update_of_ne hother, hwritten]

/-- A ledger adds nothing to the file of a category. -/
theorem Opened.skip {reached reached' : Category → Nat}
    (hopened : Opened freq chain b checkpoint first reached)
    (hsame : ∀ category, chain.content category first (reached category) =
      chain.content category first (reached' category)) :
    Opened freq chain b checkpoint first reached' where
  current := hopened.current
  writer category := by
    obtain ⟨w, hw, hpath, hwritten⟩ := hopened.writer category
    exact ⟨w, hw, hpath, hwritten.trans (hsame category)⟩

/-- How far the files are when only the header of a ledger is appended. -/
def headerOnly (next : Nat) : Category → Nat :=
  update (fun _ => next) .ledger (next + 1)

theorem exists_appendLedgerHeader (d : Disk) (hfirst : first ≤ next)
    (hbuilding : Building freq chain b checkpoint first next) :
    ∃ b' d', b.appendLedgerHeader freq format d (chain.ledger next).header checkpoint =
        .ok (b', d') ∧
      Opened freq chain b' checkpoint first (headerOnly next) ∧
      d'.final = d.final := by
  obtain ⟨b', d', hopen, hopened, hfinal⟩ := exists_ensureOpen d hbuilding
  unfold appendLedgerHeader
  rw [hopen]
  refine ⟨_, d', rfl, ?_, hfinal⟩
  exact hopened.write .ledger _ rfl hfirst _

theorem exists_appendTransactionSet {tx : E .transactions} {result : E .results} (d : Disk)
    (hfirst : first ≤ next) (hopened : Opened freq chain b checkpoint first (headerOnly next))
    (htransactions : (chain.ledger next).transactions = some (tx, result)) :
    ∃ b', b.appendTransactionSet freq format d tx result checkpoint = .ok (b', d) ∧
      Opened freq chain b' checkpoint first (fun _ => next + 1) := by
  unfold appendTransactionSet
  rw [ensureOpen_opened d hopened]
  refine ⟨_, rfl, ?_⟩
  have htxs : (chain.ledger next).entries .transactions = [tx] := by
    simp [Ledger.entries, htransactions]
  have hresults : (chain.ledger next).entries .results = [result] := by
    simp [Ledger.entries, htransactions]
  let ledgerSeq := format.ledgerSeq .transactions tx
  have hboth := (hopened.write .transactions tx htxs hfirst ledgerSeq).write .results result
    hresults hfirst ledgerSeq
  refine hboth.skip fun category => ?_
  cases category <;> simp [headerOnly]

theorem Opened.skipTransactions (hopened : Opened freq chain b checkpoint first (headerOnly next))
    (hfirst : first ≤ next) (hnone : (chain.ledger next).transactions = none) :
    Opened freq chain b checkpoint first (fun _ => next + 1) := by
  refine hopened.skip fun category => ?_
  cases category with
  | ledger => simp [headerOnly]
  | transactions =>
    rw [chain.content_succ hfirst]
    simp [headerOnly, Ledger.entries, hnone, encodeAll]
  | results =>
    rw [chain.content_succ hfirst]
    simp [headerOnly, Ledger.entries, hnone, encodeAll]

end Appending

/-! ### Completing -/

section Completing

variable {b : CheckpointBuilder} {checkpoint first : Nat} {reached : Category → Nat}

@[simp] theorem setDirty_final (d : Disk) (path : Path) (file : Option Stream) :
    (d.setDirty path file).final = d.final := rfl

theorem setDirty_dirty_self (d : Disk) (path : Path) (file : Option Stream) :
    (d.setDirty path file).dirty path = file := by
  simp [Disk.setDirty]

theorem setDirty_dirty_of_ne (d : Disk) {path other : Path} (hother : other ≠ path)
    (file : Option Stream) : (d.setDirty path file).dirty other = d.dirty other := by
  simp [Disk.setDirty, update_of_ne hother]

theorem checkpointPath_inj {category other : Category} {seq : Nat} :
    checkpointPath freq category seq = checkpointPath freq other seq ↔ category = other := by
  simp [checkpointPath]

/-- The dirty file of a category is whole and exact. -/
def Disk.WholeAt (freq : CheckpointFrequency) (chain : Chain format) (checkpoint : Nat)
    (category : Category) (d : Disk) : Prop :=
  ∀ file, d.dirty (checkpointPath freq category checkpoint) = some file →
    d.final (checkpointPath freq category checkpoint) = none →
    file = Stream.whole (chain.checkpointContent freq category checkpoint)

theorem exact_durableRename {d d' : Disk} {path : Path} (hexact : d.Exact freq chain)
    (htruncated : path.truncated = 0) (hfile : ∀ file, d.dirty path = some file →
      file = Stream.whole (chain.checkpointContent freq path.category path.checkpoint))
    (hrename : durableRename d path = .ok d') : d'.Exact freq chain := by
  unfold durableRename at hrename
  split at hrename
  · cases hrename
  next file hdirty =>
    cases hrename
    intro other content hfinal
    by_cases hother : other = path
    · subst hother
      have hcontent : some file = some content := by
        simpa [Disk.setFinal] using hfinal
      cases hcontent
      exact ⟨htruncated, hfile file hdirty⟩
    · apply hexact other content
      simpa [Disk.setFinal, update_of_ne hother] using hfinal

theorem dirty_of_durableRename {d d' : Disk} {path : Path}
    (hrename : durableRename d path = .ok d') : d'.dirty = update d.dirty path none := by
  unfold durableRename at hrename
  split at hrename
  · cases hrename
  · cases hrename
    rfl

section

variable (hopened : Opened freq chain b checkpoint first reached)
include hopened

theorem Opened.writers :
    ∃ w : Category → XdrStreamWriter, fileCategories.filterMap b.writer = fileCategories.map w ∧
      (∀ category, b.writer category = some (w category)) ∧
      ∀ category, (w category).dirtyPath = checkpointPath freq category checkpoint ∧
        (w category).written = chain.content category first (reached category) := by
  choose w hw hpath hwritten using hopened.writer
  refine ⟨w, ?_, hw, fun category => ⟨hpath category, hwritten category⟩⟩
  simp [fileCategories, hw]

theorem finishAll_final (d : Disk) : (b.finishAll d).final = d.final := by
  obtain ⟨w, hwriters, -, -⟩ := hopened.writers
  unfold finishAll
  rw [hwriters]
  rfl

theorem finishAll_dirty (d : Disk) (category : Category) :
    (b.finishAll d).dirty (checkpointPath freq category checkpoint) =
      some (Stream.whole (chain.content category first (reached category))) := by
  obtain ⟨w, hwriters, -, hw⟩ := hopened.writers
  unfold finishAll
  rw [hwriters]
  cases category <;>
    simp [fileCategories, Disk.setDirty, update_apply, hw, checkpointPath_inj]

end

theorem exact_of_renames {d : Disk} {renamed : List XdrStreamWriter}
    (hcheckpoint : freq.checkpointLedger checkpoint = checkpoint)
    (hopened : Opened freq chain b checkpoint (freq.checkpointStart checkpoint)
      (fun _ => checkpoint + 1))
    (hexact : d.Exact freq chain)
    (hrenamed : ∀ w ∈ renamed, ∃ category, b.writer category = some w) :
    Ensures (fun d' => d'.Exact freq chain)
      (renamed.foldlM (fun d w => durableRename d w.dirtyPath) (b.finishAll d)) := by
  -- every round finds the file of its writer as it was finished, or finds none
  let post := fun d : Disk => d.Exact freq chain ∧ ∀ category file,
    d.dirty (checkpointPath freq category checkpoint) = some file →
      file = Stream.whole (chain.checkpointContent freq category checkpoint)
  have hstart : post (b.finishAll d) := by
    constructor
    · intro path file hfinal
      rw [finishAll_final hopened] at hfinal
      exact hexact path file hfinal
    · intro category file hdirty
      rw [finishAll_dirty hopened] at hdirty
      cases hdirty
      rfl
  have hrounds : Ensures post
      (renamed.foldlM (fun d w => durableRename d w.dirtyPath) (b.finishAll d)) := by
    apply Ensures.foldlM_of_mem _ _ _ hstart
    intro w hw round hround d' hrename
    obtain ⟨category, hwriter⟩ := hrenamed w hw
    obtain ⟨_, hwriter', hpath, -⟩ := hopened.writer category
    rw [hwriter] at hwriter'
    cases hwriter'
    rw [hpath] at hrename
    constructor
    · apply exact_durableRename hround.1 rfl _ hrename
      intro file hdirty
      have := hround.2 category file hdirty
      simpa [checkpointPath, hcheckpoint] using this
    · intro other file hdirty
      rw [dirty_of_durableRename hrename, update_apply] at hdirty
      split at hdirty
      · cases hdirty
      · exact hround.2 other file hdirty
  exact hrounds.mono fun _ hpost => hpost.1

def Disk.renamed (d : Disk) (path : Path) (file : Stream) : Disk :=
  (d.setFinal path (some file)).setDirty path none

theorem durableRename_of_dirty {d : Disk} {path : Path} {file : Stream}
    (hdirty : d.dirty path = some file) : durableRename d path = .ok (d.renamed path file) := by
  simp [durableRename, hdirty, Disk.renamed]

theorem renamed_final (d : Disk) (path other : Path) (file : Stream) :
    (d.renamed path file).final other = if other = path then some file else d.final other := by
  simp [Disk.renamed, Disk.setFinal, Disk.setDirty, update_apply]

end Completing

end Henyey.History
