import Henyey.History.Appending

/-!
# When checkpoint building is crash-safe

Every finished file is exact as long as no crash falls inside a checkpoint and no crash
cuts a file whose checkpoint is already committed. A restart inside a checkpoint truncates
what recovery kept.
-/

namespace Henyey.History

open Foundation List

variable {E : Category → Type} {format : Format E} {freq : CheckpointFrequency}
  {chain : Chain format}

/-! ### Recovery -/

section Recovery

variable {d d' : Disk} {path : Path} {lcl : Nat}

theorem handleDirtyFile_final (hhandle : handleDirtyFile format path lcl d = .ok d') :
    d'.final = d.final := by
  unfold handleDirtyFile recoverDirtyFile at hhandle
  split at hhandle
  · cases hhandle
    rfl
  · split at hhandle <;> cases hhandle
    rfl
  · cases hhandle
    rfl

theorem truncatedPath_ne {path other : Path} (htruncated : other.truncated = 0) :
    other ≠ truncatedPath path := by
  rintro rfl
  simp [truncatedPath] at htruncated

theorem handleDirtyFile_dirty_of_ne (hhandle : handleDirtyFile format path lcl d = .ok d')
    {other : Path} (htruncated : other.truncated = 0) (hother : other ≠ path) :
    d'.dirty other = d.dirty other := by
  unfold handleDirtyFile recoverDirtyFile at hhandle
  split at hhandle
  · cases hhandle
    exact setDirty_dirty_of_ne d hother none
  · split at hhandle
    · cases hhandle
    · cases hhandle
      rw [setDirty_dirty_of_ne _ hother, setDirty_dirty_of_ne _ (truncatedPath_ne htruncated)]
  · cases hhandle
    rfl

theorem handleDirtyFile_of_refusedAt (hrefused : d.RefusedAt format lcl path) :
    ∃ error, handleDirtyFile format path lcl d = .error error := by
  obtain ⟨file, error, hdirty, hfinal, hrecover⟩ := hrefused
  unfold handleDirtyFile recoverDirtyFile
  rw [hdirty, hfinal]
  exact ⟨error, by simp [hrecover]⟩

theorem Disk.RefusedAt.congr {other : Disk} (hrefused : d.RefusedAt format lcl path)
    (hdirty : other.dirty path = d.dirty path) (hfinal : other.final = d.final) :
    other.RefusedAt format lcl path := by
  obtain ⟨file, error, hfile, hnone, hrecover⟩ := hrefused
  exact ⟨file, error, hdirty.trans hfile, by rw [hfinal]; exact hnone, hrecover⟩

/-- Until then it stays as it is. -/
theorem Disk.RefusedAt.handle {other : Path} (hrefused : d.RefusedAt format lcl other)
    (htruncated : other.truncated = 0) (hhandle : handleDirtyFile format path lcl d = .ok d') :
    d'.RefusedAt format lcl other := by
  by_cases hother : other = path
  · subst hother
    obtain ⟨error, herror⟩ := handleDirtyFile_of_refusedAt hrefused
    rw [herror] at hhandle
    cases hhandle
  · exact hrefused.congr (handleDirtyFile_dirty_of_ne hhandle htruncated hother)
      (handleDirtyFile_final hhandle)

variable {category : Category}

theorem recoverBytes_of_intact {first : Nat} {file : Stream} {written : List UInt8}
    (hlcl : lcl < 2 ^ 32) (hfile : file.bytes = chain.content category first (lcl + 1))
    (hrecover : recoverBytes format (checkpointPath freq category lcl) lcl file = .ok written) :
    written = chain.content category first (lcl + 1) := by
  obtain ⟨bytes, ending⟩ := file
  obtain rfl : bytes = encodeAll (format.codec category) (chain.upTo category first (lcl + 1)) :=
    hfile
  unfold recoverBytes at hrecover
  have hle : ∀ entry ∈ chain.upTo category first (lcl + 1),
      format.ledgerSeq category entry ≤ lcl := fun entry hentry =>
    Nat.lt_succ_iff.mp (chain.ledgerSeq_lt_of_mem_upTo (by omega) hentry)
  rw [show (checkpointPath freq category lcl).category = category from rfl,
    recoverEntries_encodeAll (format.codec category) hle] at hrecover
  split at hrecover
  · cases hrecover
  · cases hrecover
    rfl

theorem wholeAt_of_intactAt (hlcl : lcl < 2 ^ 32) (hintact : d.IntactAt freq chain lcl category)
    (hhandle : handleDirtyFile format (checkpointPath freq category lcl) lcl d = .ok d') :
    d'.WholeAt freq chain lcl category := by
  have hfinal := handleDirtyFile_final hhandle
  unfold handleDirtyFile at hhandle
  split at hhandle
  next hdirty hsome =>
    intro file hfile hnone
    rw [hfinal, hsome] at hnone
    cases hnone
  next file hdirty hnone =>
    unfold recoverDirtyFile at hhandle
    split at hhandle
    · cases hhandle
    next written hrecover =>
      have hbytes := hintact file hdirty hnone
      have hwritten := recoverBytes_of_intact hlcl hbytes hrecover
      cases hhandle
      intro other hother _
      rw [setDirty_dirty_self] at hother
      cases hother
      rw [hwritten]
      rfl
  next hdirty =>
    cases hhandle
    intro file hfile _
    rw [hdirty] at hfile
    cases hfile

theorem Disk.WholeAt.intactAt (hwhole : d.WholeAt freq chain lcl category) :
    d.IntactAt freq chain lcl category := by
  intro file hdirty hfinal
  rw [hwhole file hdirty hfinal]
  rfl

theorem Disk.IntactAt.congr {other : Disk} (hintact : d.IntactAt freq chain lcl category)
    (hdirty : other.dirty (checkpointPath freq category lcl) =
      d.dirty (checkpointPath freq category lcl))
    (hfinal : other.final = d.final) : other.IntactAt freq chain lcl category := by
  intro file hfile hnone
  rw [hdirty] at hfile
  rw [hfinal] at hnone
  exact hintact file hfile hnone

theorem Disk.WholeAt.congr {other : Disk} (hwhole : d.WholeAt freq chain lcl category)
    (hdirty : other.dirty (checkpointPath freq category lcl) =
      d.dirty (checkpointPath freq category lcl))
    (hfinal : other.final = d.final) : other.WholeAt freq chain lcl category := by
  intro file hfile hnone
  rw [hdirty] at hfile
  rw [hfinal] at hnone
  exact hwhole file hfile hnone

/-- Handling any file keeps the others without lost entries. -/
theorem Disk.IntactAt.handle (hlcl : lcl < 2 ^ 32) (hintact : d.IntactAt freq chain lcl category)
    (hhandle : handleDirtyFile format path lcl d = .ok d') :
    d'.IntactAt freq chain lcl category := by
  by_cases hpath : checkpointPath freq category lcl = path
  · subst hpath
    exact (wholeAt_of_intactAt hlcl hintact hhandle).intactAt
  · exact hintact.congr (handleDirtyFile_dirty_of_ne hhandle rfl hpath)
      (handleDirtyFile_final hhandle)

theorem Disk.WholeAt.handle (hlcl : lcl < 2 ^ 32) (hwhole : d.WholeAt freq chain lcl category)
    (hhandle : handleDirtyFile format path lcl d = .ok d') :
    d'.WholeAt freq chain lcl category := by
  by_cases hpath : checkpointPath freq category lcl = path
  · subst hpath
    exact wholeAt_of_intactAt hlcl hwhole.intactAt hhandle
  · exact hwhole.congr (handleDirtyFile_dirty_of_ne hhandle rfl hpath)
      (handleDirtyFile_final hhandle)

variable {listing : Category → List Path}

theorem cleanup_final (hcleanup : cleanup format lcl listing d = .ok d') : d'.final = d.final := by
  have hrounds : Ensures (fun reached : Disk => reached.final = d.final)
      (cleanup format lcl listing d) := by
    refine Ensures.foldlM ?_ _ _ rfl
    intro reached path hreached next hnext
    exact (handleDirtyFile_final hnext).trans hreached
  exact hrounds d' hcleanup

/-- A recovery that walks over a refused file fails. -/
theorem not_refusedAt_of_cleanup (hlisted : d.ListedIn listing)
    (hcleanup : cleanup format lcl listing d = .ok d')
    (htruncated : path.truncated = 0) : ¬ d.RefusedAt format lcl path := by
  intro hrefused
  have hmem : path ∈ fileCategories.flatMap listing := by
    obtain ⟨file, _, hdirty, -, -⟩ := hrefused
    apply mem_flatMap.mpr
    refine ⟨path.category, by cases path.category <;> simp [fileCategories], ?_⟩
    exact hlisted path (by simp [hdirty])
  unfold cleanup at hcleanup
  generalize fileCategories.flatMap listing = paths at hmem hcleanup
  clear hlisted
  induction paths generalizing d with
  | nil => cases hmem
  | cons other rest ih =>
    rw [foldlM_cons] at hcleanup
    obtain ⟨reached, hhandle, hcleanup⟩ := bind_ok_iff.mp hcleanup
    have hreached := hrefused.handle htruncated hhandle
    rcases mem_cons.mp hmem with rfl | hrest
    · obtain ⟨error, herror⟩ := handleDirtyFile_of_refusedAt hrefused
      rw [herror] at hhandle
      cases hhandle
    · exact ih hreached hrest hcleanup

/-- After the recovery every file without lost entries is whole. -/
theorem wholeAt_of_cleanup (hlcl : lcl < 2 ^ 32) (hlisted : d.ListedIn listing)
    (hintact : d.IntactAt freq chain lcl category)
    (hcleanup : cleanup format lcl listing d = .ok d') : d'.WholeAt freq chain lcl category := by
  have hmem : d.WholeAt freq chain lcl category ∨
      checkpointPath freq category lcl ∈ fileCategories.flatMap listing := by
    cases hdirty : d.dirty (checkpointPath freq category lcl) with
    | none =>
      left
      intro file hfile _
      rw [hdirty] at hfile
      cases hfile
    | some file =>
      right
      apply mem_flatMap.mpr
      refine ⟨category, by cases category <;> simp [fileCategories], ?_⟩
      exact hlisted (checkpointPath freq category lcl) (by simp [hdirty])
  unfold cleanup at hcleanup
  generalize fileCategories.flatMap listing = paths at hmem hcleanup
  clear hlisted
  induction paths generalizing d with
  | nil =>
    cases hcleanup
    rcases hmem with hwhole | hmem
    · exact hwhole
    · cases hmem
  | cons other rest ih =>
    rw [foldlM_cons] at hcleanup
    obtain ⟨reached, hhandle, hcleanup⟩ := bind_ok_iff.mp hcleanup
    refine ih (hintact.handle hlcl hhandle) ?_ hcleanup
    rcases hmem with hwhole | hmem
    · exact Or.inl (hwhole.handle hlcl hhandle)
    · rcases mem_cons.mp hmem with rfl | hrest
      · exact Or.inl (wholeAt_of_intactAt hlcl hintact hhandle)
      · exact Or.inr hrest

theorem finalize_whole {finalized : List Category} (hlast : freq.isCheckpointLedger lcl = true)
    (hexact : d.Exact freq chain) (hwhole : ∀ category, d.WholeAt freq chain lcl category)
    (hfinalize : finalized.foldlM (finalizeCategory freq lcl) d = .ok d') :
    d'.Exact freq chain ∧ ∀ category, d'.WholeAt freq chain lcl category := by
  have hcheckpoint := freq.checkpointLedger_of_isCheckpointLedger hlast
  have hrounds : Ensures (fun reached : Disk => reached.Exact freq chain ∧
      ∀ category, reached.WholeAt freq chain lcl category)
      (finalized.foldlM (finalizeCategory freq lcl) d) := by
    refine Ensures.foldlM ?_ _ _ ⟨hexact, hwhole⟩
    intro reached category hreached next hnext
    unfold finalizeCategory at hnext
    dsimp only at hnext
    split at hnext
    · cases hnext
      exact hreached
    · cases hnext
      exact hreached
    next file hdirty hnone =>
      have hfile := hreached.2 category file hdirty hnone
      constructor
      · apply exact_durableRename hreached.1 rfl _ hnext
        intro other hother
        rw [hdirty] at hother
        cases hother
        simpa [checkpointPath, hcheckpoint] using hfile
      · intro other content hcontent hother
        rw [dirty_of_durableRename hnext, Function.update_apply] at hcontent
        split at hcontent
        · cases hcontent
        next hne =>
          apply hreached.2 other content hcontent
          rw [durableRename_of_dirty hdirty] at hnext
          cases hnext
          rw [renamed_final, if_neg hne] at hother
          exact hother
  exact hrounds d' hfinalize

end Recovery

/-! ### The invariant -/

/-- How far the writers have come at each stage. -/
def Placed (freq : CheckpointFrequency) (chain : Chain format) (b : CheckpointBuilder)
    (first lcl : Nat) : Stage → Prop
  | .ready => Building freq chain b (freq.checkpointLedger (lcl + 1)) first (lcl + 1)
  | .headerAppended =>
    Opened freq chain b (freq.checkpointLedger (lcl + 1)) first (headerOnly (lcl + 1))
  | .appended => Opened freq chain b (freq.checkpointLedger (lcl + 1)) first (fun _ => lcl + 2)
  | .completed => b.currentCheckpoint = none ∧ freq.isCheckpointLedger (lcl + 1) = true
  | .committed =>
    Opened freq chain b lcl first (fun _ => lcl + 1) ∧ freq.isCheckpointLedger lcl = true

/-- The checkpoint that is being built. -/
def Stage.checkpoint (freq : CheckpointFrequency) (lcl : Nat) : Stage → Nat
  | .committed => lcl
  | _ => freq.checkpointLedger (lcl + 1)

/-- The files are exact; the writers hold their checkpoint from its first ledger on, or the
last crash was harmless. -/
structure System.Kept (freq : CheckpointFrequency) (chain : Chain format) (s : System) : Prop where
  exact : s.disk.Exact freq chain
  lcl_lt : s.lcl < 2 ^ 32
  next_lt : s.stage ≠ .ready → s.stage ≠ .committed → s.lcl + 1 < 2 ^ 32
  down : s.builder = none → s.stage = .ready ∧ s.Harmless freq chain
  placed : ∀ b, s.builder = some b →
    Placed freq chain b (freq.checkpointStart (s.stage.checkpoint freq s.lcl)) s.lcl s.stage

theorem building_of_idle {b : CheckpointBuilder} {lcl : Nat} (hidle : b.currentCheckpoint = none)
    (hboundary : freq.Boundary lcl) :
    Building freq chain b (freq.checkpointLedger (lcl + 1))
      (freq.checkpointStart (freq.checkpointLedger (lcl + 1))) (lcl + 1) :=
  Or.inr ⟨hidle, freq.checkpointStart_succ hboundary⟩

theorem checkpointStart_le (lcl : Nat) :
    freq.checkpointStart (freq.checkpointLedger (lcl + 1)) ≤ lcl + 1 := by
  by_cases hboundary : freq.Boundary lcl
  · exact (freq.checkpointStart_succ hboundary).le
  · exact (freq.checkpointStart_lt hboundary).trans (Nat.le_succ lcl)

namespace System.Kept

variable {s s' : System}

theorem start {lcl : Nat} (hlcl : lcl < 2 ^ 32) (hboundary : freq.Boundary lcl) :
    (System.start lcl).Kept freq chain where
  exact path file hfinal := by cases hfinal
  lcl_lt := hlcl
  next_lt hready := absurd rfl hready
  down hdown := by cases hdown
  placed b hb := by
    cases hb
    exact building_of_idle rfl hboundary

theorem checkpointComplete {b b' : CheckpointBuilder} {d d' : Disk} {checkpoint : Nat}
    (hexact : d.Exact freq chain) (hlast : freq.isCheckpointLedger checkpoint = true)
    (hopened : Opened freq chain b checkpoint (freq.checkpointStart checkpoint)
      (fun _ => checkpoint + 1))
    (hcomplete : b.checkpointComplete d checkpoint = .ok (b', d')) :
    d'.Exact freq chain ∧ b'.currentCheckpoint = none := by
  unfold CheckpointBuilder.checkpointComplete at hcomplete
  rw [hopened.current] at hcomplete
  simp only [ne_eq, not_true_eq_false, if_false] at hcomplete
  obtain ⟨reached, hrename, hcomplete⟩ := bind_ok_iff.mp hcomplete
  cases hcomplete
  refine ⟨?_, rfl⟩
  refine exact_of_renames (freq.checkpointLedger_of_isCheckpointLedger hlast) hopened hexact
    ?_ _ hrename
  intro w hw
  obtain ⟨category, -, hwriter⟩ := mem_filterMap.mp hw
  exact ⟨category, hwriter⟩

/-- After the recovery of a harmless crash the files to be finalized are whole. -/
theorem wholeAt {listing : Category → List Path} {d : Disk} (hkept : s.Kept freq chain)
    (hdown : s.builder = none) (hlisted : s.disk.ListedIn listing)
    (hcleanup : cleanup format s.lcl listing s.disk = .ok d) :
    freq.Boundary s.lcl ∧ (freq.isCheckpointLedger s.lcl = true →
      ∀ category, d.WholeAt freq chain s.lcl category) := by
  rcases (hkept.down hdown).2 with ⟨path, htruncated, hrefused⟩ | ⟨hboundary, hintact⟩
  · exact absurd hrefused (not_refusedAt_of_cleanup hlisted hcleanup htruncated)
  · refine ⟨hboundary, fun hlast category => ?_⟩
    exact wholeAt_of_cleanup hkept.lcl_lt hlisted (hintact hlast category) hcleanup

theorem exact_of_final {d d' : Disk} (hexact : d.Exact freq chain) (hfinal : d'.final = d.final) :
    d'.Exact freq chain := by
  intro path file hfile
  rw [hfinal] at hfile
  exact hexact path file hfile

section

variable (hkept : s.Kept freq chain)
include hkept

/-- What an interrupted recovery leaves is as harmless as what it found. -/
theorem harmless_of_handle {path : Path} {d : Disk} (hdown : s.builder = none)
    (hhandle : handleDirtyFile format path s.lcl s.disk = .ok d) :
    { s with disk := d }.Harmless freq chain := by
  rcases (hkept.down hdown).2 with ⟨refused, htruncated, hrefused⟩ | ⟨hboundary, hintact⟩
  · exact Or.inl ⟨refused, htruncated, hrefused.handle htruncated hhandle⟩
  · refine Or.inr ⟨hboundary, fun hlast category => ?_⟩
    exact (hintact hlast category).handle hkept.lcl_lt hhandle

theorem harmless_of_torn {path : Path} {left : Stream} (hdown : s.builder = none) :
    { s with disk := s.disk.setDirty (truncatedPath path) (some left) }.Harmless freq chain := by
  rcases (hkept.down hdown).2 with ⟨refused, htruncated, hrefused⟩ | ⟨hboundary, hintact⟩
  · refine Or.inl ⟨refused, htruncated, hrefused.congr ?_ rfl⟩
    exact setDirty_dirty_of_ne _ (truncatedPath_ne htruncated) _
  · refine Or.inr ⟨hboundary, fun hlast category => (hintact hlast category).congr ?_ rfl⟩
    exact setDirty_dirty_of_ne _ (truncatedPath_ne rfl) _

/-- Every step of the process keeps the invariant. -/
theorem step (hstep : Step freq chain s s') : s'.Kept freq chain := by
  cases hstep with
  | @appendHeader b b' d hbuilder hstage hseq happend =>
    have hplaced := hkept.placed b hbuilder
    rw [hstage] at hplaced
    obtain ⟨b₁, d₁, happend₁, hopened, hfinal⟩ :=
      exists_appendLedgerHeader s.disk (checkpointStart_le s.lcl) hplaced
    rw [happend] at happend₁
    cases happend₁
    refine ⟨exact_of_final hkept.exact hfinal, hkept.lcl_lt, fun _ _ => hseq, ?_, ?_⟩
    · intro hdown
      cases hdown
    · intro b₂ hb₂
      cases hb₂
      dsimp only
      cases htransactions : (chain.ledger (s.lcl + 1)).transactions with
      | some entries => exact hopened
      | none => exact hopened.skipTransactions (checkpointStart_le s.lcl) htransactions
  | @appendTransactions b b' d tx result hbuilder hstage htransactions happend =>
    have hplaced := hkept.placed b hbuilder
    rw [hstage] at hplaced
    obtain ⟨b₁, happend₁, hopened⟩ :=
      exists_appendTransactionSet s.disk (checkpointStart_le s.lcl) hplaced htransactions
    rw [happend] at happend₁
    cases happend₁
    have hseq := hkept.next_lt (by rw [hstage]; decide) (by rw [hstage]; decide)
    refine ⟨hkept.exact, hkept.lcl_lt, fun _ _ => hseq, ?_, ?_⟩
    · intro hdown
      cases hdown
    · intro b₂ hb₂
      cases hb₂
      exact hopened
  | commit hstage =>
    have hseq := hkept.next_lt (by rw [hstage]; decide) (by rw [hstage]; decide)
    refine ⟨hkept.exact, hseq, ?_, ?_, ?_⟩
    · intro hready hcommitted
      dsimp only at hready hcommitted
      split at hready
      next hlast => rw [if_pos hlast] at hcommitted; exact absurd rfl hcommitted
      next hlast => exact absurd rfl hready
    · intro hdown
      have hready := (hkept.down hdown).1
      rw [hstage] at hready
      cases hready
    · intro b hb
      have hplaced := hkept.placed b hb
      rw [hstage] at hplaced
      dsimp only
      cases hlast : freq.isCheckpointLedger (s.lcl + 1) with
      | true =>
        have hcheckpoint := freq.checkpointLedger_of_isCheckpointLedger hlast
        simp only [Stage.checkpoint, Placed, hcheckpoint] at hplaced
        exact ⟨hplaced, hlast⟩
      | false =>
        have hcheckpoint := freq.checkpointLedger_succ hlast
        simp only [Stage.checkpoint, Placed] at hplaced
        left
        simp only [Stage.checkpoint, Bool.false_eq_true, if_false]
        rw [hcheckpoint]
        exact hplaced
  | commitCompleted hstage =>
    have hseq := hkept.next_lt (by rw [hstage]; decide) (by rw [hstage]; decide)
    refine ⟨hkept.exact, hseq, fun hready => absurd rfl hready, ?_, ?_⟩
    · intro hdown
      have hready := (hkept.down hdown).1
      rw [hstage] at hready
      cases hready
    · intro b hb
      have hplaced := hkept.placed b hb
      rw [hstage] at hplaced
      exact building_of_idle hplaced.1 (Or.inr hplaced.2)
  | @complete b b' d hbuilder hstage hlast hcomplete =>
    have hplaced := hkept.placed b hbuilder
    have hcheckpoint := freq.checkpointLedger_of_isCheckpointLedger hlast
    rw [hstage] at hplaced
    simp only [Stage.checkpoint, Placed, hcheckpoint] at hplaced
    obtain ⟨hexact, hidle⟩ := checkpointComplete hkept.exact hlast hplaced hcomplete
    have hseq := hkept.next_lt (by rw [hstage]; decide) (by rw [hstage]; decide)
    refine ⟨hexact, hkept.lcl_lt, fun _ _ => hseq, ?_, ?_⟩
    · intro hdown
      cases hdown
    · intro b₂ hb₂
      cases hb₂
      exact ⟨hidle, hlast⟩
  | @completeCommitted b b' d hbuilder hstage hcomplete =>
    have hplaced := hkept.placed b hbuilder
    rw [hstage] at hplaced
    obtain ⟨hopened, hlast⟩ := hplaced
    obtain ⟨hexact, hidle⟩ := checkpointComplete hkept.exact hlast hopened hcomplete
    refine ⟨hexact, hkept.lcl_lt, fun hready => absurd rfl hready, ?_, ?_⟩
    · intro hdown
      cases hdown
    · intro b₂ hb₂
      cases hb₂
      exact building_of_idle hidle (Or.inr hlast)
  | recoverOne hdown hhandle =>
    refine ⟨exact_of_final hkept.exact (handleDirtyFile_final hhandle), hkept.lcl_lt,
      hkept.next_lt, ?_, hkept.placed⟩
    intro _
    exact ⟨(hkept.down hdown).1, hkept.harmless_of_handle hdown hhandle⟩
  | recoverTorn hdown hdirty hrecover hleft =>
    refine ⟨hkept.exact, hkept.lcl_lt, hkept.next_lt, ?_, hkept.placed⟩
    intro _
    exact ⟨(hkept.down hdown).1, hkept.harmless_of_torn hdown⟩
  | finalizeSome finalized hdown hlisted hcleanup hlast hfinalize =>
    obtain ⟨hboundary, hwhole⟩ := hkept.wholeAt hdown hlisted hcleanup
    have hexact := exact_of_final hkept.exact (cleanup_final hcleanup)
    obtain ⟨hexact', hwhole'⟩ := finalize_whole hlast hexact (hwhole hlast) hfinalize
    refine ⟨hexact', hkept.lcl_lt, hkept.next_lt, ?_, hkept.placed⟩
    intro _
    exact ⟨(hkept.down hdown).1, Or.inr ⟨hboundary, fun _ category => (hwhole' category).intactAt⟩⟩
  | @restart listing d d' hdown hlisted hcleanup hfinalize =>
    obtain ⟨hboundary, hwhole⟩ := hkept.wholeAt hdown hlisted hcleanup
    have hexact := exact_of_final hkept.exact (cleanup_final hcleanup)
    have hexact' : d'.Exact freq chain := by
      split at hfinalize
      next hlast => exact (finalize_whole hlast hexact (hwhole hlast) hfinalize).1
      next hlast =>
        cases hfinalize
        exact hexact
    have hready := (hkept.down hdown).1
    refine ⟨hexact', hkept.lcl_lt, hkept.next_lt, ?_, ?_⟩
    · intro hup
      cases hup
    · intro b hb
      cases hb
      dsimp only
      rw [hready]
      exact building_of_idle rfl hboundary

end

theorem wreck_final (b : CheckpointBuilder) (d : Disk) (left : Category → Stream) :
    (b.wreck d left).final = d.final := by
  unfold CheckpointBuilder.wreck
  induction fileCategories generalizing d with
  | nil => rfl
  | cons category rest ih =>
    rw [foldl_cons, ih]
    cases b.writer category <;> rfl

theorem foldl_setDirty_final (path : Category → Path) (file : Stream) (created : List Category)
    (d : Disk) :
    (created.foldl (fun d category => d.setDirty (path category) (some file)) d).final =
      d.final := by
  induction created generalizing d with
  | nil => rfl
  | cons category rest ih => rw [foldl_cons, ih, setDirty_final]

theorem crash (hkept : s.Kept freq chain) (hcrash : Crash freq s s')
    (hharmless : s'.Harmless freq chain) : s'.Kept freq chain := by
  have hdown : ∀ b : CheckpointBuilder, (none : Option CheckpointBuilder) ≠ some b := nofun
  cases hcrash with
  | writing left hbuilder hleft =>
    exact ⟨exact_of_final hkept.exact (wreck_final _ _ _), hkept.lcl_lt,
      fun hready => absurd rfl hready, fun _ => ⟨rfl, hharmless⟩, fun b hb => absurd hb (hdown b)⟩
  | opening created hbuilder hstage hclosed =>
    exact ⟨exact_of_final hkept.exact (foldl_setDirty_final _ _ _ _), hkept.lcl_lt,
      hkept.next_lt, fun _ => ⟨hstage, hharmless⟩, fun b hb => absurd hb (hdown b)⟩
  | @completing b d renamed hbuilder hlast hrenamed hrename =>
    have hexact : d.Exact freq chain := by
      have hplaced := hkept.placed b hbuilder
      rcases hlast with ⟨hstage, hend⟩ | hstage
      · have hcheckpoint := freq.checkpointLedger_of_isCheckpointLedger hend
        rw [hstage] at hplaced
        simp only [Stage.checkpoint, Placed, hcheckpoint] at hplaced
        exact exact_of_renames hcheckpoint hplaced hkept.exact hrenamed d hrename
      · rw [hstage] at hplaced
        obtain ⟨hopened, hend⟩ := hplaced
        exact exact_of_renames (freq.checkpointLedger_of_isCheckpointLedger hend) hopened
          hkept.exact hrenamed d hrename
    exact ⟨hexact, hkept.lcl_lt, fun hready => absurd rfl hready, fun _ => ⟨rfl, hharmless⟩,
      fun b hb => absurd hb (hdown b)⟩

end System.Kept

/-- In every run whose crashes are all harmless each finished file holds exactly the entries
of the ledgers of its checkpoint. -/
theorem exact_of_reachable {s : System}
    (hreachable : Reachable freq chain (System.Harmless freq chain) s) :
    s.disk.Exact freq chain := by
  have hkept : s.Kept freq chain := by
    induction hreachable with
    | start lcl hlcl hboundary => exact System.Kept.start hlcl hboundary
    | step _ hstep ih => exact ih.step hstep
    | crash _ hcrash hleft ih => exact ih.crash hcrash hleft
  exact hkept.exact

/-! ### Runs with a crash -/

/-- Entries that are only the number of their ledger. -/
def numberCodec : Codec UInt32 where
  encode number := beBytes number.toNat
  decode bytes := some (UInt32.ofNat (ofBeBytes bytes))
  decode_encode number := by
    rw [ofBeBytes_beBytes number.toNat_lt]
    simp
  length_encode_lt number := by
    rw [length_beBytes]
    decide

def numberFormat : Format fun _ => UInt32 where
  codec _ := numberCodec
  ledgerSeq _ := UInt32.toNat

/-- Every second ledger has transactions. -/
def numberLedger (seq : Nat) : Ledger fun _ => UInt32 where
  header := UInt32.ofNat seq
  transactions := if seq % 2 = 0 then some (UInt32.ofNat seq, UInt32.ofNat seq) else none

theorem numberLedger_entries {seq : Nat} {category : Category} {entry : UInt32}
    (hentry : entry ∈ (numberLedger seq).entries category) : entry = UInt32.ofNat seq := by
  cases category <;> simp only [Ledger.entries, numberLedger] at hentry <;> grind

def numberChain : Chain numberFormat where
  ledger := numberLedger
  ledgerSeq seq hseq category entry hentry := by
    rw [numberLedger_entries hentry]
    exact UInt32.toNat_ofNat_of_lt' hseq

/-- The first checkpoint ends at ledger 7. -/
def firstPath (category : Category) : Path :=
  checkpointPath acceleratedCheckpointFrequency category 7

section

variable {lcl : Nat}

/-- The whole file of the ledgers up to the last committed one. -/
def committedFile (lcl : Nat) (category : Category) : Stream :=
  Stream.whole (numberChain.content category 1 (lcl + 1))

/-- The second file takes the place of the first. -/
def rewritten (lcl : Nat) (d : Disk) (category : Category) : Disk :=
  (d.setDirty (truncatedPath (firstPath category)) none).setDirty (firstPath category)
    (some (committedFile lcl category))

theorem handleDirtyFile_committed (hlcl : lcl = 1 ∨ lcl = 7) {d : Disk} {category : Category}
    (hdirty : d.dirty (firstPath category) = some (committedFile lcl category))
    (hfinal : d.final (firstPath category) = none) :
    handleDirtyFile numberFormat (firstPath category) lcl d = .ok (rewritten lcl d category) := by
  have hrecover : recoverBytes numberFormat (firstPath category) lcl (committedFile lcl category) =
      .ok (numberChain.content category 1 (lcl + 1)) := by
    have hle : ∀ entry ∈ numberChain.upTo category 1 (lcl + 1), entry.toNat ≤ lcl := by
      have hall : (numberChain.upTo category 1 (lcl + 1)).all (·.toNat ≤ lcl) = true := by
        rcases hlcl with rfl | rfl <;> cases category <;> rfl
      simpa using hall
    refine (recoverEntries_encodeAll numberCodec hle 0 [] .finished).trans (if_neg ?_)
    rcases hlcl with rfl | rfl <;> cases category <;> decide
  simp only [handleDirtyFile, hdirty, hfinal, recoverDirtyFile, hrecover]
  rfl

/-- The walk finds the three files of the first checkpoint. -/
theorem cleanup_committed (hlcl : lcl = 1 ∨ lcl = 7) {d : Disk}
    (hdirty : ∀ category, d.dirty (firstPath category) = some (committedFile lcl category))
    (hfinal : ∀ category, d.final (firstPath category) = none) :
    cleanup numberFormat lcl (fun category => [firstPath category]) d =
      .ok (fileCategories.foldl (rewritten lcl) d) := by
  have hledger := handleDirtyFile_committed hlcl (hdirty .ledger) (hfinal .ledger)
  have htransactions := @handleDirtyFile_committed lcl hlcl (rewritten lcl d .ledger) .transactions
    (hdirty .transactions) (hfinal .transactions)
  have hresults := @handleDirtyFile_committed lcl hlcl
    (rewritten lcl (rewritten lcl d .ledger) .transactions) .results (hdirty .results)
    (hfinal .results)
  simp only [cleanup, fileCategories, flatMap_cons, flatMap_nil, append_nil,
    singleton_append, foldlM_cons, foldlM_nil, hledger, htransactions, hresults,
    bind, Except.bind, pure, Except.pure]
  rfl

end

/-- After a crash the three files are all there is. -/
theorem listedIn_firstPath {d : Disk} {first second : Category → Stream}
    (hdirty : d.dirty = fileCategories.foldl
      (fun dirty category => Function.update dirty (firstPath category) (some (second category)))
      (fileCategories.foldl (fun dirty category =>
        Function.update dirty (firstPath category) (some (first category))) fun _ => none)) :
    d.ListedIn fun category => [firstPath category] := by
  intro path hpath
  by_contra hmem
  have hne : ∀ category, path ≠ firstPath category := by
    rintro category rfl
    exact hmem (mem_singleton_self _)
  simp [hdirty, fileCategories, Function.update_of_ne, hne] at hpath

/-- The process crashes when the last ledger of the first checkpoint is committed, the recovery
finishes the checkpoint, and the second one is completed after it. -/
theorem exact_recovered :
    ∃ s, Reachable acceleratedCheckpointFrequency numberChain
        (System.Harmless acceleratedCheckpointFrequency numberChain) s ∧ s.lcl = 15 ∧
      (∀ category, (s.disk.final { truncated := 0, category, checkpoint := 7 }).isSome) ∧
      (∀ category, (s.disk.final { truncated := 0, category, checkpoint := 15 }).isSome) ∧
      s.disk.Exact acceleratedCheckpointFrequency numberChain := by
  have hstart : Reachable acceleratedCheckpointFrequency numberChain
      (System.Harmless acceleratedCheckpointFrequency numberChain) (System.start 0) :=
    .start 0 (by decide) (Or.inl rfl)
  have h1 := (hstart.step (.appendHeader rfl rfl (by decide +kernel) rfl)).step (.commit rfl)
  have h2 := ((h1.step (.appendHeader rfl rfl (by decide +kernel) rfl)).step
    (.appendTransactions rfl rfl rfl rfl)).step (.commit rfl)
  have h3 := (h2.step (.appendHeader rfl rfl (by decide +kernel) rfl)).step (.commit rfl)
  have h4 := ((h3.step (.appendHeader rfl rfl (by decide +kernel) rfl)).step
    (.appendTransactions rfl rfl rfl rfl)).step (.commit rfl)
  have h5 := (h4.step (.appendHeader rfl rfl (by decide +kernel) rfl)).step (.commit rfl)
  have h6 := ((h5.step (.appendHeader rfl rfl (by decide +kernel) rfl)).step
    (.appendTransactions rfl rfl rfl rfl)).step (.commit rfl)
  have h7 := (h6.step (.appendHeader rfl rfl (by decide +kernel) rfl)).step (.commit rfl)
  have hcrashed := h7.crash (.writing (committedFile 7) rfl ?_) ?_
  · have hrestarted := hcrashed.step (.restart rfl
      (@listedIn_firstPath _ (fun _ => ⟨[], .cut .unexpectedEof⟩) (committedFile 7) rfl)
      (cleanup_committed (.inr (by decide +kernel)) (fun category => by cases category <;> rfl)
        fun _ => rfl) rfl)
    have h8 := ((hrestarted.step (.appendHeader rfl rfl (by decide +kernel) rfl)).step
      (.appendTransactions rfl rfl rfl rfl)).step (.commit rfl)
    have h9 := (h8.step (.appendHeader rfl rfl (by decide +kernel) rfl)).step (.commit rfl)
    have h10 := ((h9.step (.appendHeader rfl rfl (by decide +kernel) rfl)).step
      (.appendTransactions rfl rfl rfl rfl)).step (.commit rfl)
    have h11 := (h10.step (.appendHeader rfl rfl (by decide +kernel) rfl)).step (.commit rfl)
    have h12 := ((h11.step (.appendHeader rfl rfl (by decide +kernel) rfl)).step
      (.appendTransactions rfl rfl rfl rfl)).step (.commit rfl)
    have h13 := (h12.step (.appendHeader rfl rfl (by decide +kernel) rfl)).step (.commit rfl)
    have h14 := ((h13.step (.appendHeader rfl rfl (by decide +kernel) rfl)).step
      (.appendTransactions rfl rfl rfl rfl)).step (.commit rfl)
    have h15 := ((h14.step (.appendHeader rfl rfl (by decide +kernel) rfl)).step
      (.complete rfl rfl (by decide +kernel) rfl)).step (.commitCompleted rfl)
    exact ⟨_, h15, by decide +kernel, fun category => by cases category <;> rfl,
      fun category => by cases category <;> rfl, exact_of_reachable h15⟩
  · intro category w hw
    cases category <;> cases hw <;> exact ⟨by decide, fun _ => by decide⟩
  · refine Or.inr ⟨Or.inr (by decide +kernel), fun _ category file hfile _ => ?_⟩
    have hkept : some (committedFile 7 category) = some file := by
      rw [← hfile]
      cases category <;> rfl
    cases hkept
    cases category <;> decide

/-- Restarted after the first ledger of a checkpoint, the builder goes on with a truncated
file. -/
theorem restart_loses_header :
    ∃ s, Reachable acceleratedCheckpointFrequency numberChain (fun _ => True) s ∧
      ¬ s.disk.Exact acceleratedCheckpointFrequency numberChain := by
  have hstart : Reachable acceleratedCheckpointFrequency numberChain (fun _ => True)
      (System.start 0) := .start 0 (by decide) (Or.inl rfl)
  have h1 := (hstart.step (.appendHeader rfl rfl (by decide +kernel) rfl)).step (.commit rfl)
  have hcrashed := h1.crash (.writing (committedFile 1) rfl ?_) trivial
  · have hrestarted := hcrashed.step (.restart rfl
      (@listedIn_firstPath _ (fun _ => ⟨[], .cut .unexpectedEof⟩) (committedFile 1) rfl)
      (cleanup_committed (.inl (by decide +kernel)) (fun category => by cases category <;> rfl)
        fun _ => rfl) rfl)
    have h2 := ((hrestarted.step (.appendHeader rfl rfl (by decide +kernel) rfl)).step
      (.appendTransactions rfl rfl rfl rfl)).step (.commit rfl)
    have h3 := (h2.step (.appendHeader rfl rfl (by decide +kernel) rfl)).step (.commit rfl)
    have h4 := ((h3.step (.appendHeader rfl rfl (by decide +kernel) rfl)).step
      (.appendTransactions rfl rfl rfl rfl)).step (.commit rfl)
    have h5 := (h4.step (.appendHeader rfl rfl (by decide +kernel) rfl)).step (.commit rfl)
    have h6 := ((h5.step (.appendHeader rfl rfl (by decide +kernel) rfl)).step
      (.appendTransactions rfl rfl rfl rfl)).step (.commit rfl)
    have h7 := (h6.step (.appendHeader rfl rfl (by decide +kernel) rfl)).step
      (.complete rfl rfl (by decide +kernel) rfl)
    refine ⟨_, h7, fun hexact => ?_⟩
    exact absurd (hexact (firstPath .ledger) _ rfl).2 (by decide +kernel)
  · intro category w hw
    cases category <;> cases hw <;> exact ⟨by decide, fun _ => by decide⟩

end Henyey.History
