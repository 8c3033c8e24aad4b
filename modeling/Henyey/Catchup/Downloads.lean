import Henyey.Catchup.Verified

/-!
# What a download leaves alone

Asking an archive changes nothing but the number of requests. The headers of a gap come one
for each ledger.
-/

namespace Henyey.Catchup

open Foundation Triple List
open History (CheckpointFrequency)
open Triple

variable {H T R D X S : Type} [DecidableEq H] {answers : Answers H T R X}
  {format : Format H T R D X} {archives : Nat} {pinned : Option Nat}
  {freq : CheckpointFrequency}

/-- A condition that does not depend on the number of requests. -/
def Unasked (kept : World H X S → Prop) : Prop :=
  ∀ world requests, kept world → kept { world with requests }

variable {kept : World H X S → Prop}

section

omit [DecidableEq H]

theorem triple_request {α : Type} (hunasked : Unasked kept) (answer : Nat → α) :
    Triple kept (request answer) (fun _ => kept) kept :=
  fun start hstart => hunasked start _ hstart

theorem triple_check {α : Type} (result : Except HistoryError α) :
    Triple kept (check result) (fun value reached => result = .ok value ∧ kept reached) kept := by
  cases result with
  | ok value => exact pure fun start hstart => ⟨rfl, hstart⟩
  | error error => exact throw fun start hstart => hstart

theorem triple_headerSnapshot :
    Triple kept headerSnapshot (fun snapshot reached => kept reached ∧
      snapshot.header = reached.manager.header ∧ snapshot.hash = reached.manager.headerHash)
      kept :=
  fun _ hstart => ⟨hstart, rfl, rfl⟩

theorem triple_fromArchives {α : Type} {download : Nat → Catchup H X S (Option α)}
    (hdownload : ∀ archive, Triple kept (download archive) (fun _ => kept) kept)
    (archives : List Nat) : Triple kept (fromArchives download archives) (fun _ => kept) kept := by
  induction archives with
  | nil => exact throw fun start hstart => hstart
  | cons archive rest ih =>
    refine bind (hdownload archive) fun answer => ?_
    cases answer with
    | none => exact ih
    | some value => exact pure fun start hstart => hstart

end

theorem triple_tryDownloadCheckpoint (hunasked : Unasked kept) (archive checkpoint : Nat) :
    Triple kept (tryDownloadCheckpoint answers format archive checkpoint) (fun _ => kept) kept := by
  have hnone : Triple kept (pure none : Catchup H X S (Option (CheckpointLedgerData H T R X)))
      (fun _ => kept) kept := pure fun start hstart => hstart
  refine bind (triple_request hunasked _) fun headers => ?_
  cases headers with
  | none => exact hnone
  | some headers =>
    dsimp only
    split
    · exact hnone
    refine bind (triple_request hunasked _) fun txEntries => ?_
    cases txEntries with
    | none => exact hnone
    | some txEntries =>
      refine bind (triple_request hunasked _) fun resultEntries => ?_
      cases resultEntries with
      | none => exact hnone
      | some resultEntries => exact pure fun start hstart => hstart

theorem triple_downloadCheckpointLedgerData (hunasked : Unasked kept) (checkpoint : Nat) :
    Triple kept (downloadCheckpointLedgerData answers format archives pinned checkpoint)
      (fun _ => kept) kept :=
  bind (triple_fromArchives (fun archive =>
    triple_tryDownloadCheckpoint hunasked archive checkpoint) _) fun _ =>
      pure fun _ hstart => hstart

theorem triple_downloadCheckpointHeader (hunasked : Unasked kept) (ledgerSeq : Nat) :
    Triple kept (downloadCheckpointHeader answers format archives pinned ledgerSeq)
      (fun _ => kept) kept := by
  refine bind (triple_fromArchives (fun archive => ?_) _) fun _ =>
    pure fun _ hstart => hstart
  refine bind (triple_request hunasked _) fun headers => ?_
  cases headers with
  | none => exact pure fun _ hstart => hstart
  | some headers =>
    dsimp only
    split
    · exact pure fun _ hstart => hstart
    split
    · exact pure fun _ hstart => hstart
    · exact pure fun _ hstart => hstart

/-! ### The ledgers of a batch -/

theorem triple_collectLedger (data : CheckpointLedgerData H T R X) (applyStart : Nat)
    (collected : List (LedgerData H T R X) × LclContext H) (seq : Nat) :
    Triple kept (collectLedger format data applyStart collected seq) (fun _ => kept) kept := by
  unfold collectLedger
  dsimp only
  split
  · exact pure fun _ hstart => hstart
  split
  · refine bind (weaken (triple_check _) (fun _ _ hreached => hreached.2)) fun ledger => ?_
    exact pure fun _ hstart => hstart
  · exact throw fun _ hstart => hstart

theorem triple_downloadLedgerData (hunasked : Unasked kept) (fromLedger toLedger : Nat)
    (initialLcl : LclContext H) :
    Triple kept (downloadLedgerData freq answers format archives pinned fromLedger toLedger
      initialLcl) (fun _ => kept) kept := by
  have hledgers : ∀ currentLcl : LclContext H, Triple kept (do
      let collected ← (ledgersByCheckpoint freq (knitStart freq fromLedger) toLedger).foldlM
        (fun collected group => do
          let data ← downloadCheckpointLedgerData answers format archives pinned
            (freq.checkpointLedger (group.head?.getD 0))
          group.foldlM (collectLedger format data (fromLedger + 1)) collected)
        ([], currentLcl)
      pure collected.1 : Catchup H X S (List (LedgerData H T R X))) (fun _ => kept) kept := by
    intro currentLcl
    refine bind (keeps_foldlM _ (fun group _ collected => ?_) _) fun _ =>
      pure fun _ hstart => hstart
    refine bind (triple_downloadCheckpointLedgerData hunasked _) fun data => ?_
    exact keeps_foldlM _ (fun seq _ collected => triple_collectLedger data _ collected seq) _
  unfold downloadLedgerData
  dsimp only
  split
  · exact pure fun _ hstart => hstart
  split
  · refine bind (triple_downloadCheckpointHeader hunasked fromLedger) fun found => ?_
    exact hledgers _
  · exact hledgers _

/-! ### The headers of the gap -/

omit [DecidableEq H] in
theorem ledgerSeq_of_headerOf {data : CheckpointLedgerData H T R X} {seq : Nat}
    {entry : LedgerHeaderHistoryEntry H X} (hfound : data.headerOf seq = some entry) :
    entry.header.ledgerSeq = seq := by
  have hseq := find?_some hfound
  exact beq_iff_eq.mp hseq

/-- The headers collected so far are those of the ledgers that are to be applied. -/
def Collected (kept : World H X S → Prop) (applyStart : Nat) (seqs : List Nat)
    (collected : List (LedgerHeader H X) × List (LedgerHeaderHistoryEntry H X))
    (world : World H X S) : Prop :=
  collected.1.map LedgerHeader.ledgerSeq = seqs.filter (applyStart ≤ ·) ∧ kept world

theorem triple_collectHeader (data : CheckpointLedgerData H T R X) (applyStart : Nat)
    (seqs : List Nat) (collected : List (LedgerHeader H X) × List (LedgerHeaderHistoryEntry H X))
    (seq : Nat) :
    Triple (Collected kept applyStart seqs collected)
      (collectHeader data applyStart collected seq)
      (Collected kept applyStart (seqs ++ [seq])) kept := by
  unfold collectHeader
  obtain ⟨headers, knitEntries⟩ := collected
  dsimp only
  split
  next hbefore =>
    refine pure fun start hstart => ⟨?_, hstart.2⟩
    rw [filter_append, hstart.1.symm]
    simp [hbefore]
  next hafter =>
    split
    next entry hentry =>
      refine pure fun start hstart => ⟨?_, hstart.2⟩
      have hseqs := hstart.1
      dsimp only at hseqs
      rw [filter_append, ← hseqs, map_append, map_singleton, ledgerSeq_of_headerOf hentry]
      simp [not_lt.mp hafter]
    · exact throw fun _ hstart => hstart.2

theorem triple_collectHeaders (data : CheckpointLedgerData H T R X) (applyStart : Nat)
    (group : List Nat) (seqs : List Nat)
    (collected : List (LedgerHeader H X) × List (LedgerHeaderHistoryEntry H X)) :
    Triple (Collected kept applyStart seqs collected)
      (group.foldlM (collectHeader data applyStart) collected)
      (Collected kept applyStart (seqs ++ group)) kept := by
  induction group generalizing seqs collected with
  | nil =>
    rw [append_nil]
    exact pure fun _ hstart => hstart
  | cons seq rest ih =>
    rw [foldlM_cons]
    refine bind (triple_collectHeader data applyStart seqs collected seq) fun next => ?_
    have hrest := ih (seqs ++ [seq]) next
    rwa [append_assoc] at hrest

theorem triple_collectGroups (hunasked : Unasked kept) (applyStart : Nat) (groups : List (List Nat))
    (seqs : List Nat) (collected : List (LedgerHeader H X) × List (LedgerHeaderHistoryEntry H X)) :
    Triple (Collected kept applyStart seqs collected)
      (groups.foldlM (fun collected group => do
        let data ← downloadCheckpointLedgerData answers format archives pinned
          (freq.checkpointLedger (group.head?.getD 0))
        group.foldlM (collectHeader data applyStart) collected) collected)
      (Collected kept applyStart (seqs ++ groups.flatten)) kept := by
  induction groups generalizing seqs collected with
  | nil =>
    rw [flatten_nil, append_nil]
    exact pure fun _ hstart => hstart
  | cons group rest ih =>
    rw [foldlM_cons]
    refine bind (through (fun _ => Collected kept applyStart seqs collected)
      ?_ fun data => triple_collectHeaders data applyStart group seqs collected) fun next => ?_
    · have hasked : Unasked (Collected kept applyStart seqs collected) :=
        fun world requests hworld => ⟨hworld.1, hunasked world requests hworld.2⟩
      exact failing (triple_downloadCheckpointLedgerData hasked _) fun _ hreached => hreached.2
    · have hrest := ih (seqs ++ group) next
      rwa [append_assoc] at hrest

theorem filter_range' {first applyStart toLedger : Nat} (hfirst : first ≤ applyStart)
    (happly : applyStart ≤ toLedger) :
    (range' first (toLedger + 1 - first)).filter (applyStart ≤ ·) =
      range' applyStart (toLedger + 1 - applyStart) := by
  have hlength : toLedger + 1 - first = (applyStart - first) + (toLedger + 1 - applyStart) := by
    omega
  have hsplit : applyStart = first + 1 * (applyStart - first) := by omega
  rw [hlength, ← range'_append, filter_append, ← hsplit, filter_eq_nil_iff.mpr,
    nil_append, filter_eq_self.mpr]
  · intro seq hseq
    obtain ⟨i, -, rfl⟩ := mem_range'.mp hseq
    simp
  · intro seq hseq
    obtain ⟨i, hi, rfl⟩ := mem_range'.mp hseq
    simp only [decide_eq_true_eq]
    omega

theorem knitStart_le (freq : CheckpointFrequency) (fromLedger : Nat) :
    knitStart freq fromLedger ≤ fromLedger + 1 := by
  unfold knitStart
  dsimp only
  split
  · exact Nat.le_refl _
  · have hstart : freq.checkpointStart (fromLedger + 1) ≤ fromLedger + 1 := by
      unfold CheckpointFrequency.checkpointStart
      split
      · omega
      · exact Nat.div_mul_le_self _ _
    omega

theorem triple_downloadLedgerHeaders (hunasked : Unasked kept) (fromLedger toLedger : Nat) :
    Triple kept (downloadLedgerHeaders freq answers format archives pinned fromLedger toLedger)
      (fun collected reached => kept reached ∧ collected.1.map LedgerHeader.ledgerSeq =
        range' (fromLedger + 1) (toLedger - fromLedger)) kept := by
  unfold downloadLedgerHeaders
  dsimp only
  split
  next hnone =>
    refine pure fun start hstart => ⟨hstart, ?_⟩
    rw [Nat.sub_eq_zero_of_le (by omega)]
    rfl
  next hsome =>
    refine consequence (triple_collectGroups hunasked (fromLedger + 1) _ [] ([], []))
      (fun start hstart => ⟨rfl, hstart⟩) ?_ fun _ hreached => hreached
    rintro collected reached ⟨hseqs, hkept⟩
    refine ⟨hkept, ?_⟩
    rw [hseqs, nil_append, ledgersByCheckpoint, flatten_splitBy,
      filter_range' (knitStart_le freq fromLedger) (by omega), Nat.add_sub_add_right]

end Henyey.Catchup
