import Henyey.History.CheckpointBuilder

/-!
# Runs of the checkpoint builder with crashes

The ledgers are appended one after the other and each checkpoint is completed at its last
ledger. A crash leaves some prefix of what was written to the unfinished files and some of
the renames done; it can fall into the recovery from an earlier crash.
-/

namespace Henyey.History

open Foundation

variable {E : Category → Type}

/-! ### The ledgers of the network -/

structure Ledger (E : Category → Type) where
  header : E .ledger
  transactions : Option (E .transactions × E .results)

/-- What a ledger adds to the file of a category. -/
def Ledger.entries (ledger : Ledger E) : (category : Category) → List (E category)
  | .ledger => [ledger.header]
  | .transactions => ledger.transactions.toList.map Prod.fst
  | .results => ledger.transactions.toList.map Prod.snd

/-- The ledgers of the network under their 32-bit numbers; each entry tells its ledger. -/
structure Chain (format : Format E) where
  ledger : Nat → Ledger E
  ledgerSeq : ∀ seq < 2 ^ 32, ∀ category, ∀ entry ∈ (ledger seq).entries category,
    format.ledgerSeq category entry = seq

def encodeAll {α : Type} (codec : Codec α) (entries : List α) : List UInt8 :=
  entries.flatMap (writeRecordMarkedXdr codec)

namespace Chain

variable {format : Format E} (chain : Chain format)

/-- The entries of a category from one ledger up to another, which is left out. -/
def upTo (category : Category) (first next : Nat) : List (E category) :=
  (List.range' first (next - first)).flatMap fun seq => (chain.ledger seq).entries category

/-- The file of a category with the entries of these ledgers. -/
def content (category : Category) (first next : Nat) : List UInt8 :=
  encodeAll (format.codec category) (chain.upTo category first next)

/-- The file of a whole checkpoint. -/
def checkpointContent (freq : CheckpointFrequency) (category : Category) (checkpoint : Nat) :
    List UInt8 :=
  chain.content category (freq.checkpointStart checkpoint) (checkpoint + 1)

end Chain

/-! ### Systems -/

/-- How far the ledger after the last committed one has come. -/
inductive Stage where
  /-- Nothing of it is appended. -/
  | ready
  /-- Its header is appended, its transactions are not. -/
  | headerAppended
  | appended
  /-- It ends a checkpoint, which is complete, but it is not committed. -/
  | completed
  /-- The last committed ledger ends a checkpoint, which is not complete. -/
  | committed
  deriving DecidableEq, Repr

/-- There is no builder while the process is down. -/
structure System where
  disk : Disk
  builder : Option CheckpointBuilder
  lcl : Nat
  stage : Stage

/-- Left by a crash of a file to which so much was written. -/
structure CutOf (file : Stream) (written : List UInt8) : Prop where
  isPrefix : file.bytes <+: written
  all_of_finished : file.ending = .finished → file.bytes = written

section Steps

variable {format : Format E} (freq : CheckpointFrequency) (chain : Chain format)

/-- No ledger of the next checkpoint is committed. -/
def CheckpointFrequency.Boundary (lcl : Nat) : Prop :=
  lcl = 0 ∨ freq.isCheckpointLedger lcl = true

def System.start (lcl : Nat) : System :=
  { disk := Disk.empty, builder := some CheckpointBuilder.new, lcl, stage := .ready }

/-- Every dirty file is among the files that a walk yields. -/
def Disk.ListedIn (d : Disk) (listing : Category → List Path) : Prop :=
  ∀ path, d.dirty path ≠ none → path ∈ listing path.category

/-- What the process does, and how far it comes with the recovery. -/
inductive Step (s : System) : System → Prop where
  | appendHeader {b b' : CheckpointBuilder} {d : Disk}
      (hbuilder : s.builder = some b) (hstage : s.stage = .ready) (hseq : s.lcl + 1 < 2 ^ 32)
      (happend : b.appendLedgerHeader freq format s.disk (chain.ledger (s.lcl + 1)).header
        (freq.checkpointLedger (s.lcl + 1)) = .ok (b', d)) :
      Step s { s with
        disk := d
        builder := some b'
        stage := if (chain.ledger (s.lcl + 1)).transactions.isSome then .headerAppended
          else .appended }
  | appendTransactions {b b' : CheckpointBuilder} {d : Disk} {tx : E .transactions}
      {result : E .results}
      (hbuilder : s.builder = some b) (hstage : s.stage = .headerAppended)
      (htransactions : (chain.ledger (s.lcl + 1)).transactions = some (tx, result))
      (happend : b.appendTransactionSet freq format s.disk tx result
        (freq.checkpointLedger (s.lcl + 1)) = .ok (b', d)) :
      Step s { s with disk := d, builder := some b', stage := .appended }
  | commit (hstage : s.stage = .appended) :
      Step s { s with
        lcl := s.lcl + 1
        stage := if freq.isCheckpointLedger (s.lcl + 1) then .committed else .ready }
  | commitCompleted (hstage : s.stage = .completed) :
      Step s { s with lcl := s.lcl + 1, stage := .ready }
  | complete {b b' : CheckpointBuilder} {d : Disk}
      (hbuilder : s.builder = some b) (hstage : s.stage = .appended)
      (hlast : freq.isCheckpointLedger (s.lcl + 1) = true)
      (hcomplete : b.checkpointComplete s.disk (s.lcl + 1) = .ok (b', d)) :
      Step s { s with disk := d, builder := some b', stage := .completed }
  | completeCommitted {b b' : CheckpointBuilder} {d : Disk}
      (hbuilder : s.builder = some b) (hstage : s.stage = .committed)
      (hcomplete : b.checkpointComplete s.disk s.lcl = .ok (b', d)) :
      Step s { s with disk := d, builder := some b', stage := .ready }
  /-- The recovery handles one file and then crashes. -/
  | recoverOne {path : Path} {d : Disk} (hdown : s.builder = none)
      (hhandle : handleDirtyFile format path s.lcl s.disk = .ok d) :
      Step s { s with disk := d }
  /-- The recovery crashes while it writes the second file. -/
  | recoverTorn {path : Path} {file left : Stream} {written : List UInt8}
      (hdown : s.builder = none) (hdirty : s.disk.dirty path = some file)
      (hrecover : recoverBytes format path s.lcl file = .ok written)
      (hleft : CutOf left written) :
      Step s { s with disk := s.disk.setDirty (truncatedPath path) (some left) }
  /-- The recovery crashes when some of the recovered files are renamed. -/
  | finalizeSome {listing : Category → List Path} {d d' : Disk} (finalized : List Category)
      (hdown : s.builder = none) (hlisted : s.disk.ListedIn listing)
      (hcleanup : cleanup format s.lcl listing s.disk = .ok d)
      (hlast : freq.isCheckpointLedger s.lcl = true)
      (hfinalize : finalized.foldlM (finalizeCategory freq s.lcl) d = .ok d') :
      Step s { s with disk := d' }
  | restart {listing : Category → List Path} {d d' : Disk}
      (hdown : s.builder = none) (hlisted : s.disk.ListedIn listing)
      (hcleanup : cleanup format s.lcl listing s.disk = .ok d)
      (hfinalize : (if freq.isCheckpointLedger s.lcl then
        finalizeRecoveredCheckpoint freq s.lcl d else .ok d) = .ok d') :
      Step s { s with
        disk := d'
        builder := some { CheckpointBuilder.new with startupValidated := true } }

/-- The files of the writers after a crash. -/
def CheckpointBuilder.wreck (b : CheckpointBuilder) (d : Disk) (left : Category → Stream) : Disk :=
  fileCategories.foldl (fun d category =>
    match b.writer category with
    | some w => d.setDirty w.dirtyPath (some (left category))
    | none => d) d

inductive Crash (s : System) : System → Prop where
  | writing {b : CheckpointBuilder} (left : Category → Stream) (hbuilder : s.builder = some b)
      (hleft : ∀ category w, b.writer category = some w → CutOf (left category) w.written) :
      Crash s { s with disk := b.wreck s.disk left, builder := none, stage := .ready }
  /-- While the files of a checkpoint are opened. -/
  | opening {b : CheckpointBuilder} {error : ReadError} (created : List Category)
      (hbuilder : s.builder = some b) (hstage : s.stage = .ready)
      (hclosed : b.currentCheckpoint = none) :
      Crash s { s with
        disk := created.foldl (fun d category =>
          d.setDirty (checkpointPath freq category (freq.checkpointLedger (s.lcl + 1)))
            (some ⟨[], .cut error⟩)) s.disk
        builder := none }
  /-- While the files of a complete checkpoint are renamed. -/
  | completing {b : CheckpointBuilder} {d : Disk} (renamed : List XdrStreamWriter)
      (hbuilder : s.builder = some b)
      (hlast : s.stage = .appended ∧ freq.isCheckpointLedger (s.lcl + 1) = true ∨
        s.stage = .committed)
      (hrenamed : ∀ w ∈ renamed, ∃ category, b.writer category = some w)
      (hrename : renamed.foldlM (fun d w => durableRename d w.dirtyPath)
        (b.finishAll s.disk) = .ok d) :
      Crash s { s with disk := d, builder := none, stage := .ready }

/-- The states of runs without an error, all of whose crashes leave a state of some kind. -/
inductive Reachable (left : System → Prop) : System → Prop where
  | start (lcl : Nat) (hlcl : lcl < 2 ^ 32) (hboundary : freq.Boundary lcl) :
      Reachable left (System.start lcl)
  | step {s s' : System} (hreachable : Reachable left s) (hstep : Step freq chain s s') :
      Reachable left s'
  | crash {s s' : System} (hreachable : Reachable left s) (hcrash : Crash freq s s')
      (hleft : left s') : Reachable left s'

/-- Every finished file holds the entries of all ledgers of its checkpoint and no others. -/
def Disk.Exact (d : Disk) : Prop :=
  ∀ path file, d.final path = some file → path.truncated = 0 ∧
    file = Stream.whole (chain.checkpointContent freq path.category path.checkpoint)

/-! ### What a crash may leave -/

/-- The recovery refuses this file. -/
def Disk.RefusedAt (format : Format E) (lcl : Nat) (path : Path) (d : Disk) : Prop :=
  ∃ file error, d.dirty path = some file ∧ d.final path = none ∧
    recoverBytes format path lcl file = .error error

/-- The file of the checkpoint that the last committed ledger ends is renamed or keeps all
its entries. -/
def Disk.IntactAt (lcl : Nat) (category : Category) (d : Disk) : Prop :=
  ∀ file, d.dirty (checkpointPath freq category lcl) = some file →
    d.final (checkpointPath freq category lcl) = none →
    file.bytes = chain.checkpointContent freq category lcl

/-- The crash falls between two checkpoints and cuts no entry of the checkpoint before it,
or it leaves a file that the recovery refuses. -/
def System.Harmless (s : System) : Prop :=
  (∃ path, path.truncated = 0 ∧ s.disk.RefusedAt format s.lcl path) ∨
  (freq.Boundary s.lcl ∧ (freq.isCheckpointLedger s.lcl = true →
    ∀ category, s.disk.IntactAt freq chain s.lcl category))

end Steps

end Henyey.History
