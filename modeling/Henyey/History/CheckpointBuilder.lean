import Henyey.Foundation.ByteStream

/-!
# Building checkpoint files

The headers, transactions and results of the ledgers of a checkpoint are written to dirty
files, which are renamed when the checkpoint is complete. On startup the dirty files that
a crash left behind are cut at the last committed ledger.
-/

namespace Henyey.History

open Foundation

/-! ### Checkpoint arithmetic -/

/-- `checkpoint_frequency()`: 64, or 8 when time is accelerated. -/
structure CheckpointFrequency where
  value : Nat
  pos : 0 < value

def defaultCheckpointFrequency : CheckpointFrequency :=
  { value := 64, pos := by decide }

def acceleratedCheckpointFrequency : CheckpointFrequency :=
  { value := 8, pos := by decide }

namespace CheckpointFrequency

variable (freq : CheckpointFrequency)

def checkpointLedger (seq : Nat) : Nat :=
  seq / freq.value * freq.value + (freq.value - 1)

def isCheckpointLedger (seq : Nat) : Bool :=
  (seq + 1) % freq.value == 0

/-- The first ledger of the checkpoint of a ledger. -/
def checkpointStart (seq : Nat) : Nat :=
  if seq < freq.value then 1 else seq / freq.value * freq.value

end CheckpointFrequency

/-! ### Files -/

inductive Category where
  | ledger
  | transactions
  | results
  deriving DecidableEq, Repr

def fileCategories : List Category :=
  [.ledger, .transactions, .results]

/-- The name of a file of the publish directory, less the suffix of dirty files. The copy
that recovery writes has a further `truncated-` in front of the name. -/
structure Path where
  truncated : Nat
  category : Category
  checkpoint : Nat
  deriving DecidableEq, Repr

def checkpointPath (freq : CheckpointFrequency) (category : Category) (ledger : Nat) : Path :=
  { truncated := 0, category, checkpoint := freq.checkpointLedger ledger }

/-- The dirty and the final files, as the gzip decoder delivers them. -/
structure Disk where
  dirty : Path → Option Stream
  final : Path → Option Stream

namespace Disk

def empty : Disk :=
  { dirty := fun _ => none, final := fun _ => none }

def setDirty (d : Disk) (path : Path) (file : Option Stream) : Disk :=
  { d with dirty := Function.update d.dirty path file }

def setFinal (d : Disk) (path : Path) (file : Option Stream) : Disk :=
  { d with final := Function.update d.final path file }

end Disk

inductive HistoryError where
  | checkpointMismatch (building asked : Nat)
  | notBuilding (asked : Nat) (building : Option Nat)
  | corruptCheckpointFile (path : Path) (endsOn lcl : Nat)
  | io
  deriving DecidableEq, Repr

/-- Rename a dirty file to its final name. -/
def durableRename (d : Disk) (path : Path) : Except HistoryError Disk :=
  match d.dirty path with
  | none => .error .io
  | some file => .ok ((d.setFinal path (some file)).setDirty path none)

/-! ### Records -/

section Records

variable {α : Type}

def paddingOf (len : Nat) : Nat :=
  (4 - len % 4) % 4

def writeRecordMarkedXdr (codec : Codec α) (entry : α) : List UInt8 :=
  let xdrBytes := codec.encode entry
  let len := xdrBytes.length % 2 ^ 32
  beBytes (len ||| 0x80000000) ++ (xdrBytes ++ List.replicate (paddingOf len) 0)

/-- The next record, or nothing at the end of the file. -/
def readOneFromGz (codec : Codec α) (reader : Stream) : Except ReadError (Option (α × Stream)) :=
  match reader.readExact 4 with
  | .error .unexpectedEof => .ok none
  | .error error => .error error
  | .ok (header, reader) =>
    let len := ofBeBytes header &&& 0x7FFFFFFF
    match reader.readExact len with
    | .error error => .error error
    | .ok (payload, reader) =>
      match reader.readExact (paddingOf len) with
      | .error error => .error error
      | .ok (_, reader) =>
        match codec.decode payload with
        | none => .error .other
        | some value => .ok (some (value, reader))

theorem length_of_readOneFromGz {codec : Codec α} {reader reached : Stream} {entry : α}
    (hread : readOneFromGz codec reader = .ok (some (entry, reached))) :
    reached.bytes.length < reader.bytes.length := by
  unfold readOneFromGz at hread
  split at hread
  · cases hread
  · cases hread
  next header afterHeader hheader =>
    have hfour := Stream.length_of_readExact hheader
    dsimp only at hread
    split at hread
    · cases hread
    next payload afterPayload hpayload =>
      have hlen := Stream.length_of_readExact hpayload
      split at hread
      · cases hread
      next padding afterPadding hpadding =>
        have hpad := Stream.length_of_readExact hpadding
        split at hread
        · cases hread
        · cases hread
          omega

/-- The loop of `recover_dirty_file`: copy the records up to the last committed ledger. -/
def recoverEntries (codec : Codec α) (getLedgerSeq : α → Nat) (dirtyPath : Path) (lcl : Nat)
    (enforceLcl : Bool) (lastReadLedgerSeq : Nat) (written : List UInt8) (reader : Stream) :
    Except HistoryError (List UInt8) :=
  match _h : readOneFromGz codec reader with
  | .ok (some (entry, rest)) =>
    let seq := getLedgerSeq entry
    if lcl < seq then
      .ok written
    else
      recoverEntries codec getLedgerSeq dirtyPath lcl enforceLcl seq
        (written ++ writeRecordMarkedXdr codec entry) rest
  | .ok none =>
    if enforceLcl && lastReadLedgerSeq != 0 && lastReadLedgerSeq != lcl then
      .error (.corruptCheckpointFile dirtyPath lastReadLedgerSeq lcl)
    else
      .ok written
  -- a partial write: the file is cut here, and nothing is enforced
  | .error _ => .ok written
termination_by reader.bytes.length
decreasing_by exact length_of_readOneFromGz _h

end Records

/-! ### The builder -/

/-- The records of the three kinds of files. -/
structure Format (E : Category → Type) where
  codec : (category : Category) → Codec (E category)
  ledgerSeq : (category : Category) → E category → Nat

def enforceLcl : Category → Bool
  | .ledger => true
  | .transactions => false
  | .results => false

structure XdrStreamWriter where
  dirtyPath : Path
  finalPath : Path
  /-- What was handed to the encoder; how much of it has reached the disk is not known. -/
  written : List UInt8
  entryCount : Nat
  lastLedger : Nat
  deriving DecidableEq

/-- The writers of the headers, the transactions and the results are indexed by their
category. -/
structure CheckpointBuilder where
  currentCheckpoint : Option Nat
  writer : Category → Option XdrStreamWriter
  startupValidated : Bool

namespace XdrStreamWriter

def new (path : Path) : XdrStreamWriter :=
  { dirtyPath := path, finalPath := path, written := [], entryCount := 0, lastLedger := 0 }

def writeXdr {α : Type} (codec : Codec α) (w : XdrStreamWriter) (entry : α) (ledgerSeq : Nat) :
    XdrStreamWriter :=
  { w with
    written := w.written ++ writeRecordMarkedXdr codec entry
    entryCount := w.entryCount + 1
    lastLedger := ledgerSeq }

end XdrStreamWriter

/-- An opened file is created, or truncated when it is there. -/
def Disk.openDirty (d : Disk) (path : Path) : Disk :=
  d.setDirty path (some ⟨[], .cut .unexpectedEof⟩)

namespace CheckpointBuilder

def new : CheckpointBuilder :=
  { currentCheckpoint := none, writer := fun _ => none, startupValidated := false }

section Appending

variable {E : Category → Type} (freq : CheckpointFrequency) (format : Format E)

def ensureOpen (b : CheckpointBuilder) (d : Disk) (checkpoint : Nat) :
    Except HistoryError (CheckpointBuilder × Disk) :=
  match b.currentCheckpoint with
  | some current =>
    if current ≠ checkpoint then
      .error (.checkpointMismatch current checkpoint)
    else
      .ok (b, d)
  | none =>
    let path := fun category => checkpointPath freq category checkpoint
    .ok ({ b with
            currentCheckpoint := some checkpoint
            writer := fun category => some (.new (path category)) },
      fileCategories.foldl (fun d category => d.openDirty (path category)) d)

def write (b : CheckpointBuilder) (category : Category) (entry : E category) (ledgerSeq : Nat) :
    CheckpointBuilder :=
  { b with
    writer := Function.update b.writer category
      ((b.writer category).map fun w => w.writeXdr (format.codec category) entry ledgerSeq) }

def appendLedgerHeader (b : CheckpointBuilder) (d : Disk) (header : E .ledger)
    (checkpoint : Nat) : Except HistoryError (CheckpointBuilder × Disk) := do
  let (b, d) ← b.ensureOpen freq d checkpoint
  let ledgerSeq := format.ledgerSeq .ledger header
  return (b.write format .ledger header ledgerSeq, d)

def appendTransactionSet (b : CheckpointBuilder) (d : Disk) (txEntry : E .transactions)
    (resultEntry : E .results) (checkpoint : Nat) :
    Except HistoryError (CheckpointBuilder × Disk) := do
  let (b, d) ← b.ensureOpen freq d checkpoint
  let ledgerSeq := format.ledgerSeq .transactions txEntry
  return ((b.write format .transactions txEntry ledgerSeq).write format .results resultEntry
    ledgerSeq, d)

end Appending

/-- The stream is ended and synced. -/
def finishAll (b : CheckpointBuilder) (d : Disk) : Disk :=
  (fileCategories.filterMap b.writer).foldl
    (fun d w => d.setDirty w.dirtyPath (some (Stream.whole w.written))) d

def checkpointComplete (b : CheckpointBuilder) (d : Disk) (checkpoint : Nat) :
    Except HistoryError (CheckpointBuilder × Disk) :=
  if b.currentCheckpoint ≠ some checkpoint then
    .error (.notBuilding checkpoint b.currentCheckpoint)
  else do
    let writers := fileCategories.filterMap b.writer
    let d ← writers.foldlM (fun d w => durableRename d w.dirtyPath) (b.finishAll d)
    return ({ b with currentCheckpoint := none, writer := fun _ => none }, d)

end CheckpointBuilder

/-! ### Recovery -/

section Recovery

variable {E : Category → Type} (freq : CheckpointFrequency) (format : Format E)

def truncatedPath (dirtyPath : Path) : Path :=
  { dirtyPath with truncated := dirtyPath.truncated + 1 }

def recoverBytes (dirtyPath : Path) (lcl : Nat) (file : Stream) :
    Except HistoryError (List UInt8) :=
  recoverEntries (format.codec dirtyPath.category) (format.ledgerSeq dirtyPath.category)
    dirtyPath lcl (enforceLcl dirtyPath.category) 0 [] file

/-- The records that are kept go to a second file, which then takes the place of the
first. -/
def recoverDirtyFile (dirtyPath : Path) (lcl : Nat) (file : Stream) (d : Disk) :
    Except HistoryError Disk :=
  match recoverBytes format dirtyPath lcl file with
  | .error error => .error error
  | .ok written =>
    .ok ((d.setDirty (truncatedPath dirtyPath) none).setDirty dirtyPath
      (some (Stream.whole written)))

def handleDirtyFile (dirtyPath : Path) (lcl : Nat) (d : Disk) : Except HistoryError Disk :=
  match d.dirty dirtyPath, d.final dirtyPath with
  | some _, some _ => .ok (d.setDirty dirtyPath none)
  | some file, none => recoverDirtyFile format dirtyPath lcl file d
  | none, _ => .ok d

/-- Handle the dirty files of the three directories, in the order in which a walk through
each directory yields them. -/
def cleanup (lcl : Nat) (listing : Category → List Path) (d : Disk) : Except HistoryError Disk :=
  (fileCategories.flatMap listing).foldlM (fun d path => handleDirtyFile format path lcl d) d

/-- Rename the recovered file of a category unless its final file is there. -/
def finalizeCategory (checkpoint : Nat) (d : Disk) (category : Category) :
    Except HistoryError Disk :=
  let path := checkpointPath freq category checkpoint
  match d.dirty path, d.final path with
  | none, _ => .ok d
  | some _, some _ => .ok d
  | some _, none => durableRename d path

def finalizeRecoveredCheckpoint (checkpoint : Nat) (d : Disk) : Except HistoryError Disk :=
  fileCategories.foldlM (finalizeCategory freq checkpoint) d

end Recovery

end Henyey.History
