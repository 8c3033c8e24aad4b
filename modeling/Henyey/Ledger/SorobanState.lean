import Henyey.Foundation.Tally
import Henyey.Ledger.Entry

/-!
# The Soroban state in memory

Contract data and code are held by the hash of their key, each with its TTL inside.
A TTL that arrives before its entry waits for it. The sizes of data and code are
counted along.
-/

namespace Henyey.Ledger

open Foundation

/-- A TTL as it is kept inside its entry. -/
structure TtlData where
  liveUntilLedgerSeq : U32
  lastModifiedLedgerSeq : U32
deriving DecidableEq

instance : Inhabited TtlData where
  default := ⟨0, 0⟩

/-- A TTL of zero counts as none. -/
def TtlData.isInitialized (ttlData : TtlData) : Bool := ttlData.liveUntilLedgerSeq > 0

structure ContractDataMapEntry (I D : Type) where
  ledgerEntry : LedgerEntry I D
  ttlData : TtlData
deriving DecidableEq

structure ContractCodeMapEntry (I D : Type) where
  ledgerEntry : LedgerEntry I D
  ttlData : TtlData
  sizeBytes : Nat
  cachedXdrSize : Nat
deriving DecidableEq

inductive SorobanStateError where
  | invalidEntry (message : String)
  | invalidSequence (expected actual : Nat)
deriving DecidableEq

/-- Hashing and encoding, and what the hosts of the protocol versions say about the
size of code under a rent configuration. -/
structure SorobanCodec (I D R : Type) where
  hashXdr : LedgerKey I → I
  xdrEncodedLen : LedgerEntry I D → Nat
  entrySizeForRentP24 : Nat → LedgerEntry I D → Nat → Option R → Nat
  entrySizeForRentP25 : Option R → LedgerEntry I D → Nat → Option Nat
  entrySizeForRentP26 : Option R → LedgerEntry I D → Nat → Option Nat
  entrySizeForRentP27 : Option R → LedgerEntry I D → Nat → Option Nat

variable {I D R : Type}

/-- The size of code in memory; the encoded size where a host has none. -/
def SorobanCodec.calculateCodeSize (codec : SorobanCodec I D R) (entry : LedgerEntry I D)
    (xdrSize protocolVersion : Nat) (rentConfig : Option R) : Nat :=
  if protocolVersion < 25 then codec.entrySizeForRentP24 protocolVersion entry xdrSize rentConfig
  else if protocolVersion < 26 then
    (codec.entrySizeForRentP25 rentConfig entry xdrSize).getD xdrSize
  else if protocolVersion < 27 then
    (codec.entrySizeForRentP26 rentConfig entry xdrSize).getD xdrSize
  else (codec.entrySizeForRentP27 rentConfig entry xdrSize).getD xdrSize

/-- The maps share their shards with snapshots until they are written to; they are
modelled by what they hold. -/
structure InMemorySorobanState (I D : Type) where
  contractDataEntries : Table I (ContractDataMapEntry I D)
  contractCodeEntries : Table I (ContractCodeMapEntry I D)
  configSettings : Table I (LedgerEntry I D)
  pendingTtls : Table I TtlData
  lastClosedLedgerSeq : Nat
  contractDataStateSize : Int
  contractCodeStateSize : Int

namespace InMemorySorobanState

def new : InMemorySorobanState I D where
  contractDataEntries := ∅
  contractCodeEntries := ∅
  configSettings := ∅
  pendingTtls := ∅
  lastClosedLedgerSeq := 0
  contractDataStateSize := 0
  contractCodeStateSize := 0

variable (s : InMemorySorobanState I D)

/-- A clone without the TTLs that wait. -/
def snapshot : InMemorySorobanState I D :=
  { s with pendingTtls := ∅ }

def setLastClosedLedgerSeq (ledgerSeq : Nat) : InMemorySorobanState I D :=
  { s with lastClosedLedgerSeq := ledgerSeq }

variable [DecidableEq I] (codec : SorobanCodec I D R)

/-- The TTL entry that the data kept inside an entry stands for. -/
def getTtlEntry (keyHash : I) : Option (LedgerEntry I D) :=
  let ttlData := ((s.contractDataEntries.lookup keyHash).map (·.ttlData)).or
    ((s.contractCodeEntries.lookup keyHash).map (·.ttlData))
  ttlData.map fun ttlData =>
    { lastModifiedLedgerSeq := ttlData.lastModifiedLedgerSeq
      data := .ttl keyHash ttlData.liveUntilLedgerSeq
      sponsoringId := none }

def get (key : LedgerKey I) : Option (LedgerEntry I D) :=
  match key with
  | .contractData .. => (s.contractDataEntries.lookup (codec.hashXdr key)).map (·.ledgerEntry)
  | .contractCode _ => (s.contractCodeEntries.lookup (codec.hashXdr key)).map (·.ledgerEntry)
  | .ttl keyHash => s.getTtlEntry keyHash
  | .configSetting configSettingId => s.configSettings.lookup configSettingId
  | _ => none

/-! ### Single entries -/

def createContractData (key : LedgerKey I) (entry : LedgerEntry I D) :
    Except SorobanStateError (InMemorySorobanState I D) :=
  let keyHash := codec.hashXdr key
  if (s.contractDataEntries.lookup keyHash).isSome then
    .error (.invalidEntry "contract data already exists")
  else
    let ttlData := (s.pendingTtls.lookup keyHash).getD default
    .ok { s with
      pendingTtls := s.pendingTtls.erase keyHash
      contractDataEntries := s.contractDataEntries.insert keyHash ⟨entry, ttlData⟩
      contractDataStateSize := s.contractDataStateSize + codec.xdrEncodedLen entry }

def updateContractData (key : LedgerKey I) (entry : LedgerEntry I D) :
    Except SorobanStateError (InMemorySorobanState I D) :=
  let keyHash := codec.hashXdr key
  match s.contractDataEntries.lookup keyHash with
  | none => .error (.invalidEntry "contract data does not exist")
  | some oldEntry => .ok { s with
      contractDataEntries := s.contractDataEntries.insert keyHash ⟨entry, oldEntry.ttlData⟩
      contractDataStateSize := s.contractDataStateSize +
        ((codec.xdrEncodedLen entry : Int) - codec.xdrEncodedLen oldEntry.ledgerEntry) }

def deleteContractData (key : LedgerKey I) : Except SorobanStateError (InMemorySorobanState I D) :=
  let keyHash := codec.hashXdr key
  match s.contractDataEntries.lookup keyHash with
  | none => .error (.invalidEntry "contract data does not exist")
  | some oldEntry => .ok { s with
      contractDataEntries := s.contractDataEntries.erase keyHash
      contractDataStateSize :=
        s.contractDataStateSize - codec.xdrEncodedLen oldEntry.ledgerEntry }

def createContractCode (key : LedgerKey I) (entry : LedgerEntry I D) (protocolVersion : Nat)
    (rentConfig : Option R) : Except SorobanStateError (InMemorySorobanState I D) :=
  let keyHash := codec.hashXdr key
  if (s.contractCodeEntries.lookup keyHash).isSome then
    .error (.invalidEntry "contract code already exists")
  else
    let ttlData := (s.pendingTtls.lookup keyHash).getD default
    let xdrSize := codec.xdrEncodedLen entry
    let sizeBytes := codec.calculateCodeSize entry xdrSize protocolVersion rentConfig
    .ok { s with
      pendingTtls := s.pendingTtls.erase keyHash
      contractCodeEntries :=
        s.contractCodeEntries.insert keyHash ⟨entry, ttlData, sizeBytes, xdrSize⟩
      contractCodeStateSize := s.contractCodeStateSize + sizeBytes }

def updateContractCode (key : LedgerKey I) (entry : LedgerEntry I D) (protocolVersion : Nat)
    (rentConfig : Option R) : Except SorobanStateError (InMemorySorobanState I D) :=
  let keyHash := codec.hashXdr key
  let xdrSize := codec.xdrEncodedLen entry
  let newSize := codec.calculateCodeSize entry xdrSize protocolVersion rentConfig
  match s.contractCodeEntries.lookup keyHash with
  | none => .error (.invalidEntry "contract code does not exist")
  | some oldEntry => .ok { s with
      contractCodeEntries :=
        s.contractCodeEntries.insert keyHash ⟨entry, oldEntry.ttlData, newSize, xdrSize⟩
      contractCodeStateSize :=
        s.contractCodeStateSize + ((newSize : Int) - oldEntry.sizeBytes) }

def deleteContractCode (key : LedgerKey I) : Except SorobanStateError (InMemorySorobanState I D) :=
  let keyHash := codec.hashXdr key
  match s.contractCodeEntries.lookup keyHash with
  | none => .error (.invalidEntry "contract code does not exist")
  | some oldEntry => .ok { s with
      contractCodeEntries := s.contractCodeEntries.erase keyHash
      contractCodeStateSize := s.contractCodeStateSize - oldEntry.sizeBytes }

/-- A TTL goes into the entry it belongs to, or waits for that entry. -/
def createTtl (keyHash : I) (ttlData : TtlData) :
    Except SorobanStateError (InMemorySorobanState I D) :=
  match s.contractDataEntries.lookup keyHash with
  | some entry =>
    if entry.ttlData.isInitialized then
      .error (.invalidEntry "contract data TTL already initialized")
    else .ok { s with
      contractDataEntries := s.contractDataEntries.insert keyHash { entry with ttlData } }
  | none =>
    match s.contractCodeEntries.lookup keyHash with
    | some entry =>
      if entry.ttlData.isInitialized then
        .error (.invalidEntry "contract code TTL already initialized")
      else .ok { s with
        contractCodeEntries := s.contractCodeEntries.insert keyHash { entry with ttlData } }
    | none =>
      if (s.pendingTtls.lookup keyHash).isSome then
        .error (.invalidEntry "pending TTL already exists")
      else .ok { s with pendingTtls := s.pendingTtls.insert keyHash ttlData }

def updateTtl (keyHash : I) (ttlData : TtlData) :
    Except SorobanStateError (InMemorySorobanState I D) :=
  match s.contractDataEntries.lookup keyHash with
  | some entry => .ok { s with
      contractDataEntries := s.contractDataEntries.insert keyHash { entry with ttlData } }
  | none =>
    match s.contractCodeEntries.lookup keyHash with
    | some entry => .ok { s with
        contractCodeEntries := s.contractCodeEntries.insert keyHash { entry with ttlData } }
    | none => .error (.invalidEntry "TTL update missing contract data/code entry")

/-! ### Ledgers -/

def processEntryCreate (protocolVersion : Nat) (rentConfig : Option R)
    (s : InMemorySorobanState I D) (entry : LedgerEntry I D) :
    Except SorobanStateError (InMemorySorobanState I D) :=
  match entry.data with
  | .contractData .. => s.createContractData codec (entryToKey entry) entry
  | .contractCode .. => s.createContractCode codec (entryToKey entry) entry protocolVersion rentConfig
  | .ttl keyHash liveUntil => s.createTtl keyHash ⟨liveUntil, entry.lastModifiedLedgerSeq⟩
  | .configSetting configSettingId _ =>
    .ok { s with configSettings := s.configSettings.insert configSettingId entry }
  | _ => .ok s

def processEntryUpdate (protocolVersion : Nat) (rentConfig : Option R)
    (s : InMemorySorobanState I D) (entry : LedgerEntry I D) :
    Except SorobanStateError (InMemorySorobanState I D) :=
  match entry.data with
  | .contractData .. => s.updateContractData codec (entryToKey entry) entry
  | .contractCode .. => s.updateContractCode codec (entryToKey entry) entry protocolVersion rentConfig
  | .ttl keyHash liveUntil => s.updateTtl keyHash ⟨liveUntil, entry.lastModifiedLedgerSeq⟩
  | .configSetting configSettingId _ =>
    .ok { s with configSettings := s.configSettings.insert configSettingId entry }
  | _ => .ok s

/-- A TTL goes with its entry; only one that still waits is dropped by itself. -/
def processEntryDelete (s : InMemorySorobanState I D) (key : LedgerKey I) :
    Except SorobanStateError (InMemorySorobanState I D) :=
  match key with
  | .contractData .. => s.deleteContractData codec key
  | .contractCode _ => s.deleteContractCode codec key
  | .ttl keyHash => .ok { s with pendingTtls := s.pendingTtls.erase keyHash }
  | _ => .ok s

def updateState (ledgerSeq : Nat) (initEntries liveEntries : List (LedgerEntry I D))
    (deadEntries : List (LedgerKey I)) (protocolVersion : Nat) (rentConfig : Option R) :
    Except SorobanStateError (InMemorySorobanState I D) := do
  if s.lastClosedLedgerSeq > 0 ∧ ledgerSeq ≠ s.lastClosedLedgerSeq + 1 then
    .error (.invalidSequence (s.lastClosedLedgerSeq + 1) ledgerSeq)
  else
    let created ← initEntries.foldlM (processEntryCreate codec protocolVersion rentConfig) s
    let updated ← liveEntries.foldlM (processEntryUpdate codec protocolVersion rentConfig) created
    let deleted ← deadEntries.foldlM (processEntryDelete codec) updated
    let closed := deleted.setLastClosedLedgerSeq ledgerSeq
    let remaining := closed.pendingTtls.entries.length
    if remaining = 0 then .ok closed
    else .error (.invalidEntry s!"pending TTLs not empty after update: {remaining} remaining")

/-- Size all code anew. -/
def recomputeContractCodeSizes (protocolVersion : Nat) (rentConfig : Option R) :
    InMemorySorobanState I D :=
  let resized := s.contractCodeEntries.mapValues fun _ entry => { entry with
    sizeBytes :=
      codec.calculateCodeSize entry.ledgerEntry entry.cachedXdrSize protocolVersion rentConfig }
  { s with
    contractCodeEntries := resized
    contractCodeStateSize := resized.tally fun _ entry => entry.sizeBytes }

end InMemorySorobanState

end Henyey.Ledger
