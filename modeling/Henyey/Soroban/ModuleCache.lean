import Mathlib.Data.Finset.Basic
import Mathlib.Algebra.GroupWithZero.Nat
import Mathlib.Algebra.BigOperators.Group.List.Basic

/-!
# The Wasm module cache

Contract code is compiled for the host of one protocol and kept by its hash. The cache is
filled by a scan of the bucket list, warmed from every batch, pruned of what is deleted
and evicted, and rebuilt at some upgrades. Every executor gets it at the start of a
ledger. What the hosts compile, and what instantiation costs, are parameters.
-/

namespace Henyey.Soroban

/-- The hosts that modules can be compiled for. -/
inductive CacheVariant where
  | p24
  | p25
  | p26
  | p27
deriving DecidableEq

/-- The host of a protocol, as caches are created for it. -/
def CacheVariant.forProtocol (protocolVersion : ℕ) : CacheVariant :=
  if 27 ≤ protocolVersion then .p27
  else if 26 ≤ protocolVersion then .p26
  else if 25 ≤ protocolVersion then .p25
  else .p24

def CacheVariant.name : CacheVariant → String
  | p24 => "P24"
  | p25 => "P25"
  | p26 => "P26"
  | p27 => "P27"

structure PersistentModuleCache (Hash : Type) where
  variant : CacheVariant
  modules : Finset Hash

/-- What the host crates do with contract code. -/
structure WasmHost (Code Hash : Type) where
  sha256 : Code → Hash
  creates : CacheVariant → Bool
  compiles : CacheVariant → ℕ → Code → Bool
  instantiation : Hash → ℕ
  cachedInstantiation : Hash → ℕ

/-- An entry of a bucket, as far as contract code goes; code is stored under its hash. -/
inductive CodeBucketEntry (Code Hash : Type) where
  | live (code : Code)
  | init (code : Code)
  | dead (hash : Hash)

structure CodeLevel (Code Hash : Type) where
  curr : List (CodeBucketEntry Code Hash)
  snap : List (CodeBucketEntry Code Hash)

/-- The entries of a level in the order in which they shadow each other. -/
def CodeLevel.entries {Code Hash : Type} (level : CodeLevel Code Hash) :
    List (CodeBucketEntry Code Hash) :=
  level.curr ++ level.snap

variable {Code Hash : Type}

def CodeBucketEntry.code? : CodeBucketEntry Code Hash → Option Code
  | live code => some code
  | init code => some code
  | dead _ => none

variable [DecidableEq Hash]

namespace WasmHost

variable (host : WasmHost Code Hash)

def key : CodeBucketEntry Code Hash → Hash
  | .live code => host.sha256 code
  | .init code => host.sha256 code
  | .dead hash => hash

def holds (entries : List (CodeBucketEntry Code Hash)) (hash : Hash) : Bool :=
  match entries.find? fun entry => host.key entry = hash with
  | some entry => entry.code?.isSome
  | none => false

def codeLive (levels : List (CodeLevel Code Hash)) (hash : Hash) : Bool :=
  host.holds (levels.flatMap CodeLevel.entries) hash

def newForProtocol (protocolVersion : ℕ) : Option (PersistentModuleCache Hash) :=
  let variant := CacheVariant.forProtocol protocolVersion
  if host.creates variant then some { variant, modules := ∅ } else none

def addWasm (protocolVersion : ℕ) (cache : PersistentModuleCache Hash) (code : Code) :
    PersistentModuleCache Hash :=
  if host.compiles cache.variant protocolVersion code then
    { cache with modules := insert (host.sha256 code) cache.modules }
  else cache

/-- One entry in the scan of a level: the first one under each key counts. -/
def processEntry (protocolVersion : ℕ) (scanned : List Hash × PersistentModuleCache Hash)
    (entry : CodeBucketEntry Code Hash) : List Hash × PersistentModuleCache Hash :=
  if host.key entry ∈ scanned.1 then scanned
  else
    (host.key entry :: scanned.1,
      match entry.code? with
      | some code => host.addWasm protocolVersion scanned.2 code
      | none => scanned.2)

/-- Every level is scanned by itself: code that a newer level has deleted is compiled too. -/
def scanSingleLevel (protocolVersion : ℕ) (cache : PersistentModuleCache Hash)
    (level : CodeLevel Code Hash) : PersistentModuleCache Hash :=
  (level.entries.foldl (host.processEntry protocolVersion) ([], cache)).2

def scanLevelPairsForCaches (levels : List (CodeLevel Code Hash)) (protocolVersion : ℕ) :
    Option (PersistentModuleCache Hash) :=
  if 20 ≤ protocolVersion then
    (host.newForProtocol protocolVersion).map fun cache =>
      levels.foldl (host.scanSingleLevel protocolVersion) cache
  else none

/-- One entry in the rebuild: tombstones are passed over. -/
def rebuildEntry (protocolVersion : ℕ) (scanned : List Hash × PersistentModuleCache Hash)
    (entry : CodeBucketEntry Code Hash) : List Hash × PersistentModuleCache Hash :=
  match entry.code? with
  | some code =>
    if host.sha256 code ∈ scanned.1 then scanned
    else (host.sha256 code :: scanned.1, host.addWasm protocolVersion scanned.2 code)
  | none => scanned

def rebuildModuleCache (levels : List (CodeLevel Code Hash)) (protocolVersion : ℕ)
    (moduleCache : Option (PersistentModuleCache Hash)) : Option (PersistentModuleCache Hash) :=
  match host.newForProtocol protocolVersion with
  | none => moduleCache
  | some cache =>
    some ((levels.flatMap CodeLevel.entries).foldl (host.rebuildEntry protocolVersion)
      ([], cache)).2

/-- Which host runs a function. It aborts unless the cache is one for it. -/
def executeHostFunctionWithCache (protocolVersion : ℕ)
    (moduleCache : Option (PersistentModuleCache Hash)) :
    Except String (PersistentModuleCache Hash) :=
  match moduleCache with
  | none => .error "Module cache must be provided for Soroban TX execution"
  | some cache =>
    let expected := CacheVariant.forProtocol protocolVersion
    if cache.variant = expected then .ok cache
    else
      .error ("Module cache is not " ++ expected.name ++ " but protocol version is " ++
        toString protocolVersion)

/-- What an invocation is charged for the instantiation of its modules. -/
def instantiationCost (cache : PersistentModuleCache Hash) (hashes : List Hash) : ℕ :=
  (hashes.map fun hash =>
    if hash ∈ cache.modules then host.cachedInstantiation hash
    else host.instantiation hash).sum

end WasmHost

def PersistentModuleCache.removeContract (cache : PersistentModuleCache Hash) (hash : Hash) :
    PersistentModuleCache Hash :=
  { cache with modules := cache.modules.erase hash }

/-! ### Closing ledgers -/

/-- The header version, the bucket list, the module cache, and what the persistent executor
has of it. -/
structure CachingNode (Code Hash : Type) where
  ledgerVersion : ℕ
  levels : List (CodeLevel Code Hash)
  moduleCache : Option (PersistentModuleCache Hash)
  executorCache : Option (PersistentModuleCache Hash)

/-- What a ledger does: the contract code it writes, that it deletes or evicts, the
version it upgrades to, and the bucket list with its batch. -/
structure CodeClose (Code Hash : Type) where
  initEntries : List Code
  liveEntries : List Code
  deadEntries : List Hash
  versionUpgrade : Option ℕ
  levels : List (CodeLevel Code Hash)

namespace CachingNode

variable (host : WasmHost Code Hash)

def initialized (levels : List (CodeLevel Code Hash)) (ledgerVersion : ℕ) :
    CachingNode Code Hash where
  ledgerVersion
  levels
  moduleCache := host.scanLevelPairsForCaches levels ledgerVersion
  executorCache := none

/-- What the persistent executor has once the ledger is under way. -/
def persistentCache (node : CachingNode Code Hash) : Option (PersistentModuleCache Hash) :=
  node.moduleCache.or node.executorCache

/-- What a fresh executor gets, one for each cluster. -/
def clusterCache (node : CachingNode Code Hash) : Option (PersistentModuleCache Hash) :=
  node.moduleCache

/-- The version after the ledger. -/
def upgraded (node : CachingNode Code Hash) (close : CodeClose Code Hash) : ℕ :=
  close.versionUpgrade.getD node.ledgerVersion

/-- The cache is rebuilt when the ledger upgrades to protocol 25 or above. -/
def Rebuilds (node : CachingNode Code Hash) (close : CodeClose Code Hash) : Prop :=
  node.ledgerVersion ≠ node.upgraded close ∧ 25 ≤ node.upgraded close

instance (node : CachingNode Code Hash) (close : CodeClose Code Hash) :
    Decidable (node.Rebuilds close) :=
  inferInstanceAs (Decidable (_ ∧ _))

/-- The cache warmed with what the batch writes, and pruned of what it deletes. -/
def warmed (node : CachingNode Code Hash) (close : CodeClose Code Hash) :
    Option (PersistentModuleCache Hash) :=
  let moduleCache := node.moduleCache.map fun cache =>
    (close.initEntries ++ close.liveEntries).foldl (host.addWasm (node.upgraded close)) cache
  if 20 ≤ node.ledgerVersion then
    moduleCache.map fun cache => close.deadEntries.foldl PersistentModuleCache.removeContract cache
  else moduleCache

def closeLedger (node : CachingNode Code Hash) (close : CodeClose Code Hash) :
    Except String (CachingNode Code Hash) :=
  if node.ledgerVersion ≠ 0 ∧ (node.ledgerVersion < 24 ∨ 27 < node.ledgerVersion) then
    .error "unsupported protocol version"
  else
    .ok
      { ledgerVersion := node.upgraded close
        levels := close.levels
        moduleCache :=
          if node.Rebuilds close then
            host.rebuildModuleCache close.levels (node.upgraded close) (node.warmed host close)
          else node.warmed host close
        executorCache := node.persistentCache }

end CachingNode

end Henyey.Soroban
