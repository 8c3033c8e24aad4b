import Henyey.Herder.RandomEvictionCache

/-!
# The cache of transaction set verdicts

A verdict is kept under the hash of the last closed ledger, the transaction set and the
close time offset. The validation of a peer's value reads the hash first and takes a
snapshot of the ledger later; a nomination takes its hash from its own snapshot. In
between the ledger may close, which changes the entries before the header.
-/

namespace Henyey.Herder

namespace RandomEvictionCache

variable {κ ν : Type} [DecidableEq κ]

def valueOf (cache : RandomEvictionCache κ ν) (key : κ) : Option ν :=
  (cache.map.lookup key).map CacheEntry.value

/-- Look up a value; a hit counts as an access. -/
def get (cache : RandomEvictionCache κ ν) (key : κ) : Option ν × RandomEvictionCache κ ν :=
  match cache.map.lookup key with
  | none => (none, cache)
  | some entry =>
    let generation := cache.generation + 1
    (some entry.value,
      { cache with
        map := cache.map.insert key { entry with lastAccess := generation }
        generation })

/-- Remove all entries; the generation goes on. -/
def clear (cache : RandomEvictionCache κ ν) : RandomEvictionCache κ ν :=
  { cache with map := ∅, keys := [] }

variable {cache : RandomEvictionCache κ ν} {key other : κ} {value found : ν}

theorem get_fst : (cache.get key).1 = cache.valueOf key := by
  unfold get valueOf
  cases cache.map.lookup key <;> rfl

theorem valueOf_get : (cache.get key).2.valueOf other = cache.valueOf other := by
  unfold get valueOf
  cases hentry : cache.map.lookup key with
  | none => rfl
  | some entry =>
    by_cases hsame : other = key
    · subst hsame
      simp only [AList.lookup_insert, hentry, Option.map_some]
    · simp only [AList.lookup_insert_ne hsame]

theorem valueOf_evictOne {draws : Nat × Nat}
    (hfound : (cache.evictOne draws).valueOf other = some found) :
    cache.valueOf other = some found := by
  unfold evictOne at hfound
  dsimp only at hfound
  split at hfound
  · have herase (victim : κ) (keys : List κ)
        (hvalue : valueOf { cache with map := cache.map.erase victim, keys } other = some found) :
        cache.valueOf other = some found := by
      unfold valueOf at hvalue ⊢
      by_cases hsame : other = victim
      · subst hsame
        rw [AList.lookup_erase] at hvalue
        cases hvalue
      · rwa [AList.lookup_erase_ne hsame] at hvalue
    exact herase _ _ hfound
  · exact hfound

theorem valueOf_put {draws : Nat × Nat}
    (hfound : (cache.put key value draws).valueOf other = some found) :
    (other = key ∧ found = value) ∨ cache.valueOf other = some found := by
  have hinsert (map : AList fun _ : κ => CacheEntry ν) (keys : List κ) (generation : Nat)
      (hmap : map = cache.map.insert key { value, lastAccess := cache.generation + 1 })
      (hvalue : valueOf { cache with map, keys, generation } other = some found) :
      (other = key ∧ found = value) ∨ cache.valueOf other = some found := by
    subst hmap
    unfold valueOf at hvalue ⊢
    by_cases hsame : other = key
    · subst hsame
      rw [AList.lookup_insert] at hvalue
      exact .inl ⟨rfl, (Option.some.inj hvalue).symm⟩
    · rw [AList.lookup_insert_ne hsame] at hvalue
      exact .inr hvalue
  unfold put at hfound
  dsimp only at hfound
  split at hfound
  · exact hinsert _ cache.keys _ rfl hfound
  · split at hfound
    · exact hinsert _ _ _ rfl (valueOf_evictOne hfound)
    · exact hinsert _ _ _ rfl hfound

end RandomEvictionCache

/-! ### Judging a transaction set -/

variable {Header Info Entries Frozen TxSet Hash : Type}

/-- What the herder asks of headers, of sets and of the content checks. -/
structure TxSetChecks (Header Info Entries Frozen TxSet Hash : Type) where
  ledgerSeq : Header → Nat
  ledgerVersion : Header → Nat
  closeTime : Header → Nat
  headerHash : Header → Hash
  setHash : TxSet → Hash
  previousLedgerHash : TxSet → Hash
  isGeneralized : TxSet → Bool
  isTxSetWellFormed : TxSet → Bool
  prepareForApply : TxSet → Except String TxSet
  loadFrozenKeyConfig : Entries → Nat → Except String Frozen
  checkTxSetValid : TxSet → Header → Hash → Nat → Option Info → Entries → Option Frozen →
    Except String Unit

/-- A consistent view of the ledger. -/
structure LedgerSnapshot (Header Info Entries : Type) where
  header : Header
  sorobanInfo : Option Info
  entries : Entries

namespace TxSetChecks

variable (checks : TxSetChecks Header Info Entries Frozen TxSet Hash)

def startsFromV20 (header : Header) : Bool :=
  decide (20 ≤ checks.ledgerVersion header)

/-- The content checks go with generalized sets, which go with protocol 20. -/
def checkValid (prepared : TxSet) (snapshot : LedgerSnapshot Header Info Entries) (lclHash : Hash)
    (closeTimeOffset : Nat) (frozenKeyConfig : Option Frozen) : Except String Unit :=
  match checks.isGeneralized prepared, checks.startsFromV20 snapshot.header with
  | true, true =>
    checks.checkTxSetValid prepared snapshot.header lclHash closeTimeOffset snapshot.sorobanInfo
      snapshot.entries frozenKeyConfig
  | true, false => .error "GENERALIZED_TXSET_MISMATCH"
  | false, true => .error "GENERALIZED_TXSET_MISMATCH"
  | false, false => .ok ()

def frozenKeyConfig (snapshot : LedgerSnapshot Header Info Entries) : Option Frozen :=
  (checks.loadFrozenKeyConfig snapshot.entries (checks.ledgerVersion snapshot.header)).toOption

/-- Preparation and content checks of a set against a ledger state. -/
def verdict (snapshot : LedgerSnapshot Header Info Entries) (txSet : TxSet)
    (closeTimeOffset : Nat) : Bool :=
  match checks.prepareForApply txSet with
  | .error _ => false
  | .ok prepared =>
    (checks.checkValid prepared snapshot (checks.headerHash snapshot.header) closeTimeOffset
      (checks.frozenKeyConfig snapshot)).isOk

/-- What a peer's prepared set is judged to be against a snapshot; before protocol 20
nothing is checked. -/
def judge (prepared : TxSet) (snapshot : LedgerSnapshot Header Info Entries) (lclHash : Hash)
    (closeTimeOffset : Nat) : Bool :=
  if checks.startsFromV20 snapshot.header = false then true
  else
    (checks.checkValid prepared snapshot lclHash closeTimeOffset
      (checks.frozenKeyConfig snapshot)).isOk

/-- The checks of a set that the node has built itself. -/
def selfValidateNominationTxSet [DecidableEq Hash] (txSet : TxSet)
    (snapshot : LedgerSnapshot Header Info Entries) (closeTimeOffset : Nat) : Except String Unit :=
  if checks.startsFromV20 snapshot.header = false then .ok ()
  else
    match checks.prepareForApply txSet with
    | .error message => .error ("prepare_for_apply failed: " ++ message)
    | .ok prepared =>
      if checks.setHash prepared ≠ checks.setHash txSet then
        .error "prepare_for_apply hash differs from builder hash"
      else if checks.isGeneralized prepared = false then
        .error "built tx set is not generalized on protocol"
      else
        checks.checkValid prepared snapshot (checks.headerHash snapshot.header) closeTimeOffset
          (checks.frozenKeyConfig snapshot)

end TxSetChecks

/-! ### The node -/

/-- The hash of the last closed ledger, of the set, and the close time offset. -/
abbrev ValidityKey (Hash : Type) : Type := Hash × Hash × Nat

/-- Store a verdict. To turn one from invalid to valid is fatal, before anything is
overwritten. -/
def storeValid [DecidableEq Hash] (cache : RandomEvictionCache (ValidityKey Hash) Bool)
    (key : ValidityKey Hash) (valid : Bool) (draws : Nat × Nat) :
    Except String (RandomEvictionCache (ValidityKey Hash) Bool) :=
  let (previous, cache) := cache.get key
  if previous = some false ∧ valid = true then
    .error "Inconsistent txSet validity: cached as invalid, now revalidated as valid"
  else .ok (cache.put key valid draws)

/-- How far one validation or nomination has come. -/
inductive JudgingTask (Header Info Entries TxSet Hash : Type) where
  | idle
  | validating (lclHash : Hash) (txSet : TxSet) (closeTimeOffset : Nat)
  | missed (lclHash : Hash) (txSet : TxSet) (closeTimeOffset : Nat)
  | prepared (lclHash : Hash) (txSet : TxSet) (closeTimeOffset : Nat) (prepared : TxSet)
  | judged (lclHash : Hash) (txSet : TxSet) (closeTimeOffset : Nat) (valid : Bool)
  | building (snapshot : LedgerSnapshot Header Info Entries)
  | built (snapshot : LedgerSnapshot Header Info Entries) (txSet : TxSet) (closeTimeOffset : Nat)

/-- What `check_and_cache_tx_set_valid` returned, and whether the set was judged for it. -/
structure ValidityAnswer (TxSet Hash : Type) where
  lclHash : Hash
  txSet : TxSet
  closeTimeOffset : Nat
  valid : Bool
  decided : Bool

/-- The published header and what goes with it, the live entries, the cache, and what is
under way in each thread. The closed ledger states and the answers are kept for the
statements about them, newest first. -/
structure JudgingNode (Header Info Entries TxSet Hash : Type) where
  header : Header
  sorobanInfo : Option Info
  entries : Entries
  closing : Bool
  closed : List (LedgerSnapshot Header Info Entries)
  validCache : RandomEvictionCache (ValidityKey Hash) Bool
  tasks : Nat → JudgingTask Header Info Entries TxSet Hash
  answers : List (ValidityAnswer TxSet Hash)
  panicked : Bool

/-- One atomic piece of one of the threads. -/
inductive JudgingAction (Header Info Entries TxSet : Type) where
  | commitEntries (entries : Entries)
  | commitClose (header : Header) (sorobanInfo : Option Info)
  | recordExternalized
  | validateValue (thread : Nat) (txSet : TxSet) (closeTime : Nat)
  | checkCache (thread : Nat)
  | prepare (thread : Nat) (draws : Nat × Nat)
  | snapshotFails (thread : Nat)
  | judge (thread : Nat)
  | store (thread : Nat) (draws : Nat × Nat)
  | nominate (thread : Nat)
  | build (thread : Nat) (txSet : TxSet) (closeTime : Nat)
  | cacheBuilt (thread : Nat) (draws : Nat × Nat)

namespace JudgingNode

variable [DecidableEq Hash]
  (checks : TxSetChecks Header Info Entries Frozen TxSet Hash)

def setTask (node : JudgingNode Header Info Entries TxSet Hash) (thread : Nat)
    (task : JudgingTask Header Info Entries TxSet Hash) :
    JudgingNode Header Info Entries TxSet Hash :=
  { node with tasks := Function.update node.tasks thread task }

/-- The thread returns, and nothing is under way in it any more. -/
def answer (node : JudgingNode Header Info Entries TxSet Hash) (thread : Nat)
    (given : ValidityAnswer TxSet Hash) : JudgingNode Header Info Entries TxSet Hash :=
  { node.setTask thread .idle with answers := given :: node.answers }

/-- The header under the state lock, and the entries as they are. -/
def snapshot (node : JudgingNode Header Info Entries TxSet Hash) :
    LedgerSnapshot Header Info Entries :=
  ⟨node.header, node.sorobanInfo, node.entries⟩

/-- Store a verdict, or abort. -/
def storing (node : JudgingNode Header Info Entries TxSet Hash) (key : ValidityKey Hash)
    (valid : Bool) (draws : Nat × Nat) (next : JudgingNode Header Info Entries TxSet Hash →
      JudgingNode Header Info Entries TxSet Hash) :
    JudgingNode Header Info Entries TxSet Hash :=
  match storeValid node.validCache key valid draws with
  | .error _ => { node with panicked := true }
  | .ok validCache => next { node with validCache }

/-- One step; `none` if it is not the turn of that action. -/
def step (node : JudgingNode Header Info Entries TxSet Hash)
    (action : JudgingAction Header Info Entries TxSet) :
    Option (JudgingNode Header Info Entries TxSet Hash) :=
  if node.panicked then none
  else
    match action with
    | .commitEntries entries =>
      if node.closing then none else some { node with entries, closing := true }
    | .commitClose header sorobanInfo =>
      if node.closing = true ∧ checks.ledgerSeq header = checks.ledgerSeq node.header + 1 then
        some
          { node with
            header
            sorobanInfo
            closing := false
            closed := ⟨header, sorobanInfo, node.entries⟩ :: node.closed }
      else none
    | .recordExternalized => some { node with validCache := node.validCache.clear }
    | .validateValue thread txSet closeTime =>
      match node.tasks thread with
      | .idle =>
        let lclHash := checks.headerHash node.header
        if checks.previousLedgerHash txSet = lclHash ∧
            (checks.isGeneralized txSet = true ∨ checks.isTxSetWellFormed txSet = true) then
          some (node.setTask thread
            (.validating lclHash txSet (closeTime - checks.closeTime node.header)))
        else none
      | _ => none
    | .checkCache thread =>
      match node.tasks thread with
      | .validating lclHash txSet closeTimeOffset =>
        match node.validCache.get (lclHash, checks.setHash txSet, closeTimeOffset) with
        | (some valid, validCache) =>
          some (({ node with validCache }).answer thread
            ⟨lclHash, txSet, closeTimeOffset, valid, true⟩)
        | (none, _) => some (node.setTask thread (.missed lclHash txSet closeTimeOffset))
      | _ => none
    | .prepare thread draws =>
      match node.tasks thread with
      | .missed lclHash txSet closeTimeOffset =>
        match checks.prepareForApply txSet with
        | .error _ =>
          some (node.storing (lclHash, checks.setHash txSet, closeTimeOffset) false draws
            fun node => node.answer thread ⟨lclHash, txSet, closeTimeOffset, false, true⟩)
        | .ok prepared =>
          some (node.setTask thread (.prepared lclHash txSet closeTimeOffset prepared))
      | _ => none
    | .snapshotFails thread =>
      -- a transient failure of the node is not kept
      match node.tasks thread with
      | .prepared lclHash txSet closeTimeOffset _ =>
        some (node.answer thread ⟨lclHash, txSet, closeTimeOffset, false, false⟩)
      | _ => none
    | .judge thread =>
      match node.tasks thread with
      | .prepared lclHash txSet closeTimeOffset prepared =>
        some (node.setTask thread (.judged lclHash txSet closeTimeOffset
          (checks.judge prepared node.snapshot lclHash closeTimeOffset)))
      | _ => none
    | .store thread draws =>
      match node.tasks thread with
      | .judged lclHash txSet closeTimeOffset valid =>
        some (node.storing (lclHash, checks.setHash txSet, closeTimeOffset) valid draws
          fun node => node.answer thread ⟨lclHash, txSet, closeTimeOffset, valid, true⟩)
      | _ => none
    | .nominate thread =>
      match node.tasks thread with
      | .idle => some (node.setTask thread (.building node.snapshot))
      | _ => none
    | .build thread txSet closeTime =>
      match node.tasks thread with
      | .building snapshot =>
        let closeTimeOffset := closeTime - checks.closeTime snapshot.header
        if closeTimeOffset = 0 then some (node.setTask thread .idle)
        else
          match checks.selfValidateNominationTxSet txSet snapshot closeTimeOffset with
          | .error _ => some (node.setTask thread .idle)
          | .ok _ => some (node.setTask thread (.built snapshot txSet closeTimeOffset))
      | _ => none
    | .cacheBuilt thread draws =>
      match node.tasks thread with
      | .built snapshot txSet closeTimeOffset =>
        some (node.storing (checks.headerHash snapshot.header, checks.setHash txSet,
          closeTimeOffset) true draws fun node => node.setTask thread .idle)
      | _ => none

/-- A node with a closed ledger state and an empty cache. -/
def start (closed : LedgerSnapshot Header Info Entries) (capacity : Nat) :
    JudgingNode Header Info Entries TxSet Hash where
  header := closed.header
  sorobanInfo := closed.sorobanInfo
  entries := closed.entries
  closing := false
  closed := [closed]
  validCache := .new capacity
  tasks _ := .idle
  answers := []
  panicked := false

end JudgingNode

end Henyey.Herder
