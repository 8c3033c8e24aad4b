import Henyey.Foundation.Tally
import Henyey.Herder.StellarValue

/-!
# Slots whose validation is deferred

Validation is deferred while a transaction set is missing or while the ledger lags
behind consensus. A deferred slot is reported and restored once all its causes are
cleared. Looking and recording, storing and resolving, and reporting and restoring
are separate steps, and other steps may come in between.
-/

namespace Henyey.Herder

open Foundation

variable {H : Type} [DecidableEq H]

inductive ValueValidation where
  | valid
  | maybeValid
  | maybeValidDeferred
  | invalid
deriving DecidableEq

/-- Why a slot is deferred. -/
structure DeferredCauses (H : Type) where
  missingTxSets : Finset H
  applyLag : Bool

namespace DeferredCauses

def isClear (causes : DeferredCauses H) : Bool :=
  decide (causes.missingTxSets = ∅) && !causes.applyLag

end DeferredCauses

instance : Inhabited (DeferredCauses H) where
  default := { missingTxSets := ∅, applyLag := false }

abbrev DeferredSlots (H : Type) : Type := Table Nat (DeferredCauses H)

namespace DeferredSlots

variable (deferred : DeferredSlots H)

def recordMissingTxSet (slot : Nat) (txSetHash : H) : DeferredSlots H :=
  let causes := (deferred.lookup slot).getD default
  deferred.insert slot { causes with missingTxSets := insert txSetHash causes.missingTxSets }

def recordApplyLag (slot : Nat) : DeferredSlots H :=
  let causes := (deferred.lookup slot).getD default
  deferred.insert slot { causes with applyLag := true }

/-- Clear one hash everywhere, and report the slots that have no cause left. -/
def resolveMissingTxSet (hash : H) : DeferredSlots H × List Nat :=
  let deferred := deferred.mapValues fun _ causes =>
    { causes with missingTxSets := causes.missingTxSets.erase hash }
  (deferred.retain fun _ causes => !causes.isClear,
    (deferred.retain fun _ causes => causes.isClear).keys)

/-- Whether clearing the apply lag of a slot leaves it without a cause. -/
def lagResolves (nextIndex slot : Nat) (causes : DeferredCauses H) : Bool :=
  slot ≤ nextIndex && causes.applyLag && { causes with applyLag := false }.isClear

def resolveApplyLagForNextIndex (nextIndex : Nat) : DeferredSlots H × List Nat :=
  ((deferred.retain fun slot causes => !lagResolves nextIndex slot causes).mapValues
      fun slot causes =>
        if slot ≤ nextIndex && causes.applyLag then { causes with applyLag := false } else causes,
    (deferred.retain (lagResolves nextIndex)).keys)

def purge (maxSlot : Nat) : DeferredSlots H :=
  deferred.retain fun slot _ => slot > maxSlot

end DeferredSlots

/-! ### Validation -/

structure SharedTrackingState where
  consensusIndex : Nat
  consensusCloseTime : Nat

/-- What validation looks at. -/
structure ValueValidationContext where
  lclSeq : Nat
  lclCloseTime : Nat
  tracking : Option SharedTrackingState
  now : Nat
  maxTimeDrift : Nat

def ValueValidationContext.checkCloseTime (context : ValueValidationContext)
    (lastCloseTime closeTime : Nat) : Bool :=
  !(closeTime ≤ lastCloseTime) && !(closeTime > context.now + context.maxTimeDrift)

/-- What validation goes on to record for the slot. -/
inductive Deferral (H : Type) where
  | missingTxSet (hash : H)
  | applyLag
deriving DecidableEq

/-- Validate for a slot that is not the next one. Deferred when consensus is at the
slot already. -/
def validatePastOrFutureValue (context : ValueValidationContext) (slotIndex closeTime : Nat) :
    ValueValidation × Option (Deferral H) :=
  if slotIndex = context.lclSeq + 1 then (.invalid, none)
  else
    let timely :=
      if slotIndex = context.lclSeq then closeTime == context.lclCloseTime
      else if slotIndex < context.lclSeq then closeTime < context.lclCloseTime
      else context.checkCloseTime context.lclCloseTime closeTime
    if !timely then (.invalid, none)
    else
      match context.tracking with
      | none => (.maybeValid, none)
      | some tracking =>
        if tracking.consensusIndex > slotIndex then (.maybeValid, none)
        else if tracking.consensusIndex < slotIndex then (.invalid, none)
        else if !context.checkCloseTime tracking.consensusCloseTime closeTime then (.invalid, none)
        else (.maybeValidDeferred, some .applyLag)

/-- Validate against the local ledger. The content check of a transaction set that is
here comes from outside. -/
def validateValueAgainstLocalState (context : ValueValidationContext) (cached : Finset H)
    (checkContent : H → Bool) (slotIndex : Nat) (closeTime : Nat) (txSetHash : H)
    (nomination : Bool) : ValueValidation × Option (Deferral H) :=
  if slotIndex = context.lclSeq + 1 then
    if !context.checkCloseTime context.lclCloseTime closeTime then (.invalid, none)
    else if txSetHash ∈ cached then
      (if checkContent txSetHash then .valid else .invalid, none)
    else if !nomination then (.maybeValidDeferred, some (.missingTxSet txSetHash))
    else (.invalid, none)
  else validatePastOrFutureValue context slotIndex closeTime

/-! ### Interleaved steps -/

/-- What happens, newest first. -/
inductive DeferralEvent (H : Type) where
  | missed (slot : Nat) (hash : H)
  | recordedMissing (slot : Nat) (hash : H)
  | recordedLag (slot : Nat)
  | stored (hash : H)
  | resolvedTxSet (hash : H)
  | resolvedLag (nextIndex : Nat)
  | reported (slot : Nat)
  | restored (slot : Nat)
  | purged (maxSlot : Nat)
deriving DecidableEq

structure DeferringHerder (H : Type) where
  context : ValueValidationContext
  /-- The transaction sets that the tracker has, and those that it waits for. -/
  cached : Finset H
  pending : Finset H
  deferredSlots : DeferredSlots H
  /-- Validations that looked and are about to record. -/
  recordsDue : List (Nat × Deferral H)
  /-- Sets that are stored and about to be resolved. -/
  resolvesDue : List H
  /-- Slots that are reported and about to be restored. -/
  restoresDue : List Nat
  history : List (DeferralEvent H)

def maxPendingTxsetRequests : Nat := 512

inductive DeferralStep (H : Type) where
  | validate (checkContent : H → Bool) (slot closeTime : Nat) (txSetHash : H) (nomination : Bool)
  | record (slot : Nat) (deferral : Deferral H)
  | requestTxSet (hash : H)
  | cacheTxSet (hash : H)
  | receiveTxSet (hash : H)
  | storeTxSet (hash : H)
  | evictTxSet (hash : H)
  | resolveMissingTxSet (hash : H)
  | resolveApplyLagForNextIndex (nextIndex : Nat)
  | restoreSlotFullyValidated (slot : Nat)
  | purgeDeferredSlots (maxSlot : Nat)
  | advance (context : ValueValidationContext)

namespace DeferringHerder

def new (context : ValueValidationContext) : DeferringHerder H where
  context
  cached := ∅
  pending := ∅
  deferredSlots := ∅
  recordsDue := []
  resolvesDue := []
  restoresDue := []
  history := []

variable (s : DeferringHerder H)

/-- Look at the ledger and at the cache; recording is a step of its own. -/
def validate (checkContent : H → Bool) (slot closeTime : Nat) (txSetHash : H)
    (nomination : Bool) : DeferringHerder H :=
  match (validateValueAgainstLocalState s.context s.cached checkContent slot closeTime txSetHash
    nomination).2 with
  | some (.missingTxSet hash) => { s with
      recordsDue := (slot, .missingTxSet hash) :: s.recordsDue
      history := .missed slot hash :: s.history }
  | some .applyLag => { s with recordsDue := (slot, .applyLag) :: s.recordsDue }
  | none => s

def record (slot : Nat) (deferral : Deferral H) : DeferringHerder H :=
  if (slot, deferral) ∈ s.recordsDue then
    let s := { s with recordsDue := s.recordsDue.erase (slot, deferral) }
    match deferral with
    | .missingTxSet hash => { s with
        deferredSlots := s.deferredSlots.recordMissingTxSet slot hash
        history := .recordedMissing slot hash :: s.history }
    | .applyLag => { s with
        deferredSlots := s.deferredSlots.recordApplyLag slot
        history := .recordedLag slot :: s.history }
  else s

/-- Keep a transaction set, as at start-up. Which sets the cache drops is a step of
its own. -/
def storeTxSet (hash : H) : DeferringHerder H :=
  { s with cached := insert hash s.cached, history := .stored hash :: s.history }

/-- Keep a transaction set and resolve it next. -/
def cacheTxSet (hash : H) : DeferringHerder H :=
  let s := s.storeTxSet hash
  { s with resolvesDue := hash :: s.resolvesDue }

/-- A transaction set from the network is kept when it was asked for. -/
def receiveTxSet (hash : H) : DeferringHerder H :=
  if hash ∈ s.pending then { s with pending := s.pending.erase hash }.storeTxSet hash else s

/-- Ask for a transaction set, unless it is here or too many are asked for. -/
def requestTxSet (hash : H) : DeferringHerder H :=
  if hash ∈ s.cached then s
  else if hash ∉ s.pending ∧ s.pending.card ≥ maxPendingTxsetRequests then s
  else { s with pending := insert hash s.pending }

/-- The caller of a resolving operation goes on to restore what was reported. -/
def report (deferredSlots : DeferredSlots H) (resolved : List Nat) (event : DeferralEvent H) :
    DeferringHerder H :=
  { s with
    deferredSlots
    restoresDue := s.restoresDue ++ resolved
    history := resolved.map .reported ++ event :: s.history }

def resolveMissingTxSet (hash : H) : DeferringHerder H :=
  if hash ∈ s.resolvesDue then
    let (deferredSlots, resolved) := s.deferredSlots.resolveMissingTxSet hash
    { s with resolvesDue := s.resolvesDue.erase hash }.report deferredSlots resolved
      (.resolvedTxSet hash)
  else s

def resolveApplyLagForNextIndex (nextIndex : Nat) : DeferringHerder H :=
  let (deferredSlots, resolved) := s.deferredSlots.resolveApplyLagForNextIndex nextIndex
  s.report deferredSlots resolved (.resolvedLag nextIndex)

def restoreSlotFullyValidated (slot : Nat) : DeferringHerder H :=
  if slot ∈ s.restoresDue then
    { s with restoresDue := s.restoresDue.erase slot, history := .restored slot :: s.history }
  else s

def purgeDeferredSlots (maxSlot : Nat) : DeferringHerder H :=
  { s with
    deferredSlots := s.deferredSlots.purge maxSlot
    history := .purged maxSlot :: s.history }

def step : DeferralStep H → DeferringHerder H
  | .validate checkContent slot closeTime txSetHash nomination =>
    s.validate checkContent slot closeTime txSetHash nomination
  | .record slot deferral => s.record slot deferral
  | .requestTxSet hash => s.requestTxSet hash
  | .cacheTxSet hash => s.cacheTxSet hash
  | .receiveTxSet hash => s.receiveTxSet hash
  | .storeTxSet hash => s.storeTxSet hash
  | .evictTxSet hash => { s with cached := s.cached.erase hash }
  | .resolveMissingTxSet hash => s.resolveMissingTxSet hash
  | .resolveApplyLagForNextIndex nextIndex => s.resolveApplyLagForNextIndex nextIndex
  | .restoreSlotFullyValidated slot => s.restoreSlotFullyValidated slot
  | .purgeDeferredSlots maxSlot => s.purgeDeferredSlots maxSlot
  | .advance context => { s with context }

end DeferringHerder

end Henyey.Herder
