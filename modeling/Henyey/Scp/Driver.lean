import Mathlib.Data.List.Sort
import Henyey.Foundation.Failing
import Henyey.Scp.Statement

/-!
# The driver and the trace of its callbacks

The protocols ask the driver for judgements and report progress to it. Every
call is kept in a trace, newest first, and a judgement may depend on the whole
trace, so any sequence of answers is some driver's.
-/

namespace Henyey.Scp

inductive ValidationLevel where
  | invalid
  | maybeValid
  | maybeValidDeferred
  | fullyValidated
deriving DecidableEq

def ValidationLevel.clearsFullyValidated : ValidationLevel → Bool
  | .maybeValid => true
  | .maybeValidDeferred => true
  | _ => false

/-- The worse of two validation levels. -/
def minValidationLevel (left right : ValidationLevel) : ValidationLevel :=
  match left, right with
  | .invalid, _ => .invalid
  | _, .invalid => .invalid
  | .maybeValid, _ => .maybeValid
  | _, .maybeValid => .maybeValid
  | .maybeValidDeferred, _ => .maybeValidDeferred
  | _, .maybeValidDeferred => .maybeValidDeferred
  | .fullyValidated, .fullyValidated => .fullyValidated

inductive EnvelopeState where
  | invalid
  | valid
  | validNew
deriving DecidableEq

def EnvelopeState.isValid (state : EnvelopeState) : Bool :=
  state != .invalid

inductive SCPTimerType where
  | nomination
  | ballot
deriving DecidableEq

/-- What became of a statement that the node built from its own state. -/
inductive SelfOutcome where
  | notSane
  | notNewer
  | invalid
  | valueMismatch
  | recorded
deriving DecidableEq

inductive BallotPhase where
  | prepare
  | confirm
  | externalize
deriving DecidableEq

/-- The working ballots `b`, `p`, `p'`, `h` and `c`, the phase, and the value
that a confirmed ballot imposes on later bumps. -/
structure Ballots (V : Type) where
  currentBallot : Option (ScpBallot V)
  prepared : Option (ScpBallot V)
  preparedPrime : Option (ScpBallot V)
  highBallot : Option (ScpBallot V)
  commit : Option (ScpBallot V)
  phase : BallotPhase
  valueOverride : Option V
deriving DecidableEq

/-- A call of one of the setters of the ballot protocol. -/
inductive Transition (V : Type) where
  | acceptPrepared (ballot : ScpBallot V)
  | confirmPrepared (newC newH : ScpBallot V)
  | acceptCommit (newC newH : ScpBallot V)
  | confirmCommit (newC newH : ScpBallot V)
deriving DecidableEq

/-- Driver calls of one slot, and three observations of the ballot protocol: a
setter called in some decision state, an evaluation of the invariants, and the
fate of a statement about itself beside the one stored before. -/
inductive ScpEvent (N V H : Type) where
  | validateValue (value : V) (nomination : Bool) (level : ValidationLevel)
  | extractValidValue (value : V)
  | combineCandidates (candidates : List V)
  | emitEnvelope (envelope : ScpEnvelope N V H)
  | nominatingValue (value : V)
  | updatedCandidateValue (value : V)
  | startedBallotProtocol (ballot : ScpBallot V)
  | ballotDidPrepare (ballot : ScpBallot V)
  | ballotDidConfirm (ballot : ScpBallot V)
  | acceptedCommit (ballot : ScpBallot V)
  | ballotDidHearFromQuorum (ballot : ScpBallot V)
  | valueExternalized (value : V)
  | setupTimer (timer : SCPTimerType) (timeout : Nat)
  | stopTimer (timer : SCPTimerType)
  | timerExpired (timer : SCPTimerType)
  | transition (before : Ballots V) (call : Transition V)
  | checkInvariants (error : Option String)
  | selfStatement (stored : Option (ScpStatement N V H)) (statement : ScpStatement N V H)
      (outcome : SelfOutcome)
deriving DecidableEq

def ScpEvent.emittedEnvelope {N V H : Type} : ScpEvent N V H → Option (ScpEnvelope N V H)
  | .emitEnvelope envelope => some envelope
  | _ => none

/-- The envelopes sent, latest first. -/
def emitted {N V H : Type} (log : List (ScpEvent N V H)) : List (ScpEnvelope N V H) :=
  log.filterMap ScpEvent.emittedEnvelope

def ScpEvent.externalizedValue {N V H : Type} : ScpEvent N V H → Option V
  | .valueExternalized value => some value
  | _ => none

/-- Whether an event is about what the ballot protocol decides. -/
def ScpEvent.decides {N V H : Type} : ScpEvent N V H → Bool
  | .valueExternalized _ => true
  | .transition _ _ => true
  | _ => false

/-- The values reported as externalized, latest first. -/
def reported {N V H : Type} (log : List (ScpEvent N V H)) : List V :=
  log.filterMap ScpEvent.externalizedValue

structure SCPDriver (N V H : Type) where
  signEnvelope : ScpStatement N V H → List UInt8
  validateValue : List (ScpEvent N V H) → V → Bool → ValidationLevel
  extractValidValue : List (ScpEvent N V H) → V → Option V
  combineCandidates : List (ScpEvent N V H) → List V → Option V
  getQuorumSet : N → Option (ScpQuorumSet N)
  getQuorumSetByHash : H → Option (ScpQuorumSet N)
  computeTimeout : U32 → Bool → Nat
  computeHashNode : V → Bool → U32 → N → Nat
  computeValueHash : V → U32 → V → Nat
  getNodeWeight : N → ScpQuorumSet N → Bool → Nat
  hasUpgrades : V → Bool
  stripAllUpgrades : V → Option V
  getUpgradeNominationTimeoutLimit : U32

/-- What a protocol call knows about its node. The hash of a quorum set is the
digest of its serialization. -/
structure SlotContext (N V H : Type) where
  localNodeId : N
  localQuorumSet : ScpQuorumSet N
  slotIndex : Nat
  hashQuorumSet : ScpQuorumSet N → H
  driver : SCPDriver N V H

/-- A protocol state together with the trace of its slot. -/
structure Traced (σ N V H : Type) where
  state : σ
  log : List (ScpEvent N V H)

namespace Traced

variable {σ N V H : Type}

def modify (c : Traced σ N V H) (f : σ → σ) : Traced σ N V H :=
  { c with state := f c.state }

def notify (c : Traced σ N V H) (event : ScpEvent N V H) : Traced σ N V H :=
  { c with log := event :: c.log }

section

variable (c : Traced σ N V H)
include c

@[simp]
theorem modify_state (f : σ → σ) : (c.modify f).state = f c.state := rfl

@[simp]
theorem modify_log (f : σ → σ) : (c.modify f).log = c.log := rfl

@[simp]
theorem notify_state (event : ScpEvent N V H) : (c.notify event).state = c.state := rfl

@[simp]
theorem notify_log (event : ScpEvent N V H) : (c.notify event).log = event :: c.log := rfl

end

end Traced

/-- The trace grew by events of one kind. -/
def Appends {σ N V H : Type} (kind : ScpEvent N V H → Prop) (c c' : Traced σ N V H) : Prop :=
  ∃ new, c'.log = new ++ c.log ∧ ∀ e ∈ new, kind e

namespace Appends

variable {σ N V H : Type} {kind kind' : ScpEvent N V H → Prop} {a b c : Traced σ N V H}

theorem refl (c : Traced σ N V H) : Appends kind c c := ⟨[], rfl, by simp⟩

theorem trans (hab : Appends kind a b) (hbc : Appends kind b c) : Appends kind a c := by
  obtain ⟨new, hnew, hkind⟩ := hab
  obtain ⟨new', hnew', hkind'⟩ := hbc
  refine ⟨new' ++ new, by rw [hnew', hnew, List.append_assoc], ?_⟩
  intro e he
  rcases List.mem_append.mp he with he | he
  · exact hkind' e he
  · exact hkind e he

theorem mono (hmono : ∀ e, kind e → kind' e) (hab : Appends kind a b) : Appends kind' a b := by
  obtain ⟨new, hnew, hkind⟩ := hab
  exact ⟨new, hnew, fun e he => hmono e (hkind e he)⟩

variable {e : ScpEvent N V H}

theorem notify (c : Traced σ N V H) (hkind : kind e) : Appends kind c (c.notify e) :=
  ⟨[e], rfl, by simpa using hkind⟩

section

variable (hab : Appends kind a b)
include hab

/-- One more event. -/
theorem cons (hlog : c.log = e :: b.log) (hkind : kind e) : Appends kind a c :=
  hab.trans ⟨[e], hlog, by simpa using hkind⟩

/-- Nothing is ever removed. -/
theorem subset (he : e ∈ a.log) : e ∈ b.log := by
  obtain ⟨new, hnew, _⟩ := hab
  rw [hnew]
  exact List.mem_append_right _ he

theorem old_or (he : e ∈ b.log) : e ∈ a.log ∨ kind e := by
  obtain ⟨new, hnew, hkind⟩ := hab
  rw [hnew] at he
  rcases List.mem_append.mp he with he | he
  · exact .inr (hkind e he)
  · exact .inl he

/-- An event of another kind is not among the added ones. -/
theorem mem_iff (hother : ¬kind e) : e ∈ b.log ↔ e ∈ a.log :=
  ⟨fun he => (hab.old_or he).resolve_right hother, hab.subset⟩

/-- A projection that ignores the added kind is unchanged. -/
theorem filterMap_eq {α : Type} {f : ScpEvent N V H → Option α}
    (hignored : ∀ e, kind e → f e = none) : b.log.filterMap f = a.log.filterMap f := by
  obtain ⟨new, hnew, hkind⟩ := hab
  rw [hnew, List.filterMap_append,
    List.filterMap_eq_nil_iff.mpr (fun e he => hignored e (hkind e he)), List.nil_append]

end

end Appends

/-- A call that does not return: three panics of the source, and a run of the
model that was cut short. -/
inductive Abort where
  | maxTransitions
  | stuckLeaders
  | missingCommit
  | outOfFuel
deriving DecidableEq

/-- A call without its returned value. -/
theorem map_snd_ok_iff {α β : Type} {x : Except Abort (α × β)} {b : β} :
    x.map Prod.snd = .ok b ↔ ∃ a, x = .ok (a, b) := by
  cases x with
  | error e => simp [Except.map]
  | ok result => simp [Except.map, Prod.ext_iff]

def sortedValues {V : Type} [LinearOrder V] (values : List V) : List V :=
  values.dedup.insertionSort (· ≤ ·)

@[simp]
theorem mem_sortedValues {V : Type} [LinearOrder V] {values : List V} {v : V} :
    v ∈ sortedValues values ↔ v ∈ values := by
  simp [sortedValues]

variable {N V H : Type} [LinearOrder V]

def getStatementValues (statement : ScpStatement N V H) : List V :=
  sortedValues <|
    match statement.pledges with
    | .nominate nom => nom.votes ++ nom.accepted
    | .prepare prep =>
      (if prep.ballot.counter != 0 then [prep.ballot.value] else []) ++
        (prep.prepared.map ScpBallot.value).toList ++
        (prep.preparedPrime.map ScpBallot.value).toList
    | .confirm conf => [conf.ballot.value]
    | .externalize ext => [ext.commit.value]

/-- Ask the driver about one value. -/
def validateValue {σ : Type} (driver : SCPDriver N V H) (value : V) (nomination : Bool)
    (c : Traced σ N V H) : ValidationLevel × Traced σ N V H :=
  let level := driver.validateValue c.log value nomination
  (level, c.notify (.validateValue value nomination level))

/-! ### A driver for small networks -/

/-- A driver that takes every value, where all nodes share one quorum set. -/
def SCPDriver.permissive (quorumSet : ScpQuorumSet N) : SCPDriver N V Unit where
  signEnvelope _ := []
  validateValue _ _ _ := .fullyValidated
  extractValidValue _ value := some value
  combineCandidates _ candidates := candidates.head?
  getQuorumSet _ := some quorumSet
  getQuorumSetByHash _ := some quorumSet
  computeTimeout round _ := round.val
  computeHashNode _ _ _ _ := 0
  computeValueHash _ _ _ := 0
  getNodeWeight _ _ _ := 1
  hasUpgrades _ := false
  stripAllUpgrades _ := none
  getUpgradeNominationTimeoutLimit := 0

/-- A node of that network. -/
def SlotContext.permissive (localNodeId : N) (quorumSet : ScpQuorumSet N) :
    SlotContext N V Unit where
  localNodeId := localNodeId
  localQuorumSet := quorumSet
  slotIndex := 1
  hashQuorumSet _ := ()
  driver := .permissive quorumSet

end Henyey.Scp
