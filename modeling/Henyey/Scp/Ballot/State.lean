import Mathlib.Data.List.AList
import Henyey.Scp.Driver

/-!
# The state of the ballot protocol

Five ballots, the phase and the value override make up the decision state;
the rest records peers' statements, emission and validation. The protocol's
own consistency check is a function of the decision state alone.
-/

namespace Henyey.Scp

/-- The latest statement of each node. -/
abbrev Envelopes (N V H : Type) : Type := AList (fun _ : N => ScpEnvelope N V H)

structure BallotProtocol (N V H : Type) extends Ballots V where
  latestEnvelopes : Envelopes N V H
  compositeCandidate : Option V
  heardFromQuorum : Bool
  currentMessageLevel : Nat
  lastEnvelope : Option (ScpEnvelope N V H)
  lastEnvelopeEmit : Option (ScpEnvelope N V H)
  fullyValidated : Bool
  needsStopNomination : Bool
  needsClearSlotValidation : Bool
  timerExpCount : U32

/-- A ballot protocol with the trace of its slot. -/
abbrev Ballot (N V H : Type) : Type := Traced (BallotProtocol N V H) N V H

/-- The recursion limit of one call. -/
def maxProtocolTransitions : Nat := 50

def Ballots.new {V : Type} : Ballots V where
  currentBallot := none
  prepared := none
  preparedPrime := none
  highBallot := none
  commit := none
  phase := .prepare
  valueOverride := none

def BallotProtocol.new {N V H : Type} : BallotProtocol N V H where
  toBallots := Ballots.new
  latestEnvelopes := ∅
  compositeCandidate := none
  heardFromQuorum := false
  currentMessageLevel := 0
  lastEnvelope := none
  lastEnvelopeEmit := none
  fullyValidated := true
  needsStopNomination := false
  needsClearSlotValidation := false
  timerExpCount := 0

/-! ### Updates -/

section Updates

variable {N V H : Type}

/-- Change the decision state alone. -/
def updateBallots (f : Ballots V → Ballots V) (c : Ballot N V H) : Ballot N V H :=
  c.modify fun s => { s with toBallots := f s.toBallots }

def setHeardFromQuorum (heard : Bool) (c : Ballot N V H) : Ballot N V H :=
  c.modify fun s => { s with heardFromQuorum := heard }

def setMessageLevel (level : Nat) (c : Ballot N V H) : Ballot N V H :=
  c.modify fun s => { s with currentMessageLevel := level }

variable (f : Ballots V → Ballots V) (c : Ballot N V H)

@[simp] theorem updateBallots_toBallots :
    (updateBallots f c).state.toBallots = f c.state.toBallots := rfl

end Updates

/-! ### Nodes by their latest statement -/

section Envelopes

variable {N V H : Type} [DecidableEq N]

/-- The nodes whose latest statement passes a test. -/
def Envelopes.nodesWhere (envelopes : Envelopes N V H) (test : ScpStatement N V H → Bool) :
    Finset N :=
  ((envelopes.entries.filter (fun entry => test entry.2.statement)).map Sigma.fst).toFinset

/-- The latest statement recorded for a node. -/
def Envelopes.statement? (envelopes : Envelopes N V H) (node : N) : Option (ScpStatement N V H) :=
  (envelopes.lookup node).map ScpEnvelope.statement

/-- All recorded statements. -/
def Envelopes.statements (envelopes : Envelopes N V H) : List (ScpStatement N V H) :=
  envelopes.entries.map (fun entry => entry.2.statement)

theorem Envelopes.mem_entries_iff (envelopes : Envelopes N V H) (node : N)
    (envelope : ScpEnvelope N V H) :
    (⟨node, envelope⟩ : Sigma fun _ : N => ScpEnvelope N V H) ∈ envelopes.entries ↔
      envelopes.lookup node = some envelope :=
  AList.mem_lookup_iff.symm

@[simp]
theorem Envelopes.mem_nodesWhere {envelopes : Envelopes N V H} {test : ScpStatement N V H → Bool}
    {node : N} :
    node ∈ envelopes.nodesWhere test ↔
      ∃ statement, envelopes.statement? node = some statement ∧ test statement = true := by
  simp only [nodesWhere, statement?, List.mem_toFinset, List.mem_map, List.mem_filter,
    Option.map_eq_some_iff]
  constructor
  · rintro ⟨⟨node', envelope⟩, ⟨hmem, htest⟩, rfl⟩
    exact ⟨envelope.statement,
      ⟨envelope, (envelopes.mem_entries_iff node' envelope).mp hmem, rfl⟩, htest⟩
  · rintro ⟨statement, ⟨envelope, hlookup, rfl⟩, htest⟩
    exact ⟨⟨node, envelope⟩, ⟨(envelopes.mem_entries_iff node envelope).mpr hlookup, htest⟩, rfl⟩

@[simp]
theorem Envelopes.mem_statements {envelopes : Envelopes N V H} {statement : ScpStatement N V H} :
    statement ∈ envelopes.statements ↔ ∃ node, envelopes.statement? node = some statement := by
  simp only [statements, statement?, List.mem_map, Option.map_eq_some_iff]
  constructor
  · rintro ⟨⟨node, envelope⟩, hmem, rfl⟩
    exact ⟨node, envelope, (envelopes.mem_entries_iff node envelope).mp hmem, rfl⟩
  · rintro ⟨node, envelope, hlookup, rfl⟩
    exact ⟨⟨node, envelope⟩, (envelopes.mem_entries_iff node envelope).mpr hlookup, rfl⟩

@[simp]
theorem Envelopes.statement?_insert (envelopes : Envelopes N V H) (node : N)
    (envelope : ScpEnvelope N V H) :
    Envelopes.statement? (envelopes.insert node envelope) node = some envelope.statement := by
  simp [statement?]

@[simp]
theorem Envelopes.statement?_insert_ne (envelopes : Envelopes N V H) {node other : N}
    (envelope : ScpEnvelope N V H) (hne : other ≠ node) :
    Envelopes.statement? (envelopes.insert node envelope) other = envelopes.statement? other := by
  simp [statement?, hne]

@[simp]
theorem Envelopes.statement?_empty (node : N) :
    Envelopes.statement? (∅ : Envelopes N V H) node = none := by
  simp [statement?]

end Envelopes

/-! ### The consistency check -/

section Invariants

variable {V : Type} [LinearOrder V]

def BallotPhase.name : BallotPhase → String
  | .prepare => "Prepare"
  | .confirm => "Confirm"
  | .externalize => "Externalize"

/-- The later phases require all of `b`, `p`, `c` and `h`. -/
def checkPhase (s : Ballots V) : Except String Unit :=
  if s.phase = .prepare then .ok ()
  else if s.currentBallot.isNone then .error (s.phase.name ++ " phase requires current_ballot")
  else if s.prepared.isNone then .error (s.phase.name ++ " phase requires prepared")
  else if s.commit.isNone then .error (s.phase.name ++ " phase requires commit")
  else if s.highBallot.isNone then .error (s.phase.name ++ " phase requires high_ballot")
  else .ok ()

def checkCurrent (s : Ballots V) : Except String Unit :=
  match s.currentBallot with
  | some current =>
    if current.counter = 0 then .error "current_ballot.counter must not be 0" else .ok ()
  | none => .ok ()

def checkPrepared (s : Ballots V) : Except String Unit :=
  match s.prepared, s.preparedPrime with
  | some prepared, some preparedPrime =>
    if areBallotsLessAndIncompatible preparedPrime prepared then .ok ()
    else .error "prepared_prime must be less than and incompatible with prepared"
  | _, _ => .ok ()

def checkHigh (s : Ballots V) : Except String Unit :=
  match s.highBallot with
  | none => .ok ()
  | some high =>
    match s.currentBallot with
    | none => .error "high_ballot set but current_ballot is None"
    | some current =>
      if areBallotsLessAndCompatible high current then .ok ()
      else .error "high_ballot must be <= current_ballot and compatible"

def checkCommit (s : Ballots V) : Except String Unit :=
  match s.commit with
  | none => .ok ()
  | some commit =>
    match s.highBallot with
    | none => .error "commit set but high_ballot is None"
    | some high =>
      match s.currentBallot with
      | none => .error "commit set but current_ballot is None"
      | some current =>
        if !areBallotsLessAndCompatible commit high then
          .error "commit must be <= high_ballot and compatible"
        else if !areBallotsLessAndCompatible high current then
          .error "high_ballot must be <= current_ballot and compatible"
        else .ok ()

/-- The protocol's consistency check; the first failing part gives the error. -/
def checkInvariants (s : Ballots V) : Except String Unit := do
  checkPhase s
  checkCurrent s
  checkPrepared s
  checkHigh s
  checkCommit s

/-- The text of a failed check. -/
def errorText : Except String Unit → Option String
  | .ok _ => none
  | .error text => some text

end Invariants

end Henyey.Scp
