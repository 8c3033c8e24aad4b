import Mathlib.Data.Prod.Lex
import Mathlib.Data.Fintype.Basic
import Henyey.Scp.Quorum

/-!
# Ballots, statements and their freshness order

A ballot is a counter and a value, ordered by counter and then by value. A
statement carries one pledge of its node. Freshness compares two pledges of
one node lexicographically, with later phases always fresher.
-/

namespace Henyey.Scp

structure ScpBallot (V : Type) where
  counter : U32
  value : V
deriving DecidableEq

structure ScpStatementPrepare (V H : Type) where
  quorumSetHash : H
  ballot : ScpBallot V
  prepared : Option (ScpBallot V)
  preparedPrime : Option (ScpBallot V)
  nC : U32
  nH : U32
deriving DecidableEq

structure ScpStatementConfirm (V H : Type) where
  ballot : ScpBallot V
  nPrepared : U32
  nCommit : U32
  nH : U32
  quorumSetHash : H
deriving DecidableEq

structure ScpStatementExternalize (V H : Type) where
  commit : ScpBallot V
  nH : U32
  commitQuorumSetHash : H
deriving DecidableEq

structure ScpNomination (V H : Type) where
  quorumSetHash : H
  votes : List V
  accepted : List V
deriving DecidableEq

inductive ScpStatementPledges (V H : Type) where
  | prepare (prep : ScpStatementPrepare V H)
  | confirm (conf : ScpStatementConfirm V H)
  | externalize (ext : ScpStatementExternalize V H)
  | nominate (nom : ScpNomination V H)
deriving DecidableEq

structure ScpStatement (N V H : Type) where
  nodeId : N
  slotIndex : Nat
  pledges : ScpStatementPledges V H
deriving DecidableEq

structure ScpEnvelope (N V H : Type) where
  statement : ScpStatement N V H
  signature : List UInt8
deriving DecidableEq

/-! ### Comparing ballots -/

section Order

variable {V : Type} [LinearOrder V]

def ballotCompare (a b : ScpBallot V) : Ordering :=
  match compare a.counter b.counter with
  | .eq => compare a.value b.value
  | other => other

/-- A missing ballot is below every ballot. -/
def cmpOptBallot (a b : Option (ScpBallot V)) : Ordering :=
  match a, b with
  | none, none => .eq
  | none, some _ => .lt
  | some _, none => .gt
  | some a, some b => ballotCompare a b

def ballotCompatible (a b : ScpBallot V) : Bool :=
  a.value == b.value

def areBallotsLessAndCompatible (a b : ScpBallot V) : Bool :=
  ballotCompare a b != .gt && ballotCompatible a b

def areBallotsLessAndIncompatible (a b : ScpBallot V) : Bool :=
  ballotCompare a b != .gt && !ballotCompatible a b

/-- Ballots as pairs in lexicographic order. -/
def ScpBallot.key (b : ScpBallot V) : U32 ×ₗ V :=
  toLex (b.counter, b.value)

omit [LinearOrder V] in
theorem ScpBallot.key_injective : Function.Injective (ScpBallot.key (V := V)) := by
  intro a b h
  obtain ⟨hcounter, hvalue⟩ := Prod.mk.inj (toLex.injective h)
  cases a
  cases b
  simp_all

instance : LinearOrder (ScpBallot V) :=
  LinearOrder.lift' ScpBallot.key ScpBallot.key_injective

variable {a b : ScpBallot V}

theorem ballot_le_iff :
    a ≤ b ↔ a.counter < b.counter ∨ a.counter = b.counter ∧ a.value ≤ b.value := by
  change a.key ≤ b.key ↔ _
  simp [ScpBallot.key, Prod.Lex.toLex_le_toLex]

theorem ballot_lt_iff :
    a < b ↔ a.counter < b.counter ∨ a.counter = b.counter ∧ a.value < b.value := by
  change a.key < b.key ↔ _
  simp [ScpBallot.key, Prod.Lex.toLex_lt_toLex]

@[simp]
theorem ballotCompare_eq (a b : ScpBallot V) : ballotCompare a b = compare a b := by
  unfold ballotCompare
  rcases lt_trichotomy a.counter b.counter with hlt | heq | hgt
  · rw [compare_lt_iff_lt.mpr hlt, compare_lt_iff_lt.mpr (ballot_lt_iff.mpr (.inl hlt))]
  · rw [compare_eq_iff_eq.mpr heq]
    rcases lt_trichotomy a.value b.value with hlt' | heq' | hgt'
    · rw [compare_lt_iff_lt.mpr hlt', compare_lt_iff_lt.mpr (ballot_lt_iff.mpr (.inr ⟨heq, hlt'⟩))]
    · have hab : a = b := by
        cases a
        cases b
        simp_all
      rw [compare_eq_iff_eq.mpr heq', compare_eq_iff_eq.mpr hab]
    · rw [compare_gt_iff_gt.mpr hgt',
        compare_gt_iff_gt.mpr (ballot_lt_iff.mpr (.inr ⟨heq.symm, hgt'⟩))]
  · rw [compare_gt_iff_gt.mpr hgt, compare_gt_iff_gt.mpr (ballot_lt_iff.mpr (.inl hgt))]

@[simp]
theorem ballotCompatible_iff : ballotCompatible a b = true ↔ a.value = b.value := by
  simp [ballotCompatible]

@[simp]
theorem areBallotsLessAndCompatible_iff :
    areBallotsLessAndCompatible a b = true ↔ a ≤ b ∧ a.value = b.value := by
  simp [areBallotsLessAndCompatible, compare_gt_iff_gt]

@[simp]
theorem areBallotsLessAndIncompatible_iff :
    areBallotsLessAndIncompatible a b = true ↔ a ≤ b ∧ a.value ≠ b.value := by
  simp [areBallotsLessAndIncompatible, ballotCompatible, compare_gt_iff_gt]

theorem ballot_le_iff_of_value_eq (hvalue : a.value = b.value) : a ≤ b ↔ a.counter ≤ b.counter := by
  rw [ballot_le_iff, hvalue]
  simp [le_iff_lt_or_eq]

theorem ballot_counter_mono (hle : a ≤ b) : a.counter ≤ b.counter := by
  rcases ballot_le_iff.mp hle with hlt | ⟨heq, _⟩
  · exact hlt.le
  · exact heq.le

end Order

/-! ### Freshness -/

section Freshness

variable {N V H : Type} [LinearOrder V]

def isNewerPrepare (old new : ScpStatementPrepare V H) : Bool :=
  match ballotCompare old.ballot new.ballot with
  | .lt => true
  | .gt => false
  | .eq =>
    match cmpOptBallot old.prepared new.prepared with
    | .lt => true
    | .gt => false
    | .eq =>
      match cmpOptBallot old.preparedPrime new.preparedPrime with
      | .lt => true
      | .gt => false
      | .eq => decide (old.nH < new.nH)

def isNewerConfirm (old new : ScpStatementConfirm V H) : Bool :=
  match ballotCompare old.ballot new.ballot with
  | .lt => true
  | .gt => false
  | .eq =>
    match compare new.nPrepared old.nPrepared with
    | .gt => true
    | .lt => false
    | .eq => decide (old.nH < new.nH)

/-- Phases in their order; nominations never reach the comparison. -/
def ballotRank : ScpStatementPledges V H → Nat
  | .prepare _ => 0
  | .confirm _ => 1
  | .externalize _ => 2
  | .nominate _ => 0

def isNewerBallotSt (old new : ScpStatement N V H) : Bool :=
  if ballotRank old.pledges != ballotRank new.pledges then
    decide (ballotRank old.pledges < ballotRank new.pledges)
  else
    match old.pledges, new.pledges with
    | .prepare old, .prepare new => isNewerPrepare old new
    | .confirm old, .confirm new => isNewerConfirm old new
    | _, _ => false

/-- The four quantities that order PREPARE statements. -/
def ScpStatementPrepare.key (prep : ScpStatementPrepare V H) :
    ScpBallot V ×ₗ WithBot (ScpBallot V) ×ₗ WithBot (ScpBallot V) ×ₗ U32 :=
  toLex (prep.ballot, toLex (prep.prepared, toLex (prep.preparedPrime, prep.nH)))

/-- The three quantities that order CONFIRM statements. -/
def ScpStatementConfirm.key (conf : ScpStatementConfirm V H) : ScpBallot V ×ₗ U32 ×ₗ U32 :=
  toLex (conf.ballot, toLex (conf.nPrepared, conf.nH))

theorem cmpOptBallot_eq (a b : Option (ScpBallot V)) :
    cmpOptBallot a b = @compare (WithBot (ScpBallot V)) LinearOrder.toOrd a b := by
  symm
  cases a with
  | none =>
    cases b with
    | none => exact compare_eq_iff_eq.mpr rfl
    | some b => exact compare_lt_iff_lt.mpr (WithBot.bot_lt_coe b)
  | some a =>
    cases b with
    | none => exact compare_gt_iff_gt.mpr (WithBot.bot_lt_coe a)
    | some b =>
      simp only [cmpOptBallot, ballotCompare_eq]
      rcases lt_trichotomy a b with hlt | heq | hgt
      · rw [compare_lt_iff_lt.mpr hlt]
        exact compare_lt_iff_lt.mpr (WithBot.coe_lt_coe.mpr hlt)
      · rw [compare_eq_iff_eq.mpr heq]
        exact compare_eq_iff_eq.mpr (congrArg _ heq)
      · rw [compare_gt_iff_gt.mpr hgt]
        exact compare_gt_iff_gt.mpr (WithBot.coe_lt_coe.mpr hgt)

/-- Testing the first component and then the rest is the lexicographic order. -/
private theorem lex_lt_of_compare {α β : Type*} [LinearOrder α] [LinearOrder β] (a a' : α)
    (b b' : β) {rest : Bool} (hrest : rest = true ↔ b < b') :
    (match compare a a' with
      | .lt => true
      | .gt => false
      | .eq => rest) = true ↔ toLex (a, b) < toLex (a', b') := by
  rw [Prod.Lex.toLex_lt_toLex]
  rcases lt_trichotomy a a' with hlt | heq | hgt
  · simp [compare_lt_iff_lt.mpr hlt, hlt]
  · simp [heq, hrest]
  · simp [compare_gt_iff_gt.mpr hgt, hgt.not_gt, hgt.ne']

theorem isNewerPrepare_iff (old new : ScpStatementPrepare V H) :
    isNewerPrepare old new = true ↔ old.key < new.key := by
  unfold isNewerPrepare ScpStatementPrepare.key
  simp only [ballotCompare_eq, cmpOptBallot_eq]
  exact lex_lt_of_compare _ _ _ _
    (lex_lt_of_compare _ _ _ _ (lex_lt_of_compare _ _ _ _ decide_eq_true_iff))

theorem isNewerConfirm_iff (old new : ScpStatementConfirm V H) :
    isNewerConfirm old new = true ↔ old.key < new.key := by
  unfold isNewerConfirm ScpStatementConfirm.key
  simp only [ballotCompare_eq]
  refine lex_lt_of_compare _ _ _ _ ?_
  rw [← lex_lt_of_compare old.nPrepared new.nPrepared old.nH new.nH decide_eq_true_iff]
  rcases lt_trichotomy old.nPrepared new.nPrepared with hlt | heq | hgt
  · rw [compare_gt_iff_gt.mpr hlt, compare_lt_iff_lt.mpr hlt]
  · rw [compare_eq_iff_eq.mpr heq.symm, compare_eq_iff_eq.mpr heq]
  · rw [compare_lt_iff_lt.mpr hgt, compare_gt_iff_gt.mpr hgt]

@[simp]
theorem isNewerBallotSt_prepare (a b : N) (i j : Nat) (old new : ScpStatementPrepare V H) :
    isNewerBallotSt ⟨a, i, .prepare old⟩ ⟨b, j, .prepare new⟩ = isNewerPrepare old new := by
  simp [isNewerBallotSt, ballotRank]

@[simp]
theorem isNewerBallotSt_confirm (a b : N) (i j : Nat) (old new : ScpStatementConfirm V H) :
    isNewerBallotSt ⟨a, i, .confirm old⟩ ⟨b, j, .confirm new⟩ = isNewerConfirm old new := by
  simp [isNewerBallotSt, ballotRank]

/-- A later phase is always fresher. -/
theorem isNewerBallotSt_of_rank {old new : ScpStatement N V H}
    (hrank : ballotRank old.pledges < ballotRank new.pledges) : isNewerBallotSt old new = true := by
  simp [isNewerBallotSt, hrank, hrank.ne]

theorem ballotRank_le_of_isNewer {old new : ScpStatement N V H}
    (hnewer : isNewerBallotSt old new = true) :
    ballotRank old.pledges ≤ ballotRank new.pledges := by
  unfold isNewerBallotSt at hnewer
  split at hnewer
  · exact (of_decide_eq_true hnewer).le
  next hrank => simp only [bne_iff_ne, ne_eq, not_not] at hrank; omega

theorem isNewerBallotSt_trans {a b c : ScpStatement N V H} (hab : isNewerBallotSt a b = true)
    (hbc : isNewerBallotSt b c = true) : isNewerBallotSt a c = true := by
  have hle := ballotRank_le_of_isNewer hab
  have hle' := ballotRank_le_of_isNewer hbc
  by_cases hlt : ballotRank a.pledges < ballotRank c.pledges
  · exact isNewerBallotSt_of_rank hlt
  have hab' : ballotRank a.pledges = ballotRank b.pledges := by omega
  have hbc' : ballotRank b.pledges = ballotRank c.pledges := by omega
  obtain ⟨_, _, a⟩ := a
  obtain ⟨_, _, b⟩ := b
  obtain ⟨_, _, c⟩ := c
  cases a <;> cases b <;> cases c <;>
    simp_all [ballotRank, isNewerBallotSt, isNewerPrepare_iff, isNewerConfirm_iff]
  · exact hab.trans hbc
  · exact hab.trans hbc

theorem not_isNewerBallotSt_self (st : ScpStatement N V H) : isNewerBallotSt st st = false := by
  obtain ⟨_, _, pledges⟩ := st
  cases pledges <;>
    simp [isNewerBallotSt, ballotRank, ← Bool.not_eq_true, isNewerPrepare_iff, isNewerConfirm_iff]

end Freshness

end Henyey.Scp
