import Henyey.TxQueue.Envelope
import Mathlib.Data.Finset.Basic
import Mathlib.Data.List.Duplicate
import Mathlib.Data.List.ProdSigma

/-!
# Footprint conflicts

Two Soroban transactions conflict when both write a key, or one reads a key the
other writes. The builder marks the conflicts of all transactions once, by their
position in the list it was given.
-/

namespace Henyey.TxSet

open Henyey.TxQueue

/-- A set of transaction ids. -/
abbrev BitSet : Type := Finset Nat

/-- A transaction envelope paired with its hash. -/
structure HashedTx where
  hash : Hash256
  envelope : TransactionEnvelope
deriving DecidableEq

namespace HashedTx

def readOnly (tx : HashedTx) : List FootprintKey :=
  ((envelopeSorobanData tx.envelope).map (·.resources.readOnly)).getD []

def readWrite (tx : HashedTx) : List FootprintKey :=
  ((envelopeSorobanData tx.envelope).map (·.resources.readWrite)).getD []

def instructions (tx : HashedTx) : Nat :=
  ((envelopeSorobanData tx.envelope).map (·.resources.instructions)).getD 0

def inclusionFee (tx : HashedTx) : Int := envelopeInclusionFee tx.envelope

end HashedTx

/-- Both write a key, or one reads a key the other writes. -/
def FootprintsConflict (t u : HashedTx) : Prop :=
  ∃ key, key ∈ t.readWrite ∧ key ∈ u.readWrite ∨ key ∈ t.readOnly ∧ key ∈ u.readWrite ∨
    key ∈ t.readWrite ∧ key ∈ u.readOnly

/-- The ids pushed under a key, once for each time a footprint lists it. -/
def keyTxs (footprint : HashedTx → List FootprintKey) (key : FootprintKey) (txs : List HashedTx) :
    List Nat :=
  txs.zipIdx.flatMap fun entry => ((footprint entry.1).filter (· = key)).map fun _ => entry.2

def laterPairs {α : Type} : List α → List (α × α)
  | [] => []
  | a :: rest => rest.map (fun b => (a, b)) ++ laterPairs rest

/-- The pairs of ids that are marked, key by key. -/
def conflictPairs (txs : List HashedTx) : List (Nat × Nat) :=
  let rwKeys := (txs.flatMap HashedTx.readWrite).dedup
  (rwKeys.flatMap fun key => laterPairs (keyTxs HashedTx.readWrite key txs)) ++
    rwKeys.flatMap fun key =>
      (keyTxs HashedTx.readOnly key txs ×ˢ keyTxs HashedTx.readWrite key txs).filter
        fun pair => pair.1 ≠ pair.2

/-- Mark both transactions of a pair. -/
def markConflict (conflicts : Nat → BitSet) (pair : Nat × Nat) : Nat → BitSet :=
  let marked := Function.update conflicts pair.1 (insert pair.2 (conflicts pair.1))
  Function.update marked pair.2 (insert pair.1 (marked pair.2))

def detectConflicts (txs : List HashedTx) : Nat → BitSet :=
  (conflictPairs txs).foldl markConflict fun _ => ∅

variable {a b : Nat}

theorem mem_markConflict {conflicts : Nat → BitSet} {pair : Nat × Nat} :
    b ∈ markConflict conflicts pair a ↔ b ∈ conflicts a ∨ (a, b) = pair ∨ (b, a) = pair := by
  obtain ⟨x, y⟩ := pair
  simp only [markConflict, Function.update_apply, Prod.mk.injEq]
  split <;> split <;> simp_all [Finset.mem_insert] <;> grind

theorem mem_foldl_markConflict {pairs : List (Nat × Nat)} {conflicts : Nat → BitSet} :
    b ∈ pairs.foldl markConflict conflicts a ↔
      b ∈ conflicts a ∨ (a, b) ∈ pairs ∨ (b, a) ∈ pairs := by
  induction pairs generalizing conflicts with
  | nil => simp
  | cons pair rest ih =>
    rw [List.foldl_cons, ih, mem_markConflict, List.mem_cons, List.mem_cons]
    tauto

theorem mem_laterPairs_of_ne {α : Type} {l : List α} {a b : α} (hne : a ≠ b) :
    ((a, b) ∈ laterPairs l ∨ (b, a) ∈ laterPairs l) ↔ a ∈ l ∧ b ∈ l := by
  induction l with
  | nil => simp [laterPairs]
  | cons c rest ih =>
    simp only [laterPairs, List.mem_append, List.mem_map, Prod.mk.injEq, List.mem_cons]
    grind

theorem mem_laterPairs_self {α : Type} {l : List α} {a : α} :
    (a, a) ∈ laterPairs l ↔ List.Duplicate a l := by
  induction l with
  | nil => simp [laterPairs]
  | cons c rest ih =>
    simp only [laterPairs, List.mem_append, List.mem_map, Prod.mk.injEq, ih,
      List.duplicate_cons_iff]
    grind

variable {txs : List HashedTx} {key : FootprintKey} {footprint : HashedTx → List FootprintKey}

theorem mem_keyTxs {id : Nat} :
    id ∈ keyTxs footprint key txs ↔ ∃ tx, txs[id]? = some tx ∧ key ∈ footprint tx := by
  simp only [keyTxs, List.mem_flatMap, List.mem_map, List.mem_filter, decide_eq_true_eq]
  constructor
  · rintro ⟨⟨tx, other⟩, hentry, key', ⟨hkey, rfl⟩, rfl⟩
    exact ⟨tx, List.mem_zipIdx_iff_getElem?.mp hentry, hkey⟩
  · rintro ⟨tx, htx, hkey⟩
    exact ⟨(tx, id), List.mem_zipIdx_iff_getElem?.mpr htx, key, ⟨hkey, rfl⟩, rfl⟩

theorem mem_rwKeys_of_mem_keyTxs {id : Nat} (hid : id ∈ keyTxs HashedTx.readWrite key txs) :
    key ∈ (txs.flatMap HashedTx.readWrite).dedup := by
  obtain ⟨tx, htx, hkey⟩ := mem_keyTxs.mp hid
  exact List.mem_dedup.mpr (List.mem_flatMap.mpr ⟨tx, List.mem_of_getElem? htx, hkey⟩)

theorem mem_conflictPairs :
    (a, b) ∈ conflictPairs txs ↔
      (∃ key, (a, b) ∈ laterPairs (keyTxs HashedTx.readWrite key txs)) ∨
        a ≠ b ∧ ∃ key, a ∈ keyTxs HashedTx.readOnly key txs ∧
          b ∈ keyTxs HashedTx.readWrite key txs := by
  simp only [conflictPairs, List.mem_append, List.mem_flatMap, List.mem_filter,
    List.mem_product, decide_eq_true_eq]
  have hwriter : ∀ {key x y}, (x, y) ∈ laterPairs (keyTxs HashedTx.readWrite key txs) →
      x ∈ keyTxs HashedTx.readWrite key txs := by
    intro key x y hpair
    by_cases hne : x = y
    · subst hne
      exact (mem_laterPairs_self.mp hpair).mem
    · exact ((mem_laterPairs_of_ne hne).mp (.inl hpair)).1
  constructor
  · rintro (⟨key, -, hpair⟩ | ⟨key, -, ⟨ha, hb⟩, hne⟩)
    · exact .inl ⟨key, hpair⟩
    · exact .inr ⟨hne, key, ha, hb⟩
  · rintro (⟨key, hpair⟩ | ⟨hne, key, ha, hb⟩)
    · exact .inl ⟨key, mem_rwKeys_of_mem_keyTxs (hwriter hpair), hpair⟩
    · exact .inr ⟨key, mem_rwKeys_of_mem_keyTxs hb, ⟨ha, hb⟩, hne⟩

theorem mem_detectConflicts (hne : a ≠ b) :
    b ∈ detectConflicts txs a ↔
      ∃ t u, txs[a]? = some t ∧ txs[b]? = some u ∧ FootprintsConflict t u := by
  rw [detectConflicts, mem_foldl_markConflict, mem_conflictPairs, mem_conflictPairs]
  simp only [Finset.notMem_empty, false_or]
  constructor
  · rintro ((⟨key, hpair⟩ | ⟨-, key, ha, hb⟩) | ⟨key, hpair⟩ | ⟨-, key, hb, ha⟩)
    · obtain ⟨ha, hb⟩ := (mem_laterPairs_of_ne hne).mp (.inl hpair)
      obtain ⟨t, ht, htkey⟩ := mem_keyTxs.mp ha
      obtain ⟨u, hu, hukey⟩ := mem_keyTxs.mp hb
      exact ⟨t, u, ht, hu, key, .inl ⟨htkey, hukey⟩⟩
    · obtain ⟨t, ht, htkey⟩ := mem_keyTxs.mp ha
      obtain ⟨u, hu, hukey⟩ := mem_keyTxs.mp hb
      exact ⟨t, u, ht, hu, key, .inr (.inl ⟨htkey, hukey⟩)⟩
    · obtain ⟨ha, hb⟩ := (mem_laterPairs_of_ne hne).mp (.inr hpair)
      obtain ⟨t, ht, htkey⟩ := mem_keyTxs.mp ha
      obtain ⟨u, hu, hukey⟩ := mem_keyTxs.mp hb
      exact ⟨t, u, ht, hu, key, .inl ⟨htkey, hukey⟩⟩
    · obtain ⟨t, ht, htkey⟩ := mem_keyTxs.mp ha
      obtain ⟨u, hu, hukey⟩ := mem_keyTxs.mp hb
      exact ⟨t, u, ht, hu, key, .inr (.inr ⟨htkey, hukey⟩)⟩
  · rintro ⟨t, u, ht, hu, key, ⟨htkey, hukey⟩ | ⟨htkey, hukey⟩ | ⟨htkey, hukey⟩⟩
    · have hboth := (mem_laterPairs_of_ne hne).mpr
        ⟨mem_keyTxs.mpr ⟨t, ht, htkey⟩, mem_keyTxs.mpr ⟨u, hu, hukey⟩⟩
      exact hboth.elim (fun hpair => .inl (.inl ⟨key, hpair⟩))
        fun hpair => .inr (.inl ⟨key, hpair⟩)
    · exact .inl (.inr ⟨hne, key, mem_keyTxs.mpr ⟨t, ht, htkey⟩, mem_keyTxs.mpr ⟨u, hu, hukey⟩⟩)
    · exact .inr (.inr
        ⟨hne.symm, key, mem_keyTxs.mpr ⟨u, hu, hukey⟩, mem_keyTxs.mpr ⟨t, ht, htkey⟩⟩)

/-- Marking is symmetric. -/
theorem detectConflicts_symm : b ∈ detectConflicts txs a ↔ a ∈ detectConflicts txs b := by
  simp only [detectConflicts, mem_foldl_markConflict, Finset.notMem_empty, false_or]
  exact or_comm

theorem count_pushed {footprint : List FootprintKey} {own id : Nat} :
    ((footprint.filter (· = key)).map fun _ => own).count id =
      if own = id then footprint.count key else 0 := by
  rw [List.map_const', List.count_replicate, List.count_eq_length_filter]
  simp [beq_eq_decide]

theorem count_pushedFrom (footprint : HashedTx → List FootprintKey) (key : FootprintKey)
    (txs : List HashedTx) (start id : Nat) :
    ((txs.zipIdx start).flatMap fun entry =>
        ((footprint entry.1).filter (· = key)).map fun _ => entry.2).count id =
      if start ≤ id then ((txs[id - start]?).map fun tx => (footprint tx).count key).getD 0
      else 0 := by
  induction txs generalizing start with
  | nil => simp
  | cons head rest ih =>
    rw [List.zipIdx_cons, List.flatMap_cons, List.count_append, count_pushed, ih]
    rcases lt_trichotomy start id with hlt | rfl | hlt
    · rw [if_neg hlt.ne, if_pos (Nat.succ_le_of_lt hlt), if_pos hlt.le, Nat.zero_add,
        show id - start = id - (start + 1) + 1 by omega, List.getElem?_cons_succ]
    · rw [if_pos rfl, if_neg (by omega), if_pos le_rfl, Nat.sub_self, List.getElem?_cons_zero]
      rfl
    · rw [if_neg hlt.ne', if_neg (by omega), if_neg (by omega)]

theorem count_keyTxs {id : Nat} {tx : HashedTx} (htx : txs[id]? = some tx) :
    (keyTxs footprint key txs).count id = (footprint tx).count key := by
  rw [keyTxs, count_pushedFrom, if_pos (Nat.zero_le id), Nat.sub_zero, htx]
  rfl

/-- A transaction is marked against itself when it lists a written key twice. -/
theorem mem_detectConflicts_self {a : Nat} :
    a ∈ detectConflicts txs a ↔ ∃ tx, txs[a]? = some tx ∧ ∃ key, 2 ≤ tx.readWrite.count key := by
  rw [detectConflicts, mem_foldl_markConflict, mem_conflictPairs]
  simp only [Finset.notMem_empty, false_or, or_self, ne_eq, not_true_eq_false, false_and, or_false,
    mem_laterPairs_self]
  constructor
  · rintro ⟨key, htwice⟩
    obtain ⟨tx, htx, -⟩ := mem_keyTxs.mp htwice.mem
    refine ⟨tx, htx, key, ?_⟩
    rwa [← count_keyTxs htx, ← List.duplicate_iff_two_le_count]
  · rintro ⟨tx, htx, key, htwice⟩
    refine ⟨key, ?_⟩
    rwa [List.duplicate_iff_two_le_count, count_keyTxs htx]

end Henyey.TxSet
