import Henyey.TxQueue.SurgePricing
import Mathlib.Data.Rat.Floor
import Mathlib.Tactic.Positivity

/-!
# The order of queue entries

Entries that bid for at least one operation are strictly ordered by what they
pay per operation, then by tie breaker and hash, so a lane is determined by the
entries in it.
-/

namespace Henyey.TxQueue

namespace FeeRate

/-- The fee per operation as a number. -/
def perOp (rate : FeeRate) : Rat := (rate.inclusionFee : Rat) / (rate.opCount : Rat)

theorem cmpRate_eq_compare {a b : FeeRate} (ha : 0 < a.opCount) (hb : 0 < b.opCount) :
    a.cmpRate b = compare a.perOp b.perOp := by
  have hapos : (0 : Rat) < a.opCount := by exact_mod_cast ha
  have hbpos : (0 : Rat) < b.opCount := by exact_mod_cast hb
  have hlt : a.inclusionFee * b.opCount < b.inclusionFee * a.opCount ↔ a.perOp < b.perOp := by
    rw [perOp, perOp, div_lt_div_iff₀ hapos hbpos]
    exact_mod_cast Iff.rfl
  have heq : a.inclusionFee * b.opCount = b.inclusionFee * a.opCount ↔ a.perOp = b.perOp := by
    rw [perOp, perOp, div_eq_div_iff hapos.ne' hbpos.ne']
    exact_mod_cast Iff.rfl
  rw [cmpRate]
  rcases lt_trichotomy a.perOp b.perOp with h | h | h
  · rw [compare_lt_iff_lt.mpr h, compare_lt_iff_lt.mpr (hlt.mpr h)]
  · rw [compare_eq_iff_eq.mpr h, compare_eq_iff_eq.mpr (heq.mpr h)]
  · rw [compare_gt_iff_gt.mpr h, compare_gt_iff_gt.mpr]
    exact lt_of_not_ge fun hle => by
      rcases hle.lt_or_eq with hl | he
      · exact absurd (hlt.mp hl) (not_lt.mpr h.le)
      · exact absurd (heq.mp he) h.ne'

end FeeRate

namespace QueueEntry

/-- Fees are bid for at least one operation. -/
def Rated (entry : QueueEntry) : Prop := 0 < entry.feeRate.opCount

theorem cmp_eq_lt {a b : QueueEntry} (ha : a.Rated) (hb : b.Rated) :
    a.cmp b = .lt ↔ a.feeRate.perOp < b.feeRate.perOp ∨ a.feeRate.perOp = b.feeRate.perOp ∧
      (b.tieBreaker < a.tieBreaker ∨ b.tieBreaker = a.tieBreaker ∧ b.hash < a.hash) := by
  rw [cmp, FeeRate.cmpRate_eq_compare ha hb, Ordering.then_eq_lt, Ordering.then_eq_lt]
  simp only [compare_lt_iff_lt, compare_eq_iff_eq]

theorem cmp_trans {a b c : QueueEntry} (ha : a.Rated) (hb : b.Rated) (hc : c.Rated)
    (hab : a.cmp b = .lt) (hbc : b.cmp c = .lt) : a.cmp c = .lt := by
  rw [cmp_eq_lt ha hb] at hab
  rw [cmp_eq_lt hb hc] at hbc
  rw [cmp_eq_lt ha hc]
  grind

theorem cmp_swap (a b : QueueEntry) : (a.cmp b).swap = b.cmp a := by
  simp [cmp, FeeRate.cmpRate, Ordering.swap_then, Int.compare_swap, Nat.compare_swap]

end QueueEntry

namespace SurgePricingPriorityQueue

theorem insertEntry_sorted {entry : QueueEntry} {lane : List QueueEntry} (hentry : entry.Rated)
    (hrated : ∀ other ∈ lane, other.Rated) (hne : ∀ other ∈ lane, other.cmp entry ≠ .eq)
    (hsorted : lane.Pairwise fun a b => a.cmp b = .lt) :
    (insertEntry entry lane).Pairwise fun a b => a.cmp b = .lt := by
  induction lane with
  | nil => simp [insertEntry]
  | cons head rest ih =>
    obtain ⟨hhead, hrest⟩ := List.pairwise_cons.mp hsorted
    have hheadRated := hrated head List.mem_cons_self
    have hswap := QueueEntry.cmp_swap entry head
    have hneq := hne head List.mem_cons_self
    unfold insertEntry
    rw [List.orderedInsert_cons]
    split
    · next hle =>
      have hlt : entry.cmp head = .lt := by
        cases hcmp : entry.cmp head with
        | lt => rfl
        | eq => exact absurd (by rw [← hswap, hcmp]; rfl) hneq
        | gt => exact absurd hcmp hle
      refine List.pairwise_cons.mpr ⟨fun other hother => ?_, hsorted⟩
      cases hother with
      | head => exact hlt
      | tail _ hother =>
        exact QueueEntry.cmp_trans hentry hheadRated (hrated other (.tail _ hother)) hlt
          (hhead other hother)
    · next hgt =>
      have hlt : head.cmp entry = .lt := by
        rw [← hswap, not_not.mp hgt]
        rfl
      refine List.pairwise_cons.mpr ⟨fun other hother => ?_, ih (fun o ho => hrated o (.tail _ ho))
        (fun o ho => hne o (.tail _ ho)) hrest⟩
      rcases List.mem_orderedInsert _ |>.mp hother with rfl | hother
      · exact hlt
      · exact hhead other hother

theorem lane_ext {lane other : List QueueEntry} (hsorted : lane.Pairwise fun a b => a.cmp b = .lt)
    (hother : other.Pairwise fun a b => a.cmp b = .lt)
    (hmem : ∀ entry, entry ∈ lane ↔ entry ∈ other) : lane = other := by
  -- a strict order lists nothing twice
  have hirrefl : ∀ {l : List QueueEntry}, l.Pairwise (fun a b => a.cmp b = .lt) → l.Nodup :=
    fun h => h.imp fun hlt heq => by subst heq; simp at hlt
  have hperm := (List.perm_ext_iff_of_nodup (hirrefl hsorted) (hirrefl hother)).mpr hmem
  refine hperm.eq_of_pairwise (fun a b _ _ hab hba => ?_) hsorted hother
  rw [← QueueEntry.cmp_swap, hab] at hba
  cases hba

end SurgePricingPriorityQueue

end Henyey.TxQueue
