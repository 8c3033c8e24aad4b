import Mathlib.Algebra.GroupWithZero.Nat
import Mathlib.Algebra.Order.BigOperators.Group.List
import Mathlib.Data.List.Sort

/-!
# Choosing the cheapest

To take the first of a list of costs in order is to choose that many of them at the
least cost. Where members at cost one are to be had too, one takes these first.
-/

namespace Foundation

open List

variable {costs chosen : List ℕ}

theorem sum_take_le_of_sublist (hsorted : costs.Pairwise (· ≤ ·)) (hsub : chosen.Sublist costs) :
    (costs.take chosen.length).sum ≤ chosen.sum := by
  induction costs generalizing chosen with
  | nil => simp
  | cons cost costs ih =>
    obtain ⟨hleast, hsorted⟩ := pairwise_cons.mp hsorted
    cases chosen with
    | nil => simp
    | cons first chosen =>
      have hrest : chosen.Sublist costs := (cons_sublist_cons'.mp hsub).elim
        (fun h => (sublist_cons_self first chosen).trans h) And.right
      have hfirst : cost ≤ first := by
        rcases mem_cons.mp (hsub.subset mem_cons_self) with hsame | hmem
        · exact hsame.ge
        · exact hleast first hmem
      rw [length_cons, take_succ_cons, sum_cons, sum_cons]
      exact Nat.add_le_add hfirst (ih hsorted hrest)

theorem sum_take_le_of_subperm (hsorted : costs.Pairwise (· ≤ ·)) (hsub : chosen.Subperm costs) :
    (costs.take chosen.length).sum ≤ chosen.sum := by
  have hperm := perm_insertionSort (· ≤ ·) chosen
  have hsublist : (chosen.insertionSort (· ≤ ·)).Sublist costs :=
    sublist_of_subperm_of_pairwise (hperm.subperm.trans hsub)
      (pairwise_insertionSort (· ≤ ·) chosen) hsorted
  have hle := sum_take_le_of_sublist hsorted hsublist
  rwa [length_insertionSort, hperm.sum_eq] at hle

theorem sum_take_add_le (hpos : ∀ cost ∈ costs, 1 ≤ cost) {few many : ℕ} (hle : few ≤ many)
    (hmany : many ≤ costs.length) :
    (costs.take few).sum + (many - few) ≤ (costs.take many).sum := by
  obtain ⟨more, rfl⟩ := Nat.exists_eq_add_of_le hle
  rw [take_add, sum_append, Nat.add_sub_cancel_left]
  have hlength : ((costs.drop few).take more).length = more := by
    rw [length_take, length_drop]
    omega
  have hsum := length_le_sum_of_one_le ((costs.drop few).take more) fun cost hcost =>
    hpos cost (mem_of_mem_drop (mem_of_mem_take hcost))
  omega

/-- Of `direct` members at cost one and others at given costs, `needed` are taken: the
direct ones first, then the cheapest. No other choice costs less. -/
theorem cheapest_le (hsorted : costs.Pairwise (· ≤ ·)) (hpos : ∀ cost ∈ costs, 1 ≤ cost)
    (hsub : chosen.Subperm costs) {needed direct taken : ℕ} (htaken : taken ≤ direct)
    (henough : needed ≤ taken + chosen.length) :
    min needed direct + (costs.take (needed - min needed direct)).sum ≤ taken + chosen.sum := by
  have hchosen := sum_take_le_of_subperm hsorted hsub
  by_cases hfew : needed - min needed direct ≤ chosen.length
  · have hmore := sum_take_add_le hpos hfew hsub.length_le
    omega
  · omega

end Foundation
