import Mathlib.Data.List.Sort

/-!
# Comparisons that come from a total order

A comparison function that is put together from others, componentwise or along lists,
orders totally if its parts do. Recursive comparisons need this element by element.
-/

namespace Foundation

variable {α : Type*}

/-- How the outer comparison follows from those with a middle element. -/
def Chains (first second outer : Ordering) : Prop :=
  first.isLE = true → second.isLE = true → outer = first.then second

theorem Chains.then : ∀ {first second outer first' second' outer' : Ordering},
    Chains first second outer → Chains first' second' outer' →
      Chains (first.then first') (second.then second') (outer.then outer') := by
  unfold Chains
  decide

/-- The comparisons with `a` are those of a total order. -/
structure TotalAt (cmp : α → α → Ordering) (a : α) : Prop where
  swap : ∀ b, cmp b a = (cmp a b).swap
  eq_of_eq : ∀ b, cmp a b = .eq → a = b
  chain : ∀ b c, Chains (cmp a b) (cmp b c) (cmp a c)

theorem totalAt_compare [LinearOrder α] (a : α) : TotalAt compare a where
  swap b := Std.OrientedOrd.eq_swap
  eq_of_eq b heq := compare_eq_iff_eq.mp heq
  chain b c := by
    intro hab hbc
    rcases Ordering.isLE_iff_eq_lt_or_eq_eq.mp hab with hlt | heq
    · rw [hlt]
      have hbc : b ≤ c := compare_le_iff_le.mp (Ordering.isLE_iff_ne_gt.mp hbc)
      exact compare_lt_iff_lt.mpr (lt_of_lt_of_le (compare_lt_iff_lt.mp hlt) hbc)
    · rw [heq, compare_eq_iff_eq.mp heq]
      rfl

theorem totalAt_compareLex {cmp : α → α → Ordering} {as : List α}
    (htotal : ∀ a ∈ as, TotalAt cmp a) : TotalAt (List.compareLex cmp) as := by
  induction as with
  | nil =>
    refine ⟨fun b => ?_, fun b heq => ?_, fun b c hab hbc => ?_⟩
    · cases b <;> rfl
    · cases b with
      | nil => rfl
      | cons b bs => rw [List.compareLex_nil_cons] at heq; cases heq
    · cases b with
      | nil => rfl
      | cons b bs =>
        cases c with
        | nil => rw [List.compareLex_cons_nil] at hbc; cases hbc
        | cons c cs => rfl
  | cons a as ih =>
    have ha := htotal a List.mem_cons_self
    have has := ih fun a ha => htotal a (List.mem_cons_of_mem _ ha)
    refine ⟨fun b => ?_, fun b heq => ?_, fun b c => ?_⟩
    · cases b with
      | nil => rfl
      | cons b bs =>
        rw [List.compareLex_cons_cons, List.compareLex_cons_cons, Ordering.swap_then,
          ha.swap, has.swap]
    · cases b with
      | nil => rw [List.compareLex_cons_nil] at heq; cases heq
      | cons b bs =>
        rw [List.compareLex_cons_cons, Ordering.then_eq_eq] at heq
        rw [ha.eq_of_eq b heq.1, has.eq_of_eq bs heq.2]
    · cases b with
      | nil =>
        intro hab
        rw [List.compareLex_cons_nil] at hab
        cases hab
      | cons b bs =>
        cases c with
        | nil =>
          intro _ hbc
          rw [List.compareLex_cons_nil] at hbc
          cases hbc
        | cons c cs =>
          rw [List.compareLex_cons_cons, List.compareLex_cons_cons, List.compareLex_cons_cons]
          exact (ha.chain b c).then (has.chain bs cs)

section Sorting

variable {r : α → α → Prop} [DecidableRel r] [IsTrans α r] [Std.Total r] [Std.Antisymm r]

theorem insertionSort_eq_of_perm {as bs : List α} (hperm : as.Perm bs) :
    as.insertionSort r = bs.insertionSort r := by
  have hsame : (as.insertionSort r).Perm (bs.insertionSort r) :=
    (List.perm_insertionSort r as).trans (hperm.trans (List.perm_insertionSort r bs).symm)
  exact hsame.eq_of_pairwise' (List.pairwise_insertionSort r as) (List.pairwise_insertionSort r bs)

end Sorting

end Foundation
