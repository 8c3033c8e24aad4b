import Mathlib.Algebra.Order.BigOperators.Group.Finset

/-!
# Weighted items in bins

Each item has a weight, and each bin keeps the set of its items next to the sum
of their weights. Putting new items into a bin and taking items out of it keep
that sum right and the bins disjoint.
-/

namespace Foundation

open Function

variable {κ ι : Type} [DecidableEq κ] [DecidableEq ι]

/-- Disjoint bins, each with the weight of what is in it. -/
structure Packs (weight : ι → Nat) (members : κ → Finset ι) (load : κ → Nat) : Prop where
  apart : ∀ bin other, bin ≠ other → Disjoint (members bin) (members other)
  load_eq : ∀ bin, load bin = ∑ item ∈ members bin, weight item

namespace Packs

variable {weight : ι → Nat} {members : κ → Finset ι} {load : κ → Nat}

omit [DecidableEq κ] [DecidableEq ι] in
theorem empty (weight : ι → Nat) : Packs weight (fun _ : κ => ∅) fun _ => 0 where
  apart := fun _ _ _ => Finset.disjoint_empty_left _
  load_eq := fun _ => Finset.sum_empty.symm

variable {items : Finset ι}

section

variable (hpacks : Packs weight members load)
include hpacks

theorem place (hnew : ∀ bin, Disjoint (members bin) items) (bin : κ) :
    Packs weight (update members bin (members bin ∪ items))
      (update load bin (load bin + ∑ item ∈ items, weight item)) where
  apart := by
    intro first second hne
    by_cases hfirst : first = bin
    · have hsecond : second ≠ bin := fun heq => hne (hfirst.trans heq.symm)
      subst hfirst
      rw [update_self, update_of_ne hsecond]
      exact Finset.disjoint_union_left.mpr
        ⟨hpacks.apart first second hne, (hnew second).symm⟩
    · rw [update_of_ne hfirst]
      by_cases hsecond : second = bin
      · subst hsecond
        rw [update_self]
        exact Finset.disjoint_union_right.mpr ⟨hpacks.apart first second hne, hnew first⟩
      · rw [update_of_ne hsecond]
        exact hpacks.apart first second hne
  load_eq := by
    intro other
    by_cases hother : other = bin
    · subst hother
      rw [update_self, update_self, Finset.sum_union (hnew other), hpacks.load_eq]
    · rw [update_of_ne hother, update_of_ne hother]
      exact hpacks.load_eq other

omit [DecidableEq κ] [DecidableEq ι] in
theorem weight_le {bin : κ}
    (hin : items ⊆ members bin) : ∑ item ∈ items, weight item ≤ load bin := by
  rw [hpacks.load_eq]
  exact Finset.sum_le_sum_of_subset hin

theorem remove {bin : κ} (hin : items ⊆ members bin) :
    Packs weight (update members bin (members bin \ items))
      (update load bin (load bin - ∑ item ∈ items, weight item)) where
  apart := by
    intro first second hne
    have hsmaller : ∀ other, update members bin (members bin \ items) other ⊆ members other := by
      intro other
      by_cases hother : other = bin
      · subst hother
        rw [update_self]
        exact Finset.sdiff_subset
      · rw [update_of_ne hother]
    exact (hpacks.apart first second hne).mono (hsmaller first) (hsmaller second)
  load_eq := by
    intro other
    by_cases hother : other = bin
    · subst hother
      rw [update_self, update_self, hpacks.load_eq, ← Finset.sum_sdiff hin, Nat.add_sub_cancel]
    · rw [update_of_ne hother, update_of_ne hother]
      exact hpacks.load_eq other

omit [DecidableEq κ] [DecidableEq ι] in
theorem bin_unique {bin other : κ} (hin : items ⊆ members bin)
    (hmeet : ¬ Disjoint (members other) items) : other = bin := by
  by_contra hne
  exact hmeet ((hpacks.apart other bin hne).mono_right hin)

end

end Packs

end Foundation
