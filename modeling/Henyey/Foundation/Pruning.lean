import Mathlib.Data.Finset.Powerset

/-!
# Pruning a finite set to its greatest supported subset

A support predicate says whether a set supports a member. Repeatedly dropping
the unsupported members reaches the greatest subset all of whose members are
supported, provided that enlarging a set never withdraws support.
-/

namespace Foundation.Pruning

variable {α : Type*}

/-- Every member of the set is supported by the set itself. -/
def Closed (supports : Finset α → α → Bool) (s : Finset α) : Prop :=
  ∀ x ∈ s, supports s x = true

/-- Enlarging a set never withdraws support. -/
def Monotone (supports : Finset α → α → Bool) : Prop :=
  ∀ ⦃s t : Finset α⦄, s ⊆ t → ∀ x, supports s x = true → supports t x = true

/-- One round: keep the members that the whole set supports. -/
def round (supports : Finset α → α → Bool) (s : Finset α) : Finset α :=
  s.filter (fun x => supports s x)

/-- Rounds are repeated until one of them drops nothing. -/
def prune (supports : Finset α → α → Bool) : Nat → Finset α → Finset α
  | 0, s => s
  | fuel + 1, s =>
    if (round supports s).card = s.card then s else prune supports fuel (round supports s)

variable {supports : Finset α → α → Bool}

theorem round_subset (s : Finset α) : round supports s ⊆ s :=
  Finset.filter_subset _ _

theorem mem_round {s : Finset α} {x : α} : x ∈ round supports s ↔ x ∈ s ∧ supports s x = true :=
  Finset.mem_filter

theorem closed_of_round_card {s : Finset α} (hcard : (round supports s).card = s.card) :
    Closed supports s := by
  have hround : round supports s = s :=
    Finset.eq_of_subset_of_card_le (round_subset s) hcard.ge
  intro x hx
  rw [← hround] at hx
  exact (mem_round.mp hx).2

theorem Closed.subset_round (hmono : Monotone supports) {s u : Finset α} (hu : Closed supports u)
    (hsub : u ⊆ s) : u ⊆ round supports s :=
  fun x hx => mem_round.mpr ⟨hsub hx, hmono hsub x (hu x hx)⟩

theorem prune_subset (fuel : Nat) (s : Finset α) : prune supports fuel s ⊆ s := by
  induction fuel generalizing s with
  | zero => exact Finset.Subset.refl s
  | succ fuel ih =>
    unfold prune
    split
    · exact Finset.Subset.refl s
    · exact (ih _).trans (round_subset s)

theorem Closed.subset_prune (hmono : Monotone supports) {u : Finset α} (hu : Closed supports u)
    (fuel : Nat) (s : Finset α) (hsub : u ⊆ s) : u ⊆ prune supports fuel s := by
  induction fuel generalizing s with
  | zero => exact hsub
  | succ fuel ih =>
    unfold prune
    split
    · exact hsub
    · exact ih _ (hu.subset_round hmono hsub)

/-- As many rounds as there are members always reach a closed set. -/
theorem closed_prune (fuel : Nat) (s : Finset α) (hfuel : s.card ≤ fuel) :
    Closed supports (prune supports fuel s) := by
  induction fuel generalizing s with
  | zero =>
    have hempty : s = ∅ := Finset.card_eq_zero.mp (Nat.le_zero.mp hfuel)
    subst hempty
    intro x hx
    simp [prune] at hx
  | succ fuel ih =>
    unfold prune
    split
    next hcard => exact closed_of_round_card hcard
    next hcard =>
      have hsub : round supports s ⊆ s := round_subset s
      have hle := Finset.card_le_card hsub
      exact ih _ (by omega)

/-- Pruning with enough rounds answers whether some closed subset lies below a
monotone test. -/
theorem test_prune_iff (hmono : Monotone supports) {test : Finset α → Bool}
    (htest : ∀ ⦃s t : Finset α⦄, s ⊆ t → test s = true → test t = true) (s : Finset α) :
    test (prune supports s.card s) = true ↔ ∃ u ⊆ s, Closed supports u ∧ test u = true := by
  constructor
  · intro hprune
    exact ⟨_, prune_subset _ s, closed_prune _ s le_rfl, hprune⟩
  · rintro ⟨u, hsub, hclosed, hu⟩
    exact htest (hclosed.subset_prune hmono _ s hsub) hu

end Foundation.Pruning
