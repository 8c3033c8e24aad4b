import Mathlib.Data.List.Chain

/-!
# Chains linked by hashes

Each item names the hash of the one before it. Where hashes do not collide, an item is
determined by its place and by the hash of any later item that it leads to.
-/

namespace Foundation

section HashChain

variable {α η : Type} (hash previous : α → η) (index : α → Nat)

/-- The later item names the earlier one and stands right behind it. -/
def Follows (earlier later : α) : Prop :=
  previous later = hash earlier ∧ index later = index earlier + 1

/-- Following the chain from one item leads to the other. -/
abbrev LeadsTo : α → α → Prop :=
  Relation.ReflTransGen (Follows hash previous index)

variable {hash previous index} {item other top : α}

theorem LeadsTo.index_le (hleads : LeadsTo hash previous index item top) :
    index item ≤ index top := by
  induction hleads with
  | refl => exact Nat.le_refl _
  | tail _ hstep ih =>
    have hnext := hstep.2
    omega

theorem LeadsTo.unique (hinjective : Function.Injective hash)
    (hleads : LeadsTo hash previous index item top) (hother : LeadsTo hash previous index other top)
    (hindex : index item = index other) : item = other := by
  induction hleads generalizing other with
  | refl =>
    rcases Relation.ReflTransGen.cases_tail hother with hsame | ⟨before, hbefore, hstep⟩
    · exact hsame
    · have hle := LeadsTo.index_le hbefore
      have hnext := hstep.2
      omega
  | tail hfirst hstep ih =>
    rcases Relation.ReflTransGen.cases_tail hother with rfl | ⟨before, hbefore, hlast⟩
    · have hle := LeadsTo.index_le hfirst
      have hnext := hstep.2
      omega
    · have hsame : before = _ := hinjective (hlast.1.symm.trans hstep.1)
      subst hsame
      exact ih hbefore hindex

theorem leadsTo_of_isChain {items : List α} (hchain : items.IsChain (Follows hash previous index))
    {item : α} (hitem : item ∈ items) {later : α} (hlater : later ∈ items)
    (hle : index item ≤ index later) : LeadsTo hash previous index item later := by
  have hahead : ∀ (first : α) (rest : List α),
      (first :: rest).IsChain (Follows hash previous index) → ∀ found ∈ rest,
        LeadsTo hash previous index first found ∧ index first < index found := by
    intro first rest
    induction rest generalizing first with
    | nil => nofun
    | cons second rest ih =>
      intro hchain found hfound
      rw [List.isChain_cons_cons] at hchain
      obtain ⟨hstep, hrest⟩ := hchain
      have hnext := hstep.2
      rcases List.mem_cons.mp hfound with rfl | hfound
      · exact ⟨Relation.ReflTransGen.single hstep, by omega⟩
      · obtain ⟨hleads, hlt⟩ := ih second hrest found hfound
        exact ⟨hleads.head hstep, by omega⟩
  induction items with
  | nil => cases hitem
  | cons first rest ih =>
    rcases List.mem_cons.mp hitem with rfl | hitemRest
    · rcases List.mem_cons.mp hlater with rfl | hlater
      · exact .refl
      · exact (hahead _ _ hchain later hlater).1
    · rcases List.mem_cons.mp hlater with rfl | hlater
      · have hlt := (hahead _ _ hchain item hitemRest).2
        omega
      · exact ih (List.isChain_of_isChain_cons hchain) hitemRest hlater

/-- The items from one place on, linked and numbered, each to the next. -/
theorem isChain_follows {items : List α}
    (hlinked : items.IsChain fun earlier later => previous later = hash earlier)
    {first length : Nat} (hnumbered : items.map index = List.range' first length) :
    items.IsChain (Follows hash previous index) := by
  have hcount : items.IsChain fun earlier later => index later = index earlier + 1 := by
    have hrange := List.isChain_range' first length 1
    rw [← hnumbered, List.isChain_map] at hrange
    exact hrange
  induction items generalizing first length with
  | nil => exact .nil
  | cons item rest ih =>
    cases rest with
    | nil => exact .singleton item
    | cons second rest =>
      rw [List.isChain_cons_cons] at hlinked hcount ⊢
      refine ⟨⟨hlinked.1, hcount.1⟩, ?_⟩
      cases length with
      | zero => cases hnumbered
      | succ length =>
        rw [List.range'_succ, List.map_cons, List.cons.injEq] at hnumbered
        exact ih hlinked.2 hnumbered.2 hcount.2

end HashChain

end Foundation
