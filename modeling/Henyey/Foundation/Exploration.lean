import Mathlib.Data.Nat.Notation

/-!
# Exploring a finite system by levels

The states that a system reaches in a given number of steps form a level. A computation
goes from level to level, keeps one copy of each state, and checks every state it meets.
When a level comes out empty, it has met every state that is ever reached.
-/

namespace Foundation

variable {State : Type}

/-- A walk of a given number of steps. -/
inductive Walk (next : State → List State) : ℕ → State → State → Prop where
  | nil (s : State) : Walk next 0 s s
  | cons {n : ℕ} {s t u : State} (hstep : t ∈ next s) (hrest : Walk next n t u) :
      Walk next (n + 1) s u

/-- Values that can be handed on with all their parts evaluated. -/
class Forced (α : Type) where
  forced : α → (α → Bool) → Bool
  forced_eq : ∀ value rest, forced value rest = rest value

export Forced (forced forced_eq)

instance : Forced Bool where
  forced
    | false, rest => rest false
    | true, rest => rest true
  forced_eq value _ := by cases value <;> rfl

instance : Forced ℕ where
  forced
    | 0, rest => rest 0
    | n + 1, rest => rest (n + 1)
  forced_eq value _ := by cases value <;> rfl

instance {α : Type} [Forced α] : Forced (Option α) where
  forced
    | none, rest => rest none
    | some value, rest => forced value fun value => rest (some value)
  forced_eq value _ := by
    cases value with
    | none => rfl
    | some value => exact forced_eq value _

instance {α β : Type} [Forced α] [Forced β] : Forced (α × β) where
  forced pair rest :=
    match pair with
    | (first, second) => forced first fun first => forced second fun second => rest (first, second)
  forced_eq _ _ := by simp only [forced_eq]

/-- A system to explore. Two states are compared by their keys before anything else. -/
structure Explorer (State : Type) where
  next : State → List State
  key : State → ℕ

namespace Explorer

variable [DecidableEq State] [Forced State] (x : Explorer State)

def holds (key : ℕ) (s : State) : List (ℕ × State) → Bool
  | [] => false
  | (key', t) :: level => Nat.beq key' key && decide (t = s) || holds key s level

def addAll : List State → List (ℕ × State) → (List (ℕ × State) → Bool) → Bool
  | [], level, rest => rest level
  | s :: more, level, rest =>
    forced s fun s => forced (x.key s) fun key =>
      bif holds key s level then addAll more level rest
      else addAll more ((key, s) :: level) rest

/-- Checks a level and every later one; the last level has to be empty. -/
def exploreFrom (good : State → Bool) : ℕ → List (ℕ × State) → Bool
  | 0, level => level.isEmpty
  | fuel + 1, level =>
    level.all (fun kept => good kept.2) &&
      x.addAll (level.flatMap fun kept => x.next kept.2) [] (exploreFrom good fuel)

/-- Every state reached from `start` is good and is reached in less than `fuel` steps. -/
def explore (good : State → Bool) (fuel : ℕ) (start : State) : Bool :=
  x.exploreFrom good fuel [(0, start)]

variable {x} {level : List (ℕ × State)}

omit [Forced State] in
theorem mem_of_holds {key : ℕ} {s : State}
    (hholds : holds key s level = true) : ∃ kept ∈ level, kept.2 = s := by
  induction level with
  | nil => exact absurd hholds Bool.false_ne_true
  | cons kept level ih =>
    rw [holds, Bool.or_eq_true, Bool.and_eq_true] at hholds
    rcases hholds with ⟨-, hsame⟩ | hlater
    · exact ⟨kept, List.mem_cons_self, of_decide_eq_true hsame⟩
    · obtain ⟨later, hmem, hsame⟩ := ih hlater
      exact ⟨later, List.mem_cons_of_mem kept hmem, hsame⟩

theorem of_addAll {candidates : List State} {rest : List (ℕ × State) → Bool}
    (hadd : x.addAll candidates level rest = true) :
    ∃ level', rest level' = true ∧ (∀ s ∈ candidates, ∃ kept ∈ level', kept.2 = s) ∧
      level ⊆ level' := by
  induction candidates generalizing level with
  | nil => exact ⟨level, hadd, by simp, fun _ h => h⟩
  | cons s more ih =>
    rw [addAll, forced_eq, forced_eq] at hadd
    cases hholds : holds (x.key s) s level with
    | true =>
      rw [hholds, cond_true] at hadd
      obtain ⟨level', hrest, hmore, hsub⟩ := ih hadd
      refine ⟨level', hrest, ?_, hsub⟩
      intro t ht
      rcases List.mem_cons.mp ht with rfl | ht
      · obtain ⟨kept, hmem, hkept⟩ := mem_of_holds hholds
        exact ⟨kept, hsub hmem, hkept⟩
      · exact hmore t ht
    | false =>
      rw [hholds, cond_false] at hadd
      obtain ⟨level', hrest, hmore, hsub⟩ := ih hadd
      refine ⟨level', hrest, ?_, fun _ hmem => hsub (List.mem_cons_of_mem _ hmem)⟩
      intro t ht
      rcases List.mem_cons.mp ht with rfl | ht
      · exact ⟨_, hsub List.mem_cons_self, rfl⟩
      · exact hmore t ht

theorem of_exploreFrom {good : State → Bool} {fuel : ℕ}
    (hexplore : x.exploreFrom good fuel level = true) {kept : ℕ × State} (hkept : kept ∈ level)
    {n : ℕ} {s : State} (hwalk : Walk x.next n kept.2 s) : n < fuel ∧ good s = true := by
  induction fuel generalizing level kept n with
  | zero =>
    rw [exploreFrom, List.isEmpty_iff] at hexplore
    exact absurd (hexplore ▸ hkept) List.not_mem_nil
  | succ fuel ih =>
    rw [exploreFrom, Bool.and_eq_true] at hexplore
    obtain ⟨hgood, hadd⟩ := hexplore
    obtain ⟨level', hlater, hnext, -⟩ := of_addAll hadd
    cases hwalk with
    | nil => exact ⟨Nat.succ_pos fuel, List.all_eq_true.mp hgood kept hkept⟩
    | cons hstep hrest =>
      have hmem := List.mem_flatMap (f := fun kept => x.next kept.2).mpr ⟨kept, hkept, hstep⟩
      obtain ⟨later, hin, rfl⟩ := hnext _ hmem
      obtain ⟨hlt, hs⟩ := ih hlater hin hrest
      exact ⟨Nat.succ_lt_succ hlt, hs⟩

theorem of_explore {good : State → Bool} {fuel : ℕ} {start s : State} {n : ℕ}
    (hexplore : x.explore good fuel start = true) (hwalk : Walk x.next n start s) :
    n < fuel ∧ good s = true :=
  of_exploreFrom hexplore (List.mem_singleton.mpr rfl) hwalk

end Explorer

end Foundation
