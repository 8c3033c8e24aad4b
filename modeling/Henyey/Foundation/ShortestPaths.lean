import Mathlib.Data.Set.Insert

/-!
# Shortest paths from a root

The distance of a node is the length of a shortest path to it. A labelling of the nodes that
grows by one along some edge into each of them, and by no more than one along any edge, gives
the distances. Labels that collect the first steps along such edges give the first steps of
the shortest paths.
-/

namespace Foundation

variable {V : Type} (edge : V → V → Prop) (root : V)

/-- A path with a number of steps. -/
inductive PathTo : ℕ → V → Prop where
  | root : PathTo 0 root
  | step {n : ℕ} {u v : V} (hpath : PathTo n u) (hedge : edge u v) : PathTo (n + 1) v

/-- A path whose first step goes to a given node. -/
inductive PathVia (first : V) : ℕ → V → Prop where
  | first (hedge : edge root first) : PathVia first 1 first
  | step {n : ℕ} {u v : V} (hpath : PathVia first n u) (hedge : edge u v) : PathVia first (n + 1) v

/-- The length of a shortest path. -/
def AtDistance (n : ℕ) (v : V) : Prop :=
  PathTo edge root n v ∧ ∀ m, PathTo edge root m v → n ≤ m

variable {edge root} {first u v : V} {n m : ℕ}

theorem PathVia.path (hvia : PathVia edge root first n v) : PathTo edge root n v := by
  induction hvia with
  | first hedge => exact .step .root hedge
  | step _ hedge ih => exact .step ih hedge

/-- Distances as a breadth-first search leaves them. -/
structure Layered (edge : V → V → Prop) (root : V) (dist : V → Option ℕ) : Prop where
  start : dist root = some 0
  /-- Every other node is one step behind a node. -/
  parent : ∀ v n, v ≠ root → dist v = some n → ∃ u m, edge u v ∧ dist u = some m ∧ n = m + 1
  /-- No edge leads further than to the next layer. -/
  next : ∀ u v n, edge u v → dist u = some n → ∃ m ≤ n + 1, dist v = some m

namespace Layered

variable {dist : V → Option ℕ}

section

variable (hlayered : Layered edge root dist)
include hlayered

theorem le_of_path (hpath : PathTo edge root n v) : ∃ m ≤ n, dist v = some m := by
  induction hpath with
  | root => exact ⟨0, le_rfl, hlayered.start⟩
  | step hpath hedge ih =>
    obtain ⟨m, hle, hdist⟩ := ih
    obtain ⟨k, hnext, hk⟩ := hlayered.next _ _ _ hedge hdist
    exact ⟨k, hnext.trans (Nat.succ_le_succ hle), hk⟩

theorem path (hdist : dist v = some n) : PathTo edge root n v := by
  induction n generalizing v with
  | zero =>
    by_cases hroot : v = root
    · exact hroot ▸ .root
    · obtain ⟨_, m, -, -, hsucc⟩ := hlayered.parent v 0 hroot hdist
      exact absurd hsucc (Nat.succ_ne_zero m).symm
  | succ n ih =>
    by_cases hroot : v = root
    · rw [hroot, hlayered.start] at hdist
      cases hdist
    · obtain ⟨u, m, hedge, hm, hsucc⟩ := hlayered.parent v (n + 1) hroot hdist
      cases hsucc
      exact .step (ih hm) hedge

theorem dist_iff : dist v = some n ↔ AtDistance edge root n v := by
  constructor
  · intro hdist
    refine ⟨hlayered.path hdist, fun m hm => ?_⟩
    obtain ⟨k, hle, hk⟩ := hlayered.le_of_path hm
    rw [hdist] at hk
    cases hk
    exact hle
  · intro hn
    obtain ⟨m, hle, hdist⟩ := hlayered.le_of_path hn.1
    rw [hdist, Nat.le_antisymm hle (hn.2 m (hlayered.path hdist))]

/-- A node has a label when a path leads to it. -/
theorem isSome_iff : (dist v).isSome ↔ ∃ n, PathTo edge root n v := by
  constructor
  · intro hsome
    obtain ⟨n, hn⟩ := Option.isSome_iff_exists.mp hsome
    exact ⟨n, hlayered.path hn⟩
  · rintro ⟨n, hpath⟩
    obtain ⟨m, -, hm⟩ := hlayered.le_of_path hpath
    exact Option.isSome_iff_exists.mpr ⟨m, hm⟩

end

end Layered

/-- The first steps that are handed on from layer to layer. -/
structure HandsOn (edge : V → V → Prop) (root : V) (dist : V → Option ℕ) (via : V → Set V) :
    Prop where
  first : ∀ v, v ≠ root → dist v = some 1 → via v = {v}
  later : ∀ v n, dist v = some (n + 2) →
    ∀ w, w ∈ via v ↔ ∃ u, edge u v ∧ dist u = some (n + 1) ∧ w ∈ via u

theorem HandsOn.mem_via_iff {dist : V → Option ℕ} {via : V → Set V}
    (hhands : HandsOn edge root dist via) (hlayered : Layered edge root dist) {n : ℕ}
    (hdist : dist v = some (n + 1)) : first ∈ via v ↔ PathVia edge root first (n + 1) v := by
  induction n generalizing v with
  | zero =>
    have hroot : v ≠ root := by
      rintro rfl
      rw [hlayered.start] at hdist
      cases hdist
    rw [hhands.first v hroot hdist, Set.mem_singleton_iff]
    constructor
    · rintro rfl
      obtain ⟨u, m, hedge, hm, hsucc⟩ := hlayered.parent first 1 hroot hdist
      cases hsucc
      cases hlayered.path hm
      exact .first hedge
    · intro hvia
      cases hvia with
      | first => rfl
      | step hpath => exact absurd hpath nofun
  | succ n ih =>
    rw [hhands.later v n hdist]
    constructor
    · rintro ⟨u, hedge, hu, hfirst⟩
      exact .step ((ih hu).mp hfirst) hedge
    · intro hvia
      cases hvia with
      | @step _ u _ hpath hedge =>
        -- A shortest path is shortest up to the node before the last.
        obtain ⟨m, hle, hm⟩ := hlayered.le_of_path hpath.path
        obtain ⟨k, hk, hnext⟩ := hlayered.next u v m hedge hm
        rw [hdist] at hnext
        cases hnext
        have hsame : m = n + 1 := by omega
        exact ⟨u, hedge, hsame ▸ hm, (ih (hsame ▸ hm)).mpr hpath⟩

end Foundation
