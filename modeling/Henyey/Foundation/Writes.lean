import Mathlib.Data.List.Nodup
import Mathlib.Data.List.Perm.Basic

/-!
# Writing a list of values into a map

A map under point writes. When no key is written twice the order of the writes
does not matter.
-/

namespace Foundation

variable {K V : Type*} [DecidableEq K]

/-- Perform point writes in order; `none` erases. -/
def applyWrites (writes : List (K × Option V)) (map : K → Option V) : K → Option V :=
  writes.foldl (fun map write => Function.update map write.1 write.2) map

@[simp]
theorem applyWrites_nil (map : K → Option V) : applyWrites [] map = map := rfl

@[simp]
theorem applyWrites_cons (write : K × Option V) (writes : List (K × Option V))
    (map : K → Option V) :
    applyWrites (write :: writes) map =
      applyWrites writes (Function.update map write.1 write.2) := rfl

theorem applyWrites_append (writes others : List (K × Option V)) (map : K → Option V) :
    applyWrites (writes ++ others) map = applyWrites others (applyWrites writes map) :=
  List.foldl_append

/-- Keys that are not written keep their value. -/
theorem applyWrites_of_notMem {writes : List (K × Option V)} {key : K}
    (hkey : key ∉ writes.map Prod.fst) (map : K → Option V) :
    applyWrites writes map key = map key := by
  induction writes generalizing map with
  | nil => rfl
  | cons write writes ih =>
    rw [List.map_cons, List.mem_cons, not_or] at hkey
    rw [applyWrites_cons, ih hkey.2, Function.update_of_ne hkey.1]

theorem applyWrites_of_mem {writes : List (K × Option V)} (hnodup : (writes.map Prod.fst).Nodup)
    {key : K} {value : Option V} (hmem : (key, value) ∈ writes) (map : K → Option V) :
    applyWrites writes map key = value := by
  induction writes generalizing map with
  | nil => exact absurd hmem List.not_mem_nil
  | cons write writes ih =>
    rw [List.map_cons, List.nodup_cons] at hnodup
    rw [applyWrites_cons]
    rcases List.mem_cons.mp hmem with rfl | hmem
    · rw [applyWrites_of_notMem hnodup.1, Function.update_self]
    · exact ih hnodup.2 hmem _

/-- At most one write for each listed key. -/
def pointWrites (keys : List K) (value : K → Option (Option V)) : List (K × Option V) :=
  keys.filterMap fun key => (value key).map fun written => (key, written)

omit [DecidableEq K] in
theorem pointWrites_keys (keys : List K) (value : K → Option (Option V)) :
    (pointWrites keys value).map Prod.fst = keys.filter fun key => (value key).isSome := by
  induction keys with
  | nil => rfl
  | cons key keys ih =>
    rw [pointWrites, List.filterMap_cons, List.filter_cons]
    cases hvalue : value key with
    | none => exact ih
    | some written => exact congrArg (key :: ·) ih

variable {value : K → Option (Option V)}

omit [DecidableEq K] in
theorem mem_pointWrites {keys : List K} {key : K} {written : Option V} :
    (key, written) ∈ pointWrites keys value ↔ key ∈ keys ∧ value key = some written := by
  simp only [pointWrites, List.mem_filterMap, Option.map_eq_some_iff, Prod.mk.injEq]
  constructor
  · rintro ⟨_, hkey, _, hvalue, rfl, rfl⟩
    exact ⟨hkey, hvalue⟩
  · rintro ⟨hkey, hvalue⟩
    exact ⟨key, hkey, written, hvalue, rfl, rfl⟩

theorem applyWrites_pointWrites {keys : List K} (hnodup : keys.Nodup)
    (hlisted : ∀ key, (value key).isSome → key ∈ keys) (map : K → Option V) (key : K) :
    applyWrites (pointWrites keys value) map key = (value key).getD (map key) := by
  have hkeys := pointWrites_keys keys value
  have hnodup' : ((pointWrites keys value).map Prod.fst).Nodup := by
    rw [hkeys]
    exact hnodup.filter _
  cases hvalue : value key with
  | none =>
    have hunwritten : key ∉ (pointWrites keys value).map Prod.fst := by
      rw [hkeys]
      simp [hvalue]
    rw [applyWrites_of_notMem hunwritten]
    rfl
  | some written =>
    have hmem : key ∈ keys := hlisted key (by rw [hvalue]; rfl)
    rw [applyWrites_of_mem hnodup' (mem_pointWrites.mpr ⟨hmem, hvalue⟩)]
    rfl

end Foundation
