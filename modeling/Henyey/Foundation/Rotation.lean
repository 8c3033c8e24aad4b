import Mathlib.Data.Finset.Basic

/-!
# Rotating windows

A window is a list of sets, the oldest first. Recording goes into the newest
set, and rotating drops the oldest for a new empty one. What a window holds is
what was recorded since fewer rotations than it has sets.
-/

namespace Foundation.Rotation

open List

variable {α : Type} [DecidableEq α]

/-- What happens to a window. -/
inductive Step (α : Type) where
  | record (items : Finset α)
  | rotate

def recordInto (items : Finset α) : List (Finset α) → List (Finset α)
  | [] => []
  | [newest] => [newest ∪ items]
  | older :: newer => older :: recordInto items newer

def rotate (window : List (Finset α)) : List (Finset α) := window.tail ++ [∅]

def Step.run (window : List (Finset α)) : Step α → List (Finset α)
  | .record items => recordInto items window
  | .rotate => Rotation.rotate window

def runAll (steps : List (Step α)) (window : List (Finset α)) : List (Finset α) :=
  steps.foldl Step.run window

def rotations : List (Step α) → Nat
  | [] => 0
  | .record _ :: steps => rotations steps
  | .rotate :: steps => rotations steps + 1

/-- Some set of the window has the item. -/
def Holds (window : List (Finset α)) (item : α) : Prop := ∃ items ∈ window, item ∈ items

omit [DecidableEq α] in
@[simp]
theorem rotations_append (first second : List (Step α)) :
    rotations (first ++ second) = rotations first + rotations second := by
  induction first with
  | nil => simp [rotations]
  | cons step rest ih =>
    cases step with
    | record items => exact ih
    | rotate => simp only [cons_append, rotations, ih]; omega

@[simp]
theorem length_recordInto (items : Finset α) (window : List (Finset α)) :
    (recordInto items window).length = window.length := by
  fun_induction recordInto items window <;> simp_all

@[simp]
theorem recordInto_empty (window : List (Finset α)) : recordInto ∅ window = window := by
  fun_induction recordInto ∅ window <;> simp_all

omit [DecidableEq α] in
theorem length_rotate {window : List (Finset α)} (hwindow : window ≠ []) :
    (rotate window).length = window.length := by
  have hlength := length_pos_of_ne_nil hwindow
  simp only [rotate, length_append, List.length_tail, length_singleton]
  omega

theorem getElem?_recordInto (items : Finset α) (window : List (Finset α)) (i : Nat) :
    (recordInto items window)[i]? =
      window[i]?.map fun set => if i + 1 = window.length then set ∪ items else set := by
  induction window generalizing i with
  | nil => rfl
  | cons oldest rest ih =>
    cases rest with
    | nil =>
      cases i with
      | zero => simp [recordInto]
      | succ i => simp [recordInto]
    | cons next rest =>
      cases i with
      | zero => simp [recordInto]
      | succ i =>
        rw [recordInto, List.getElem?_cons_succ, ih, List.getElem?_cons_succ]
        · simp
        · exact nofun

theorem Holds.of_recordInto {items : Finset α} {window : List (Finset α)} {item : α}
    (hholds : Holds (recordInto items window) item) : Holds window item ∨ item ∈ items := by
  obtain ⟨set, hset, hitem⟩ := hholds
  obtain ⟨i, hi⟩ := mem_iff_getElem?.mp hset
  rw [getElem?_recordInto, Option.map_eq_some_iff] at hi
  obtain ⟨before, hbefore, rfl⟩ := hi
  have hmem := mem_of_getElem? hbefore
  split at hitem
  · rcases Finset.mem_union.mp hitem with hitem | hitem
    · exact .inl ⟨before, hmem, hitem⟩
    · exact .inr hitem
  · exact .inl ⟨before, hmem, hitem⟩

omit [DecidableEq α] in
theorem Holds.of_rotate {window : List (Finset α)} {item : α}
    (hholds : Holds (rotate window) item) : Holds window item := by
  obtain ⟨set, hset, hitem⟩ := hholds
  rcases mem_append.mp hset with hset | hset
  · exact ⟨set, mem_of_mem_tail hset, hitem⟩
  · rw [mem_singleton.mp hset] at hitem
    cases hitem

theorem holds_recordInto {items : Finset α} {window : List (Finset α)} {item : α}
    (hwindow : window ≠ []) (hitem : item ∈ items) : Holds (recordInto items window) item := by
  have hlength := length_pos_of_ne_nil hwindow
  have hlast : (recordInto items window)[window.length - 1]? =
      some (window[window.length - 1] ∪ items) := by
    rw [getElem?_recordInto, List.getElem?_eq_getElem (by omega)]
    simp only [Option.map_some, Option.some_inj]
    rw [if_pos (by omega)]
  exact ⟨_, mem_of_getElem? hlast, Finset.mem_union_right _ hitem⟩

/-- Recording other items changes nothing for an item. -/
theorem holds_recordInto_of_notMem {items : Finset α} {window : List (Finset α)} {item : α}
    (hitem : item ∉ items) : Holds (recordInto items window) item ↔ Holds window item := by
  refine ⟨fun hholds => hholds.of_recordInto.resolve_right hitem, ?_⟩
  rintro ⟨set, hset, hmem⟩
  obtain ⟨i, hi⟩ := mem_iff_getElem?.mp hset
  have hrecorded : (recordInto items window)[i]? =
      some (if i + 1 = window.length then set ∪ items else set) := by
    rw [getElem?_recordInto, hi, Option.map_some]
  refine ⟨_, mem_of_getElem? hrecorded, ?_⟩
  split
  · exact Finset.mem_union_left _ hmem
  · exact hmem

/-- The item was recorded, with fewer rotations after that than `depth`. -/
def RecordedWithin (depth : Nat) (steps : List (Step α)) (item : α) : Prop :=
  ∃ before items after, steps = before ++ .record items :: after ∧ item ∈ items ∧
    rotations after < depth

omit [DecidableEq α] in
theorem recordedWithin_cons {depth : Nat} {step : Step α} {steps : List (Step α)} {item : α} :
    RecordedWithin depth (step :: steps) item ↔
      (∃ items, step = .record items ∧ item ∈ items ∧ rotations steps < depth) ∨
        RecordedWithin depth steps item := by
  constructor
  · rintro ⟨before, items, after, hsteps, hitem, hdepth⟩
    cases before with
    | nil =>
      obtain ⟨rfl, rfl⟩ := cons.inj hsteps
      exact .inl ⟨items, rfl, hitem, hdepth⟩
    | cons head before =>
      obtain ⟨rfl, rfl⟩ := cons.inj hsteps
      exact .inr ⟨before, items, after, rfl, hitem, hdepth⟩
  · rintro (⟨items, rfl, hitem, hdepth⟩ | ⟨before, items, after, rfl, hitem, hdepth⟩)
    · exact ⟨[], items, steps, rfl, hitem, hdepth⟩
    · exact ⟨step :: before, items, after, rfl, hitem, hdepth⟩

/-- A window after some steps: the sets that were not rotated out, and what was
recorded within its depth. -/
theorem holds_runAll_iff (steps : List (Step α)) {window : List (Finset α)} (hwindow : window ≠ [])
    (item : α) :
    Holds (runAll steps window) item ↔
      (∃ i set, rotations steps ≤ i ∧ window[i]? = some set ∧ item ∈ set) ∨
        RecordedWithin window.length steps item := by
  induction steps generalizing window with
  | nil =>
    have hnone : ¬RecordedWithin window.length ([] : List (Step α)) item := by
      rintro ⟨before, items, after, hsteps, -⟩
      cases before <;> cases hsteps
    simp only [runAll, foldl_nil, hnone, or_false, rotations, Nat.zero_le, true_and, Holds]
    constructor
    · rintro ⟨set, hset, hitem⟩
      obtain ⟨i, hi⟩ := mem_iff_getElem?.mp hset
      exact ⟨i, set, hi, hitem⟩
    · rintro ⟨i, set, hset, hitem⟩
      exact ⟨set, mem_of_getElem? hset, hitem⟩
  | cons step rest ih =>
    have hlength := length_pos_of_ne_nil hwindow
    cases step with
    | record items =>
      have hafter : recordInto items window ≠ [] := by
        apply ne_nil_of_length_pos
        rwa [length_recordInto]
      change Holds (runAll rest (recordInto items window)) item ↔ _
      rw [ih hafter, length_recordInto, recordedWithin_cons, ← or_assoc]
      apply or_congr_left
      simp only [rotations, Step.record.injEq, exists_eq_left', getElem?_recordInto]
      constructor
      · rintro ⟨i, set, hi, hset, hitem⟩
        obtain ⟨before, hbefore, rfl⟩ := Option.map_eq_some_iff.mp hset
        have hbound := (List.getElem?_eq_some_iff.mp hbefore).1
        split at hitem
        · rcases Finset.mem_union.mp hitem with hitem | hitem
          · exact .inl ⟨i, before, hi, hbefore, hitem⟩
          · exact .inr ⟨hitem, by omega⟩
        · exact .inl ⟨i, before, hi, hbefore, hitem⟩
      · rintro (⟨i, set, hi, hset, hitem⟩ | ⟨hitem, hdepth⟩)
        · refine ⟨i, _, hi, by rw [hset]; rfl, ?_⟩
          split
          · exact Finset.mem_union_left _ hitem
          · exact hitem
        · refine ⟨window.length - 1, window[window.length - 1] ∪ items, by omega, ?_,
            Finset.mem_union_right _ hitem⟩
          rw [List.getElem?_eq_getElem (by omega), Option.map_some, if_pos (by omega)]
    | rotate =>
      have hafter : rotate window ≠ [] := by simp [rotate]
      change Holds (runAll rest (rotate window)) item ↔ _
      rw [ih hafter, length_rotate hwindow, recordedWithin_cons]
      simp only [reduceCtorEq, false_and, exists_false, false_or]
      apply or_congr_left
      simp only [rotations]
      constructor
      · rintro ⟨i, set, hi, hset, hitem⟩
        refine ⟨i + 1, set, by omega, ?_, hitem⟩
        rw [rotate, List.getElem?_append] at hset
        split at hset
        · rwa [List.getElem?_tail] at hset
        · have hsingle := mem_of_getElem? hset
          rw [mem_singleton.mp hsingle] at hitem
          cases hitem
      · rintro ⟨i, set, hi, hset, hitem⟩
        have hbound := (List.getElem?_eq_some_iff.mp hset).1
        refine ⟨i - 1, set, by omega, ?_, hitem⟩
        rw [rotate, List.getElem?_append_left (by rw [List.length_tail]; omega),
          List.getElem?_tail, Nat.sub_add_cancel (by omega)]
        exact hset

theorem holds_runAll_of_record {steps : List (Step α)} {window : List (Finset α)}
    (hwindow : window ≠ []) (hsteps : rotations steps = 0) {items : Finset α} {item : α}
    (hmem : .record items ∈ steps) (hitem : item ∈ items) : Holds (runAll steps window) item := by
  rw [holds_runAll_iff steps hwindow]
  right
  obtain ⟨before, after, rfl⟩ := append_of_mem hmem
  refine ⟨before, items, after, rfl, hitem, ?_⟩
  have hlength := length_pos_of_ne_nil hwindow
  simp only [rotations_append, rotations] at hsteps
  omega

omit [DecidableEq α] in
theorem rotations_map_record {β : Type} (f : β → Finset α) (items : List β) :
    rotations (items.map fun item => .record (f item)) = 0 := by
  induction items with
  | nil => rfl
  | cons head rest ih => exact ih

/-- A window that starts empty holds exactly what was recorded within its
depth. -/
theorem holds_runAll_replicate {depth : Nat} (hdepth : 0 < depth) (steps : List (Step α))
    (item : α) :
    Holds (runAll steps (replicate depth ∅)) item ↔ RecordedWithin depth steps item := by
  have hwindow : replicate depth (∅ : Finset α) ≠ [] := by
    apply ne_nil_of_length_pos
    rwa [length_replicate]
  rw [holds_runAll_iff steps hwindow, length_replicate]
  constructor
  · rintro (⟨i, set, -, hset, hitem⟩ | hrecorded)
    · rw [eq_of_mem_replicate (mem_of_getElem? hset)] at hitem
      cases hitem
    · exact hrecorded
  · exact .inr

end Foundation.Rotation
