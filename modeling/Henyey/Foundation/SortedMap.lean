import Mathlib.Data.List.Sort

/-!
# Merging sorted lists

Two lists sorted by a key are merged with two pointers. What both hold is
combined, and what is not kept is dropped. Below every key the outcome depends
on the two entries there and on nothing else.
-/

namespace Foundation

open List

variable {α κ ε : Type} [LinearOrder κ]

def Ascending (key : α → κ) (entries : List α) : Prop :=
  entries.Pairwise fun a b => key a < key b

/-- The entry under a key. -/
def lookup (key : α → κ) (k : κ) (entries : List α) : Option α :=
  entries.find? fun e => key e = k

/-- Output an entry if it is kept. -/
def emit (keep : α → Bool) (e : α) (merged : List α) : List α :=
  if keep e then e :: merged else merged

/-- Merge new entries into an old one and what follows it; `rest` merges what
follows. -/
def mergeHead (key : α → κ) (keep : α → Bool) (combine : α → α → Except ε (Option α)) (old : α)
    (rest : List α → Except ε (List α)) : List α → Except ε (List α)
  | [] => do
    let merged ← rest []
    .ok (emit keep old merged)
  | new :: news =>
    if key old < key new then do
      let merged ← rest (new :: news)
      .ok (emit keep old merged)
    else if key new < key old then do
      let merged ← mergeHead key keep combine old rest news
      .ok (emit keep new merged)
    else do
      let both ← combine old new
      let merged ← rest news
      .ok (both.toList ++ merged)

def mergeSorted (key : α → κ) (keep : α → Bool) (combine : α → α → Except ε (Option α)) :
    List α → List α → Except ε (List α)
  | [], news => .ok (news.filter keep)
  | old :: olds, news => mergeHead key keep combine old (mergeSorted key keep combine olds) news

/-- What becomes of the entries under one key. -/
def mergedAt (keep : α → Bool) (combine : α → α → Except ε (Option α)) :
    Option α → Option α → Except ε (Option α)
  | none, none => .ok none
  | some old, none => .ok (if keep old then some old else none)
  | none, some new => .ok (if keep new then some new else none)
  | some old, some new => combine old new

variable {key : α → κ} {keep : α → Bool} {combine : α → α → Except ε (Option α)}
  {e old new : α} {entries olds news : List α} {k : κ}

/-! ### Lookups -/

@[simp]
theorem lookup_nil : lookup key k ([] : List α) = none := rfl

theorem lookup_cons : lookup key k (e :: entries) =
    if key e = k then some e else lookup key k entries := by
  unfold lookup
  rw [find?_cons]
  split
  next h => rw [if_pos (of_decide_eq_true h)]
  next h => rw [if_neg (of_decide_eq_false h)]

theorem lookup_eq_none_iff : lookup key k entries = none ↔ ∀ e ∈ entries, key e ≠ k := by
  simp [lookup]

theorem lookup_eq_none_of_lt (hlt : ∀ e ∈ entries, k < key e) : lookup key k entries = none :=
  lookup_eq_none_iff.mpr fun e he => (hlt e he).ne'

theorem mem_of_lookup (hlookup : lookup key k entries = some e) : e ∈ entries ∧ key e = k :=
  ⟨mem_of_find?_eq_some hlookup, by simpa using find?_some hlookup⟩

/-- In a sorted list each entry is the one under its key. -/
theorem Ascending.lookup_of_mem (hsorted : Ascending key entries) (hmem : e ∈ entries) :
    lookup key (key e) entries = some e := by
  induction entries with
  | nil => cases hmem
  | cons head entries ih =>
    obtain ⟨hhead, htail⟩ := List.pairwise_cons.mp hsorted
    rw [lookup_cons]
    rcases List.mem_cons.mp hmem with rfl | hmem
    · exact if_pos rfl
    · rw [if_neg (hhead e hmem).ne, ih htail hmem]

theorem ascending_insertionSort (hnodup : (entries.map key).Nodup) :
    Ascending key (entries.insertionSort fun a b => key a ≤ key b) := by
  have : Std.Total fun a b : α => key a ≤ key b := ⟨fun _ _ => le_total _ _⟩
  have : IsTrans α fun a b => key a ≤ key b := ⟨fun _ _ _ => le_trans⟩
  have hsorted := pairwise_insertionSort (fun a b : α => key a ≤ key b) entries
  have hkeys : ((entries.insertionSort fun a b => key a ≤ key b).map key).Nodup :=
    ((perm_insertionSort _ entries).map key).nodup_iff.mpr hnodup
  rw [nodup_iff_pairwise_ne, pairwise_map] at hkeys
  exact (hsorted.and hkeys).imp fun h => lt_of_le_of_ne h.1 h.2

theorem Ascending.filter (hsorted : Ascending key entries) (p : α → Bool) :
    Ascending key (entries.filter p) :=
  List.Pairwise.filter p hsorted

theorem Ascending.lookup_filter (hsorted : Ascending key entries) (p : α → Bool) :
    lookup key k (entries.filter p) = (lookup key k entries).filter p := by
  induction entries with
  | nil => rfl
  | cons head entries ih =>
    obtain ⟨hhead, htail⟩ := List.pairwise_cons.mp hsorted
    rw [lookup_cons, filter_cons]
    by_cases hkey : key head = k
    · subst hkey
      have hrest : lookup key (key head) (entries.filter p) = none :=
        lookup_eq_none_of_lt fun e he => hhead e (mem_of_mem_filter he)
      cases hp : p head with
      | true => simp [lookup_cons, Option.filter, hp]
      | false => simp [hrest, Option.filter, hp]
    · rw [if_neg hkey, ← ih htail]
      cases hp : p head with
      | true => simp [lookup_cons, hkey]
      | false => simp

/-! ### The merge -/

/-- A result that merges two lists key by key. -/
structure Merges (key : α → κ) (keep : α → Bool) (combine : α → α → Except ε (Option α))
    (olds news merged : List α) : Prop where
  ascending : Ascending key merged
  source : ∀ e ∈ merged, ∃ e' ∈ olds ++ news, key e' = key e
  outcome : ∀ k, mergedAt keep combine (lookup key k olds) (lookup key k news) =
    .ok (lookup key k merged)

variable {merged : List α}

/-- The smallest key goes first. -/
theorem ascending_emit (hsorted : Ascending key merged)
    (hlt : ∀ e' ∈ merged, key e < key e') : Ascending key (emit keep e merged) := by
  unfold emit
  split
  · exact List.pairwise_cons.mpr ⟨hlt, hsorted⟩
  · exact hsorted

theorem mem_emit {e' : α} (hmem : e' ∈ emit keep e merged) : e' = e ∨ e' ∈ merged := by
  unfold emit at hmem
  split at hmem
  · exact List.mem_cons.mp hmem
  · exact .inr hmem

theorem lookup_emit_self (hlt : ∀ e' ∈ merged, key e < key e') :
    lookup key (key e) (emit keep e merged) = if keep e then some e else none := by
  unfold emit
  cases keep e with
  | true => simp [lookup_cons]
  | false => simpa using lookup_eq_none_of_lt hlt

theorem lookup_emit_of_ne (hne : key e ≠ k) :
    lookup key k (emit keep e merged) = lookup key k merged := by
  unfold emit
  cases keep e with
  | true => simp [lookup_cons, hne]
  | false => rfl

section

variable (hmerges : Merges key keep combine olds news merged)
include hmerges

theorem Merges.below (holds : ∀ e ∈ olds, k < key e) (hnews : ∀ e ∈ news, k < key e) :
    ∀ e ∈ merged, k < key e := by
  intro e he
  obtain ⟨e', he', hkey⟩ := hmerges.source e he
  rw [← hkey]
  rcases mem_append.mp he' with he' | he'
  · exact holds e' he'
  · exact hnews e' he'

/-- An old entry with the smallest key is output before the rest. -/
theorem Merges.emit_old (holds : ∀ e ∈ olds, key old < key e)
    (hnews : ∀ e ∈ news, key old < key e) :
    Merges key keep combine (old :: olds) news (emit keep old merged) := by
  have hlt := hmerges.below holds hnews
  refine ⟨ascending_emit hmerges.ascending hlt, fun e he => ?_, fun k => ?_⟩
  · rcases mem_emit he with rfl | he
    · exact ⟨e, by simp, rfl⟩
    · obtain ⟨e', he', hkey⟩ := hmerges.source e he
      exact ⟨e', mem_cons_of_mem _ he', hkey⟩
  · rw [lookup_cons]
    by_cases hk : key old = k
    · subst hk
      rw [if_pos rfl, lookup_eq_none_of_lt hnews, lookup_emit_self hlt]
      rfl
    · rw [if_neg hk, lookup_emit_of_ne hk, hmerges.outcome]

/-- A new entry with the smallest key is output before the rest. -/
theorem Merges.emit_new (holds : ∀ e ∈ olds, key new < key e)
    (hnews : ∀ e ∈ news, key new < key e) :
    Merges key keep combine olds (new :: news) (emit keep new merged) := by
  have hlt := hmerges.below holds hnews
  refine ⟨ascending_emit hmerges.ascending hlt, fun e he => ?_, fun k => ?_⟩
  · rcases mem_emit he with rfl | he
    · exact ⟨e, by simp, rfl⟩
    · obtain ⟨e', he', hkey⟩ := hmerges.source e he
      refine ⟨e', ?_, hkey⟩
      rcases mem_append.mp he' with he' | he'
      · exact mem_append_left _ he'
      · exact mem_append_right _ (mem_cons_of_mem _ he')
  · rw [lookup_cons]
    by_cases hk : key new = k
    · subst hk
      rw [if_pos rfl, lookup_eq_none_of_lt holds, lookup_emit_self hlt]
      rfl
    · rw [if_neg hk, lookup_emit_of_ne hk, hmerges.outcome]

/-- Two entries under the smallest key are combined before the rest. -/
theorem Merges.both {both : Option α} (hkeys : key old = key new)
    (hcombine : combine old new = .ok both) (hboth : ∀ e ∈ both, key e = key new)
    (holds : ∀ e ∈ olds, key new < key e) (hnews : ∀ e ∈ news, key new < key e) :
    Merges key keep combine (old :: olds) (new :: news) (both.toList ++ merged) := by
  have hlt := hmerges.below holds hnews
  refine ⟨?_, fun e he => ?_, fun k => ?_⟩
  · cases both with
    | none => exact hmerges.ascending
    | some e =>
      refine List.pairwise_cons.mpr ⟨fun e' he' => ?_, hmerges.ascending⟩
      rw [hboth e rfl]
      exact hlt e' he'
  · rcases mem_append.mp he with he | he
    · exact ⟨new, by simp, (hboth e (Option.mem_toList.mp he)).symm⟩
    · obtain ⟨e', he', hkey⟩ := hmerges.source e he
      refine ⟨e', ?_, hkey⟩
      rcases mem_append.mp he' with he' | he'
      · exact mem_append_left _ (mem_cons_of_mem _ he')
      · exact mem_append_right _ (mem_cons_of_mem _ he')
  · rw [lookup_cons, lookup_cons, hkeys]
    by_cases hk : key new = k
    · subst hk
      rw [if_pos rfl, if_pos rfl]
      cases both with
      | none => exact hcombine.trans (congrArg _ (lookup_eq_none_of_lt hlt).symm)
      | some e =>
        have hhead : lookup key (key new) ([e] ++ merged) = some e := by
          rw [singleton_append, lookup_cons, if_pos (hboth e rfl)]
        exact hcombine.trans (congrArg _ hhead.symm)
    · rw [if_neg hk, if_neg hk, hmerges.outcome]
      cases both with
      | none => rfl
      | some e =>
        have hne : key e ≠ k := fun h => hk ((hboth e rfl).symm.trans h)
        rw [Option.toList_some, singleton_append, lookup_cons, if_neg hne]

end

/-- What two sorted lists can be merged to, if entries under one key can be
combined. -/
theorem mergeSorted_spec (hkeys : ∀ old new e, key old = key new →
      combine old new = .ok (some e) → key e = key new)
    (holds : Ascending key olds) (hnews : Ascending key news)
    (hok : ∀ old ∈ olds, ∀ new ∈ news, key old = key new → ∃ both, combine old new = .ok both) :
    ∃ merged, mergeSorted key keep combine olds news = .ok merged ∧
      Merges key keep combine olds news merged := by
  induction olds generalizing news with
  | nil =>
    refine ⟨news.filter keep, rfl, hnews.filter keep, fun e he => ?_, fun k => ?_⟩
    · exact ⟨e, by simpa using mem_of_mem_filter he, rfl⟩
    · rw [hnews.lookup_filter]
      cases lookup key k news with
      | none => rfl
      | some new => cases hkeep : keep new <;> simp [mergedAt, Option.filter, hkeep]
  | cons old olds ih =>
    obtain ⟨hold, holds⟩ := List.pairwise_cons.mp holds
    have hrest : ∀ {news'}, Ascending key news' → (∀ new ∈ news', new ∈ news) →
        ∃ merged, mergeSorted key keep combine olds news' = .ok merged ∧
          Merges key keep combine olds news' merged := fun hnews' hsub =>
      ih holds hnews' fun o ho n hn => hok o (mem_cons_of_mem _ ho) n (hsub n hn)
    unfold mergeSorted
    -- inner induction: the new entries before the old head
    induction news with
    | nil =>
      obtain ⟨merged, hmerged, hmerges⟩ := hrest .nil fun _ h => h
      refine ⟨emit keep old merged, ?_, hmerges.emit_old hold (by simp)⟩
      simp only [mergeHead, hmerged]
      rfl
    | cons new news ihnews =>
      obtain ⟨hnew, hnews'⟩ := List.pairwise_cons.mp hnews
      unfold mergeHead
      split
      next hlt =>
        obtain ⟨merged, hmerged, hmerges⟩ := hrest hnews fun _ h => h
        have hall : ∀ e ∈ new :: news, key old < key e := by
          intro e he
          rcases List.mem_cons.mp he with rfl | he
          · exact hlt
          · exact hlt.trans (hnew e he)
        refine ⟨emit keep old merged, ?_, hmerges.emit_old hold hall⟩
        rw [hmerged]
        rfl
      next hle =>
        split
        next hlt =>
          obtain ⟨merged, hmerged, hmerges⟩ := ihnews hnews'
            (fun o ho n hn => hok o ho n (mem_cons_of_mem _ hn))
            fun hn hsub => hrest hn fun n h => mem_cons_of_mem _ (hsub n h)
          have hall : ∀ e ∈ old :: olds, key new < key e := by
            intro e he
            rcases List.mem_cons.mp he with rfl | he
            · exact hlt
            · exact hlt.trans (hold e he)
          refine ⟨emit keep new merged, ?_, hmerges.emit_new hall hnew⟩
          rw [hmerged]
          rfl
        next hge =>
          have hsame : key old = key new := le_antisymm (not_lt.mp hge) (not_lt.mp hle)
          obtain ⟨both, hboth⟩ := hok old mem_cons_self new mem_cons_self hsame
          obtain ⟨merged, hmerged, hmerges⟩ := hrest hnews'
            fun n h => mem_cons_of_mem _ h
          refine ⟨both.toList ++ merged, ?_, hmerges.both hsame hboth ?_ (hsame ▸ hold) hnew⟩
          · rw [hboth, hmerged]
            rfl
          · intro e he
            exact hkeys old new e hsame (hboth.trans (congrArg _ he))

end Foundation

/-!
## Maps sorted by a comparison of their keys

A map as the list of its entries in the order of their keys. The comparison is that of a
rank in a linear order, so that different keys can count as the same.
-/

namespace Foundation

variable {κ ν ρ : Type*}

namespace SortedMap

/-- Put a value under a key. Under a key that counts as the same the value is replaced and
the old key kept. -/
def insert (cmp : κ → κ → Ordering) (key : κ) (value : ν) : List (κ × ν) → List (κ × ν)
  | [] => [(key, value)]
  | entry :: rest =>
    match cmp key entry.1 with
    | .lt => (key, value) :: entry :: rest
    | .eq => (entry.1, value) :: rest
    | .gt => entry :: insert cmp key value rest

def remove (cmp : κ → κ → Ordering) (key : κ) (entries : List (κ × ν)) : List (κ × ν) :=
  entries.filter fun entry => cmp key entry.1 != .eq

variable [LinearOrder ρ]

/-- The comparison is that of ranks. -/
def Ranks (cmp : κ → κ → Ordering) (rank : κ → ρ) : Prop :=
  ∀ key key', cmp key key' = compare (rank key) (rank key')

def Sorted (rank : κ → ρ) (entries : List (κ × ν)) : Prop :=
  entries.Pairwise fun entry entry' => rank entry.1 < rank entry'.1

variable {cmp : κ → κ → Ordering} {rank : κ → ρ} (hranks : Ranks cmp rank)
include hranks

variable {entries : List (κ × ν)}

theorem mem_remove {key : κ} {entry : κ × ν} :
    entry ∈ remove cmp key entries ↔ entry ∈ entries ∧ rank entry.1 ≠ rank key := by
  unfold remove
  rw [List.mem_filter, bne_iff_ne, hranks, ne_eq, compare_eq_iff_eq]
  constructor
  · rintro ⟨hmem, hne⟩
    exact ⟨hmem, fun heq => hne heq.symm⟩
  · rintro ⟨hmem, hne⟩
    exact ⟨hmem, fun heq => hne heq.symm⟩

omit hranks in
theorem sorted_remove (cmp : κ → κ → Ordering) (key : κ)
    (hsorted : Sorted rank entries) : Sorted rank (remove cmp key entries) :=
  hsorted.sublist List.filter_sublist

theorem mem_insert {key : κ} {value : ν} (hfresh : ∀ entry ∈ entries, rank entry.1 ≠ rank key)
    {entry : κ × ν} :
    entry ∈ insert cmp key value entries ↔ entry = (key, value) ∨ entry ∈ entries := by
  induction entries with
  | nil => simp [insert]
  | cons first rest ih =>
    rw [List.forall_mem_cons] at hfresh
    unfold insert
    rw [hranks]
    split
    · simp only [List.mem_cons]
    next heq => exact absurd (compare_eq_iff_eq.mp heq).symm hfresh.1
    · rw [List.mem_cons, List.mem_cons, ih hfresh.2]
      exact or_left_comm

theorem sorted_insert {key : κ} {value : ν} (hsorted : Sorted rank entries)
    (hfresh : ∀ entry ∈ entries, rank entry.1 ≠ rank key) :
    Sorted rank (insert cmp key value entries) := by
  induction entries with
  | nil => exact List.pairwise_singleton _ _
  | cons first rest ih =>
    obtain ⟨hfirst, hrest⟩ := List.pairwise_cons.mp hsorted
    have hfresh' := List.forall_mem_cons.mp hfresh
    unfold insert
    rw [hranks]
    split
    next hlt =>
      have hless := compare_lt_iff_lt.mp hlt
      refine List.pairwise_cons.mpr ⟨?_, hsorted⟩
      intro entry hentry
      rcases List.mem_cons.mp hentry with rfl | hmem
      · exact hless
      · exact lt_trans hless (hfirst entry hmem)
    next heq => exact absurd (compare_eq_iff_eq.mp heq).symm hfresh'.1
    next hgt =>
      have hless := compare_gt_iff_gt.mp hgt
      refine List.pairwise_cons.mpr ⟨?_, ih hrest hfresh'.2⟩
      intro entry hentry
      rcases (mem_insert hranks hfresh'.2).mp hentry with rfl | hmem
      · exact hless
      · exact hfirst entry hmem

end SortedMap

end Foundation
