import Mathlib.Algebra.Ring.Int.Defs
import Mathlib.Algebra.Order.BigOperators.Group.List
import Mathlib.Data.List.AList

/-!
# Tables

A table holds one value for a key. Its values may be mapped and its entries filtered.
-/

namespace Foundation

abbrev Table (κ ν : Type) : Type := AList fun _ : κ => ν

namespace Table

variable {κ ν : Type}

def mapValues (f : κ → ν → ν) (table : Table κ ν) : Table κ ν where
  entries := table.entries.map fun entry => ⟨entry.1, f entry.1 entry.2⟩
  nodupKeys := by
    rw [List.NodupKeys, List.keys, List.map_map]
    exact table.nodupKeys

def retain (keep : κ → ν → Bool) (table : Table κ ν) : Table κ ν where
  entries := table.entries.filter fun entry => keep entry.1 entry.2
  nodupKeys := table.nodupKeys.sublist List.filter_sublist

variable [DecidableEq κ] {table : Table κ ν} {key : κ}

theorem lookup_erase_eq (table : Table κ ν) (key other : κ) :
    (table.erase key).lookup other = if other = key then none else table.lookup other := by
  split
  next heq => rw [heq, AList.lookup_erase]
  next hne => rw [AList.lookup_erase_ne hne]

theorem lookup_mapValues (f : κ → ν → ν) :
    (table.mapValues f).lookup key = (table.lookup key).map (f key) :=
  List.dlookup_map₂ key

theorem lookup_retain (keep : κ → ν → Bool) :
    (table.retain keep).lookup key = (table.lookup key).filter (keep key) := by
  ext value
  rw [← Option.mem_def, AList.mem_lookup_iff, Option.filter_eq_some_iff, ← Option.mem_def,
    AList.mem_lookup_iff]
  exact List.mem_filter

theorem mem_keys_retain {keep : κ → ν → Bool} :
    key ∈ (table.retain keep).keys ↔ ∃ value, table.lookup key = some value ∧ keep key value := by
  rw [← AList.mem_keys, ← AList.lookup_isSome, Option.isSome_iff_exists]
  simp only [lookup_retain, Option.filter_eq_some_iff]

end Table

end Foundation

/-!
## Tallies over tables

A tally adds up a weight over the entries of a table; it moves with the one entry
that is written or erased.
-/

namespace Foundation

namespace Table

variable {κ ν : Type} [DecidableEq κ]

/-- What the entry of a key weighs, nothing when there is none. -/
def weightAt (weight : κ → ν → Int) (table : Table κ ν) (key : κ) : Int :=
  ((table.lookup key).map (weight key)).getD 0

def tally (weight : κ → ν → Int) (table : Table κ ν) : Int :=
  (table.entries.map fun entry => weight entry.1 entry.2).sum

variable {weight : κ → ν → Int} {table : Table κ ν} {key : κ} {value : ν}

theorem weightAt_of_lookup (hlookup : table.lookup key = some value) :
    weightAt weight table key = weight key value := by
  rw [weightAt, hlookup]
  rfl

theorem weightAt_of_none (hlookup : table.lookup key = none) : weightAt weight table key = 0 := by
  rw [weightAt, hlookup]
  rfl

theorem sum_kerase (weight : κ → ν → Int) (key : κ) (entries : List (Sigma fun _ : κ => ν)) :
    ((entries.kerase key).map fun entry => weight entry.1 entry.2).sum =
      (entries.map fun entry => weight entry.1 entry.2).sum -
        ((entries.dlookup key).map (weight key)).getD 0 := by
  induction entries with
  | nil => rfl
  | cons entry rest ih =>
    by_cases heq : key = entry.1
    · subst heq
      rw [List.kerase_cons_eq rfl, List.dlookup_cons_eq, List.map_cons, List.sum_cons]
      simp
    · rw [List.kerase_cons_ne heq, List.dlookup_cons_ne _ _ heq, List.map_cons, List.sum_cons,
        List.map_cons, List.sum_cons, ih]
      omega

theorem tally_erase (weight : κ → ν → Int) (table : Table κ ν) (key : κ) :
    tally weight (table.erase key) = tally weight table - weightAt weight table key :=
  sum_kerase weight key table.entries

theorem tally_insert (weight : κ → ν → Int) (table : Table κ ν) (key : κ) (value : ν) :
    tally weight (table.insert key value) =
      tally weight table - weightAt weight table key + weight key value := by
  have hrest := sum_kerase weight key table.entries
  rw [tally, AList.entries_insert, List.map_cons, List.sum_cons, hrest]
  exact Int.add_comm _ _

theorem lookup_of_mem_entries {entry : Sigma fun _ : κ => ν} (hmem : entry ∈ table.entries) :
    table.lookup entry.1 = some entry.2 :=
  List.mem_dlookup table.nodupKeys hmem

end Table

end Foundation

/-!
## Tables under hashed keys

A table that is indexed by the hash of a key holds a partial function on the keys when
no two of them have one hash.
-/

namespace Foundation

variable {κ η ν : Type} [DecidableEq η]

/-- The table holds the function on the keys that are kept, and nothing else. -/
structure Hashed (hash : κ → η) (keep : κ → Bool) (view : κ → Option ν) (table : Table η ν) :
    Prop where
  lookup : ∀ key, keep key = true → table.lookup (hash key) = view key
  key_of_lookup : ∀ index value, table.lookup index = some value →
    ∃ key, keep key = true ∧ hash key = index

namespace Hashed

variable {hash : κ → η} {keep : κ → Bool} {view view' : κ → Option ν} {table : Table η ν}

theorem empty : Hashed hash keep (fun _ => none) (∅ : Table η ν) where
  lookup _ _ := AList.lookup_empty _
  key_of_lookup _ _ hlookup := by
    rw [AList.lookup_empty] at hlookup
    cases hlookup

theorem congr (hheld : Hashed hash keep view table)
    (hview : ∀ key, keep key = true → view key = view' key) : Hashed hash keep view' table where
  lookup key hkey := (hheld.lookup key hkey).trans (hview key hkey)
  key_of_lookup := hheld.key_of_lookup

theorem view_of_lookup (hheld : Hashed hash keep view table) {index : η} {value : ν}
    (hlookup : table.lookup index = some value) :
    ∃ key, keep key = true ∧ hash key = index ∧ view key = some value := by
  obtain ⟨key, hkey, rfl⟩ := hheld.key_of_lookup index value hlookup
  exact ⟨key, hkey, rfl, (hheld.lookup key hkey).symm.trans hlookup⟩

variable [DecidableEq κ]

section

variable (hheld : Hashed hash keep view table)
include hheld

omit [DecidableEq κ] in
theorem mapValues (f : ν → ν) :
    Hashed hash keep (fun key => (view key).map f) (table.mapValues fun _ value => f value) where
  lookup key hkey := by rw [Table.lookup_mapValues, hheld.lookup key hkey]
  key_of_lookup index value hlookup := by
    rw [Table.lookup_mapValues, Option.map_eq_some_iff] at hlookup
    obtain ⟨held, hlookup, -⟩ := hlookup
    exact hheld.key_of_lookup index held hlookup

variable
  (hinjective : ∀ key key', keep key = true → keep key' = true → hash key = hash key' → key = key')
include hinjective

theorem insert {key : κ} (hkey : keep key = true) (value : ν) :
    Hashed hash keep (Function.update view key (some value)) (table.insert (hash key) value) where
  lookup other hother := by
    by_cases heq : other = key
    · rw [heq, AList.lookup_insert, Function.update_self]
    · have hne : hash other ≠ hash key := fun hhash => heq (hinjective other key hother hkey hhash)
      rw [AList.lookup_insert_ne hne, Function.update_of_ne heq, hheld.lookup other hother]
  key_of_lookup index found hfound := by
    by_cases heq : index = hash key
    · exact ⟨key, hkey, heq.symm⟩
    · rw [AList.lookup_insert_ne heq] at hfound
      exact hheld.key_of_lookup index found hfound

theorem erase {key : κ} (hkey : keep key = true) :
    Hashed hash keep (Function.update view key none) (table.erase (hash key)) where
  lookup other hother := by
    by_cases heq : other = key
    · rw [heq, AList.lookup_erase, Function.update_self]
    · have hne : hash other ≠ hash key := fun hhash => heq (hinjective other key hother hkey hhash)
      rw [AList.lookup_erase_ne hne, Function.update_of_ne heq, hheld.lookup other hother]
  key_of_lookup index found hfound := by
    by_cases heq : index = hash key
    · rw [heq, AList.lookup_erase] at hfound
      cases hfound
    · rw [AList.lookup_erase_ne heq] at hfound
      exact hheld.key_of_lookup index found hfound

omit [DecidableEq κ] in
theorem tally_eq_sum (weight : ν → Int) {keys : List κ} (hnodup : keys.Nodup)
    (hkeys : ∀ key, key ∈ keys ↔ keep key = true ∧ (view key).isSome) :
    table.tally (fun _ value => weight value) =
      (keys.map fun key => ((view key).map weight).getD 0).sum := by
  have hperm : table.keys.Perm (keys.map hash) := by
    refine (List.perm_ext_iff_of_nodup table.nodupKeys (hnodup.map_on ?_)).mpr fun index => ?_
    · intro key hkey key' hkey' hhash
      exact hinjective key key' ((hkeys key).mp hkey).1 ((hkeys key').mp hkey').1 hhash
    · rw [← AList.keys, ← AList.mem_keys, ← AList.lookup_isSome, List.mem_map]
      constructor
      · intro hsome
        obtain ⟨value, hlookup⟩ := Option.isSome_iff_exists.mp hsome
        obtain ⟨key, hkey, rfl, hview⟩ := hheld.view_of_lookup hlookup
        exact ⟨key, (hkeys key).mpr ⟨hkey, hview ▸ rfl⟩, rfl⟩
      · rintro ⟨key, hkey, rfl⟩
        rw [hheld.lookup key ((hkeys key).mp hkey).1]
        exact ((hkeys key).mp hkey).2
  have htally : table.tally (fun _ value => weight value) =
      (table.keys.map (Table.weightAt (fun _ value => weight value) table)).sum := by
    rw [Table.tally, AList.keys, List.keys, List.map_map]
    apply congrArg List.sum
    apply List.map_congr_left
    intro entry hentry
    have hweight : Table.weightAt (fun _ value => weight value) table entry.1 = weight entry.2 :=
      Table.weightAt_of_lookup (Table.lookup_of_mem_entries hentry)
    exact hweight.symm
  rw [htally, (hperm.map _).sum_eq, List.map_map]
  apply congrArg List.sum
  apply List.map_congr_left
  intro key hkey
  rw [Function.comp_apply, Table.weightAt, hheld.lookup key ((hkeys key).mp hkey).1]

end

end Hashed

end Foundation
