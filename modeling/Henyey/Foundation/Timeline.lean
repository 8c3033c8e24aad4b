import Henyey.Foundation.SortedMap
import Mathlib.Order.WithBot

/-!
# Writes over time

A timeline says what each step writes under each key. What an interval of steps
leaves behind is the last of its writes, and the state is what all steps before
leave behind.
-/

namespace Foundation

variable {κ V : Type}

/-- What each step writes, from a first one on: a value, or a deletion. -/
structure Timeline (κ V : Type) where
  first : ℕ
  write : ℕ → κ → Option (Option V)

namespace Timeline

variable {t : Timeline κ V} {a b c n : ℕ} {k : κ}

/-- The last write under a key in the interval `[a, c)`. -/
def net (t : Timeline κ V) (a : ℕ) : ℕ → κ → Option (Option V)
  | 0, _ => none
  | c + 1, k => if c < max a t.first then none else (t.write c k).or (net t a c k)

/-- The state before a step. -/
def before (t : Timeline κ V) (n : ℕ) (k : κ) : Option V := (t.net 0 n k).getD none

theorem net_succ (h : max a t.first ≤ c) : t.net a (c + 1) k = (t.write c k).or (t.net a c k) :=
  if_neg (not_lt.mpr h)

/-- Nothing is written in an empty interval, or before the first step. -/
theorem net_idle (h : c ≤ max a t.first) : t.net a c k = none := by
  cases c with
  | zero => rfl
  | succ c => exact if_pos h

theorem net_single (h : t.first ≤ a) : t.net a (a + 1) k = t.write a k := by
  rw [net_succ (by omega), net_idle (by omega), Option.or_none]

/-- The later of two intervals wins. -/
theorem net_append (hab : a ≤ b) (hbc : b ≤ c) : t.net a c k = (t.net b c k).or (t.net a b k) := by
  induction c with
  | zero =>
    obtain rfl : b = 0 := by omega
    rfl
  | succ c ih =>
    by_cases hlast : b = c + 1
    · subst hlast
      rw [net_idle (le_max_left (c + 1) t.first), Option.none_or]
    · by_cases hidle : c < max a t.first
      · rw [net_idle (show c + 1 ≤ max a t.first by omega),
          net_idle (show c + 1 ≤ max b t.first by omega),
          net_idle (show b ≤ max a t.first by omega)]
        rfl
      · by_cases hidle' : c < max b t.first
        · omega
        · rw [net_succ (by omega), net_succ (by omega), ih (by omega), Option.or_assoc]

/-- The state after an interval, from the state before it. -/
theorem before_eq (hac : a ≤ c) : t.before c k = (t.net a c k).getD (t.before a k) := by
  unfold before
  rw [net_append (Nat.zero_le a) hac]
  cases t.net a c k <;> rfl

theorem before_succ (h : t.first ≤ n) : t.before (n + 1) k = (t.write n k).getD (t.before n k) := by
  rw [before_eq (Nat.le_succ n), net_single h]

theorem before_idle (h : n ≤ t.first) : t.before n k = none := by
  unfold before
  rw [net_idle (by omega)]
  rfl

end Timeline

/-! ### Sorted lists that hold an interval -/

section Holds

variable {E : Type} [LinearOrder κ] {key : E → WithBot κ}

theorem Ascending.ext {κ' : Type} [LinearOrder κ'] {key : E → κ'} {xs ys : List E}
    (hxs : Ascending key xs) (hys : Ascending key ys)
    (hlookup : ∀ k, lookup key k xs = lookup key k ys) : xs = ys := by
  induction xs generalizing ys with
  | nil =>
    cases ys with
    | nil => rfl
    | cons y ys =>
      have hy := hlookup (key y)
      rw [lookup_cons, if_pos rfl] at hy
      cases hy
  | cons x xs ih =>
    cases ys with
    | nil =>
      have hx := hlookup (key x)
      rw [lookup_cons, if_pos rfl] at hx
      cases hx
    | cons y ys =>
      obtain ⟨hx, htail⟩ := List.pairwise_cons.mp hxs
      obtain ⟨hy, htail'⟩ := List.pairwise_cons.mp hys
      -- the smallest keys agree
      have hkeys : key x = key y := by
        apply le_antisymm
        · by_contra hlt
          have hnone : lookup key (key y) (x :: xs) = none := by
            refine lookup_eq_none_of_lt fun e he => ?_
            rcases List.mem_cons.mp he with rfl | he
            · exact not_le.mp hlt
            · exact (not_le.mp hlt).trans (hx e he)
          rw [hlookup, lookup_cons, if_pos rfl] at hnone
          cases hnone
        · by_contra hlt
          have hnone : lookup key (key x) (y :: ys) = none := by
            refine lookup_eq_none_of_lt fun e he => ?_
            rcases List.mem_cons.mp he with rfl | he
            · exact not_le.mp hlt
            · exact (not_le.mp hlt).trans (hy e he)
          rw [← hlookup, lookup_cons, if_pos rfl] at hnone
          cases hnone
      have hhead := hlookup (key x)
      rw [lookup_cons, if_pos rfl, lookup_cons, if_pos hkeys.symm] at hhead
      obtain rfl := Option.some.inj hhead
      have hrest : ∀ k, lookup key k xs = lookup key k ys := by
        intro k
        by_cases hk : key x = k
        · subst hk
          rw [lookup_eq_none_of_lt hx, lookup_eq_none_of_lt hy]
        · simpa [lookup_cons, hk] using hlookup k
      rw [ih htail htail' hrest]

variable {f g w : κ → Option V → Option (Option V) → Option E}

/-- A sorted list that has, under each key, what an interval leaves there. What
that is depends on the state before the interval and on the last write in it. -/
structure Holds (key : E → WithBot κ) (f : κ → Option V → Option (Option V) → Option E)
    (t : Timeline κ V) (a c : ℕ) (body : List E) : Prop where
  ascending : Ascending key body
  keyed : ∀ e ∈ body, key e ≠ ⊥
  lookup : ∀ k : κ, lookup key k body = f k (t.before a k) (t.net a c k)

variable {t : Timeline κ V} {a b c : ℕ} {body olds news : List E}

theorem Holds.lookup_bot (hbody : Holds key f t a c body) : Foundation.lookup key ⊥ body = none :=
  lookup_eq_none_iff.mpr hbody.keyed

theorem Holds.unique {body' : List E} (hbody : Holds key f t a c body)
    (hbody' : Holds key f t a c body') : body = body' := by
  refine hbody.ascending.ext hbody'.ascending fun k => ?_
  cases k with
  | bot => rw [hbody.lookup_bot, hbody'.lookup_bot]
  | coe k => rw [hbody.lookup, hbody'.lookup]

theorem holds_idle (hf : ∀ k before, f k before none = none) (hidle : c ≤ max a t.first) :
    Holds key f t a c [] where
  ascending := .nil
  keyed := by simp
  lookup k := by rw [Timeline.net_idle hidle, hf]; rfl

/-- Merging what two intervals hold gives what both together hold, if it does
under each key. -/
theorem Holds.merge {ε : Type} {keep : E → Bool} {combine : E → E → Except ε (Option E)}
    (hkeys : ∀ old new e, key old = key new → combine old new = .ok (some e) → key e = key new)
    (holds : Holds key f t a b olds) (hnews : Holds key g t b c news)
    (hmerged : ∀ k, mergedAt keep combine (f k (t.before a k) (t.net a b k))
      (g k (t.before b k) (t.net b c k)) = .ok (w k (t.before a k) (t.net a c k))) :
    ∃ merged, mergeSorted key keep combine olds news = .ok merged ∧ Holds key w t a c merged := by
  have hok : ∀ old ∈ olds, ∀ new ∈ news, key old = key new →
      ∃ both, combine old new = .ok both := by
    intro old hold new hnew hsame
    obtain ⟨k, hk⟩ := WithBot.ne_bot_iff_exists.mp (hnews.keyed new hnew)
    have hlookupOld := holds.ascending.lookup_of_mem hold
    have hlookupNew := hnews.ascending.lookup_of_mem hnew
    rw [hsame] at hlookupOld
    rw [← hk] at hlookupOld hlookupNew
    rw [holds.lookup] at hlookupOld
    rw [hnews.lookup] at hlookupNew
    have hboth := hmerged k
    rw [hlookupOld, hlookupNew] at hboth
    exact ⟨_, hboth⟩
  obtain ⟨merged, hmerge, hmerges⟩ : ∃ merged, mergeSorted key keep combine olds news = .ok merged ∧
      Merges key keep combine olds news merged :=
    mergeSorted_spec hkeys holds.ascending hnews.ascending hok
  refine ⟨merged, hmerge, hmerges.ascending, fun e he hbot => ?_, fun k => ?_⟩
  · obtain ⟨e', he', hkey⟩ := hmerges.source e he
    rcases List.mem_append.mp he' with he' | he'
    · exact holds.keyed e' he' (hkey.trans hbot)
    · exact hnews.keyed e' he' (hkey.trans hbot)
  · have houtcome := hmerges.outcome k
    rw [holds.lookup, hnews.lookup, hmerged] at houtcome
    exact (Except.ok.inj houtcome).symm

/-- An entry that an interval leaves tells the state after it, and where it
leaves none the state is as before. -/
structure Tells (value : E → Option V) (f : κ → Option V → Option (Option V) → Option E)
    (t : Timeline κ V) (a c : ℕ) : Prop where
  found : ∀ k e, f k (t.before a k) (t.net a c k) = some e → value e = t.before c k
  missing : ∀ k, f k (t.before a k) (t.net a c k) = none → t.before c k = t.before a k

/-- Searching an interval first, and then what is older, finds the state after
the interval. -/
theorem Holds.search {value : E → Option V} (hbody : Holds key f t a c body)
    (htells : Tells value f t a c) {k : κ} {older : Option V} (holder : older = t.before a k) :
    (match Foundation.lookup key (k : WithBot κ) body with
      | some e => value e
      | none => older) = t.before c k := by
  rw [hbody.lookup]
  cases hfound : f k (t.before a k) (t.net a c k) with
  | some e => exact htells.found k e hfound
  | none => rw [htells.missing k hfound, ← holder]

end Holds

end Foundation
