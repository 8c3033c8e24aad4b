import Mathlib.Order.Lattice
import Mathlib.Data.List.Basic

/-!
# Counters that only move up

A counter is present with a value, or absent. While present it only moves up, it is
dropped only below a floor, and it comes back no lower than the floor. Then it never
falls under a number that it has held, and no number is spent twice.
-/

namespace Foundation.Ratchet

open List

variable {ι : Type} [LinearOrder ι] {floor m n : ι} {before mid after : Option ι}

/-- The counter is not below `n`, or will not be when it comes back. -/
def Above (floor n : ι) : Option ι → Prop
  | some m => n ≤ m
  | none => n < floor

/-- A number that the counter held, or one that was spent on it. -/
structure Mark (ι : Type) where
  number : ι
  spent : Bool

/-- Later numbers are no smaller, and a number is spent only above all earlier ones. -/
def Mark.Before (e f : Mark ι) : Prop :=
  e.number ≤ f.number ∧ (f.spent = true → e.number < f.number)

/-- The marks so far are in order and the counter is above them all. -/
structure Protected (floor : ι) (counter : Option ι) (marks : List (Mark ι)) : Prop where
  ordered : marks.Pairwise Mark.Before
  above : ∀ e ∈ marks, Above floor e.number counter

/-- The counter may go from `before` to `after`, leaving the marks `new`. -/
def Advances (floor : ι) (before after : Option ι) (new : List (Mark ι)) : Prop :=
  ∀ marks, Protected floor before marks → Protected floor after (marks ++ new)

theorem Protected.start (floor : ι) (counter : Option ι) : Protected floor counter [] :=
  ⟨.nil, fun _ he => absurd he not_mem_nil⟩

theorem Protected.raise_floor {floor' : ι} {counter : Option ι} {marks : List (Mark ι)}
    (hfloor : floor ≤ floor') (h : Protected floor counter marks) :
    Protected floor' counter marks := by
  refine ⟨h.ordered, fun e he => ?_⟩
  have habove := h.above e he
  cases counter with
  | some m => exact habove
  | none => exact habove.trans_le hfloor

namespace Advances

/-- Going from one value to another without a mark needs only that bounds stay bounds. -/
theorem of_above (h : ∀ n, Above floor n before → Above floor n after) :
    Advances floor before after [] := by
  intro marks hmarks
  rw [append_nil]
  exact ⟨hmarks.ordered, fun e he => h e.number (hmarks.above e he)⟩

theorem refl (floor : ι) (counter : Option ι) : Advances floor counter counter [] :=
  of_above fun _ h => h

theorem trans {first second : List (Mark ι)} (h : Advances floor before mid first)
    (h' : Advances floor mid after second) : Advances floor before after (first ++ second) := by
  intro marks hmarks
  rw [← append_assoc]
  exact h' _ (h _ hmarks)

/-- A counter that is there may move up. -/
theorem raise (hle : m ≤ n) : Advances floor (some m) (some n) [] :=
  of_above fun _ h => le_trans h hle

/-- A counter below the floor may be dropped. -/
theorem drop (hlt : m < floor) : Advances floor (some m) none [] :=
  of_above fun _ h => lt_of_le_of_lt h hlt

theorem come_back (hle : floor ≤ n) : Advances floor none (some n) [] :=
  of_above fun _ h => (lt_of_lt_of_le h hle).le

/-- A number above the counter is spent by moving the counter to it. -/
theorem spend (hlt : m < n) : Advances floor (some m) (some n) [⟨n, true⟩] := by
  intro marks hmarks
  have hbelow (e : Mark ι) (he : e ∈ marks) : e.number < n :=
    lt_of_le_of_lt (hmarks.above e he) hlt
  refine ⟨pairwise_append.mpr ⟨hmarks.ordered, pairwise_singleton _ _, ?_⟩, ?_⟩
  · intro e he f hf
    rw [mem_singleton.mp hf]
    exact ⟨(hbelow e he).le, fun _ => hbelow e he⟩
  · intro e he
    rcases mem_append.mp he with he | he
    · exact (hbelow e he).le
    · rw [mem_singleton.mp he]
      exact le_refl n

/-- The number that a counter holds may be noted at any time. -/
theorem note (floor n : ι) : Advances floor (some n) (some n) [⟨n, false⟩] := by
  intro marks hmarks
  refine ⟨pairwise_append.mpr ⟨hmarks.ordered, pairwise_singleton _ _, ?_⟩, ?_⟩
  · intro e he f hf
    rw [mem_singleton.mp hf]
    exact ⟨hmarks.above e he, fun hspent => absurd hspent Bool.false_ne_true⟩
  · intro e he
    rcases mem_append.mp he with he | he
    · exact hmarks.above e he
    · rw [mem_singleton.mp he]
      exact le_refl n

/-- Where the counter ends as it began nothing was spent on the way. -/
theorem none_spent {counter : Option ι} {new : List (Mark ι)} {e : Mark ι}
    (h : Advances floor counter counter new) (he : e ∈ new) : e.spent = false := by
  have habove : Above floor e.number counter := (h [] (.start floor counter)).above e he
  have hnoted : Protected floor counter [⟨e.number, false⟩] :=
    ⟨pairwise_singleton _ _, fun f hf => by rw [mem_singleton.mp hf]; exact habove⟩
  have hordered := (pairwise_append.mp (h _ hnoted).ordered).2.2
  by_contra hspent
  exact lt_irrefl _ ((hordered _ mem_cons_self e he).2 (by simpa using hspent))

end Advances

end Foundation.Ratchet
