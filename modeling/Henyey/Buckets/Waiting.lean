import Henyey.Buckets.BucketList

/-!
# Waiting for merges

Receiving what was merged changes no bucket of a list and no outcome of a merge.
If all merges succeed, to wait for them is to receive some results.
-/

namespace Henyey.Buckets

open Foundation Ledger
open LiveLevel

variable {I D H : Type} [LinearOrder I]

/-- A merge as it starts with enough disk space. -/
def PendingMerge.undisturbed : PendingMerge I D H → PendingMerge I D H
  | inMemory bucket => .inMemory bucket
  | async handle => .async (.startMerge handle.request none)

variable [DecidableEq H] {hasher : Hasher (BucketEntry I D) H} {levels : LiveLevels I D H}

/-- Levels of which some have received what was merged. -/
def Received (levels levels' : LiveLevels I D H) : Prop :=
  ∀ l, levels' l = levels l ∨ levels' l = received (levels l)

theorem received_eq (hasher : Hasher (BucketEntry I D) H) (level : LiveLevel I D H) :
    (received level).curr = level.curr ∧ (received level).snap = level.snap ∧
      ((received level).next = none ↔ level.next = none) ∧
      ∀ pending, level.next = some pending → ∃ pending',
        (received level).next = some pending' ∧
          pending'.resolve hasher = pending.resolve hasher ∧
            pending'.undisturbed = pending.undisturbed := by
  unfold received
  cases hnext : level.next with
  | none => simp [hnext]
  | some pending =>
    cases pending with
    | inMemory bucket => simp [hnext]
    | async handle =>
      simp [PendingMerge.resolve, AsyncMergeHandle.result, PendingMerge.undisturbed]

variable {levels levels' : LiveLevels I D H}

theorem Received.at (hreceived : Received levels levels') (hasher : Hasher (BucketEntry I D) H)
    (l : ℕ) :
    (levels' l).curr = (levels l).curr ∧ (levels' l).snap = (levels l).snap ∧
      ((levels' l).next = none ↔ (levels l).next = none) ∧
      ∀ pending, (levels l).next = some pending → ∃ pending',
        (levels' l).next = some pending' ∧
          pending'.resolve hasher = pending.resolve hasher ∧
            pending'.undisturbed = pending.undisturbed := by
  rcases hreceived l with hsame | hsame
  · rw [hsame]
    exact ⟨rfl, rfl, .rfl, fun pending hnext => ⟨pending, hnext, rfl, rfl⟩⟩
  · rw [hsame]
    exact received_eq hasher (levels l)

omit [DecidableEq H] in
theorem received_received (level : LiveLevel I D H) :
    received (received level) = received level := by
  unfold received
  cases hnext : level.next with
  | none => simp [hnext]
  | some pending => cases pending <;> simp [hnext]

omit [DecidableEq H] in
theorem Received.trans {levels levels' levels'' : LiveLevels I D H}
    (hfirst : Received levels levels') (hsecond : Received levels' levels'') :
    Received levels levels'' := by
  intro l
  rcases hfirst l with hsame | hsame <;> rcases hsecond l with hsame' | hsame'
  · exact .inl (hsame'.trans hsame)
  · rw [hsame', hsame]
    exact .inr rfl
  · exact .inr (hsame'.trans hsame)
  · rw [hsame', hsame, received_received]
    exact .inr rfl

/-- The pending merges of a level, if any, succeed. -/
def Resolves (hasher : Hasher (BucketEntry I D) H) (level : LiveLevel I D H) : Prop :=
  ∀ pending, level.next = some pending → ∃ bucket, pending.resolve hasher = .ok bucket

theorem Received.resolves (hreceived : Received levels levels') {l : ℕ}
    (hok : Resolves hasher (levels l)) : Resolves hasher (levels' l) := by
  intro pending' hnext'
  obtain ⟨-, -, hnone, hsome⟩ := hreceived.at hasher l
  cases hnext : (levels l).next with
  | none =>
    rw [hnone.mpr hnext] at hnext'
    cases hnext'
  | some pending =>
    obtain ⟨pending'', hpending, hsame, -⟩ := hsome pending hnext
    obtain rfl := Option.some.inj (hpending.symm.trans hnext')
    rw [hsame]
    exact hok pending hnext

/-- Where all merges succeed, waiting for them receives some results. -/
theorem resolveLevels_ok (ls : List ℕ) (levels : LiveLevels I D H)
    (hok : ∀ l ∈ ls, Resolves hasher (levels l)) :
    (BucketList.resolveLevels hasher ls levels).2 = .ok () ∧
      Received levels (BucketList.resolveLevels hasher ls levels).1 := by
  induction ls generalizing levels with
  | nil => exact ⟨rfl, fun l => .inl rfl⟩
  | cons l ls ih =>
    unfold BucketList.resolveLevels
    split
    next handle hnext =>
      obtain ⟨bucket, hbucket⟩ := hok l List.mem_cons_self _ hnext
      have hresult : handle.result hasher = .ok bucket := hbucket
      rw [hresult]
      have hstep : Received levels
          (Function.update levels l (received (levels l))) := by
        intro j
        by_cases hj : j = l
        · subst hj
          exact .inr (Function.update_self _ _ _)
        · exact .inl (Function.update_of_ne hj _ _)
      obtain ⟨hresult', hreceived⟩ := ih (Function.update levels l (received (levels l)))
        fun j hj => hstep.resolves (hok j (List.mem_cons_of_mem _ hj))
      exact ⟨hresult', hstep.trans hreceived⟩
    · exact ih levels fun j hj => hok j (List.mem_cons_of_mem _ hj)

end Henyey.Buckets
