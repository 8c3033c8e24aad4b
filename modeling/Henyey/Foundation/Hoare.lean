import Henyey.Foundation.Failing

/-!
# Pre- and postconditions of failing programs

From a state that meets the precondition a program returns with its postcondition or
fails in a state that meets the failure condition.
-/

namespace Foundation

variable {ε σ α β : Type}

def Triple (pre : σ → Prop) (program : EStateM ε σ α) (post : α → σ → Prop)
    (failed : σ → Prop) : Prop :=
  ∀ start, pre start →
    match program start with
    | .ok value reached => post value reached
    | .error _ reached => failed reached

namespace Triple

variable {pre : σ → Prop} {program : EStateM ε σ α} {post : α → σ → Prop} {failed : σ → Prop}

theorem pure {value : α} (hpost : ∀ start, pre start → post value start) :
    Triple pre (pure value : EStateM ε σ α) post failed :=
  fun start hstart => hpost start hstart

theorem throw {error : ε} (hfailed : ∀ start, pre start → failed start) :
    Triple pre (throw error : EStateM ε σ α) post failed :=
  fun start hstart => hfailed start hstart

variable {next : α → EStateM ε σ β}

theorem bind {mid : α → σ → Prop} {after : β → σ → Prop} (hfirst : Triple pre program mid failed)
    (hnext : ∀ value, Triple (mid value) (next value) after failed) :
    Triple pre (program >>= next) after failed := by
  intro start hstart
  have hmid := hfirst start hstart
  cases hrun : program start with
  | ok value reached =>
    rw [hrun] at hmid
    rw [bind_of_ok hrun]
    exact hnext value reached hmid
  | error error reached =>
    rw [hrun] at hmid
    rw [bind_of_error hrun]
    exact hmid

/-- The condition in between is given. -/
theorem through (mid : α → σ → Prop) {after : β → σ → Prop} (hfirst : Triple pre program mid failed)
    (hnext : ∀ value, Triple (mid value) (next value) after failed) :
    Triple pre (program >>= next) after failed :=
  bind hfirst hnext

theorem consequence {pre' : σ → Prop} {post' : α → σ → Prop} {failed' : σ → Prop}
    (htriple : Triple pre program post failed) (hpre : ∀ start, pre' start → pre start)
    (hpost : ∀ value reached, post value reached → post' value reached)
    (hfailed : ∀ reached, failed reached → failed' reached) :
    Triple pre' program post' failed' := by
  intro start hstart
  have hrun := htriple start (hpre start hstart)
  cases hprogram : program start with
  | ok value reached =>
    rw [hprogram] at hrun
    exact hpost value reached hrun
  | error error reached =>
    rw [hprogram] at hrun
    exact hfailed reached hrun

theorem strengthen {pre' : σ → Prop} (htriple : Triple pre program post failed)
    (hpre : ∀ start, pre' start → pre start) : Triple pre' program post failed :=
  fun start hstart => htriple start (hpre start hstart)

theorem weaken {post' : α → σ → Prop} (htriple : Triple pre program post failed)
    (hpost : ∀ value reached, post value reached → post' value reached) :
    Triple pre program post' failed :=
  htriple.consequence (fun _ h => h) hpost fun _ h => h

theorem failing {failed' : σ → Prop} (htriple : Triple pre program post failed)
    (hfailed : ∀ reached, failed reached → failed' reached) : Triple pre program post failed' :=
  htriple.consequence (fun _ h => h) (fun _ _ h => h) hfailed

/-- What is known of a state may be used to reason about the program. -/
theorem of_pre (htriple : ∀ start, pre start → Triple (· = start) program post failed) :
    Triple pre program post failed :=
  fun start hstart => htriple start hstart start rfl

theorem get : Triple pre (MonadState.get : EStateM ε σ σ)
    (fun value reached => value = reached ∧ pre reached) failed :=
  fun _ hstart => ⟨rfl, hstart⟩

theorem tryCatch {handler : ε → EStateM ε σ α} {between : σ → Prop}
    (hprogram : Triple pre program post between)
    (hhandler : ∀ error, Triple between (handler error) post failed) :
    Triple pre (tryCatch program handler) post failed := by
  intro start hstart
  have hrun := hprogram start hstart
  change match EStateM.tryCatch program handler start with
    | .ok value reached => post value reached
    | .error _ reached => failed reached
  delta EStateM.tryCatch
  cases hprogram : program start with
  | ok value reached =>
    rw [hprogram] at hrun
    simpa [hprogram] using hrun
  | error error reached =>
    rw [hprogram] at hrun
    simp only [hprogram]
    exact hhandler error reached hrun

theorem forM {ι : Type} {round : ι → EStateM ε σ PUnit} {kept : σ → Prop} (items : List ι)
    (hround : ∀ item ∈ items, Triple kept (round item) (fun _ => kept) failed) :
    Triple kept (items.forM round) (fun _ => kept) failed := by
  induction items with
  | nil => exact pure fun _ hstart => hstart
  | cons item rest ih =>
    refine bind (hround item List.mem_cons_self) fun _ => ?_
    exact ih fun other hother => hround other (List.mem_cons_of_mem _ hother)

theorem foldlM {ι : Type} {round : α → ι → EStateM ε σ α} {kept : α → σ → Prop} (items : List ι)
    (hround : ∀ item ∈ items, ∀ value,
      Triple (kept value) (round value item) kept failed) (value : α) :
    Triple (kept value) (items.foldlM round value) kept failed := by
  induction items generalizing value with
  | nil => exact pure fun _ hstart => hstart
  | cons item rest ih =>
    rw [List.foldlM_cons]
    refine bind (hround item List.mem_cons_self value) fun next => ?_
    exact ih (fun other hother => hround other (List.mem_cons_of_mem _ hother)) next

theorem keeps_foldlM {ι : Type} {round : α → ι → EStateM ε σ α} {kept : σ → Prop} (items : List ι)
    (hround : ∀ item ∈ items, ∀ value, Triple kept (round value item) (fun _ => kept) failed)
    (value : α) : Triple kept (items.foldlM round value) (fun _ => kept) failed :=
  @foldlM ε σ α failed ι round (fun _ => kept) items hround value

end Triple

end Foundation
