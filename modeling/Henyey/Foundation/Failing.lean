import Mathlib.Order.Defs.Unbundled
import Mathlib.Tactic.Basic

/-!
# Outcomes of fallible programs

A program ensures a postcondition when every result it gives satisfies it. The rules follow
the shape of the program.
-/

namespace Foundation

variable {ε α β : Type} {post : α → Prop}

/-- A sequence of two programs gives a result exactly when both do. -/
theorem bind_ok_iff {x : Except ε α} {f : α → Except ε β} {b : β} :
    (x >>= f) = .ok b ↔ ∃ a, x = .ok a ∧ f a = .ok b := by
  cases x with
  | error e => simp [bind, Except.bind]
  | ok a => simp [bind, Except.bind]

/-- Every result that the program gives satisfies the postcondition; it may also fail. -/
def Ensures (post : α → Prop) (program : Except ε α) : Prop :=
  ∀ value, program = .ok value → post value

namespace Ensures

theorem ok {value : α} (hpost : post value) : Ensures post (.ok value : Except ε α) := by
  intro result hresult
  cases hresult
  exact hpost

theorem error {e : ε} : Ensures post (.error e : Except ε α) := by
  intro result hresult
  cases hresult

theorem bind {mid : α → Prop} {after : β → Prop} {first : Except ε α} {next : α → Except ε β}
    (hfirst : Ensures mid first) (hnext : ∀ value, mid value → Ensures after (next value)) :
    Ensures after (first >>= next) := by
  cases first with
  | ok value => exact hnext value (hfirst value rfl)
  | error e => exact error

/-- A first program of which nothing is needed. -/
theorem skip {after : β → Prop} {first : Except ε α} {next : α → Except ε β}
    (hnext : ∀ value, Ensures after (next value)) : Ensures after (first >>= next) := by
  cases first with
  | ok value => exact hnext value
  | error e => exact error

theorem result (program : Except ε α) : Ensures (fun value => program = .ok value) program :=
  fun _ h => h

theorem mono {weaker : α → Prop} {program : Except ε α} (hensures : Ensures post program)
    (himp : ∀ value, post value → weaker value) : Ensures weaker program :=
  fun value hvalue => himp value (hensures value hvalue)

theorem foldlM_of_mem {ι : Type} {round : α → ι → Except ε α} (items : List ι)
    (hround : ∀ item ∈ items, ∀ value, post value → Ensures post (round value item)) (value : α)
    (hstart : post value) : Ensures post (items.foldlM round value) := by
  induction items generalizing value with
  | nil => exact ok hstart
  | cons item rest ih =>
    rw [List.foldlM_cons]
    refine bind (hround item List.mem_cons_self value hstart) fun next hnext => ?_
    exact ih (fun other hother => hround other (List.mem_cons_of_mem _ hother)) next hnext

theorem foldlM {ι : Type} {round : α → ι → Except ε α}
    (hround : ∀ value item, post value → Ensures post (round value item)) (items : List ι)
    (value : α) (hstart : post value) : Ensures post (items.foldlM round value) :=
  foldlM_of_mem items (fun item _ value => hround value item) value hstart

end Ensures

/-- What is asked of each round of a loop, in the state that it begins with. -/
def AllRounds {ι : Type} (safe : α → ι → Prop) (round : α → ι → Except ε α) : List ι → α → Prop
  | [], _ => True
  | item :: rest, value =>
    safe value item ∧ ∀ next, round value item = .ok next → AllRounds safe round rest next

section

variable {ι : Type} {safe : α → ι → Prop} {round : α → ι → Except ε α}

instance AllRounds.decidable [∀ value item, Decidable (safe value item)] :
    ∀ items value, Decidable (AllRounds safe round items value)
  | [], _ => .isTrue trivial
  | item :: rest, value =>
    match hnext : round value item with
    | .error _ => decidable_of_iff (safe value item) (by simp [AllRounds, hnext])
    | .ok next =>
      have := AllRounds.decidable rest next
      decidable_of_iff (safe value item ∧ AllRounds safe round rest next)
        (by simp [AllRounds, hnext])

theorem allRounds_of_forall (hsafe : ∀ value item, safe value item) (items : List ι)
    (value : α) : AllRounds safe round items value := by
  induction items generalizing value with
  | nil => trivial
  | cons item rest ih => exact ⟨hsafe value item, fun next _ => ih next⟩

/-- A loop whose rounds all meet what is asked of them keeps what such rounds keep. -/
theorem Ensures.foldlM_of_rounds
    (hround : ∀ value item, post value → safe value item → Ensures post (round value item))
    (items : List ι) (value : α) (hstart : post value)
    (hrounds : AllRounds safe round items value) : Ensures post (items.foldlM round value) := by
  induction items generalizing value with
  | nil => exact .ok hstart
  | cons item rest ih =>
    intro last hlast
    rw [List.foldlM_cons, bind_ok_iff] at hlast
    obtain ⟨next, hnext, hlast⟩ := hlast
    exact ih next (hround value item hstart hrounds.1 next hnext) (hrounds.2 next hnext) last hlast

end

end Foundation

/-!
## Programs that fail without undoing

A failing program keeps what it has written so far. A relation between the state
at the start and the state at the end holds of a program, whether it fails or not,
when it holds of its steps.
-/

namespace Foundation

variable {ε σ α β : Type}

def endState (program : EStateM ε σ α) (start : σ) : σ :=
  match program start with
  | .ok _ reached => reached
  | .error _ reached => reached

variable {start reached : σ} {program : EStateM ε σ α}

def onlyIf (condition : Bool) (program : EStateM ε σ Unit) : EStateM ε σ Unit :=
  if condition then program else pure ()

/-- The result, if there is one, and the state that is left. -/
def caught (program : EStateM ε σ α) (start : σ) : Option α × σ :=
  match program start with
  | .ok value reached => (some value, reached)
  | .error _ reached => (none, reached)

theorem observing_apply (program : EStateM ε σ α) (start : σ) :
    observing program start =
      match program start with
      | .ok value reached => .ok (.ok value) reached
      | .error error reached => .ok (.error error) reached := by
  simp only [observing, tryCatch, tryCatchThe, MonadExceptOf.tryCatch, bind]
  delta EStateM.tryCatch
  simp only [EStateM.bind]
  cases program start <;> rfl

variable {next : α → EStateM ε σ β}

theorem bind_of_ok {value : α} (hok : program start = .ok value reached) :
    (program >>= next) start = next value reached := by
  change EStateM.bind program next start = _
  simp [EStateM.bind, hok]

theorem bind_of_error {error : ε} (herror : program start = .error error reached) :
    (program >>= next) start = .error error reached := by
  change EStateM.bind program next start = _
  simp [EStateM.bind, herror]

/-- A program leads from every state to a related one. -/
def Keeps (R : σ → σ → Prop) (program : EStateM ε σ α) : Prop :=
  ∀ start, R start (endState program start)

end Foundation
