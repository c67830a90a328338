import ScriptMachine.Error
import ScriptMachine.Journal

/-!
Actions: computations that change a state, may raise an error, may hit a
fault, and keep a journal.

An action ends in one of three ways. It is done, with a value; it raises an
error, and then the state says how far it came; or it is aborted by a fault,
and then nothing is left to look at. Errors and faults of computations that
only read are `Failure`s.
-/

namespace ScriptMachine

/-- Why a computation that only reads has no value. -/
inductive Failure where
  | error (cause : Error)
  | fault (cause : Fault)
  deriving DecidableEq

/-- A computation that reads but changes nothing. -/
abbrev Result (α : Type) := Except Failure α

/-- The computation that fails with an error. -/
def Result.raise {α : Type} (error : Error) : Result α := .error (.error error)

/-- The computation that hits a fault. -/
def Result.abort {α : Type} (fault : Fault) : Result α := .error (.fault fault)

/-- How an action over the state `σ` ends. -/
inductive Outcome (σ α : Type) where
  | done (value : α) (state : σ) (journal : Journal)
  | raised (error : Error) (state : σ) (journal : Journal)
  | aborted (fault : Fault)

/-- A computation over the state `σ`. -/
def Action (σ α : Type) := σ → Journal → Outcome σ α

namespace Action

variable {σ τ α β : Type}

/-- The action that only gives a value. -/
@[always_inline, inline]
protected def pure (value : α) : Action σ α := fun state journal => .done value state journal

/-- One action after another: the second runs if the first is done. -/
@[always_inline, inline]
protected def bind (first : Action σ α) (next : α → Action σ β) : Action σ β :=
  fun state journal =>
    match first state journal with
    | .done value state journal => next value state journal
    | .raised error state journal => .raised error state journal
    | .aborted fault => .aborted fault

@[always_inline]
instance : Monad (Action σ) where
  pure := Action.pure
  bind := Action.bind

@[always_inline]
instance : MonadStateOf σ (Action σ) where
  get := fun state journal => .done state state journal
  set state := fun _ journal => .done () state journal
  modifyGet f := fun state journal =>
    match f state with
    | (value, state) => .done value state journal

/-- Raises an error. The state stays as it is. -/
@[always_inline, inline]
def raise (error : Error) : Action σ α := fun state journal => .raised error state journal

/-- Ends everything with a fault. -/
@[always_inline, inline]
def abort (fault : Fault) : Action σ α := fun _ _ => .aborted fault

/-- Records an event. -/
@[always_inline, inline]
def note (event : Event) : Action σ Unit :=
  fun state journal => .done () state (journal.note event)

/-- A computation that only reads, as an action. -/
@[always_inline, inline]
def ofResult (result : Result α) : Action σ α :=
  match result with
  | .ok value => pure value
  | .error (.error error) => raise error
  | .error (.fault fault) => abort fault

@[always_inline]
instance : MonadLift (Except Failure) (Action σ) := ⟨ofResult⟩

/-- Runs an action on a part of the state. `split` takes the state apart into
the part and a way to put a new part in its place. -/
@[always_inline, inline]
def on (split : σ → τ × (τ → σ)) (action : Action τ α) : Action σ α := fun state journal =>
  match split state with
  | (part, rebuild) =>
    match action part journal with
    | .done value part journal => .done value (rebuild part) journal
    | .raised error part journal => .raised error (rebuild part) journal
    | .aborted fault => .aborted fault

/-- Runs an action and, if it raises an error, repairs the state. -/
def repairing (action : Action σ α) (repair : σ → σ) : Action σ α := fun state journal =>
  match action state journal with
  | .raised error state journal => .raised error (repair state) journal
  | outcome => outcome

/-! ### Laws -/

@[simp] theorem pure_apply (value : α) (state : σ) (journal : Journal) :
    (pure value : Action σ α) state journal = .done value state journal := rfl

theorem bind_apply (first : Action σ α) (next : α → Action σ β) (state : σ) (journal : Journal) :
    (first >>= next) state journal =
      match first state journal with
      | .done value state journal => next value state journal
      | .raised error state journal => .raised error state journal
      | .aborted fault => .aborted fault := rfl

/-- Actions obey the monad laws. -/
instance : LawfulMonad (Action σ) := by
  refine LawfulMonad.mk' _ ?_ ?_ ?_
  · intro α action
    funext state journal
    change (match action state journal with
      | .done value state journal => Outcome.done (id value) state journal
      | .raised error state journal => .raised error state journal
      | .aborted fault => .aborted fault) = action state journal
    cases action state journal <;> rfl
  · intros
    rfl
  · intro α β γ action next last
    funext state journal
    simp only [bind_apply]
    cases action state journal <;> rfl

end Action

end ScriptMachine
