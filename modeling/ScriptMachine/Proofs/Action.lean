import Mathlib.Order.Defs.Unbundled
import Mathlib.Tactic.Common
import ScriptMachine.Action

/-!
Running actions step by step.

The equations below run the first action of a sequence on a state and a
journal. They are `simp` lemmas, so that a proof about an action follows its
steps without looking at how sequences are made. Two predicates say how an
action ends: `Outcome.Ends` has a condition for each of the three ways, and
`Action.Within` asks that a relation holds between the state before and every
state that the action may leave.
-/

namespace ScriptMachine

/-- A computation that succeeds does so step by step. -/
lemma Result.exists_of_bind_ok {α β : Type} {result : Result α} {next : α → Result β} {value : β}
    (h : result >>= next = .ok value) : ∃ first, result = .ok first ∧ next first = .ok value := by
  cases result with
  | ok first => exact ⟨first, rfl, h⟩
  | error failure => cases h

namespace Action

variable {σ τ α β : Type} {state : σ} {journal : Journal}

@[simp] lemma raise_bind (error : Error) (next : α → Action σ β) :
    (raise error : Action σ α) >>= next = raise error := rfl

@[simp] lemma abort_bind (fault : Fault) (next : α → Action σ β) :
    (abort fault : Action σ α) >>= next = abort fault := rfl

@[simp] lemma raise_apply (error : Error) :
    (raise error : Action σ α) state journal = .raised error state journal := rfl

@[simp] lemma abort_apply (fault : Fault) :
    (abort fault : Action σ α) state journal = .aborted fault := rfl

@[simp] lemma note_apply (event : Event) :
    (note event : Action σ Unit) state journal = .done () state (journal.note event) := rfl

@[simp] lemma get_apply : (get : Action σ σ) state journal = .done state state journal := rfl

@[simp] lemma modify_apply (f : σ → σ) :
    (modify f : Action σ Unit) state journal = .done () (f state) journal := rfl

@[simp] lemma modifyGet_apply (f : σ → α × σ) :
    (modifyGet f : Action σ α) state journal = .done (f state).1 (f state).2 journal := rfl

@[simp] lemma lift_ok (value : α) :
    (liftM (.ok value : Result α) : Action σ α) = pure value := rfl

@[simp] lemma lift_error (failure : Failure) :
    (liftM (.error failure : Result α) : Action σ α) =
      match failure with
      | .error error => raise error
      | .fault fault => abort fault := by
  cases failure <;> rfl

@[simp] lemma lift_raise (error : Error) :
    (liftM (Result.raise error : Result α) : Action σ α) = raise error := rfl

@[simp] lemma lift_abort (fault : Fault) :
    (liftM (Result.abort fault : Result α) : Action σ α) = abort fault := rfl

variable {first : Action σ α} {next : α → Action σ β}

/-! ### Sequences -/

@[simp] lemma get_bind (next : σ → Action σ β) :
    ((get : Action σ σ) >>= next) state journal = next state state journal := rfl

@[simp] lemma modify_bind (f : σ → σ) (next : PUnit → Action σ β) :
    ((modify f : Action σ PUnit) >>= next) state journal = next ⟨⟩ (f state) journal := rfl

@[simp] lemma modifyGet_bind (f : σ → α × σ) :
    ((modifyGet f : Action σ α) >>= next) state journal =
      next (f state).1 (f state).2 journal := rfl

@[simp] lemma note_bind (event : Event) (next : Unit → Action σ β) :
    ((note event : Action σ Unit) >>= next) state journal =
      next () state (journal.note event) := rfl

lemma bind_of_done {value : α} {state' : σ} {journal' : Journal}
    (h : first state journal = .done value state' journal') :
    (first >>= next) state journal = next value state' journal' := by
  rw [bind_apply, h]

/-- A sequence that succeeds does so step by step. -/
lemma exists_of_bind_done {result : β} {state' : σ} {journal' : Journal}
    (h : (first >>= next) state journal = .done result state' journal') :
    ∃ value state₁ journal₁, first state journal = .done value state₁ journal₁ ∧
      next value state₁ journal₁ = .done result state' journal' := by
  rw [bind_apply] at h
  cases hfirst : first state journal with
  | done value state₁ journal₁ =>
      rw [hfirst] at h
      exact ⟨value, state₁, journal₁, rfl, h⟩
  | raised error state₁ journal₁ => rw [hfirst] at h; cases h
  | aborted fault => rw [hfirst] at h; cases h

/-- A sequence that starts with a result succeeds only if the result is a value. -/
lemma exists_of_lift_bind_done {start : Result α} {result : β} {state' : σ} {journal' : Journal}
    (h : (liftM start >>= next) state journal = .done result state' journal') :
    ∃ value, start = .ok value ∧ next value state journal = .done result state' journal' := by
  cases start with
  | ok value => exact ⟨value, rfl, h⟩
  | error failure => cases failure <;> cases h

/-- A sequence that raises an error does so in one of its parts. -/
lemma exists_of_bind_raised {error : Error} {state' : σ} {journal' : Journal}
    (h : (first >>= next) state journal = .raised error state' journal') :
    first state journal = .raised error state' journal' ∨
      ∃ value state₁ journal₁, first state journal = .done value state₁ journal₁ ∧
        next value state₁ journal₁ = .raised error state' journal' := by
  rw [bind_apply] at h
  cases hfirst : first state journal with
  | done value state₁ journal₁ =>
      rw [hfirst] at h
      exact .inr ⟨value, state₁, journal₁, rfl, h⟩
  | raised error₁ state₁ journal₁ =>
      rw [hfirst] at h
      cases h
      exact .inl rfl
  | aborted fault => rw [hfirst] at h; cases h

end Action

namespace Outcome

variable {σ α β : Type}

/-- How an outcome ends: with a value and a state, with an error and a state,
or with a fault, each of which satisfies its own condition. -/
def Ends (done : α → σ → Prop) (raised : Error → σ → Prop) (aborted : Fault → Prop) :
    Outcome σ α → Prop
  | .done value state _ => done value state
  | .raised error state _ => raised error state
  | .aborted fault => aborted fault

variable {done : α → σ → Prop} {done' : β → σ → Prop} {raised : Error → σ → Prop}
  {aborted : Fault → Prop} {first : Action σ α} {next : α → Action σ β} {state : σ}
  {journal : Journal}

lemma Ends.of_done {value : α} {state' : σ} {journal' : Journal}
    (h : Ends done raised aborted (first state journal))
    (heq : first state journal = .done value state' journal') : done value state' := by
  rwa [heq] at h

lemma Ends.of_raised {error : Error} {state' : σ} {journal' : Journal}
    (h : Ends done raised aborted (first state journal))
    (heq : first state journal = .raised error state' journal') : raised error state' := by
  rwa [heq] at h

lemma Ends.of_aborted {fault : Fault} (h : Ends done raised aborted (first state journal))
    (heq : first state journal = .aborted fault) : aborted fault := by
  rwa [heq] at h

/-- Conditions of a sequence from those of its parts. -/
lemma Ends.bind (h : Ends done raised aborted (first state journal))
    (hnext : ∀ value state journal, done value state →
      Ends done' raised aborted (next value state journal)) :
    Ends done' raised aborted ((first >>= next) state journal) := by
  rw [Action.bind_apply]
  cases hf : first state journal with
  | done value state journal =>
      rw [hf] at h
      exact hnext value state journal h
  | raised error state journal => rwa [hf] at h
  | aborted fault => rwa [hf] at h

lemma Ends.imp {done' : α → σ → Prop} {raised' : Error → σ → Prop} {aborted' : Fault → Prop}
    {outcome : Outcome σ α} (h : Ends done raised aborted outcome)
    (hdone : ∀ value state, done value state → done' value state)
    (hraised : ∀ error state, raised error state → raised' error state)
    (haborted : ∀ fault, aborted fault → aborted' fault) :
    Ends done' raised' aborted' outcome := by
  cases outcome with
  | done value state journal => exact hdone value state h
  | raised error state journal => exact hraised error state h
  | aborted fault => exact haborted fault h

/-- Saying less of what is done, and the same of errors and faults. -/
lemma Ends.imp_done {done' : α → σ → Prop} {outcome : Outcome σ α}
    (h : Ends done raised aborted outcome)
    (hdone : ∀ value state, done value state → done' value state) :
    Ends done' raised aborted outcome := h.imp hdone (fun _ _ => id) fun _ => id

/-- Where no error is raised, anything can be said of errors. -/
lemma Ends.unraised {outcome : Outcome σ α} (h : Ends done (fun _ _ => False) aborted outcome) :
    Ends done raised aborted outcome := h.imp (fun _ _ => id) (fun _ _ => False.elim) fun _ => id

/-- The state that is left. -/
def state? : Outcome σ α → Option σ
  | .done _ state _ => some state
  | .raised _ state _ => some state
  | .aborted _ => none

/-- What an action that is done returns and leaves. -/
def done? : Outcome σ α → Option (α × σ × Journal)
  | .done value state journal => some (value, state, journal)
  | .raised _ _ _ => none
  | .aborted _ => none

lemma eq_of_done? {o : Outcome σ α} {r : α × σ × Journal} (h : o.done? = some r) :
    o = .done r.1 r.2.1 r.2.2 := by
  cases o with
  | done value state journal => cases h; rfl
  | raised error state journal => cases h
  | aborted fault => cases h

/-- A condition under which an outcome ends as it should. -/
lemma ends_of_imp {p : Prop} {outcome : Outcome σ α}
    (h : p → outcome.Ends done raised fun _ => True) :
    outcome.Ends (fun value state => p → done value state) (fun error state => p → raised error state)
      fun _ => True := by
  cases outcome with
  | done value state journal => exact h
  | raised error state journal => exact h
  | aborted fault => trivial

/-- What is left by an outcome that is done or raises an error. -/
lemma Ends.of_state? {left : σ → Prop} {aborted : Fault → Prop} {outcome : Outcome σ α}
    (h : outcome.Ends (fun _ => left) (fun _ => left) aborted) {state : σ}
    (hstate : outcome.state? = some state) : left state := by
  cases outcome with
  | done value state journal => exact Option.some.inj hstate ▸ h
  | raised error state journal => exact Option.some.inj hstate ▸ h
  | aborted fault => cases hstate

lemma eq_of_toOption {ε : Type} {result : Except ε α} {value : α}
    (h : result.toOption = some value) : result = .ok value := by
  cases result with
  | ok value => exact congrArg _ (Option.some.inj h)
  | error failure => cases h

/-! ### Requests -/

/-- How a request for memory ends: it is served, or `refusal` says why not and
nothing has changed. If requests are not always granted, an error may also come
without such a reason; and if it is `full`, there is no number left for a new
object. -/
def Served (granted full : Prop) (refusal : Option Failure) (before : σ)
    (served : α → σ → Prop) : Outcome σ α → Prop :=
  Ends (fun value state => served value state ∧ refusal = none)
    (fun error state => state = before ∧ (granted → refusal = some (.error error)))
    (fun fault => (full ∧ fault = .slotOverflow) ∨
      (fault = .wordOverflow ∧ refusal = some (.fault fault)))

variable {granted full : Prop} {refusal : Option Failure} {before : σ}

/-- A request, and then an action that is always done. -/
lemma Served.bind (h : Served granted full refusal before done (first state journal))
    (hnext : ∀ value state journal, done value state →
      ∃ value' state' journal', next value state journal = .done value' state' journal' ∧
        done' value' state') :
    Served granted full refusal before done' ((first >>= next) state journal) := by
  refine Ends.bind h ?_
  rintro value state journal ⟨hdone, hrefusal⟩
  obtain ⟨value', state', journal', hrun, hdone'⟩ := hnext value state journal hdone
  rw [hrun]
  exact ⟨hdone', hrefusal⟩

lemma Served.imp {done' : α → σ → Prop} {outcome : Outcome σ α}
    (h : Served granted full refusal before done outcome)
    (hdone : ∀ value state, done value state → done' value state) :
    Served granted full refusal before done' outcome :=
  Ends.imp h (fun value state hserved => ⟨hdone value state hserved.1, hserved.2⟩)
    (fun _ _ hraised => hraised) fun _ haborted => haborted

/-- What is left by a request, whether it is served or not. -/
lemma Served.leaves {left : σ → Prop} {outcome : Outcome σ α}
    (h : Served granted full refusal before done outcome) (hbefore : left before)
    (hdone : ∀ value state, done value state → left state) :
    outcome.Ends (fun _ => left) (fun _ => left) fun _ => True :=
  Ends.imp h (fun value state hserved => hdone value state hserved.1)
    (fun _ _ hraised => hraised.1 ▸ hbefore) fun _ _ => trivial

end Outcome

/-! ### Relations between states -/

namespace Action

variable {σ τ α β : Type} {R : σ → σ → Prop}

/-- Whatever state the action leaves, `R` relates the one before to it. -/
def Within (R : σ → σ → Prop) (action : Action σ α) : Prop :=
  ∀ state journal, (action state journal).Ends (fun _ state' => R state state')
    (fun _ state' => R state state') fun _ => True

lemma Within.imp {R' : σ → σ → Prop} {action : Action σ α} (h : action.Within R)
    (himp : ∀ state state', R state state' → R' state state') : action.Within R' :=
  fun state journal => (h state journal).imp (fun _ state' => himp state state')
    (fun _ state' => himp state state') fun _ => id

/-- What is left by an action that is done or raises an error. -/
lemma Within.of_state? {action : Action σ α} (h : action.Within R) {state state' : σ}
    {journal : Journal} (hstate : (action state journal).state? = some state') : R state state' :=
  (h state journal).of_state? hstate

lemma within_abort (fault : Fault) : (abort fault : Action σ α).Within R := fun _ _ => trivial

lemma within_modify {f : σ → σ} (h : ∀ state, R state (f state)) :
    (modify f : Action σ Unit).Within R := fun state _ => h state

lemma within_modifyGet {f : σ → α × σ} (h : ∀ state, R state (f state).2) :
    (modifyGet f : Action σ α).Within R := fun state _ => h state

lemma Within.ite {p : Prop} [Decidable p] {yes no : Action σ α} (hyes : yes.Within R)
    (hno : no.Within R) : (if p then yes else no).Within R := by
  split
  · exact hyes
  · exact hno

/-- An action on a part of the state. -/
lemma Within.on {S : τ → τ → Prop} {split : σ → τ × (τ → σ)} {action : Action τ α}
    (h : action.Within S)
    (hpart : ∀ state part, S (split state).1 part → R state ((split state).2 part)) :
    (Action.on split action).Within R := by
  intro state journal
  have hends := h (split state).1 journal
  unfold Action.on
  dsimp only
  cases hrun : action (split state).1 journal with
  | done value part journal' => exact hpart state part (hends.of_done hrun)
  | raised error part journal' => exact hpart state part (hends.of_raised hrun)
  | aborted fault => trivial

variable [IsPreorder σ R]

lemma within_pure (value : α) : (pure value : Action σ α).Within R :=
  fun state _ => refl_of R state

lemma within_raise (error : Error) : (raise error : Action σ α).Within R :=
  fun state _ => refl_of R state

lemma within_get : (get : Action σ σ).Within R := fun state _ => refl_of R state

lemma within_note (event : Event) : (note event : Action σ Unit).Within R :=
  fun state _ => refl_of R state

lemma within_lift (result : Result α) : (liftM result : Action σ α).Within R := by
  cases result with
  | ok value => exact within_pure value
  | error failure =>
      cases failure with
      | error error => exact within_raise error
      | fault fault => exact within_abort fault

lemma Within.bind {first : Action σ α} {next : α → Action σ β} (h : first.Within R)
    (hnext : ∀ value, (next value).Within R) : (first >>= next).Within R := by
  intro state journal
  refine Outcome.Ends.bind (h state journal) fun value state' journal' hfirst => ?_
  exact (hnext value state' journal').imp (fun _ _ => trans_of R hfirst)
    (fun _ _ => trans_of R hfirst) fun _ => id

end Action

end ScriptMachine
