import ScriptMachine.Proofs.Action
import ScriptMachine.Proofs.Simulation.World

/-!
Outcomes of two runs that stand for each other.

`Result.Rel` and `Agree` compare how two computations end: both with values, or
both with one error, or both with one fault, which is never that of a reference
to nothing. A fault for want of numbers or of words leaves nothing to compare.

`Match S V` compares outcomes whose states `S` relates and whose values `V`
relates. `Sim S w V` does so in a world, which may have grown on the way, and
`Alike S w V` asks for it from all states that `S` relates.
-/

namespace ScriptMachine

variable {σ τ α α' β β' : Type}

/-- Faults that say that a machine ran out of numbers for objects, or that its
threshold left the range of words. -/
def Fault.Exhausted (fault : Fault) : Prop := fault = .slotOverflow ∨ fault = .thresholdOverflow

lemma Fault.Exhausted.ne_stale {fault : Fault} (h : fault.Exhausted) :
    fault ≠ .staleReference := by
  rcases h with ⟨-, rfl⟩ | rfl
  · decide
  · decide

/-! ### Computations that only read -/

/-- Two computations give related values, or fail in one way. -/
inductive Result.Rel (V : α → β → Prop) : Result α → Result β → Prop
  | ok {a : α} {b : β} (value : V a b) : Rel V (.ok a) (.ok b)
  | error (failure : Failure) (live : failure ≠ .fault .staleReference) :
      Rel V (.error failure) (.error failure)

namespace Result.Rel

variable {V : α → β → Prop} {V' : α' → β' → Prop} {r : Result α} {r' : Result β}

lemma bind {next : α → Result α'} {next' : β → Result β'} (h : Rel V r r')
    (hnext : ∀ a b, V a b → Rel V' (next a) (next' b)) :
    Rel V' (r >>= next) (r' >>= next') := by
  cases h with
  | ok value => exact hnext _ _ value
  | error failure live => exact .error failure live

lemma pure {a : α} {b : β} (h : V a b) : Rel V (Pure.pure a : Result α) (Pure.pure b) := .ok h

lemma raise (error : Error) : Rel V (Result.raise error) (Result.raise error) :=
  .error _ (by simp)

lemma abort {fault : Fault} (h : fault ≠ .staleReference) :
    Rel V (Result.abort fault) (Result.abort fault) :=
  .error _ (by simpa using h)

lemma imp {U : α → β → Prop} (h : Rel V r r') (himp : ∀ a b, V a b → U a b) : Rel U r r' := by
  cases h with
  | ok value => exact .ok (himp _ _ value)
  | error failure live => exact .error failure live

lemma ite {p : Prop} [Decidable p] {s : Result α} {s' : Result β} (h : p → Rel V r r')
    (h' : ¬ p → Rel V s s') : Rel V (if p then r else s) (if p then r' else s') := by
  split
  · rename_i hp
    exact h hp
  · rename_i hp
    exact h' hp

end Result.Rel

/-! ### Actions -/

/-- Two outcomes agree: values and states satisfy `D`, or there is one error and
the states satisfy `E`, or there is one fault. -/
inductive Agree (D : α → σ → Journal → β → τ → Journal → Prop)
    (E : σ → Journal → τ → Journal → Prop) : Outcome σ α → Outcome τ β → Prop
  | done {v s j v' s' j'} (related : D v s j v' s' j') : Agree D E (.done v s j) (.done v' s' j')
  | raised (error : Error) {s j s' j'} (related : E s j s' j') :
      Agree D E (.raised error s j) (.raised error s' j')
  | aborted {fault : Fault} (live : fault ≠ .staleReference) :
      Agree D E (.aborted fault) (.aborted fault)
  | left {fault : Fault} (exhausted : fault.Exhausted) (outcome : Outcome τ β) :
      Agree D E (.aborted fault) outcome
  | right (outcome : Outcome σ α) {fault : Fault} (exhausted : fault.Exhausted) :
      Agree D E outcome (.aborted fault)

namespace Agree

variable {D : α → σ → Journal → β → τ → Journal → Prop}
  {D' : α' → σ → Journal → β' → τ → Journal → Prop}
  {E E' : σ → Journal → τ → Journal → Prop} {first : Action σ α} {first' : Action τ β}
  {next : α → Action σ α'} {next' : β → Action τ β'} {s : σ} {s' : τ} {j j' : Journal}

lemma bind (h : Agree D E (first s j) (first' s' j'))
    (hnext : ∀ v s j v' s' j', D v s j v' s' j' → Agree D' E (next v s j) (next' v' s' j')) :
    Agree D' E ((first >>= next) s j) ((first' >>= next') s' j') := by
  rw [Action.bind_apply, Action.bind_apply]
  generalize first s j = o, first' s' j' = o' at h
  cases h with
  | done related => exact hnext _ _ _ _ _ _ related
  | raised error related => exact .raised error related
  | aborted live => exact .aborted live
  | left exhausted => exact .left exhausted _
  | right _ exhausted => exact .right _ exhausted

lemma imp {D' : α → σ → Journal → β → τ → Journal → Prop} {o : Outcome σ α} {o' : Outcome τ β}
    (h : Agree D E o o') (hdone : ∀ v s j v' s' j', D v s j v' s' j' → D' v s j v' s' j')
    (hraised : ∀ s j s' j', E s j s' j' → E' s j s' j') : Agree D' E' o o' := by
  cases h with
  | done related => exact .done (hdone _ _ _ _ _ _ related)
  | raised error related => exact .raised error (hraised _ _ _ _ related)
  | aborted live => exact .aborted live
  | left exhausted => exact .left exhausted _
  | right _ exhausted => exact .right _ exhausted

/-- What is known of the first outcome alone may be used, too. -/
lemma and_left {done : α → σ → Prop} {raised : Error → σ → Prop} {aborted : Fault → Prop}
    {o : Outcome σ α} {o' : Outcome τ β} (h : Agree D E o o') (ho : o.Ends done raised aborted) :
    Agree (fun v s j v' s' j' => D v s j v' s' j' ∧ done v s) E o o' := by
  cases h with
  | done related => exact .done ⟨related, ho⟩
  | raised error related => exact .raised error related
  | aborted live => exact .aborted live
  | left exhausted => exact .left exhausted _
  | right _ exhausted => exact .right _ exhausted

lemma and_right {done : β → τ → Prop} {raised : Error → τ → Prop} {aborted : Fault → Prop}
    {o : Outcome σ α} {o' : Outcome τ β} (h : Agree D E o o') (ho : o'.Ends done raised aborted) :
    Agree (fun v s j v' s' j' => D v s j v' s' j' ∧ done v' s') E o o' := by
  cases h with
  | done related => exact .done ⟨related, ho⟩
  | raised error related => exact .raised error related
  | aborted live => exact .aborted live
  | left exhausted => exact .left exhausted _
  | right _ exhausted => exact .right _ exhausted

/-- Actions on parts of the states. -/
lemma on {μ ν : Type} {split : σ → μ × (μ → σ)} {split' : τ → ν × (ν → τ)} {action : Action μ α}
    {action' : Action ν β} {P : α → μ → Journal → β → ν → Journal → Prop}
    {Q : μ → Journal → ν → Journal → Prop}
    (h : Agree P Q (action (split s).1 j) (action' (split' s').1 j'))
    (hdone : ∀ v p j v' p' j', P v p j v' p' j' → D v ((split s).2 p) j v' ((split' s').2 p') j')
    (hraised : ∀ p j p' j', Q p j p' j' → E ((split s).2 p) j ((split' s').2 p') j') :
    Agree D E (Action.on split action s j) (Action.on split' action' s' j') := by
  rw [Action.on, Action.on]
  dsimp only
  generalize action (split s).1 j = o, action' (split' s').1 j' = o' at h
  cases h with
  | done related => exact .done (hdone _ _ _ _ _ _ related)
  | raised error related => exact .raised error (hraised _ _ _ _ related)
  | aborted live => exact .aborted live
  | left exhausted => exact .left exhausted _
  | right _ exhausted => exact .right _ exhausted

lemma lift {V : α → β → Prop} {r : Result α} {r' : Result β} (hr : Result.Rel V r r')
    (hdone : ∀ v v', V v v' → D v s j v' s' j') (hraised : E s j s' j') :
    Agree D E ((liftM r : Action σ α) s j) ((liftM r' : Action τ β) s' j') := by
  cases hr with
  | ok value => exact .done (hdone _ _ value)
  | error failure live =>
      cases failure with
      | error error => exact .raised error hraised
      | fault fault => exact .aborted fun heq => live (by rw [heq])

/-- Two requests for memory agree if both are granted or refused for one reason,
or if they are one. -/
lemma served {D : α → σ → Journal → α → σ → Journal → Prop} {E : σ → Journal → σ → Journal → Prop}
    {twin granted granted' full full' : Prop} {refusal : Option Failure} {before before' : σ}
    {done done' : α → σ → Prop} {o o' : Outcome σ α} (h : o.Served granted full refusal before done)
    (h' : o'.Served granted' full' refusal before' done') (hgranted : ¬ twin → granted ∧ granted')
    (htwin : twin → o = o')
    (hdone : ∀ v s j v' s' j', done v s → done' v' s' → (twin → v = v' ∧ s = s' ∧ j = j') →
      D v s j v' s' j')
    (hraised : ∀ j j', (twin → j = j') → E before j before' j') : Agree D E o o' := by
  -- twins are one outcome; otherwise both are granted, and the refusal decides for both
  by_cases ht : twin
  · obtain rfl := htwin ht
    cases o with
    | done v s j => exact .done (hdone v s j v s j h.1 h'.1 fun _ => ⟨rfl, rfl, rfl⟩)
    | raised error s j =>
        obtain rfl := h.1
        obtain rfl := h'.1
        exact .raised error (hraised j j fun _ => rfl)
    | aborted fault =>
        rcases h with ⟨-, rfl⟩ | ⟨rfl, -⟩
        · exact .left (.inl rfl) _
        · exact .aborted (by decide)
  · obtain ⟨hg, hg'⟩ := hgranted ht
    cases o with
    | aborted fault =>
        rcases h with ⟨-, rfl⟩ | ⟨rfl, hrefusal⟩
        · exact .left (.inl rfl) _
        · cases o' with
          | aborted fault' =>
              rcases h' with ⟨-, rfl⟩ | ⟨rfl, -⟩
              · exact .right _ (.inl rfl)
              · exact .aborted (by decide)
          | done v' s' j' => cases hrefusal.symm.trans h'.2
          | raised error' s' j' => cases hrefusal.symm.trans (h'.2 hg')
    | done v s j =>
        cases o' with
        | aborted fault' =>
            rcases h' with ⟨-, rfl⟩ | ⟨rfl, hrefusal⟩
            · exact .right _ (.inl rfl)
            · cases hrefusal.symm.trans h.2
        | done v' s' j' => exact .done (hdone v s j v' s' j' h.1 h'.1 fun h => absurd h ht)
        | raised error' s' j' => cases (h'.2 hg').symm.trans h.2
    | raised error s j =>
        cases o' with
        | aborted fault' =>
            rcases h' with ⟨-, rfl⟩ | ⟨rfl, hrefusal⟩
            · exact .right _ (.inl rfl)
            · cases hrefusal.symm.trans (h.2 hg)
        | done v' s' j' => cases (h.2 hg).symm.trans h'.2
        | raised error' s' j' =>
            obtain rfl := h.1
            obtain rfl := h'.1
            cases (h.2 hg).symm.trans (h'.2 hg')
            exact .raised error (hraised j j' fun h => absurd h ht)

end Agree

/-! ### Related states and values -/

/-- Two outcomes with states that `S` relates and values that `V` relates. -/
def Match (S : σ → Journal → τ → Journal → Prop) (V : α → β → Prop) :
    Outcome σ α → Outcome τ β → Prop :=
  Agree (fun v s j v' s' j' => S s j s' j' ∧ V v v') S

namespace Match

variable {S : σ → Journal → τ → Journal → Prop} {V : α → β → Prop} {V' : α' → β' → Prop}
  {next : α → Action σ α'} {next' : β → Action τ β'} {s : σ} {s' : τ} {j j' : Journal}

lemma done {v : α} {v' : β} (hs : S s j s' j') (hv : V v v') :
    Match S V (.done v s j) (.done v' s' j') :=
  Agree.done ⟨hs, hv⟩

/-- A computation that only reads, and then an action on what it gives. -/
lemma lift_bind {r : Result α} {r' : Result β} (hr : Result.Rel V r r') (hs : S s j s' j')
    (hnext : ∀ v v', V v v' → Match S V' (next v s j) (next' v' s' j')) :
    Match S V' (((liftM r : Action σ α) >>= next) s j)
      (((liftM r' : Action τ β) >>= next') s' j') := by
  cases hr with
  | ok value => exact hnext _ _ value
  | error failure live =>
      cases failure with
      | error error => exact .raised error hs
      | fault fault => exact .aborted fun heq => live (by rw [heq])

end Match

/-! ### Worlds that grow -/

/-- Two outcomes with states that `S` relates and values that `V` relates, in a
world that is no smaller than `w`. -/
def Sim (S : World → σ → Journal → τ → Journal → Prop) (w : World) (V : World → α → β → Prop) :
    Outcome σ α → Outcome τ β → Prop :=
  Agree (fun v s j v' s' j' => ∃ w', w ≤ w' ∧ S w' s j s' j' ∧ V w' v v')
    fun s j s' j' => ∃ w', w ≤ w' ∧ S w' s j s' j'

namespace Sim

variable {S : World → σ → Journal → τ → Journal → Prop} {w w' : World}
  {V : World → α → β → Prop} {V' : World → α' → β' → Prop} {first : Action σ α}
  {first' : Action τ β} {next : α → Action σ α'} {next' : β → Action τ β'} {s : σ} {s' : τ}
  {j j' : Journal}

lemma weaken {o : Outcome σ α} {o' : Outcome τ β} (h : Sim S w' V o o') (hle : w ≤ w') :
    Sim S w V o o' :=
  Agree.imp h (fun _ _ _ _ _ _ ⟨w'', hle', hrest⟩ => ⟨w'', World.le_trans hle hle', hrest⟩)
    fun _ _ _ _ ⟨w'', hle', hrest⟩ => ⟨w'', World.le_trans hle hle', hrest⟩

/-- A sequence whose second action needs more of the states than it leaves. -/
lemma bind_to {T : World → σ → Journal → τ → Journal → Prop} (h : Sim S w V (first s j) (first' s' j'))
    (hS : ∀ {w s j s' j'}, S w s j s' j' → T w s j s' j')
    (hnext : ∀ w' v s j v' s' j', w ≤ w' → S w' s j s' j' → V w' v v' →
      Sim T w' V' (next v s j) (next' v' s' j')) :
    Sim T w V' ((first >>= next) s j) ((first' >>= next') s' j') := by
  have h : Agree _ (fun s j s' j' => ∃ w', w ≤ w' ∧ T w' s j s' j') (first s j) (first' s' j') :=
    Agree.imp h (fun _ _ _ _ _ _ hdone => hdone) fun _ _ _ _ ⟨w', hle, hs⟩ => ⟨w', hle, hS hs⟩
  refine Agree.bind h ?_
  rintro v s j v' s' j' ⟨w', hle, hs, hv⟩
  exact (hnext w' v s j v' s' j' hle hs hv).weaken hle

lemma bind (h : Sim S w V (first s j) (first' s' j'))
    (hnext : ∀ w' v s j v' s' j', w ≤ w' → S w' s j s' j' → V w' v v' →
      Sim S w' V' (next v s j) (next' v' s' j')) :
    Sim S w V' ((first >>= next) s j) ((first' >>= next') s' j') :=
  h.bind_to id hnext

lemma of_match {o : Outcome σ α} {o' : Outcome τ β} (h : Match (S w) (V w) o o') :
    Sim S w V o o' :=
  Agree.imp h (fun _ _ _ _ _ _ hdone => ⟨w, w.le_refl, hdone⟩) fun _ _ _ _ hs => ⟨w, w.le_refl, hs⟩

lemma done {v : α} {v' : β} (hs : S w s j s' j') (hv : V w v v') :
    Sim S w V (.done v s j) (.done v' s' j') :=
  Agree.done ⟨w, w.le_refl, hs, hv⟩

lemma pure {v : α} {v' : β} (hs : S w s j s' j') (hv : V w v v') :
    Sim S w V ((Pure.pure v : Action σ α) s j) ((Pure.pure v' : Action τ β) s' j') :=
  done hs hv

lemma raise (error : Error) (hs : S w s j s' j') :
    Sim S w V ((Action.raise error : Action σ α) s j) ((Action.raise error : Action τ β) s' j') :=
  .raised error ⟨w, w.le_refl, hs⟩

lemma abort {fault : Fault} (h : fault ≠ .staleReference) :
    Sim S w V ((Action.abort fault : Action σ α) s j) ((Action.abort fault : Action τ β) s' j') :=
  .aborted h

lemma lift {r : Result α} {r' : Result β} (hr : Result.Rel (V w) r r') (hs : S w s j s' j') :
    Sim S w V ((liftM r : Action σ α) s j) ((liftM r' : Action τ β) s' j') :=
  Agree.lift hr (fun _ _ hv => ⟨w, w.le_refl, hs, hv⟩) ⟨w, w.le_refl, hs⟩

/-- A computation that only reads, and then an action on what it gives. -/
lemma lift_bind {r : Result α} {r' : Result β} {U : α → β → Prop} (hr : Result.Rel U r r')
    (hs : S w s j s' j')
    (hnext : ∀ v v', U v v' → Sim S w V' (next v s j) (next' v' s' j')) :
    Sim S w V' (((liftM r : Action σ α) >>= next) s j)
      (((liftM r' : Action τ β) >>= next') s' j') := by
  cases hr with
  | ok value => exact hnext _ _ value
  | error failure live =>
      cases failure with
      | error error => exact .raised error ⟨w, w.le_refl, hs⟩
      | fault fault => exact .aborted fun heq => live (by rw [heq])

end Sim

/-! ### Actions -/

/-- Two actions with outcomes that stand for each other, whenever the states
before them do, in the world `w` or a larger one. -/
def Alike (S : World → σ → Journal → τ → Journal → Prop) (w : World) (V : World → α → β → Prop)
    (first : Action σ α) (first' : Action τ β) : Prop :=
  ∀ w₁, w ≤ w₁ → ∀ s j s' j', S w₁ s j s' j' → Sim S w₁ V (first s j) (first' s' j')

namespace Alike

variable {S : World → σ → Journal → τ → Journal → Prop} {w w' : World}
  {V : World → α → β → Prop} {V' : World → α' → β' → Prop} {first : Action σ α}
  {first' : Action τ β} {next : α → Action σ α'} {next' : β → Action τ β'}

lemma bind (h : Alike S w V first first')
    (hnext : ∀ w₁ v v', w ≤ w₁ → V w₁ v v' → Alike S w₁ V' (next v) (next' v')) :
    Alike S w V' (first >>= next) (first' >>= next') := by
  intro w₁ hle s j s' j' hs
  refine (h w₁ hle s j s' j' hs).bind fun w₂ v s j v' s' j' hle' hs hv => ?_
  exact hnext w₂ v v' (World.le_trans hle hle') hv w₂ w₂.le_refl s j s' j' hs

lemma get_bind {next : σ → Action σ α'} {next' : τ → Action τ β'}
    (hnext : ∀ w₁ s j s' j', w ≤ w₁ → S w₁ s j s' j' → Alike S w₁ V' (next s) (next' s')) :
    Alike S w V' (get >>= next) (get >>= next') :=
  fun w₁ hle s j s' j' hs => hnext w₁ s j s' j' hle hs w₁ w₁.le_refl s j s' j' hs

lemma lift_bind {r : Result α} {r' : Result β} {U : α → β → Prop} (hr : Result.Rel U r r')
    (hnext : ∀ v v', U v v' → Alike S w V' (next v) (next' v')) :
    Alike S w V' ((liftM r : Action σ α) >>= next) ((liftM r' : Action τ β) >>= next') :=
  fun w₁ hle s j s' j' hs => Sim.lift_bind hr hs fun v v' hv => hnext v v' hv w₁ hle s j s' j' hs

lemma pure {v : α} {v' : β} (hv : ∀ w₁, w ≤ w₁ → V w₁ v v') :
    Alike S w V (Pure.pure v) (Pure.pure v') :=
  fun w₁ hle _ _ _ _ hs => Sim.pure hs (hv w₁ hle)

lemma raise (error : Error) : Alike S w V (Action.raise error) (Action.raise error) :=
  fun _ _ _ _ _ _ hs => Sim.raise error hs

lemma abort (fault : Fault) (h : fault ≠ .staleReference) :
    Alike S w V (Action.abort fault) (Action.abort fault) :=
  fun _ _ _ _ _ _ _ => Sim.abort h

lemma lift {r : Result α} {r' : Result β} (hr : Result.Rel (V w) r r')
    (hV : ∀ w₁ v v', w ≤ w₁ → V w v v' → V w₁ v v') : Alike S w V (liftM r) (liftM r') :=
  fun w₁ hle _ _ _ _ hs => Sim.lift (hr.imp fun v v' => hV w₁ v v' hle) hs

/-- A computation that never succeeds. -/
lemma lift_failing {r : Result α} {r' : Result β} (hr : Result.Rel (fun _ _ => False) r r') :
    Alike S w V (liftM r) (liftM r') :=
  fun _ _ _ _ _ _ hs => Sim.lift (hr.imp fun _ _ => False.elim) hs

lemma ite {p p' : Prop} [Decidable p] [Decidable p'] {other : Action σ α} {other' : Action τ β}
    (hp : p ↔ p') (h : Alike S w V first first') (h' : Alike S w V other other') :
    Alike S w V (if p then first else other) (if p' then first' else other') := by
  by_cases hcase : p
  · rwa [if_pos hcase, if_pos (hp.mp hcase)]
  · rwa [if_neg hcase, if_neg (mt hp.mpr hcase)]

/-- Actions that leave the world as it is. -/
lemma of_match (h : ∀ w₁ s j s' j', w ≤ w₁ → S w₁ s j s' j' →
    Match (S w₁) (V w₁) (first s j) (first' s' j')) : Alike S w V first first' :=
  fun w₁ hle s j s' j' hs => .of_match (h w₁ s j s' j' hle hs)

end Alike

end ScriptMachine
