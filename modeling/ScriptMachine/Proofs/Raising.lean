import ScriptMachine.Container
import ScriptMachine.Proofs.Heap.Contents

/-!
Errors, and what is left when they are raised.

An action may run out of memory wherever it asks for some. Any other error stands
for something a script did wrong, and it is found out before anything is changed.

* `Result.Calm`: a computation that raises no error;
* `Action.FailsWithin`: what an error leaves, if it is not for want of memory;
* `Action.Starved`: an action that raises errors only for want of memory;
* `Action.Keeps`: what is left in any case, and what more unless memory was wanting;
* `Container.fails_setIndex` and its neighbours: a container stays as it is if an
  operation on it raises an error.
-/

namespace ScriptMachine

/-! ### Computations that only read -/

namespace Result

variable {α β : Type}

/-- The computation raises no error. -/
def Calm (result : Result α) : Prop := ∀ error, result ≠ .error (.error error)

lemma calm_ok (value : α) : Calm (.ok value : Result α) := nofun

lemma calm_abort (fault : Fault) : Calm (Result.abort fault : Result α) := nofun

lemma Calm.bind {result : Result α} {next : α → Result β} (h : Calm result)
    (hnext : ∀ value, Calm (next value)) : Calm (result >>= next) := by
  cases result with
  | ok value => exact hnext value
  | error failure =>
      cases failure with
      | error error => exact absurd rfl (h error)
      | fault fault => exact calm_abort fault

end Result

/-! ### Actions -/

namespace Action

open Result (Calm)

variable {σ τ α β : Type} {R : σ → σ → Prop}

/-- Whatever error the action raises, unless it is for want of memory, `R` relates
the state before to the one that is left. -/
def FailsWithin (R : σ → σ → Prop) (action : Action σ α) : Prop :=
  ∀ state journal, (action state journal).Ends (fun _ _ => True)
    (fun error state' => error.kind ≠ .memory → R state state') fun _ => True

/-- The action raises errors only for want of memory. -/
def Starved (action : Action σ α) : Prop := action.FailsWithin fun _ _ => False

lemma FailsWithin.imp {R' : σ → σ → Prop} {action : Action σ α} (h : action.FailsWithin R)
    (himp : ∀ state state', R state state' → R' state state') : action.FailsWithin R' :=
  fun state journal => (h state journal).imp (fun _ _ => id)
    (fun _ state' hraised hkind => himp state state' (hraised hkind)) fun _ => id

lemma Starved.fails {action : Action σ α} (h : action.Starved) : action.FailsWithin R :=
  FailsWithin.imp h fun _ _ => False.elim

lemma Within.fails {action : Action σ α} (h : action.Within R) : action.FailsWithin R :=
  fun state journal => (h state journal).imp (fun _ _ _ => trivial) (fun _ _ h _ => h) fun _ => id

/-- What comes last raises no error but for want of memory. -/
lemma FailsWithin.bind {first : Action σ α} {next : α → Action σ β} (h : first.FailsWithin R)
    (hnext : ∀ value, (next value).Starved) : (first >>= next).FailsWithin R :=
  fun state journal => (h state journal).bind fun value state' journal' _ =>
    (hnext value state' journal').imp (fun _ _ => id) (fun _ _ hraised hkind => (hraised hkind).elim)
      fun _ => id

/-- What comes first changes nothing that matters. -/
lemma Within.bind_fails [IsTrans σ R] {first : Action σ α} {next : α → Action σ β}
    (h : first.Within R) (hnext : ∀ value, (next value).FailsWithin R) :
    (first >>= next).FailsWithin R := by
  intro state journal
  refine Outcome.Ends.bind ((h state journal).imp (fun _ _ h => h) (fun _ _ h _ => h) fun _ => id)
    fun value state' journal' hfirst => ?_
  exact (hnext value state' journal').imp (fun _ _ => id)
    (fun _ _ hraised hkind => trans_of R hfirst (hraised hkind)) fun _ => id

lemma FailsWithin.ite {p : Prop} [Decidable p] {yes no : Action σ α} (hyes : yes.FailsWithin R)
    (hno : no.FailsWithin R) : (if p then yes else no).FailsWithin R := by
  split
  · exact hyes
  · exact hno

/-- An action on a part of the state. -/
lemma FailsWithin.on {S : τ → τ → Prop} {split : σ → τ × (τ → σ)} {action : Action τ α}
    (h : action.FailsWithin S)
    (hpart : ∀ state part, S (split state).1 part → R state ((split state).2 part)) :
    (Action.on split action).FailsWithin R := by
  intro state journal
  have hends := h (split state).1 journal
  unfold Action.on
  dsimp only
  cases hrun : action (split state).1 journal with
  | done value part journal' => trivial
  | raised error part journal' => exact fun hkind => hpart state part (hends.of_raised hrun hkind)
  | aborted fault => trivial

lemma Starved.on {split : σ → τ × (τ → σ)} {action : Action τ α} (h : action.Starved) :
    (Action.on split action).Starved := FailsWithin.on h fun _ _ => False.elim

lemma starved_pure (value : α) : (pure value : Action σ α).Starved := fun _ _ => trivial

lemma starved_abort (fault : Fault) : (abort fault : Action σ α).Starved := fun _ _ => trivial

lemma starved_get : (get : Action σ σ).Starved := fun _ _ => trivial

lemma starved_modify (f : σ → σ) : (modify f : Action σ PUnit).Starved := fun _ _ => trivial

lemma starved_modifyGet (f : σ → α × σ) : (modifyGet f : Action σ α).Starved := fun _ _ => trivial

lemma starved_note (event : Event) : (note event : Action σ Unit).Starved := fun _ _ => trivial

lemma starved_outOfMemory (size : Nat) : (raise (.outOfMemory size) : Action σ α).Starved :=
  fun _ _ hkind => hkind rfl

lemma starved_lift {result : Result α} (h : Calm result) :
    (liftM result : Action σ α).Starved := by
  cases result with
  | ok value => exact starved_pure value
  | error failure =>
      cases failure with
      | error error => exact absurd rfl (h error)
      | fault fault => exact starved_abort fault

/-- A computation that raises no error, before an action. -/
lemma ends_lift_bind {result : Result α} (h : Calm result) {next : α → Action σ β}
    {done : β → σ → Prop} {raised : Error → σ → Prop} {state : σ} {journal : Journal}
    (hnext : ∀ value, result = .ok value →
      (next value state journal).Ends done raised fun _ => True) :
    ((liftM result >>= next) state journal).Ends done raised fun _ => True := by
  cases result with
  | ok value => exact hnext value rfl
  | error failure =>
      cases failure with
      | error error => exact absurd rfl (h error)
      | fault fault => trivial

/-- A computation before an action; if it raises an error, nothing has changed. -/
lemma ends_lift_bind_of {result : Result α} {next : α → Action σ β} {done : β → σ → Prop}
    {raised : Error → σ → Prop} {state : σ} {journal : Journal}
    (hraised : ∀ error, raised error state)
    (hnext : ∀ value, result = .ok value →
      (next value state journal).Ends done raised fun _ => True) :
    ((liftM result >>= next) state journal).Ends done raised fun _ => True := by
  cases result with
  | ok value => exact hnext value rfl
  | error failure =>
      cases failure with
      | error error => exact hraised error
      | fault fault => trivial

end Action

/-! ### Want of memory -/

/-- Relations between states, one that is strict and others that may be less so. -/
class Lenient {σ : Type} (R : Prop → σ → σ → Prop) : Prop where
  refl : ∀ strict state, R strict state state
  trans : ∀ {strict} {state state' state'' : σ}, R strict state state' →
    R strict state' state'' → R strict state state''
  relax : ∀ {strict} {state state' : σ}, R True state state' → R strict state state'

/-- `R` relates a state to the one that is left, strictly so unless an error was
raised for want of memory. -/
def Outcome.Kept {σ α : Type} (R : Prop → σ → σ → Prop) (state : σ) (outcome : Outcome σ α) : Prop :=
  outcome.Ends (fun _ state' => R True state state')
    (fun error state' => R (error.kind ≠ .memory) state state') fun _ => True

lemma Outcome.Kept.of_state? {σ α : Type} {R : Prop → σ → σ → Prop} {state state' : σ}
    {outcome : Outcome σ α} (hkept : outcome.Kept R state) (h : outcome.state? = some state') :
    ∃ strict, R strict state state' := by
  cases outcome with
  | done value left journal => exact ⟨_, Option.some.inj h ▸ hkept⟩
  | raised error left journal => exact ⟨_, Option.some.inj h ▸ hkept⟩
  | aborted fault => cases h

namespace Action

open Result (Calm)

variable {σ α β : Type} {R : Prop → σ → σ → Prop}

/-- Whatever state the action leaves, `R` relates the one before to it, strictly so
unless an error was raised for want of memory. -/
def Keeps (R : Prop → σ → σ → Prop) (action : Action σ α) : Prop :=
  ∀ state journal, (action state journal).Kept R state

lemma Within.keeps {Q : σ → σ → Prop} {action : Action σ α} (h : action.Within Q)
    (himp : ∀ strict state state', Q state state' → R strict state state') : action.Keeps R :=
  fun state journal => (h state journal).imp (fun _ => himp _ state) (fun _ => himp _ state)
    fun _ => id

lemma keeps_abort (fault : Fault) : (abort fault : Action σ α).Keeps R := fun _ _ => trivial

lemma keeps_modify {f : σ → σ} (h : ∀ state, R True state (f state)) :
    (modify f : Action σ Unit).Keeps R := fun state _ => h state

lemma Keeps.ite {p : Prop} [Decidable p] {yes no : Action σ α} (hyes : yes.Keeps R)
    (hno : no.Keeps R) : (if p then yes else no).Keeps R := by
  split
  · exact hyes
  · exact hno

variable [Lenient R]

lemma keeps_pure (value : α) : (pure value : Action σ α).Keeps R :=
  fun state _ => Lenient.refl _ state

lemma keeps_raise (error : Error) : (raise error : Action σ α).Keeps R :=
  fun state _ => Lenient.refl _ state

lemma keeps_get : (get : Action σ σ).Keeps R := fun state _ => Lenient.refl _ state

lemma keeps_lift (result : Result α) : (liftM result : Action σ α).Keeps R := by
  cases result with
  | ok value => exact keeps_pure value
  | error failure =>
      cases failure with
      | error error => exact keeps_raise error
      | fault fault => exact keeps_abort fault

/-- What follows a first step is looked at in the state that the step leaves. -/
lemma kept_bind {first : Action σ α} {next : α → Action σ β} {origin state : σ} {journal : Journal}
    (h : (first state journal).Kept R origin)
    (hnext : ∀ value state' journal', first state journal = .done value state' journal' →
      (next value state' journal').Kept R state') :
    ((first >>= next) state journal).Kept R origin := by
  rw [bind_apply]
  cases hfirst : first state journal with
  | done value state' journal' =>
      rw [hfirst] at h
      exact Outcome.Ends.imp (hnext value state' journal' hfirst) (fun _ _ => Lenient.trans h)
        (fun _ _ => Lenient.trans (Lenient.relax h)) fun _ => id
  | raised error state' journal' => rwa [hfirst] at h
  | aborted fault => rwa [hfirst] at h

/-- A computation, and what follows it in the same state. -/
lemma kept_lift_bind {result : Result α} {next : α → Action σ β} {state : σ} {journal : Journal}
    (hnext : ∀ value, result = .ok value → (next value state journal).Kept R state) :
    ((liftM result >>= next) state journal).Kept R state :=
  ends_lift_bind_of (fun _ => Lenient.refl _ state) hnext

lemma Keeps.bind {first : Action σ α} {next : α → Action σ β} (h : first.Keeps R)
    (hnext : ∀ value, (next value).Keeps R) : (first >>= next).Keeps R :=
  fun state journal => kept_bind (h state journal) fun value state' journal' _ =>
    hnext value state' journal'

end Action

open ScriptMachine.Action
open Result (Calm calm_ok calm_abort)

/-! ### Tables -/

namespace Table

variable (t : Table)

lemma calm_node (index : Nat) : Calm (t.node index) := by
  rw [node]
  split
  · exact calm_ok _
  · exact calm_abort _
  · exact calm_abort _

lemma calm_head? (index : Nat) : Calm (t.head? index) := by
  rw [head?]
  split
  · exact calm_ok _
  · exact calm_abort _

lemma calm_entry (link : Link) : Calm (t.entry link) := by
  cases link with
  | slot index =>
      refine (t.calm_head? index).bind fun head => ?_
      cases head with
      | some entry => exact calm_ok entry
      | none => exact calm_abort _
  | node index => exact (t.calm_node index).bind fun _ => calm_ok _

lemma calm_findFrom (hash : UInt64) (fuel : Nat) (next : Option Nat) :
    Calm (t.findFrom hash fuel next) := by
  induction fuel generalizing next with
  | zero =>
      cases next with
      | none => exact calm_ok none
      | some index => exact calm_abort _
  | succ fuel ih =>
      cases next with
      | none => exact calm_ok none
      | some index =>
          refine (t.calm_node index).bind fun node => ?_
          split
          · exact calm_ok _
          · exact ih node.entry.next

lemma calm_find (hash : UInt64) : Calm (t.find hash) := by
  refine (t.calm_head? _).bind fun head => ?_
  cases head with
  | none => exact calm_ok none
  | some head =>
      dsimp only
      split
      · exact calm_ok _
      · exact t.calm_findFrom hash _ _

lemma calm_lastFrom (fuel : Nat) (tail : Link) (next : Option Nat) :
    Calm (t.lastFrom fuel tail next) := by
  induction fuel generalizing tail next with
  | zero =>
      cases next with
      | none => exact calm_ok tail
      | some index => exact calm_abort _
  | succ fuel ih =>
      cases next with
      | none => exact calm_ok tail
      | some index => exact (t.calm_node index).bind fun node => ih _ _

lemma calm_acquire (node : Node) : Calm (t.acquire node) := by
  rw [acquire]
  split
  · split
    · exact calm_ok _
    · exact calm_abort _
  · exact calm_ok _

lemma calm_place (key : Key) (value : Value) : Calm (t.place key value) := by
  refine (t.calm_head? _).bind fun head => ?_
  cases head with
  | none => exact calm_ok _
  | some head =>
      refine (t.calm_lastFrom _ _ _).bind fun tail => (t.calm_acquire _).bind fun _ => calm_ok _

lemma calm_placeAll (entries : List (Key × Value)) : Calm (placeAll entries t) := by
  induction entries generalizing t with
  | nil => exact calm_ok t
  | cons entry entries ih => exact (t.calm_place entry.1 entry.2).bind fun t => ih t

lemma calm_rehash (slots : Nat) : Calm (t.rehash slots) := by
  have hcapacity : Calm (withCapacity slots) := by
    rw [withCapacity]
    split
    · exact calm_ok _
    · exact calm_abort _
  exact hcapacity.bind fun empty => (calm_placeAll empty t.entries).bind fun grown => calm_ok _

/-- Inserting never raises an error. -/
lemma insert_ends (key : Key) (value : Value) (journal : Journal) :
    (insert key value t journal).Ends (fun _ _ => True) (fun _ _ => False) fun _ => True := by
  rw [insert, get_bind]
  refine ends_lift_bind (t.calm_find key.hash) fun link _ => ?_
  cases link with
  | some link => exact ends_lift_bind (t.calm_entry link) fun _ _ => trivial
  | none =>
      have hplace : ∀ (t' : Table) (journal : Journal), ((do
          let t ← t'.place key value
          set { t with count := t.count + 1 }
          return none : Action Table (Option Value)) t journal).Ends (fun _ _ => True)
            (fun _ _ => False) fun _ => True := fun t' _ =>
        ends_lift_bind (t'.calm_place key value) fun _ _ => trivial
      dsimp only
      split
      · rw [note_bind]
        exact ends_lift_bind (t.calm_rehash _) fun t' _ => hplace t' _
      · exact hplace t journal

lemma starved_insert (key : Key) (value : Value) : (insert key value).Starved := fun t journal =>
  (t.insert_ends key value journal).unraised

lemma calm_relink (next : Option Nat) (prev : Link) : Calm (t.relink next prev) := by
  cases next with
  | none => exact calm_ok t
  | some index => exact (t.calm_node index).bind fun _ => calm_ok _

lemma calm_release (index : Nat) : Calm (t.release index) :=
  (t.calm_node index).bind fun _ => calm_ok _

lemma calm_setNext (link : Link) (next : Option Nat) : Calm (t.setNext link next) := by
  cases link with
  | slot index => exact (t.calm_head? index).bind fun _ => calm_ok _
  | node index => exact (t.calm_node index).bind fun _ => calm_ok _

lemma calm_unlink (entry : Entry) (link : Link) : Calm (t.unlink entry link) := by
  cases link with
  | slot index =>
      rw [unlink]
      cases entry.next with
      | none => exact calm_ok _
      | some next =>
          exact (t.calm_release next).bind fun node => (calm_relink _ _ _).bind fun _ => calm_ok _
  | node index =>
      refine (t.calm_release index).bind fun released => ?_
      exact (calm_setNext _ _ _).bind fun _ => calm_relink _ _ _

/-- Removing never raises an error, and it changes nothing if there is nothing to
remove. -/
lemma remove_ends (hash : UInt64) (journal : Journal) :
    (remove hash t journal).Ends (fun value t' => value = none → t' = t) (fun _ _ => False)
      fun _ => True := by
  rw [remove, get_bind]
  refine ends_lift_bind (t.calm_find hash) fun link _ => ?_
  cases link with
  | none => exact fun _ => rfl
  | some link =>
      exact ends_lift_bind (t.calm_entry link) fun entry _ =>
        ends_lift_bind (t.calm_unlink entry link) fun t' _ => nofun

lemma starved_remove (hash : UInt64) : (remove hash).Starved := fun t journal =>
  (t.remove_ends hash journal).imp (fun _ _ _ => trivial) (fun _ _ => False.elim) fun _ => id

end Table

/-! ### Memory -/

namespace Memory.Allocator

lemma starved_mapPage (size : Nat) : (mapPage size).Starved := by
  refine FailsWithin.ite ((starved_abort _).bind fun _ => starved_get.bind fun a => ?_)
    (starved_get.bind fun a => ?_)
  all_goals
    split
    · exact starved_outOfMemory _
    · refine FailsWithin.ite ((starved_outOfMemory _).bind fun _ => ?_) ?_
      all_goals exact (starved_note _).bind fun _ => starved_modify _

lemma starved_reserve (size : Nat) : (reserve size).Starved := by
  refine (starved_modifyGet _).bind fun found => ?_
  cases found with
  | some block => exact starved_pure block
  | none =>
      refine (starved_mapPage size).bind fun _ => (starved_modifyGet _).bind fun found => ?_
      cases found with
      | some block => exact starved_pure block
      | none => exact starved_outOfMemory size

lemma starved_allocate (size : Nat) : (allocate size).Starved := by
  rw [allocate]
  split
  · exact starved_outOfMemory size
  · exact (starved_reserve _).bind fun block => (starved_modify _).bind fun _ =>
      (starved_note _).bind fun _ => starved_pure block

lemma starved_free (block : Block) : (free block).Starved := by
  refine starved_get.bind fun a => ?_
  refine FailsWithin.ite ((starved_abort _).bind fun _ => ?_) ?_
  all_goals
    refine FailsWithin.ite ((starved_abort _).bind fun _ => ?_) ?_
    all_goals
      refine (starved_note _).bind fun _ => ?_
      refine FailsWithin.ite ((starved_abort _).bind fun _ => ?_) ?_
      all_goals exact starved_modify _

lemma starved_grow (block : Block) (size : Nat) : (grow block size).Starved := by
  rw [grow]
  split
  · exact starved_outOfMemory size
  · refine FailsWithin.ite (starved_pure block) (starved_get.bind fun a => ?_)
    split
    · exact (starved_modify _).bind fun _ => starved_pure _
    · exact (starved_allocate _).bind fun grown => (starved_modify _).bind fun _ =>
        (starved_free block).bind fun _ => starved_pure grown

end Memory.Allocator

/-! ### The heap -/

namespace Heap

variable {k : Kind}

lemma calm_read (h : Heap) (ref : Ref k) : Calm (h.read ref) := by
  rw [read]
  split
  · exact calm_ok _
  · exact calm_abort _

lemma calm_text (h : Heap) (ref : Ref .string) : Calm (h.text ref) := by
  have hbytes : Calm (h.textBytes ref) := (h.calm_read ref).bind fun _ => calm_ok _
  refine hbytes.bind fun bytes => ?_
  split
  · exact calm_ok _
  · exact calm_abort _

lemma starved_insert (object : Object) (pinned : Bool) : (insert object pinned).Starved := by
  refine FailsWithin.ite ((starved_abort _).bind fun _ => ?_) ?_
  all_goals
    refine Starved.on (Memory.Allocator.starved_allocate _) |>.bind fun block =>
      (starved_note _).bind fun _ => starved_get.bind fun h => ?_
    refine FailsWithin.ite ((starved_abort _).bind fun _ => ?_) ?_
    all_goals exact starved_modifyGet _

lemma starved_alloc (content : k.Content) : (alloc k content).Starved :=
  (starved_insert _ _).bind fun _ => starved_pure _

lemma starved_insertText (text : String) (pinned : Bool) : (insertText text pinned).Starved :=
  (starved_insert _ _).bind fun _ => (starved_modify _).bind fun _ => starved_pure _

lemma starved_resize (id : ObjectId) : (resize id).Starved := by
  refine starved_get.bind fun h => ?_
  split
  · exact starved_pure ()
  · refine FailsWithin.ite ((starved_abort _).bind fun _ => ?_) ?_
    all_goals
      refine FailsWithin.ite ?_ (starved_pure ())
      exact (Starved.on (Memory.Allocator.starved_grow _ _)).bind fun block => starved_modify _

lemma starved_onContent {α : Type} (ref : Ref k) {action : Action k.Content α} (h : action.Starved) :
    (onContent ref action).Starved := by
  intro heap journal
  cases hget : heap.get? ref with
  | none =>
      rw [onContent, take?, hget]
      trivial
  | some content =>
      rw [onContent_apply hget]
      have hends := h content journal
      cases hrun : action content journal with
      | done value content' journal' => trivial
      | raised error content' journal' => exact hends.of_raised hrun
      | aborted fault => trivial

lemma starved_writeElement (ref : Ref .array) (kind : ArrayKind) (index : Nat) (scalar : Scalar) :
    (writeElement ref kind index scalar).Starved := by
  have hword : ∀ width n, Calm (kind.encodeWord width n) := by
    intro width n
    rw [ArrayKind.encodeWord]
    split
    · exact calm_ok _
    · exact calm_abort _
  have hencode : Calm (kind.encode scalar) := by
    cases scalar with
    | bool | byte => exact calm_ok _
    | int | long | double | str | null => exact hword _ _
    | _ => exact calm_abort _
  exact (starved_lift hencode).bind fun _ => starved_modify _

lemma starved_writeZeros (ref : Ref .array) (kind : ArrayKind) (count index : Nat) :
    (writeZeros ref kind count index).Starved := by
  induction count generalizing index with
  | zero => exact starved_pure ()
  | succ count ih => exact (starved_writeElement ref kind index _).bind fun _ => ih (index + 1)

lemma starved_arraySet (ref : Ref .array) (index : Nat) (scalar : Scalar) :
    (arraySet ref index scalar).Starved := by
  refine starved_get.bind fun h => (starved_lift (h.calm_read ref)).bind fun array => ?_
  refine FailsWithin.ite (starved_pure false) ?_
  exact (starved_writeZeros ref _ _ _).bind fun _ => (starved_writeElement ref _ _ _).bind fun _ =>
    (starved_modify _).bind fun _ => starved_pure true

lemma starved_arrayPush (ref : Ref .array) (scalar : Scalar) : (arrayPush ref scalar).Starved := by
  have hrepair : ∀ array : ArrayRecord, ((resize ref.id).repairing (·.put ref array)).Starved := by
    intro array h journal
    have hends := starved_resize ref.id h journal
    rw [repairing]
    cases hrun : resize ref.id h journal with
    | done value h' journal' => trivial
    | raised error h' journal' => exact hends.of_raised hrun
    | aborted fault => trivial
  have hset : ∀ index, (do let _ ← arraySet ref index scalar : Action Heap Unit).Starved := fun index =>
    (starved_arraySet ref index scalar).bind fun _ => starved_pure ()
  refine starved_get.bind fun h => (starved_lift (h.calm_read ref)).bind fun array => ?_
  refine FailsWithin.ite ?_ (hset _)
  exact (starved_modify _).bind fun _ => (hrepair array).bind fun _ => hset _

lemma starved_copyArray (ref : Ref .array) : (copyArray ref).Starved :=
  starved_get.bind fun h => (starved_lift (h.calm_read ref)).bind fun array =>
    (starved_alloc array).bind fun copy => starved_get.bind fun _ => (starved_modify _).bind fun _ =>
      starved_pure copy

lemma starved_setChar (ref : Ref .string) (index : Nat) (byte : UInt8) :
    (setChar ref index byte).Starved := by
  refine FailsWithin.ite ((starved_abort _).bind fun _ => ?_) ?_
  all_goals
    refine starved_get.bind fun h => (starved_lift (h.calm_read ref)).bind fun record => ?_
    refine FailsWithin.ite (starved_pure false) ?_
    exact (starved_modify _).bind fun _ => starved_get.bind fun _ => (starved_modify _).bind fun _ =>
      starved_pure true

lemma starved_sweepSlot (index : Nat) (sweep : Sweep) : (sweepSlot index sweep).Starved := by
  refine starved_get.bind fun h => ?_
  split
  · refine FailsWithin.ite ((starved_modify _).bind fun _ => starved_pure _) ?_
    exact (starved_note _).bind fun _ => Starved.on (Memory.Allocator.starved_free _) |>.bind fun _ =>
      (starved_modify _).bind fun _ => starved_pure _
  · exact starved_pure _

lemma starved_sweepFrom (count index : Nat) (sweep : Sweep) : (sweepFrom count index sweep).Starved := by
  induction count generalizing index sweep with
  | zero => exact starved_pure sweep
  | succ count ih => exact (starved_sweepSlot index sweep).bind fun sweep => ih (index + 1) sweep

lemma starved_collect (roots : List ObjectId) : (collect roots).Starved := by
  refine (starved_modify _).bind fun _ => starved_get.bind fun h => ?_
  refine FailsWithin.ite ((starved_abort _).bind fun _ => ?_) ?_
  all_goals exact starved_sweepFrom _ _ _

end Heap

/-! ### Containers -/

namespace Container

lemma starved_reserve (container : Value) : (reserve container).Starved := by
  rw [reserve]
  split
  · exact Heap.starved_resize _
  · exact starved_pure ()

lemma fails_setText (container index value : Value) (ref : Ref .string) :
    (setText container index value ref).FailsWithin Eq := by
  refine within_get.bind_fails fun h => ?_
  split
  · refine (within_lift _).bind_fails fun record => (within_lift _).bind_fails fun i =>
      (within_lift _).bind_fails fun old => ?_
    have hstore : ∀ byte : UInt8, (do
        let byte ← (ascii i byte : Result UInt8)
        let _ ← Heap.setChar ref i byte : Action Heap Unit).FailsWithin Eq := fun byte =>
      (within_lift _).bind_fails fun byte =>
        (Heap.starved_setChar ref i byte).fails.bind fun _ => starved_pure ()
    split
    · exact (within_lift _).bind_fails fun _ => hstore _
    · exact hstore _
  · exact (within_lift _).fails

lemma fails_setIndex (container index value : Value) :
    (setIndex container index value).FailsWithin Eq := by
  refine within_get.bind_fails fun h => ?_
  split
  case h_1 ref =>
    exact (within_lift _).bind_fails fun _ => (within_lift _).bind_fails fun _ =>
      (within_lift _).bind_fails fun _ => (Heap.starved_arraySet ref _ _).fails.bind fun _ =>
        starved_reserve _
  case h_2 ref =>
    exact (within_lift _).bind_fails fun _ => (within_lift _).bind_fails fun _ =>
      (within_lift _).bind_fails fun _ =>
        (Heap.starved_onContent ref (starved_modifyGet _)).fails.bind fun _ => starved_reserve _
  case h_3 ref =>
    exact (within_lift _).bind_fails fun _ => (within_lift _).bind_fails fun _ =>
      (Heap.starved_onContent ref (starved_modifyGet _)).fails.bind fun _ => starved_reserve _
  case h_4 ref =>
    exact (within_lift _).bind_fails fun _ =>
      (Heap.starved_onContent ref (Table.starved_insert _ _)).fails.bind fun _ => starved_reserve _
  case h_5 ref => exact (fails_setText _ _ _ ref).bind fun _ => starved_reserve _
  case h_6 => exact (within_lift _).fails.bind fun _ => starved_reserve _

lemma fails_push (container value : Value) : (push container value).FailsWithin Eq := by
  refine within_get.bind_fails fun h => ?_
  split
  case h_1 ref =>
    exact (within_lift _).bind_fails fun _ => (within_lift _).bind_fails fun _ =>
      (Heap.starved_arrayPush ref _).fails.bind fun _ => starved_reserve _
  case h_2 ref =>
    exact (within_lift _).bind_fails fun _ =>
      (Heap.starved_onContent ref (starved_modify _)).fails.bind fun _ => starved_reserve _
  case h_3 ref =>
    exact (Heap.starved_onContent ref (starved_modify _)).fails.bind fun _ => starved_reserve _
  case h_4 => exact (within_lift _).fails.bind fun _ => starved_reserve _

/-- If a change of an object gives nothing and leaves the content, then it leaves the
heap. -/
lemma onContent_ends {k : Kind} {α : Type} (ref : Ref k) {f : k.Content → Option α × k.Content}
    (hf : ∀ content, (f content).1 = none → (f content).2 = content) (h : Heap) (journal : Journal) :
    (Heap.onContent ref (modifyGet f) h journal).Ends (fun value h' => value = none → h = h')
      (fun _ h' => h = h') fun _ => True := by
  cases hget : h.get? ref with
  | none =>
      rw [Heap.onContent, Heap.take?, hget]
      trivial
  | some content =>
      rw [Heap.onContent_apply hget]
      intro hnone
      rw [hf content hnone, Heap.put_self hget]

lemma stack_pop_none {α : Type} (s : Stack α) (hnone : s.pop.1 = none) : s.pop.2 = s := by
  obtain ⟨items, capacity⟩ := s
  have hempty : items = #[] := Array.back?_eq_none_iff.mp hnone
  subst hempty
  rfl

lemma arrayPop_ends (ref : Ref .array) (h : Heap) (journal : Journal) :
    (Heap.arrayPop ref h journal).Ends (fun value h' => value = none → h = h') (fun _ h' => h = h')
      fun _ => True := by
  rw [Heap.arrayPop, get_bind]
  refine ends_lift_bind (h.calm_read ref) fun array harray => ?_
  by_cases hzero : array.length = 0
  · rw [if_pos hzero]
    exact fun _ => rfl
  · obtain ⟨last, hlast⟩ : ∃ last, h.arrayGet? ref (array.length - 1) = .ok (some last) := by
      rw [Heap.arrayGet?, harray]
      exact ⟨_, if_pos (Nat.sub_one_lt hzero)⟩
    rw [if_neg hzero, get_bind, hlast]
    exact nofun

/-- If there is nothing to take off a container, then nothing changes. -/
lemma popFrom_ends (container : Value) (h : Heap) (journal : Journal) :
    (popFrom container h journal).Ends (fun value h' => value = none → h = h')
      (fun _ h' => h = h') fun _ => True := by
  rw [popFrom, get_bind]
  split
  case h_1 ref =>
    exact (arrayPop_ends ref h journal).bind fun value h' _ hnone hmap =>
      hnone (Option.map_eq_none_iff.mp hmap)
  case h_2 ref =>
    exact (onContent_ends ref (fun content => stack_pop_none content) h journal).bind
      fun value h' _ hnone hmap => hnone (Option.map_eq_none_iff.mp hmap)
  case h_3 ref => exact onContent_ends ref (fun content => stack_pop_none content) h journal
  case h_4 =>
    have hlift : (liftM (unsupported h "pop" container : Result (Option Value)) :
        Action Heap (Option Value)).Within Eq := within_lift _
    exact (hlift h journal).imp (fun _ _ h _ => h) (fun _ _ h => h) fun _ => id

lemma fails_pop (container : Value) : (pop container).FailsWithin Eq := by
  intro h journal
  refine Outcome.Ends.bind ((popFrom_ends container h journal).imp (fun _ _ h => h)
    (fun _ _ h _ => h) fun _ => id) fun value h' journal' hnone => ?_
  cases value with
  | some value => trivial
  | none =>
      cases hnone rfl
      exact Within.fails (within_get.bind fun _ => (within_lift _).bind fun _ => within_raise _)
        h journal'

lemma fails_remove (container index : Value) : (remove container index).FailsWithin Eq := by
  refine within_get.bind_fails fun h => ?_
  split
  case h_1 ref =>
    exact (within_lift _).bind_fails fun key =>
      (Heap.starved_onContent ref (Table.starved_remove key.hash)).fails.bind fun _ => starved_pure _
  case h_2 => exact (within_lift _).fails

lemma fails_copy (value : Value) : (copy value).FailsWithin Eq := by
  refine within_get.bind_fails fun h => ?_
  split
  case h_1 ref =>
    exact (within_lift _).bind_fails fun text =>
      (Heap.starved_insertText text false).fails.bind fun _ => starved_pure _
  case h_2 ref => exact (Heap.starved_copyArray ref).fails.bind fun _ => starved_pure _
  case h_6 => exact (within_lift _).fails
  all_goals
    exact (within_lift _).bind_fails fun _ => (Heap.starved_alloc _).fails.bind fun _ => starved_pure _

end Container

end ScriptMachine
