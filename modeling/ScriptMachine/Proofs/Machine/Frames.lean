import ScriptMachine.Proofs.Machine.Closing

/-!
What instructions do to the slots of the stack and to the calls in progress.

An instruction works at the top of the stack, above the base of the running frame.
Only through a captured variable can it store into a slot below.

* `Trims`, `Tops`: slots are dropped, and the top one may have changed;
* `tops_execute`: most instructions do no more than that;
* `callValue_ends`: a call answers at once or enters a closure;
* `step_ways`: an instruction stays in its frame, enters another or returns.
-/

namespace ScriptMachine.Machine

open ScriptMachine.Action

variable {host : Host} {m m₁ m₂ m' : Machine}

/-! ### Slots that are kept -/

/-- The operand stack and the calls in progress are the same. -/
structure Still (m m' : Machine) : Prop where
  stack : m'.stack = m.stack
  frames : m'.frames = m.frames
  frame : m'.frame = m.frame

instance : IsPreorder Machine Still where
  refl _ := ⟨rfl, rfl, rfl⟩
  trans _ _ _ h h' := ⟨h'.stack.trans h.stack, h'.frames.trans h.frames, h'.frame.trans h.frame⟩

/-- The calls in progress are the same, up to the position in the code. -/
structure SameCalls (m m' : Machine) : Prop where
  frames : m'.frames = m.frames
  frame : m'.frame = { m.frame with ip := m'.frame.ip }

lemma SameCalls.refl (m : Machine) : SameCalls m m := ⟨rfl, rfl⟩

lemma SameCalls.trans (h : SameCalls m m₁) (h' : SameCalls m₁ m') : SameCalls m m' :=
  ⟨h'.frames.trans h.frames, by rw [h'.frame, h.frame]⟩

/-- All slots that are left are as they were. -/
structure Trims (m m' : Machine) : Prop extends SameCalls m m' where
  kept : ∀ i < m'.stack.length, m'.stack.get? i = m.stack.get? i

/-- All slots below the top one are as they were. -/
structure Tops (m m' : Machine) : Prop extends SameCalls m m' where
  kept : ∀ i, i + 1 < m'.stack.length → m'.stack.get? i = m.stack.get? i

/-- A slot that is left was there. -/
lemma Trims.lt_length (h : Trims m m') {i : Nat} (hi : i < m'.stack.length) : i < m.stack.length := by
  by_contra hge
  have hnone := (Stack.get?_eq_none_iff i).mpr (Nat.le_of_not_lt hge)
  have := (Stack.get?_eq_none_iff i).mp ((h.kept i hi).trans hnone)
  omega

instance : IsPreorder Machine Trims where
  refl m := ⟨.refl m, fun _ _ => rfl⟩
  trans _ _ _ h h' := ⟨h.toSameCalls.trans h'.toSameCalls, fun i hi =>
    (h'.kept i hi).trans (h.kept i (h'.lt_length hi))⟩

lemma Trims.tops (h : Trims m m') : Tops m m' := ⟨h.toSameCalls, fun i hi => h.kept i (by omega)⟩

lemma Trims.followed_by (h : Trims m m₁) (h' : Tops m₁ m') : Tops m m' := by
  refine ⟨h.toSameCalls.trans h'.toSameCalls, fun i hi => (h'.kept i hi).trans (h.kept i ?_)⟩
  by_contra hge
  have hnone := (Stack.get?_eq_none_iff i).mpr (Nat.le_of_not_lt hge)
  have := (Stack.get?_eq_none_iff i).mp ((h'.kept i hi).trans hnone)
  omega

/-- A relation that looks only at the operand stack and the calls in progress. -/
class Loose (R : Machine → Machine → Prop) : Prop extends IsPreorder Machine R where
  of_still : ∀ {m m' : Machine}, Still m m' → R m m'

instance : Loose Still := ⟨id⟩

instance : Loose Trims where
  of_still h := ⟨⟨h.frames, by rw [h.frame]⟩, fun i _ => by rw [h.stack]⟩

instance : Steers Trims := ⟨fun _ _ => ⟨⟨rfl, rfl⟩, fun _ _ => rfl⟩⟩

/-! ### Elementary actions -/

section Loose

variable {R : Machine → Machine → Prop} [Loose R]

lemma within_any {σ α : Type} (action : Action σ α) : action.Within fun _ _ => True := by
  intro state journal
  cases action state journal <;> trivial

lemma loose_onHeap {α : Type} (action : Action Heap α) : (onHeap action).Within R :=
  (within_any action).on fun _ _ _ => Loose.of_still ⟨rfl, rfl, rfl⟩

lemma loose_onGlobals {α : Type} (action : Action Table α) : (onGlobals action).Within R :=
  (within_any action).on fun _ _ _ => Loose.of_still ⟨rfl, rfl, rfl⟩

lemma loose_collectGarbage : collectGarbage.Within R := by
  refine within_get.bind fun _ => (within_note _).bind fun _ => within_get.bind fun m =>
    (loose_onHeap _).bind fun sweep => within_get.bind fun m => ?_
  have hrest : ∀ threshold event, (do
      modify fun m => { m with threshold := threshold }
      note event
      return sweep : Action Machine Sweep).Within R := by
    intro threshold event
    refine Within.bind ?_ fun _ => (within_note event).bind fun _ => within_pure sweep
    exact within_modify fun _ => Loose.of_still ⟨rfl, rfl, rfl⟩
  exact Within.ite ((within_abort _).bind fun _ => hrest _ _) (hrest _ _)

lemma loose_collectIfNeeded : collectIfNeeded.Within R :=
  within_collectIfNeeded_of loose_collectGarbage

lemma loose_alloc {k : Kind} (content : k.Content) : (alloc k content).Within R :=
  loose_collectIfNeeded.bind fun _ => loose_onHeap _

lemma loose_capture (slot : Nat) : (capture slot).Within R :=
  within_capture_of (loose_alloc _) fun _ _ => Loose.of_still ⟨rfl, rfl, rfl⟩

lemma loose_closeUpvalues (slot : Nat) : (closeUpvalues slot).Within R := by
  refine within_closeUpvalues_of (fun _ _ m _ => ?_) (fun m _ => ?_) slot
  · exact Loose.of_still ⟨rfl, rfl, rfl⟩
  · exact Loose.of_still ⟨rfl, rfl, rfl⟩

end Loose

lemma trims_pop : pop.Within Trims := fun m _ =>
  ⟨⟨rfl, rfl⟩, fun i hi => m.stack.get?_pop_of_lt i (Nat.lt_of_lt_of_eq hi m.stack.length_pop)⟩

lemma trims_truncate (count : Nat) : (truncate count).Within Trims := fun m _ =>
  ⟨⟨rfl, rfl⟩, fun i hi => m.stack.get?_truncate_of_lt i count
    (Nat.lt_of_lt_of_le (Nat.lt_of_lt_of_eq hi (m.stack.length_truncate count)) (Nat.min_le_left _ _))⟩

lemma trims_captureMany (count : Nat) (refs : Array (Ref .upvalue)) :
    (captureMany count refs).Within Trims := by
  induction count generalizing refs with
  | zero => exact within_pure refs
  | succ count ih =>
      refine within_fetch.bind fun isLocal => within_fetchNat.bind fun index => ?_
      refine Within.ite (within_get.bind fun _ => ?_) ?_
      · exact (loose_capture _).bind fun ref => ih (refs.push ref)
      · exact (within_upvalue index).bind fun ref => ih (refs.push ref)

section Sequences

variable {α β : Type} {first : Action Machine α} {next : α → Action Machine β}

/-- What comes first only reads. -/
lemma ends_bind {done : β → Machine → Prop} {journal : Journal} (h : first.Within Eq)
    (hnext : ∀ value journal, (next value m journal).Ends done (fun _ _ => True) fun _ => True) :
    ((first >>= next) m journal).Ends done (fun _ _ => True) fun _ => True := by
  refine Outcome.Ends.bind ((h m journal).imp (fun _ _ h => h) (fun _ _ _ => trivial) fun _ => id) ?_
  rintro value _ journal₁ rfl
  exact hnext value journal₁

lemma tops_of_trims (h : first.Within Trims) : first.Within Tops := h.imp fun _ _ => Trims.tops

/-- Only what comes last puts something on top. -/
lemma tops_bind (h : first.Within Trims) (hnext : ∀ value, (next value).Within Tops) :
    (first >>= next).Within Tops := by
  intro m journal
  refine Outcome.Ends.bind ((h m journal).imp (fun _ _ h => h) (fun _ _ => Trims.tops) fun _ => id)
    fun value m₁ journal₁ hfirst => ?_
  exact (hnext value m₁ journal₁).imp (fun _ _ => hfirst.followed_by) (fun _ _ => hfirst.followed_by)
    fun _ => id

end Sequences

lemma tops_push (value : Value) : (push value).Within Tops := fun m _ =>
  ⟨⟨rfl, rfl⟩, fun i hi => m.stack.get?_push_of_lt value i
    (Nat.lt_of_succ_lt_succ (Nat.lt_of_lt_of_eq hi (m.stack.length_push value)))⟩

/-- The slot that is replaced has to be there. -/
lemma setPeek_ends (distance : Nat) (value : Value) (m : Machine) (journal : Journal) :
    (setPeek distance value m journal).Ends
      (fun _ m' => distance < m.stack.length ∧
        m' = { m with stack := (m.stack.set (m.stack.length - distance - 1) value).2 })
      (fun _ _ => False) fun _ => True := by
  rw [setPeek, get_bind]
  by_cases hlt : m.stack.length < distance + 1
  · rw [if_pos hlt]
    trivial
  · rw [if_neg hlt]
    exact ⟨by omega, rfl⟩

lemma tops_setPeek (value : Value) : (setPeek 0 value).Within Tops := by
  intro m journal
  refine (setPeek_ends 0 value m journal).imp ?_ (fun _ _ => False.elim) fun _ => id
  rintro _ _ ⟨hlt, rfl⟩
  refine ⟨⟨rfl, rfl⟩, fun i hi => ?_⟩
  rw [m.stack.length_set_of_lt value _ (by omega)] at hi
  exact m.stack.get?_set_of_lt value i _ (by omega) (by omega)

/-! ### Instructions that stay in their frame -/

lemma tops_getLocal : getLocal.Within Tops :=
  tops_bind within_fetchNat fun _ => tops_bind within_get fun _ => tops_bind within_get fun _ =>
    tops_push _

lemma tops_getGlobal : getGlobal.Within Tops := by
  refine tops_bind within_fetchName fun name => tops_bind within_get fun m =>
    tops_bind (within_lift _) fun found => ?_
  cases found with
  | some value => exact tops_push value
  | none => exact tops_of_trims (within_notDefined _)

lemma trims_defineGlobal : defineGlobal.Within Trims :=
  within_fetchName.bind fun _ => trims_pop.bind fun _ => (loose_onGlobals _).bind fun _ =>
    within_pure ()

lemma trims_setGlobal : setGlobal.Within Trims := by
  refine within_fetchName.bind fun name => within_get.bind fun m => (within_lift _).bind fun found => ?_
  cases found with
  | some value => exact (within_peek 0).bind fun _ => (loose_onGlobals _).bind fun _ => within_pure ()
  | none => exact within_notDefined _

lemma trims_deleteGlobal : deleteGlobal.Within Trims := by
  refine within_fetchName.bind fun name => (loose_onGlobals _).bind fun found => ?_
  cases found with
  | some value => exact within_pure ()
  | none => exact within_notDefined _

lemma tops_getUpvalue : getUpvalue.Within Tops := by
  refine tops_bind within_fetchNat fun index => tops_bind (within_upvalue index) fun ref =>
    tops_bind within_get fun m => tops_bind (within_lift _) fun content => ?_
  cases content with
  | opened slot => exact tops_push _
  | closed value => exact tops_push value

lemma tops_getProperty : getProperty.Within Tops :=
  tops_bind within_fetchName fun _ => tops_bind (within_peek 0) fun _ =>
    tops_bind (within_asInstance _ _) fun _ => tops_bind within_get fun _ =>
      tops_bind (within_lift _) fun _ => tops_setPeek _

lemma tops_setProperty : setProperty.Within Tops :=
  tops_bind within_fetchName fun _ => tops_bind (within_peek 0) fun _ =>
    tops_bind (within_peek 1) fun _ => tops_bind (within_asInstance _ _) fun _ =>
      tops_bind (loose_onHeap _) fun _ => tops_bind (loose_onHeap _) fun _ =>
        tops_bind trims_pop fun _ => tops_setPeek _

lemma tops_makeClosure : makeClosure.Within Tops := by
  refine tops_bind within_fetchConstant fun value => ?_
  split
  · exact tops_bind within_get fun _ => tops_bind (within_lift _) fun _ =>
      tops_bind (trims_captureMany _ _) fun _ => tops_bind (loose_alloc (k := .closure) _) fun _ =>
        tops_push _
  · exact within_abort _

lemma tops_defineClass : defineClass.Within Tops := by
  refine tops_bind within_fetchName fun _ => tops_bind (loose_alloc (k := .cls) _) fun ref =>
    tops_bind ?_ fun _ => tops_push (.cls ref)
  exact within_modify fun _ => Loose.of_still ⟨rfl, rfl, rfl⟩

lemma trims_defineMethod : defineMethod.Within Trims := by
  refine within_fetchName.bind fun name => (within_peek 1).bind fun cls =>
    (within_peek 0).bind fun method => ?_
  split
  case h_1 ref method =>
    have hrest : (do
        onHeap (Heap.resize ref.id)
        let _ ← pop : Action Machine Unit).Within Trims :=
      (loose_onHeap _).bind fun _ => trims_pop.bind fun _ => within_pure ()
    refine (loose_onHeap _).bind fun _ => within_get.bind fun m => (within_lift _).bind fun text =>
      Within.ite ?_ hrest
    exact within_get.bind fun _ => (within_lift _).bind fun _ => (loose_onHeap _).bind fun _ => hrest
  case h_2 => exact within_abort _

lemma tops_binary (op : Heap → Value → Value → Result Value) : (binary op).Within Tops :=
  tops_bind trims_pop fun _ => tops_bind (within_peek 0) fun _ => tops_bind within_get fun _ =>
    tops_bind (within_lift _) fun _ => tops_setPeek _

lemma tops_equality (op : Heap → Value → Value → Result Bool) (expected : Bool) :
    (equality op expected).Within Tops := tops_binary _

lemma tops_ordering (op : String) (accept : Ordering → Bool) : (ordering op accept).Within Tops :=
  tops_binary _

lemma tops_unary (op : Heap → Value → Result Value) : (unary op).Within Tops :=
  tops_bind (within_peek 0) fun _ => tops_bind within_get fun _ => tops_bind (within_lift _) fun _ =>
    tops_setPeek _

lemma tops_add : add.Within Tops := by
  refine tops_bind (within_peek 0) fun b => tops_bind (within_peek 1) fun a =>
    tops_bind within_get fun m => tops_bind (within_lift _) fun sum => ?_
  cases sum with
  | scalar scalar => exact tops_bind trims_pop fun _ => tops_setPeek _
  | text text =>
      exact tops_bind loose_collectIfNeeded fun _ => tops_bind (loose_onHeap _) fun _ =>
        tops_bind trims_pop fun _ => tops_setPeek _

lemma tops_logical (op : Bool → Bool → Bool) : (logical op).Within Tops :=
  tops_bind trims_pop fun _ => tops_bind trims_pop fun _ => tops_push _

lemma trims_closeTop : closeTop.Within Trims := by
  refine within_get.bind fun m => Within.ite ((within_abort _).bind fun _ => ?_) ?_
  all_goals exact (loose_closeUpvalues _).bind fun _ => trims_pop.bind fun _ => within_pure ()

lemma trims_print : print.Within Trims := by
  refine trims_pop.bind fun value => within_get.bind fun m => (within_lift _).bind fun text =>
    within_get.bind fun m => ?_
  refine Within.ite ((within_raise _).bind fun _ => ?_) ?_
  all_goals exact within_modify fun _ => Loose.of_still ⟨rfl, rfl, rfl⟩

lemma tops_newTable : newTable.Within Tops :=
  tops_bind within_fetchCapacity fun _ => tops_bind (within_lift _) fun _ =>
    tops_bind (loose_alloc (k := .table) _) fun _ => tops_setPeek _

lemma tops_newStack : newStack.Within Tops :=
  tops_bind within_fetchCapacity fun _ => tops_bind (within_lift _) fun _ =>
    tops_bind (loose_alloc (k := .stack) _) fun _ => tops_setPeek _

lemma tops_newVector : newVector.Within Tops :=
  tops_bind within_fetchCapacity fun _ => tops_bind (within_lift _) fun _ =>
    tops_bind (loose_alloc (k := .vector) _) fun _ => tops_setPeek _

lemma tops_newArray : newArray.Within Tops := by
  refine tops_bind within_fetch fun word => ?_
  cases ArrayKind.ofWord? word with
  | none => exact within_abort _
  | some kind =>
      refine tops_bind within_fetchNat fun count => tops_bind within_get fun m => ?_
      refine Within.ite (tops_bind (within_abort _) fun _ => ?_) ?_
      all_goals
        exact tops_bind loose_collectIfNeeded fun _ => tops_bind (loose_onHeap _) fun _ =>
          tops_bind within_get fun _ => tops_bind (loose_onHeap _) fun _ =>
            tops_bind (trims_truncate _) fun _ => tops_push _

lemma tops_getIndex : getIndex.Within Tops :=
  tops_bind (within_peek 0) fun _ => tops_bind (within_peek 1) fun _ => tops_bind within_get fun _ =>
    tops_bind (within_lift _) fun _ => tops_bind trims_pop fun _ => tops_setPeek _

lemma tops_setIndex : setIndex.Within Tops := by
  refine tops_bind (within_peek 0) fun value => tops_bind (within_peek 1) fun index =>
    tops_bind (within_peek 2) fun container => tops_bind (loose_onHeap _) fun _ =>
      tops_bind within_get fun m => ?_
  refine Within.ite (tops_bind (within_abort _) fun _ => ?_) ?_
  all_goals exact tops_bind (trims_truncate _) fun _ => tops_push value

lemma tops_length : Machine.length.Within Tops := tops_unary _

lemma trims_pushValue : pushValue.Within Trims :=
  trims_pop.bind fun _ => (within_peek 0).bind fun _ => loose_onHeap _

lemma tops_popValue : popValue.Within Tops :=
  tops_bind (within_peek 0) fun _ => tops_bind (loose_onHeap _) fun _ => tops_setPeek _

lemma tops_copy : copy.Within Tops :=
  tops_bind loose_collectIfNeeded fun _ => tops_bind (within_peek 0) fun _ =>
    tops_bind (loose_onHeap _) fun _ => tops_setPeek _

lemma tops_remove : remove.Within Tops :=
  tops_bind trims_pop fun _ => tops_bind (within_peek 0) fun _ => tops_bind (loose_onHeap _) fun _ =>
    tops_setPeek _

/-- Whether an instruction stores below the top slot, or may enter a closure. -/
def reachesDown : Opcode → Bool
  | .setLocal | .setUpvalue | .each | .call | .invoke => true
  | _ => false

/-- Most instructions reach the top slot only. -/
lemma tops_execute (op : Opcode) (hop : reachesDown op = false) : (execute host op).Within Tops := by
  -- values are taken off, which trims the stack, and at most one is pushed in the end
  cases op with
  | constant => exact tops_bind within_fetchConstant fun value => tops_push value
  | pushNull | pushTrue | pushFalse => exact tops_push _
  | pop => exact tops_of_trims (trims_pop.bind fun _ => within_pure ())
  | popMany =>
      exact tops_of_trims (within_fetchNat.bind fun _ => within_get.bind fun _ => trims_truncate _)
  | dup => exact tops_bind (within_peek 0) fun value => tops_push value
  | getLocal => exact tops_getLocal
  | getGlobal => exact tops_getGlobal
  | defineGlobal => exact tops_of_trims trims_defineGlobal
  | setGlobal => exact tops_of_trims trims_setGlobal
  | deleteGlobal => exact tops_of_trims trims_deleteGlobal
  | getUpvalue => exact tops_getUpvalue
  | getProperty => exact tops_getProperty
  | setProperty => exact tops_setProperty
  | getNative | getClass =>
      exact tops_bind within_fetchNat fun _ => tops_bind within_get fun _ => tops_push _
  | add => exact tops_add
  | sub | mul | div | mod => exact tops_binary _
  | eq | ne | strictEq | strictNe => exact tops_equality _ _
  | lt | le | gt | ge => exact tops_ordering _ _
  | and | or => exact tops_logical _
  | neg | not | inc | dec =>
      rw [execute]
      exact tops_unary _
  | jump => exact tops_of_trims (within_fetchNat.bind fun offset => within_skip offset)
  | jumpIfFalse | jumpIfTrue | jumpIfNull | jumpIfNotNull => exact tops_of_trims (within_jumpIf _)
  | jumpCase => exact tops_of_trims within_jumpCase
  | jumpList => exact tops_of_trims within_jumpList
  | loop => exact tops_of_trims within_loop
  | closure => exact tops_makeClosure
  | closeUpvalue => exact tops_of_trims trims_closeTop
  | ret => exact tops_of_trims (within_pure ())
  | defineClass => exact tops_defineClass
  | defineMethod => exact tops_of_trims trims_defineMethod
  | print => exact tops_of_trims trims_print
  | newTable => exact tops_newTable
  | newStack => exact tops_newStack
  | newVector => exact tops_newVector
  | newArray => exact tops_newArray
  | getIndex => exact tops_getIndex
  | setIndex => exact tops_setIndex
  | length => exact tops_length
  | pushValue => exact tops_of_trims trims_pushValue
  | popValue => exact tops_popValue
  | copy => exact tops_copy
  | remove => exact tops_remove
  | _ => cases hop

/-- The next instruction stores into a slot, through an upvalue that names it. -/
def StoresInSlot (m : Machine) (slot : Nat) : Prop := ∃ ref, m.StoresInto ref ∧ m.OpenAt ref slot

/-- An instruction stays in its frame. Below the base, and below the top slot, it
stores only through an upvalue. -/
structure Stays (m m' : Machine) : Prop extends SameCalls m m' where
  kept : ∀ i < m.frame.base, i + 1 < m.stack.length → i + 1 < m'.stack.length → ¬ m.StoresInSlot i →
    m'.stack.get? i = m.stack.get? i

lemma Tops.stays (h : Tops m m') : Stays m m' := ⟨h.toSameCalls, fun i _ _ hi _ => h.kept i hi⟩

lemma setLocal_ends (m : Machine) (journal : Journal) :
    (setLocal m journal).Ends
      (fun _ m' => SameCalls m m' ∧ ∀ i < m.frame.base, i < m.stack.length →
        m'.stack.get? i = m.stack.get? i)
      (fun _ _ => True) fun _ => True := by
  refine (fetchNat_ends m journal).unraised.bind ?_
  rintro index m₁ journal₁ ⟨word, -, -, rfl⟩
  refine ⟨⟨rfl, rfl⟩, fun i hi hlt => m.stack.get?_set_of_ne _ i _ ?_ hlt⟩
  exact Nat.ne_of_lt (Nat.lt_of_lt_of_le hi (Nat.le_add_left _ _))

/-- Storing through an upvalue reaches at most the slot that it names. -/
lemma setUpvalue_ends (m : Machine) (journal : Journal) :
    (setUpvalue m journal).Ends
      (fun _ m' => SameCalls m m' ∧ ∀ i < m.stack.length,
        (∀ ref, m.upvalueAt? m.frame.ip = some ref → ¬ m.OpenAt ref i) →
          m'.stack.get? i = m.stack.get? i)
      (fun _ _ => True) fun _ => True := by
  refine (fetchNat_ends m journal).unraised.bind ?_
  rintro index m₁ journal₁ ⟨word, hword, rfl, rfl⟩
  refine (upvalue_ends _ _ journal₁).unraised.bind ?_
  rintro ref m₂ journal₂ ⟨rfl, href⟩
  have href : m.upvalueAt? m.frame.ip = some ref := by
    rw [upvalueAt?, hword]
    exact href
  rw [peek, bind_assoc, get_bind, pure_bind, get_bind]
  cases hget : m.heap.get? ref with
  | none =>
      rw [movedTo_heap, Heap.read_of_none hget]
      trivial
  | some content =>
      rw [movedTo_heap, Heap.read_of_get? hget]
      cases content with
      | opened slot =>
          refine ⟨⟨rfl, rfl⟩, fun i hlt hnot => m.stack.get?_set_of_ne _ i slot ?_ hlt⟩
          rintro rfl
          exact hnot ref href hget
      | closed old => exact ⟨⟨rfl, rfl⟩, fun _ _ _ => rfl⟩

/-- Iterating changes the cursor and pushes. -/
lemma each_ends (m : Machine) (journal : Journal) :
    (each m journal).Ends
      (fun _ m' => SameCalls m m' ∧ ∀ i, i + 1 < m.stack.length → m'.stack.get? i = m.stack.get? i)
      (fun _ _ => True) fun _ => True := by
  refine ends_bind (within_peek 0) fun value journal => ?_
  split
  case h_1 cursor =>
    have hrest : ∀ element journal, ((setPeek 0 (.scalar (.int (cursor + 1))) >>= fun _ =>
        push element) m journal).Ends (fun _ m' => SameCalls m m' ∧ ∀ i, i + 1 < m.stack.length →
          m'.stack.get? i = m.stack.get? i) (fun _ _ => True) fun _ => True := by
      intro element journal
      refine (setPeek_ends _ _ m journal).unraised.bind ?_
      rintro _ _ journal₁ ⟨hlt, rfl⟩
      refine ⟨⟨rfl, rfl⟩, fun i hi => ?_⟩
      have hset := m.stack.get?_set_of_lt (.scalar (.int (cursor + 1))) i (m.stack.length - 0 - 1)
        (by omega) (by omega)
      refine (Stack.get?_push_of_lt _ element i ?_).trans hset
      rw [Stack.length_set_of_lt _ _ _ (by omega)]
      omega
    refine ends_bind (within_peek 1) fun container journal => ends_bind within_get fun _ journal =>
      ends_bind (within_lift _) fun element journal => ?_
    by_cases hfits : (!fitsInt (cursor.toInt + 1)) = true
    · rw [if_pos hfits]
      trivial
    · rw [if_neg hfits]
      exact hrest element journal
  case h_2 => trivial

/-! ### Calls -/

/-- A call of something other than a closure has put its result in the place of the
callee and dropped the arguments. -/
structure Answered (count : Nat) (m m' : Machine) : Prop extends Tops m m' where
  length : m'.stack.length + count = m.stack.length

/-- A closure is entered. Only the slot of the callee may have changed. -/
structure Entered (count : Nat) (m m' : Machine) : Prop where
  frames : m'.frames = m.frame :: m.frames
  base : m'.frame.base + count + 1 = m.stack.length
  length : m'.stack.length = m.stack.length
  kept : ∀ i ≠ m'.frame.base, m'.stack.get? i = m.stack.get? i

/-- The slot of the callee has changed. -/
structure Placed (count : Nat) (m m' : Machine) : Prop where
  frames : m'.frames = m.frames
  frame : m'.frame = m.frame
  length : m'.stack.length = m.stack.length
  kept : ∀ i, i + count + 1 ≠ m.stack.length → m'.stack.get? i = m.stack.get? i

/-- What a call does. -/
def Calls (count : Nat) (m m' : Machine) : Prop := Answered count m m' ∨ Entered count m m'

lemma Still.placed (h : Still m m') (count : Nat) : Placed count m m' :=
  ⟨h.frames, h.frame, by rw [h.stack], fun i _ => by rw [h.stack]⟩

lemma Placed.followed_by {count : Nat} (h : Placed count m m₁) (h' : Calls count m₁ m') :
    Calls count m m' := by
  rcases h' with h' | h'
  · refine .inl ⟨⟨⟨h'.frames.trans h.frames, by rw [h'.frame, h.frame]⟩, fun i hi => ?_⟩,
      h'.length.trans h.length⟩
    have hlength := h'.length.trans h.length
    exact (h'.kept i hi).trans (h.kept i (by omega))
  · refine .inr ⟨by rw [h'.frames, h.frame, h.frames], h'.base.trans h.length,
      h'.length.trans h.length, fun i hi => ?_⟩
    have hbase := h'.base.trans h.length
    exact (h'.kept i hi).trans (h.kept i (by omega))

lemma placed_setPeek (count : Nat) (value : Value) (m : Machine) (journal : Journal) :
    (setPeek count value m journal).Ends (fun _ m' => Placed count m m') (fun _ _ => True)
      fun _ => True := by
  refine (setPeek_ends count value m journal).imp ?_ (fun _ _ => False.elim) fun _ => id
  rintro _ _ ⟨hlt, rfl⟩
  have hlength := m.stack.length_set_of_lt value (m.stack.length - count - 1) (by omega)
  exact ⟨rfl, rfl, hlength, fun i hi => m.stack.get?_set_of_lt value i _ (by omega) (by omega)⟩

/-- A closure gets a frame whose base is its callee. -/
lemma callClosure_ends (ref : Ref .closure) (count : Nat) (m : Machine) (journal : Journal) :
    (callClosure ref count m journal).Ends (fun _ m' => Entered count m m') (fun _ _ => True)
      fun _ => True := by
  rw [callClosure, get_bind]
  refine ends_bind (within_lift _) fun closure journal => ends_bind (within_lift _) fun code journal =>
    ends_bind (within_lift _) fun _ journal => ?_
  by_cases hfull : m.frames.length = mostFrames
  · rw [if_pos hfull]
    trivial
  rw [if_neg hfull]
  by_cases hshort : m.stack.length < count + 1
  · rw [if_pos hshort]
    trivial
  rw [if_neg hshort]
  refine ⟨rfl, ?_, rfl, fun _ _ => rfl⟩
  show m.stack.length - count - 1 + count + 1 = m.stack.length
  omega

/-- A native function leaves its result in place of callee and arguments. -/
lemma callNative_ends (ref : Ref .native) (count : Nat) (m : Machine) (journal : Journal) :
    (callNative host ref count m journal).Ends (fun _ m' => Calls count m m') (fun _ _ => True)
      fun _ => True := by
  rw [callNative, get_bind]
  refine ends_bind (within_lift _) fun native journal => ends_bind (within_lift _) fun _ journal => ?_
  by_cases hshort : m.stack.length < count
  · rw [if_pos hshort]
    trivial
  rw [if_neg hshort]
  refine Outcome.Ends.bind ((loose_onHeap (R := Still) _ m journal).imp (fun _ _ h => h)
    (fun _ _ _ => trivial) fun _ => id) fun result m₁ journal₁ hstill => ?_
  have htruncate : truncate (m.stack.length - count) m₁ journal₁ =
      .done () { m₁ with stack := m₁.stack.truncate (m.stack.length - count) } journal₁ := rfl
  rw [bind_of_done htruncate]
  refine (setPeek_ends 0 result _ journal₁).imp ?_ (fun _ _ => False.elim) fun _ => id
  rintro _ _ ⟨hlt, rfl⟩
  refine (hstill.placed count).followed_by (.inl ?_)
  have hlength : (m₁.stack.truncate (m.stack.length - count)).length + count = m₁.stack.length := by
    rw [Stack.length_truncate, hstill.stack]
    omega
  have hset := Stack.length_set_of_lt _ result _ (Nat.sub_one_lt_of_lt hlt)
  refine ⟨⟨⟨rfl, rfl⟩, fun i hi => ?_⟩, (congrArg (· + count) hset).trans hlength⟩
  have hi := Nat.lt_of_lt_of_eq hi hset
  have hkept := m₁.stack.get?_truncate_of_lt i (m.stack.length - count) (by
    rw [Stack.length_truncate] at hi
    omega)
  exact (Stack.get?_set_of_lt _ result i _ (Nat.sub_one_lt_of_lt hlt) (by omega)).trans hkept

/-- A class without initialiser takes no arguments. -/
lemma callClass_ends (ref : Ref .cls) (count : Nat) (m : Machine) (journal : Journal) :
    (callClass ref count m journal).Ends (fun _ m' => Calls count m m') (fun _ _ => True)
      fun _ => True := by
  refine Outcome.Ends.bind ((loose_alloc (R := Still) (k := .inst) _ m journal).imp (fun _ _ h => h)
    (fun _ _ _ => trivial) fun _ => id) fun inst m₁ journal₁ hstill => ?_
  refine Outcome.Ends.bind (placed_setPeek count _ m₁ journal₁) fun _ m₂ journal₂ hplaced => ?_
  have hcalls : ∀ m', Calls count m₂ m' → Calls count m m' := fun m' h =>
    (hstill.placed count).followed_by (hplaced.followed_by h)
  refine ends_bind within_get fun _ journal => ends_bind (within_lift _) fun cls journal => ?_
  cases cls.init with
  | some init =>
      exact (callClosure_ends init count m₂ journal).imp_done fun _ m' h => hcalls m' (.inr h)
  | none =>
      dsimp only
      rw [checkArity]
      by_cases hnone : count = 0
      · rw [if_pos hnone]
        subst hnone
        exact hcalls m₂ (.inl ⟨(refl_of Trims m₂).tops, rfl⟩)
      · rw [if_neg hnone]
        trivial

lemma callValue_ends (callee : Value) (count : Nat) (m : Machine) (journal : Journal) :
    (callValue host callee count m journal).Ends (fun _ m' => Calls count m m') (fun _ _ => True)
      fun _ => True := by
  cases callee with
  | closure ref =>
      exact (callClosure_ends ref count m journal).imp_done fun _ _ => .inr
  | native ref => exact callNative_ends ref count m journal
  | cls ref => exact callClass_ends ref count m journal
  | _ => exact ends_bind within_get fun _ journal => ends_bind (within_lift _) fun _ journal => trivial

/-! ### Steps -/

/-- The number of code words of an instruction that calls. -/
def callWords : Opcode → Nat
  | .call => 2
  | .invoke => 3
  | _ => 0

/-- An instruction enters a closure. The last code word of the instruction counts the
arguments, and the callee stands below them. -/
structure Enters (op : Opcode) (m m' : Machine) : Prop where
  calls : op = .call ∨ op = .invoke
  frames : m'.frames = { m.frame with ip := m.frame.ip + callWords op } :: m.frames
  base : ∃ word, m.wordAt? (m.frame.ip + callWords op - 1) = some word ∧
    m'.frame.base + word.toNat + 1 = m.stack.length
  length : m'.stack.length = m.stack.length
  kept : ∀ i ≠ m'.frame.base, m'.stack.get? i = m.stack.get? i

/-- An instruction returns to the caller. -/
structure Returns (m m' : Machine) : Prop where
  frames : m.frames = m'.frame :: m'.frames
  stack : m'.stack = (m.stack.pop.2.truncate m.frame.base).push (m.stack.pop.1.getD .null)

/-- What an instruction does to its frame: it stays there, enters another or returns
from it. -/
inductive Ways (m m' : Machine) : Status → Prop
  | stays (h : Stays m m') : Ways m m' .running
  | enters (op : Opcode) (next : m.nextOpcode? = some op) (h : Enters op m m') : Ways m m' .running
  | returns (next : m.nextOpcode? = some .ret) (h : Returns m m') : Ways m m' .running
  | finishes (h : m.frames = []) : Ways m m' .finished

/-- A return cuts the stack at the base and pushes the result, or ends the run. -/
lemma ret_ends (m : Machine) (journal : Journal) :
    (ret m journal).Ends
      (fun status m' => (Returns m m' ∧ status = .running) ∨ (m.frames = [] ∧ status = .finished))
      (fun _ _ => True) fun _ => True := by
  have hpop : pop m journal =
      .done (m.stack.pop.1.getD .null) { m with stack := m.stack.pop.2 } journal := rfl
  rw [ret, bind_of_done hpop, get_bind]
  refine Outcome.Ends.bind ((loose_closeUpvalues (R := Still) _ _ journal).imp (fun _ _ h => h)
    (fun _ _ _ => trivial) fun _ => id) fun _ m₁ journal₁ hstill => ?_
  have htruncate : truncate m.frame.base m₁ journal₁ =
      .done () { m₁ with stack := m₁.stack.truncate m.frame.base } journal₁ := rfl
  rw [bind_of_done htruncate, get_bind]
  cases hframes : m₁.frames with
  | nil => exact .inr ⟨hstill.frames.symm.trans hframes, rfl⟩
  | cons frame frames =>
      refine .inl ⟨⟨hstill.frames.symm.trans hframes, ?_⟩, rfl⟩
      show (m₁.stack.truncate m.frame.base).push _ = _
      rw [hstill.stack]

lemma fetchConstant_ends (m : Machine) (journal : Journal) :
    (fetchConstant m journal).Ends (fun _ m' => m' = m.movedTo (m.frame.ip + 1)) (fun _ _ => True)
      fun _ => True := by
  refine (fetchNat_ends m journal).unraised.bind ?_
  rintro index _ journal₁ ⟨word, -, -, rfl⟩
  exact ends_bind within_running fun _ journal => rfl

lemma fetchName_ends (m : Machine) (journal : Journal) :
    (fetchName m journal).Ends (fun _ m' => m' = m.movedTo (m.frame.ip + 1)) (fun _ _ => True)
      fun _ => True := by
  refine (fetchConstant_ends m journal).bind ?_
  rintro value _ journal₁ rfl
  split
  · exact ends_bind within_get fun _ journal => ends_bind (within_lift _) fun _ journal => rfl
  · trivial

/-- Operands are fetched, and then something is called. -/
lemma Calls.ways {op : Opcode} {word : UInt16} (hop : m.nextOpcode? = some op)
    (hcall : op = .call ∨ op = .invoke)
    (hword : m.wordAt? (m.frame.ip + callWords op - 1) = some word)
    (h : Calls word.toNat (m.movedTo (m.frame.ip + callWords op)) m') : Ways m m' .running := by
  rcases h with h | h
  · exact .stays (Tops.stays ⟨⟨h.frames, h.frame⟩, h.kept⟩)
  · exact .enters op hop ⟨hcall, h.frames, ⟨word, hword, h.base⟩, h.length, h.kept⟩

lemma call_ends (hop : m.nextOpcode? = some .call) (journal : Journal) :
    (call host (m.movedTo (m.frame.ip + 1)) journal).Ends (fun _ m' => Ways m m' .running)
      (fun _ _ => True) fun _ => True := by
  refine (fetchNat_ends _ journal).unraised.bind ?_
  rintro count _ journal₁ ⟨word, hword, rfl, rfl⟩
  refine ends_bind (within_peek _) fun callee journal => ?_
  exact (callValue_ends callee _ _ journal).imp_done fun _ _ h => h.ways hop (.inl rfl) hword

lemma invoke_ends (hop : m.nextOpcode? = some .invoke) (journal : Journal) :
    (invoke host (m.movedTo (m.frame.ip + 1)) journal).Ends (fun _ m' => Ways m m' .running)
      (fun _ _ => True) fun _ => True := by
  refine (fetchName_ends _ journal).bind ?_
  rintro name _ journal₁ rfl
  refine (fetchNat_ends _ journal₁).unraised.bind ?_
  rintro count _ journal₂ ⟨word, hword, rfl, rfl⟩
  refine ends_bind (within_peek _) fun value journal => ends_bind (within_asInstance _ _)
    fun ref journal => ends_bind within_get fun _ journal => ends_bind (within_lift _)
      fun inst journal => ends_bind (within_lift _) fun found journal => ?_
  have hways : ∀ m', Calls word.toNat (m.movedTo (m.frame.ip + 3)) m' → Ways m m' .running :=
    fun m' h => h.ways hop (.inr rfl) hword
  cases found with
  | some field =>
      refine (placed_setPeek _ field _ journal).bind fun _ m₁ journal₁ hplaced => ?_
      exact (callValue_ends field _ m₁ journal₁).imp_done
        fun _ m' h => hways m' (hplaced.followed_by h)
  | none =>
      refine ends_bind (within_lift _) fun value journal => ?_
      exact (callValue_ends value _ _ journal).imp_done fun _ m' => hways m'

/-- What one step does to its frame. -/
lemma step_ways (m : Machine) (journal : Journal) :
    (step host m journal).Ends (fun status m' => Ways m m' status) (fun _ _ => True) fun _ => True := by
  refine step_ends (fun hop journal => ?_) (fun op hret hop journal => ?_) journal
  · refine (ret_ends (m.movedTo (m.frame.ip + 1)) journal).imp_done ?_
    rintro status m' (⟨h, rfl⟩ | ⟨h, rfl⟩)
    · exact .returns hop ⟨h.frames, h.stack⟩
    · exact .finishes h
  · by_cases hdown : reachesDown op = false
    · exact (tops_execute op hdown _ journal).imp
        (fun _ _ h => .stays (Tops.stays ⟨⟨h.frames, h.frame⟩, h.kept⟩))
        (fun _ _ _ => trivial) fun _ => id
    cases op with
    | setLocal =>
        refine (setLocal_ends _ journal).imp_done ?_
        rintro _ m' ⟨hcalls, hkept⟩
        exact .stays ⟨⟨hcalls.frames, hcalls.frame⟩,
          fun i hi hlt _ _ => hkept i hi (Nat.lt_of_succ_lt hlt)⟩
    | setUpvalue =>
        refine (setUpvalue_ends _ journal).imp_done ?_
        rintro _ m' ⟨hcalls, hkept⟩
        refine .stays ⟨⟨hcalls.frames, hcalls.frame⟩,
          fun i _ hlt _ hnot => hkept i (Nat.lt_of_succ_lt hlt) ?_⟩
        exact fun ref href hopen => hnot ⟨ref, ⟨hop, href⟩, hopen⟩
    | each =>
        refine (each_ends _ journal).imp_done ?_
        rintro _ m' ⟨hcalls, hkept⟩
        exact .stays ⟨⟨hcalls.frames, hcalls.frame⟩, fun i _ hlt _ _ => hkept i hlt⟩
    | call => exact call_ends hop journal
    | invoke => exact invoke_ends hop journal
    | _ => exact absurd rfl hdown

end ScriptMachine.Machine
