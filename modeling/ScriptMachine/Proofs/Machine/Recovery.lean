import ScriptMachine.Proofs.Machine.Failures
import ScriptMachine.Proofs.Machine.Frames

/-!
What a failed run leaves.

Cleaning up after an error closes the upvalues that are open, with the values that the
instruction has left on the stack. Most instructions look at their operands before they
take them. Some take the top value first, and a call puts an instance or a field in the
place of the callee first; then an upvalue of this slot does not keep the value that the
variable had.

* `fails_keeping`, `fails_taking`, `spares_callValue`: the stack that an error leaves;
* `Recovered`: what a failed run leaves;
* `Reachable.failure_recovers`: this is what every failed run leaves.
-/

namespace ScriptMachine.Machine

open ScriptMachine.Action

variable {host : Host} {m m₁ m' : Machine} {now : Double} {slot : Nat}

/-! ### Instructions that keep the stack -/

/-- The operand stack is the same. -/
def SameStack (m m' : Machine) : Prop := m'.stack = m.stack

instance : IsPreorder Machine SameStack where
  refl _ := rfl
  trans _ _ _ h h' := Eq.trans h' h

instance : Loose SameStack := ⟨Still.stack⟩

instance : Steers SameStack := ⟨fun _ _ => rfl⟩

section Keeping

variable {P : Machine → Machine → Prop} [IsPreorder Machine P]
  {S : Machine → Machine → Prop} [Steers S] {R : Machine → Machine → Prop} [Loose R]

lemma fails_getGlobal : getGlobal.FailsWithin S := by
  refine within_fetchName.bind_fails fun name => within_get.bind_fails fun m =>
    (within_lift _).bind_fails fun found => ?_
  cases found with
  | some value => exact (starved_push value).fails
  | none => exact (within_notDefined _).fails

lemma starved_getUpvalue : getUpvalue.Starved := by
  refine starved_fetchNat.bind fun index => (starved_upvalue index).bind fun ref =>
    starved_get.bind fun m => (starved_lift (m.heap.calm_read ref)).bind fun content => ?_
  cases content with
  | opened slot => exact starved_push _
  | closed value => exact starved_push value

lemma fails_getProperty : getProperty.FailsWithin S :=
  within_fetchName.bind_fails fun _ => (within_peek 0).bind_fails fun _ =>
    (within_asInstance _ _).bind_fails fun _ => within_get.bind_fails fun _ =>
      (within_lift _).bind_fails fun _ => (starved_setPeek 0 _).fails

lemma fails_unary (op : Heap → Value → Result Value) : (unary op).FailsWithin P :=
  (within_peek 0).bind_fails fun _ => within_get.bind_fails fun _ =>
    (within_lift _).bind_fails fun _ => (starved_setPeek 0 _).fails

lemma fails_getIndex : getIndex.FailsWithin P :=
  (within_peek 0).bind_fails fun _ => (within_peek 1).bind_fails fun _ =>
    within_get.bind_fails fun _ => (within_lift _).bind_fails fun _ =>
      starved_pop.fails.bind fun _ => starved_setPeek 0 _

lemma fails_each : each.FailsWithin P := by
  refine (within_peek 0).bind_fails fun value => ?_
  split
  · refine (within_peek 1).bind_fails fun container => within_get.bind_fails fun m =>
      (within_lift _).bind_fails fun element => ?_
    refine FailsWithin.ite ((within_abort _).bind_fails fun _ => ?_) ?_
    all_goals exact (starved_setPeek 0 _).fails.bind fun _ => starved_push _
  · exact (starved_abort _).fails

/-- The elements are still on the stack when one turns out not to fit. -/
lemma sameStack_newArray : newArray.FailsWithin SameStack := by
  refine within_fetch.bind_fails fun word => ?_
  cases ArrayKind.ofWord? word with
  | none => exact (starved_abort _).fails
  | some kind =>
      refine within_fetchNat.bind_fails fun count => within_get.bind_fails fun m => ?_
      refine FailsWithin.ite ((within_abort _).bind_fails fun _ => ?_) ?_
      all_goals
        exact loose_collectIfNeeded.bind_fails fun _ => (loose_onHeap _).bind_fails fun ref =>
          within_get.bind_fails fun m => (loose_onHeap _).bind_fails fun _ =>
            (starved_truncate _).fails.bind fun _ => starved_push _

lemma sameStack_copy : copy.FailsWithin R :=
  loose_collectIfNeeded.bind_fails fun _ => (within_peek 0).bind_fails fun _ =>
    (loose_onHeap _).bind_fails fun _ => (starved_setPeek 0 _).fails

end Keeping

/-- Whether an instruction takes the top value off the stack before it can raise an
error. -/
def takesTop : Opcode → Bool
  | .sub | .mul | .div | .mod | .eq | .ne | .strictEq | .strictNe | .lt | .le | .gt | .ge
  | .print | .pushValue | .remove => true
  | _ => false

/-- Most instructions have not changed the stack when they raise an error. -/
lemma fails_keeping (op : Opcode) (htakes : takesTop op = false) (hcall : op ≠ .call)
    (hinvoke : op ≠ .invoke) : (execute host op).FailsWithin SameStack := by
  -- starved parts fail for want of memory only, so the first other part that can fail decides
  cases op with
  | constant => exact starved_fetchConstant.fails.bind fun value => starved_push value
  | pushNull | pushTrue | pushFalse => exact (starved_push _).fails
  | pop => exact starved_pop.fails.bind fun _ => starved_pure ()
  | popMany => exact starved_fetchNat.fails.bind fun _ => starved_get.bind fun _ => starved_truncate _
  | dup => exact (starved_peek 0).fails.bind fun value => starved_push value
  | getLocal =>
      exact starved_fetchNat.fails.bind fun _ => starved_get.bind fun _ => starved_get.bind fun _ =>
        starved_push _
  | setLocal =>
      exact starved_fetchNat.fails.bind fun _ => starved_get.bind fun _ => (starved_peek 0).bind fun _ =>
        starved_onStack _
  | getGlobal => exact fails_getGlobal
  | defineGlobal => exact starved_defineGlobal.fails
  | setGlobal => exact fails_setGlobal
  | deleteGlobal => exact fails_deleteGlobal
  | getUpvalue => exact starved_getUpvalue.fails
  | setUpvalue => exact starved_setUpvalue.fails
  | getProperty => exact fails_getProperty
  | setProperty => exact fails_setProperty
  | getNative | getClass =>
      exact starved_fetchNat.fails.bind fun _ => starved_get.bind fun _ => starved_push _
  | add => exact fails_add
  | and | or =>
      exact starved_pop.fails.bind fun _ => starved_pop.bind fun _ => starved_push _
  | neg | not | inc | dec =>
      rw [execute]
      exact fails_unary _
  | jump => exact (within_fetchNat.bind fun offset => within_skip offset).fails
  | jumpIfFalse | jumpIfTrue | jumpIfNull | jumpIfNotNull => exact (within_jumpIf _).fails
  | jumpCase => exact within_jumpCase.fails
  | jumpList => exact within_jumpList.fails
  | loop => exact within_loop.fails
  | call => exact absurd rfl hcall
  | invoke => exact absurd rfl hinvoke
  | closure => exact starved_makeClosure.fails
  | closeUpvalue => exact starved_closeTop.fails
  | ret => exact (starved_pure ()).fails
  | defineClass => exact starved_defineClass.fails
  | defineMethod => exact starved_defineMethod.fails
  | newTable => exact fails_newTable
  | newStack => exact fails_newStack
  | newVector => exact fails_newVector
  | newArray => exact sameStack_newArray
  | getIndex => exact fails_getIndex
  | setIndex => exact fails_setIndex
  | length =>
      rw [execute, Machine.length]
      exact fails_unary _
  | popValue => exact fails_popValue
  | copy => exact sameStack_copy
  | each => exact fails_each
  | _ => cases htakes

/-! ### Instructions that take the top value first -/

/-- The top value is gone. -/
def TopTaken (m m' : Machine) : Prop := m'.stack = m.stack.pop.2

lemma fails_after_pop {β : Type} {next : Value → Action Machine β}
    (hnext : ∀ value, (next value).FailsWithin SameStack) : (pop >>= next).FailsWithin TopTaken :=
  fun m journal => hnext _ { m with stack := m.stack.pop.2 } journal

lemma fails_binary (op : Heap → Value → Value → Result Value) : (binary op).FailsWithin TopTaken :=
  fails_after_pop fun _ => (within_peek 0).bind_fails fun _ => within_get.bind_fails fun _ =>
    (within_lift _).bind_fails fun _ => (starved_setPeek 0 _).fails

lemma fails_print : print.FailsWithin TopTaken := by
  refine fails_after_pop fun value => within_get.bind_fails fun _ => (within_lift _).bind_fails fun _ =>
    within_get.bind_fails fun _ => FailsWithin.ite ((within_raise _).bind_fails fun _ => ?_) ?_
  all_goals exact (starved_modify _).fails

/-- Instructions that take the top value first leave the stack without it. -/
lemma fails_taking (op : Opcode) (htakes : takesTop op = true) :
    (execute host op).FailsWithin TopTaken := by
  cases op with
  | sub | mul | div | mod => exact fails_binary _
  | eq | ne | strictEq | strictNe =>
      rw [execute, equality]
      exact fails_binary _
  | lt | le | gt | ge =>
      rw [execute, ordering]
      exact fails_binary _
  | print => exact fails_print
  | pushValue =>
      exact fails_after_pop fun _ => (within_peek 0).bind_fails fun _ => (loose_onHeap _).fails
  | remove =>
      exact fails_after_pop fun _ => (within_peek 0).bind_fails fun _ =>
        (loose_onHeap _).bind_fails fun _ => (starved_setPeek 0 _).fails
  | _ => cases htakes

/-! ### Calls -/

/-- All slots but that of the callee are as they were. -/
def SparesOthers (count : Nat) (m m' : Machine) : Prop :=
  ∀ i, i + count + 1 ≠ m.stack.length → m'.stack.get? i = m.stack.get? i

lemma SameStack.spares {count : Nat} (h : SameStack m m') : SparesOthers count m m' :=
  fun _ _ => congrArg (Stack.get? · _) h

lemma SameStack.followed_by {count : Nat} (h : SameStack m m₁) (h' : SparesOthers count m₁ m') :
    SparesOthers count m m' := by
  rw [SameStack] at h
  rwa [SparesOthers, ← h]

lemma spares_of_keeps {α : Type} {action : Action Machine α} {count : Nat}
    (h : action.FailsWithin SameStack) : action.FailsWithin (SparesOthers count) :=
  h.imp fun _ _ => SameStack.spares

lemma spares_bind {α β : Type} {first : Action Machine α} {next : α → Action Machine β} {count : Nat}
    (h : first.Within SameStack) (hnext : ∀ value, (next value).FailsWithin (SparesOthers count)) :
    (first >>= next).FailsWithin (SparesOthers count) := by
  intro m journal
  refine Outcome.Ends.bind ((h m journal).imp (fun _ _ h => h) (fun _ _ h _ => h.spares) fun _ => id)
    fun value m₁ journal₁ hfirst => ?_
  exact (hnext value m₁ journal₁).imp (fun _ _ => id)
    (fun _ _ hraised hkind => hfirst.followed_by (hraised hkind)) fun _ => id

/-- Something is put in the place of the callee. -/
lemma spares_after_setPeek {β : Type} {next : Unit → Action Machine β} {count : Nat} (value : Value)
    (hnext : (next ()).FailsWithin (SparesOthers count)) :
    (setPeek count value >>= next).FailsWithin (SparesOthers count) := by
  intro m journal
  refine Outcome.Ends.bind (starved_ends (starved_setPeek count value)
    (placed_setPeek count value m journal)) fun _ m₁ journal₁ hplaced => ?_
  refine (hnext m₁ journal₁).imp (fun _ _ => id) (fun _ m' hraised hkind i hi => ?_) fun _ => id
  exact (hraised hkind i (hplaced.length ▸ hi)).trans (hplaced.kept i hi)

lemma sameStack_callClosure (ref : Ref .closure) (count : Nat) :
    (callClosure ref count).Within SameStack := by
  refine within_get.bind fun m => (within_lift _).bind fun closure => (within_lift _).bind fun code =>
    (within_lift _).bind fun _ => Within.ite ((within_raise _).bind fun _ => ?_) ?_
  all_goals
    refine Within.ite ((within_abort _).bind fun _ => ?_) ?_
    all_goals exact within_modify fun _ => rfl

/-- Arguments are dropped only when the result is there. -/
lemma sameStack_callNative (ref : Ref .native) (count : Nat) :
    (callNative host ref count).FailsWithin SameStack := by
  refine within_get.bind_fails fun m => (within_lift _).bind_fails fun native =>
    (within_lift _).bind_fails fun _ => FailsWithin.ite ((within_abort _).bind_fails fun _ => ?_) ?_
  all_goals
    exact (loose_onHeap _).bind_fails fun _ => (starved_truncate _).fails.bind fun _ =>
      starved_setPeek 0 _

/-- The instance is in its place before the number of arguments is looked at. -/
lemma spares_callClass (ref : Ref .cls) (count : Nat) :
    (callClass ref count).FailsWithin (SparesOthers count) := by
  refine spares_bind (loose_alloc _) fun inst => spares_after_setPeek _ ?_
  refine spares_of_keeps (Within.fails (within_get.bind fun m => (within_lift _).bind fun cls => ?_))
  split
  · exact sameStack_callClosure _ count
  · exact within_lift _

lemma spares_callValue (callee : Value) (count : Nat) :
    (callValue host callee count).FailsWithin (SparesOthers count) := by
  cases callee with
  | closure ref => exact spares_of_keeps (sameStack_callClosure ref count).fails
  | native ref => exact spares_of_keeps (sameStack_callNative ref count)
  | cls ref => exact spares_callClass ref count
  | _ =>
      exact spares_of_keeps (Within.fails
        (within_get.bind fun _ => (within_lift _).bind fun _ => within_raise _))

/-! ### The stack that an error leaves -/

/-- The next instruction takes the value of a slot, the top one, before it can raise an
error. -/
def TakesFrom (m : Machine) (slot : Nat) : Prop :=
  m.nextOpcode?.any takesTop = true ∧ slot + 1 = m.stack.length

/-- The next instruction calls what is in a slot. Its last code word counts the arguments
above. -/
def CallsAt (m : Machine) (slot : Nat) : Prop :=
  ∃ op word, m.nextOpcode? = some op ∧ (op = .call ∨ op = .invoke) ∧
    m.wordAt? (m.frame.ip + callWords op - 1) = some word ∧ slot + word.toNat + 1 = m.stack.length

/-- What the next instruction leaves of the stack when it raises an error. -/
structure Leaves (m m' : Machine) : Prop where
  kept : ∀ slot, ¬ m.TakesFrom slot → ¬ m.CallsAt slot → m'.stack.get? slot = m.stack.get? slot
  taken : ∀ slot, m.TakesFrom slot → m'.stack.get? slot = none

lemma leaves_of_same {op : Opcode} (hop : m.nextOpcode? = some op) (htakes : takesTop op = false)
    (h : SameStack m m') : Leaves m m' := by
  refine ⟨fun slot _ _ => congrArg (Stack.get? · slot) h, fun slot htaken => ?_⟩
  rw [TakesFrom, hop, Option.any_some, htakes] at htaken
  cases htaken.1

lemma leaves_of_taken {op : Opcode} (hop : m.nextOpcode? = some op) (htakes : takesTop op = true)
    (h : TopTaken m m') : Leaves m m' := by
  rw [TopTaken] at h
  refine ⟨fun slot hnot _ => ?_, fun slot htaken => ?_⟩
  · have hslot : slot + 1 ≠ m.stack.length := fun hslot => hnot ⟨by rw [hop]; exact htakes, hslot⟩
    rw [h]
    by_cases hlt : slot < m.stack.length
    · exact m.stack.get?_pop_of_lt slot (by omega)
    · have hpop : m.stack.pop.2.length ≤ slot := by
        rw [Stack.length_pop]
        omega
      rw [(Stack.get?_eq_none_iff slot).mpr hpop, (Stack.get?_eq_none_iff slot).mpr (by omega)]
  · rw [h, Stack.get?_eq_none_iff, Stack.length_pop]
    have := htaken.2
    omega

/-- The words of a call are fetched, and then something is called. -/
lemma leaves_of_spares {op : Opcode} {word : UInt16} {ip : Nat} {action : Action Machine Unit}
    (hop : m.nextOpcode? = some op) (hcall : op = .call ∨ op = .invoke)
    (hword : m.wordAt? (m.frame.ip + callWords op - 1) = some word)
    (h : action.FailsWithin (SparesOthers word.toNat)) (journal : Journal) :
    (action (m.movedTo ip) journal).Ends (fun _ _ => True)
      (fun error m' => error.kind ≠ .memory → Leaves m m') fun _ => True := by
  refine (h (m.movedTo ip) journal).imp (fun _ _ => id) (fun _ m' hraised hkind => ?_) fun _ => id
  refine ⟨fun slot _ hnot => hraised hkind slot fun hslot => hnot ⟨op, word, hop, hcall, hword, hslot⟩,
    fun slot htaken => ?_⟩
  rw [TakesFrom, hop, Option.any_some] at htaken
  rcases hcall with rfl | rfl
  · cases htaken.1
  · cases htaken.1

lemma call_leaves (hop : m.nextOpcode? = some .call) (journal : Journal) :
    (call host (m.movedTo (m.frame.ip + 1)) journal).Ends (fun _ _ => True)
      (fun error m' => error.kind ≠ .memory → Leaves m m') fun _ => True := by
  refine (fetchNat_ends _ journal).unraised.bind ?_
  rintro count _ journal₁ ⟨word, hword, rfl, rfl⟩
  exact leaves_of_spares hop (.inl rfl) hword
    (spares_bind (within_peek _) fun callee => spares_callValue callee _) journal₁

/-- A field is in the place of the instance before it is called. -/
lemma invoke_leaves (hop : m.nextOpcode? = some .invoke) (journal : Journal) :
    (invoke host (m.movedTo (m.frame.ip + 1)) journal).Ends (fun _ _ => True)
      (fun error m' => error.kind ≠ .memory → Leaves m m') fun _ => True := by
  refine (starved_ends starved_fetchName (fetchName_ends _ journal)).bind ?_
  rintro name _ journal₁ rfl
  refine (fetchNat_ends _ journal₁).unraised.bind ?_
  rintro count _ journal₂ ⟨word, hword, rfl, rfl⟩
  refine leaves_of_spares hop (.inr rfl) hword (spares_bind (within_peek _) fun value =>
    spares_bind (within_asInstance _ _) fun ref => spares_bind within_get fun _ =>
      spares_bind (within_lift _) fun inst => spares_bind (within_lift _) fun found => ?_) journal₂
  cases found with
  | some field => exact spares_after_setPeek field (spares_callValue field _)
  | none => exact spares_bind (within_lift _) fun value => spares_callValue value _

/-- What one step leaves of the stack when it raises an error. -/
lemma step_leaves (m : Machine) (journal : Journal) :
    (step host m journal).Ends (fun _ _ => True)
      (fun error m' => error.kind ≠ .memory → Leaves m m') fun _ => True := by
  refine step_ends (fun _ journal => ?_) (fun op _ hop journal => ?_) journal
  · exact (starved_ret _ journal).imp (fun _ _ => id) (fun _ _ hraised hkind => (hraised hkind).elim)
      fun _ => id
  by_cases hcall : op = .call
  · subst hcall
    exact call_leaves hop journal
  by_cases hinvoke : op = .invoke
  · subst hinvoke
    exact invoke_leaves hop journal
  cases htakes : takesTop op with
  | true =>
      exact (fails_taking op htakes _ journal).imp (fun _ _ => id)
        (fun _ _ hraised hkind => leaves_of_taken hop htakes (hraised hkind)) fun _ => id
  | false =>
      exact (fails_keeping op htakes hcall hinvoke _ journal).imp (fun _ _ => id)
        (fun _ _ hraised hkind => leaves_of_same hop htakes (hraised hkind)) fun _ => id

/-! ### Cleaning up -/

/-- Closing leaves everything else as it is. -/
lemma within_closeAll {id : ObjectId} (stack : Stack Value) {refs : List (Ref .upvalue)}
    (hothers : ∀ ref ∈ refs, ref.id ≠ id) : (closeAll stack refs).Within (Heap.Undisturbed id) := by
  induction refs with
  | nil => exact within_pure ()
  | cons ref refs ih =>
      obtain ⟨hne, hothers⟩ := List.forall_mem_cons.mp hothers
      have hone : (closeOne stack ref).Within (Heap.Undisturbed id) := by
        refine within_get.bind fun h => (within_lift _).bind fun content => ?_
        cases content with
        | opened slot => exact within_modify fun _ => Heap.onlyAt_put.undisturbed hne.symm
        | closed value => exact within_pure ()
      exact hone.bind fun _ => ih hothers

lemma Ready.closeUpvalues_undisturbed {id : ObjectId} {slot : Nat} {journal journal' : Journal}
    (hr : m.Ready) (hrun : Machine.closeUpvalues slot m journal = .done () m' journal')
    (hclosed : ∀ i, ¬ m.OpenAt ⟨id⟩ i) : Heap.Undisturbed id m.heap m'.heap := by
  obtain ⟨below, above, hsplit, hlisted, -, hhigher⟩ := hr.splitAtSlot slot
  rw [Machine.closeUpvalues, get_bind, hsplit] at hrun
  simp only [lift_ok, pure_bind, modify_bind] at hrun
  have hothers : ∀ ref ∈ above, ref.id ≠ id := by
    rintro ref hmem rfl
    obtain ⟨i, -, hopen⟩ := hhigher ref hmem
    exact hclosed i hopen
  have hwithin := within_closeAll m.stack hothers m.heap journal
  obtain ⟨heap, rfl, hundisturbed⟩ :=
    (ends_onHeap (m := { m with openUpvalues := below }) hwithin).of_done hrun
  exact hundisturbed

/-- What is left of a run that fails after an instruction that left `before`: nothing
that belongs to the run, and everything else as it was, except that no upvalue is
open any more. An upvalue has got the value that its variable had, unless the instruction
that failed had taken it off the stack or put something else in its place. -/
structure Recovered (before m' : Machine) : Prop where
  stack : m'.stack.toList = []
  frames : m'.frames = []
  openUpvalues : m'.openUpvalues = []
  globals : m'.globals = before.globals
  classes : m'.classes = before.classes
  natives : m'.natives = before.natives
  nativeNames : m'.nativeNames = before.nativeNames
  intact : ∀ id, before.heap.contains id = true → m'.heap.contains id = true →
    (∀ slot, ¬ before.OpenAt ⟨id⟩ slot) → Heap.Intact id before.heap m'.heap
  closed : ∀ ref slot, before.OpenAt ref slot → ∃ value, m'.Closed ref value ∧
    (¬ before.TakesFrom slot → ¬ before.CallsAt slot →
      value = (before.stack.get? slot).getD .null) ∧
    (before.TakesFrom slot → value = .null)

/-- An upvalue that was open still is, since it is a root. -/
lemma Unharmed.openAt {before : Machine} {ref : Ref .upvalue} (hu : Unharmed before m)
    (hbefore : before.Ready) (hr : m.Ready) (hopen : before.OpenAt ref slot) : m.OpenAt ref slot := by
  have hlisted : ref ∈ m.openUpvalues := by
    rw [hu.openUpvalues]
    exact (hbefore.open_iff ref).mpr ⟨slot, hopen⟩
  obtain ⟨slot', hopen'⟩ := (hr.open_iff ref).mp hlisted
  have hlast := hu.lasting ref.id (Heap.contains_of_get? hopen) (Heap.contains_of_get? hopen')
  exact hlast.intact.get?.trans hopen

/-- Cleaning up after an error. -/
lemma Unharmed.reset {before : Machine} (hu : Unharmed before m) (hl : Leaves before m)
    (hbefore : before.Ready) (hr : m.Ready) (journal : Journal) :
    ∃ m', reset m journal = .done () m' journal ∧ Recovered before m' := by
  obtain ⟨heap, below, hrun, hmove, -⟩ := hr.closeUpvalues 0 journal
  obtain ⟨hclosed, -⟩ := hmove.closes hr.toTracked
  refine ⟨_, bind_of_done hrun, ⟨rfl, rfl, hmove.closes_all, hu.globals, hu.classes, hu.natives,
    hu.nativeNames, fun id hlive hlive' hnot => ?_, fun ref slot hslot => ?_⟩⟩
  · have hlast : Heap.Undisturbed id m.heap heap := by
      refine hr.closeUpvalues_undisturbed hrun fun slot hslot => ?_
      have hlisted := (hr.open_iff _).mpr ⟨slot, hslot⟩
      rw [hu.openUpvalues, hbefore.open_iff] at hlisted
      exact not_exists.mpr hnot hlisted
    have hfirst := hu.lasting id hlive (hlast.contains ▸ hlive')
    exact (trans_of (Heap.Undisturbed id) hfirst hlast).intact
  · refine ⟨_, hclosed ref slot (hu.openAt hbefore hr hslot) (Nat.zero_le slot),
      fun htakes hcalls => ?_, fun htakes => ?_⟩
    · rw [hl.kept slot htakes hcalls]
    · rw [hl.taken slot htakes]
      rfl

lemma starved_start (function : Ref .function) : (start function).Starved :=
  (starved_push _).bind fun _ => (starved_alloc (k := .closure) _).bind fun _ =>
    (starved_onStack _).bind fun _ => (starved_push _).bind fun _ => starved_modify _

/-- A script with the constant 7 and a function that captures one variable. -/
def capturer (words : List UInt16) : Action Machine (Ref .function) := do
  let inner ← onHeap (Heap.alloc .function ⟨"inner", 0, 1, .empty⟩)
  onHeap (Heap.alloc .function
    ⟨"", 0, 0, ⟨words.toArray, .empty, #[], .ofList [.scalar (.int 7), .function inner]⟩⟩)

/-- It captures the variable in slot 1, which holds 7, and then makes an array of the closure,
which no array can hold. -/
def misfilling : List UInt16 :=
  [Opcode.constant.toWord, 0, Opcode.closure.toWord, 1, 1, 1, Opcode.newArray.toWord, 0, 1]

/-- It captures the variable in slot 2, which holds 7, and then subtracts it from null. -/
def missubtracting : List UInt16 :=
  [Opcode.pushNull.toWord, Opcode.constant.toWord, 0, Opcode.closure.toWord, 1, 1, 2,
    Opcode.pop.toWord, Opcode.sub.toWord]

/-- The error of a run that failed. -/
def Ending.error? : Ending → Option Error
  | .failed error _ => some error
  | .finished => none
  | .outOfFuel => none

lemma Ending.eq_of_error? {ending : Ending} {error : Error} (h : ending.error? = some error) :
    ∃ trace, ending = .failed error trace := by
  cases ending with
  | failed error trace => cases h; exact ⟨trace, rfl⟩
  | finished => cases h
  | outOfFuel => cases h

/-- The code words of a function. -/
def wordsOf (m : Machine) (function : Ref .function) : Option (List UInt16) :=
  (m.heap.get? function).map fun (code : Function) => code.chunk.code.toList

/-- Whether a function has the given code, and its run fails, though memory is not wanting, and
leaves an upvalue with the given value. -/
def FailsWith (run : List UInt16 × Value) (m : Machine) : Prop :=
  m.wordsOf ⟨⟨9, 0⟩⟩ = some run.1 ∧
  (runFunction (.builtin ⟨0⟩) 9 ⟨⟨9, 0⟩⟩ m .silent).done?.any (fun r =>
    r.1.error?.any (·.kind ≠ .memory) &&
      (r.2.1.heap.get? (⟨⟨11, 0⟩⟩ : Ref .upvalue)).any (fun content =>
        decide (content = .closed run.2))) = true

instance (run : List UInt16 × Value) : DecidablePred (FailsWith run) :=
  fun _ => inferInstanceAs (Decidable (_ ∧ _))

lemma exists_failsWith : ∀ run ∈ [(misfilling, Value.scalar (.int 7)), (missubtracting, .null)],
    ∃ m, Reachable (.builtin ⟨0⟩) m ∧ FailsWith run m := by
  have hdeeds : ∀ words, Deeds (.builtin ⟨0⟩) (capturer words) := fun _ =>
    .seq (loads_function _).deeds fun _ => (loads_function _).deeds
  refine List.forall_mem_cons.mpr ⟨?_, List.forall_mem_singleton.mpr ?_⟩
  · exact exists_reachable (hdeeds misfilling) (by decide +kernel)
  · exact exists_reachable (hdeeds missubtracting) (by decide +kernel)

end ScriptMachine.Machine
