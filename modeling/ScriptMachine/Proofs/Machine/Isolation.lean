import ScriptMachine.Proofs.Machine.Frames

/-!
What a call leaves of its caller.

* `Body`: the instructions of a call, up to its return;
* `Ongoing`: what holds in the meantime, nested calls included;
* `calls_isolate`: after a call its caller goes on where it was.
-/

namespace ScriptMachine.Machine

open ScriptMachine.Action

/-- The instructions of a call that is entered in `entry`. Each of them leaves more
than `depth` suspended callers and more than `base` values on the stack; `states`
are the machines that they start from, the last one first. -/
inductive Body (host : Host) (depth base : Nat) (entry : Machine) : List Machine → Machine → Prop
  | nil : Body host depth base entry [] entry
  | step {states : List Machine} {m m' : Machine} {journal journal' : Journal}
      (past : Body host depth base entry states m)
      (run : Machine.step host m journal = .done .running m' journal')
      (inside : depth < m'.frames.length) (filled : base < m'.stack.length) :
      Body host depth base entry (m :: states) m'

variable {host : Host} {m m₁ m₂ m' entry : Machine} {caller : Frame} {callers upper : List Frame}
  {base : Nat} {states : List Machine}

/-- The bases of the running frame and of those below it. -/
def bases (m : Machine) (upper : List Frame) : List Nat := m.frame.base :: upper.map Frame.base

/-- What holds while a call goes on: its frame and those of nested calls are above
the caller. If none of them has a base below that of the call, then neither has
anything been stored there, except through upvalues. -/
structure Ongoing (caller : Frame) (callers : List Frame) (base : Nat) (entry : Machine)
    (states : List Machine) (m : Machine) (upper : List Frame) : Prop where
  frames : m.frames = upper ++ caller :: callers
  outermost : (bases m upper).getLast? = some base
  filled : base < m.stack.length
  kept : (∀ b ∈ bases m upper, base ≤ b) → ∀ i < base,
    m.stack.get? i = entry.stack.get? i ∨ ∃ before ∈ states, before.StoresInSlot i

lemma Ongoing.stays (ho : Ongoing caller callers base entry states m upper) (h : Stays m m')
    (hfilled : base < m'.stack.length) :
    Ongoing caller callers base entry (m :: states) m' upper := by
  have hbases : bases m' upper = bases m upper := by rw [bases, bases, h.frame]
  refine ⟨h.frames.trans ho.frames, hbases ▸ ho.outermost, hfilled, fun hall i hi => ?_⟩
  rw [hbases] at hall
  have hlength := ho.filled
  by_cases hstores : m.StoresInSlot i
  · exact .inr ⟨m, .head _, hstores⟩
  · rw [h.kept i (Nat.lt_of_lt_of_le hi (hall _ (.head _))) (by omega) (by omega) hstores]
    exact (ho.kept hall i hi).imp_right fun ⟨before, hmem, hbefore⟩ => ⟨before, .tail _ hmem, hbefore⟩

lemma Ongoing.enters {op : Opcode} (ho : Ongoing caller callers base entry states m upper)
    (h : Enters op m m') :
    Ongoing caller callers base entry (m :: states) m'
      ({ m.frame with ip := m.frame.ip + callWords op } :: upper) := by
  refine ⟨by rw [h.frames, ho.frames]; rfl, List.getLast?_cons_cons.trans ho.outermost,
    h.length ▸ ho.filled, fun hall i hi => ?_⟩
  obtain ⟨hbase, hall⟩ := List.forall_mem_cons.mp hall
  rw [h.kept i (by omega)]
  exact (ho.kept hall i hi).imp_right fun ⟨before, hmem, hbefore⟩ => ⟨before, .tail _ hmem, hbefore⟩

/-- A return keeps what is below the base of its frame. -/
lemma Returns.kept (h : Returns m m') {i : Nat} (hi : i + 1 < m'.stack.length) :
    i < m.frame.base ∧ m'.stack.get? i = m.stack.get? i := by
  rw [h.stack, Stack.length_push, Stack.length_truncate, Stack.length_pop] at hi
  have hlower : i < m.frame.base := by omega
  refine ⟨hlower, ?_⟩
  rw [h.stack, Stack.get?_push_of_lt _ _ _ (by rw [Stack.length_truncate, Stack.length_pop]; omega),
    Stack.get?_truncate_of_lt _ _ _ hlower, Stack.get?_pop_of_lt _ _ (by omega)]

/-- A nested call whose base is too low cannot return, since that leaves too few
values on the stack. -/
lemma Ongoing.returns (ho : Ongoing caller callers base entry states m upper) (h : Returns m m')
    (hinside : callers.length < m'.frames.length) (hfilled : base < m'.stack.length) :
    ∃ upper', Ongoing caller callers base entry (m :: states) m' upper' := by
  have hframes := h.frames.symm.trans ho.frames
  cases upper with
  | nil =>
      obtain ⟨-, hrest⟩ := List.cons.inj hframes
      rw [hrest] at hinside
      omega
  | cons frame upper =>
      obtain ⟨hframe, hrest⟩ := List.cons.inj hframes
      have hbases : bases m (frame :: upper) = m.frame.base :: bases m' upper := by
        rw [bases, bases, hframe]
        rfl
      refine ⟨upper, hrest, ?_, hfilled, fun hall i hi => ?_⟩
      · have houtermost := ho.outermost
        rw [hbases] at houtermost
        exact List.getLast?_cons_cons.symm.trans houtermost
      · have hbase : base ≤ m.frame.base := by
          cases base with
          | zero => exact Nat.zero_le _
          | succ below => exact (h.kept hfilled).1
        have hall : ∀ b ∈ bases m (frame :: upper), base ≤ b := by
          rw [hbases]
          exact List.forall_mem_cons.mpr ⟨hbase, hall⟩
        rw [(h.kept (i := i) (by omega)).2]
        exact (ho.kept hall i hi).imp_right fun ⟨before, hmem, hbefore⟩ =>
          ⟨before, .tail _ hmem, hbefore⟩

/-- One instruction of a call. -/
lemma Ongoing.step (ho : Ongoing caller callers base entry states m upper) (hw : Ways m m' .running)
    (hinside : callers.length < m'.frames.length) (hfilled : base < m'.stack.length) :
    ∃ upper', Ongoing caller callers base entry (m :: states) m' upper' := by
  cases hw with
  | stays h => exact ⟨upper, ho.stays h hfilled⟩
  | enters op next h => exact ⟨_, ho.enters h⟩
  | returns next h => exact ho.returns h hinside hfilled

/-- Any number of instructions of a call. -/
lemma Body.ongoing (hentry : Ongoing caller callers base entry [] entry [])
    (hbody : Body host callers.length base entry states m) :
    ∃ upper, Ongoing caller callers base entry states m upper := by
  induction hbody with
  | nil => exact ⟨[], hentry⟩
  | step past run inside filled ih =>
      obtain ⟨upper, ho⟩ := ih
      exact ho.step ((step_ways _ _).of_done run) inside filled

/-- What a call leaves when it returns: the caller goes on behind the instruction that
called, and the callee and all above it are replaced by the result. Slots below
differ only if something was stored into them through an upvalue. -/
structure Resumed (op : Opcode) (base : Nat) (states : List Machine) (result : Option Value)
    (m m' : Machine) : Prop where
  frame : m'.frame = { m.frame with ip := m.frame.ip + callWords op }
  frames : m'.frames = m.frames
  length : m'.stack.length = base + 1
  result : m'.stack.get? base = result
  kept : ∀ i < base, m'.stack.get? i = m.stack.get? i ∨ ∃ before ∈ states, before.StoresInSlot i

/-- The return from a call. -/
lemma Ongoing.resumes {op : Opcode} (henters : Enters op m m₁)
    (ho : Ongoing { m.frame with ip := m.frame.ip + callWords op } m.frames base m₁ states m₂ upper)
    (hbase : m₁.frame.base = base) {status : Status} (hw : Ways m₂ m' status)
    (hback : m'.frames.length = m.frames.length) :
    m₂.nextOpcode? = some .ret ∧
      Resumed op base states (m₂.stack.get? (m₂.stack.length - 1)) m m' := by
  have hlength := congrArg List.length ho.frames
  rw [List.length_append, List.length_cons] at hlength
  -- only a return brings the frames back to their number before the call
  cases hw with
  | stays h => rw [h.frames] at hback; omega
  | enters op next h => rw [h.frames, List.length_cons] at hback; omega
  | finishes h => rw [h, List.length_nil] at hlength; omega
  | returns next h =>
      have hreturn := congrArg List.length h.frames
      rw [List.length_cons] at hreturn
      obtain rfl : upper = [] := List.eq_nil_iff_length_eq_zero.mpr (by omega)
      obtain ⟨hframe, hframes⟩ := List.cons.inj (h.frames.symm.trans ho.frames)
      have hsame : m₂.frame.base = base := Option.some.inj ho.outermost
      have hfilled := ho.filled
      have hstack : m'.stack.length = base + 1 := by
        rw [h.stack, Stack.length_push, Stack.length_truncate, Stack.length_pop, hsame]
        omega
      refine ⟨next, hframe, hframes, hstack, ?_, fun i hi => ?_⟩
      · obtain ⟨value, hvalue⟩ : ∃ value, m₂.stack.get? (m₂.stack.length - 1) = some value := by
          refine Option.ne_none_iff_exists'.mp fun hnone => ?_
          have := (Stack.get?_eq_none_iff _).mp hnone
          omega
        rw [h.stack, Stack.get?_push, Stack.length_truncate, Stack.length_pop, hsame,
          if_pos (by omega), Stack.pop_fst, hvalue]
        rfl
      · rw [(h.kept (i := i) (by omega)).2, ← henters.kept i (by omega)]
        exact ho.kept (List.forall_mem_cons.mpr ⟨Nat.le_of_eq hsame.symm, by simp⟩) i hi

/-- A call isolates its caller: whatever it does, nested calls included, once it
returns the caller goes on where it was, with the result on top of its stack. All
that is asked for is that no instruction of the call takes its own slot off the
stack. -/
theorem calls_isolate {op : Opcode} {status : Status} {journal journal₁ journal₂ journal₃ : Journal}
    (hop : m.nextOpcode? = some op) (henter : step host m journal = .done .running m₁ journal₁)
    (hentered : m₁.frames.length = m.frames.length + 1)
    (hbody : Body host m.frames.length m₁.frame.base m₁ states m₂)
    (hreturn : step host m₂ journal₂ = .done status m' journal₃)
    (hback : m'.frames.length = m.frames.length) :
    (op = .call ∨ op = .invoke) ∧ m₂.nextOpcode? = some .ret ∧
    (∃ count, m.wordAt? (m.frame.ip + callWords op - 1) = some count ∧
      m₁.frame.base + count.toNat + 1 = m.stack.length) ∧
    Resumed op m₁.frame.base states (m₂.stack.get? (m₂.stack.length - 1)) m m' := by
  have henters : Enters op m m₁ := by
    cases (step_ways m journal).of_done henter with
    | stays h => rw [h.frames] at hentered; omega
    | returns next h => have := congrArg List.length h.frames; simp at this; omega
    | enters op' next h =>
        obtain rfl := Option.some.inj (hop.symm.trans next)
        exact h
  have hfilled : m₁.frame.base < m₁.stack.length := by
    obtain ⟨count, -, hbase⟩ := henters.base
    rw [henters.length]
    omega
  obtain ⟨upper, ho⟩ := hbody.ongoing ⟨henters.frames, rfl, hfilled, fun _ _ _ => .inl rfl⟩
  obtain ⟨hret, hresumed⟩ := ho.resumes henters rfl ((step_ways m₂ journal₂).of_done hreturn) hback
  exact ⟨henters.calls, hret, henters.base, hresumed⟩

/-- Runs a number of instructions of a call. -/
def runBody (host : Host) (depth base : Nat) :
    (count : Nat) → List Machine → Machine → Option (List Machine × Machine)
  | 0, states, m => some (states, m)
  | count + 1, states, m =>
      match step host m .silent with
      | .done .running m' _ =>
          if depth < m'.frames.length ∧ base < m'.stack.length then
            runBody host depth base count (m :: states) m'
          else none
      | _ => none

lemma Body.of_runBody {depth count : Nat} {states' : List Machine}
    (past : Body host depth base entry states m)
    (hrun : runBody host depth base count states m = some (states', m')) :
    Body host depth base entry states' m' := by
  induction count generalizing states m with
  | zero =>
      cases hrun
      exact past
  | succ count ih =>
      rw [runBody] at hrun
      split at hrun
      case h_1 m₁ journal₁ hstep =>
        split at hrun
        case isTrue hgood => exact ih (past.step hstep hgood.1 hgood.2) hrun
        case isFalse => cases hrun
      case h_2 => cases hrun

/-- A script up to where it calls a closure that has captured its variable in slot 1.
The closure stores 42 there, calls the clock and returns the time. -/
def calling : Action Machine Status := do
  let words := [Opcode.constant.toWord, 0, Opcode.setUpvalue.toWord, 0, Opcode.getNative.toWord, 0,
    Opcode.call.toWord, 0, Opcode.ret.toWord]
  let inner ← onHeap (Heap.alloc .function
    ⟨"inner", 0, 1, ⟨words.toArray, .empty, #[], .ofList [.scalar (.int 42)]⟩⟩)
  let words := [Opcode.constant.toWord, 0, Opcode.closure.toWord, 1, 1, 1, Opcode.call.toWord, 0]
  let script ← onHeap (Heap.alloc .function
    ⟨"", 0, 0, ⟨words.toArray, .empty, #[], .ofList [.scalar (.int 7), .function inner]⟩⟩)
  start script
  let _ ← step solitary
  step solitary

/-- Whether a closure is entered and returns after a number of instructions. -/
def returnsAfter (host : Host) (count : Nat) (m : Machine) : Bool :=
  match step host m .silent with
  | .done .running m₁ _ => m₁.frames.length = m.frames.length + 1 &&
      match runBody host m.frames.length m₁.frame.base count [] m₁ with
      | some (_, m₂) =>
          match step host m₂ .silent with
          | .done _ m' _ => m'.frames.length = m.frames.length
          | _ => false
      | none => false
  | _ => false

lemma exists_of_returnsAfter {count : Nat} (h : returnsAfter host count m = true) :
    ∃ m₁ m₂ m' states journal₁ status journal₂,
      step host m .silent = .done .running m₁ journal₁ ∧ m₁.frames.length = m.frames.length + 1 ∧
      Body host m.frames.length m₁.frame.base m₁ states m₂ ∧
      step host m₂ .silent = .done status m' journal₂ ∧ m'.frames.length = m.frames.length := by
  rw [returnsAfter] at h
  split at h
  case h_2 => cases h
  case h_1 m₁ journal₁ henter =>
    obtain ⟨hentered, h⟩ := (Bool.and_eq_true _ _).mp h
    split at h
    case h_2 => cases h
    case h_1 states m₂ hbody =>
      split at h
      case h_2 => cases h
      case h_1 status m' journal₂ hreturn =>
        exact ⟨m₁, m₂, m', states, journal₁, status, journal₂, henter, of_decide_eq_true hentered,
          .of_runBody .nil hbody, hreturn, of_decide_eq_true h⟩

/-- A call that stores into a variable of its caller returns. -/
theorem calls_isolate_capturing : ∃ m m₁ m₂ m' states, Reachable solitary m ∧
    m.nextOpcode? = some .call ∧ (∃ journal, step solitary m .silent = .done .running m₁ journal) ∧
    m₁.frames.length = m.frames.length + 1 ∧
    Body solitary m.frames.length m₁.frame.base m₁ states m₂ ∧
    (∃ status journal, step solitary m₂ .silent = .done status m' journal) ∧
    m'.frames.length = m.frames.length ∧
    Resumed .call m₁.frame.base states (m₂.stack.get? (m₂.stack.length - 1)) m m' := by
  have hdeeds : Deeds solitary calling := .seq (loads_function _).deeds fun _ =>
    .seq (loads_function _).deeds fun script => .seq (loads_start script).deeds fun _ =>
      .seq (.one .step) fun _ => .one .step
  obtain ⟨m, hm, hop, hreturns⟩ := exists_reachable
    (p := fun m => m.nextOpcode? = some .call ∧ returnsAfter solitary 4 m = true) hdeeds
    (by decide +kernel)
  obtain ⟨m₁, m₂, m', states, journal₁, status, journal₂, henter, hentered, hbody, hreturn, hback⟩ :=
    exists_of_returnsAfter hreturns
  obtain ⟨-, -, -, hresumed⟩ := calls_isolate hop henter hentered hbody hreturn hback
  exact ⟨m, m₁, m₂, m', states, hm, hop, ⟨journal₁, henter⟩, hentered, hbody,
    ⟨status, journal₂, hreturn⟩, hback, hresumed⟩

end ScriptMachine.Machine
