import ScriptMachine.Proofs.Machine.Reachable
import ScriptMachine.Proofs.Stack

/-!
What closing does to a captured variable.

An upvalue that is closed holds the value of its slot, from then on until an
instruction stores into it.

* `Move.closes`: which upvalues are closed, with which values;
* `Ready.step_of_boundary`: the two instructions that close upvalues;
* `Unstored.retains`: what holds until something is stored;
* `Reachable.closing_keeps`: programs read what the variable held.
-/

namespace ScriptMachine.Machine

open ScriptMachine.Action

variable {host : Host} {m m' : Machine} {ref : Ref .upvalue} {slot first : Nat} {value : Value}

/-! ### Closing -/

/-- Closing reaches exactly the upvalues that name a slot from the boundary on. -/
lemma Move.closes (hm : Move (some first) m m') (ht : m.Tracked) :
    (∀ ref slot, m.OpenAt ref slot → first ≤ slot →
      m'.Closed ref ((m.stack.get? slot).getD .null)) ∧
    ∀ ref, (∀ slot, m.OpenAt ref slot → slot < first) → m'.heap.get? ref = m.heap.get? ref := by
  cases hm with
  | close before listed lower higher others =>
      refine ⟨fun ref slot hopen hle => ?_, fun ref hlow => others ref fun hmem => ?_⟩
      · have hmem := (ht.open_iff ref).mpr ⟨slot, hopen⟩
        rw [before, List.mem_append] at hmem
        rcases hmem with hmem | hmem
        · obtain ⟨i, hlt, hi⟩ := lower ref hmem
          have := hi.slot_eq hopen
          omega
        · obtain ⟨i, -, hi, hclosed⟩ := higher ref hmem
          exact hi.slot_eq hopen ▸ hclosed
      · obtain ⟨i, hle, hi, -⟩ := higher ref hmem
        have := hlow i hi
        omega

/-- The number of slots whose values the next instruction leaves for upvalues. The
result of a return is gone before upvalues are closed. -/
def readable (m : Machine) : Nat :=
  if m.nextOpcode? = some .ret then m.stack.length - 1 else m.stack.length

/-- What the upvalue of a slot is closed with: the value of the slot, if it is readable. -/
def saved (m : Machine) (slot : Nat) : Value :=
  if slot < m.readable then (m.stack.get? slot).getD .null else .null

/-- A slot that is readable has a value. -/
lemma get?_of_lt_readable (hlt : slot < m.readable) : m.stack.get? slot = some (m.saved slot) := by
  have hlength : m.readable ≤ m.stack.length := by
    unfold readable
    split <;> omega
  obtain ⟨value, hvalue⟩ : ∃ value, m.stack.get? slot = some value := by
    refine Option.ne_none_iff_exists'.mp fun hnone => ?_
    have := (Stack.get?_eq_none_iff slot).mp hnone
    omega
  rw [saved, if_pos hlt, hvalue]
  rfl

/-- The upvalues from a slot on are closed, those that name a readable slot with
its value, and the others are as they were. -/
structure ClosedFrom (first : Nat) (m m' : Machine) : Prop where
  closed : ∀ ref slot, m.OpenAt ref slot → first ≤ slot → m'.Closed ref (m.saved slot)
  others : ∀ ref, (∀ slot, m.OpenAt ref slot → slot < first) → m'.heap.get? ref = m.heap.get? ref

/-- Upvalues are closed while the stack has its readable slots, and no others. -/
lemma Ready.closedFrom {m₁ : Machine} (hr : m.Ready) (hsame : Untouched m m₁)
    (hstack : ∀ slot, (m₁.stack.get? slot).getD .null = m.saved slot) (first : Nat)
    (journal : Journal) :
    ∃ heap below, Machine.closeUpvalues first m₁ journal =
        .done () { m₁ with heap := heap, openUpvalues := below } journal ∧
      ∀ m', m'.heap = heap → ClosedFrom first m m' := by
  have hr₁ := hsame.ready hr
  obtain ⟨heap, below, hrun, hmove, -⟩ := hr₁.closeUpvalues first journal
  obtain ⟨hclosed, hothers⟩ := hmove.closes hr₁.toTracked
  have hopen : ∀ ref slot, m.OpenAt ref slot ↔ m₁.OpenAt ref slot := by
    intro ref slot
    rw [OpenAt, OpenAt, hsame.heap]
  refine ⟨heap, below, hrun, ?_⟩
  rintro m' rfl
  refine ⟨fun ref slot hslot hle => ?_, fun ref hlow => ?_⟩
  · exact hstack slot ▸ hclosed ref slot ((hopen ref slot).mp hslot) hle
  · rw [hothers ref fun slot hslot => hlow slot ((hopen ref slot).mpr hslot), hsame.heap]

/-- A value that is popped leaves an unreadable slot. -/
lemma getD_get?_pop (hop : m.nextOpcode? = some .ret) (slot : Nat) :
    (m.stack.pop.2.get? slot).getD .null = m.saved slot := by
  have hreadable : m.readable = m.stack.length - 1 := if_pos hop
  unfold saved
  split
  · rename_i hlt
    rw [m.stack.get?_pop_of_lt slot (hreadable ▸ hlt)]
  · rename_i hge
    have hnone : m.stack.pop.2.get? slot = none := by
      rw [Stack.get?_eq_none_iff, Stack.length_pop]
      omega
    rw [hnone]
    rfl

lemma closeTop_apply (m : Machine) (journal : Journal) :
    closeTop m journal = if m.stack.length = 0 then .aborted .wordOverflow else
      (closeUpvalues (m.stack.length - 1) >>= fun _ => pop >>= fun _ => pure ()) m journal := by
  rw [closeTop, get_bind]
  split <;> rfl

/-- What a return does once its upvalues are closed. -/
lemma ret_of_closed {m m₁ : Machine} {journal journal₁ : Journal}
    (hclose : closeUpvalues m.frame.base { m with stack := m.stack.pop.2 } journal =
      .done () m₁ journal₁) :
    ret m journal = match m₁.frames with
      | frame :: frames => .done .running { m₁ with
          frame := frame
          frames := frames
          stack := (m₁.stack.truncate m.frame.base).push (m.stack.pop.1.getD .null) } journal₁
      | [] => .done .finished { m₁ with stack := m₁.stack.truncate m.frame.base } journal₁ := by
  have hpop : pop m journal =
      .done (m.stack.pop.1.getD .null) { m with stack := m.stack.pop.2 } journal := rfl
  have htruncate : truncate m.frame.base m₁ journal₁ =
      .done () { m₁ with stack := m₁.stack.truncate m.frame.base } journal₁ := rfl
  rw [ret, bind_of_done hpop, get_bind, bind_of_done hclose, bind_of_done htruncate, get_bind]
  cases m₁.frames <;> rfl

/-- The two instructions that close upvalues. They raise no errors, and only
closing the top slot of an empty stack is not possible. -/
lemma Ready.step_of_boundary (hr : m.Ready) (hfirst : first ∈ m.boundary?) (journal : Journal) :
    (step host m journal).Ends (fun _ m' => ClosedFrom first m m') (fun _ _ => False)
      fun _ => m.nextOpcode? = some .closeUpvalue ∧ m.stack.length = 0 := by
  rw [boundary?] at hfirst
  split at hfirst
  case h_1 hop =>
    obtain ⟨journal', hstep⟩ := step_of_next host hop journal
    rw [hstep, if_neg (by decide)]
    obtain rfl := Option.some.inj hfirst
    -- closing the top slot: all of the stack can still be read
    have hreadable : m.readable = m.stack.length := by
      rw [readable, hop]
      rfl
    have hmoved : Untouched m (m.movedTo (m.frame.ip + 1)) := of_run m _ _ _ _
    have hsaved : ∀ slot, (m.stack.get? slot).getD .null = m.saved slot := by
      intro slot
      unfold saved
      split
      · rfl
      · rename_i hge
        rw [(Stack.get?_eq_none_iff slot).mpr (by omega)]
        rfl
    obtain ⟨heap, below, hrun, hclosed⟩ := hr.closedFrom hmoved hsaved (m.stack.length - 1) journal'
    rw [execute, bind_apply, closeTop_apply, movedTo_stack]
    by_cases hempty : m.stack.length = 0
    · rw [if_pos hempty]
      exact ⟨hop, hempty⟩
    · rw [if_neg hempty, bind_of_done hrun]
      exact hclosed _ rfl
  -- a return pops its result first, and closes from the base of the frame
  case h_2 hop =>
    obtain ⟨journal', hstep⟩ := step_of_next host hop journal
    rw [hstep, if_pos rfl]
    obtain rfl := Option.some.inj hfirst
    have hpopped : Untouched m { m.movedTo (m.frame.ip + 1) with stack := m.stack.pop.2 } :=
      of_run m _ _ _ _
    obtain ⟨heap, below, hrun, hclosed⟩ := hr.closedFrom hpopped (getD_get?_pop hop) m.frame.base journal'
    rw [ret_of_closed hrun]
    split
    · exact hclosed _ rfl
    · exact hclosed _ rfl
  case h_3 => cases hfirst

/-! ### Until something is stored -/

/-- The machines that a machine becomes, within a run or over several ones, before
an instruction stores into an upvalue. -/
inductive Unstored (host : Host) (ref : Ref .upvalue) (m : Machine) : Machine → Prop
  | now : Unstored host ref m m
  | step {m₁ m₂ : Machine} {journal : Journal} (past : Unstored host ref m m₁)
      (other : ¬ m₁.StoresInto ref) (run : (step host m₁ journal).state? = some m₂) :
      Unstored host ref m m₂
  | use {m₁ m₂ : Machine} {α : Type} {action : Action Machine α} {journal : Journal}
      (past : Unstored host ref m m₁) (use : Use Tending action)
      (run : (action m₁ journal).state? = some m₂) : Unstored host ref m m₂

/-- Until something is stored, a closed upvalue holds its value. -/
lemma Unstored.retains (hu : Unstored host ref m m') (htame : host.Tame) :
    Retains (· = ref) (fun _ => True) m m' := by
  induction hu with
  | now => exact refl_of (Retains _ _) m
  | @step m₁ m₂ journal past other run ih =>
      have hstep : RetainsFrom (· = ref) (· ∈ m₁.boundary?) m₁ (Machine.step host m₁ journal) := by
        refine retainsFrom_step htame ?_ journal
        rintro r hstore rfl
        exact other hstore
      have hretains : Retains (· = ref) (· ∈ m₁.boundary?) m₁ m₂ := hstep.of_state? run
      exact trans_of _ ih (hretains.mono fun _ _ => trivial)
  | use past use run ih => exact trans_of _ ih (use.within.of_state? run)

/-- The next instruction pushes the value of an upvalue. -/
def ReadsFrom (m : Machine) (ref : Ref .upvalue) : Prop :=
  m.nextOpcode? = some .getUpvalue ∧ m.upvalueAt? (m.frame.ip + 1) = some ref

lemma getUpvalue_ends (href : m.upvalueAt? m.frame.ip = some ref)
    (hclosed : ∀ content, m.heap.get? ref = some content → content = .closed value)
    (journal : Journal) :
    (getUpvalue m journal).Ends
      (fun _ m' => m' = { m.movedTo (m.frame.ip + 1) with stack := m.stack.push value })
      (fun _ _ => False) fun _ => m.heap.get? ref = none := by
  obtain ⟨word, hword, href⟩ := Option.bind_eq_some_iff.mp href
  have hupvalue : upvalue word.toNat (m.movedTo (m.frame.ip + 1)) journal =
      .done ref (m.movedTo (m.frame.ip + 1)) journal := 
    upvalue_of_some (m := m.movedTo (m.frame.ip + 1)) href journal
  rw [getUpvalue, bind_of_done (fetchNat_of_word hword journal), bind_of_done hupvalue, get_bind,
    movedTo_heap]
  cases hget : m.heap.get? ref with
  | none =>
      rw [Heap.read_of_none hget]
      exact rfl
  | some content =>
      cases hclosed content hget
      rw [Heap.read_of_get? hget]
      exact rfl

/-- Reading from an upvalue that is closed. -/
lemma step_of_readsFrom (hread : m.ReadsFrom ref)
    (hclosed : ∀ content, m.heap.get? ref = some content → content = .closed value)
    (journal : Journal) :
    (step host m journal).Ends
      (fun _ m' => m' = { m.movedTo (m.frame.ip + 2) with stack := m.stack.push value })
      (fun _ _ => False) fun _ => m.heap.get? ref = none := by
  obtain ⟨journal', hstep⟩ := step_of_next host hread.1 journal
  rw [hstep, if_neg (by decide)]
  have hget : (getUpvalue (m.movedTo (m.frame.ip + 1)) journal').Ends _ _ _ :=
    getUpvalue_ends (m := m.movedTo (m.frame.ip + 1)) hread.2 hclosed journal'
  exact hget.bind fun _ _ _ h => h

/-- Whatever a machine becomes before something is stored into a closed upvalue, an
instruction that reads from it pushes the value. Only an upvalue that is gone
cannot be read. The id of one that was freed could be another upvalue only after its
slot of the heap was freed as often as there are generations. -/
def Yields (host : Host) (m : Machine) (ref : Ref .upvalue) (value : Value) : Prop :=
  ∀ m', Unstored host ref m m' →
    m'.heap.frees ref.id.index < m.heap.frees ref.id.index + UInt32.size →
    m'.ReadsFrom ref → ∀ journal, (step host m' journal).Ends
      (fun _ m'' => m'' = { m'.movedTo (m'.frame.ip + 2) with stack := m'.stack.push value })
      (fun _ _ => False) fun _ => m'.heap.get? ref = none

lemma Ready.yields (hr : m.Ready) (htame : host.Tame) (hclosed : m.Closed ref value) :
    Yields host m ref value := by
  intro m' hu hfew hread journal
  obtain ⟨ht, hkept⟩ := hu.retains htame hr
  refine step_of_readsFrom hread (fun content hget => ?_) journal
  have hsame := ht.frees_eq (Heap.contains_of_get? hclosed) (Heap.contains_of_get? hget) hfew
  exact Option.some.inj (hget.symm.trans (hkept ref value rfl hsame hclosed))

/-- An instruction that closes upvalues always succeeds, unless it is to close the
top slot of an empty stack. Each open upvalue from the boundary on becomes closed,
with the value that its slot held if the slot is readable, and with null otherwise.
All other upvalues are as they were. What an upvalue was closed with is what programs
read from it, until they store into it. -/
theorem Reachable.closing_keeps (hm : Reachable host m) (htame : host.Tame)
    (hfirst : first ∈ m.boundary?) (journal : Journal) :
    (step host m journal).Ends
      (fun _ m' =>
        (∀ ref slot, m.OpenAt ref slot → first ≤ slot → ∃ value, m'.Closed ref value ∧
          (slot < m.readable → m.stack.get? slot = some value) ∧
          (m.readable ≤ slot → value = .null) ∧ Yields host m' ref value) ∧
        ∀ ref, (∀ slot, m.OpenAt ref slot → slot < first) → m'.heap.get? ref = m.heap.get? ref)
      (fun _ _ => False) fun _ => m.nextOpcode? = some .closeUpvalue ∧ m.stack.length = 0 := by
  have hr := hm.ready htame
  have hclosing : (step host m journal).Ends _ _ _ := hr.step_of_boundary hfirst journal
  cases hrun : step host m journal with
  | aborted fault => exact hclosing.of_aborted hrun
  | raised error m' journal' => exact hclosing.of_raised hrun
  | done status m' journal' =>
      have hclosed := hclosing.of_done hrun
      have hr' := (hm.done (.one .step) hrun).ready htame
      refine ⟨fun ref slot hopen hle => ?_, hclosed.others⟩
      have hvalue := hclosed.closed ref slot hopen hle
      exact ⟨_, hvalue, get?_of_lt_readable, fun hge => if_neg (Nat.not_lt.mpr hge),
        hr'.yields htame hvalue⟩

/-- A run up to where a closure has captured the variable in slot 1, which holds 7,
and slot 5, which is past the end of the stack. -/
def capturingPast (rest : List Opcode) : Action Machine Status := do
  let inner ← onHeap (Heap.alloc .function ⟨"inner", 0, 2, .empty⟩)
  let words := [Opcode.constant.toWord, 0, Opcode.closure.toWord, 1, 1, 1, 1, 5] ++
    rest.map Opcode.toWord
  let script ← onHeap (Heap.alloc .function
    ⟨"", 0, 0, ⟨words.toArray, .empty, #[], .ofList [.scalar (.int 7), .function inner]⟩⟩)
  start script
  let _ ← step solitary
  step solitary

lemma deeds_capturingPast (rest : List Opcode) : Deeds solitary (capturingPast rest) := by
  refine .seq (loads_function _).deeds fun inner => .seq (loads_function _).deeds fun script => ?_
  exact .seq (loads_start script).deeds fun _ => .seq (.one .step) fun _ => .one .step

/-- A return with the closure as its result leaves 7 in the upvalue of slot 1. If the
variable in slot 1 is itself the result, it leaves null there. -/
theorem Reachable.closing_keeps_captured : solitary.Tame ∧ ∃ m m₁, Reachable solitary m ∧
    Reachable solitary m₁ ∧ (0 ∈ m.boundary? ∧ m.readable = 2) ∧
    (0 ∈ m₁.boundary? ∧ m₁.readable = 1) ∧ m.stack.get? 1 = some (.scalar (.int 7)) ∧
    m₁.stack.get? 1 = some (.scalar (.int 7)) ∧ ∃ ref ref₁, m.OpenAt ref 1 ∧ m₁.OpenAt ref₁ 1 ∧
    ∀ journal,
      (step solitary m journal).Ends
        (fun _ m' => m'.Closed ref (.scalar (.int 7)) ∧ Yields solitary m' ref (.scalar (.int 7)))
        (fun _ _ => False) (fun _ => m.nextOpcode? = some .closeUpvalue ∧ m.stack.length = 0) ∧
      (step solitary m₁ journal).Ends
        (fun _ m' => m'.Closed ref₁ .null ∧ Yields solitary m' ref₁ .null)
        (fun _ _ => False) fun _ => m₁.nextOpcode? = some .closeUpvalue ∧ m₁.stack.length = 0 := by
  obtain ⟨m, hm, hfirst, hreadable, hvalue, ref, -, hopen⟩ := exists_reachable
    (p := fun m => m.boundary? = some 0 ∧ m.readable = 2 ∧
      m.stack.get? 1 = some (.scalar (.int 7)) ∧
      ∃ ref ∈ m.openUpvalues, (m.heap.get? ref : Option Upvalue) = some (.opened 1))
    (deeds_capturingPast [.ret]) (by decide +kernel)
  obtain ⟨m₁, hm₁, hfirst₁, hreadable₁, hvalue₁, ref₁, -, hopen₁⟩ := exists_reachable
    (p := fun m => m.boundary? = some 0 ∧ m.readable = 1 ∧
      m.stack.get? 1 = some (.scalar (.int 7)) ∧
      ∃ ref ∈ m.openUpvalues, (m.heap.get? ref : Option Upvalue) = some (.opened 1))
    (.seq (deeds_capturingPast [.pop, .ret]) fun _ => .one .step) (by decide +kernel)
  refine ⟨solitary_tame, m, m₁, hm, hm₁, ⟨hfirst, hreadable⟩, ⟨hfirst₁, hreadable₁⟩, hvalue, hvalue₁,
    ref, ref₁, hopen, hopen₁, fun journal => ⟨?_, ?_⟩⟩
  · refine (hm.closing_keeps solitary_tame hfirst journal).imp_done fun _ m' h => ?_
    obtain ⟨value, hclosed, hslot, -, hyields⟩ := h.1 ref 1 hopen (Nat.zero_le 1)
    obtain rfl := Option.some.inj ((hslot (by omega)).symm.trans hvalue)
    exact ⟨hclosed, hyields⟩
  · refine (hm₁.closing_keeps solitary_tame hfirst₁ journal).imp_done fun _ m' h => ?_
    obtain ⟨value, hclosed, -, hnull, hyields⟩ := h.1 ref₁ 1 hopen₁ (Nat.zero_le 1)
    obtain rfl := hnull (Nat.le_of_eq hreadable₁)
    exact ⟨hclosed, hyields⟩

end ScriptMachine.Machine
