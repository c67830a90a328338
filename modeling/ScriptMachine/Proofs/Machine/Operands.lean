import ScriptMachine.Proofs.Machine.Instructions
import ScriptMachine.Proofs.Stack

/-!
Operands on top of the stack.

The operand stack is read as a list with the top at its end, so that an action which
works on the top values is described by the list before and the list after.

* `peek?_eq`: the values below the top, counted from the end of the list;
* `setPeek_of_top`: the top value is replaced;
* `binary_of_operands`: two operands are replaced by a result.
-/

namespace ScriptMachine

namespace Stack

variable {α : Type} {s : Stack α} {rest : List α} {value : α}

lemma length_eq (s : Stack α) : s.length = s.toList.length := Array.length_toList.symm

@[simp] lemma toList_push (s : Stack α) (value : α) :
    (s.push value).toList = s.toList ++ [value] := by
  rw [toList, push_items, Array.toList_push]
  rfl

lemma peek?_eq (s : Stack α) (distance : Nat) : s.peek? distance = s.toList.reverse[distance]? := by
  unfold peek?
  split
  case isTrue hlt =>
    rw [List.getElem?_reverse (by simpa [toList] using hlt), toList, Array.getElem?_toList,
      Array.length_toList]
    congr 1
    omega
  case isFalse hge =>
    refine (List.getElem?_eq_none ?_).symm
    simpa [toList] using hge

lemma peek?_of_top (h : s.toList = rest ++ [value]) : s.peek? 0 = some value := by
  rw [peek?_eq, h]
  simp

lemma pop_of_top (h : s.toList = rest ++ [value]) :
    s.pop.1 = some value ∧ s.pop.2.toList = rest := by
  constructor
  · have hlast : s.items.toList.getLast? = some value := by
      rw [← toList, h, List.getLast?_append_of_ne_nil _ (by simp), List.getLast?_singleton]
    simpa [pop] using hlast
  · have hinit : s.pop.2.toList = s.toList.dropLast := Array.toList_pop
    rw [hinit, h, List.dropLast_concat]

lemma set_of_top [Inhabited α] {old : α} (h : s.toList = rest ++ [old]) :
    (s.set (s.length - 1) value).2.toList = rest ++ [value] := by
  have hlength : s.length = rest.length + 1 := by
    rw [length_eq, h, List.length_append, List.length_singleton]
  have hlt : s.length - 1 < s.items.size := Nat.sub_lt (by omega) Nat.one_pos
  have hset : (s.set (s.length - 1) value).2.toList = s.toList.set rest.length value := by
    rw [set, if_pos hlt, hlength, Nat.add_sub_cancel]
    exact Array.toList_setIfInBounds
  rw [hset, h, List.set_append_right _ _ (Nat.le_refl _), Nat.sub_self]
  rfl

end Stack

namespace Machine

open ScriptMachine.Action

variable {m : Machine} {rest : List Value} {a b value : Value}

/-- A machine with another operand stack. -/
def withStack (m : Machine) (stack : Stack Value) : Machine := { m with stack := stack }

@[simp] lemma withStack_heap (m : Machine) (stack : Stack Value) :
    (m.withStack stack).heap = m.heap := rfl

@[simp] lemma withStack_stack (m : Machine) (stack : Stack Value) :
    (m.withStack stack).stack = stack := rfl

lemma pop_apply (m : Machine) (journal : Journal) :
    pop m journal = .done (m.stack.pop.1.getD .null) (m.withStack m.stack.pop.2) journal := rfl

/-- The top value is replaced. -/
lemma setPeek_of_top (htop : m.stack.toList = rest ++ [a]) (value : Value) (journal : Journal) :
    ∃ stack, setPeek 0 value m journal = .done () (m.withStack stack) journal ∧
      stack.toList = rest ++ [value] := by
  refine ⟨(m.stack.set (m.stack.length - 1) value).2, ?_, Stack.set_of_top htop⟩
  have hlength : ¬ m.stack.length < 0 + 1 := by
    rw [Stack.length_eq, htop, List.length_append, List.length_singleton]
    omega
  rw [setPeek, get_bind, if_neg hlength]
  rfl

/-- Two operands are replaced by the result of an operation on them. -/
lemma binary_of_operands {op : Heap → Value → Value → Result Value}
    (htop : m.stack.toList = rest ++ [a, b]) (hop : op m.heap a b = .ok value) (journal : Journal) :
    ∃ stack, binary op m journal = .done () (m.withStack stack) journal ∧
      stack.toList = rest ++ [value] := by
  have htop' : m.stack.toList = (rest ++ [a]) ++ [b] := by simpa using htop
  obtain ⟨hpop, hrest⟩ := Stack.pop_of_top htop'
  have hpeek : m.stack.pop.2.peek? 0 = some a := Stack.peek?_of_top hrest
  obtain ⟨stack, hset, hstack⟩ := setPeek_of_top (m := m.withStack m.stack.pop.2) hrest value journal
  refine ⟨stack, ?_, hstack⟩
  rw [binary, bind_of_done (pop_apply m journal), peek_bind, get_bind, hpop, withStack_stack, hpeek]
  simp only [Option.getD_some, withStack_heap, hop, lift_ok, pure_bind]
  exact hset

end Machine

end ScriptMachine
