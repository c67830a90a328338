import Mathlib.Data.List.TakeWhile
import Mathlib.Logic.Relation
import ScriptMachine.Proofs.Heap.Array
import ScriptMachine.Proofs.Machine.Jumps
import ScriptMachine.Proofs.Machine.Operands
import ScriptMachine.Proofs.Machine.Reachable

/-!
Loops over containers.

A loop keeps a container and a cursor on the stack. Each round takes the element at
the cursor, and the loop is left when it takes null, which stands for the end of the
container but can be an element as well.

* `Elements.each`: what is taken at an index;
* `step_of_each`, `step_of_jumpIfNull`: the two instructions at the head of a loop;
* `Rounds.taking`: where a loop stands after some rounds, whatever its body does;
* `Rounds.of_dropping`: a loop whose body only drops the elements;
* `Reachable.iteration_visits`: the elements before the first null are visited, each
  once and in order.
-/

namespace ScriptMachine.Machine

open Relation (ReflTransGen)
open ScriptMachine.Action

variable {host : Host} {h : Heap} {m : Machine} {container value : Value}
  {below es visited : List Value} {index : Nat} {journal : Journal} {s s₁ : Machine × Journal}

/-! ### What is taken -/

/-- The elements of an array, a vector or a stack, in order. -/
inductive Elements (h : Heap) : Value → List Value → Prop
  | array {ref : Ref .array} {scalars : List Scalar} (listed : h.arrayElements ref = .ok scalars) :
      Elements h (.scalar (.array ref)) (scalars.map .scalar)
  | vector {ref : Ref .vector} {content : Stack Scalar} (live : h.get? ref = some content) :
      Elements h (.vector ref) (content.toList.map .scalar)
  | stack {ref : Ref .stack} {content : Stack Value} (live : h.get? ref = some content) :
      Elements h (.stack ref) content.toList

/-- The element at an index is taken, and null past the end. -/
lemma Elements.each (he : Elements h container es) (hs : h.Sound) (index : Nat) :
    Container.each h container index = .ok (es[index]?.getD .null) := by
  cases he with
  | @array ref scalars listed =>
      cases hget : h.get? ref with
      | none =>
          rw [Heap.arrayElements, Heap.read_of_none hget] at listed
          cases listed
      | some content =>
          obtain ⟨entry, hfind, hobject⟩ := Heap.get?_eq_some_iff.mp hget
          rw [hs.arrayElements hfind hobject] at listed
          cases listed
          rw [Container.each, hs.arrayGet? hfind hobject]
          by_cases hlt : index < content.length <;>
            simp [hlt, bind, Except.bind, pure, Except.pure]
  | vector live =>
      rw [Container.each, Heap.read_of_get? live, List.getElem?_map, Stack.toList,
        Array.getElem?_toList]
      rfl
  | stack live =>
      rw [Container.each, Heap.read_of_get? live, Stack.toList, Array.getElem?_toList]
      rfl

/-! ### The instructions at the head of a loop -/

/-- A cursor that stands at an index. -/
def cursorAt (index : Nat) : Value := .scalar (.int (.ofNat index))

lemma cursorPosition_ofNat (hlt : index < 2147483648) : cursorPosition (.ofNat index) = index := by
  have hle : (index : Int) ≤ Int32.maxValue.toInt := by
    have hmax : Int32.maxValue.toInt = 2147483647 := by decide
    omega
  rw [cursorPosition, Int32.toInt64_ofNat' hle, Int64.toUInt64_ofNat', UInt64.toNat_ofNat_of_lt']
  exact Nat.lt_trans hlt (by decide)

/-- The element at the cursor is taken and the cursor moves on. -/
lemma step_of_each (host : Host) (hnext : m.nextOpcode? = some .each)
    (htop : m.stack.toList = below ++ [container, cursorAt index]) (hlt : index < 2147483647)
    (hvalue : Container.each m.heap container index = .ok value) (journal : Journal) :
    ∃ stack journal', step host m journal =
        .done .running ((m.movedTo (m.frame.ip + 1)).withStack stack) journal' ∧
      stack.toList = below ++ [container, cursorAt (index + 1), value] := by
  obtain ⟨journal', hstep⟩ := step_of_next host hnext journal
  have htop' : (m.movedTo (m.frame.ip + 1)).stack.toList =
      (below ++ [container]) ++ [cursorAt index] := by simpa using htop
  obtain ⟨stack, hset, hstack⟩ := setPeek_of_top htop' (cursorAt (index + 1)) journal'
  refine ⟨stack.push value, journal', hstep.trans ?_, by simp [hstack]⟩
  have hfits : fitsInt ((Int32.ofNat index).toInt + 1) = true := by
    rw [Int32.toInt_ofNat_of_lt (by omega), fitsInt]
    simp only [Bool.and_eq_true, decide_eq_true_eq]
    omega
  have hmoved : Int32.ofNat index + 1 = Int32.ofNat (index + 1) := (Int32.ofNat_add index 1).symm
  have hcursor := Stack.peek?_of_top htop'
  have hcontainer : (m.movedTo (m.frame.ip + 1)).stack.peek? 1 = some container := by
    rw [Stack.peek?_eq, htop']
    simp
  rw [if_neg (by decide), execute, Machine.each, bind_assoc, peek_bind, hcursor]
  simp only [Option.getD_some, cursorAt]
  rw [bind_assoc, peek_bind, hcontainer, bind_assoc, get_bind, movedTo_heap, Option.getD_some,
    cursorPosition_ofNat (by omega), hvalue, lift_ok, pure_bind, hfits, hmoved, if_neg (by decide),
    bind_assoc]
  exact bind_of_done hset

/-- The loop is left when null was taken. -/
lemma step_of_jumpIfNull (host : Host) {word : UInt16} (hnext : m.nextOpcode? = some .jumpIfNull)
    (hword : m.wordAt? (m.frame.ip + 1) = some word) (htop : m.stack.toList = below ++ [value])
    (journal : Journal) : ∃ journal', step host m journal = .done .running
      (m.movedTo (m.frame.ip + 2 + if value.isNull then word.toNat else 0)) journal' := by
  obtain ⟨journal', hstep⟩ := step_of_next host hnext journal
  refine ⟨journal', hstep.trans ?_⟩
  have hfetch := fetchNat_of_word (m := m.movedTo (m.frame.ip + 1)) hword journal'
  have hpeek := Stack.peek?_of_top htop
  rw [if_neg (by decide), execute, jumpIf, bind_assoc, bind_of_done hfetch, bind_assoc, peek_bind,
    movedTo_stack, movedTo_stack, hpeek, Option.getD_some]
  cases value.isNull <;> rfl

lemma step_of_pop (host : Host) (hnext : m.nextOpcode? = some .pop) (journal : Journal) :
    ∃ journal', step host m journal =
      .done .running ((m.movedTo (m.frame.ip + 1)).withStack m.stack.pop.2) journal' := by
  obtain ⟨journal', hstep⟩ := step_of_next host hnext journal
  refine ⟨journal', hstep.trans ?_⟩
  rw [if_neg (by decide), execute, bind_assoc, bind_of_done (pop_apply _ journal')]
  rfl

lemma next_of_word {op : Opcode} (hword : m.wordAt? m.frame.ip = some op.toWord) :
    m.nextOpcode? = some op := by
  rw [nextOpcode?_eq, hword]
  exact Opcode.ofWord?_toWord op

lemma about_of_word {op : Opcode} (hword : m.wordAt? m.frame.ip = some op.toWord) :
    ∃ c : Code.Chunk, m.About c m.frame.ip op ∧ ∀ ip, m.wordAt? ip = c.code[ip]? := by
  obtain ⟨function, hget, hcode⟩ := Option.bind_eq_some_iff.mp hword
  refine ⟨function.chunk, ⟨⟨function, hget, rfl⟩, rfl, hcode⟩, fun ip => ?_⟩
  rw [wordAt?, hget]
  rfl

/-! ### Rounds -/

/-- The values before the first null. -/
def untilNull (es : List Value) : List Value := es.takeWhile fun value => !value.isNull

/-- The value behind some of the values before the first null is null if these are
all of them, and otherwise the next one. -/
lemma next_untilNull (hvisited : visited <+: untilNull es)
    (hvalue : es[visited.length]?.getD .null = value) :
    (value = .null → visited = untilNull es) ∧
    (value ≠ .null → visited ++ [value] <+: untilNull es) := by
  obtain ⟨tail, htail⟩ := hvisited
  have hes : es = visited ++ (tail ++ es.dropWhile fun value => !value.isNull) := by
    rw [← List.append_assoc, htail, untilNull, List.takeWhile_append_dropWhile]
  have hhead : es[visited.length]? = (tail ++ es.dropWhile fun value => !value.isNull).head? := by
    rw [congrArg (·[visited.length]?) hes, List.getElem?_append_right (Nat.le_refl _), Nat.sub_self,
      List.head?_eq_getElem?]
  cases tail with
  | nil =>
      refine ⟨fun _ => by simpa using htail, fun hne => (hne ?_).elim⟩
      rw [← hvalue, hhead, List.nil_append]
      have hnot := List.head?_dropWhile_not (fun value : Value => !value.isNull) es
      cases hdrop : (es.dropWhile fun value => !value.isNull).head? with
      | none => rfl
      | some first =>
          rw [hdrop] at hnot
          simpa [Value.isNull] using hnot
  | cons first tail =>
      have hfirst : value = first := by rw [← hvalue, hhead]; rfl
      have hmem : first ∈ untilNull es := by simp [← htail]
      have hne : first ≠ .null := by simpa [Value.isNull] using List.mem_takeWhile_imp hmem
      refine ⟨fun hnull => (hne (hfirst.symm.trans hnull)).elim, fun _ => ⟨tail, ?_⟩⟩
      rw [hfirst, ← htail]
      simp

/-- Steps that succeed, one after another. -/
def Runs (host : Host) : Machine × Journal → Machine × Journal → Prop :=
  ReflTransGen fun s s' => step host s.1 s.2 = .done .running s'.1 s'.2

/-- The machine is about to take the element at an index of a container. -/
structure Taking (m : Machine) (container : Value) (es : List Value) (index : Nat) : Prop where
  next : m.nextOpcode? = some .each
  top : ∃ below, m.stack.toList = below ++ [container, cursorAt index]
  elements : Elements m.heap container es

/-- Rounds of a loop over a container, with the values that were visited. A round
takes a value other than null and goes on with a body, which may do anything as long
as the loop comes round with the container and the cursor on top and the elements as
they were. -/
inductive Rounds (host : Host) (container : Value) (es : List Value) (s : Machine × Journal) :
    List Value → Machine × Journal → Prop
  | start : Rounds host container es s [] s
  | next {visited below below' : List Value} {position value : Value} {s₁ s₂ s₃ : Machine × Journal}
      (past : Rounds host container es s visited s₁)
      (taken : step host s₁.1 s₁.2 = .done .running s₂.1 s₂.2)
      (left : s₂.1.stack.toList = below ++ [container, position, value]) (found : value ≠ .null)
      (body : Runs host s₂ s₃) (again : s₃.1.nextOpcode? = some .each)
      (kept : s₃.1.stack.toList = below' ++ [container, position])
      (same : Elements s₃.1.heap container es) : Rounds host container es s (visited ++ [value]) s₃

lemma Runs.step {m' : Machine} {journal' : Journal} (hr : Runs host s (m, journal))
    (hstep : Machine.step host m journal = .done .running m' journal') : Runs host s (m', journal') :=
  ReflTransGen.tail hr hstep

lemma Reachable.runs (hm : Reachable host s.1) (hr : Runs host s s₁) : Reachable host s₁.1 := by
  induction hr with
  | refl => exact hm
  | tail _ hstep ih => exact ih.done (.one .step) hstep

lemma Rounds.reachable (hr : Rounds host container es s visited s₁) (hm : Reachable host s.1) :
    Reachable host s₁.1 := by
  induction hr with
  | start => exact hm
  | next _ taken _ _ body _ _ _ ih => exact (ih.done (.one .step) taken).runs body

/-- What is taken behind some of the values before the first null. -/
lemma Taking.step_eq (ht : Taking m container es visited.length) (hvisited : visited <+: untilNull es)
    (hm : Reachable host m) (htame : host.Tame) (hfew : es.length < 2147483647) (journal : Journal) :
    ∃ below stack journal', step host m journal =
        .done .running ((m.movedTo (m.frame.ip + 1)).withStack stack) journal' ∧
      stack.toList =
        below ++ [container, cursorAt (visited.length + 1), es[visited.length]?.getD .null] := by
  obtain ⟨below, htop⟩ := ht.top
  have hle : visited.length ≤ es.length := (hvisited.trans (List.takeWhile_prefix _)).length_le
  have hvalue := ht.elements.each (hm.ready htame).sound visited.length
  exact ⟨below, step_of_each host ht.next htop (by omega) hvalue journal⟩

/-- After some rounds, values before the first null have been visited, and the next
round takes the element behind them. -/
lemma Rounds.taking (hr : Rounds host container es s visited s₁) (hm : Reachable host s.1)
    (htame : host.Tame) (hfirst : Taking s.1 container es 0) (hfew : es.length < 2147483647) :
    Taking s₁.1 container es visited.length ∧ visited <+: untilNull es := by
  induction hr with
  | start => exact ⟨hfirst, List.nil_prefix⟩
  | @next visited below below' position value s₁ s₂ s₃ past taken left found body again kept same ih =>
      obtain ⟨htaking, hvisited⟩ := ih
      obtain ⟨below₂, stack, journal₂, hstep, hstack⟩ :=
        htaking.step_eq hvisited (past.reachable hm) htame hfew s₁.2
      obtain ⟨hm₂, -⟩ := (Outcome.done.inj (taken.symm.trans hstep)).2
      rw [hm₂, withStack_stack, hstack] at left
      -- The two descriptions of the stack agree on its three top values.
      have htop := List.append_inj_right' left rfl
      simp only [List.cons.injEq] at htop
      obtain ⟨-, hposition, hvalue, -⟩ := htop
      refine ⟨⟨again, ⟨below', ?_⟩, same⟩, (next_untilNull hvisited hvalue).2 found⟩
      rw [kept, ← hposition, List.length_append]
      rfl

/-! ### A loop that drops the elements -/

/-- The running function has the given words from the next instruction on. -/
def HasCode (m : Machine) (words : List UInt16) : Prop :=
  ∀ i < words.length, m.wordAt? (m.frame.ip + i) = words[i]?

instance (m : Machine) (words : List UInt16) : Decidable (m.HasCode words) :=
  inferInstanceAs (Decidable (∀ i < words.length, _))

/-- The code of a loop that takes the elements one by one and drops them. -/
def dropping : List UInt16 :=
  [Opcode.each.toWord, Opcode.jumpIfNull.toWord, 3, Opcode.pop.toWord, Opcode.loop.toWord, 6]

/-- A value other than null is dropped and the loop comes round; with null it is left. -/
lemma HasCode.runs_dropping (hcode : m.HasCode dropping) (host : Host) {stack : Stack Value}
    (hstack : stack.toList = below ++ [value]) (journal : Journal) :
    (value ≠ .null → ∃ stack' journal', stack'.toList = below ∧
      Runs host ((m.movedTo (m.frame.ip + 1)).withStack stack, journal)
        (m.withStack stack', journal')) ∧
    (value = .null → ∃ s, s.1.frame.ip = m.frame.ip + dropping.length ∧
      Runs host ((m.movedTo (m.frame.ip + 1)).withStack stack, journal) s) := by
  obtain ⟨journal₁, hjump⟩ := step_of_jumpIfNull
    (m := (m.movedTo (m.frame.ip + 1)).withStack stack) host
    (next_of_word (hcode 1 (by decide))) (hcode 2 (by decide)) hstack journal
  constructor
  · intro hne
    have hstay : value.isNull = false := by simpa [Value.isNull] using hne
    rw [hstay] at hjump
    obtain ⟨journal₂, hpop⟩ := step_of_pop (m := (m.movedTo (m.frame.ip + 3)).withStack stack) host
      (next_of_word (hcode 3 (by decide))) journal₁
    obtain ⟨c, habout, hwords⟩ := about_of_word
      (m := (m.movedTo (m.frame.ip + 4)).withStack stack.pop.2) (hcode 4 (by decide))
    have hoffset : c.code[m.frame.ip + 4 + 1]? = some 6 :=
      (hwords _).symm.trans (hcode 5 (by decide))
    have hback : m.frame.ip + 4 + 2 - UInt16.toNat 6 = m.frame.ip := Nat.add_sub_cancel _ 6
    obtain ⟨journal₃, hloop⟩ := habout.loop hoffset (Nat.le_add_left _ _) host journal₂
    refine ⟨stack.pop.2, journal₃, (Stack.pop_of_top hstack).2, ?_⟩
    exact ((Runs.step .refl hjump).step hpop).step (hback ▸ hloop)
  · rintro rfl
    exact ⟨(_, _), rfl, .step .refl hjump⟩

/-- The loop goes on until it is left, and has then visited the elements before the
first null. -/
lemma Rounds.of_dropping {stack : Stack Value} {journal₁ : Journal} (hm : Reachable host m)
    (htame : host.Tame) (hfirst : Taking m container es 0) (hfew : es.length < 2147483647)
    (hcode : m.HasCode dropping)
    (hr : Rounds host container es (m, journal) visited (m.withStack stack, journal₁)) :
    ∃ s₁ s₂, Rounds host container es (m, journal) (untilNull es) s₁ ∧ Runs host s₁ s₂ ∧
      s₂.1.frame.ip = m.frame.ip + dropping.length := by
  -- The induction is on the number of values that are still to be visited.
  induction hgap : (untilNull es).length - visited.length using Nat.strong_induction_on
    generalizing visited stack journal₁ with
  | _ gap ih =>
      obtain ⟨htaking, hvisited⟩ := hr.taking hm htame hfirst hfew
      obtain ⟨below, stack₂, journal₂, hstep, hstack⟩ :=
        htaking.step_eq hvisited (hr.reachable hm) htame hfew journal₁
      obtain ⟨hended, htaken⟩ := next_untilNull hvisited rfl
      have hstack' : stack₂.toList = (below ++ [container, cursorAt (visited.length + 1)]) ++
          [es[visited.length]?.getD .null] := by simpa using hstack
      have hcode' : (m.withStack stack).HasCode dropping := hcode
      obtain ⟨hround, hleave⟩ := hcode'.runs_dropping host hstack' journal₂
      by_cases hnull : es[visited.length]?.getD .null = .null
      · obtain ⟨s₂, hip, hruns⟩ := hleave hnull
        refine ⟨_, s₂, hended hnull ▸ hr, ?_, hip⟩
        exact ReflTransGen.head hstep hruns
      · obtain ⟨stack₃, journal₃, hkept, hruns⟩ := hround hnull
        have hlength := (htaken hnull).length_le
        rw [List.length_append, List.length_singleton] at hlength
        have hagain : Rounds host container es (m, journal)
            (visited ++ [es[visited.length]?.getD .null]) (m.withStack stack₃, journal₃) :=
          .next hr hstep hstack hnull hruns (next_of_word (hcode 0 (by decide))) hkept
            hfirst.elements
        refine ih ((untilNull es).length - (visited.length + 1)) (by omega) hagain ?_
        rw [List.length_append, List.length_singleton]

/-! ### Iteration -/

lemma untilNull_of_not_mem (hnone : .null ∉ es) : untilNull es = es := by
  refine List.takeWhile_eq_self_iff.mpr fun value hmem => ?_
  have hne : value ≠ .null := fun heq => hnone (heq ▸ hmem)
  simpa [Value.isNull] using hne

/-- A loop over a container visits the elements before the first null, each once and
in order, and all of them if none is null. After any number of rounds the next one
takes the element behind those visited, or null, and a null sends the machine to the
exit of the loop. A loop that only drops the elements reaches its exit. -/
theorem Reachable.iteration_visits (hm : Reachable host m) (htame : host.Tame)
    (hfirst : Taking m container es 0) (hfew : es.length < 2147483647) (journal : Journal) :
    (∀ visited m₁ journal₁, Rounds host container es (m, journal) visited (m₁, journal₁) →
      ∃ below value stack journal₂,
        step host m₁ journal₁ =
          .done .running ((m₁.movedTo (m₁.frame.ip + 1)).withStack stack) journal₂ ∧
        stack.toList = below ++ [container, cursorAt (visited.length + 1), value] ∧
        (value ≠ .null → visited ++ [value] <+: untilNull es) ∧
        (value = .null → visited = untilNull es ∧ (.null ∉ es → visited = es)) ∧
        ∀ offset, m₁.wordAt? (m₁.frame.ip + 1) = some Opcode.jumpIfNull.toWord →
          m₁.wordAt? (m₁.frame.ip + 2) = some offset →
          ∃ journal₃, step host ((m₁.movedTo (m₁.frame.ip + 1)).withStack stack) journal₂ =
            .done .running ((m₁.movedTo
              (m₁.frame.ip + 3 + if value.isNull then offset.toNat else 0)).withStack stack) journal₃) ∧
    (m.HasCode dropping →
      ∃ s₁ s₂, Rounds host container es (m, journal) (untilNull es) s₁ ∧ Runs host s₁ s₂ ∧
        s₂.1.frame.ip = m.frame.ip + dropping.length) := by
  refine ⟨fun visited m₁ journal₁ hr => ?_, fun hcode => ?_⟩
  · obtain ⟨htaking, hvisited⟩ := hr.taking hm htame hfirst hfew
    obtain ⟨below, stack, journal₂, hstep, hstack⟩ :=
      htaking.step_eq hvisited (hr.reachable hm) htame hfew journal₁
    -- the cursor counts the rounds, so the next element is the one behind those visited
    obtain ⟨hended, htaken⟩ := next_untilNull hvisited rfl
    refine ⟨below, _, stack, journal₂, hstep, hstack, htaken, fun hnull => ⟨hended hnull, ?_⟩, ?_⟩
    · exact fun hnone => (hended hnull).trans (untilNull_of_not_mem hnone)
    · intro offset hjump hoffset
      have hstack' : stack.toList = (below ++ [container, cursorAt (visited.length + 1)]) ++
          [es[visited.length]?.getD .null] := by simpa using hstack
      exact step_of_jumpIfNull (m := (m₁.movedTo (m₁.frame.ip + 1)).withStack stack) host
        (next_of_word hjump) hoffset hstack' journal₂
  · have hstart : Rounds host container es (m, journal) [] (m.withStack m.stack, journal) := .start
    exact hstart.of_dropping hm htame hfirst hfew hcode

/-- A run up to where a loop over a stack with the given elements begins. -/
def iterating (es : List Value) : Action Machine Status := do
  let items ← onHeap (Heap.alloc .stack (.ofList es))
  let words := [Opcode.constant.toWord, 0, Opcode.constant.toWord, 1] ++ dropping
  let script ← onHeap (Heap.alloc .function
    ⟨"", 0, 0, ⟨words.toArray, .empty, #[], .ofList [.stack items, cursorAt 0]⟩⟩)
  start script
  let _ ← step solitary
  step solitary

lemma deeds_iterating (es : List Value) : Deeds solitary (iterating es) := by
  have halloc : Deeds solitary (onHeap (Heap.alloc .stack (.ofList es))) :=
    .one (.use (.special (.onHeap (Heap.within_alloc trivial (by decide)))))
  exact .seq halloc fun _ => .seq (loads_function _).deeds fun script =>
    .seq (loads_start script).deeds fun _ => .seq (.one .step) fun _ => .one .step

/-- The loop over a stack is about to begin. -/
def Begins (items : Ref .stack) (es : List Value) (m : Machine) : Prop :=
  m.HasCode dropping ∧ m.stack.toList.drop 1 = [.stack items, cursorAt 0] ∧
    (m.heap.get? items).map Stack.toList = some es

instance (items : Ref .stack) (es : List Value) : DecidablePred (Begins items es) :=
  fun m => inferInstanceAs (Decidable (_ ∧ m.stack.toList.drop 1 = _ ∧ _))

lemma Begins.taking {items : Ref .stack} (hb : Begins items es m) :
    Taking m (.stack items) es 0 := by
  obtain ⟨hcode, htop, hitems⟩ := hb
  obtain ⟨content, hget, rfl⟩ := Option.map_eq_some_iff.mp hitems
  refine ⟨next_of_word (hcode 0 (by decide)), ⟨m.stack.toList.take 1, ?_⟩, .stack hget⟩
  rw [← htop, List.take_append_drop]

/-- A loop over a stack of two elements visits both. -/
theorem Reachable.iteration_visits_all : solitary.Tame ∧ ∃ m items, Reachable solitary m ∧
    Taking m (.stack items) [cursorAt 7, .ofBool true] 0 ∧ m.HasCode dropping ∧
    ∃ s₁ s₂, Rounds solitary (.stack items) [cursorAt 7, .ofBool true] (m, .silent)
        [cursorAt 7, .ofBool true] s₁ ∧ Runs solitary s₁ s₂ ∧ s₂.1.frame.ip = m.frame.ip + 6 := by
  obtain ⟨m, hm, hbegins⟩ := exists_reachable (p := Begins ⟨⟨8, 0⟩⟩ [cursorAt 7, .ofBool true])
    (deeds_iterating [cursorAt 7, .ofBool true]) (by decide +kernel)
  refine ⟨solitary_tame, m, ⟨⟨8, 0⟩⟩, hm, hbegins.taking, hbegins.1, ?_⟩
  exact (hm.iteration_visits solitary_tame hbegins.taking (by decide) .silent).2 hbegins.1

/-- A null among the elements ends the iteration before the elements behind it. -/
theorem iteration_stops_at_null : ∃ m items, Reachable solitary m ∧
    Taking m (.stack items) [cursorAt 1, .null, cursorAt 2] 0 ∧
    ∃ m₁ journal₁ below stack journal₂,
      Rounds solitary (.stack items) [cursorAt 1, .null, cursorAt 2] (m, .silent) [cursorAt 1]
        (m₁, journal₁) ∧
      step solitary m₁ journal₁ =
        .done .running ((m₁.movedTo (m₁.frame.ip + 1)).withStack stack) journal₂ ∧
      stack.toList = below ++ [.stack items, cursorAt 2, .null] := by
  obtain ⟨m, hm, hbegins⟩ := exists_reachable (p := Begins ⟨⟨8, 0⟩⟩ [cursorAt 1, .null, cursorAt 2])
    (deeds_iterating [cursorAt 1, .null, cursorAt 2]) (by decide +kernel)
  have hstart : Rounds solitary (.stack ⟨⟨8, 0⟩⟩) [cursorAt 1, .null, cursorAt 2] (m, .silent) []
    (m.withStack m.stack, .silent) := .start
  obtain ⟨⟨m₁, journal₁⟩, -, hrounds, -⟩ :=
    hstart.of_dropping hm solitary_tame hbegins.taking (by decide) hbegins.1
  obtain ⟨htaking, hvisited⟩ := hrounds.taking hm solitary_tame hbegins.taking (by decide)
  obtain ⟨below, stack, journal₂, hstep, hstack⟩ :=
    htaking.step_eq hvisited (hrounds.reachable hm) solitary_tame (by decide) journal₁
  exact ⟨m, ⟨⟨8, 0⟩⟩, hm, hbegins.taking, m₁, journal₁, below, stack, journal₂, hrounds, hstep,
    hstack⟩

end ScriptMachine.Machine
