import Mathlib.Order.Defs.LinearOrder
import ScriptMachine.Proofs.Arithmetic.Equality
import ScriptMachine.Proofs.Machine.Operands

/-!
The order of values.

What two values are compared by is a `Rank`, which integers and strings have. Ranks are
ordered like integers, or like the bytes of texts (`Rank.Below`), and an integer and a
text not at all. `Rank.Stands` is the relation that an answer of a comparison asserts of
two ranks; exactly one answer is right, and comparing finds it.

* `stands_compareBytes`: comparing bytes finds the lexicographic order;
* `Stands.unique`, `Stands.swap`, `Stands.then`: the laws of a total order;
* `compare?_of_ranks`, `exists_ranks_of_compare?`: values without a double are compared
  if and only if their ranks can be;
* `step_of_test`: the six instructions that compare go by one and the same answer;
* `order_laws`: all of this together.
-/

namespace ScriptMachine

/-- What the order of a value depends on: an integer, or the bytes of a text. -/
inductive Rank where
  | integer (n : Int)
  | text (bytes : List UInt8)
  deriving DecidableEq

namespace Rank

variable {x y z : Rank} {o o' : Ordering}

/-- Two integers, or two texts. -/
def Alike : Rank → Rank → Prop
  | integer _, integer _ => True
  | text _, text _ => True
  | _, _ => False

lemma Alike.symm (h : x.Alike y) : y.Alike x := by
  cases x <;> cases y <;> exact h

lemma Alike.trans (h : x.Alike y) (h' : y.Alike z) : x.Alike z := by
  cases x <;> cases y <;> cases z <;> first | exact h | exact h' | exact h.elim

/-- The order of integers, and the lexicographic order of bytes. -/
def Below : Rank → Rank → Prop
  | integer m, integer n => m < n
  | text left, text right => left < right
  | _, _ => False

instance : DecidableRel Below
  | integer m, integer n => inferInstanceAs (Decidable (m < n))
  | text left, text right => inferInstanceAs (Decidable (left < right))
  | integer _, text _ | text _, integer _ => isFalse id

/-- What an answer of a comparison says about two ranks. -/
def Stands : Ordering → Rank → Rank → Prop
  | .lt, x, y => x.Below y
  | .eq, x, y => x = y
  | .gt, x, y => y.Below x

lemma not_below_self (x : Rank) : ¬ x.Below x := by
  cases x with
  | integer n => exact Int.lt_irrefl n
  | text bytes => exact List.lt_irrefl bytes

lemma Below.trans (hxy : x.Below y) (hyz : y.Below z) : x.Below z := by
  cases x <;> cases y <;> cases z <;> first | exact hxy.elim | exact hyz.elim | skip
  · exact Int.lt_trans hxy hyz
  · exact List.lt_trans hxy hyz

/-- Two answers to one question are the same. -/
lemma Stands.unique (h : Stands o x y) (h' : Stands o' x y) : o = o' := by
  have hasymm : x.Below y → ¬ y.Below x := fun hxy hyx => x.not_below_self (hxy.trans hyx)
  have hne : x.Below y → x ≠ y := fun hxy heq => x.not_below_self (heq ▸ hxy)
  have hne' : y.Below x → x ≠ y := fun hyx heq => x.not_below_self (heq ▸ hyx)
  cases o <;> cases o' <;> first | rfl | skip
  · exact absurd h' (hne h)
  · exact absurd h' (hasymm h)
  · exact absurd h (hne h')
  · exact absurd h (hne' h')
  · exact absurd h (hasymm h')
  · exact absurd h' (hne' h)

/-- An answer is right if and only if what it says is true. -/
lemma Stands.iff (h : Stands o x y) : o = o' ↔ Stands o' x y :=
  ⟨fun heq => heq ▸ h, h.unique⟩

lemma Stands.beq_eq (h : Stands o x y) : (o == .eq) = decide (x = y) := by
  rw [Bool.eq_iff_iff, beq_iff_eq, decide_eq_true_iff]
  exact h.iff

lemma Stands.swap (h : Stands o x y) : Stands o.swap y x := by
  cases o with
  | lt | gt => exact h
  | eq => exact Eq.symm h

/-- Below or equal, twice. -/
lemma Stands.then (h : Stands o x y) (h' : Stands o' y z) (hle : o.isLE = true)
    (hle' : o'.isLE = true) : Stands (o.then o') x z := by
  cases o with
  | gt => cases hle
  | eq =>
      obtain rfl : x = y := h
      exact h'
  | lt =>
      cases o' with
      | gt => cases hle'
      | eq =>
          obtain rfl : y = z := h'
          exact h
      | lt => exact Below.trans h h'

end Rank

/-- The rank of a value: that of an integer, or of a string with its text. -/
inductive Value.HasRank (h : Heap) : Value → Rank → Prop
  | integer {a : Value} {n : Int} (integer : a.IsInteger n) : HasRank h a (.integer n)
  | text {ref : Ref .string} {text : String} (read : h.text ref = .ok text) :
      HasRank h (.scalar (.str ref)) (.text text.toUTF8.toList)

/-- Whether a value is a double. -/
def Value.isDouble : Value → Bool
  | .scalar (.double _) => true
  | _ => false

lemma Value.HasRank.unique {h : Heap} {a : Value} {x y : Rank} (hx : a.HasRank h x)
    (hy : a.HasRank h y) : x = y := by
  cases hx with
  | integer hm =>
      cases hy with
      | integer hn => rw [Option.some.inj (hm.integral.symm.trans hn.integral)]
      | text _ => cases hm
  | text hread =>
      cases hy with
      | integer hn => cases hn
      | text hread' => rw [Except.ok.inj (hread.symm.trans hread')]

/-- The rank of a string that is there consists of its bytes in memory. -/
lemma Heap.Readable.hasRank {h : Heap} (hr : h.Readable) {ref : Ref .string} {record : StringRecord}
    (hlive : h.get? ref = some record) :
    Value.HasRank h (.scalar (.str ref)) (.text (h.bytes ref.id record.length)) := by
  obtain ⟨text, htext⟩ := hr.exists_text hlive
  have hbytes : h.textBytes ref = .ok (h.bytes ref.id record.length) := by
    rw [Heap.textBytes, Heap.read_of_get? hlive]
    rfl
  have hdecode : Heap.decode? (h.bytes ref.id record.length) = some text := by
    rw [Heap.text, hbytes] at htext
    cases hd : Heap.decode? (h.bytes ref.id record.length) with
    | none => simp [bind, Except.bind, hd, Result.abort] at htext
    | some text' =>
        simp only [bind, Except.bind, hd] at htext
        exact congrArg some (Except.ok.inj htext)
  rw [← toUTF8_of_decode? hdecode]
  exact .text htext

namespace Arithmetic

open Rank (Stands)

variable {h : Heap} {a b c : Value} {x y z : Rank} {o o' : Ordering}

/-! ### Comparing -/

lemma stands_compare (m n : Int) : Stands (compare m n) (.integer m) (.integer n) := by
  cases ho : compare m n with
  | lt => exact compare_lt_iff_lt.mp ho
  | eq => exact congrArg Rank.integer (compare_eq_iff_eq.mp ho)
  | gt => exact compare_gt_iff_gt.mp ho

/-- Bytes are compared in lexicographic order. -/
lemma stands_compareBytes (left right : List UInt8) :
    Stands (compareBytes left right) (.text left) (.text right) := by
  fun_induction compareBytes left right with
  | case1 => exact rfl
  | case2 b bs => exact List.nil_lt_cons b bs
  | case3 a as => exact List.nil_lt_cons a as
  | case4 a as b bs ih =>
      cases ho : compare a.toNat b.toNat with
      | lt =>
          have hlt : a < b := UInt8.lt_iff_toNat_lt.mpr (compare_lt_iff_lt.mp ho)
          exact List.cons_lt_cons_iff.mpr (.inl hlt)
      | gt =>
          have hgt : b < a := UInt8.lt_iff_toNat_lt.mpr (compare_gt_iff_gt.mp ho)
          exact List.cons_lt_cons_iff.mpr (.inl hgt)
      | eq =>
          obtain rfl := UInt8.toNat_inj.mp (compare_eq_iff_eq.mp ho)
          rw [Ordering.eq_then]
          cases hrest : compareBytes as bs with
          | lt => rw [hrest] at ih; exact List.cons_lt_cons_iff.mpr (.inr ⟨rfl, ih⟩)
          | gt => rw [hrest] at ih; exact List.cons_lt_cons_iff.mpr (.inr ⟨rfl, ih⟩)
          | eq => rw [hrest] at ih; rw [Rank.text.inj ih]; exact rfl

lemma exists_integer_of_number {n : Number} (hdouble : a.isDouble = false)
    (hnumber : Number.of? a = some n) : ∃ n, a.IsInteger n := by
  cases a with
  | scalar s =>
      cases s with
      | byte b => exact ⟨_, .byte b⟩
      | char c => exact ⟨_, .char c⟩
      | int i => exact ⟨_, .int i⟩
      | long l => exact ⟨_, .long l⟩
      | size s =>
          by_cases hsmall : s.toNat < 0x8000000000000000
          · exact ⟨_, .size s hsmall⟩
          · cases (number_of_large hsmall).symm.trans hnumber
      | double d => cases hdouble
      | _ => cases hnumber
  | _ => cases hnumber

lemma unsupported_ne_ok {α : Type} (h : Heap) (op : String) (a b : Value) (value : α) :
    unsupported h op a b ≠ .ok value := by
  unfold unsupported
  cases h.typeName a <;> cases h.typeName b <;> nofun

/-- Values with ranks of one kind are compared by them. -/
lemma compare?_of_ranks (hx : a.HasRank h x) (hy : b.HasRank h y) (halike : x.Alike y) :
    ∃ o, Stands o x y ∧ ∀ op, compare? h op a b = .ok (some o) := by
  cases hx with
  | @integer _ m hm =>
      cases hy with
      | @integer _ n hn =>
          refine ⟨compare m n, stands_compare m n, fun op => ?_⟩
          unfold compare?
          split
          · cases hm
          · rw [hm.number, hn.number]
      | text _ => exact halike.elim
  | text hleft =>
      cases hy with
      | integer _ => exact halike.elim
      | text hright =>
          refine ⟨_, stands_compareBytes _ _, fun op => ?_⟩
          rw [compare?, hleft, hright]
          rfl

/-- Values that are compared have ranks of one kind, unless one is a double. -/
lemma exists_ranks_of_compare? {op : String} {answer : Option Ordering} (ha : a.isDouble = false)
    (hb : b.isDouble = false) (hok : compare? h op a b = .ok answer) :
    ∃ x y, a.HasRank h x ∧ b.HasRank h y ∧ x.Alike y := by
  unfold compare? at hok
  split at hok
  case h_1 s t =>
    cases hs : h.text s with
    | error failure => rw [hs] at hok; cases hok
    | ok left =>
        cases ht : h.text t with
        | error failure => rw [hs, ht] at hok; cases hok
        | ok right => exact ⟨_, _, .text hs, .text ht, trivial⟩
  case h_2 =>
    cases hm : Number.of? a with
    | none => rw [hm] at hok; exact absurd hok (unsupported_ne_ok h op a b _)
    | some m =>
        obtain ⟨i, hi⟩ := exists_integer_of_number ha hm
        cases hn : Number.of? b with
        | none => rw [hi.number, hn] at hok; exact absurd hok (unsupported_ne_ok h op a b _)
        | some n =>
            obtain ⟨j, hj⟩ := exists_integer_of_number hb hn
            exact ⟨_, _, .integer hi, .integer hj, trivial⟩

/-- The answer to a comparison is the one that is right of the ranks. -/
lemma stands_of_compare? {op : String} (hx : a.HasRank h x) (hy : b.HasRank h y)
    (halike : x.Alike y) (hok : compare? h op a b = .ok (some o)) : Stands o x y := by
  obtain ⟨o', hstands, hcompare⟩ := compare?_of_ranks hx hy halike
  obtain rfl : o' = o := Option.some.inj (Except.ok.inj ((hcompare op).symm.trans hok))
  exact hstands

lemma toUTF8_toList_inj {left right : String} (heq : left.toUTF8.toList = right.toUTF8.toList) :
    left = right := by
  rw [ByteArray.toList, ByteArray.toList, toList_loop_eq, toList_loop_eq] at heq
  exact String.toByteArray_inj.mp (ByteArray.ext (Array.toList_inj.mp heq))

/-- Values with ranks of one kind are equal if and only if their ranks are. -/
lemma equal_of_ranks (hx : a.HasRank h x) (hy : b.HasRank h y) (halike : x.Alike y) :
    equal h a b = .ok (decide (x = y)) := by
  cases hx with
  | @integer _ m hm =>
      cases hy with
      | @integer _ n hn => simpa using equal_of_integers (h := h) hm hn
      | text _ => exact halike.elim
  | @text s left hleft =>
      cases hy with
      | integer _ => exact halike.elim
      | @text t right hright =>
          have hsame : (left == right) = decide (left.toUTF8.toList = right.toUTF8.toList) := by
            rw [Bool.eq_iff_iff, beq_iff_eq, decide_eq_true_iff]
            exact ⟨fun heq => by rw [heq], toUTF8_toList_inj⟩
          simpa [hsame, equal] using equalScalars_texts hleft hright

/-! ### Instructions that compare -/

/-- The answers by which an instruction that compares puts true on the stack. -/
def test? : Opcode → Option (Ordering → Bool)
  | .lt => some Ordering.isLT
  | .le => some Ordering.isLE
  | .gt => some Ordering.isGT
  | .ge => some Ordering.isGE
  | .eq => some Ordering.isEq
  | .ne => some Ordering.isNe
  | _ => none

section Operands

variable {m : Machine} {rest : List Value}

lemma ordering_of_compare? (htop : m.stack.toList = rest ++ [a, b]) {op : String}
    (hcompare : compare? m.heap op a b = .ok (some o)) (accept : Ordering → Bool) (journal : Journal) :
    ∃ stack, Machine.ordering op accept m journal = .done () (m.withStack stack) journal ∧
      stack.toList = rest ++ [.ofBool (accept o)] := by
  refine Machine.binary_of_operands htop ?_ journal
  rw [hcompare]
  rfl

lemma equality_of_equal (htop : m.stack.toList = rest ++ [a, b]) {answer : Bool}
    (hequal : equal m.heap a b = .ok answer) (expected : Bool) (journal : Journal) :
    ∃ stack, Machine.equality equal expected m journal = .done () (m.withStack stack) journal ∧
      stack.toList = rest ++ [.ofBool (answer == expected)] := by
  refine Machine.binary_of_operands htop ?_ journal
  rw [hequal]
  rfl

/-- An instruction that compares follows the answer of the comparison. -/
lemma execute_of_test {op : Opcode} {test : Ordering → Bool} (host : Host)
    (htest : test? op = some test) (htop : m.stack.toList = rest ++ [a, b])
    (hcompare : ∀ op, compare? m.heap op a b = .ok (some o))
    (hequal : equal m.heap a b = .ok (o == .eq)) (journal : Journal) :
    ∃ stack, Machine.execute host op m journal = .done () (m.withStack stack) journal ∧
      stack.toList = rest ++ [.ofBool (test o)] := by
  cases op with
  | lt | le | gt | ge =>
      obtain rfl := Option.some.inj htest
      exact ordering_of_compare? htop (hcompare _) _ journal
  | eq =>
      obtain rfl := Option.some.inj htest
      have hsame : ((o == .eq) == true) = o.isEq := by cases o <;> rfl
      exact hsame ▸ equality_of_equal htop hequal true journal
  | ne =>
      obtain rfl := Option.some.inj htest
      have hother : ((o == .eq) == false) = o.isNe := by cases o <;> rfl
      exact hother ▸ equality_of_equal htop hequal false journal
  | _ => cases htest

/-- The two operands of an instruction that compares are replaced by a truth value. -/
lemma step_of_test {op : Opcode} {test : Ordering → Bool} (host : Host)
    (htest : test? op = some test) (hop : m.nextOpcode? = some op)
    (htop : m.stack.toList = rest ++ [a, b])
    (hcompare : ∀ op, compare? m.heap op a b = .ok (some o))
    (hequal : equal m.heap a b = .ok (o == .eq)) (journal : Journal) :
    ∃ stack journal', Machine.step host m journal =
        .done .running ((m.movedTo (m.frame.ip + 1)).withStack stack) journal' ∧
      stack.toList = rest ++ [.ofBool (test o)] := by
  have hret : op ≠ .ret := by
    rintro rfl
    cases htest
  obtain ⟨journal', hstep⟩ := Machine.step_of_next host hop journal
  obtain ⟨stack, hrun, hstack⟩ := execute_of_test (m := m.movedTo (m.frame.ip + 1)) host htest htop
    hcompare hequal journal'
  refine ⟨stack, journal', ?_, hstack⟩
  rw [hstep, if_neg hret, Action.bind_of_done hrun]
  rfl

end Operands

/-- The laws of the order. Every string that is there has a rank, its bytes. Of values that
are no doubles those are compared that both are integers or both are strings. The answer is
the order of the integers or the lexicographic order of the bytes, so it is the opposite with
the operands in the other order, it is "equal" if and only if the values are equal, and all
six instructions that compare go by it. Below or equal, twice, is below or equal, and below
if it was below once. -/
theorem order_laws (h : Heap) :
    (h.Tended → ∀ (ref : Ref .string) record, h.get? ref = some record →
      Value.HasRank h (.scalar (.str ref)) (.text (h.bytes ref.id record.length))) ∧
    (∀ op a b, a.isDouble = false → b.isDouble = false →
      ((∃ answer, compare? h op a b = .ok answer) ↔
        ∃ x y, a.HasRank h x ∧ b.HasRank h y ∧ x.Alike y)) ∧
    (∀ a b x y, a.HasRank h x → b.HasRank h y → x.Alike y → ∃ o,
      (o = .lt ↔ x.Below y) ∧ (o = .eq ↔ x = y) ∧ (o = .gt ↔ y.Below x) ∧
      (∀ op, compare? h op a b = .ok (some o) ∧ compare? h op b a = .ok (some o.swap)) ∧
      equal h a b = .ok (o == .eq) ∧
      ∀ (host : Host) (m : Machine) journal op test rest, m.heap = h → m.nextOpcode? = some op →
        test? op = some test → m.stack.toList = rest ++ [a, b] →
        ∃ stack journal', Machine.step host m journal =
            .done .running ((m.movedTo (m.frame.ip + 1)).withStack stack) journal' ∧
          stack.toList = rest ++ [.ofBool (test o)]) ∧
    ∀ op a b c o o', a.isDouble = false → b.isDouble = false → c.isDouble = false →
      compare? h op a b = .ok (some o) → compare? h op b c = .ok (some o') →
      o.isLE = true → o'.isLE = true → compare? h op a c = .ok (some (o.then o')) := by
  refine ⟨fun ht ref record hlive => ht.orderly.toReadable.hasRank hlive, ?_, ?_, ?_⟩
  · intro op a b ha hb
    refine ⟨fun ⟨answer, hok⟩ => exists_ranks_of_compare? ha hb hok, ?_⟩
    rintro ⟨x, y, hx, hy, halike⟩
    obtain ⟨o, -, hcompare⟩ := compare?_of_ranks hx hy halike
    exact ⟨some o, hcompare op⟩
  · intro a b x y hx hy halike
    obtain ⟨o, hstands, hcompare⟩ := compare?_of_ranks hx hy halike
    obtain ⟨o', hstands', hcompare'⟩ := compare?_of_ranks hy hx (Rank.Alike.symm halike)
    -- only one ordering stands for two ranks, so the other way round it is the opposite
    obtain rfl := hstands'.unique hstands.swap
    have hequal : equal h a b = .ok (o == .eq) := by
      rw [equal_of_ranks hx hy halike, hstands.beq_eq]
    refine ⟨o, hstands.iff, hstands.iff, hstands.iff, fun op => ⟨hcompare op, hcompare' op⟩, hequal,
      ?_⟩
    rintro host m journal op test rest rfl hop htest htop
    exact step_of_test host htest hop htop hcompare hequal journal
  · intro op a b c o o' ha hb hc hab hbc hle hle'
    obtain ⟨x, y, hx, hy, halike⟩ := exists_ranks_of_compare? ha hb hab
    obtain ⟨y', z, hy', hz, halike'⟩ := exists_ranks_of_compare? hb hc hbc
    obtain rfl := hy'.unique hy
    obtain ⟨o'', hstands, hcompare⟩ := compare?_of_ranks hx hz (Rank.Alike.trans halike halike')
    have hthen := (stands_of_compare? hx hy' halike hab).then (stands_of_compare? hy' hz halike' hbc)
      hle hle'
    rw [hcompare, hstands.unique hthen]

/-- The string "ab" is below "b" for an instruction, and a negative `long` below a `byte`, which
is below a `size`. -/
theorem order_laws_mixed : ∃ (h : Heap) (m m' : Machine) (journal : Journal), h.Tended ∧ m.heap = h ∧
    m.nextOpcode? = some .lt ∧
    m.stack.toList = [.scalar (.str ⟨⟨0, 0⟩⟩), .scalar (.str ⟨⟨1, 0⟩⟩)] ∧
    Machine.step (Host.builtin .zero) m .silent = .done .running m' journal ∧
    m'.stack.toList = [.ofBool true] ∧
    compare? h ">" (.scalar (.str ⟨⟨1, 0⟩⟩)) (.scalar (.str ⟨⟨0, 0⟩⟩)) = .ok (some .gt) ∧
    compare? h "<" (.scalar (.long (-1))) (.scalar (.size 2)) = .ok (some .lt) := by
  let f : Function := ⟨"", 0, 0, { Code.Chunk.empty with code := #[Opcode.lt.toWord] }⟩
  have created : Heap.Tended _ := .create (rfl : Heap.create 1024 (fun _ => true) = .ok _)
  have hrun : (Heap.insertText "ab" false ⟨⟨1024, #[], [], 0, 0, fun _ => true⟩, #[], [], []⟩
      .silent).done?.any (fun first => first.2.1.tablesEmpty &&
        (Heap.insertText "b" false first.2.1 first.2.2).done?.any fun second =>
          second.2.1.tablesEmpty &&
          (Heap.insert (.function f) false second.2.1 second.2.2).done?.any fun last =>
            last.2.1.tablesEmpty &&
            (last.2.1.get? (⟨⟨0, 0⟩⟩ : Ref .string)).any (last.2.1.bytes ⟨0, 0⟩ ·.length = [97, 98]) &&
            (last.2.1.get? (⟨⟨1, 0⟩⟩ : Ref .string)).any (last.2.1.bytes ⟨1, 0⟩ ·.length = [98]) &&
            last.2.1.get? (⟨⟨2, 0⟩⟩ : Ref .function) = some f) = true := by
    decide +kernel
  obtain ⟨first, hfirst, hrun⟩ := (Option.any_eq_true _ _).mp hrun
  obtain ⟨hempty, hrun⟩ := Bool.and_eq_true_iff.mp hrun
  obtain ⟨second, hsecond, hrun⟩ := (Option.any_eq_true _ _).mp hrun
  obtain ⟨hempty', hrun⟩ := Bool.and_eq_true_iff.mp hrun
  obtain ⟨last, hlast, hrun⟩ := (Option.any_eq_true _ _).mp hrun
  simp only [Bool.and_eq_true, decide_eq_true_eq, Option.any_eq_true] at hrun
  obtain ⟨⟨⟨hempty'', left, hleft, hab⟩, right, hright, hb⟩, hf⟩ := hrun
  have tended : last.2.1.Tended :=
    ((created.done (.insertText "ab" false) hfirst hempty).done (.insertText "b" false) hsecond
      hempty').done (.other (.insert (.function f) false trivial nofun)) hlast hempty''
  let m : Machine := ⟨last.2.1, .empty, .standard, 0, [], ⟨.dangling, ⟨⟨2, 0⟩⟩, 0, 0⟩,
    ⟨#[.scalar (.str ⟨⟨0, 0⟩⟩), .scalar (.str ⟨⟨1, 0⟩⟩)], 64⟩, [], .empty, .empty, [], ⟨false, ""⟩⟩
  have hop : m.nextOpcode? = some .lt := by
    rw [Machine.nextOpcode?, hf]
    rfl
  obtain ⟨hrank, -, hlaws, htrans⟩ := order_laws last.2.1
  obtain ⟨o, hlt, -, -, hcompare, -, hstep⟩ :=
    hlaws _ _ _ _ (hrank tended _ left hleft) (hrank tended _ right hright) trivial
  obtain rfl : o = .lt := hlt.mpr (by rw [hab, hb]; decide)
  obtain ⟨stack, journal, hdone, hstack⟩ :=
    hstep (Host.builtin .zero) m .silent .lt _ [] rfl hop rfl rfl
  refine ⟨last.2.1, m, _, journal, tended, rfl, hop, rfl, hdone, hstack, (hcompare ">").2, ?_⟩
  exact htrans "<" _ (.scalar (.byte 1)) _ .lt .lt rfl rfl rfl rfl rfl rfl rfl

end Arithmetic

end ScriptMachine
