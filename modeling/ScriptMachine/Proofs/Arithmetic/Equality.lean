import ScriptMachine.Proofs.Arithmetic.Integers
import ScriptMachine.Proofs.Heap.Tended

/-!
Equality of values.

Strict equality has a meaning of its own, `Arithmetic.Same`: two values are the same
if they are one value, or doubles with one value, or strings with one text. Values
that are compared as numbers have to be numbers, and a size past the largest `long`
is none; like a double that is not a number it is not even equal to itself.

* `equal_comm`, `exists_equal`: loose equality has an answer, in either order the same;
* `strictEqual_eq_true_iff`: strict equality decides `Same`;
* `equality_laws`: strict equality is an equivalence of all values but these.
-/

namespace ScriptMachine

/-- The string that a value is, if it is one, is there. -/
def Heap.Names (h : Heap) (a : Value) : Prop :=
  ∀ ref, a = .scalar (.str ref) → ∃ record, h.get? ref = some record

lemma Heap.Names.exists_text {h : Heap} {s : Ref .string} (hs : h.Names (.scalar (.str s)))
    (hr : h.Readable) : ∃ text, h.text s = .ok text := by
  obtain ⟨record, hget⟩ := hs s rfl
  exact hr.exists_text hget

/-- The values that are equal to themselves. -/
def Value.Ordinary : Value → Prop
  | .scalar (.double d) => d.isNaN = false
  | .scalar (.size s) => s.toNat < 0x8000000000000000
  | _ => True

namespace Value

variable {a b : Value} {n : Int}

lemma IsInteger.ordinary (ha : a.IsInteger n) : a.Ordinary := by
  cases ha with
  | size s small => exact small
  | _ => trivial

/-- Two integers of one kind are equal if they stand for the same integer. -/
lemma IsInteger.eq_of_sameKind (ha : a.IsInteger n) (hb : b.IsInteger n)
    (hkind : a.sameKind b = true) :
    a = b := by
  cases ha with
  | byte x =>
      generalize hn : (x.toNat : Int) = n at hb
      cases hb with
      | byte y => rw [UInt8.toNat_inj.mp (Int.ofNat_inj.mp hn)]
      | _ => cases hkind
  | char x =>
      generalize hn : (x.toNat : Int) = n at hb
      cases hb with
      | char y => rw [UInt8.toNat_inj.mp (Int.ofNat_inj.mp hn)]
      | _ => cases hkind
  | int x =>
      generalize hn : x.toInt = n at hb
      cases hb with
      | int y => rw [Int32.toInt_inj.mp hn]
      | _ => cases hkind
  | long x =>
      generalize hn : x.toInt = n at hb
      cases hb with
      | long y => rw [Int64.toInt_inj.mp hn]
      | _ => cases hkind
  | size x =>
      generalize hn : (x.toNat : Int) = n at hb
      cases hb with
      | size y => rw [UInt64.toNat_inj.mp (Int.ofNat_inj.mp hn)]
      | _ => cases hkind

lemma sameKind_self (a : Value) : a.sameKind a = true := by
  cases a with
  | scalar s => cases s <;> rfl
  | _ => rfl

lemma sameKind_comm (a b : Value) : a.sameKind b = b.sameKind a := by
  cases a with
  | scalar s =>
      cases b with
      | scalar t => cases s <;> cases t <;> rfl
      | _ => rfl
  | _ => cases b <;> rfl

end Value

namespace Arithmetic

variable {h : Heap} {a b c : Value} {x y : Scalar} {s t : Ref .string} {text : String} {m n : Int}

/-! ### Loose equality -/

lemma double_equal_comm (d e : Double) : d.equal e = e.equal d := by
  simp only [Double.equal, Bool.and_comm, Bool.beq_comm]

lemma equalNumbers_comm (a b : Value) : equalNumbers a b = equalNumbers b a := by
  unfold equalNumbers
  cases Number.of? a with
  | none =>
      cases Number.of? b with
      | none => rfl
      | some n => cases n <;> rfl
  | some m =>
      cases Number.of? b with
      | none => cases m <;> rfl
      | some n =>
          cases m with
          | integral i =>
              cases n with
              | integral j => exact decide_eq_decide.mpr eq_comm
              | double e => exact double_equal_comm _ _
          | double d =>
              cases n with
              | integral j => exact double_equal_comm _ _
              | double e => exact double_equal_comm _ _

lemma equalScalars_texts {left right : String} (hs : h.text s = .ok left)
    (ht : h.text t = .ok right) :
    equalScalars h (.str s) (.str t) = .ok (left == right) := by
  rw [equalScalars, hs, ht]
  rfl

/-- Equality of scalars does not depend on their order. -/
lemma equalScalars_comm (hr : h.Readable) (hx : h.Names (.scalar x)) (hy : h.Names (.scalar y)) :
    equalScalars h x y = equalScalars h y x := by
  cases x with
  | str s =>
      cases y with
      | str t =>
          obtain ⟨left, hs⟩ := hx.exists_text hr
          obtain ⟨right, ht⟩ := hy.exists_text hr
          rw [equalScalars_texts hs ht, equalScalars_texts ht hs, BEq.comm]
      | _ => rfl
  | null =>
      cases y with
      | null | str t => rfl
      | _ => exact congrArg Except.ok (equalNumbers_comm _ _)
  | bool p =>
      cases y with
      | bool q => exact congrArg Except.ok (decide_eq_decide.mpr eq_comm)
      | str t => rfl
      | _ => exact congrArg Except.ok (equalNumbers_comm _ _)
  | array p =>
      cases y with
      | array q => exact congrArg Except.ok (decide_eq_decide.mpr eq_comm)
      | str t => rfl
      | _ => exact congrArg Except.ok (equalNumbers_comm _ _)
  | _ =>
      cases y with
      | str t => rfl
      | _ => exact congrArg Except.ok (equalNumbers_comm _ _)

lemma exists_isNumeral (hs : h.text s = .ok text) (n : Scalar) :
    ∃ answer, isNumeral h s n = .ok answer := by
  unfold isNumeral
  cases n.integral with
  | none => exact ⟨false, rfl⟩
  | some n => rw [hs]; exact ⟨_, rfl⟩

/-- A string is compared with a string, with a number or with nothing. -/
lemma exists_equalScalars_text (hr : h.Readable) (hs : h.text s = .ok text)
    (hy : h.Names (.scalar y)) : ∃ answer, equalScalars h (.str s) y = .ok answer := by
  cases y with
  | str t =>
      obtain ⟨right, ht⟩ := hy.exists_text hr
      exact ⟨_, equalScalars_texts hs ht⟩
  | byte n => exact exists_isNumeral hs (.byte n)
  | int n => exact exists_isNumeral hs (.int n)
  | long n => exact exists_isNumeral hs (.long n)
  | size n => exact exists_isNumeral hs (.size n)
  | _ => exact ⟨_, rfl⟩

/-- Only strings are looked up. -/
lemma exists_equalScalars (hr : h.Readable) (hx : h.Names (.scalar x)) (hy : h.Names (.scalar y)) :
    ∃ answer, equalScalars h x y = .ok answer := by
  cases x with
  | str s =>
      obtain ⟨left, hs⟩ := hx.exists_text hr
      exact exists_equalScalars_text hr hs hy
  | _ =>
      cases y with
      | str t =>
          obtain ⟨right, ht⟩ := hy.exists_text hr
          rw [equalScalars_comm hr hx hy]
          exact exists_equalScalars_text hr ht hx
      | _ => exact ⟨_, rfl⟩

lemma exists_equal (hr : h.Readable) (ha : h.Names a) (hb : h.Names b) :
    ∃ answer, equal h a b = .ok answer := by
  cases a with
  | scalar x =>
      cases b with
      | scalar y => exact exists_equalScalars hr ha hb
      | _ => exact ⟨_, rfl⟩
  | _ => exact ⟨_, rfl⟩

lemma equal_comm (hr : h.Readable) (ha : h.Names a) (hb : h.Names b) :
    equal h a b = equal h b a := by
  cases a with
  | scalar x =>
      cases b with
      | scalar y => exact equalScalars_comm hr ha hb
      | _ => rfl
  | _ =>
      cases b with
      | scalar y => rfl
      | _ => exact congrArg Except.ok (decide_eq_decide.mpr eq_comm)

/-! ### Strict equality -/

/-- What strict equality stands for. -/
inductive Same (h : Heap) : Value → Value → Prop
  | value {a : Value} (ordinary : a.Ordinary) : Same h a a
  | double {d e : Double} (equal : d.equal e = true) :
      Same h (.scalar (.double d)) (.scalar (.double e))
  | text {s t : Ref .string} {text : String} (left : h.text s = .ok text)
      (right : h.text t = .ok text) : Same h (.scalar (.str s)) (.scalar (.str t))

lemma equal_of_integers (ha : a.IsInteger m) (hb : b.IsInteger n) :
    equal h a b = .ok (decide (m = n)) := by
  have hequal : equal h a b = .ok (equalNumbers a b) := by
    cases ha <;> cases hb <;> rfl
  rw [hequal, equalNumbers, ha.number, hb.number]

lemma same_of_integers (ha : a.IsInteger m) (hb : b.IsInteger n) (hkind : a.sameKind b = true)
    (hequal : equal h a b = .ok true) : Same h a b := by
  rw [equal_of_integers ha hb] at hequal
  obtain rfl := of_decide_eq_true (Except.ok.inj hequal)
  rw [ha.eq_of_sameKind hb hkind]
  exact .value hb.ordinary

/-- A size past the largest `long` is no number. -/
lemma number_of_large {s : UInt64} (hlarge : ¬ s.toNat < 0x8000000000000000) :
    Number.of? (.scalar (.size s)) = none :=
  congrArg (Option.map Number.integral) (if_neg hlarge)

lemma equal_self (hr : h.Readable) (ha : h.Names a) (hordinary : a.Ordinary) :
    equal h a a = .ok true := by
  have hinteger : ∀ {n}, a.IsInteger n → equal h a a = .ok true := fun hn =>
    (equal_of_integers hn hn).trans (congrArg Except.ok (decide_eq_true rfl))
  cases a with
  | scalar x =>
      cases x with
      | null => rfl
      | bool p => exact congrArg Except.ok (decide_eq_true rfl)
      | array p => exact congrArg Except.ok (decide_eq_true rfl)
      | byte n => exact hinteger (.byte n)
      | char n => exact hinteger (.char n)
      | int n => exact hinteger (.int n)
      | long n => exact hinteger (.long n)
      | size n => exact hinteger (.size n hordinary)
      | double d =>
          have hd : d.isNaN = false := hordinary
          refine congrArg Except.ok (?_ : d.equal d = true)
          simp [Double.equal, hd]
      | str s =>
          obtain ⟨text, hs⟩ := ha.exists_text hr
          exact (equalScalars_texts hs hs).trans (congrArg Except.ok (beq_self_eq_true text))
  | _ => exact congrArg Except.ok (decide_eq_true rfl)

/-- Strict equality of scalars, kind by kind. -/
lemma same_of_equalScalars (hr : h.Readable) (hx : h.Names (.scalar x)) (hy : h.Names (.scalar y))
    (hkind : x.sameKind y = true) (hequal : equalScalars h x y = .ok true) :
    Same h (.scalar x) (.scalar y) := by
  cases x with
  | null => cases y with
    | null => exact .value trivial
    | _ => cases hkind
  | bool p => cases y with
    | bool q =>
        obtain rfl := of_decide_eq_true (Except.ok.inj hequal)
        exact .value trivial
    | _ => cases hkind
  | array p => cases y with
    | array q =>
        obtain rfl := of_decide_eq_true (Except.ok.inj hequal)
        exact .value trivial
    | _ => cases hkind
  | byte m => cases y with
    | byte n => exact same_of_integers (.byte m) (.byte n) hkind hequal
    | _ => cases hkind
  | char m => cases y with
    | char n => exact same_of_integers (.char m) (.char n) hkind hequal
    | _ => cases hkind
  | int m => cases y with
    | int n => exact same_of_integers (.int m) (.int n) hkind hequal
    | _ => cases hkind
  | long m => cases y with
    | long n => exact same_of_integers (.long m) (.long n) hkind hequal
    | _ => cases hkind
  | size m => cases y with
    | size n =>
        have hnumbers : equalNumbers (.scalar (.size m)) (.scalar (.size n)) = true :=
          Except.ok.inj hequal
        -- a size past the largest `long` is no number, and so not equal even to itself
        by_cases hm : m.toNat < 0x8000000000000000
        · by_cases hn : n.toNat < 0x8000000000000000
          · exact same_of_integers (.size m hm) (.size n hn) hkind hequal
          · rw [equalNumbers_comm, equalNumbers, number_of_large hn] at hnumbers
            cases hnumbers
        · rw [equalNumbers, number_of_large hm] at hnumbers
          cases hnumbers
    | _ => cases hkind
  | double d => cases y with
    | double e => exact .double (Except.ok.inj hequal)
    | _ => cases hkind
  | str s => cases y with
    | str t =>
        obtain ⟨left, hs⟩ := hx.exists_text hr
        obtain ⟨right, ht⟩ := hy.exists_text hr
        rw [equalScalars_texts hs ht] at hequal
        obtain rfl := eq_of_beq (Except.ok.inj hequal)
        exact .text hs ht
    | _ => cases hkind

lemma same_of_equal (hr : h.Readable) (ha : h.Names a) (hb : h.Names b)
    (hkind : a.sameKind b = true) (hequal : equal h a b = .ok true) : Same h a b := by
  cases a with
  | scalar x =>
      cases b with
      | scalar y => exact same_of_equalScalars hr ha hb hkind hequal
      | _ => cases hkind
  | _ =>
      cases b with
      | scalar y => cases hkind
      | _ =>
          rw [of_decide_eq_true (Except.ok.inj hequal)]
          exact .value trivial

/-- Strict equality decides whether two values are the same. -/
lemma strictEqual_eq_true_iff (hr : h.Readable) (ha : h.Names a) (hb : h.Names b) :
    strictEqual h a b = .ok true ↔ Same h a b := by
  constructor
  · intro hstrict
    unfold strictEqual at hstrict
    by_cases hkind : a.sameKind b = true
    · rw [if_pos hkind] at hstrict
      exact same_of_equal hr ha hb hkind hstrict
    · rw [if_neg hkind] at hstrict
      cases hstrict
  · intro hsame
    cases hsame with
    | value ordinary => exact (if_pos a.sameKind_self).trans (equal_self hr ha ordinary)
    | double equal => exact congrArg Except.ok equal
    | @text s t text left right =>
        exact (equalScalars_texts left right).trans (congrArg Except.ok (beq_self_eq_true text))

lemma Same.trans (hab : Same h a b) (hbc : Same h b c) : Same h a c := by
  cases hab with
  | value ordinary => exact hbc
  | @double d e equal =>
      cases hbc with
      | value ordinary => exact .double equal
      | @double _ f equal' =>
          refine .double ?_
          simp only [Double.equal, Bool.and_eq_true, Bool.not_eq_true', beq_iff_eq] at equal equal' ⊢
          exact ⟨⟨equal.1.1, equal'.1.2⟩, equal.2.trans equal'.2⟩
  | text left right =>
      cases hbc with
      | value ordinary => exact .text left right
      | text left' right' =>
          obtain rfl := Except.ok.inj (right.symm.trans left')
          exact .text left right'

/-- Doubles that are not a number, and sizes past the largest `long`, are not the same as
themselves. -/
lemma Same.ordinary (hsame : Same h a a) : a.Ordinary := by
  cases hsame with
  | value ordinary => exact ordinary
  | double equal =>
      simp only [Double.equal, Bool.and_eq_true, Bool.not_eq_true'] at equal
      exact equal.1.1
  | text left right => trivial

lemma strictEqual_comm (hr : h.Readable) (ha : h.Names a) (hb : h.Names b) :
    strictEqual h a b = strictEqual h b a := by
  rw [strictEqual, strictEqual, a.sameKind_comm, equal_comm hr ha hb]

lemma strictEqual_self (a : Value) : strictEqual h a a = equal h a a := if_pos a.sameKind_self

/-- The laws of equality, over all values whose strings are there. Both equalities have an
answer, which does not depend on the order, what is strictly equal is equal, and strict
equality is transitive. The values that are equal to themselves, in either sense, are all but
the doubles that are not a number and the sizes past the largest `long`; among those strict
equality is an equivalence. -/
theorem equality_laws (ht : h.Tended) :
    (∀ a b, h.Names a → h.Names b → ∃ strict loose,
      strictEqual h a b = .ok strict ∧ strictEqual h b a = .ok strict ∧
      equal h a b = .ok loose ∧ equal h b a = .ok loose ∧ (strict = true → loose = true)) ∧
    (∀ a, h.Names a → (strictEqual h a a = .ok true ↔ a.Ordinary) ∧
      (equal h a a = .ok true ↔ a.Ordinary)) ∧
    (∀ a b c, h.Names a → h.Names b → h.Names c → strictEqual h a b = .ok true →
      strictEqual h b c = .ok true → strictEqual h a c = .ok true) ∧
    Equivalence fun a b : { a : Value // h.Names a ∧ a.Ordinary } =>
      strictEqual h a b = .ok true := by
  have hr := ht.orderly.toReadable
  have hself : ∀ a, h.Names a → (strictEqual h a a = .ok true ↔ a.Ordinary) := fun a ha =>
    (strictEqual_eq_true_iff hr ha ha).trans ⟨Same.ordinary, .value⟩
  -- strict equality is `Same`, whose transitivity is that of its cases
  have htrans : ∀ a b c, h.Names a → h.Names b → h.Names c → strictEqual h a b = .ok true →
      strictEqual h b c = .ok true → strictEqual h a c = .ok true := by
    intro a b c ha hb hc hab hbc
    have hsame := ((strictEqual_eq_true_iff hr ha hb).mp hab).trans
      ((strictEqual_eq_true_iff hr hb hc).mp hbc)
    exact (strictEqual_eq_true_iff hr ha hc).mpr hsame
  refine ⟨fun a b ha hb => ?_, fun a ha => ⟨hself a ha, ?_⟩, htrans, ⟨fun a => ?_, ?_, ?_⟩⟩
  · obtain ⟨loose, hloose⟩ := exists_equal hr ha hb
    rw [← strictEqual_comm hr ha hb, ← equal_comm hr ha hb, hloose, strictEqual, hloose]
    by_cases hkind : a.sameKind b = true
    · exact ⟨loose, loose, if_pos hkind, if_pos hkind, rfl, rfl, id⟩
    · exact ⟨false, loose, if_neg hkind, if_neg hkind, rfl, rfl, nofun⟩
  · rw [← strictEqual_self]
    exact hself a ha
  · exact (hself a a.2.1).mpr a.2.2
  · intro a b hab
    rwa [strictEqual_comm hr b.2.1 a.2.1]
  · intro a b c
    exact htrans a b c a.2.1 b.2.1 c.2.1

/-- Two strings with one text are the same in either order; the least size that is no
number is not the same as itself. -/
theorem equality_laws_strings :
    ∃ h : Heap, h.Tended ∧ h.Names (.scalar (.str ⟨⟨0, 0⟩⟩)) ∧ h.Names (.scalar (.str ⟨⟨1, 0⟩⟩)) ∧
      strictEqual h (.scalar (.str ⟨⟨0, 0⟩⟩)) (.scalar (.str ⟨⟨1, 0⟩⟩)) = .ok true ∧
      strictEqual h (.scalar (.str ⟨⟨1, 0⟩⟩)) (.scalar (.str ⟨⟨0, 0⟩⟩)) = .ok true ∧
      strictEqual h (.scalar (.size 0x8000000000000000)) (.scalar (.size 0x8000000000000000)) ≠
        .ok true := by
  have created : Heap.Tended _ := .create (rfl : Heap.create 1024 (fun _ => true) = .ok _)
  have hrun : (Heap.insertText "a" false ⟨⟨1024, #[], [], 0, 0, fun _ => true⟩, #[], [], []⟩
      .silent).done?.any (fun first => first.2.1.tablesEmpty &&
        (Heap.insertText "a" true first.2.1 first.2.2).done?.any fun last => last.2.1.tablesEmpty &&
          (last.2.1.get? (⟨⟨0, 0⟩⟩ : Ref .string)).isSome &&
          (last.2.1.get? (⟨⟨1, 0⟩⟩ : Ref .string)).isSome &&
          (strictEqual last.2.1 (.scalar (.str ⟨⟨0, 0⟩⟩)) (.scalar (.str ⟨⟨1, 0⟩⟩))).toOption =
            some true) = true := by
    decide +kernel
  obtain ⟨first, hfirst, hrun⟩ := (Option.any_eq_true _ _).mp hrun
  obtain ⟨hempty, hrun⟩ := Bool.and_eq_true_iff.mp hrun
  obtain ⟨last, hlast, hrun⟩ := (Option.any_eq_true _ _).mp hrun
  simp only [Bool.and_eq_true, decide_eq_true_eq] at hrun
  obtain ⟨⟨⟨hempty', hleft⟩, hright⟩, hstrict⟩ := hrun
  have tended : last.2.1.Tended :=
    (created.done (.insertText "a" false) hfirst hempty).done (.insertText "a" true) hlast hempty'
  have hnames : ∀ {ref : Ref .string}, (last.2.1.get? ref).isSome = true →
      last.2.1.Names (.scalar (.str ref)) := by
    rintro ref hsome _ ⟨⟩
    exact Option.isSome_iff_exists.mp hsome
  have hstrict := Outcome.eq_of_toOption hstrict
  obtain ⟨hanswers, hself, -⟩ := equality_laws tended
  obtain ⟨strict, loose, hab, hba, -⟩ := hanswers _ _ (hnames hleft) (hnames hright)
  refine ⟨_, tended, hnames hleft, hnames hright, hstrict, hba.trans (hab.symm.trans hstrict), ?_⟩
  intro hsize
  have hsmall : (0x8000000000000000 : UInt64).toNat < 0x8000000000000000 :=
    (hself (.scalar (.size 0x8000000000000000)) nofun).1.mp hsize
  exact absurd hsmall (by decide)

end Arithmetic

end ScriptMachine
