import ScriptMachine.Arithmetic
import ScriptMachine.Proofs.Simulation.Storage

/-!
What is read from two heaps that stand for each other.

Related values have one type name and one text, related numbers are equal, and
two values are equal exactly if their partners are. So every computation that
only reads a heap gives related values, or fails in one way.

* `Tied.text`, `Tied.display`: texts;
* `Tied.binary`, `Tied.sum`: arithmetic;
* `Tied.equal`, `Tied.strictEqual`, `Tied.compare?`: comparison.
-/

namespace ScriptMachine

variable {w w' : World} {h h' : Heap} {j j' : Journal} {s s' t t' : Scalar} {a a' b b' v v' : Value}

/-- A list of results, one after another. -/
lemma Result.Rel.mapM {α β γ : Type} {R : α → β → Prop} {f : α → Result γ} {f' : β → Result γ}
    {l : List α} {l' : List β} (hl : List.Forall₂ R l l')
    (hf : ∀ x y, R x y → Result.Rel Eq (f x) (f' y)) : Result.Rel Eq (l.mapM f) (l'.mapM f') := by
  induction hl with
  | nil => exact .ok rfl
  | cons hxy _ ih =>
      rw [List.mapM_cons, List.mapM_cons]
      refine (hf _ _ hxy).bind fun u u' hu => ih.bind fun us us' hus => .ok ?_
      rw [hu, hus]

/-! ### Plain values -/

namespace Scalar

lemma Rel.integral_eq (hs : s.Rel w s') : s.integral = s'.integral := by
  cases hs <;> rfl

lemma Rel.sameKind_eq (hs : s.Rel w s') (ht : t.Rel w t') : s.sameKind t = s'.sameKind t' := by
  have hleft : s.sameKind t = s'.sameKind t := by
    cases hs with
    | plain => rfl
    | str => cases t <;> rfl
    | array => cases t <;> rfl
  have hright : s'.sameKind t = s'.sameKind t' := by
    cases ht with
    | plain => rfl
    | str => cases s' <;> rfl
    | array => cases s' <;> rfl
  exact hleft.trans hright

lemma handles_of_ofInt? {n : Int} (hs : Scalar.ofInt? n = some s) : s.handles = [] := by
  rw [Scalar.ofInt?] at hs
  split at hs
  · cases hs
    rfl
  · split at hs
    · cases hs
      rfl
    · cases hs

lemma rel_ofNat (n : Nat) : (Scalar.ofNat n).Rel w (Scalar.ofNat n) := by
  refine .plain _ ?_
  rw [Scalar.ofNat]
  cases hs : Scalar.ofInt? n with
  | none => rfl
  | some s => exact handles_of_ofInt? hs

end Scalar

namespace Value

lemma Rel.isTrue_eq (hv : v.Rel w v') : v.isTrue = v'.isTrue := by
  cases hv with
  | scalar hs => cases hs <;> rfl
  | _ => rfl

lemma Rel.isNull_eq (hv : v.Rel w v') : v.isNull = v'.isNull := by
  cases hv with
  | scalar hs => cases hs <;> rfl
  | _ => rfl

lemma Rel.integral_eq (hv : v.Rel w v') : v.integral = v'.integral := by
  cases hv with
  | scalar hs => exact hs.integral_eq
  | _ => rfl

lemma Rel.number_eq (hv : v.Rel w v') : Number.of? v = Number.of? v' := by
  cases hv with
  | scalar hs => cases hs <;> rfl
  | _ => rfl

lemma Rel.sameKind_eq (ha : a.Rel w a') (hb : b.Rel w b') : a.sameKind b = a'.sameKind b' := by
  cases ha with
  | scalar hs =>
      cases hb with
      | scalar ht => exact hs.sameKind_eq ht
      | _ => rfl
  | _ =>
      cases hb with
      | _ => rfl

end Value

lemma rel_getD {o o' : Option Value} (ho : Option.Rel (Value.Rel w) o o') :
    (o.getD .null).Rel w (o'.getD .null) := by
  cases ho with
  | none => exact Value.rel_null
  | some hv => exact hv

/-- An optional scalar as a value, null if there is none. -/
lemma rel_getD_scalar {o o' : Option Scalar} (ho : Option.Rel (Scalar.Rel w) o o') :
    ((o.map Value.scalar).getD .null).Rel w ((o'.map Value.scalar).getD .null) := by
  cases ho with
  | none => exact Value.rel_null
  | some hs => exact .scalar hs

/-- The element that an array makes of a scalar. -/
lemma rel_coerce (kind : ArrayKind) (hv : v.Rel w v') :
    Option.Rel (Scalar.Rel w) (v.scalar?.bind kind.coerce) (v'.scalar?.bind kind.coerce) := by
  cases hv with
  | @scalar s s' hs =>
      cases hs with
      | plain _ bare =>
          change Option.Rel (Scalar.Rel w) (kind.coerce s) (kind.coerce s)
          cases hc : kind.coerce s with
          | none => exact .none
          | some c =>
              refine .some (.plain c ?_)
              have he := ArrayKind.element_of_coerce hc
              cases he with
              | str ref =>
                  cases s with
                  | str _ => cases bare
                  | _ => cases hc
              | _ => rfl
      | str ref =>
          cases kind with
          | strings => exact .some (.str ref)
          | _ => exact .none
      | array ref => cases kind <;> exact .none
  | _ => exact .none

/-! ### Texts -/

namespace Heap

section Texts

variable {r r' : Ref .string}

lemma Tied.textBytes (ht : Tied w h j h' j') (hr : r.Rel w r') :
    Result.Rel Eq (h.textBytes r) (h'.textBytes r') := by
  obtain ⟨x, x', hx, hx', hrel, hm⟩ := ht.pairs hr
  obtain rfl : x = x' := hrel
  rw [ht.sound.1.textBytes hx, ht.sound.2.textBytes hx']
  obtain ⟨entry, hfind, hobject⟩ := get?_eq_some_iff.mp hx
  have hfits := ht.sound.1.fits _ _ hfind
  rw [hobject] at hfits
  refine .ok (List.map_congr_left fun i hi => hm i ?_)
  exact Nat.lt_of_lt_of_le (List.mem_range.mp hi) hfits.1

lemma Tied.text (ht : Tied w h j h' j') (hr : r.Rel w r') :
    Result.Rel Eq (h.text r) (h'.text r') := by
  refine (ht.textBytes hr).bind fun bytes bytes' heq => ?_
  subst heq
  cases decode? bytes with
  | none => exact .abort (by decide)
  | some text => exact .ok rfl

lemma Tied.textRecord (ht : Tied w h j h' j') (hr : r.Rel w r') :
    Result.Rel Eq (h.textRecord r) (h'.textRecord r') := by
  refine (ht.read hr).bind fun record record' heq => ?_
  obtain rfl : record = record' := heq
  exact .ite (fun _ => .ok rfl) fun _ => .abort (by decide)

lemma Tied.textByte? (ht : Tied w h j h' j') (hr : r.Rel w r') (index : Nat) :
    Result.Rel Eq (h.textByte? r index) (h'.textByte? r' index) := by
  obtain ⟨x, x', hx, hx', hrel, hm⟩ := ht.pairs hr
  obtain rfl : x = x' := hrel
  obtain ⟨entry, hfind, hobject⟩ := get?_eq_some_iff.mp hx
  obtain ⟨entry', hfind', hobject'⟩ := get?_eq_some_iff.mp hx'
  have hfits := ht.sound.1.fits _ _ hfind
  have hfits' := ht.sound.2.fits _ _ hfind'
  rw [hobject] at hfits
  rw [hobject'] at hfits'
  have hrecord : ∀ {g : Heap} {e : Ref .string}, g.get? e = some x →
      g.textRecord e = if x.isText then .ok x else Result.abort .invalidText := by
    intro g e hget
    rw [Heap.textRecord, read_of_get? hget]
    rfl
  rw [Heap.textByte?, Heap.textByte?, hrecord hx, hrecord hx']
  cases x.isText with
  | false => exact .abort (show Fault.invalidText ≠ .staleReference by decide)
  | true =>
      refine Result.Rel.pure ?_
      by_cases hlt : index < x.length
      · have hcap : index < x.capacity := Nat.lt_of_lt_of_le hlt hfits.1
        rw [if_pos hlt, if_pos hlt, ht.sound.1.byte?_eq hfind (Nat.lt_of_lt_of_le hcap hfits.2),
          ht.sound.2.byte?_eq hfind' (Nat.lt_of_lt_of_le hcap hfits'.2), hm index hcap]
      · rw [if_neg hlt, if_neg hlt]

end Texts

/-! ### Arrays -/

section Arrays

variable {r r' : Ref .array}

lemma Tied.arrayGet? (ht : Tied w h j h' j') (hr : r.Rel w r') (index : Nat) :
    Result.Rel (Option.Rel (Scalar.Rel w)) (h.arrayGet? r index) (h'.arrayGet? r' index) := by
  obtain ⟨x, x', hx, hx', hrel, hm⟩ := ht.pairs hr
  obtain rfl : x = x' := hrel
  obtain ⟨entry, hfind, hobject⟩ := get?_eq_some_iff.mp hx
  obtain ⟨entry', hfind', hobject'⟩ := get?_eq_some_iff.mp hx'
  rw [ht.sound.1.arrayGet? hfind hobject, ht.sound.2.arrayGet? hfind' hobject']
  refine .ok ?_
  split
  · rename_i hlt
    exact .some (hm index hlt)
  · exact .none

lemma Tied.arrayElements (ht : Tied w h j h' j') (hr : r.Rel w r') :
    Result.Rel (List.Forall₂ (Scalar.Rel w)) (h.arrayElements r) (h'.arrayElements r') := by
  obtain ⟨x, x', hx, hx', hrel, hm⟩ := ht.pairs hr
  obtain rfl : x = x' := hrel
  obtain ⟨entry, hfind, hobject⟩ := get?_eq_some_iff.mp hx
  obtain ⟨entry', hfind', hobject'⟩ := get?_eq_some_iff.mp hx'
  rw [ht.sound.1.arrayElements hfind hobject, ht.sound.2.arrayElements hfind' hobject']
  refine .ok (List.forall₂_map_left_iff.mpr (List.forall₂_map_right_iff.mpr ?_))
  exact List.forall₂_same.mpr fun i hi => hm i (List.mem_range.mp hi)

end Arrays

/-! ### Types and printed forms -/

lemma Tied.scalarType (ht : Tied w h j h' j') (hs : s.Rel w s') :
    Result.Rel Eq (h.scalarType s) (h'.scalarType s') := by
  cases hs with
  | plain s bare =>
      cases s with
      | array _ => cases bare
      | _ => exact .ok rfl
  | str ref => exact .ok rfl
  | array ref =>
      refine (ht.read ref).bind fun record record' heq => .ok ?_
      rw [show record = record' from heq]

lemma Tied.typeName (ht : Tied w h j h' j') (hv : v.Rel w v') :
    Result.Rel Eq (h.typeName v) (h'.typeName v') := by
  cases hv with
  | scalar hs => exact ht.scalarType hs
  | _ => exact .ok rfl

section Inner

variable {inner inner' : Value → Result String}

/-- What is inside a container is printed alike. -/
def Prints (w : World) (inner inner' : Option (Value → Result String)) : Prop :=
  Option.Rel (fun f f' => ∀ v v', v.Rel w v' → Result.Rel Eq (f v) (f' v')) inner inner'

lemma rel_listText {inner inner' : Option (Value → Result String)} (hi : Prints w inner inner')
    {l l' : List Value} (hl : List.Forall₂ (Value.Rel w) l l') :
    Result.Rel Eq (listText inner l) (listText inner' l') := by
  cases hi with
  | none => exact .ok rfl
  | some hprint =>
      refine (Result.Rel.mapM hl hprint).bind fun texts texts' heq => .ok ?_
      rw [heq]

lemma rel_tableText (hi : ∀ v v', v.Rel w v' → Result.Rel Eq (inner v) (inner' v'))
    {t t' : Table} (ht : t.Rel w t') : Result.Rel Eq (tableText inner t) (tableText inner' t') := by
  refine (Result.Rel.mapM ht.entries fun p p' hp => ?_).bind fun texts texts' heq => .ok ?_
  · refine (hi _ _ (.scalar hp.1.scalar)).bind fun key key' hkey =>
      (hi _ _ hp.2).bind fun value value' hvalue => .ok ?_
    rw [hkey, hvalue]
  · rw [heq]

end Inner

lemma scalars_rel {l l' : List Scalar} (hl : List.Forall₂ (Scalar.Rel w) l l') :
    List.Forall₂ (Value.Rel w) (l.map .scalar) (l'.map .scalar) :=
  List.forall₂_map_left_iff.mpr (List.forall₂_map_right_iff.mpr (hl.imp fun _ _ => .scalar))

/-- Related values are displayed alike. -/
lemma Tied.displayWith (ht : Tied w h j h' j') {inner inner' : Option (Value → Result String)}
    (hi : Prints w inner inner') (hv : v.Rel w v') :
    Result.Rel Eq (h.displayWith inner v) (h'.displayWith inner' v') := by
  cases hv with
  | @scalar s s' hs =>
      cases hs with
      | plain _ bare =>
          cases s with
          | str _ => cases bare
          | array _ => cases bare
          | _ => exact .ok rfl
      | str ref => exact ht.text ref
      | array ref =>
          exact (ht.arrayElements ref).bind fun _ _ hl => rel_listText hi (scalars_rel hl)
  | cls ref =>
      refine (ht.read ref).bind fun c c' hc => (ht.text hc.name).bind fun name name' heq => .ok ?_
      rw [heq]
  | closure ref =>
      refine (ht.read ref).bind fun c c' hc => (ht.read hc.function).bind fun f f' hf => .ok ?_
      rw [Function.text, Function.text, hf.name]
  | function ref =>
      refine (ht.read ref).bind fun f f' hf => .ok ?_
      rw [Function.text, Function.text, hf.name]
  | inst ref =>
      refine (ht.read ref).bind fun i i' hinst => (ht.read hinst.cls).bind fun c c' hc =>
        (ht.text hc.name).bind fun name name' heq => .ok ?_
      rw [heq]
  | native ref =>
      refine (ht.read ref).bind fun n n' heq => .ok ?_
      rw [show n = n' from heq]
  | stack ref => exact (ht.read ref).bind fun _ _ hs => rel_listText hi hs.toList
  | table ref =>
      cases hi with
      | none => exact .ok rfl
      | some hprint => exact (ht.read ref).bind fun _ _ htable => rel_tableText hprint htable
  | vector ref =>
      exact (ht.read ref).bind fun _ _ hs => rel_listText hi (scalars_rel hs.toList)

lemma Tied.displayTo (ht : Tied w h j h' j') (depth : Nat) (hv : v.Rel w v') :
    Result.Rel Eq (h.displayTo depth v) (h'.displayTo depth v') := by
  induction depth generalizing v v' with
  | zero => exact ht.displayWith .none hv
  | succ depth ih => exact ht.displayWith (.some fun _ _ => ih) hv

lemma Tied.display (ht : Tied w h j h' j') (hv : v.Rel w v') :
    Result.Rel Eq (h.display v) (h'.display v') :=
  ht.displayTo displayDepth hv

lemma Tied.hash? (ht : Tied w h j h' j') (hs : s.Rel w s') :
    Result.Rel Eq (h.hash? s) (h'.hash? s') := by
  cases hs with
  | plain s bare =>
      cases s with
      | str _ => cases bare
      | _ => exact .ok rfl
  | str ref =>
      refine (ht.read ref).bind fun record record' heq => .ok ?_
      rw [show record = record' from heq]
  | array ref => exact .ok rfl

/-! ### Arithmetic -/

variable {α β : Type} {V : α → β → Prop}

lemma Tied.unsupported (ht : Tied w h j h' j') (op : String) (ha : a.Rel w a') (hb : b.Rel w b') :
    Result.Rel V (Arithmetic.unsupported h op a b) (Arithmetic.unsupported h' op a' b') := by
  refine (ht.typeName ha).bind fun type type' htype =>
    (ht.typeName hb).bind fun other other' hother => ?_
  subst htype hother
  exact .raise _

lemma Tied.unsupportedPrefix (ht : Tied w h j h' j') (op : String) (ha : a.Rel w a') :
    Result.Rel V (Arithmetic.unsupportedPrefix h op a) (Arithmetic.unsupportedPrefix h' op a') := by
  refine (ht.typeName ha).bind fun type type' htype => ?_
  subst htype
  exact .raise _

lemma rel_narrow (op : String) (n : Int) :
    Result.Rel (Scalar.Rel w) (Arithmetic.narrow op n) (Arithmetic.narrow op n) := by
  rw [Arithmetic.narrow]
  cases hs : Scalar.ofInt? n with
  | none => exact .raise _
  | some s => exact .ok (.plain s (Scalar.handles_of_ofInt? hs))

lemma Tied.binary (ht : Tied w h j h' j') (op : String) (exact : Int → Int → Int)
    (rounded : Double → Double → Double) (ha : a.Rel w a') (hb : b.Rel w b') :
    Result.Rel (Scalar.Rel w) (Arithmetic.binary h op exact rounded a b)
      (Arithmetic.binary h' op exact rounded a' b') := by
  rw [Arithmetic.binary, Arithmetic.binary, ha.number_eq, hb.number_eq]
  cases Number.of? a' with
  | none => exact ht.unsupported op ha hb
  | some x =>
      cases Number.of? b' with
      | none => cases x <;> exact ht.unsupported op ha hb
      | some y =>
          cases x with
          | integral x =>
              cases y with
              | integral y => exact rel_narrow op _
              | double y => exact .ok (.plain _ rfl)
          | double x => exact .ok (.plain _ rfl)

lemma Tied.div (ht : Tied w h j h' j') (ha : a.Rel w a') (hb : b.Rel w b') :
    Result.Rel (Scalar.Rel w) (Arithmetic.div h a b) (Arithmetic.div h' a' b') := by
  rw [Arithmetic.div, Arithmetic.div, ha.number_eq, hb.number_eq]
  cases Number.of? a' with
  | none => exact ht.unsupported "/" ha hb
  | some x =>
      cases Number.of? b' with
      | none => exact ht.unsupported "/" ha hb
      | some y => exact .ite (fun _ => .raise _) fun _ => .ok (.plain _ rfl)

lemma Tied.rem (ht : Tied w h j h' j') (ha : a.Rel w a') (hb : b.Rel w b') :
    Result.Rel (Scalar.Rel w) (Arithmetic.rem h a b) (Arithmetic.rem h' a' b') := by
  rw [Arithmetic.rem, Arithmetic.rem, ha.number_eq, hb.number_eq]
  cases Number.of? a' with
  | none => exact ht.unsupported "%" ha hb
  | some x =>
      cases Number.of? b' with
      | none => cases x <;> exact ht.unsupported "%" ha hb
      | some y =>
          cases x with
          | integral x =>
              cases y with
              | integral y =>
                  exact .ite (fun _ => .raise _) fun _ =>
                    .ite (fun _ => rel_narrow "%" _) fun _ => .raise _
              | double y => exact ht.unsupported "%" ha hb
          | double x => exact ht.unsupported "%" ha hb

lemma Tied.step (ht : Tied w h j h' j') (ha : a.Rel w a') (up : Bool) :
    Result.Rel (Scalar.Rel w) (Arithmetic.step h a up) (Arithmetic.step h' a' up) := by
  rw [Arithmetic.step, Arithmetic.step, ha.number_eq]
  cases Number.of? a' with
  | none => exact ht.unsupportedPrefix _ ha
  | some x =>
      cases x with
      | integral x => exact rel_narrow _ _
      | double x => exact .ok (.plain _ rfl)

/-- The negative of a value as a number. -/
def negative (h : Heap) (a : Value) : Result Scalar :=
  match Number.of? a with
  | some (.double x) => .ok (.double x.neg)
  | some (.integral x) => Arithmetic.narrow "-" (-x)
  | none => Arithmetic.unsupportedPrefix h "-" a

lemma Tied.negative (ht : Tied w h j h' j') (ha : a.Rel w a') :
    Result.Rel (Scalar.Rel w) (h.negative a) (h'.negative a') := by
  rw [Heap.negative, Heap.negative, ha.number_eq]
  cases Number.of? a' with
  | none => exact ht.unsupportedPrefix _ ha
  | some x =>
      cases x with
      | integral x => exact rel_narrow _ _
      | double x => exact .ok (.plain _ rfl)

lemma Tied.negate (ht : Tied w h j h' j') (ha : a.Rel w a') :
    Result.Rel (Scalar.Rel w) (Arithmetic.negate h a) (Arithmetic.negate h' a') := by
  have hnegative := ht.negative ha
  cases ha with
  | @scalar s s' hs =>
      cases hs with
      | plain _ bare =>
          -- null and the truth values are inverted, all others are numbers
          cases s with
          | null => exact .ok (.plain _ rfl)
          | bool b => exact .ok (.plain _ rfl)
          | _ => exact hnegative
      | _ => exact hnegative
  | _ => exact hnegative

/-- Sums of one kind, with related scalars or one text. -/
inductive SumRel (w : World) : Sum → Sum → Prop
  | scalar {s s' : Scalar} (related : s.Rel w s') : SumRel w (.scalar s) (.scalar s')
  | text (text : String) : SumRel w (.text text) (.text text)

lemma Tied.textForm? (ht : Tied w h j h' j') (hs : s.Rel w s') :
    Result.Rel Eq (Arithmetic.textForm? h s) (Arithmetic.textForm? h' s') := by
  cases hs with
  | plain s bare =>
      cases s with
      | str _ => cases bare
      | _ => exact .ok rfl
  | str ref => exact (ht.text ref).bind fun _ _ heq => .ok (congrArg some heq)
  | array ref => exact .ok rfl

lemma Tied.concat (ht : Tied w h j h' j') (ha : a.Rel w a') (hb : b.Rel w b') (hs : s.Rel w s')
    (hs' : t.Rel w t') :
    Result.Rel (SumRel w) (Arithmetic.concat h a b s t) (Arithmetic.concat h' a' b' s' t') := by
  refine (ht.textForm? hs).bind fun left left' hleft =>
    (ht.textForm? hs').bind fun right right' hright => ?_
  subst hleft hright
  cases left with
  | none => exact ht.unsupported "+" ha hb
  | some left =>
      cases right with
      | none => exact ht.unsupported "+" ha hb
      | some right => exact .ok (.text _)

lemma isString_eq (ha : a.Rel w a') : Arithmetic.isString a = Arithmetic.isString a' := by
  cases ha with
  | scalar hs => cases hs <;> rfl
  | _ => rfl

lemma Tied.sum (ht : Tied w h j h' j') (ha : a.Rel w a') (hb : b.Rel w b') :
    Result.Rel (SumRel w) (Arithmetic.add h a b) (Arithmetic.add h' a' b') := by
  have hsum : Result.Rel (SumRel w)
      (Sum.scalar <$> Arithmetic.binary h "+" (· + ·) Double.add a b)
      (Sum.scalar <$> Arithmetic.binary h' "+" (· + ·) Double.add a' b') := by
    have hbinary := ht.binary "+" (· + ·) Double.add ha hb
    generalize Arithmetic.binary h "+" (· + ·) Double.add a b = r,
      Arithmetic.binary h' "+" (· + ·) Double.add a' b' = r' at hbinary
    cases hbinary with
    | ok hs => exact .ok (.scalar hs)
    | error failure live => exact .error failure live
  cases ha with
  | scalar hs =>
      cases hb with
      | scalar hs' =>
          rw [Arithmetic.add, Arithmetic.add, isString_eq (.scalar hs), isString_eq (.scalar hs')]
          exact .ite (fun _ => ht.concat (.scalar hs) (.scalar hs') hs hs') fun _ => hsum
      | _ => exact hsum
  | _ => exact hsum

/-! ### Comparison -/

/-- References are equal exactly if their partners are. -/
lemma Tied.ref_eq_iff (ht : Tied w h j h' j') {k : Kind} {r r' e e' : Ref k} (hr : r.Rel w r')
    (he : e.Rel w e') : r = e ↔ r' = e' := by
  constructor
  · rintro rfl
    exact congrArg Ref.mk (ht.functional hr he)
  · rintro rfl
    exact congrArg Ref.mk (ht.injective hr he)

lemma Tied.scalar_eq_iff (ht : Tied w h j h' j') (hs : s.Rel w s') (hs' : t.Rel w t') :
    s = t ↔ s' = t' := by
  cases hs with
  | plain s bare =>
      cases hs' with
      | plain => exact .rfl
      | _ => refine iff_of_false ?_ ?_ <;> rintro rfl <;> cases bare
  | str hr =>
      cases hs' with
      | plain t bare => refine iff_of_false ?_ ?_ <;> rintro rfl <;> cases bare
      | str he => simp [ht.ref_eq_iff hr he]
      | array he => simp
  | array hr =>
      cases hs' with
      | plain t bare => refine iff_of_false ?_ ?_ <;> rintro rfl <;> cases bare
      | str he => simp
      | array he => simp [ht.ref_eq_iff hr he]

/-- Values are equal exactly if their partners are. -/
lemma Tied.value_eq_iff (ht : Tied w h j h' j') (ha : a.Rel w a') (hb : b.Rel w b') :
    a = b ↔ a' = b' := by
  cases ha with
  | scalar hs =>
      cases hb with
      | scalar hs' => simp [ht.scalar_eq_iff hs hs']
      | _ => simp
  | cls hr =>
      cases hb with
      | cls he => simp [ht.ref_eq_iff hr he]
      | _ => simp
  | closure hr =>
      cases hb with
      | closure he => simp [ht.ref_eq_iff hr he]
      | _ => simp
  | function hr =>
      cases hb with
      | function he => simp [ht.ref_eq_iff hr he]
      | _ => simp
  | inst hr =>
      cases hb with
      | inst he => simp [ht.ref_eq_iff hr he]
      | _ => simp
  | native hr =>
      cases hb with
      | native he => simp [ht.ref_eq_iff hr he]
      | _ => simp
  | stack hr =>
      cases hb with
      | stack he => simp [ht.ref_eq_iff hr he]
      | _ => simp
  | table hr =>
      cases hb with
      | table he => simp [ht.ref_eq_iff hr he]
      | _ => simp
  | vector hr =>
      cases hb with
      | vector he => simp [ht.ref_eq_iff hr he]
      | _ => simp

lemma Tied.isNumeral (ht : Tied w h j h' j') {r r' : Ref .string} (hr : r.Rel w r') (n : Scalar) :
    Result.Rel Eq (Arithmetic.isNumeral h r n) (Arithmetic.isNumeral h' r' n) := by
  rw [Arithmetic.isNumeral, Arithmetic.isNumeral]
  cases n.integral with
  | none => exact .ok rfl
  | some n =>
      refine (ht.text hr).bind fun text text' heq => .ok ?_
      rw [heq]

lemma equalNumbers_eq (ha : a.Rel w a') (hb : b.Rel w b') :
    Arithmetic.equalNumbers a b = Arithmetic.equalNumbers a' b' := by
  rw [Arithmetic.equalNumbers, Arithmetic.equalNumbers, ha.number_eq, hb.number_eq]

/-- Related scalars are equal to related ones alike. -/
lemma Tied.equalScalars (ht : Tied w h j h' j') (hs : s.Rel w s') (hs' : t.Rel w t') :
    Result.Rel Eq (Arithmetic.equalScalars h s t) (Arithmetic.equalScalars h' s' t') := by
  have hnumbers : Result.Rel Eq
      (.ok (Arithmetic.equalNumbers (.scalar s) (.scalar t)) : Result Bool)
      (.ok (Arithmetic.equalNumbers (.scalar s') (.scalar t'))) :=
    .ok (equalNumbers_eq (.scalar hs) (.scalar hs'))
  cases hs with
  | plain s bare =>
      cases hs' with
      | plain t bare' =>
          cases s with
          | str _ => cases bare
          | array _ => cases bare
          | _ => cases t <;> first | exact .ok rfl | cases bare'
      | str hr =>
          cases s with
          | int n => exact ht.isNumeral hr (.int n)
          | long n => exact ht.isNumeral hr (.long n)
          | size n => exact ht.isNumeral hr (.size n)
          | byte n => exact ht.isNumeral hr (.byte n)
          | str _ => cases bare
          | _ => exact hnumbers
      | array hr =>
          cases s with
          | array _ => cases bare
          | _ => exact hnumbers
  -- a string is compared with an integer by its numeral, on either side
  | str hr =>
      cases hs' with
      | plain t bare =>
          cases t with
          | int n => exact ht.isNumeral hr (.int n)
          | long n => exact ht.isNumeral hr (.long n)
          | size n => exact ht.isNumeral hr (.size n)
          | byte n => exact ht.isNumeral hr (.byte n)
          | str _ => cases bare
          | _ => exact hnumbers
      | str he =>
          refine (ht.text hr).bind fun text text' htext =>
            (ht.text he).bind fun other other' hother => .ok ?_
          rw [htext, hother]
      | array he => exact hnumbers
  | array hr =>
      cases hs' with
      | plain t bare =>
          cases t with
          | array _ => cases bare
          | _ => exact hnumbers
      | str he => exact hnumbers
      | array he => exact .ok (decide_eq_decide.mpr (ht.ref_eq_iff hr he))

lemma Tied.equal (ht : Tied w h j h' j') (ha : a.Rel w a') (hb : b.Rel w b') :
    Result.Rel Eq (Arithmetic.equal h a b) (Arithmetic.equal h' a' b') := by
  have hsame : Result.Rel Eq (.ok (decide (a = b)) : Result Bool) (.ok (decide (a' = b'))) :=
    .ok (decide_eq_decide.mpr (ht.value_eq_iff ha hb))
  cases ha with
  | scalar hs =>
      cases hb with
      | scalar hs' => exact ht.equalScalars hs hs'
      | _ => exact hsame
  | _ => exact hsame

lemma Tied.strictEqual (ht : Tied w h j h' j') (ha : a.Rel w a') (hb : b.Rel w b') :
    Result.Rel Eq (Arithmetic.strictEqual h a b) (Arithmetic.strictEqual h' a' b') := by
  rw [Arithmetic.strictEqual, Arithmetic.strictEqual, ha.sameKind_eq hb]
  exact .ite (fun _ => ht.equal ha hb) fun _ => .ok rfl

/-- The order of two values as numbers. -/
def compareNumbers? (h : Heap) (op : String) (a b : Value) : Result (Option Ordering) :=
  match Number.of? a, Number.of? b with
  | some (.integral m), some (.integral n) => .ok (some (compare m n))
  | some m, some n => .ok (m.toDouble.compare? n.toDouble)
  | _, _ => Arithmetic.unsupported h op a b

lemma Tied.compareNumbers? (ht : Tied w h j h' j') (op : String) (ha : a.Rel w a')
    (hb : b.Rel w b') :
    Result.Rel Eq (h.compareNumbers? op a b) (h'.compareNumbers? op a' b') := by
  rw [Heap.compareNumbers?, Heap.compareNumbers?, ha.number_eq, hb.number_eq]
  cases Number.of? a' with
  | none => exact ht.unsupported op ha hb
  | some x =>
      cases Number.of? b' with
      | none => cases x <;> exact ht.unsupported op ha hb
      | some y => cases x <;> cases y <;> exact .ok rfl

/-- Related values are ordered alike. -/
lemma Tied.compare? (ht : Tied w h j h' j') (op : String) (ha : a.Rel w a') (hb : b.Rel w b') :
    Result.Rel Eq (Arithmetic.compare? h op a b) (Arithmetic.compare? h' op a' b') := by
  have hnumbers := ht.compareNumbers? op ha hb
  cases ha with
  | @scalar s s' hs =>
      cases hs with
      | plain _ bare =>
          cases s with
          | str _ => cases bare
          | _ => exact hnumbers
      | str hr =>
          cases hb with
          | @scalar t t' hs' =>
              cases hs' with
              | plain _ bare =>
                  cases t with
                  | str _ => cases bare
                  | _ => exact hnumbers
              | str he =>
                  refine (ht.text hr).bind fun text text' htext =>
                    (ht.text he).bind fun other other' hother => .ok ?_
                  rw [htext, hother]
              | array he => exact hnumbers
          | _ => exact hnumbers
      | array hr => exact hnumbers
  | _ => exact hnumbers

end Heap

end ScriptMachine
