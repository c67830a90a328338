import ScriptMachine.Proofs.Machine.Constants
import ScriptMachine.Proofs.Machine.Operands

/-!
The constants of a chunk.

A constant is added behind the others unless one that is equal is there already. Equal
values are one value, but for the two zeros among the doubles (`eq_or_zero_of_same`). So
the constants of a chunk are the values that were passed, each at its first place, and
what has an index keeps it.

* `same_congr`: values that are equal are equal to the same values;
* `writeConstant_apply`, `emitConstant_apply`: what adding a constant does;
* `Collects.find?_eq`: a constant is the first value that was passed and is equal;
* `Collects.isPrefix`: constants stay;
* `Collects.constants_kept`: a constant that is loaded is the one that was written, or the
  other zero.
-/

namespace ScriptMachine

/-! ### Values that are equal -/

namespace Double

variable {d e : Double}

lemma rank_of_zero (hd : d.magnitude = 0) : d.rank = 0 := by
  rw [rank, hd]
  split <;> rfl

lemma isNaN_of_zero (hd : d.magnitude = 0) : d.isNaN = false := by
  rw [isNaN, hd]
  decide

/-- The sign is the highest bit. -/
lemma rank_eq (d : Double) : d.rank =
    if 0x8000000000000000 ≤ d.bits.toNat then 0x8000000000000000 - (d.bits.toNat : Int)
    else d.bits.toNat := by
  have hlt := d.bits.toNat_lt
  rw [rank, magnitude, signBit]
  by_cases hsign : 0x8000000000000000 ≤ d.bits.toNat
  · rw [if_pos hsign, if_pos (show d.isNegative = true from decide_eq_true hsign)]
    omega
  · rw [if_neg hsign, if_neg (show ¬ d.isNegative = true from fun h => hsign (of_decide_eq_true h))]
    omega

/-- Doubles that are equal have the same bits, or are zeros. -/
lemma eq_or_zero_of_equal (h : d.equal e = true) : d = e ∨ d.magnitude = 0 ∧ e.magnitude = 0 := by
  simp only [equal, Bool.and_eq_true, beq_iff_eq, rank_eq] at h
  have hrank := h.2
  by_cases hbits : d.bits.toNat = e.bits.toNat
  · exact .inl (congrArg Double.mk (UInt64.toNat_inj.mp hbits))
  · right
    rw [magnitude, magnitude, signBit]
    split at hrank <;> split at hrank <;> omega

end Double

namespace Value

variable {a b : Value}

/-- One of the two zeros among the doubles. -/
def IsZero (a : Value) : Prop := ∃ d : Double, a = .scalar (.double d) ∧ d.magnitude = 0

lemma eq_or_zero_of_same (h : a.same b = true) : a = b ∨ a.IsZero ∧ b.IsZero := by
  cases a with
  | scalar s =>
      cases b with
      | scalar t =>
          cases s with
          | double d =>
              cases t with
              | double e =>
                  rcases Double.eq_or_zero_of_equal h with rfl | ⟨hd, he⟩
                  · exact .inl rfl
                  · exact .inr ⟨⟨d, rfl, hd⟩, ⟨e, rfl, he⟩⟩
              | _ => cases h
          | _ => exact .inl (congrArg Value.scalar (of_decide_eq_true h))
      | _ => cases h
  | _ => exact .inl (of_decide_eq_true h)

/-- The two zeros are equal to the same values. -/
lemma same_of_zeros (ha : a.IsZero) (hb : b.IsZero) (c : Value) : c.same a = c.same b := by
  obtain ⟨d, rfl, hd⟩ := ha
  obtain ⟨e, rfl, he⟩ := hb
  cases c with
  | scalar s =>
      cases s with
      | double f =>
          show f.equal d = f.equal e
          rw [Double.equal, Double.equal, Double.isNaN_of_zero hd, Double.isNaN_of_zero he,
            Double.rank_of_zero hd, Double.rank_of_zero he]
      | _ => rfl
  | _ => rfl

/-- Values that are equal are equal to the same values. -/
lemma same_congr (h : a.same b = true) (c : Value) : c.same a = c.same b := by
  rcases eq_or_zero_of_same h with rfl | ⟨ha, hb⟩
  · rfl
  · exact same_of_zeros ha hb c

lemma same_self (h : ∀ d, a ≠ .scalar (.double d)) : a.same a = true := by
  cases a with
  | scalar s =>
      cases s with
      | double d => exact absurd rfl (h d)
      | _ => simp [same, Scalar.same]
  | _ => simp [same]

end Value

namespace Code.Chunk

variable {c c₁ c₂ : Chunk} {value : Value} {values later : List Value} {journal : Journal}

/-! ### Adding a constant -/

/-- The index that a value has among the constants, or gets: that of the first one which is
equal, or the number of constants. -/
def indexOf (c : Chunk) (value : Value) : Nat := c.constants.toList.findIdx (·.same value)

/-- A chunk with a value among its constants. -/
def withConstant (c : Chunk) (value : Value) : Chunk :=
  if c.indexOf value < c.constants.length then c
  else { c with constants := c.constants.push value }

lemma indexOf_of_not_lt (hge : ¬ c.indexOf value < c.constants.length) :
    c.indexOf value = c.constants.length := by
  refine Nat.le_antisymm ?_ (Nat.le_of_not_lt hge)
  rw [Stack.length_eq]
  exact List.findIdx_le_length

/-- The search finds the index if there is an equal value. -/
lemma findIdx?_eq (c : Chunk) (value : Value) :
    c.constants.items.findIdx? (·.same value) =
      if c.indexOf value < c.constants.length then some (c.indexOf value) else none := by
  have hlist : c.constants.items.findIdx? (·.same value) =
      c.constants.toList.findIdx? (·.same value) := List.findIdx?_toArray _ c.constants.toList
  rw [hlist]
  split
  case isTrue hlt =>
    exact List.findIdx?_eq_some_iff_findIdx_eq.mpr ⟨Stack.length_eq _ ▸ hlt, rfl⟩
  case isFalse hge =>
    exact List.findIdx?_eq_none_iff_findIdx_eq.mpr
      ((indexOf_of_not_lt hge).trans (Stack.length_eq _))

/-- Adding a constant fails if its index is too large, after the constant was added. -/
lemma writeConstant_apply (c : Chunk) (value : Value) (journal : Journal) :
    writeConstant value c journal =
      if c.indexOf value ≤ largestWord then
        .done (UInt16.ofNat (c.indexOf value)) (c.withConstant value) journal
      else .raised .tooManyConstants (c.withConstant value) journal := by
  unfold writeConstant withConstant
  rw [Action.modifyGet_bind]
  by_cases hlt : c.indexOf value < c.constants.length
  · simp only [findIdx?_eq, if_pos hlt]
    split <;> rfl
  · simp only [findIdx?_eq, if_neg hlt]
    rw [← indexOf_of_not_lt hlt]
    split <;> rfl

/-- The chunk with an instruction behind its code that pushes a constant. -/
def loading (c : Chunk) (index : Nat) (line : Nat) : Chunk :=
  (c.append Opcode.constant.toWord line).append (UInt16.ofNat index) line

lemma emitConstant_apply (c : Chunk) (value : Value) (line : Nat) (journal : Journal) :
    emitConstant value line c journal =
      if c.indexOf value ≤ largestWord then
        .done () ((c.withConstant value).loading (c.indexOf value) line) journal
      else .raised .tooManyConstants (c.withConstant value) journal := by
  rw [emitConstant, Action.bind_apply, writeConstant_apply]
  by_cases hle : c.indexOf value ≤ largestWord
  · rw [if_pos hle, if_pos hle]
    rfl
  · rw [if_neg hle, if_neg hle]

/-! ### Sequences of calls -/

/-- A call adds a value, with an instruction that loads it or without, whether it succeeds
or not. -/
inductive Adds (value : Value) (c c' : Chunk) : Prop
  | write (journal : Journal) (run : (writeConstant value c journal).state? = some c')
  | emit (line : Nat) (journal : Journal)
      (run : (emitConstant value line c journal).state? = some c')

/-- The chunk `c` becomes `c'` when values are added one by one. -/
inductive Collects (c : Chunk) : (values : List Value) → (c' : Chunk) → Prop
  | start : Collects c [] c
  | next {values : List Value} {value : Value} {c₁ c₂ : Chunk} (past : Collects c values c₁)
      (adds : Adds value c₁ c₂) : Collects c (values ++ [value]) c₂

lemma Adds.constants (ha : Adds value c c₁) : c₁.constants = (c.withConstant value).constants := by
  cases ha with
  | write journal run =>
      rw [writeConstant_apply] at run
      split at run <;> rw [← Option.some.inj run]
  | emit line journal run =>
      rw [emitConstant_apply] at run
      split at run
      · rw [← Option.some.inj run]
        rfl
      · rw [← Option.some.inj run]

/-- The constants after a call. -/
lemma Adds.toList (ha : Adds value c c₁) : c₁.constants.toList =
    if c.indexOf value < c.constants.length then c.constants.toList
    else c.constants.toList ++ [value] := by
  rw [ha.constants, withConstant]
  split
  · rfl
  · exact Stack.toList_push _ _

/-- Constants stay. -/
lemma Collects.isPrefix (hc : Collects c values c₁) :
    c.constants.toList <+: c₁.constants.toList := by
  induction hc with
  | start => exact List.prefix_refl _
  | next past adds ih =>
      refine ih.trans ?_
      rw [adds.toList]
      split
      · exact List.prefix_refl _
      · exact List.prefix_append _ _

/-- A constant is the first value that was passed and is equal. -/
lemma Collects.find?_eq (hc : Collects .empty values c) (value : Value) :
    c.constants.toList.find? (·.same value) = values.find? (·.same value) := by
  induction hc with
  | start => rfl
  | @next values added c₁ c₂ past adds ih =>
      rw [adds.toList, List.find?_append, ← ih]
      split
      case isTrue hlt =>
        -- what is equal to the value that was not added is equal to the one that is there
        by_cases hsame : added.same value = true
        · obtain ⟨x, hmem, hx⟩ := List.findIdx_lt_length.mp (Stack.length_eq _ ▸ hlt)
          have hfound : (c₁.constants.toList.find? (·.same value)).isSome = true := by
            rw [List.find?_isSome]
            exact ⟨x, hmem, Value.same_congr hsame x ▸ hx⟩
          obtain ⟨y, hy⟩ := Option.isSome_iff_exists.mp hfound
          rw [hy, Option.some_or]
        · rw [List.find?_singleton, if_neg hsame, Option.or_none]
      case isFalse => rw [List.find?_append]

/-! ### Constants that are loaded -/

/-- What stands at the index of a value after the value was added: the first value that was
passed and is equal, or the value itself. -/
lemma Collects.getElem?_of_adds (hc : Collects .empty values c) (ha : Adds value c c₁) :
    c₁.constants.toList[c.indexOf value]? = some ((values.find? (·.same value)).getD value) := by
  have hold : values.find? (·.same value) = c.constants.toList[c.indexOf value]? := by
    rw [← hc.find?_eq, List.find?_eq_getElem?_findIdx]
    rfl
  rw [ha.toList, hold]
  split
  case isTrue hlt =>
    rw [Stack.length_eq] at hlt
    rw [List.getElem?_eq_getElem hlt, Option.getD_some]
  case isFalse hge =>
    rw [indexOf_of_not_lt hge, Stack.length_eq, List.getElem?_concat_length,
      List.getElem?_eq_none (Nat.le_refl _), Option.getD_none]

lemma indexOf_congr {other : Value} (h : value.same other = true) :
    c.indexOf other = c.indexOf value :=
  congrArg (c.constants.toList.findIdx ·) (funext fun x => (Value.same_congr h x).symm)

/-- From then on the value, and all that are equal to it, have this index. -/
lemma Adds.indexOf_eq (ha : Adds value c c₁) {other : Value} (h : value.same other = true)
    (hc : Collects c₁ later c₂) : c₂.indexOf other = c.indexOf value := by
  have hself : value.same value = true := (Value.same_congr h value).trans h
  have hfound : c₁.indexOf value = c.indexOf value ∧ c.indexOf value < c₁.constants.toList.length := by
    rw [indexOf, ha.toList]
    split
    case isTrue hlt => exact ⟨rfl, Stack.length_eq _ ▸ hlt⟩
    case isFalse hge =>
      have hindex := indexOf_of_not_lt hge
      rw [hindex, Stack.length_eq, List.findIdx_append, if_neg]
      · simp [hself]
      · rw [← Stack.length_eq]
        exact hge
  have hlater : c₂.indexOf value = c₁.indexOf value :=
    hc.isPrefix.findIdx_eq_of_findIdx_lt_length (hfound.1 ▸ hfound.2 :)
  rw [indexOf_congr h, hlater, hfound.1]

/-- A constant that is loaded is the one that was written, or the other zero. Adding a value
to the constants of a chunk fails if and only if its index is above 65535. This index is the
number of constants before, unless one of them is equal. What it holds, then and after all
later calls, is the value, unless that is a zero and a zero was written before, which it
then holds; and this is what an instruction with the index pushes. Values that are equal have
one index. -/
theorem Collects.constants_kept (past : Collects .empty values c) (value : Value) :
    (∀ journal, writeConstant value c journal =
      if c.indexOf value ≤ largestWord then
        .done (UInt16.ofNat (c.indexOf value)) (c.withConstant value) journal
      else .raised .tooManyConstants (c.withConstant value) journal) ∧
    (∀ line journal, emitConstant value line c journal =
      if c.indexOf value ≤ largestWord then
        .done () ((c.withConstant value).loading (c.indexOf value) line) journal
      else .raised .tooManyConstants (c.withConstant value) journal) ∧
    ∃ held, (held = value ∨
        values.find? (·.same value) = some held ∧ held.IsZero ∧ value.IsZero) ∧
      ∀ c₁ later c₂, Adds value c c₁ → Collects c₁ later c₂ →
        c₂.constants.get? (c.indexOf value) = some held ∧
        (∀ other, value.same other = true → c₂.indexOf other = c.indexOf value) ∧
        ((∀ d, value ≠ .scalar (.double d)) → c₂.indexOf value = c.indexOf value) ∧
        ∀ (host : Host) (m : Machine) (f : Function) journal, m.nextOpcode? = some .constant →
          m.heap.get? m.frame.function = some f → f.chunk.constants = c₂.constants →
          f.chunk.code[m.frame.ip + 1]? = some (UInt16.ofNat (c.indexOf value)) →
          c.indexOf value ≤ largestWord →
          ∃ m' journal', Machine.step host m journal = .done .running m' journal' ∧
            m'.heap = m.heap ∧ m'.stack = m.stack.push held := by
  refine ⟨c.writeConstant_apply value, c.emitConstant_apply value,
    (values.find? (·.same value)).getD value, ?_, fun c₁ later c₂ hadds hlater => ?_⟩
  · cases hfind : values.find? (·.same value) with
    | none => exact .inl rfl
    | some held =>
        have hsame : held.same value = true := by simpa using List.find?_some hfind
        rcases Value.eq_or_zero_of_same hsame with heq | ⟨hheld, hvalue⟩
        · exact .inl heq
        · exact .inr ⟨rfl, hheld, hvalue⟩
  -- constants are only appended, so the index found now is valid ever after
  · have hget : c₂.constants.get? (c.indexOf value) =
        some ((values.find? (·.same value)).getD value) := by
      have hfirst := past.getElem?_of_adds hadds
      obtain ⟨rest, hrest⟩ := hlater.isPrefix
      rw [Stack.get?, ← Array.getElem?_toList, ← Stack.toList, ← hrest, ← hfirst]
      exact List.getElem?_append_left (List.getElem?_eq_some_iff.mp hfirst).1
    refine ⟨hget, fun other hsame => hadds.indexOf_eq hsame hlater,
      fun hdouble => hadds.indexOf_eq (Value.same_self hdouble) hlater, ?_⟩
    intro host m f journal hop hf hconstants hword hle
    obtain ⟨m', journal', hstep, hheap, hstack⟩ := Machine.step_of_constant host hop hf hword journal
    refine ⟨m', journal', hstep, hheap, ?_⟩
    rw [hstack, hconstants, UInt16.toNat_ofNat_of_lt' (Nat.lt_succ_of_le hle), hget, Option.getD_some]

/-- An integer that is written again behind a double that is not a number has its old index. -/
theorem Collects.constants_kept_again : ∃ c : Chunk,
    Collects .empty [.scalar (.int 7), .scalar (.double ⟨0x7FF8000000000000⟩)] c ∧
    writeConstant (.scalar (.int 7)) c .silent = .done 0 c .silent ∧
    c.constants.get? 0 = some (.scalar (.int 7)) := by
  have hfirst : (writeConstant (.scalar (.int 7)) .empty .silent).state? =
      some { Chunk.empty with constants := ⟨#[.scalar (.int 7)], 64⟩ } := by
    decide +kernel
  let c : Chunk :=
    { Chunk.empty with constants := ⟨#[.scalar (.int 7), .scalar (.double ⟨0x7FF8000000000000⟩)], 64⟩ }
  have hsecond : (writeConstant (.scalar (.double ⟨0x7FF8000000000000⟩))
      { Chunk.empty with constants := ⟨#[.scalar (.int 7)], 64⟩ } .silent).state? = some c := by
    decide +kernel
  have hcollects : Collects .empty ([] ++ [.scalar (.int 7)] ++
      [.scalar (.double ⟨0x7FF8000000000000⟩)]) c :=
    (Collects.start.next (.write .silent hfirst)).next (.write .silent hsecond)
  have hindex : c.indexOf (.scalar (.int 7)) = 0 := by decide +kernel
  obtain ⟨hwrite, -, held, hheld, hlater⟩ := hcollects.constants_kept (.scalar (.int 7))
  have hrun : writeConstant (.scalar (.int 7)) c .silent = .done 0 c .silent := by
    rw [hwrite, hindex]
    rfl
  obtain ⟨hget, -⟩ := hlater c [] c (.write .silent (by rw [hrun]; rfl)) .start
  refine ⟨c, hcollects, hrun, ?_⟩
  rcases hheld with rfl | ⟨-, -, d, hzero, -⟩
  · rwa [hindex] at hget
  · cases hzero

/-- The zeros have one index, so what is loaded for the second is the first. -/
theorem zeros_share_constant : ∃ c : Chunk,
    writeConstant (.scalar (.double ⟨0⟩)) .empty .silent = .done 0 c .silent ∧
    writeConstant (.scalar (.double ⟨0x8000000000000000⟩)) c .silent = .done 0 c .silent ∧
    c.constants.get? 0 = some (.scalar (.double ⟨0⟩)) ∧
    Value.scalar (.double ⟨0⟩) ≠ .scalar (.double ⟨0x8000000000000000⟩) := by
  let c : Chunk := { Chunk.empty with constants := ⟨#[.scalar (.double ⟨0⟩)], 64⟩ }
  have hindex : c.indexOf (.scalar (.double ⟨0x8000000000000000⟩)) = 0 := by decide +kernel
  refine ⟨c, ?_, ?_, rfl, by decide⟩
  · rw [writeConstant_apply]
    rfl
  · rw [writeConstant_apply, withConstant, hindex]
    rfl

end Code.Chunk

end ScriptMachine
