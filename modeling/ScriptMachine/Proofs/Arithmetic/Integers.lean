import Mathlib.Algebra.Order.Group.Unbundled.Int
import Mathlib.Tactic.Common
import ScriptMachine.Arithmetic

/-!
Integer arithmetic is exact.

`Value.IsInteger` says which integer a value of one of the five integer kinds stands
for. An operation computes with these integers alone, and `Arithmetic.Narrowed` says
what it makes of the exact result: an `int` if that fits, else a `long` if that fits,
else an error.

* `narrowed_narrow`: narrowing keeps the exact result or refuses it;
* `integers_exact`: sums, differences, products, steps and negatives;
* `isRemainder_tmod`, `IsRemainder.unique`: there is one remainder with the sign of
  the dividend;
* `remainder_exact`: it is what `%` gives, but for one pair of operands, which is
  refused although the remainder is zero.
-/

namespace ScriptMachine

/-- The integer that a value stands for. A `size` counts up to the largest `long`. -/
inductive Value.IsInteger : Value → Int → Prop
  | byte (b : UInt8) : IsInteger (.scalar (.byte b)) b.toNat
  | char (c : UInt8) : IsInteger (.scalar (.char c)) c.toNat
  | int (i : Int32) : IsInteger (.scalar (.int i)) i.toInt
  | long (l : Int64) : IsInteger (.scalar (.long l)) l.toInt
  | size (s : UInt64) (small : s.toNat < 0x8000000000000000) : IsInteger (.scalar (.size s)) s.toNat

namespace Value

variable {v : Value} {n : Int}

lemma IsInteger.integral (hv : v.IsInteger n) : v.integral = some n := by
  cases hv with
  | size s small => exact if_pos small
  | _ => rfl

lemma IsInteger.number (hv : v.IsInteger n) : Number.of? v = some (.integral n) := by
  have hof : Number.of? v = v.integral.map .integral := by cases hv <;> rfl
  rw [hof, hv.integral]
  rfl

/-- Every integer value lies in the range of a `long`. -/
lemma IsInteger.range (hv : v.IsInteger n) : -0x8000000000000000 ≤ n ∧ n < 0x8000000000000000 := by
  cases hv with
  | byte b => have := b.toNat_lt; omega
  | char c => have := c.toNat_lt; omega
  | int i =>
      have := i.le_toInt
      have := i.toInt_lt
      omega
  | long l => exact ⟨l.le_toInt, l.toInt_lt⟩
  | size s small => omega

end Value

namespace Arithmetic

variable {h : Heap} {a b : Value} {op : String} {x y n r : Int}

/-! ### Narrowing -/

/-- What becomes of the exact result `n` of an operation. -/
structure Narrowed (op : String) (n : Int) (result : Result Scalar) : Prop where
  int : -0x80000000 ≤ n → n < 0x80000000 → ∃ i : Int32, result = .ok (.int i) ∧ i.toInt = n
  long : -0x8000000000000000 ≤ n → n < 0x8000000000000000 → ¬ (-0x80000000 ≤ n ∧ n < 0x80000000) →
    ∃ l : Int64, result = .ok (.long l) ∧ l.toInt = n
  refused : result = Result.raise (.numericRange op) ↔
    ¬ (-0x8000000000000000 ≤ n ∧ n < 0x8000000000000000)

lemma narrowed_narrow (op : String) (n : Int) : Narrowed op n (narrow op n) := by
  have hint : fitsInt n = true ↔ -0x80000000 ≤ n ∧ n < 0x80000000 := by simp [fitsInt]
  have hlong : fitsLong n = true ↔ -0x8000000000000000 ≤ n ∧ n < 0x8000000000000000 := by
    simp [fitsLong]
  unfold narrow Scalar.ofInt?
  by_cases hi : fitsInt n = true
  · have hrange := hint.mp hi
    rw [if_pos hi]
    refine ⟨fun _ _ => ⟨_, rfl, ?_⟩, fun _ _ hnot => absurd hrange hnot, nofun, fun hnot => ?_⟩
    · exact Int32.toInt_ofInt_of_le (by omega) (by omega)
    · exact absurd ⟨by omega, by omega⟩ hnot
  · rw [if_neg hi]
    by_cases hl : fitsLong n = true
    · have hrange := hlong.mp hl
      rw [if_pos hl]
      refine ⟨fun hlow hhigh => absurd (hint.mpr ⟨hlow, hhigh⟩) hi, fun _ _ _ => ⟨_, rfl, ?_⟩, nofun,
        fun hnot => absurd hrange hnot⟩
      exact Int64.toInt_ofInt_of_le (by omega) (by omega)
    · rw [if_neg hl]
      refine ⟨fun hlow hhigh => absurd (hint.mpr ⟨hlow, hhigh⟩) hi,
        fun hlow hhigh => absurd (hlong.mpr ⟨hlow, hhigh⟩) hl, fun _ => mt hlong.mpr hl, fun _ => rfl⟩

/-! ### Operations on integers -/

lemma binary_of_integers (ha : a.IsInteger x) (hb : b.IsInteger y) (h : Heap) (op : String)
    (exact : Int → Int → Int) (rounded : Double → Double → Double) :
    binary h op exact rounded a b = narrow op (exact x y) := by
  rw [binary, ha.number, hb.number]

lemma exists_scalar_of_integer (ha : a.IsInteger x) : ∃ s, a = .scalar s ∧ isString a = false := by
  cases ha <;> exact ⟨_, rfl, rfl⟩

/-- Two integers are added, for neither of them is a string. -/
lemma add_of_integers (ha : a.IsInteger x) (hb : b.IsInteger y) (h : Heap) :
    add h a b = Sum.scalar <$> narrow "+" (x + y) := by
  obtain ⟨s, rfl, hs⟩ := exists_scalar_of_integer ha
  obtain ⟨t, rfl, ht⟩ := exists_scalar_of_integer hb
  have hadd : add h (.scalar s) (.scalar t) =
      (do return .scalar (← binary h "+" (· + ·) Double.add (.scalar s) (.scalar t))) := by
    simp only [add, hs, ht, Bool.or_self, Bool.false_eq_true, if_false]
  rw [hadd, binary_of_integers ha hb]
  exact bind_pure_comp _ _

lemma step_of_integer (ha : a.IsInteger x) (h : Heap) (up : Bool) :
    step h a up = narrow (if up then "++" else "--") (x + if up then 1 else -1) := by
  rw [step, ha.number]

lemma negate_of_integer (ha : a.IsInteger x) (h : Heap) : negate h a = narrow "-" (-x) := by
  have hnumber := ha.number
  cases ha <;> simp only [negate, hnumber]

/-- Arithmetic on integers is exact. Whatever the kinds of the operands, a sum, a
difference, a product, a step by one and a negative are the exact integer, as an `int`
if it fits into one, else as a `long`; they are refused exactly if it fits into neither.
So operands of other kinds that stand for the same integers give the same. -/
theorem integers_exact (h : Heap) (ha : a.IsInteger x) (hb : b.IsInteger y) :
    (∃ sum, add h a b = Sum.scalar <$> sum ∧ Narrowed "+" (x + y) sum) ∧
    Narrowed "-" (x - y) (sub h a b) ∧ Narrowed "*" (x * y) (mul h a b) ∧
    Narrowed "++" (x + 1) (step h a true) ∧ Narrowed "--" (x - 1) (step h a false) ∧
    Narrowed "-" (-x) (negate h a) ∧
    ∀ (h' : Heap) (a' b' : Value), a'.IsInteger x → b'.IsInteger y →
      add h' a' b' = add h a b ∧ sub h' a' b' = sub h a b ∧ mul h' a' b' = mul h a b ∧
      (∀ up, step h' a' up = step h a up) ∧ negate h' a' = negate h a := by
  have hsub := binary_of_integers ha hb h "-" (· - ·) Double.sub
  have hmul := binary_of_integers ha hb h "*" (· * ·) Double.mul
  refine ⟨⟨_, add_of_integers ha hb h, narrowed_narrow _ _⟩, ?_, ?_, ?_, ?_, ?_,
    fun h' a' b' ha' hb' => ⟨?_, ?_, ?_, fun up => ?_, ?_⟩⟩
  · exact (show sub h a b = _ from hsub) ▸ narrowed_narrow _ _
  · exact (show mul h a b = _ from hmul) ▸ narrowed_narrow _ _
  · exact step_of_integer ha h true ▸ narrowed_narrow _ _
  · exact step_of_integer ha h false ▸ narrowed_narrow _ _
  · exact negate_of_integer ha h ▸ narrowed_narrow _ _
  · rw [add_of_integers ha' hb' h', add_of_integers ha hb h]
  · exact (binary_of_integers ha' hb' h' "-" (· - ·) Double.sub).trans hsub.symm
  · exact (binary_of_integers ha' hb' h' "*" (· * ·) Double.mul).trans hmul.symm
  · rw [step_of_integer ha' h', step_of_integer ha h]
  · rw [negate_of_integer ha' h', negate_of_integer ha h]

/-- The largest size that counts as an integer, moved out of range by a character. -/
theorem integers_exact_mixed :
    add ⟨⟨64, #[], [], 0, 0, fun _ => true⟩, #[], [], []⟩ (.scalar (.size 0x7FFFFFFFFFFFFFFF))
      (.scalar (.char 1)) = Result.raise (.numericRange "+") := by
  obtain ⟨⟨sum, hadd, hsum⟩, -⟩ := integers_exact ⟨⟨64, #[], [], 0, 0, fun _ => true⟩, #[], [], []⟩
    (.size 0x7FFFFFFFFFFFFFFF (by decide)) (.char 1)
  rw [hadd, hsum.refused.mpr (by decide)]
  rfl

/-! ### Remainders -/

/-- The remainder of `x` by `y` with the sign of `x`. -/
structure IsRemainder (x y r : Int) : Prop where
  quotient : ∃ q, x = q * y + r
  small : r.natAbs < y.natAbs
  sign : r = 0 ∨ r.sign = x.sign

lemma isRemainder_tmod (hy : y ≠ 0) : IsRemainder x y (x.tmod y) where
  quotient := ⟨x.tdiv y, (Int.tdiv_mul_add_tmod x y).symm⟩
  small := by
    rw [Int.natAbs_tmod]
    exact Nat.mod_lt _ (Int.natAbs_pos.mpr hy)
  sign := by
    rw [Int.sign_tmod]
    by_cases hdvd : y ∣ x
    · exact .inl (Int.tmod_eq_zero_of_dvd hdvd)
    · exact .inr (if_neg hdvd)

/-- Two remainders differ by a multiple of the divisor and, having one sign, by less than
the divisor. -/
lemma IsRemainder.unique {r' : Int} (hr : IsRemainder x y r) (hr' : IsRemainder x y r') :
    r = r' := by
  obtain ⟨q, hq⟩ := hr.quotient
  obtain ⟨q', hq'⟩ := hr'.quotient
  have hdvd : y ∣ r - r' := ⟨q' - q, by rw [Int.mul_comm, Int.sub_mul]; omega⟩
  have hsign : (0 ≤ r ∧ 0 ≤ r') ∨ (r ≤ 0 ∧ r' ≤ 0) := by
    rcases hr.sign with h0 | hr <;> rcases hr'.sign with h0' | hr'
    · omega
    · omega
    · omega
    · rcases Int.lt_trichotomy x 0 with hx | hx | hx
      · rw [Int.sign_eq_neg_one_of_neg hx, Int.sign_eq_neg_one_iff_neg] at hr hr'
        omega
      · rw [hx, Int.sign_zero, Int.sign_eq_zero_iff_zero] at hr hr'
        omega
      · rw [Int.sign_eq_one_of_pos hx, Int.sign_eq_one_iff_pos] at hr hr'
        omega
  have hsmall : (r - r').natAbs < y.natAbs := by
    have := hr.small
    have := hr'.small
    omega
  have := Int.eq_zero_of_dvd_of_natAbs_lt_natAbs hdvd hsmall
  omega

/-- A quotient is out of range only for the least `long` divided by minus one. -/
lemma fitsLong_tdiv_iff (hx : -0x8000000000000000 ≤ x ∧ x < 0x8000000000000000) (hy : y ≠ 0) :
    fitsLong (x.tdiv y) = true ↔ ¬ (x = -0x8000000000000000 ∧ y = -1) := by
  have hfits : fitsLong (x.tdiv y) = true ↔
      -0x8000000000000000 ≤ x.tdiv y ∧ x.tdiv y < 0x8000000000000000 := by
    simp [fitsLong]
  rw [hfits]
  constructor
  · rintro ⟨-, hlt⟩ ⟨rfl, rfl⟩
    exact absurd hlt (by decide)
  · intro hnot
    have hle := Int.natAbs_tdiv_le_natAbs x y
    by_cases hone : y.natAbs = 1
    · obtain rfl | rfl : y = 1 ∨ y = -1 := by omega
      · rw [Int.tdiv_one]
        exact hx
      · rw [Int.tdiv_neg, Int.tdiv_one]
        omega
    · -- a divisor of two or more in absolute value halves the dividend
      have hhalf : (x.tdiv y).natAbs ≤ x.natAbs / 2 := by
        rw [Int.natAbs_tdiv]
        exact Nat.div_le_div_left (by omega) (by omega)
      omega

lemma rem_of_integers (ha : a.IsInteger x) (hb : b.IsInteger y) (h : Heap) :
    rem h a b = if y = 0 then Result.raise (.divideByZero "modulo")
      else if fitsLong (x.tdiv y) then narrow "%" (x.tmod y)
      else Result.raise (.numericRange "%") := by
  rw [rem, ha.number, hb.number]

/-- The remainder of two integers is exact: it is the one with the sign of the dividend,
as an `int` if it fits into one and else as a `long`. It always fits, and still the least
`long` has no remainder by minus one. A divisor of zero is an error of its own. -/
theorem remainder_exact (h : Heap) (ha : a.IsInteger x) (hb : b.IsInteger y) :
    (y = 0 → rem h a b = Result.raise (.divideByZero "modulo")) ∧
    (y ≠ 0 → ∃ r, IsRemainder x y r ∧ (∀ r', IsRemainder x y r' → r' = r) ∧
      -0x8000000000000000 ≤ r ∧ r < 0x8000000000000000 ∧
      (¬ (x = -0x8000000000000000 ∧ y = -1) → Narrowed "%" r (rem h a b)) ∧
      (x = -0x8000000000000000 → y = -1 →
        r = 0 ∧ rem h a b = Result.raise (.numericRange "%"))) := by
  have hrem := rem_of_integers ha hb h
  refine ⟨fun hy => hrem.trans (if_pos hy), fun hy => ?_⟩
  rw [if_neg hy] at hrem
  have hfits := fitsLong_tdiv_iff ha.range hy
  have hr : IsRemainder x y (x.tmod y) := isRemainder_tmod hy
  refine ⟨x.tmod y, hr, fun r' hr' => hr'.unique hr, ?_, ?_, fun hnot => ?_, fun hx hy' => ⟨?_, ?_⟩⟩
  · have := hr.small
    have := hb.range
    omega
  · have := hr.small
    have := hb.range
    omega
  · rw [hrem, if_pos (hfits.mpr hnot)]
    exact narrowed_narrow _ _
  · have := hr.small
    omega
  · rw [hrem, if_neg fun hq => hfits.mp hq ⟨hx, hy'⟩]

/-- The least `long` leaves minus two by three, an `int`, and is refused by minus one. -/
theorem remainder_exact_least :
    (∃ i : Int32, rem ⟨⟨64, #[], [], 0, 0, fun _ => true⟩, #[], [], []⟩
      (.scalar (.long (-0x8000000000000000))) (.scalar (.byte 3)) = .ok (.int i) ∧ i.toInt = -2) ∧
    rem ⟨⟨64, #[], [], 0, 0, fun _ => true⟩, #[], [], []⟩ (.scalar (.long (-0x8000000000000000)))
      (.scalar (.int (-1))) = Result.raise (.numericRange "%") := by
  obtain ⟨-, hthree⟩ := remainder_exact ⟨⟨64, #[], [], 0, 0, fun _ => true⟩, #[], [], []⟩
    (.long (-0x8000000000000000)) (.byte 3)
  obtain ⟨r, -, hunique, -, -, hr, -⟩ := hthree (by decide)
  obtain ⟨-, hone⟩ := remainder_exact ⟨⟨64, #[], [], 0, 0, fun _ => true⟩, #[], [], []⟩
    (.long (-0x8000000000000000)) (.int (-1))
  obtain ⟨_, -, -, -, -, -, hrefused⟩ := hone (by decide)
  obtain rfl : -2 = r := hunique (-2) ⟨⟨-3074457345618258602, by decide⟩, by decide, .inr (by decide)⟩
  exact ⟨(hr (by decide)).int (by decide) (by decide), (hrefused (by decide) (by decide)).2⟩

end Arithmetic

end ScriptMachine
