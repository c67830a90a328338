import Mathlib.Data.Nat.Prime.Basic
import Mathlib.Tactic.Linarith
import Mathlib.Tactic.NormNum.Prime
import ScriptMachine.Native
import ScriptMachine.Proofs.Action
import ScriptMachine.Proofs.Arithmetic.Integers

/-!
Trial division finds out whether an integer is prime.

The divisors are tried in turn as long as they are at most the quotient, that is, as long
as their square is at most the number. So no product is ever computed, the next divisor is
at most the number, and nothing leaves the range of a `long`.

* `quotient_eq`, `remainder_eq`: the operations on numbers from the range;
* `noDivisorFrom_eq`: the loop answers whether there is a divisor up to the square root;
* `isPrime_eq`: the answer for every `long`;
* `prime_decides`: the native function.
-/

namespace ScriptMachine

namespace Value

variable {v : Value} {n : Int}

/-- What has an exact value stands for it. -/
lemma isInteger_of_integral (hv : v.integral = some n) : v.IsInteger n := by
  cases v with
  | scalar s =>
      cases s with
      | byte b => cases hv; exact .byte b
      | char c => cases hv; exact .char c
      | int i => cases hv; exact .int i
      | long l => cases hv; exact .long l
      | size s =>
          change (if s.toNat < 0x8000000000000000 then some (s.toNat : Int) else none) =
            some n at hv
          split at hv
          · cases hv; exact .size s ‹_›
          · cases hv
      | _ => cases hv
  | _ => cases hv

end Value

namespace Native

variable {n d : Int}

/-! ### Operations on machine words -/

lemma fitsLong_iff : fitsLong n = true ↔ -0x8000000000000000 ≤ n ∧ n < 0x8000000000000000 := by
  rw [fitsLong, Bool.and_eq_true, decide_eq_true_eq, decide_eq_true_eq]

lemma quotient_eq (hn : 0 ≤ n) (hfits : fitsLong n = true) (hd : 0 < d) :
    quotient n d = .ok (n / d) := by
  have hle : n / d ≤ n := Int.ediv_le_self d hn
  have hnonneg : 0 ≤ n / d := Int.ediv_nonneg hn hd.le
  have hfits' : fitsLong (n / d) = true := by
    rw [fitsLong_iff] at hfits ⊢
    omega
  rw [quotient, if_neg hd.ne', Int.tdiv_eq_ediv_of_nonneg hn, if_pos hfits']

lemma remainder_eq (hn : 0 ≤ n) (hfits : fitsLong n = true) (hd : 0 < d) :
    remainder n d = .ok (n % d) := by
  rw [remainder, quotient_eq hn hfits hd, ← Int.tmod_eq_emod_of_nonneg hn]
  rfl

/-! ### Trying one divisor after the other -/

/-- One round of the loop. A divisor is tried if its square is at most the number; then the
next one is in the range again. -/
lemma noDivisorFrom_step (hn : 0 ≤ n) (hfits : fitsLong n = true) (hd : 2 ≤ d) :
    noDivisorFrom n d =
      if d * d ≤ n then if d ∣ n then .ok false else noDivisorFrom n (d + 1) else .ok true := by
  have hpos : 0 < d := by omega
  rw [noDivisorFrom, quotient_eq hn hfits hpos, remainder_eq hn hfits hpos]
  change (if d ≤ n / d then if n % d = 0 then _ else _ else _) = _
  simp only [← Int.dvd_iff_emod_eq_zero, Int.le_ediv_iff_mul_le hpos]
  split
  · rename_i hsquare
    have hnext : fitsLong (d + 1) = true := by
      have hle : d + 1 ≤ d * d := by nlinarith
      rw [fitsLong_iff] at hfits ⊢
      omega
    rw [dif_pos hnext]
    rfl
  · rfl

/-- The loop ends, and answers whether a divisor was left. The numbers below the divisor
are not looked at. -/
lemma noDivisorFrom_eq (hn : 0 ≤ n) (hfits : fitsLong n = true) (hd : 2 ≤ d) :
    ∃ b, noDivisorFrom n d = .ok b ∧ (b = true ↔ ∀ e, d ≤ e → e * e ≤ n → ¬ e ∣ n) := by
  -- on the distance to the number, which a divisor that is tried does not reach
  induction hk : (n - d).toNat using Nat.strong_induction_on generalizing d with
  | _ k ih =>
    rw [noDivisorFrom_step hn hfits hd]
    split
    · rename_i hsquare
      have hlt : d < n := by nlinarith
      split
      · rename_i hdvd
        exact ⟨false, rfl, nofun, fun h => absurd hdvd (h d (le_refl d) hsquare)⟩
      · rename_i hdvd
        obtain ⟨b, hloop, hb⟩ := ih _ (by omega) (show 2 ≤ d + 1 by omega) rfl
        refine ⟨b, hloop, hb.trans ⟨fun h e hde => ?_, fun h e hde => h e (by omega)⟩⟩
        rcases eq_or_lt_of_le hde with rfl | hlt
        · exact fun _ => hdvd
        · exact h e hlt
    · rename_i hsquare
      refine ⟨true, rfl, fun _ e hde hee => ?_, fun _ => rfl⟩
      have hle : d * d ≤ e * e := Int.mul_le_mul hde hde (by omega) (by omega)
      omega

/-- Every `long` is answered for. -/
lemma isPrime_eq (hfits : fitsLong n = true) :
    ∃ b, isPrime n = .ok b ∧ (b = true ↔ ∃ p : Nat, p.Prime ∧ n = p) := by
  rw [isPrime]
  split
  · rename_i hsmall
    refine ⟨false, rfl, nofun, ?_⟩
    rintro ⟨p, hp, rfl⟩
    have := hp.two_le
    omega
  · rename_i hlarge
    obtain ⟨b, hloop, hb⟩ := noDivisorFrom_eq (by omega) hfits (le_refl 2)
    refine ⟨b, hloop, hb.trans ?_⟩
    obtain ⟨p, rfl⟩ := Int.eq_ofNat_of_zero_le (show 0 ≤ n by omega)
    have hprime : (∀ e : Int, 2 ≤ e → e * e ≤ p → ¬ e ∣ p) ↔ p.Prime := by
      rw [Nat.prime_def_le_sqrt]
      constructor
      · intro h
        refine ⟨by omega, fun m hm hsqrt hdvd => ?_⟩
        exact h m (by omega) (by exact_mod_cast Nat.le_sqrt.mp hsqrt)
          (Int.natCast_dvd_natCast.mpr hdvd)
      · intro h e he hee hdvd
        obtain ⟨m, rfl⟩ := Int.eq_ofNat_of_zero_le (show 0 ≤ e by omega)
        exact h.2 m (by omega) (Nat.le_sqrt.mpr (by exact_mod_cast hee))
          (Int.natCast_dvd_natCast.mp hdvd)
    rw [hprime]
    exact ⟨fun hp => ⟨p, hp, rfl⟩, fun ⟨q, hq, heq⟩ => by rwa [Int.natCast_inj.mp heq]⟩

/-! ### The native function -/

lemma prime_eq {v : Value} (hv : v.integral = some n) (h : Heap) (rest : List Value) :
    prime h (v :: rest) = do return .ofBool (← isPrime n) := by
  have hfirst : argument (v :: rest) 0 = pure v := rfl
  rw [prime, hfirst, pure_bind, hv]

/-- Every integer from the range of a `long` is an argument of the native function, and for
each argument that stands for an integer it answers whether that is a prime number. It
always returns: the loop ends, no word overflows and no divisor is zero, since each of these
operations would have been a fault. The heap stays as it is. -/
theorem prime_decides (n : Int) :
    (-0x8000000000000000 ≤ n ∧ n < 0x8000000000000000 ↔ ∃ v : Value, v.IsInteger n) ∧
    ∀ {v : Value}, v.IsInteger n →
      ∀ (host : Host) (rest : List Value) (h : Heap) (journal : Journal),
      ((∃ p : Nat, p.Prime ∧ n = p) →
        call host (.builtin .prime) (v :: rest) h journal = .done (.ofBool true) h journal) ∧
      ((¬ ∃ p : Nat, p.Prime ∧ n = p) →
        call host (.builtin .prime) (v :: rest) h journal = .done (.ofBool false) h journal) := by
  refine ⟨⟨fun hn => ⟨.scalar (.long (Int64.ofInt n)), ?_⟩, fun ⟨v, hv⟩ => hv.range⟩, ?_⟩
  · have hlong := Value.IsInteger.long (Int64.ofInt n)
    rwa [Int64.toInt_ofInt_of_le hn.1 hn.2] at hlong
  · intro v hv host rest h journal
    obtain ⟨b, hprime, hb⟩ := isPrime_eq (fitsLong_iff.mpr hv.range)
    have hcall : call host (.builtin .prime) (v :: rest) h journal =
        .done (.ofBool b) h journal := by
      change (liftM (prime h (v :: rest)) : Action Heap Value) h journal = _
      rw [prime_eq hv.integral, hprime]
      rfl
    refine ⟨fun hp => ?_, fun hp => ?_⟩
    · rw [hcall, hb.mpr hp]
    · rw [hcall, Bool.eq_false_iff.mpr fun htrue => hp (hb.mp htrue)]

/-- A prime number, and the largest `long`, which is a multiple of seven. -/
theorem prime_decides_largest : ∃ (host : Host) (h : Heap),
    call host (.builtin .prime) [.scalar (.long 65537)] h .silent = .done (.ofBool true) h .silent ∧
    call host (.builtin .prime) [.scalar (.long 9223372036854775807)] h .silent =
      .done (.ofBool false) h .silent := by
  obtain ⟨h, -⟩ := Option.isSome_iff_exists.mp
    (show (Heap.create 4096 fun _ => true).toOption.isSome = true by decide +kernel)
  have hprime : Nat.Prime 65537 := by norm_num
  have hseven : ¬ Nat.Prime 9223372036854775807 := by norm_num
  refine ⟨⟨⟨0⟩, fun _ _ => pure .null⟩, h, ?_, ?_⟩
  · exact ((prime_decides 65537).2 (.long 65537) _ [] h .silent).1 ⟨65537, hprime, rfl⟩
  · refine ((prime_decides 9223372036854775807).2 (.long 9223372036854775807) _ [] h .silent).2 ?_
    rintro ⟨p, hp, heq⟩
    have hp' : p = 9223372036854775807 := by omega
    exact hseven (hp' ▸ hp)

end Native

end ScriptMachine
