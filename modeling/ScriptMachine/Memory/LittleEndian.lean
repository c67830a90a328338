/-!
Numbers as bytes, least significant byte first.

`ofLittleEndian_littleEndian`: reading back what was written gives the number,
modulo the numbers that the given count of bytes can hold.
-/

namespace ScriptMachine.Memory

/-- The `width` low-order bytes of `n`, least significant first. -/
def littleEndian : (width : Nat) → (n : Nat) → List UInt8
  | 0, _ => []
  | width + 1, n => UInt8.ofNat n :: littleEndian width (n / 256)

/-- The number with the given bytes, least significant first. -/
def ofLittleEndian : List UInt8 → Nat
  | [] => 0
  | byte :: bytes => byte.toNat + 256 * ofLittleEndian bytes

@[simp] theorem length_littleEndian (width n : Nat) : (littleEndian width n).length = width := by
  induction width generalizing n with
  | zero => rfl
  | succ width ih => simp [littleEndian, ih]

/-- One byte more raises the bound by a factor of 256. -/
theorem byteBound_succ (width : Nat) :
    1 <<< (8 * (width + 1)) = 256 * 1 <<< (8 * width) := by
  rw [Nat.mul_succ, Nat.one_shiftLeft, Nat.one_shiftLeft, Nat.pow_add, Nat.mul_comm]

/-- Reading back what was written gives the number modulo the bound that the
count of bytes sets. -/
theorem ofLittleEndian_littleEndian (width n : Nat) :
    ofLittleEndian (littleEndian width n) = n % 1 <<< (8 * width) := by
  induction width generalizing n with
  | zero => simp [littleEndian, ofLittleEndian, Nat.mod_one]
  | succ width ih =>
      rw [littleEndian, ofLittleEndian, ih, byteBound_succ, Nat.mod_mul]
      simp

/-- A number read from bytes is below the bound that their count sets. -/
theorem ofLittleEndian_lt (bytes : List UInt8) :
    ofLittleEndian bytes < 1 <<< (8 * bytes.length) := by
  induction bytes with
  | nil => simp [ofLittleEndian]
  | cons byte bytes ih =>
      have := byte.toNat_lt
      rw [ofLittleEndian, List.length_cons, byteBound_succ]
      omega

end ScriptMachine.Memory
