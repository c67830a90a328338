import Mathlib.Tactic.Common
import ScriptMachine.ArrayKind

/-!
Elements of arrays, from scalars to bytes and back.

* `ObjectId.ofBits_toBits`: an id comes back from the word that stores it;
* `ArrayKind.Element.exists_encode`: a scalar of the kind of an array fills an
  element and comes back from its bytes, unless it is the string that the word
  for a missing string would name.
-/

namespace ScriptMachine

open Memory

namespace ObjectId

lemma toNat_toBits (id : ObjectId) :
    id.toBits.toNat = id.index.toNat * 4294967296 + id.generation.toNat := by
  have hi := id.index.toNat_lt
  have hg := id.generation.toNat_lt
  have hshift : id.index.toNat <<< 32 % 18446744073709551616 = id.index.toNat <<< 32 := by
    rw [Nat.shiftLeft_eq]
    exact Nat.mod_eq_of_lt (by omega)
  unfold toBits
  rw [UInt64.toNat_or, UInt64.toNat_shiftLeft, UInt32.toNat_toUInt64, UInt32.toNat_toUInt64,
    show UInt64.toNat 32 % 64 = 32 from rfl, hshift, ← Nat.shiftLeft_add_eq_or_of_lt hg,
    Nat.shiftLeft_eq]

/-- An id comes back from its word. -/
lemma ofBits_toBits (id : ObjectId) : ofBits id.toBits = id := by
  have hi := id.index.toNat_lt
  have hg := id.generation.toNat_lt
  have hbits := toNat_toBits id
  obtain ⟨i, g⟩ := id
  dsimp only at hi hg hbits
  simp only [ofBits, mk.injEq]
  constructor
  · apply UInt32.toNat_inj.mp
    rw [UInt64.toNat_toUInt32, UInt64.toNat_shiftRight, hbits,
      show UInt64.toNat 32 % 64 = 32 from rfl, Nat.shiftRight_eq_div_pow]
    omega
  · apply UInt32.toNat_inj.mp
    rw [UInt64.toNat_toUInt32, hbits]
    omega

end ObjectId

namespace ArrayKind

variable {kind : ArrayKind} {scalar : Scalar} {bytes : List UInt8}

/-- A scalar is of the kind of an array. -/
inductive Element : ArrayKind → Scalar → Prop
  | bool (b : Bool) : Element .bools (.bool b)
  | byte (b : UInt8) : Element .bytes (.byte b)
  | double (d : Double) : Element .doubles (.double d)
  | int (i : Int32) : Element .ints (.int i)
  | long (l : Int64) : Element .longs (.long l)
  | str (ref : Ref .string) : Element .strings (.str ref)
  | missing : Element .strings .null

/-- What a scalar becomes in an array is of its kind. -/
lemma element_of_coerce {original : Scalar} (h : kind.coerce original = some scalar) :
    Element kind scalar := by
  cases kind with
  | bools =>
      cases original with
      | bool b => exact Option.some.inj h ▸ .bool b
      | _ => cases h
  | bytes =>
      cases original with
      | byte b => exact Option.some.inj h ▸ .byte b
      | int i =>
          change (if 0 ≤ i.toInt ∧ i.toInt < 256 then some (Scalar.byte _) else none) = _ at h
          split at h
          · exact Option.some.inj h ▸ .byte _
          · cases h
      | _ => cases h
  | doubles =>
      cases original with
      | double _ | int _ => exact Option.some.inj h ▸ .double _
      | _ => cases h
  | ints =>
      cases original with
      | int i => exact Option.some.inj h ▸ .int i
      | _ => cases h
  | longs =>
      cases original with
      | long _ | int _ => exact Option.some.inj h ▸ .long _
      | _ => cases h
  | strings =>
      cases original with
      | str ref => exact Option.some.inj h ▸ .str ref
      | null => exact Option.some.inj h ▸ .missing
      | _ => cases h

/-- A string becomes an element only as it is. -/
lemma eq_of_coerce_string {original : Scalar} {ref : Ref .string}
    (h : kind.coerce original = some (.str ref)) : original = .str ref := by
  cases element_of_coerce h
  cases original with
  | str _ => exact Option.some.inj h
  | _ => cases h

lemma element_zero (kind : ArrayKind) : Element kind kind.zero := by
  cases kind with
  | bools => exact .bool _
  | bytes => exact .byte _
  | doubles => exact .double _
  | ints => exact .int _
  | longs => exact .long _
  | strings => exact .missing

/-- The bytes of a scalar do not reach over the end of an element. -/
lemma length_encode_le (h : kind.encode scalar = .ok bytes) : bytes.length ≤ kind.width := by
  have hpos : 1 ≤ kind.width := by cases kind <;> decide
  have hword : ∀ width n, kind.encodeWord width n = .ok bytes → bytes.length ≤ kind.width := by
    intro width n hw
    unfold encodeWord at hw
    split at hw
    · rename_i heq
      cases hw
      exact Nat.le_of_eq ((length_littleEndian _ _).trans heq.symm)
    · cases hw
  cases scalar with
  | bool b => cases h; exact hpos
  | byte b => cases h; exact hpos
  | int i => exact hword _ _ h
  | long l => exact hword _ _ h
  | double d => exact hword _ _ h
  | str s => exact hword _ _ h
  | null => exact hword _ _ h
  | char _ => cases h
  | size _ => cases h
  | array _ => cases h

/-- A number of 32 bits comes back from its bytes. -/
lemma ofLittleEndian_word32 (n : UInt32) : ofLittleEndian (littleEndian 4 n.toNat) = n.toNat := by
  rw [ofLittleEndian_littleEndian]
  exact Nat.mod_eq_of_lt n.toNat_lt

/-- A number of 64 bits comes back from its bytes. -/
lemma ofLittleEndian_word64 (n : UInt64) : ofLittleEndian (littleEndian 8 n.toNat) = n.toNat := by
  rw [ofLittleEndian_littleEndian]
  exact Nat.mod_eq_of_lt n.toNat_lt

lemma toBits_ne_nullBits {id : ObjectId} (h : id ≠ .dangling) : id.toBits ≠ nullBits := by
  intro heq
  refine h ?_
  rw [← ObjectId.ofBits_toBits id, heq]
  rfl

/-- A scalar of the kind of an array fills an element, and comes back from its
bytes. -/
lemma Element.exists_encode (h : Element kind scalar) :
    ∃ bytes, kind.encode scalar = .ok bytes ∧ bytes.length = kind.width ∧
      ((∀ ref, scalar = .str ref → ref.id ≠ .dangling) → kind.decode bytes = scalar) := by
  cases h with
  | bool b => exact ⟨[b.toUInt8], rfl, rfl, fun _ => by cases b <;> rfl⟩
  | byte b => exact ⟨[b], rfl, rfl, fun _ => by simp [decode, ofLittleEndian]⟩
  | double d =>
      refine ⟨littleEndian 8 d.bits.toNat, rfl, rfl, fun _ => ?_⟩
      simp [decode, ofLittleEndian_word64]
  | int i =>
      refine ⟨littleEndian 4 i.toUInt32.toNat, rfl, rfl, fun _ => ?_⟩
      simp [decode, ofLittleEndian_word32]
  | long l =>
      refine ⟨littleEndian 8 l.toUInt64.toNat, rfl, rfl, fun _ => ?_⟩
      simp [decode, ofLittleEndian_word64]
  | str ref =>
      refine ⟨littleEndian 8 ref.id.toBits.toNat, rfl, rfl, fun hlive => ?_⟩
      have hne := toBits_ne_nullBits (hlive ref rfl)
      simp [decode, ofLittleEndian_word64, hne, ObjectId.ofBits_toBits]
  | missing =>
      refine ⟨littleEndian 8 nullBits.toNat, rfl, rfl, fun _ => ?_⟩
      simp [decode, ofLittleEndian_word64]

end ArrayKind

end ScriptMachine
