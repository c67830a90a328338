import Mathlib.Tactic.Common
import ScriptMachine.Heap.Text

/-!
Bytes that are texts.

A text is encoded character by character (`IsText`): an ASCII character as one
byte below 128, and any other one as several bytes of which none is. So a byte
below 128 stands for a character of its own, and can be replaced by another such
byte (`IsText.set`); and such bytes can follow any text (`IsText.extend`).
-/

namespace ScriptMachine

/-- Bytes that are the encoding of a text. -/
def IsText (bytes : List UInt8) : Prop :=
  ∃ chars : List Char, bytes = chars.flatMap String.utf8EncodeChar

variable {bytes bytes' : List UInt8} {byte : UInt8}

/-! ### Texts and their bytes -/

/-- Bytes can be decoded exactly if they encode a text. -/
lemma isSome_decode?_iff : (Heap.decode? bytes).isSome = true ↔ IsText bytes := by
  have hdata : ∀ list : List UInt8, list.toByteArray = ⟨list.toArray⟩ := fun list =>
    ByteArray.ext List.data_toByteArray
  have hsome : (Heap.decode? bytes).isSome = true ↔ (⟨bytes.toArray⟩ : ByteArray).IsValidUTF8 := by
    unfold Heap.decode? String.fromUTF8?
    split <;> simp_all
  rw [hsome, ← hdata]
  constructor
  · rintro ⟨chars, hchars⟩
    exact ⟨chars, List.toByteArray_inj.mp hchars⟩
  · rintro ⟨chars, rfl⟩
    exact ⟨chars, rfl⟩

lemma toList_loop_eq (b : ByteArray) (i : Nat) (rest : List UInt8) :
    ByteArray.toList.loop b i rest = rest.reverse ++ b.data.toList.drop i := by
  induction hn : b.size - i generalizing i rest with
  | zero =>
      have hend : b.data.toList.length ≤ i := by
        rw [Array.length_toList]
        exact Nat.sub_eq_zero_iff_le.mp hn
      rw [ByteArray.toList.loop, if_neg (by omega), List.drop_eq_nil_of_le hend, List.append_nil]
  | succ n ih =>
      have hlt : i < b.data.toList.length := by
        rw [Array.length_toList]
        exact Nat.lt_of_sub_pos (by rw [← ByteArray.size, hn]; exact Nat.succ_pos n)
      rw [ByteArray.toList.loop, if_pos (by omega), ih _ _ (by omega), List.drop_eq_getElem_cons hlt,
        List.reverse_cons, List.append_assoc, List.singleton_append]
      congr 2
      exact getElem!_pos b.data i (by rwa [Array.length_toList] at hlt)

lemma toList_toUTF8 (text : String) :
    text.toUTF8.toList = text.toList.flatMap String.utf8EncodeChar := by
  rw [ByteArray.toList, toList_loop_eq, List.reverse_nil, List.nil_append, List.drop_zero,
    String.toUTF8_eq_toByteArray, ← String.utf8Encode_toList, List.utf8Encode,
    List.toList_data_toByteArray]

lemma isText_toUTF8 (text : String) : IsText text.toUTF8.toList := ⟨_, toList_toUTF8 text⟩

/-- A text that bytes are decoded to is encoded by them. -/
lemma toUTF8_of_decode? {text : String} (h : Heap.decode? bytes = some text) :
    text.toUTF8.toList = bytes := by
  unfold Heap.decode? String.fromUTF8? at h
  split at h
  · cases h
    rw [ByteArray.toList, toList_loop_eq, String.toUTF8_eq_toByteArray]
    rfl
  · cases h

/-! ### Characters and their bytes -/

/-- An ASCII character is encoded by one byte. -/
lemma exists_char_of_isAscii (h : Heap.isAscii byte = true) :
    ∃ c : Char, String.utf8EncodeChar c = [byte] := by
  have hlt : byte.toNat < 128 := of_decide_eq_true h
  have hval : byte.toUInt32.toNat = byte.toNat := byte.toNat_toUInt32
  refine ⟨⟨byte.toUInt32, .inl (by omega)⟩, ?_⟩
  rw [String.utf8EncodeChar, hval]
  simp only [show byte.toNat ≤ 127 by omega, if_true, UInt8.ofNat_toNat]

/-- A byte of a character below 128 is all of its encoding. -/
lemma eq_singleton_of_isAscii {c : Char} (hmem : byte ∈ String.utf8EncodeChar c)
    (h : Heap.isAscii byte = true) : String.utf8EncodeChar c = [byte] := by
  have hlt : byte.toNat < 128 := of_decide_eq_true h
  have hhigh : ∀ n, 128 ≤ n → n < 256 → byte ≠ UInt8.ofNat n := by
    rintro n hlow hn rfl
    rw [UInt8.toNat_ofNat_of_lt' hn] at hlt
    omega
  -- by the number of bytes that the character takes
  revert hmem
  unfold String.utf8EncodeChar
  extract_lets v
  split
  · intro hmem
    rw [List.mem_singleton.mp hmem]
  · intro hmem
    exfalso
    split at hmem
    · simp only [List.mem_cons, List.not_mem_nil, or_false] at hmem
      rcases hmem with heq | heq <;> exact hhigh _ (by omega) (by omega) heq
    split at hmem
    · simp only [List.mem_cons, List.not_mem_nil, or_false] at hmem
      rcases hmem with heq | heq | heq <;> exact hhigh _ (by omega) (by omega) heq
    · simp only [List.mem_cons, List.not_mem_nil, or_false] at hmem
      rcases hmem with heq | heq | heq | heq <;> exact hhigh _ (by omega) (by omega) heq

/-! ### Changing a text byte by byte -/

lemma IsText.append (h : IsText bytes) (h' : IsText bytes') : IsText (bytes ++ bytes') := by
  obtain ⟨chars, rfl⟩ := h
  obtain ⟨chars', rfl⟩ := h'
  exact ⟨chars ++ chars', List.flatMap_append.symm⟩

/-- Bytes below 128 are a text. -/
lemma isText_of_forall_isAscii (h : ∀ byte ∈ bytes, Heap.isAscii byte = true) : IsText bytes := by
  induction bytes with
  | nil => exact ⟨[], rfl⟩
  | cons byte bytes ih =>
      obtain ⟨c, hc⟩ := exists_char_of_isAscii (h byte (List.mem_cons_self ..))
      obtain ⟨chars, rfl⟩ := ih fun b hb => h b (List.mem_cons_of_mem _ hb)
      exact ⟨c :: chars, by rw [List.flatMap_cons, hc, List.singleton_append]⟩

/-- A byte below 128 gives way to another one. The induction finds the character
that it belongs to. -/
lemma IsText.set (h : IsText bytes) {i : Nat} {old : UInt8} (hold : bytes[i]? = some old)
    (hascii : Heap.isAscii old = true) (hnew : Heap.isAscii byte = true) :
    IsText (bytes.set i byte) := by
  obtain ⟨chars, rfl⟩ := h
  induction chars generalizing i with
  | nil => cases hold
  | cons c chars ih =>
      rw [List.flatMap_cons] at hold ⊢
      by_cases hin : i < (String.utf8EncodeChar c).length
      · -- the character is the byte, and becomes the character that is stored
        rw [List.getElem?_append_left hin] at hold
        have hone := eq_singleton_of_isAscii (List.mem_of_getElem? hold) hascii
        obtain ⟨c', hc'⟩ := exists_char_of_isAscii hnew
        obtain rfl : i = 0 := by
          rw [hone, List.length_singleton] at hin
          omega
        exact ⟨c' :: chars, by rw [List.flatMap_cons, hone, hc']; rfl⟩
      · rw [List.getElem?_append_right (by omega)] at hold
        obtain ⟨chars', hchars⟩ := ih hold
        exact ⟨c :: chars', by
          rw [List.set_append_right _ _ (by omega), hchars, List.flatMap_cons]⟩

/-- Zeros and a byte below 128 extend a text. -/
lemma IsText.extend (h : IsText bytes) (gap : Nat) (hascii : Heap.isAscii byte = true) :
    IsText (bytes ++ (List.replicate gap 0 ++ [byte])) := by
  refine h.append (isText_of_forall_isAscii fun b hb => ?_)
  rcases List.mem_append.mp hb with hb | hb
  · rw [List.eq_of_mem_replicate hb]
    rfl
  · rwa [List.mem_singleton.mp hb]

end ScriptMachine
