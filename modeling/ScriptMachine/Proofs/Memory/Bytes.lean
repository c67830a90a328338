import Mathlib.Tactic.Common
import ScriptMachine.Memory.Allocator

/-!
The bytes of an allocator, one by one.

`Allocator.byteAt` reads a single byte and `Allocator.lengthOf` the length of a
page. Every change of memory is described through them, by which bytes are new
and which stay:

* `Allocator.byteAt_write`, `Allocator.byteAt_clear`, `Allocator.byteAt_copy`;
* `Allocator.read_eq`: a range is read byte by byte;
* `Allocator.readHeader_writeHeader`: a header reads back as it was written;
* `Allocator.readHeader_congr`: it depends on its own sixteen bytes only.
-/

namespace ScriptMachine.Memory

namespace Page

variable {page source : Page} {offset count start o : Nat} {values : List UInt8}

@[simp] lemma length_write : (page.write offset values).length = page.length := rfl

@[simp] lemma length_clear : (page.clear offset count).length = page.length := rfl

@[simp] lemma length_overlay : (page.overlay offset source start count).length = page.length := rfl

/-- The length of a fresh page is as asked for. -/
lemma length_blank {length : Nat} (h : 1 <<< length.log2 = length) :
    (blank length).length = length := h

@[simp] lemma byte_blank (length : Nat) : (blank length).byte o = 0 := by
  simp [blank, byte]

lemma byte_write (fits : offset + values.length ≤ page.length) (ho : o < page.length) :
    (page.write offset values).byte o =
      if offset ≤ o ∧ o < offset + values.length then values.getD (o - offset) 0
      else page.byte o := by
  cases values with
  | nil =>
      rw [if_neg (by simp)]
      unfold write byte
      cases page.depth <;> rfl
  | cons value rest =>
      have hlen : offset < page.length := by
        rw [List.length_cons] at fits
        omega
      exact Cells.get_store page.depth page.cells (value :: rest) hlen ho

lemma byte_clear (ho : o < page.length) :
    (page.clear offset count).byte o =
      if offset ≤ o ∧ o < offset + count then 0 else page.byte o :=
  Cells.get_clear page.depth page.cells offset (offset + count) o ho

lemma byte_overlay (fits : offset + count ≤ page.length) (room : start + count ≤ source.length)
    (ho : o < page.length) :
    (page.overlay offset source start count).byte o =
      if (offset ≤ o ∧ o < offset + count) ∧ source.byte (start + (o - offset)) ≠ 0
      then source.byte (start + (o - offset)) else page.byte o := by
  refine (Cells.get_overlay fits source.depth source.cells 0 page.cells ho).trans ?_
  rw [Nat.zero_add, Nat.sub_zero]
  unfold length at room
  by_cases h : offset ≤ o ∧ o < offset + count
  · have reach : 0 ≤ start + (o - offset) ∧ start + (o - offset) < 1 <<< source.depth := by omega
    simp only [h, reach, true_and, byte]
  · simp only [h, false_and, if_false, byte]

lemma read_eq (fits : offset + count ≤ page.length) :
    page.read offset count = (List.range' offset count).map page.byte := by
  unfold read
  rw [length, Cells.list_eq fits, List.append_nil, Nat.add_sub_cancel_left]
  rfl

end Page

namespace Allocator

variable {a : Allocator} {page offset count p o : Nat} {values : List UInt8}

/-- The length of a page; zero if there is none. -/
def lengthOf (a : Allocator) (page : Nat) : Nat := ((a.pages[page]?).map Page.length).getD 0

/-- The byte of a page at an offset; zero if there is none. -/
def byteAt (a : Allocator) (page offset : Nat) : UInt8 := (a.byte? page offset).getD 0

lemma byte?_eq (ho : o < a.lengthOf p) : a.byte? p o = some (a.byteAt p o) := by
  unfold lengthOf byteAt byte? at *
  cases hp : a.pages[p]? with
  | none => simp [hp] at ho
  | some q => rfl

lemma byteAt_of_page {q : Page} (hq : a.pages[p]? = some q) : a.byteAt p o = q.byte o := by
  simp [byteAt, byte?, hq]

lemma lengthOf_of_page {q : Page} (hq : a.pages[p]? = some q) : a.lengthOf p = q.length := by
  simp [lengthOf, hq]

lemma exists_page (ho : o < a.lengthOf p) : ∃ q, a.pages[p]? = some q := by
  unfold lengthOf at ho
  cases hp : a.pages[p]? with
  | none => simp [hp] at ho
  | some q => exact ⟨q, rfl⟩

lemma read_eq (fits : offset + count ≤ a.lengthOf page) :
    a.read page offset count = (List.range' offset count).map (a.byteAt page) := by
  unfold read
  cases hq : a.pages[page]? with
  | none =>
      simp only [lengthOf, hq, Option.map_none, Option.getD_none] at fits
      obtain rfl : count = 0 := by omega
      rfl
  | some q =>
      rw [lengthOf_of_page hq] at fits
      simp only [Page.read_eq fits]
      exact List.map_congr_left fun o _ => (byteAt_of_page hq).symm

/-- A range reads the same in two memories whose bytes agree there. -/
lemma read_congr {b : Allocator} (fits : offset + count ≤ a.lengthOf page)
    (fits' : offset + count ≤ b.lengthOf page)
    (same : ∀ o, offset ≤ o → o < offset + count → b.byteAt page o = a.byteAt page o) :
    b.read page offset count = a.read page offset count := by
  rw [read_eq fits, read_eq fits']
  refine List.map_congr_left fun o ho => ?_
  have := List.mem_range'_1.mp ho
  exact same o this.1 this.2

/-! ### Changes of memory -/

@[simp] lemma lengthOf_write : (a.write page offset values).lengthOf p = a.lengthOf p := by
  unfold lengthOf write
  simp only [Array.getElem?_modify]
  split
  · cases a.pages[p]? <;> rfl
  · rfl

/-- Reading after bytes were written to a page. -/
lemma byteAt_write (fits : offset + values.length ≤ a.lengthOf page) (ho : o < a.lengthOf p) :
    (a.write page offset values).byteAt p o =
      if p = page ∧ offset ≤ o ∧ o < offset + values.length then values.getD (o - offset) 0
      else a.byteAt p o := by
  obtain ⟨q, hq⟩ := exists_page ho
  have hq' : (a.write page offset values).pages[p]? =
      some (if page = p then q.write offset values else q) := by
    unfold write
    rw [Array.getElem?_modify, hq]
    split <;> rfl
  rw [byteAt_of_page hq', byteAt_of_page hq]
  rw [lengthOf_of_page hq] at ho
  by_cases hp : page = p
  · subst hp
    rw [lengthOf_of_page hq] at fits
    simp [Page.byte_write fits ho]
  · simp [hp, Ne.symm hp]

@[simp] lemma lengthOf_clear : (a.clear page offset count).lengthOf p = a.lengthOf p := by
  unfold lengthOf clear
  simp only [Array.getElem?_modify]
  split
  · cases a.pages[p]? <;> rfl
  · rfl

lemma byteAt_clear (ho : o < a.lengthOf p) :
    (a.clear page offset count).byteAt p o =
      if p = page ∧ offset ≤ o ∧ o < offset + count then 0 else a.byteAt p o := by
  obtain ⟨q, hq⟩ := exists_page ho
  have hq' : (a.clear page offset count).pages[p]? =
      some (if page = p then q.clear offset count else q) := by
    unfold clear
    rw [Array.getElem?_modify, hq]
    split <;> rfl
  rw [byteAt_of_page hq', byteAt_of_page hq]
  rw [lengthOf_of_page hq] at ho
  by_cases hp : page = p
  · subst hp
    simp [Page.byte_clear ho]
  · simp [hp, Ne.symm hp]

@[simp] lemma lengthOf_copy {source target : Block} :
    (a.copy source target).lengthOf p = a.lengthOf p := by
  unfold copy
  split
  · unfold lengthOf
    simp only [Array.getElem?_modify]
    split
    · cases a.pages[p]? <;> rfl
    · rfl
  · rfl

/-- Copying a payload: over zeros the bytes appear as they are, and nothing
else changes. -/
lemma byteAt_copy {source target : Block} (room : source.stop ≤ a.lengthOf source.page)
    (fits : target.offset + source.size ≤ a.lengthOf target.page)
    (zeros : ∀ o, target.offset ≤ o → o < target.offset + source.size →
      a.byteAt target.page o = 0) (ho : o < a.lengthOf p) :
    (a.copy source target).byteAt p o =
      if p = target.page ∧ target.offset ≤ o ∧ o < target.offset + source.size
      then a.byteAt source.page (source.offset + (o - target.offset)) else a.byteAt p o := by
  unfold Block.stop at room
  cases hs : a.pages[source.page]? with
  | none =>
      -- without a page the source is empty
      simp only [lengthOf, hs, Option.map_none, Option.getD_none] at room
      rw [if_neg (by omega), copy, hs]
  | some from_ =>
      obtain ⟨q, hq⟩ := exists_page ho
      have hq' : (a.copy source target).pages[p]? = some (if target.page = p then
          q.overlay target.offset from_ source.offset source.size else q) := by
        unfold copy
        rw [hs]
        simp only [Array.getElem?_modify, hq]
        split <;> rfl
      rw [lengthOf_of_page hs] at room
      by_cases hp : target.page = p
      · subst hp
        rw [lengthOf_of_page hq] at ho fits
        rw [if_pos rfl] at hq'
        rw [byteAt_of_page hq', byteAt_of_page hq, byteAt_of_page hs, Page.byte_overlay fits room ho]
        by_cases hin : target.offset ≤ o ∧ o < target.offset + source.size
        · have hz := zeros o hin.1 hin.2
          rw [byteAt_of_page hq] at hz
          by_cases h0 : from_.byte (source.offset + (o - target.offset)) = 0
          · simp [hin, h0, hz]
          · simp [hin, h0]
        · simp [hin]
      · rw [if_neg (by rw [if_neg hp] at hq'; omega), byteAt_of_page hq', if_neg hp,
          byteAt_of_page hq]

/-! ### Headers -/

@[simp] lemma lengthOf_writeHeader {size : Nat} {tag : Tag} :
    (a.writeHeader page offset size tag).lengthOf p = a.lengthOf p :=
  lengthOf_write

/-- Writing a header leaves all bytes but its own. -/
lemma byteAt_writeHeader_of_outside {size : Nat} {tag : Tag}
    (fits : offset + headerSize ≤ a.lengthOf page) (ho : o < a.lengthOf p)
    (outside : p ≠ page ∨ o < offset ∨ offset + headerSize ≤ o) :
    (a.writeHeader page offset size tag).byteAt p o = a.byteAt p o := by
  unfold writeHeader
  have hlen : (littleEndian 8 size ++ littleEndian 8 tag.code).length = headerSize := by
    simp [headerSize]
  rw [byteAt_write (by rwa [hlen]) ho, if_neg]
  rw [hlen]
  omega

/-- A header depends on its own bytes only. -/
lemma readHeader_congr {b : Allocator} (fits : offset + headerSize ≤ a.lengthOf page)
    (fits' : offset + headerSize ≤ b.lengthOf page)
    (same : ∀ o, offset ≤ o → o < offset + headerSize → b.byteAt page o = a.byteAt page o) :
    b.readHeader page offset = a.readHeader page offset := by
  unfold headerSize at *
  unfold readHeader
  rw [read_congr (a := a) (by omega) (by omega) fun o h h' => same o (by omega) (by omega),
    read_congr (a := a) (by omega) (by omega) fun o h h' => same o (by omega) (by omega)]

/-- The bytes of a list, read back at their places. -/
lemma map_getD_range' {start : Nat} (list : List UInt8) {first count : Nat}
    (h : first + count ≤ list.length) :
    (List.range' (start + first) count).map (fun o => list.getD (o - start) 0) =
      (list.drop first).take count := by
  apply List.ext_getElem
  · simp
    omega
  · intro i h1 h2
    simp only [List.length_map, List.length_range'] at h1
    simp only [List.getElem_map, List.getElem_range', List.getElem_take, List.getElem_drop]
    rw [show start + first + 1 * i - start = first + i by omega, List.getD_eq_getElem?_getD,
      List.getElem?_eq_getElem (by omega), Option.getD_some]

/-- Bytes read back as they were written. -/
lemma read_write {first : Nat} (fits : offset + values.length ≤ a.lengthOf page)
    (h : first + count ≤ values.length) :
    (a.write page offset values).read page (offset + first) count =
      (values.drop first).take count := by
  rw [read_eq (by rw [lengthOf_write]; omega), ← map_getD_range' values h]
  refine List.map_congr_left fun o ho => ?_
  have := List.mem_range'_1.mp ho
  rw [byteAt_write fits (by omega), if_pos (by omega)]

/-- A header reads back as it was written. -/
lemma readHeader_writeHeader {size : Nat} {tag : Tag}
    (fits : offset + headerSize ≤ a.lengthOf page) (hsize : size < wordLimit) :
    (a.writeHeader page offset size tag).readHeader page offset = (size, tag.code) := by
  have hlen : (littleEndian 8 size ++ littleEndian 8 tag.code).length = 16 := by simp
  unfold headerSize at fits
  have hcode : tag.code < wordLimit := by cases tag <;> decide
  unfold wordLimit at hsize hcode
  have hread : ∀ first, first + 8 ≤ 16 →
      (a.writeHeader page offset size tag).read page (offset + first) 8 =
        ((littleEndian 8 size ++ littleEndian 8 tag.code).drop first).take 8 :=
    fun first h => read_write (by omega) (by omega)
  unfold readHeader
  rw [hread 8 (Nat.le_refl _), show (a.writeHeader page offset size tag).read page offset 8 = _ from
    hread 0 (by decide)]
  simp only [List.drop_zero, List.take_left' (length_littleEndian 8 _),
    List.drop_left' (length_littleEndian 8 _)]
  rw [List.take_of_length_le (by simp), ofLittleEndian_littleEndian, ofLittleEndian_littleEndian]
  rw [Nat.mod_eq_of_lt (by simpa using hsize), Nat.mod_eq_of_lt (by simpa using hcode)]

end Allocator

end ScriptMachine.Memory
