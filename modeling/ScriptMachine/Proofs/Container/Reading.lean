import ScriptMachine.Proofs.Heap.Tended

/-!
What is read from containers.

`Shows` is the view of a sequence, be it a string, an array, a vector or a stack: its
length, its capacity, and what is read at each place. The index may be of any integer
kind. A string shows an error where a part of a longer character stands.

* `shows_text`, `shows_array`, `shows_vector`, `shows_stack`: the four kinds;
* `getIndex_table`: a table is read as the dictionary that it holds.
-/

namespace ScriptMachine.Container

open Heap

variable {h h' : Heap} {container index : Value} {length capacity : Nat}
  {read read' : Nat → Result Value}

/-- What is read from a sequence. -/
structure Shows (h : Heap) (container : Value) (length capacity : Nat)
    (read : Nat → Result Value) : Prop where
  length_eq : Container.length h container = .ok length
  capacity_eq : Container.capacity h container = .ok capacity
  getIndex_eq : ∀ (index : Value) (i : Nat), index.integral = some (i : Int) → i < length →
    getIndex h container index = read i

lemma Shows.congr (hshows : Shows h container length capacity read)
    (hread : ∀ i < length, read i = read' i) : Shows h container length capacity read' :=
  ⟨hshows.length_eq, hshows.capacity_eq, fun index i hindex hlt =>
    (hshows.getIndex_eq index i hindex hlt).trans (hread i hlt)⟩

/-! ### Sequences -/

lemma shows_vector {ref : Ref .vector} {s : Stack Scalar} (hget : h.get? ref = some s) :
    Shows h (.vector ref) s.length s.capacity fun i => .ok (.scalar ((s.get? i).getD .null)) := by
  have hread := read_of_get? hget
  refine ⟨?_, ?_, fun index i hindex hlt => ?_⟩
  · rw [Container.length, length?, hread]
    rfl
  · rw [Container.capacity, hread]
    rfl
  · simp only [getIndex, hread, bind, Except.bind, position_of_integral hindex hlt]
    rfl

lemma shows_stack {ref : Ref .stack} {s : Stack Value} (hget : h.get? ref = some s) :
    Shows h (.stack ref) s.length s.capacity fun i => .ok ((s.get? i).getD .null) := by
  have hread := read_of_get? hget
  refine ⟨?_, ?_, fun index i hindex hlt => ?_⟩
  · rw [Container.length, length?, hread]
    rfl
  · rw [Container.capacity, hread]
    rfl
  · simp only [getIndex, hread, bind, Except.bind, position_of_integral hindex hlt]
    rfl

lemma shows_array {ref : Ref .array} {a : ArrayRecord} (hs : h.Sound) (hget : h.get? ref = some a) :
    Shows h (.scalar (.array ref)) a.length a.capacity fun i =>
      .ok (.scalar (h.elementAt ref.id a.kind i)) := by
  have hread := read_of_get? hget
  obtain ⟨entry, hfind, hobject⟩ := get?_eq_some_iff.mp hget
  refine ⟨?_, ?_, fun index i hindex hlt => ?_⟩
  · rw [Container.length, length?, hread]
    rfl
  · rw [Container.capacity, hread]
    rfl
  · simp only [getIndex, hread, bind, Except.bind, position_of_integral hindex hlt,
      hs.arrayGet? hfind hobject, if_pos hlt]
    rfl

/-- The character that a byte is at some place of a string. -/
def charAt (i : Nat) (byte : UInt8) : Result Value := do
  return .scalar (.char (← ascii i byte))

lemma shows_text {ref : Ref .string} {record : StringRecord} (hr : h.Readable)
    (hget : h.get? ref = some record) :
    Shows h (.scalar (.str ref)) record.length record.capacity fun i =>
      charAt i (h.cell ref.id i) := by
  have hread := read_of_get? hget
  obtain ⟨entry, hfind, hobject⟩ := get?_eq_some_iff.mp hget
  obtain ⟨made, hl⟩ := hr.texts ref.id entry record hfind hobject
  refine ⟨?_, ?_, fun index i hindex hlt => ?_⟩
  · rw [Container.length, length?, hread]
    rfl
  · rw [Container.capacity, hread]
    rfl
  · have hbyte : h.textByte? ref i = .ok (some (h.cell ref.id i)) := by
      refine (hl.textByte? hr.sound hfind hobject i).trans (congrArg Except.ok ?_)
      simp [cells, hlt]
    simp only [getIndex, show h.textRecord ref = _ from hl.textRecord hfind hobject, bind,
      Except.bind, position_of_integral hindex hlt, hbyte]
    rfl

/-! ### Tables -/

/-- A table is read as the dictionary that it holds. -/
lemma getIndex_table {ref : Ref .table} {t : Table} {d : Dictionary} {key : Key}
    (hget : h.get? ref = some t) (hholds : t.Holds d) (hkey : Container.key h index = .ok key) :
    getIndex h (.table ref) index = .ok ((d.value? key.hash).getD .null) := by
  simp only [getIndex, hkey, read_of_get? hget, hholds.get? key.hash, bind, Except.bind]
  rfl

lemma length_table {ref : Ref .table} {t : Table} (hget : h.get? ref = some t) :
    Container.length h (.table ref) = .ok t.count := by
  rw [Container.length, length?, read_of_get? hget]
  rfl

/-- Scalars stay keys as long as no string changes. -/
lemma key_of_spared {key : Key} (hkey : Container.key h index = .ok key)
    (hspared : ∀ (ref : Ref .string) record, h.get? ref = some record → h'.get? ref = some record) :
    Container.key h' index = .ok key := by
  cases index with
  | scalar scalar =>
      obtain ⟨hash?, hhash, hkey⟩ := Result.exists_of_bind_ok hkey
      have hhash' : h'.hash? scalar = .ok hash? := by
        cases scalar with
        | str ref =>
            obtain ⟨record, hread, hhash⟩ := Result.exists_of_bind_ok hhash
            rw [Heap.hash?, read_of_get? (hspared ref record (get?_of_read hread))]
            exact hhash
        | _ => exact hhash
      cases hash? with
      | some hash =>
          rw [Container.key, hhash']
          exact hkey
      | none =>
          obtain ⟨type, -, hkey⟩ := Result.exists_of_bind_ok hkey
          cases hkey
  | _ =>
      obtain ⟨type, -, hkey⟩ := Result.exists_of_bind_ok hkey
      cases hkey

end ScriptMachine.Container
