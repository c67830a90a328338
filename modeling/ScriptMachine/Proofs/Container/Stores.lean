import ScriptMachine.Proofs.Container.Reading

/-!
Stores into containers.

`Accepts` says which values a live sequence accepts, and what it keeps of them. All
sequences take values in one way (`Takes`): an index that is not below the capacity is out
of bounds, and below it the value is stored, unless memory is short or a character is not
ASCII.

* `Accepts.exists_takes`: strings, arrays, vectors and stacks take what they accept;
* `Takes.placed`: what is read after a store that is done (`Placed`);
* `Takes.refuses`: the error of an index out of bounds;
* `setIndex_table_ends`: stores into tables (`Filed`).
-/

namespace ScriptMachine.Container

open ScriptMachine.Action Heap

variable {h h' : Heap} {container index value kept filler : Value} {length capacity : Nat}
  {read : Nat → Result Value} {id : ObjectId} {journal journal' : Journal}

/-! ### What is kept of a value -/

/-- A live sequence accepts a value: what it keeps of it, and what it fills places with
that a store skips. -/
inductive Accepts (h : Heap) : (container value kept filler : Value) → Prop
  | string {ref : Ref .string} {record : StringRecord} (live : h.get? ref = some record)
      (byte : UInt8) : Accepts h (.scalar (.str ref)) (.scalar (.char byte)) (.scalar (.char byte))
        (.scalar (.char 0))
  | array {ref : Ref .array} {a : ArrayRecord} {original element : Scalar}
      (live : h.get? ref = some a) (coerced : a.kind.coerce original = some element) :
      Accepts h (.scalar (.array ref)) (.scalar original) (.scalar element) (.scalar a.kind.zero)
  | vector {ref : Ref .vector} {s : Stack Scalar} (live : h.get? ref = some s) (scalar : Scalar) :
      Accepts h (.vector ref) (.scalar scalar) (.scalar scalar) .null
  | stack {ref : Ref .stack} {s : Stack Value} (live : h.get? ref = some s) (value : Value) :
      Accepts h (.stack ref) value value .null

/-- A sequence with an element stored at a place, and filler before it if it lies behind
the end. -/
def withElement (read : Nat → Result Value) (length i : Nat) (kept filler : Value) (j : Nat) :
    Result Value :=
  if j = i then .ok kept else if j < length then read j else .ok filler

/-- All objects but a container have the content that they had. -/
def Spared (container : Value) (h h' : Heap) : Prop :=
  ∀ id, container.id? ≠ some id → Intact id h h'

lemma spared_of_onlyAt (ho : OnlyAt id h h') (hid : container.id? = some id) :
    Spared container h h' :=
  fun _ hne => ho.intact fun heq => hne (heq ▸ hid)

/-- The faults of a container that has become too large for the address space. -/
def TooLarge (fault : Fault) : Prop := fault = .wordOverflow ∨ fault = .bufferOverflow

/-! ### The memory of a container -/

/-- A request for memory is served, or memory is short. -/
lemma ends_of_served {α : Type} {action : Action Heap α} {granted : Prop}
    {refusal : Option Failure} {before : Heap} {P : α → Heap → Prop}
    (hserved : (action h journal).Served granted False refusal before P)
    (hstarved : action.Starved) :
    (action h journal).Ends P (fun error _ => error.kind = .memory) TooLarge := by
  have hshort := hstarved h journal
  cases hrun : action h journal with
  | done result h' _ => exact (hserved.of_done hrun).1
  | raised error _ _ => exact of_not_not (hshort.of_raised hrun)
  | aborted fault =>
      obtain ⟨hfull, -⟩ | ⟨hfault, -⟩ := hserved.of_aborted hrun
      · exact hfull.elim
      · exact .inl hfault

lemma reserve_ends (hs : h.Sound) (hid : container.id? = some id) (journal : Journal) :
    (reserve container h journal).Ends (fun _ h' => h'.Sound ∧ OnlyAt id h h' ∧ Intact id h h')
      (fun error _ => error.kind = .memory) TooLarge := by
  rw [reserve, hid]
  exact (ends_of_served (hs.toTidy.resize id journal) (Heap.starved_resize id)).imp
    (fun _ _ hr => ⟨hs.resized hr, hr.only, hr.intact⟩) (fun _ _ hkind => hkind)
    fun _ hfault => hfault

/-- The content of a container changes, and then memory is reserved for it. -/
lemma onContent_reserve_ends {k : Kind} (plain : k ≠ .array ∧ k ≠ .string) (hs : h.Sound)
    {ref : Ref k} {content : k.Content} (hget : h.get? ref = some content)
    (hid : container.id? = some ref.id) {α : Type} {action : Action k.Content α}
    {P : k.Content → Prop}
    (haction : (action content journal).Ends (fun _ => P) (fun _ _ => False) TooLarge) :
    ((onContent ref action >>= fun _ => reserve container) h journal).Ends
      (fun _ h' => OnlyAt ref.id h h' ∧ ∃ content', h'.get? ref = some content' ∧ P content')
      (fun error _ => error.kind = .memory) TooLarge := by
  rw [bind_apply, onContent_apply hget]
  cases hrun : action content journal with
  | done result content' journal' =>
      have hs' : (h.put ref content').Sound :=
        hs.put fun entry _ => object_ofContent_fits plain content' entry.block
      refine (reserve_ends hs' hid journal').imp_done ?_
      rintro _ h' ⟨-, honly, hintact⟩
      exact ⟨onlyAt_put.trans honly, content', hintact.get?.trans (get?_put hget),
        haction.of_done hrun⟩
  | raised error content' journal' => exact (haction.of_raised hrun).elim
  | aborted fault => exact haction.of_aborted hrun

/-! ### Stores into sequences -/

/-- Why a store below the capacity is refused although the sequence accepts the value:
for want of memory, or because one of two characters of a string, the new one or the one
that is there, is not ASCII. -/
def Refused (container value : Value) (old : Result Value) (error : Error) : Prop :=
  error.kind = .memory ∨ ∃ ref i byte, container = .scalar (.str ref) ∧
    error = .notAscii i byte ∧ isAscii byte = false ∧
    (value = .scalar (.char byte) ∨ old = Result.raise error)

/-- How a sequence takes a value: the index is compared with the capacity, and the value
is stored. -/
structure Takes (h : Heap) (container value kept filler : Value) (length capacity : Nat)
    (read : Nat → Result Value) : Prop where
  shown : Shows h container length capacity read
  fails : ∀ index failure, position h container index capacity = .error failure →
    ∀ journal, setIndex container index value h journal =
      (liftM (.error failure : Result Unit) : Action Heap Unit) h journal
  stores : ∀ index (i : Nat), index.integral = some (i : Int) → i < capacity → ∀ journal,
    (setIndex container index value h journal).Ends
      (fun _ h' => Spared container h h' ∧ Shows h' container (max length (i + 1)) capacity
        (withElement read length i kept filler))
      (fun error _ => Refused container value (getIndex h container index) error) TooLarge

/-- What a stack shows after a store. -/
lemma shows_set {α : Type} [Inhabited α] {s : Stack α} {new : α} (wrap : α → Value) {i : Nat}
    (hlt : i < s.capacity)
    (hshows : Shows h container (s.set i new).2.length (s.set i new).2.capacity fun j =>
      .ok (wrap (((s.set i new).2.get? j).getD default))) :
    Shows h container (max s.length (i + 1)) s.capacity
      (withElement (fun j => .ok (wrap ((s.get? j).getD default))) s.length i (wrap new)
        (wrap default)) := by
  rw [s.length_set_of_room new i hlt, s.capacity_set new i] at hshows
  refine hshows.congr fun j hj => ?_
  rw [s.get?_set_of_room new j i hlt hj, Option.getD_some, withElement]
  split_ifs with heq hold
  · rfl
  · rfl
  · rw [(Stack.get?_eq_none_iff j).mpr (Nat.le_of_not_lt hold), Option.getD_none]

/-- Vectors take scalars. -/
lemma takes_vector {ref : Ref .vector} {s : Stack Scalar} (hs : h.Sound)
    (hget : h.get? ref = some s) (scalar : Scalar) :
    Takes h (.vector ref) (.scalar scalar) (.scalar scalar) .null s.length s.capacity
      fun i => .ok (.scalar ((s.get? i).getD .null)) := by
  refine ⟨shows_vector hget, fun index failure hfail journal => ?_,
    fun index i hindex hlt journal => ?_⟩
  · rw [setIndex, get_bind]
    simp only [scalarOf, read_of_get? hget, lift_ok, pure_bind, hfail]
    cases failure <;> rfl
  · rw [setIndex, get_bind]
    simp only [scalarOf, read_of_get? hget, lift_ok, pure_bind, position_of_integral hindex hlt]
    have hset : ((modifyGet (·.set i scalar) : Action (Stack Scalar) Bool) s journal).Ends
        (fun _ s' => s' = (s.set i scalar).2) (fun _ _ => False) TooLarge := rfl
    refine (onContent_reserve_ends (k := .vector) (by decide) hs hget rfl hset).imp ?_
      (fun _ _ => .inl) fun _ => id
    rintro _ h' ⟨honly, _, hget', rfl⟩
    exact ⟨spared_of_onlyAt honly rfl, shows_set .scalar hlt (shows_vector hget')⟩

/-- Stacks take all values. -/
lemma takes_stack {ref : Ref .stack} {s : Stack Value} (hs : h.Sound)
    (hget : h.get? ref = some s) (value : Value) :
    Takes h (.stack ref) value value .null s.length s.capacity
      fun i => .ok ((s.get? i).getD .null) := by
  refine ⟨shows_stack hget, fun index failure hfail journal => ?_,
    fun index i hindex hlt journal => ?_⟩
  · rw [setIndex, get_bind]
    simp only [read_of_get? hget, lift_ok, pure_bind, hfail]
    cases failure <;> rfl
  · rw [setIndex, get_bind]
    simp only [read_of_get? hget, lift_ok, pure_bind, position_of_integral hindex hlt]
    have hset : ((modifyGet (·.set i value) : Action (Stack Value) Bool) s journal).Ends
        (fun _ s' => s' = (s.set i value).2) (fun _ _ => False) TooLarge := rfl
    refine (onContent_reserve_ends (k := .stack) (by decide) hs hget rfl hset).imp ?_
      (fun _ _ => .inl) fun _ => id
    rintro _ h' ⟨honly, _, hget', rfl⟩
    exact ⟨spared_of_onlyAt honly rfl, shows_set id hlt (shows_stack hget')⟩

lemma element_of_coerce {ref : Ref .array} {kind : ArrayKind} {original scalar : Scalar}
    (hcoerce : kind.coerce original = some scalar) :
    element h kind (.scalar (.array ref)) (.scalar original) = .ok scalar := by
  rw [element, Value.scalar?, Option.bind_some, hcoerce]

/-- Arrays take what can be converted to their kind. -/
lemma takes_array {ref : Ref .array} {a : ArrayRecord} {original scalar : Scalar} (hs : h.Sound)
    (hget : h.get? ref = some a) (hcoerce : a.kind.coerce original = some scalar)
    (hnamed : ∀ string, original = .str string → string.id ≠ .dangling) :
    Takes h (.scalar (.array ref)) (.scalar original) (.scalar scalar) (.scalar a.kind.zero)
      a.length a.capacity fun i => .ok (.scalar (h.elementAt ref.id a.kind i)) := by
  obtain ⟨entry, hfind, hobject⟩ := get?_eq_some_iff.mp hget
  refine ⟨shows_array hs hget, fun index failure hfail journal => ?_,
    fun index i hindex hlt journal => ?_⟩
  · rw [setIndex, get_bind]
    simp only [read_of_get? hget, element_of_coerce hcoerce, lift_ok, pure_bind, hfail]
    cases failure <;> rfl
  · rw [setIndex, get_bind]
    simp only [read_of_get? hget, element_of_coerce hcoerce, lift_ok, pure_bind,
      position_of_integral hindex hlt]
    obtain ⟨h₁, hrun, hs₁, honly₁, hfind₁, helements⟩ :=
      hs.arraySet hfind hobject (ArrayKind.element_of_coerce hcoerce)
        (fun string heq => hnamed string (ArrayKind.eq_of_coerce_string (heq ▸ hcoerce))) hlt
        journal
    have hget₁ : h₁.get? ref = some { a with length := max a.length (i + 1) } :=
      get?_eq_some_iff.mpr ⟨_, hfind₁, rfl⟩
    rw [bind_of_done hrun]
    refine (reserve_ends hs₁ rfl journal).imp ?_ (fun _ _ => .inl) fun _ => id
    rintro _ h₂ ⟨hs₂, honly₂, hintact⟩
    refine ⟨spared_of_onlyAt (honly₁.trans honly₂) rfl,
      (shows_array hs₂ (hintact.get?.trans hget₁)).congr fun j hj => ?_⟩
    rw [hintact.elementAt hs₁ hget₁ hj, helements j hj, withElement]
    split_ifs <;> rfl

/-- The bytes of a string after a store. -/
lemma getElem?_storeByte {bytes : List UInt8} {i j : Nat} {byte : UInt8}
    (hj : j < max bytes.length (i + 1)) :
    (storeByte bytes i byte)[j]? = some (if j = i then byte else bytes[j]?.getD 0) := by
  rw [storeByte, List.getElem?_set]
  by_cases heq : j = i
  · rw [if_pos heq.symm, if_pos heq, if_pos]
    rw [List.length_append, List.length_replicate]
    omega
  · rw [if_neg (Ne.symm heq), if_neg heq, List.getElem?_append]
    by_cases hold : j < bytes.length
    · rw [if_pos hold, List.getElem?_eq_getElem hold, Option.getD_some]
    · rw [if_neg hold, List.getElem?_eq_none (Nat.le_of_not_lt hold), Option.getD_none,
        List.getElem?_replicate, if_pos (by omega)]

lemma getElem?_cells {j : Nat} (hj : j < length) :
    (h.cells id length)[j]? = some (h.cell id j) := by
  simp [cells, hj]

/-- What a string shows after a store. -/
lemma shows_stored {ref : Ref .string} {entry : Entry} {record : StringRecord} {made i : Nat}
    {byte : UInt8} (hr : h.Readable) (hl : Legible h ref.id entry record made)
    (hstored : Heap.Stored h h' ref.id entry record made i byte) (hascii : isAscii byte = true) :
    Shows h' (.scalar (.str ref)) (max record.length (i + 1)) record.capacity
      (withElement (fun i => charAt i (h.cell ref.id i)) record.length i (.scalar (.char byte))
        (.scalar (.char 0))) := by
  obtain ⟨record', hfind', hl', hcells⟩ := hstored.found
  have hr' := hr.of_onlyAt hstored.sound hstored.only hfind' rfl hl'
  have hlength : record'.length = max record.length (i + 1) := by
    have hlist := congrArg List.length hcells
    simp only [cells, storeByte, List.length_map, List.length_range, List.length_set,
      List.length_append, List.length_replicate] at hlist
    omega
  have hcapacity : record'.capacity = record.capacity := by
    rw [hl'.holds, hl.holds]
    rfl
  have hshows := shows_text hr' (get?_eq_some_iff.mpr ⟨_, hfind', rfl⟩)
  rw [hlength, hcapacity] at hshows
  refine hshows.congr fun j hj => ?_
  have hcell : h'.cell ref.id j =
      if j = i then byte else (h.cells ref.id record.length)[j]?.getD 0 := by
    refine Option.some.inj ((getElem?_cells (hlength.symm ▸ hj)).symm.trans ?_)
    rw [hcells]
    refine getElem?_storeByte (hj.trans_eq ?_)
    rw [cells, List.length_map, List.length_range]
  rw [hcell, withElement]
  -- the stored place, the places before the old end, the gap
  split_ifs with heq hold
  · rw [charAt, ascii_of_isAscii hascii]
    rfl
  · rw [getElem?_cells hold, Option.getD_some]
  · rw [List.getElem?_eq_none (by simpa [cells] using hold), Option.getD_none]
    rfl

/-- A character that is not ASCII is neither stored nor written over. -/
lemma setIndex_refused {ref : Ref .string} {entry : Entry} {record : StringRecord} {made i : Nat}
    {byte bad : UInt8} (hr : h.Readable) (hl : Legible h ref.id entry record made)
    (hfind : h.find? ref.id = some entry) (hobject : entry.object = .string record)
    (hindex : index.integral = some (i : Int)) (hlt : i < record.capacity)
    (hbad : isAscii bad = false)
    (hcase : (h.cells ref.id record.length)[i]? = some bad ∨ byte = bad ∧
      ∀ old, (h.cells ref.id record.length)[i]? = some old → isAscii old = true)
    (journal : Journal) :
    setIndex (.scalar (.str ref)) index (.scalar (.char byte)) h journal =
      .raised (.notAscii i bad) h journal := by
  have hraise : ascii i bad = Result.raise (.notAscii i bad) := if_neg (by simp [hbad])
  rw [setIndex, get_bind]
  simp only [setText]
  rw [bind_assoc, get_bind]
  simp only [read_of_get? (get?_eq_some_iff.mpr ⟨entry, hfind, hobject⟩), lift_ok, pure_bind,
    position_of_integral hindex hlt, hl.textByte? hr.sound hfind hobject]
  rcases hcase with hcell | ⟨rfl, hold⟩
  · simp only [hcell, hraise]
    rfl
  · cases hcell : (h.cells ref.id record.length)[i]? with
    | none =>
        simp only [hraise]
        rfl
    | some old =>
        simp only [ascii_of_isAscii (hold old hcell), lift_ok, pure_bind, hraise]
        rfl

/-- Strings take characters, and refuse those that are not ASCII. -/
lemma takes_text {ref : Ref .string} {record : StringRecord} (hr : h.Readable)
    (hget : h.get? ref = some record) (byte : UInt8) :
    Takes h (.scalar (.str ref)) (.scalar (.char byte)) (.scalar (.char byte)) (.scalar (.char 0))
      record.length record.capacity fun i => charAt i (h.cell ref.id i) := by
  obtain ⟨entry, hfind, hobject⟩ := get?_eq_some_iff.mp hget
  obtain ⟨made, hl⟩ := hr.texts ref.id entry record hfind hobject
  have hshows := shows_text hr hget
  refine ⟨hshows, fun index failure hfail journal => ?_, fun index i hindex hlt journal => ?_⟩
  · rw [setIndex, get_bind]
    simp only [setText]
    rw [bind_assoc, get_bind]
    simp only [read_of_get? hget, lift_ok, pure_bind, hfail]
    cases failure <;> rfl
  · by_cases hold : ∀ old, (h.cells ref.id record.length)[i]? = some old → isAscii old = true
    · cases hascii : isAscii byte with
      | true =>
          obtain ⟨h', hrun, hstored⟩ :=
            setIndex_text_of hl hr.sound hfind hobject hindex hlt hold hascii journal
          rw [show setIndex (.scalar (.str ref)) index (.scalar (.char byte)) h journal = _
            from hrun]
          exact ⟨spared_of_onlyAt hstored.only rfl, shows_stored hr hl hstored hascii⟩
      | false =>
          rw [setIndex_refused hr hl hfind hobject hindex hlt hascii (.inr ⟨rfl, hold⟩)]
          exact .inr ⟨ref, i, byte, rfl, rfl, hascii, .inl rfl⟩
    · -- the character that is there is not ASCII, and cannot be read either
      push Not at hold
      obtain ⟨old, hcell, hwide⟩ := hold
      have hwide : isAscii old = false := Bool.eq_false_of_not_eq_true hwide
      have hlt' : i < record.length := by
        obtain ⟨hi, -⟩ := List.getElem?_eq_some_iff.mp hcell
        simpa [cells] using hi
      have hold := Option.some.inj ((getElem?_cells hlt').symm.trans hcell)
      rw [setIndex_refused hr hl hfind hobject hindex hlt hwide (.inl hcell)]
      refine .inr ⟨ref, i, old, rfl, rfl, hwide, .inr ?_⟩
      rw [hshows.getIndex_eq index i hindex hlt', hold, charAt, ascii, hwide]
      rfl

/-! ### Sequences and the values that they accept -/

lemma Accepts.exists_takes (ha : Accepts h container value kept filler) (hr : h.Readable)
    (hnamed : ∀ string, value = .scalar (.str string) → string.id ≠ .dangling) :
    ∃ length capacity read, Takes h container value kept filler length capacity read := by
  cases ha with
  | string live byte => exact ⟨_, _, _, takes_text hr live byte⟩
  | array live coerced =>
      exact ⟨_, _, _, takes_array hr.sound live coerced fun string heq =>
        hnamed string (congrArg Value.scalar heq)⟩
  | vector live scalar => exact ⟨_, _, _, takes_vector hr.sound live scalar⟩
  | stack live value => exact ⟨_, _, _, takes_stack hr.sound live value⟩

lemma accepts_of_element {ref : Ref .array} {a : ArrayRecord} {scalar : Scalar}
    (hread : h.read ref = .ok a)
    (helement : element h a.kind (.scalar (.array ref)) value = .ok scalar) :
    Accepts h (.scalar (.array ref)) value (.scalar scalar) (.scalar a.kind.zero) := by
  unfold element at helement
  split at helement
  case h_1 scalar' hcoerce =>
    cases helement
    cases value with
    | scalar original => exact .array (get?_of_read hread) hcoerce
    | _ => cases hcoerce
  case h_2 => exact absurd helement (elementMismatch_ne_ok _ _ _ _)

lemma scalarOf_eq_ok {scalar : Scalar} (hok : scalarOf h container value = .ok scalar) :
    value = .scalar scalar := by
  cases value with
  | scalar s => exact congrArg Value.scalar (Except.ok.inj hok)
  | _ => exact absurd hok (elementMismatch_ne_ok _ _ _ _)

/-- A store that is done was into a live sequence that accepts the value. -/
lemma accepts_of_setIndex (hsequence : ∀ ref, container ≠ .table ref)
    (hdone : setIndex container index value h journal = .done () h' journal') :
    ∃ kept filler, Accepts h container value kept filler := by
  rw [setIndex, get_bind] at hdone
  split at hdone
  case h_1 ref =>
    obtain ⟨a, hread, hdone⟩ := exists_of_lift_bind_done hdone
    obtain ⟨scalar, helement, -⟩ := exists_of_lift_bind_done hdone
    exact ⟨_, _, accepts_of_element hread helement⟩
  case h_2 ref =>
    obtain ⟨scalar, hscalar, hdone⟩ := exists_of_lift_bind_done hdone
    obtain ⟨s, hread, -⟩ := exists_of_lift_bind_done hdone
    obtain rfl := scalarOf_eq_ok hscalar
    exact ⟨_, _, .vector (get?_of_read hread) scalar⟩
  case h_3 ref =>
    obtain ⟨s, hread, -⟩ := exists_of_lift_bind_done hdone
    exact ⟨_, _, .stack (get?_of_read hread) value⟩
  case h_4 ref => exact absurd rfl (hsequence ref)
  -- a string takes characters only
  case h_5 ref =>
    obtain ⟨_, _, _, htext, -⟩ := exists_of_bind_done hdone
    rw [setText, get_bind] at htext
    split at htext
    case h_1 byte =>
      obtain ⟨record, hread, -⟩ := exists_of_lift_bind_done htext
      exact ⟨_, _, .string (get?_of_read hread) byte⟩
    case h_2 =>
      rw [← bind_pure (liftM _)] at htext
      obtain ⟨_, hok, -⟩ := exists_of_lift_bind_done htext
      exact absurd hok (elementMismatch_ne_ok _ _ _ _)
  case h_6 =>
    obtain ⟨_, hok, -⟩ := exists_of_lift_bind_done hdone
    obtain ⟨type, -, hok⟩ := Result.exists_of_bind_ok hok
    cases hok

/-- A value was stored in a sequence: it is read at its place, the places before the old
end are read as before, and the others are filled. -/
def Placed (h h' : Heap) (container index value : Value) : Prop :=
  ∃ (i length capacity : Nat) (read : Nat → Result Value) (kept filler : Value),
    index.integral = some (i : Int) ∧ i < capacity ∧ Accepts h container value kept filler ∧
    Shows h container length capacity read ∧
    Shows h' container (max length (i + 1)) capacity (withElement read length i kept filler)

lemma Takes.placed (ht : Takes h container value kept filler length capacity read)
    (ha : Accepts h container value kept filler)
    (hdone : setIndex container index value h journal = .done () h' journal') :
    Spared container h h' ∧ Placed h h' container index value := by
  cases hpos : position h container index capacity with
  | error failure =>
      rw [ht.fails index failure hpos] at hdone
      cases failure <;> cases hdone
  | ok i =>
      obtain ⟨hindex, hlt⟩ := position_eq_ok hpos
      obtain ⟨hspared, hshown⟩ := (ht.stores index i hindex hlt journal).of_done hdone
      exact ⟨hspared, i, length, capacity, read, kept, filler, hindex, hlt, ha, ht.shown, hshown⟩

/-! ### Indices out of bounds -/

lemma Accepts.exists_typeName (ha : Accepts h container value kept filler) :
    ∃ type, h.typeName container = .ok type := by
  cases ha with
  | array live coerced =>
      rw [typeName, scalarType, read_of_get? live]
      exact ⟨_, rfl⟩
  | _ => exact ⟨_, rfl⟩

lemma length?_of_length (hlength : Container.length h container = .ok length) :
    length? h container = .ok (some length) := by
  obtain ⟨length?, hlength?, hok⟩ := Result.exists_of_bind_ok hlength
  cases length? with
  | some length' => cases hok; exact hlength?
  | none =>
      obtain ⟨type, -, hok⟩ := Result.exists_of_bind_ok hok
      cases hok

lemma Takes.refuses (ht : Takes h container value kept filler length capacity read) {type : String}
    {n : Int} (htype : h.typeName container = .ok type) (hindex : index.integral = some n)
    (hout : n < 0 ∨ capacity ≤ n) (journal : Journal) :
    setIndex container index value h journal = .raised (.outOfBounds type n length) h journal := by
  have hpos : position h container index capacity =
      Result.raise (.outOfBounds type n length) := by
    rw [position, hindex]
    dsimp only
    rw [if_neg (by omega), htype, length?_of_length ht.shown.length_eq]
    rfl
  rw [ht.fails index _ hpos]
  rfl

/-! ### Stores into tables -/

/-- A value was stored in a table: it is read under its hash, and all other hashes are
read as before. -/
def Filed (h h' : Heap) (ref : Ref .table) (index value : Value) : Prop :=
  ∃ t key, h.get? ref = some t ∧ Container.key h index = .ok key ∧
    Container.length h (.table ref) = .ok t.count ∧
    Container.length h' (.table ref) =
      .ok (if t.entries.any (·.1.hash = key.hash) then t.count else t.count + 1) ∧
    ∀ other key', Container.key h other = .ok key' →
      getIndex h' (.table ref) other =
        if key'.hash = key.hash then .ok value else getIndex h (.table ref) other

/-- What a change of a table leaves of the strings. -/
lemma get?_string_of_onlyAt {ref : Ref .table} {t : Table} (hget : h.get? ref = some t)
    (ho : OnlyAt ref.id h h') {string : Ref .string} {record : StringRecord}
    (hstring : h.get? string = some record) : h'.get? string = some record := by
  refine (ho.intact fun heq => ?_).get?.trans hstring
  have hsame : h.get? (⟨ref.id⟩ : Ref .string) = some record := heq ▸ hstring
  cases kind_eq hget hsame

/-- A store into a table fails only for want of memory. -/
lemma setIndex_table_ends (ho : h.Orderly) {ref : Ref .table} {t : Table} {key : Key}
    (hget : h.get? ref = some t) (hkey : Container.key h index = .ok key) (journal : Journal) :
    (setIndex (.table ref) index value h journal).Ends
      (fun _ h' => Spared (.table ref) h h' ∧ Filed h h' ref index value)
      (fun error _ => error.kind = .memory) TooLarge := by
  obtain ⟨d, hholds⟩ := ho.tables ref.id t (table?_of_get? hget)
  have hinsert := (hholds.insert key value journal).imp
    (fun _ _ hdone => hdone.2.1) (fun _ _ => id) fun _ hfault => (.inr hfault.1 : TooLarge _)
  rw [setIndex, get_bind]
  simp only [hkey, lift_ok, pure_bind]
  refine (onContent_reserve_ends (k := .table) (by decide) ho.sound hget rfl hinsert).imp_done ?_
  rintro _ h' ⟨honly, t', hget', hholds'⟩
  refine ⟨spared_of_onlyAt honly rfl, t, key, hget, hkey, length_table hget, ?_,
    fun other key' hother => ?_⟩
  · rw [length_table hget', hholds'.count, hholds.count,
      hholds.listed.length_insert hholds'.listed]
  · have hother' := key_of_spared hother fun _ _ => get?_string_of_onlyAt hget honly
    rw [getIndex_table hget' hholds' hother', getIndex_table hget hholds hother,
      Dictionary.value?_insert]
    split_ifs <;> rfl

lemma exists_get?_of_onContent {k : Kind} {ref : Ref k} {α : Type} {action : Action k.Content α}
    {result : α} (hdone : onContent ref action h journal = .done result h' journal') :
    ∃ content, h.get? ref = some content := by
  cases hget : h.get? ref with
  | some content => exact ⟨content, rfl⟩
  | none =>
      rw [onContent, take?, hget] at hdone
      cases hdone

/-- A store in a table that is done was into a live one and under a key. -/
lemma exists_key_of_done {ref : Ref .table}
    (hdone : setIndex (.table ref) index value h journal = .done () h' journal') :
    ∃ t key, h.get? ref = some t ∧ Container.key h index = .ok key := by
  rw [setIndex, get_bind] at hdone
  obtain ⟨key, hkey, hdone⟩ := exists_of_lift_bind_done hdone
  obtain ⟨_, _, _, hcontent, -⟩ := exists_of_bind_done hdone
  obtain ⟨t, hget⟩ := exists_get?_of_onContent hcontent
  exact ⟨t, key, hget, hkey⟩

end ScriptMachine.Container
