import ScriptMachine.Proofs.Heap.Contents

/-!
Arrays, element by element.

`Heap.elementAt` decodes the cells of one element. Each operation on an array has
a lemma that gives every element of the array after it; nothing else in the heap
changes.

* `Sound.arrayGet?`, `Sound.arrayElements`: what is read are the elements;
* `Sound.arraySet`: one element is stored, skipped ones are zero;
* `Sound.arrayPush`: one element more, or an array that is as it was;
* `Sound.arrayPop`, `Sound.copyArray`.
-/

namespace ScriptMachine

open Memory

/-- The array with room for more elements. -/
def ArrayRecord.enlarged (a : ArrayRecord) : ArrayRecord :=
  { a with capacity := growCapacity a.capacity }

/-- The array with one element more. -/
def ArrayRecord.pushed (a : ArrayRecord) : ArrayRecord :=
  { (if a.length = a.capacity then a.enlarged else a) with length := a.length + 1 }

namespace Heap

variable {h h' : Heap} {id : ObjectId} {entry : Entry} {ref : Ref .array} {a : ArrayRecord}
  {kind : ArrayKind} {scalar : Scalar} {index : Nat}

/-- The element of an array at an index. -/
def elementAt (h : Heap) (id : ObjectId) (kind : ArrayKind) (i : Nat) : Scalar :=
  kind.decode ((List.range' (i * kind.width) kind.width).map (h.cell id))

lemma elementAt_congr {i : Nat} {id' : ObjectId}
    (hcells : ∀ j, i * kind.width ≤ j → j < i * kind.width + kind.width →
      h'.cell id' j = h.cell id j) :
    h'.elementAt id' kind i = h.elementAt id kind i := by
  unfold elementAt
  congr 1
  refine List.map_congr_left fun j hj => ?_
  rw [List.mem_range'_1] at hj
  exact hcells j hj.1 hj.2

/-- Bytes that are a row of cells are cut into elements. -/
lemma elements_map_range' (kind : ArrayKind) (f : Nat → UInt8) (count start : Nat) :
    Object.elements kind count
        ((List.range' (start * kind.width) (count * kind.width)).map f) =
      (List.range' start count).map fun i =>
        kind.decode ((List.range' (i * kind.width) kind.width).map f) := by
  induction count generalizing start with
  | zero => rfl
  | succ count ih =>
      have hsplit : List.range' (start * kind.width) ((count + 1) * kind.width) =
          List.range' (start * kind.width) kind.width ++
            List.range' ((start + 1) * kind.width) (count * kind.width) := by
        rw [Nat.succ_mul count, Nat.succ_mul start, Nat.add_comm (count * kind.width),
          List.range'_append_1]
      have hlength : ((List.range' (start * kind.width) kind.width).map f).length = kind.width := by
        rw [List.length_map, List.length_range']
      rw [hsplit, List.map_append, Object.elements, List.take_left' hlength,
        List.drop_left' hlength, ih, List.range'_succ, List.map_cons]

/-! ### Reading -/

/-- An element below the capacity lies in the block. -/
lemma Sound.element_le (hs : h.Sound) (hfind : h.find? id = some entry)
    (hobject : entry.object = .array a) {i : Nat} (hi : i < a.capacity) :
    i * a.kind.width + a.kind.width ≤ entry.block.size := by
  have hfits := hs.fits _ _ hfind
  rw [hobject] at hfits
  have hle := Nat.mul_le_mul_right a.kind.width (Nat.succ_le_of_lt hi)
  rw [Nat.succ_mul] at hle
  exact Nat.le_trans hle hfits.2

lemma Sound.length_le (hs : h.Sound) (hfind : h.find? id = some entry)
    (hobject : entry.object = .array a) :
    a.length ≤ a.capacity ∧ a.length * a.kind.width ≤ entry.block.size := by
  have hfits := hs.fits _ _ hfind
  rw [hobject] at hfits
  exact ⟨hfits.1, Nat.le_trans (Nat.mul_le_mul_right _ hfits.1) hfits.2⟩

lemma Sound.elementBytes (hs : h.Sound) (hfind : h.find? ref.id = some entry)
    (hobject : entry.object = .array a) (hi : index < a.capacity) :
    a.kind.decode (h.elementBytes ref a.kind index) = h.elementAt ref.id a.kind index := by
  rw [elementAt, ← hs.toTidy.read_eq hfind (hs.element_le hfind hobject hi)]
  simp [Heap.elementBytes, block?, hfind]

lemma read_array (hfind : h.find? ref.id = some entry) (hobject : entry.object = .array a) :
    h.read ref = .ok a :=
  read_of_get? (get?_eq_some_iff.mpr ⟨entry, hfind, hobject⟩)

lemma Sound.arrayGet? (hs : h.Sound) (hfind : h.find? ref.id = some entry)
    (hobject : entry.object = .array a) (index : Nat) :
    h.arrayGet? ref index =
      .ok (if index < a.length then some (h.elementAt ref.id a.kind index) else none) := by
  have hle := (hs.length_le hfind hobject).1
  unfold Heap.arrayGet?
  rw [read_array hfind hobject]
  by_cases hi : index < a.length
  · rw [if_pos hi, ← hs.elementBytes hfind hobject (by omega)]
    exact if_pos hi
  · rw [if_neg hi]
    exact if_neg hi

lemma Tidy.elements_read (ht : h.Tidy) (hfind : h.find? id = some entry)
    (hle : a.length * a.kind.width ≤ entry.block.size) :
    Object.elements a.kind a.length
        (h.memory.read entry.block.page entry.block.offset (a.length * a.kind.width)) =
      (List.range a.length).map (h.elementAt id a.kind) := by
  have hread : h.memory.read entry.block.page (entry.block.offset + 0)
      (a.length * a.kind.width) = _ := ht.read_eq hfind (by omega)
  rw [Nat.add_zero] at hread
  have hcut := elements_map_range' a.kind (h.cell id) a.length 0
  rw [Nat.zero_mul] at hcut
  rw [hread, hcut, List.range_eq_range']
  rfl

lemma Sound.arrayElements (hs : h.Sound) (hfind : h.find? ref.id = some entry)
    (hobject : entry.object = .array a) :
    h.arrayElements ref = .ok ((List.range a.length).map (h.elementAt ref.id a.kind)) := by
  unfold Heap.arrayElements
  rw [read_array hfind hobject, ← hs.toTidy.elements_read hfind (hs.length_le hfind hobject).2]
  refine congrArg (fun bytes => Except.ok (Object.elements a.kind a.length bytes)) ?_
  simp [bytes, block?, hfind]

/-! ### Storing -/

lemma writeElement_of_ok {bytes : List UInt8} (hencode : kind.encode scalar = .ok bytes)
    (journal : Journal) : writeElement ref kind index scalar h journal =
      .done () (h.writeBytes ref.id (index * kind.width) bytes) journal := by
  simp [writeElement, hencode]

/-- Elements at two places have no cell in common. -/
lemma elements_apart {i j w : Nat} (hne : i ≠ j) : i * w + w ≤ j * w ∨ j * w + w ≤ i * w := by
  rcases Nat.lt_or_gt_of_ne hne with hlt | hlt
  · left
    have := Nat.mul_le_mul_right w (Nat.succ_le_of_lt hlt)
    rwa [Nat.succ_mul] at this
  · right
    have := Nat.mul_le_mul_right w (Nat.succ_le_of_lt hlt)
    rwa [Nat.succ_mul] at this

/-- A scalar is stored in the memory of one element. -/
lemma Tidy.writeElement (ht : h.Tidy) (hfind : h.find? ref.id = some entry)
    (helement : kind.Element scalar) (hlive : ∀ string, scalar = .str string → string.id ≠ .dangling)
    (hle : index * kind.width + kind.width ≤ entry.block.size) (journal : Journal) :
    ∃ h', Heap.writeElement ref kind index scalar h journal = .done () h' journal ∧
      Rewritten ref.id h h' ∧ ∀ i, i * kind.width + kind.width ≤ entry.block.size →
        h'.elementAt ref.id kind i = if i = index then scalar else h.elementAt ref.id kind i := by
  obtain ⟨bytes, hencode, hlength, hdecode⟩ := helement.exists_encode
  have hfit : index * kind.width + bytes.length ≤ entry.block.size := by omega
  obtain ⟨-, -, -, hcells⟩ := ht.writeBytes hfind hfit
  refine ⟨_, writeElement_of_ok hencode journal, ht.rewritten_writeBytes hfind hfit,
    fun i hi => ?_⟩
  by_cases heq : i = index
  · rw [if_pos heq, heq, elementAt, ← hdecode hlive]
    congr 1
    refine List.ext_getElem (by simp [hlength]) fun n hn hn' => ?_
    rw [List.getElem_map, List.getElem_range', hcells _ (by omega), if_pos (by omega)]
    rw [show index * kind.width + 1 * n - index * kind.width = n by omega,
      List.getD_eq_getElem?_getD, List.getElem?_eq_getElem hn', Option.getD_some]
  · rw [if_neg heq]
    refine elementAt_congr fun j hj hj' => ?_
    have hapart := elements_apart (w := kind.width) heq
    rw [hcells j (by omega), if_neg (by omega)]

/-- Zeros are stored in a row of elements. -/
lemma Tidy.writeZeros (ht : h.Tidy) (hfind : h.find? ref.id = some entry) (count : Nat)
    (hle : ∀ i < index + count, i * kind.width + kind.width ≤ entry.block.size)
    (journal : Journal) :
    ∃ h', Heap.writeZeros ref kind count index h journal = .done () h' journal ∧
      Rewritten ref.id h h' ∧ ∀ i, i * kind.width + kind.width ≤ entry.block.size →
        h'.elementAt ref.id kind i =
          if index ≤ i ∧ i < index + count then kind.zero else h.elementAt ref.id kind i := by
  induction count generalizing index h with
  | zero =>
      refine ⟨h, rfl, ht.rewritten ref.id, fun i _ => ?_⟩
      rw [if_neg (by omega)]
  | succ count ih =>
      have hlive : ∀ string, kind.zero = .str string → string.id ≠ .dangling := by
        cases kind <;> simp [ArrayKind.zero]
      obtain ⟨h₁, hrun₁, hr₁, helements₁⟩ := ht.writeElement hfind kind.element_zero hlive
        (hle index (by omega)) journal
      have hle' : ∀ i < index + 1 + count, i * kind.width + kind.width ≤ entry.block.size :=
        fun i hi => hle i (by omega)
      obtain ⟨h₂, hrun₂, hr₂, helements₂⟩ := ih hr₁.tidy (hr₁.found.trans hfind) hle'
      refine ⟨h₂, ?_, hr₁.trans hr₂, fun i hi => ?_⟩
      · rw [Heap.writeZeros, Action.bind_of_done hrun₁, hrun₂]
      · rw [helements₂ i hi, helements₁ i hi]
        by_cases heq : i = index
        · rw [if_neg (by omega), if_pos heq, if_pos (by omega)]
        · rw [if_neg heq]
          by_cases hin : index + 1 ≤ i ∧ i < index + 1 + count
          · rw [if_pos hin, if_pos (by omega)]
          · rw [if_neg hin, if_neg (by omega)]

/-- Storing at or past the capacity does nothing. -/
lemma arraySet_of_le (hfind : h.find? ref.id = some entry) (hobject : entry.object = .array a)
    (hle : a.capacity ≤ index) (journal : Journal) :
    Heap.arraySet ref index scalar h journal = .done false h journal := by
  unfold Heap.arraySet
  simp [read_array hfind hobject, hle]

/-- Storing below the capacity: skipped elements are zero. -/
lemma Sound.arraySet (hs : h.Sound) (hfind : h.find? ref.id = some entry)
    (hobject : entry.object = .array a) (helement : a.kind.Element scalar)
    (hlive : ∀ string, scalar = .str string → string.id ≠ .dangling)
    (hlt : index < a.capacity) (journal : Journal) :
    ∃ h', Heap.arraySet ref index scalar h journal = .done true h' journal ∧ h'.Sound ∧
      OnlyAt ref.id h h' ∧
      h'.find? ref.id = some { entry with
        object := .array { a with length := max a.length (index + 1) } } ∧
      ∀ i < max a.length (index + 1), h'.elementAt ref.id a.kind i =
        if i = index then scalar
        else if i < a.length then h.elementAt ref.id a.kind i else a.kind.zero := by
  have hlength := (hs.length_le hfind hobject).1
  have hin : ∀ i < a.capacity, i * a.kind.width + a.kind.width ≤ entry.block.size :=
    fun i hi => hs.element_le hfind hobject hi
  have hzeros : ∀ i < a.length + (index - a.length),
      i * a.kind.width + a.kind.width ≤ entry.block.size := fun i hi => hin i (by omega)
  -- two writes inside the block: zeros up to the index, then the element
  obtain ⟨h₁, hrun₁, hr₁, helements₁⟩ := hs.toTidy.writeZeros hfind (index - a.length) hzeros journal
  obtain ⟨h₂, hrun₂, hr₂, helements₂⟩ := hr₁.tidy.writeElement (hr₁.found.trans hfind) helement hlive
    (hin index hlt) journal
  have hr := hr₁.trans hr₂
  have hfind' := hr.found.trans hfind
  refine ⟨h₂.put ref { a with length := max a.length (index + 1) }, ?_,
    (hr.sound hs).put fun entry' hentry => ?_, hr.only.trans onlyAt_put, ?_, fun i hi => ?_⟩
  · unfold Heap.arraySet
    simp only [Action.get_bind, read_array hfind hobject, Action.lift_ok, pure_bind,
      Nat.not_le.mpr hlt, if_false]
    rw [Action.bind_of_done hrun₁, Action.bind_of_done hrun₂]
    rfl
  · obtain rfl := Option.some.inj (hfind'.symm.trans hentry)
    have hfits := hs.fits _ _ hfind
    rw [hobject] at hfits
    exact ⟨Nat.max_le.mpr ⟨hlength, hlt⟩, hfits.2⟩
  · rw [find?_put, if_pos rfl, hfind']
    rfl
  · have hi' := hin i (by omega)
    rw [elementAt_congr (h := h₂) fun j _ _ => by rw [cell_put], helements₂ i hi', helements₁ i hi']
    by_cases heq : i = index
    · rw [if_pos heq, if_pos heq]
    · rw [if_neg heq, if_neg heq]
      by_cases hold : i < a.length
      · rw [if_pos hold, if_neg (by omega)]
      · rw [if_neg hold, if_pos (by omega)]

/-- Storing right behind the last element. -/
lemma Sound.arrayAppend (hs : h.Sound) (hfind : h.find? ref.id = some entry)
    (hobject : entry.object = .array a) (helement : a.kind.Element scalar)
    (hlive : ∀ string, scalar = .str string → string.id ≠ .dangling)
    (hlt : a.length < a.capacity) (journal : Journal) :
    ∃ h', Heap.arraySet ref a.length scalar h journal = .done true h' journal ∧ h'.Sound ∧
      OnlyAt ref.id h h' ∧
      h'.find? ref.id = some { entry with object := .array { a with length := a.length + 1 } } ∧
      ∀ i < a.length + 1, h'.elementAt ref.id a.kind i =
        if i = a.length then scalar else h.elementAt ref.id a.kind i := by
  obtain ⟨h', hrun, hs', honly, hfind', helements⟩ :=
    hs.arraySet hfind hobject helement hlive hlt journal
  rw [Nat.max_eq_right (Nat.le_succ _)] at hfind' helements
  refine ⟨h', hrun, hs', honly, hfind', fun i hi => ?_⟩
  rw [helements i hi]
  by_cases heq : i = a.length
  · rw [if_pos heq, if_pos heq]
  · rw [if_neg heq, if_neg heq, if_pos (by omega)]

/-! ### Growing and shrinking -/

/-- A consistent object fits after memory was reserved for it. -/
lemma Resized.sound (hr : Resized h h' id)
    (hfits : ∀ other entry, other ≠ id → h.find? other = some entry →
      entry.object.Fits entry.block)
    (hvalid : ∀ entry, h.find? id = some entry → entry.object.Valid) : h'.Sound := by
  refine ⟨hr.tidy, fun other entry' hother => ?_⟩
  by_cases heq : other = id
  · subst heq
    cases hfind : h.find? other with
    | none => cases (hr.missing hfind).symm.trans hother
    | some entry =>
        obtain ⟨block, -, hlarge, hfound, -⟩ := hr.found entry hfind
        obtain rfl := Option.some.inj (hfound.symm.trans hother)
        exact (hvalid entry hfind).fits hlarge
  · exact hfits other entry' heq ((hr.only.others other heq).symm.trans hother)

/-- Why an array cannot have one element more. -/
def pushRefusal (a : ArrayRecord) : Option Failure :=
  if a.length = a.capacity then insertRefusal (Object.array a.enlarged).size else none

/-- A full array gets room for more elements, or stays as it is. -/
lemma Sound.enlarge (hs : h.Sound) (hfind : h.find? ref.id = some entry)
    (hobject : entry.object = .array a) (journal : Journal) :
    ((Heap.resize ref.id).repairing (·.put ref a) (h.put ref a.enlarged) journal).Served
      h.memory.Granted False (insertRefusal (Object.array a.enlarged).size) h fun _ h' =>
        h'.Sound ∧ OnlyAt ref.id h h' ∧
          ∃ block, (Object.array a.enlarged).size ≤ block.size ∧
            h'.find? ref.id = some { entry with block, object := .array a.enlarged } ∧
            ∀ i < entry.block.size, h'.cell ref.id i = h.cell ref.id i := by
  have hlength := (hs.length_le hfind hobject).1
  have hgrow := lt_growCapacity a.capacity
  have hput : (h.put ref a.enlarged).find? ref.id =
      some { entry with object := .array a.enlarged } := by
    rw [find?_put, if_pos rfl, hfind]
    rfl
  have hends := hs.toTidy.put.resize (h := h.put ref a.enlarged) ref.id journal
  rw [resizeRefusal, hput, Option.bind_some] at hends
  unfold Action.repairing
  cases hrun : Heap.resize ref.id (h.put ref a.enlarged) journal with
  | done value h' journal' =>
      obtain ⟨hr, hrefusal⟩ := hends.of_done hrun
      obtain ⟨block, -, hlarge, hfound, hcells⟩ := hr.found _ hput
      refine ⟨⟨hr.sound ?_ ?_, onlyAt_put.trans hr.only, block, hlarge, hfound, ?_⟩, hrefusal⟩
      · intro other entry' hne hother
        rw [find?_put, if_neg hne] at hother
        exact hs.fits other entry' hother
      · intro entry' hentry
        obtain rfl := Option.some.inj (hput.symm.trans hentry)
        exact Nat.le_trans hlength (Nat.le_of_lt hgrow)
      · intro i hi
        rw [hcells i hi, cell_put]
  -- the record was enlarged before memory was asked for, and is put back
  | raised error h' journal' =>
      obtain ⟨rfl, hrefusal⟩ := hends.of_raised hrun
      refine ⟨(put_put _).trans ?_, hrefusal⟩
      exact put_self (get?_eq_some_iff.mpr ⟨entry, hfind, hobject⟩)
  | aborted fault => exact hends.of_aborted hrun

/-- Appending an element, or leaving the array as it is. -/
lemma Sound.arrayPush (hs : h.Sound) (hfind : h.find? ref.id = some entry)
    (hobject : entry.object = .array a) (helement : a.kind.Element scalar)
    (hlive : ∀ string, scalar = .str string → string.id ≠ .dangling) (journal : Journal) :
    (Heap.arrayPush ref scalar h journal).Served h.memory.Granted False (pushRefusal a) h fun _ h' =>
      h'.Sound ∧ OnlyAt ref.id h h' ∧
        (∃ block, h'.find? ref.id = some { entry with block, object := .array a.pushed }) ∧
        ∀ i < a.length + 1, h'.elementAt ref.id a.kind i =
          if i = a.length then scalar else h.elementAt ref.id a.kind i := by
  have hlength := (hs.length_le hfind hobject).1
  have hgrow := lt_growCapacity a.capacity
  unfold Heap.arrayPush pushRefusal
  simp only [Action.get_bind, read_array hfind hobject, Action.lift_ok, pure_bind]
  -- a full array grows first, and a refusal can only come from there
  by_cases hfull : a.length = a.capacity
  · simp only [if_pos hfull, Action.modify_bind]
    refine (hs.enlarge hfind hobject journal).bind ?_
    rintro _ h₁ journal₁ ⟨hs₁, honly₁, block, -, hfind₁, hcells₁⟩
    have hlt : a.enlarged.length < a.enlarged.capacity := hfull ▸ hgrow
    obtain ⟨h₂, hrun₂, hs₂, honly₂, hfind₂, helements₂⟩ :=
      hs₁.arrayAppend hfind₁ rfl helement hlive hlt journal₁
    rw [ArrayRecord.enlarged] at hrun₂
    refine ⟨_, h₂, _, Action.bind_of_done hrun₂, hs₂, honly₁.trans honly₂, ⟨block, ?_⟩,
      fun i hi => ?_⟩
    · rw [hfind₂, ArrayRecord.pushed, if_pos hfull]
      rfl
    · refine (helements₂ i hi).trans ?_
      by_cases heq : i = a.length
      · rw [if_pos heq]
        exact if_pos heq
      · rw [if_neg heq]
        refine (if_neg heq).trans (elementAt_congr fun j _ hj => hcells₁ j ?_)
        exact Nat.lt_of_lt_of_le hj (hs.element_le hfind hobject (by omega))
  · simp only [if_neg hfull]
    obtain ⟨h', hrun, hs', honly, hfind', helements⟩ :=
      hs.arrayAppend hfind hobject helement hlive (by omega) journal
    rw [Action.bind_of_done hrun]
    refine ⟨⟨hs', honly, ⟨entry.block, ?_⟩, helements⟩, rfl⟩
    rw [hfind', ArrayRecord.pushed, if_neg hfull]

/-- Taking the last element off. -/
lemma Sound.arrayPop (hs : h.Sound) (hfind : h.find? ref.id = some entry)
    (hobject : entry.object = .array a) (hne : a.length ≠ 0) (journal : Journal) :
    ∃ h', Heap.arrayPop ref h journal =
        .done (some (h.elementAt ref.id a.kind (a.length - 1))) h' journal ∧ h'.Sound ∧
      OnlyAt ref.id h h' ∧
      h'.find? ref.id = some { entry with object := .array { a with length := a.length - 1 } } ∧
      ∀ i, h'.elementAt ref.id a.kind i = h.elementAt ref.id a.kind i := by
  refine ⟨h.put ref { a with length := a.length - 1 }, ?_, hs.put fun entry' hentry => ?_,
    onlyAt_put, ?_, fun i => elementAt_congr fun j _ _ => by rw [cell_put]⟩
  · unfold Heap.arrayPop
    simp only [Action.get_bind, read_array hfind hobject, Action.lift_ok, pure_bind, hne, if_false,
      hs.arrayGet? hfind hobject, if_pos (Nat.sub_one_lt hne), Action.modify_bind]
    rfl
  · obtain rfl := Option.some.inj (hfind.symm.trans hentry)
    have hfits := hs.fits _ _ hfind
    rw [hobject] at hfits
    exact ⟨Nat.le_trans (Nat.sub_le _ _) hfits.1, hfits.2⟩
  · rw [find?_put, if_pos rfl, hfind]
    rfl

/-- Copying an array, or adding nothing. -/
lemma Sound.copyArray (hs : h.Sound) (hfind : h.find? ref.id = some entry)
    (hobject : entry.object = .array a) (journal : Journal) :
    (Heap.copyArray ref h journal).Served h.memory.Granted (h.hasRoom = false)
      (insertRefusal (Object.array a).size) h fun copy h' => ∃ contents, Added h h' (.array a) false contents copy.id ∧
        ∀ i < a.length, h'.elementAt copy.id a.kind i = h.elementAt ref.id a.kind i := by
  obtain ⟨hlength, hle⟩ := hs.length_le hfind hobject
  unfold Heap.copyArray alloc
  simp only [Action.get_bind, read_array hfind hobject, Action.lift_ok, pure_bind, bind_assoc]
  refine (hs.toTidy.insert (.array a) false journal).bind fun id h₁ journal₁ hinserted => ?_
  have ha := hinserted.added hs hlength
  have hne : ref.id ≠ id := by
    intro heq
    cases (heq ▸ hfind).symm.trans ha.fresh
  have hfind₁ := (ha.only.others ref.id hne).trans hfind
  have hbytes := ha.sound.toTidy.bytes_eq hfind₁ hle
  have hlen : (h₁.bytes ref.id (a.length * a.kind.width)).length ≤ (Object.array a).size := by
    rw [hbytes, List.length_map, List.length_range]
    exact Nat.le_trans (Nat.mul_le_mul_right _ hlength) (Nat.le_add_left _ _)
  have ha' := ha.writeBytes hlen rfl
  refine ⟨_, _, _, rfl, _, ha', fun i hi => elementAt_congr fun j _ hj => ?_⟩
  obtain ⟨block, hlarge, hfound, hcells⟩ := ha'.found
  have hin : i * a.kind.width + a.kind.width ≤ a.length * a.kind.width := by
    have := Nat.mul_le_mul_right a.kind.width (Nat.succ_le_of_lt hi)
    rwa [Nat.succ_mul] at this
  have hcap := Nat.mul_le_mul_right a.kind.width hlength
  have hsize : a.capacity * a.kind.width ≤ (Object.array a).size := Nat.le_add_left _ _
  rw [hcells j (by omega), hbytes, List.getD_eq_getElem?_getD, List.getElem?_map,
    List.getElem?_range (by omega)]
  exact ha.only.cells ref.id entry hne hfind j (by omega)

end Heap

end ScriptMachine
