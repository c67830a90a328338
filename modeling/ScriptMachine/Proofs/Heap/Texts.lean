import ScriptMachine.Container
import ScriptMachine.Proofs.Encoding
import ScriptMachine.Proofs.Heap.Changes
import ScriptMachine.Proofs.Raising

/-!
Strings are texts.

A string is described three times: by the bytes in its block, by the length and
the hash in its record, and by the text that is read from it. `Legible` says that
these agree and that the room behind the text is zero. Characters are stored into
strings one byte at a time, and yet this stays so:

* `Touched`: what an operation on other objects can do at all, so that it leaves
  all strings alone (`OldTexts`);
* `Legible.added`: a new string is legible;
* `Legible.setChar`: a string is legible after a store, and holds its old bytes,
  padded with zeros up to the index;
* `Edited.allLegible`: so every string is, after any sequence of operations.
-/

namespace ScriptMachine

open Memory

namespace Heap

variable {h h' h'' : Heap} {id : ObjectId} {entry : Entry} {record : StringRecord}

/-! ### Operations on other objects -/

/-- What an operation that concerns no object of the kind `l` can do: nothing but
a change of the pages to be had, change or add one object, or reserve more memory for one. -/
inductive Touched (l : Kind) (h h' : Heap) : Prop
  | same (eq : h' = h)
  | granted (grants : Nat → Bool) (eq : h' = h.granting grants)
  | altered {k : Kind} {ref : Ref k} (altered : Altered ref h h') (other : k ≠ l)
  | added {object : Object} {pinned : Bool} {contents : Nat → UInt8} {id : ObjectId}
      (added : Added h h' object pinned contents id) (other : object.kind ≠ l)
  | resized {id : ObjectId} (resized : Resized h h' id)

lemma Alters.touched {α : Type} {k l : Kind} {ref : Ref k} {outcome : Outcome Heap α}
    (ha : Alters ref h outcome) (hne : k ≠ l) :
    outcome.Ends (fun _ => Touched l h) (fun _ => Touched l h) fun _ => True :=
  Outcome.Ends.imp ha (fun _ _ ha => .altered ha hne) (fun _ _ ha => .altered ha hne) fun _ => id

lemma Elsewhere.touched {α : Type} {l : Kind} {action : Action Heap α} (he : Elsewhere l action)
    (hs : h.Sound) (journal : Journal) :
    (action h journal).Ends (fun _ => Touched l h) (fun _ => Touched l h) fun _ => True := by
  cases he with
  | insert object pinned valid other =>
      exact (hs.toTidy.insert object pinned journal).leaves (.same rfl) fun _ _ hi =>
        .added (hi.added hs valid) other
  | insertText text pinned other =>
      exact (hs.insertText text pinned journal).leaves (.same rfl) fun _ _ ha => .added ha other
  | onContent ref action plain other => exact (hs.alters_onContent ref action plain).touched other
  | setChar ref index byte other => exact (hs.alters_setChar ref index byte).touched other
  | arraySet ref index scalar other => exact (hs.alters_arraySet ref index scalar).touched other
  | arrayPush ref scalar other => exact (hs.alters_arrayPush ref scalar).touched other
  | arrayPop ref other => exact (hs.alters_arrayPop ref).touched other
  | copyArray ref other =>
      cases hget : h.get? ref with
      | none =>
          unfold Heap.copyArray
          rw [Action.get_bind, read_of_none hget]
          exact trivial
      | some a =>
          obtain ⟨entry, hfind, hobject⟩ := get?_eq_some_iff.mp hget
          refine (hs.copyArray hfind hobject journal).leaves (.same rfl) ?_
          rintro copy h' ⟨contents, ha, -⟩
          exact .added ha other
  | resize id => exact (hs.toTidy.resize id journal).leaves (.same rfl) fun _ _ hr => .resized hr
  | grant grants => exact .granted grants rfl

/-! ### Strings that stay -/

/-- A string was there before, with the same record and the same bytes. -/
def OldText (h h' : Heap) (id : ObjectId) (entry' : Entry) (record : StringRecord) : Prop :=
  ∃ entry, h.find? id = some entry ∧ entry.object = .string record ∧
    entry.block.size ≤ entry'.block.size ∧ ∀ i < record.capacity, h'.cell id i = h.cell id i

/-- Every string was there before. -/
def OldTexts (h h' : Heap) : Prop :=
  ∀ id entry' record, h'.find? id = some entry' → entry'.object = .string record →
    OldText h h' id entry' record

lemma OldTexts.refl (h : Heap) : OldTexts h h := fun _ entry _ hfind hobject =>
  ⟨entry, hfind, hobject, Nat.le_refl _, fun _ _ => rfl⟩

lemma OldTexts.trans (ho : OldTexts h h') (ho' : OldTexts h' h'') : OldTexts h h'' := by
  intro id entry'' record hfind'' hobject''
  obtain ⟨entry', hfind', hobject', hle', hcells'⟩ := ho' id entry'' record hfind'' hobject''
  obtain ⟨entry, hfind, hobject, hle, hcells⟩ := ho id entry' record hfind' hobject'
  exact ⟨entry, hfind, hobject, Nat.le_trans hle hle',
    fun i hi => (hcells' i hi).trans (hcells i hi)⟩

lemma Sound.capacity_le (hs : h.Sound) (hfind : h.find? id = some entry)
    (hobject : entry.object = .string record) :
    record.length ≤ record.capacity ∧ record.capacity ≤ entry.block.size := by
  have hfits := hs.fits _ _ hfind
  rwa [hobject] at hfits

/-- A change of another object leaves a string alone. -/
lemma OnlyAt.oldText {a : ObjectId} (ho : OnlyAt a h h') (hs : h.Sound) (hne : id ≠ a)
    (hfind : h'.find? id = some entry) (hobject : entry.object = .string record) :
    OldText h h' id entry record := by
  have hold := (ho.others id hne).symm.trans hfind
  refine ⟨entry, hold, hobject, Nat.le_refl _, fun i hi => ho.cells id entry hne hold i ?_⟩
  exact Nat.lt_of_lt_of_le hi (hs.capacity_le hold hobject).2

/-- A change of an object that is no string leaves all strings alone. -/
lemma OnlyAt.oldTexts {a : ObjectId} (ho : OnlyAt a h h') (hs : h.Sound)
    (hother : ∀ entry, h'.find? a = some entry → entry.object.kind ≠ .string) : OldTexts h h' := by
  intro id entry record hfind hobject
  refine ho.oldText hs ?_ hfind hobject
  rintro rfl
  exact hother entry hfind (by rw [hobject]; rfl)

lemma Resized.oldTexts (hr : Resized h h' id) (hs : h.Sound) : OldTexts h h' := by
  intro other entry' record hfind' hobject'
  by_cases hsame : other = id
  · subst hsame
    cases hfind : h.find? other with
    | none => cases (hr.missing hfind).symm.trans hfind'
    | some entry =>
        obtain ⟨block, hle, -, hfound, hcells⟩ := hr.found entry hfind
        obtain rfl := Option.some.inj (hfound.symm.trans hfind')
        refine ⟨entry, hfind, hobject', hle, fun i hi => hcells i ?_⟩
        exact Nat.lt_of_lt_of_le hi (hs.capacity_le hfind hobject').2
  · exact hr.only.oldText hs hsame hfind' hobject'

lemma Touched.oldTexts (ht : Touched .string h h') (hs : h.Sound) : OldTexts h h' := by
  cases ht with
  | same eq => exact eq ▸ .refl h
  | granted grants eq => exact eq ▸ fun _ entry _ hfind hobject =>
      ⟨entry, hfind, hobject, Nat.le_refl _, fun _ _ => rfl⟩
  | altered altered other =>
      obtain ⟨entry, old, block, new, -, -, hfind'⟩ := altered.found
      refine altered.only.oldTexts hs fun entry' hentry => ?_
      obtain rfl := Option.some.inj (hfind'.symm.trans hentry)
      rwa [Object.kind_ofContent]
  | added added other =>
      obtain ⟨block, -, hfind', -⟩ := added.found
      refine added.only.oldTexts hs fun entry' hentry => ?_
      obtain rfl := Option.some.inj (hfind'.symm.trans hentry)
      exact other
  | resized resized => exact resized.oldTexts hs

lemma Collected.oldTexts {roots freed : List ObjectId} (hc : Collected roots freed h h')
    (hs : h.Sound) : OldTexts h h' := by
  intro id entry record hfind hobject
  have hold := (hc.find?_of_some hfind).2
  refine ⟨entry, hold, hobject, Nat.le_refl _, fun i hi => hc.cells id entry hfind i ?_⟩
  exact Nat.lt_of_lt_of_le hi (hs.capacity_le hold hobject).2

/-- The heap stays sound and idle, and gets no new string. -/
def SparesTexts (h h' : Heap) : Prop :=
  h.Sound → h.Idle → h'.Sound ∧ h'.Idle ∧ OldTexts h h'

instance : IsPreorder Heap SparesTexts where
  refl h hs hi := ⟨hs, hi, .refl h⟩
  trans h h' h'' ht ht' hs hi := by
    obtain ⟨hs', hi', ho⟩ := ht hs hi
    obtain ⟨hs'', hi'', ho'⟩ := ht' hs' hi'
    exact ⟨hs'', hi'', ho.trans ho'⟩

lemma Elsewhere.within_texts {α : Type} {action : Action Heap α} (he : Elsewhere .string action) :
    action.Within SparesTexts := by
  intro h journal
  have hsteady := he.within h journal
  cases hrun : action h journal with
  | done value h' journal' =>
      intro hs hi
      obtain ⟨hs', hi', -⟩ := hsteady.of_done hrun hs hi
      exact ⟨hs', hi', ((he.touched hs journal).of_done hrun).oldTexts hs⟩
  | raised error h' journal' =>
      intro hs hi
      obtain ⟨hs', hi', -⟩ := hsteady.of_raised hrun hs hi
      exact ⟨hs', hi', ((he.touched hs journal).of_raised hrun).oldTexts hs⟩
  | aborted fault => trivial

end Heap

namespace Container

open ScriptMachine.Action Heap

lemma within_texts_reserve (container : Value) : (reserve container).Within SparesTexts := by
  rw [reserve]
  split
  · exact (Elsewhere.resize _).within_texts
  · exact within_pure ()

/-- A store into another container than a string. -/
lemma within_texts_setIndex {container : Value} (hne : ∀ ref, container ≠ .scalar (.str ref))
    (index value : Value) : (setIndex container index value).Within SparesTexts := by
  refine within_get.bind fun h => ?_
  split
  case h_1 ref =>
    exact (within_lift _).bind fun _ => (within_lift _).bind fun _ => (within_lift _).bind fun _ =>
      (Elsewhere.arraySet ref _ _ (by decide)).within_texts.bind fun _ => within_texts_reserve _
  case h_2 ref =>
    exact (within_lift _).bind fun _ => (within_lift _).bind fun _ => (within_lift _).bind fun _ =>
      (Elsewhere.onContent ref _ (by decide) (by decide)).within_texts.bind fun _ =>
        within_texts_reserve _
  case h_3 ref =>
    exact (within_lift _).bind fun _ => (within_lift _).bind fun _ =>
      (Elsewhere.onContent ref _ (by decide) (by decide)).within_texts.bind fun _ =>
        within_texts_reserve _
  case h_4 ref =>
    exact (within_lift _).bind fun _ =>
      (Elsewhere.onContent ref _ (by decide) (by decide)).within_texts.bind fun _ =>
        within_texts_reserve _
  case h_5 ref => exact absurd rfl (hne ref)
  case h_6 => exact (within_lift _).bind fun _ => within_texts_reserve _

lemma within_texts_alloc {k : Kind} (content : k.Content)
    (hv : (Object.ofContent k content).Valid) (hne : k ≠ .string) :
    (Heap.alloc k content).Within SparesTexts := by
  refine Within.bind (Elsewhere.insert _ false hv ?_).within_texts fun _ => within_pure _
  rwa [Object.kind_ofContent]

/-- A copy of another container than a string. -/
lemma within_texts_copy {value : Value} (hne : ∀ ref, value ≠ .scalar (.str ref)) :
    (copy value).Within SparesTexts := by
  refine within_get.bind fun h => ?_
  split
  case h_1 ref => exact absurd rfl (hne ref)
  case h_2 ref => exact (Elsewhere.copyArray ref (by decide)).within_texts.bind fun _ => within_pure _
  case h_3 ref =>
    exact (within_lift _).bind fun _ =>
      (within_texts_alloc (k := .vector) _ trivial (by decide)).bind fun _ => within_pure _
  case h_4 ref =>
    exact (within_lift _).bind fun _ =>
      (within_texts_alloc (k := .stack) _ trivial (by decide)).bind fun _ => within_pure _
  case h_5 ref =>
    exact (within_lift _).bind fun _ =>
      (within_texts_alloc (k := .table) _ trivial (by decide)).bind fun _ => within_pure _
  case h_6 => exact within_lift _

/-- It is no string. -/
lemma copy_ends_other {value : Value} (hne : ∀ ref, value ≠ .scalar (.str ref)) {h : Heap}
    {journal : Journal} : (copy value h journal).Ends (fun copy _ => ∀ ref, copy ≠ .scalar (.str ref))
      (fun _ _ => True) fun _ => True := by
  have hany : ∀ {α : Type} (outcome : Outcome Heap α),
      outcome.Ends (fun _ _ => True) (fun _ _ => True) fun _ => True := by
    rintro α (_ | _ | _) <;> trivial
  rw [copy, get_bind]
  split
  case h_1 ref => exact absurd rfl (hne ref)
  case h_2 ref => exact (hany _).bind fun _ _ _ _ => nofun
  case h_3 ref => exact (hany _).bind fun _ _ _ _ => (hany _).bind fun _ _ _ _ => nofun
  case h_4 ref => exact (hany _).bind fun _ _ _ _ => (hany _).bind fun _ _ _ _ => nofun
  case h_5 ref => exact (hany _).bind fun _ _ _ _ => (hany _).bind fun _ _ _ _ => nofun
  case h_6 =>
    unfold unsupported
    cases h.typeName value with
    | error failure => cases failure <;> trivial
    | ok type => trivial

end Container

/-! ### Bytes that are stored -/

/-- Bytes with one of them stored at an index, and zeros before it if it lies
behind their end. -/
def storeByte (bytes : List UInt8) (index : Nat) (byte : UInt8) : List UInt8 :=
  (bytes ++ List.replicate (index + 1 - bytes.length) 0).set index byte

/-- Behind the end, zeros fill the gap. -/
lemma storeByte_of_le {bytes : List UInt8} {index : Nat} (hle : bytes.length ≤ index)
    (byte : UInt8) :
    storeByte bytes index byte = bytes ++ (List.replicate (index - bytes.length) 0 ++ [byte]) := by
  rw [storeByte, List.set_append_right _ _ hle,
    show index + 1 - bytes.length = index - bytes.length + 1 by omega, List.replicate_succ',
    List.set_append_right _ _ (by rw [List.length_replicate]), List.length_replicate, Nat.sub_self]
  rfl

/-- A text stays one if no part of a longer character is overwritten. -/
lemma IsText.storeByte {bytes : List UInt8} (ht : IsText bytes) {index : Nat} {byte : UInt8}
    (hold : ∀ old, bytes[index]? = some old → Heap.isAscii old = true)
    (hnew : Heap.isAscii byte = true) : IsText (storeByte bytes index byte) := by
  by_cases hle : bytes.length ≤ index
  · rw [storeByte_of_le hle]
    exact ht.extend _ hnew
  · have hlt : index < bytes.length := Nat.lt_of_not_le hle
    have hget : bytes[index]? = some bytes[index] := List.getElem?_eq_getElem hlt
    rw [ScriptMachine.storeByte, show index + 1 - bytes.length = 0 by omega, List.replicate_zero,
      List.append_nil]
    exact ht.set hget (hold _ hget) hnew

/-- Cells of which one is stored, behind those that are in use only zeros. -/
lemma map_cells_store {cell cell' : Nat → UInt8} {length index : Nat} {byte : UInt8}
    (hcells : ∀ i < max length (index + 1), cell' i = if i = index then byte else cell i)
    (hzero : ∀ i, length ≤ i → i < index → cell i = 0) :
    (List.range (max length (index + 1))).map cell' =
      storeByte ((List.range length).map cell) index byte := by
  refine List.ext_getElem ?_ fun i hi hi' => ?_
  · simp [storeByte]
    omega
  · rw [List.length_map, List.length_range] at hi
    simp only [storeByte, List.getElem_map, List.getElem_range, List.getElem_set,
      List.getElem_append, List.getElem_replicate, List.length_map, List.length_range, hcells i hi]
    by_cases heq : i = index
    · rw [if_pos heq, if_pos heq.symm]
    · rw [if_neg heq, if_neg (Ne.symm heq)]
      split
      · rfl
      · exact hzero i (by omega) (by omega)

namespace Heap

variable {h h' : Heap} {id : ObjectId} {entry : Entry} {record : StringRecord} {made : Nat}

/-! ### One string -/

/-- The bytes of the memory of an object that are in use. -/
def cells (h : Heap) (id : ObjectId) (length : Nat) : List UInt8 :=
  (List.range length).map (h.cell id)

/-- A string, which was made from `made` bytes, is in order: its record says what
its bytes are, these are a text, there is room for it in its block, and behind
its text this room is zero. -/
structure Legible (h : Heap) (id : ObjectId) (entry : Entry) (record : StringRecord)
    (made : Nat) : Prop where
  text : IsText (h.cells id record.length)
  holds : record = .holding (roundUp made) (h.cells id record.length)
  room : (Object.string record).size ≤ entry.block.size
  zero : ∀ i, record.length ≤ i → i < record.capacity → h.cell id i = 0

lemma cells_congr {length : Nat} (hcells : ∀ i < length, h'.cell id i = h.cell id i) :
    h'.cells id length = h.cells id length :=
  List.map_congr_left fun i hi => hcells i (List.mem_range.mp hi)

/-- A string that was there before is as legible as it was. -/
lemma Legible.of_old {entry' : Entry} (ho : OldText h h' id entry' record) (hs : h.Sound)
    (hl : ∀ entry, h.find? id = some entry → entry.object = .string record →
      Legible h id entry record made) : Legible h' id entry' record made := by
  obtain ⟨entry, hfind, hobject, hle, hcells⟩ := ho
  have hold := hl entry hfind hobject
  have hlength := (hs.capacity_le hfind hobject).1
  have heq : h'.cells id record.length = h.cells id record.length :=
    cells_congr fun i hi => hcells i (Nat.lt_of_lt_of_le hi hlength)
  refine ⟨heq ▸ hold.text, heq ▸ hold.holds, Nat.le_trans hold.room hle, fun i hlow hhigh => ?_⟩
  rw [hcells i hhigh, hold.zero i hlow hhigh]

/-- A new string is legible. -/
lemma Legible.added {text : String} {pinned : Bool} {block : Block}
    (hlarge : (Object.string (.ofBytes text.toUTF8.toList)).size ≤ block.size)
    (hcells : ∀ i < block.size, h.cell id i = text.toUTF8.toList.getD i 0) :
    Legible h id ⟨block, false, pinned, .string (.ofBytes text.toUTF8.toList)⟩
      (.ofBytes text.toUTF8.toList) text.toUTF8.toList.length := by
  have htext := isText_toUTF8 text
  generalize text.toUTF8.toList = bytes at *
  have hroom : roundUp bytes.length ≤ block.size := Nat.le_trans (Nat.le_add_left _ _) hlarge
  have hround : bytes.length ≤ roundUp bytes.length := by
    unfold roundUp
    omega
  have heq : h.cells id bytes.length = bytes := by
    refine List.ext_getElem (by simp [cells]) fun i hi hi' => ?_
    simp only [cells, List.getElem_map, List.getElem_range]
    rw [hcells i (by omega), List.getD_eq_getElem?_getD, List.getElem?_eq_getElem hi']
    rfl
  refine ⟨?_, ?_, hlarge, fun i hlow hhigh => ?_⟩
  · exact heq.symm ▸ htext
  · change _ = StringRecord.holding _ (h.cells id bytes.length)
    rw [heq, StringRecord.holding, isSome_decode?_iff.mpr htext]
    rfl
  · change bytes.length ≤ i at hlow
    change i < roundUp bytes.length at hhigh
    rw [hcells i (by omega), List.getD_eq_getElem?_getD, List.getElem?_eq_none hlow]
    rfl

/-- A byte was stored into a string, which is legible as before. -/
structure Stored (h h' : Heap) (id : ObjectId) (entry : Entry) (record : StringRecord)
    (made index : Nat) (byte : UInt8) : Prop where
  sound : h'.Sound
  only : OnlyAt id h h'
  found : ∃ record', h'.find? id = some { entry with object := .string record' } ∧
    Legible h' id { entry with object := .string record' } record' made ∧
    h'.cells id record'.length = storeByte (h.cells id record.length) index byte

/-- A character is stored into a legible string. -/
lemma Legible.setChar (hl : Legible h id entry record made) (hs : h.Sound)
    (hfind : h.find? id = some entry) (hobject : entry.object = .string record) {byte : UInt8}
    (hascii : isAscii byte = true) {index : Nat} (hlt : index < record.capacity)
    (hold : ∀ old, (h.cells id record.length)[index]? = some old → isAscii old = true)
    (journal : Journal) :
    ∃ h', Heap.setChar ⟨id⟩ index byte h journal = .done true h' journal ∧
      Stored h h' id entry record made index byte := by
  obtain ⟨h', hrun, hs', honly, hcells, hfind'⟩ :=
    hs.setChar (show h.find? (⟨id⟩ : Ref .string).id = some entry from hfind) hobject hascii hlt
      journal
  have hle := (hs.capacity_le hfind hobject)
  -- behind the length all cells are zero, so a gap reads as zeros
  have hbytes : h'.cells id (max record.length (index + 1)) =
      storeByte (h.cells id record.length) index byte :=
    map_cells_store (fun i hi => hcells i (by omega)) fun i hlow hhigh => hl.zero i hlow (by omega)
  have hlength : (StringRecord.holding record.capacity
      (h'.cells id (max record.length (index + 1)))).length = max record.length (index + 1) := by
    simp [StringRecord.holding, cells]
  have hcapacity : record.capacity = roundUp made := by rw [hl.holds]; rfl
  refine ⟨h', hrun, hs', honly, .holding record.capacity (h'.cells id (max record.length (index + 1))),
    hfind', ⟨?_, ?_, hl.room, fun i hlow hhigh => ?_⟩, ?_⟩
  · rw [hlength, hbytes]
    exact hl.text.storeByte hold hascii
  · rw [hlength, hcapacity]
  · rw [hlength] at hlow
    change i < record.capacity at hhigh
    rw [hcells i (by omega), if_neg (by omega), hl.zero i (by omega) hhigh]
  · rw [hlength, hbytes]

/-- No more memory is reserved for an object that has enough. -/
lemma Tidy.resize_of_room (ht : h.Tidy) (hfind : h.find? id = some entry)
    (hroom : entry.object.size ≤ entry.block.size) (journal : Journal) :
    Heap.resize id h journal = .done () h journal := by
  have hin := ht.inside hfind
  have hshort := ht.memory.short.2 entry.block.page
  have hword : ¬ wordLimit ≤ entry.object.size := by
    unfold Block.stop at hin
    unfold wordLimit at *
    omega
  unfold Heap.resize
  rw [Action.get_bind, hfind]
  simp only [hword, Nat.not_lt.mpr hroom, if_false]
  rfl

/-- A legible string is known to be a text. -/
lemma Legible.textRecord (hl : Legible h id entry record made)
    (hfind : h.find? id = some entry) (hobject : entry.object = .string record) :
    h.textRecord ⟨id⟩ = .ok record := by
  have hrecord : record.isText = true := by
    rw [hl.holds]
    exact isSome_decode?_iff.mpr hl.text
  have hget : h.get? (⟨id⟩ : Ref .string) = some record :=
    get?_eq_some_iff.mpr ⟨entry, hfind, hobject⟩
  rw [Heap.textRecord, read_of_get? hget]
  exact if_pos hrecord

/-- The bytes of a legible string, one by one. -/
lemma Legible.textByte? (hl : Legible h id entry record made) (hs : h.Sound)
    (hfind : h.find? id = some entry) (hobject : entry.object = .string record) (i : Nat) :
    h.textByte? ⟨id⟩ i = .ok (h.cells id record.length)[i]? := by
  have hle := hs.capacity_le hfind hobject
  have hbyte : (if i < record.length then h.byte? id i else none) =
      (h.cells id record.length)[i]? := by
    rw [cells, List.getElem?_map]
    by_cases hlt : i < record.length
    · rw [if_pos hlt, hs.toTidy.byte?_eq hfind (by omega)]
      simp [hlt]
    · simp [hlt]
  rw [Heap.textByte?, hl.textRecord hfind hobject, ← hbyte]
  rfl

end Heap

namespace Container

open ScriptMachine.Action Heap

variable {h : Heap} {id : ObjectId} {entry : Entry} {record : StringRecord} {made : Nat}
  {container index value : Value}

/-- The position that an index stands for lies below the limit. -/
lemma position_eq_ok {limit i : Nat} (hpos : position h container index limit = .ok i) :
    index.integral = some (i : Int) ∧ i < limit := by
  unfold position at hpos
  cases hindex : index.integral with
  | none =>
      rw [hindex] at hpos
      cases htype : h.typeName index <;> rw [htype] at hpos <;> cases hpos
  | some n =>
      rw [hindex] at hpos
      dsimp only at hpos
      split at hpos
      · rename_i hrange
        cases hpos
        exact ⟨congrArg some (by omega), by omega⟩
      · cases htype : h.typeName container with
        | error failure => rw [htype] at hpos; cases hpos
        | ok type =>
            rw [htype] at hpos
            cases hlength : length? h container <;> rw [hlength] at hpos <;> cases hpos

lemma position_of_integral {limit i : Nat} (hindex : index.integral = some (i : Int))
    (hlt : i < limit) : position h container index limit = .ok i := by
  unfold position
  rw [hindex]
  simp [hlt]

lemma ascii_eq_ok {i : Nat} {byte byte' : UInt8} (hok : ascii i byte = .ok byte') :
    byte' = byte ∧ isAscii byte = true := by
  unfold ascii at hok
  split at hok
  · rename_i hascii
    cases hok
    exact ⟨rfl, hascii⟩
  · cases hok

lemma ascii_of_isAscii {i : Nat} {byte : UInt8} (hascii : isAscii byte = true) :
    ascii i byte = .ok byte := if_pos hascii

lemma elementMismatch_ne_ok {α : Type} (h : Heap) (container value : Value) (result : α) :
    (elementMismatch h container value : Result α) ≠ .ok result := by
  unfold elementMismatch
  cases h.typeName container with
  | error failure => nofun
  | ok type => cases h.typeName value <;> nofun

/-- A value was stored at an index of a legible string. -/
def TextStored (h : Heap) (id : ObjectId) (entry : Entry) (record : StringRecord) (made : Nat)
    (index value : Value) (h' : Heap) : Prop :=
  ∃ (i : Nat) (byte : UInt8), index.integral = some (i : Int) ∧ value = .scalar (.char byte) ∧
    Stored h h' id entry record made i byte

/-- A store into a legible string, or an error and no change. -/
lemma setText_ends (hl : Legible h id entry record made) (hs : h.Sound)
    (hfind : h.find? id = some entry) (hobject : entry.object = .string record)
    (container index value : Value) (journal : Journal) :
    (setText container index value ⟨id⟩ h journal).Ends
      (fun _ => TextStored h id entry record made index value) (fun _ h' => h' = h)
      fun _ => True := by
  have hread : h.read (⟨id⟩ : Ref .string) = .ok record :=
    read_of_get? (get?_eq_some_iff.mpr ⟨entry, hfind, hobject⟩)
  rw [setText, get_bind]
  split
  case h_1 byte =>
    rw [hread]
    refine ends_lift_bind_of (fun _ => rfl) fun record' hrecord => ?_
    obtain rfl := Except.ok.inj hrecord
    refine ends_lift_bind_of (fun _ => rfl) fun i hpos => ?_
    obtain ⟨hindex, hlt⟩ := position_eq_ok hpos
    rw [hl.textByte? hs hfind hobject]
    refine ends_lift_bind_of (fun _ => rfl) fun old? hold => ?_
    obtain rfl := Except.ok.inj hold
    -- what is left to do once the old byte is known to be ASCII
    have hstore : (∀ old, (h.cells id record.length)[i]? = some old → isAscii old = true) →
        ((do
          let byte ← (ascii i byte : Result UInt8)
          let _ ← Heap.setChar ⟨id⟩ i byte : Action Heap Unit) h journal).Ends
        (fun _ => TextStored h id entry record made index (.scalar (.char byte)))
        (fun _ h' => h' = h) fun _ => True := by
      intro hold
      refine ends_lift_bind_of (fun _ => rfl) fun byte' hbyte => ?_
      obtain ⟨rfl, hascii⟩ := ascii_eq_ok hbyte
      obtain ⟨h', hrun, hstored⟩ := hl.setChar hs hfind hobject hascii hlt hold journal
      rw [bind_of_done hrun]
      exact ⟨i, byte', hindex, rfl, hstored⟩
    cases hcell : (h.cells id record.length)[i]? with
    | none => exact hstore fun old hsome => nomatch hcell.symm.trans hsome
    | some old =>
        refine ends_lift_bind_of (fun _ => rfl) fun old' hold' => hstore fun old'' hsome => ?_
        obtain rfl := Option.some.inj (hcell.symm.trans hsome)
        exact (ascii_eq_ok hold').2
  case h_2 =>
    rw [← bind_pure (liftM _)]
    exact ends_lift_bind_of (fun _ => rfl) fun _ hok => absurd hok (elementMismatch_ne_ok _ _ _ _)

/-- A character can be stored at every index below the capacity where there is no
part of a longer character. -/
lemma setText_of (hl : Legible h id entry record made) (hs : h.Sound)
    (hfind : h.find? id = some entry) (hobject : entry.object = .string record) {i : Nat}
    {byte : UInt8} (hindex : index.integral = some (i : Int)) (hlt : i < record.capacity)
    (hold : ∀ old, (h.cells id record.length)[i]? = some old → isAscii old = true)
    (hascii : isAscii byte = true) (container : Value) (journal : Journal) :
    ∃ h', setText container index (.scalar (.char byte)) ⟨id⟩ h journal = .done () h' journal ∧
      Stored h h' id entry record made i byte := by
  obtain ⟨h', hrun, hstored⟩ := hl.setChar hs hfind hobject hascii hlt hold journal
  have hread : h.read (⟨id⟩ : Ref .string) = .ok record :=
    read_of_get? (get?_eq_some_iff.mpr ⟨entry, hfind, hobject⟩)
  refine ⟨h', ?_, hstored⟩
  rw [setText, get_bind]
  simp only [hread, lift_ok, pure_bind, position_of_integral hindex hlt,
    hl.textByte? hs hfind hobject, ascii_of_isAscii hascii]
  cases hcell : (h.cells id record.length)[i]? with
  | none => exact bind_of_done hrun
  | some old =>
      simp only [ascii_of_isAscii (hold old hcell), lift_ok, pure_bind]
      exact bind_of_done hrun

lemma reserve_of_stored {h' : Heap} {i : Nat} {byte : UInt8}
    (hstored : Stored h h' id entry record made i byte) (journal : Journal) :
    reserve (.scalar (.str ⟨id⟩)) h' journal = .done () h' journal := by
  obtain ⟨record', hfind', hl', -⟩ := hstored.found
  exact hstored.sound.toTidy.resize_of_room hfind' hl'.room journal

lemma setIndex_text_ends (hl : Legible h id entry record made) (hs : h.Sound)
    (hfind : h.find? id = some entry) (hobject : entry.object = .string record)
    (index value : Value) (journal : Journal) :
    (setIndex (.scalar (.str ⟨id⟩)) index value h journal).Ends
      (fun _ => TextStored h id entry record made index value) (fun _ h' => h' = h)
      fun _ => True := by
  rw [setIndex, get_bind]
  refine (setText_ends hl hs hfind hobject _ index value journal).bind ?_
  rintro _ h' journal' ⟨i, byte, hindex, hvalue, hstored⟩
  dsimp only
  rw [reserve_of_stored hstored]
  exact ⟨i, byte, hindex, hvalue, hstored⟩

lemma setIndex_text_of (hl : Legible h id entry record made) (hs : h.Sound)
    (hfind : h.find? id = some entry) (hobject : entry.object = .string record) {i : Nat}
    {byte : UInt8} (hindex : index.integral = some (i : Int)) (hlt : i < record.capacity)
    (hold : ∀ old, (h.cells id record.length)[i]? = some old → isAscii old = true)
    (hascii : isAscii byte = true) (journal : Journal) :
    ∃ h', setIndex (.scalar (.str ⟨id⟩)) index (.scalar (.char byte)) h journal =
        .done () h' journal ∧ Stored h h' id entry record made i byte := by
  obtain ⟨h', hrun, hstored⟩ :=
    setText_of hl hs hfind hobject hindex hlt hold hascii (.scalar (.str ⟨id⟩)) journal
  refine ⟨h', ?_, hstored⟩
  rw [setIndex, get_bind]
  exact (bind_of_done hrun).trans (reserve_of_stored hstored journal)

end Container

/-! ### Sequences of operations -/

/-- What is done to the strings of a heap. -/
inductive Edit where
  | allocate (text : String) (pinned : Bool)
  | concatenate (a b : Value)
  | copy (value : Value)
  | store (container index value : Value)
  | collect (roots : List ObjectId)

/-- Does it, and returns the string that is new if there is one. -/
def Edit.run : Edit → Action Heap (Option (Ref .string))
  | allocate text pinned => do return some (← Heap.insertText text pinned)
  | concatenate a b => do
      match ← Arithmetic.add (← get) a b with
      | .text text => return some (← Heap.newText text)
      | .scalar _ => return none
  | copy value => do
      match ← Container.copy value with
      | .scalar (.str ref) => return some ref
      | _ => return none
  | store container index value => do
      Container.setIndex container index value
      return none
  | collect roots => do
      let _ ← Heap.collect roots
      return none

namespace Heap

open ScriptMachine.Action

variable {h h' : Heap} {made : ObjectId → Nat}

/-- The lengths that strings were made with, when another one may have been. -/
def madeWith (made : ObjectId → Nat) (h' : Heap) (new : Option (Ref .string)) (id : ObjectId) :
    Nat :=
  match new with
  | none => made id
  | some ref => if id = ref.id then ((h'.get? ref).map StringRecord.length).getD 0 else made id

/-- The heaps that come about by operations on strings and on other objects, with
the length that each string was made with. -/
inductive Edited : Heap → (ObjectId → Nat) → Prop
  | create {pageSize : Nat} {grants : Nat → Bool} {h : Heap}
      (created : Heap.create pageSize grants = .ok h) : Edited h fun _ => 0
  | done {h h' : Heap} {made : ObjectId → Nat} {new : Option (Ref .string)} {journal' : Journal}
      (past : Edited h made) (edit : Edit) (journal : Journal)
      (run : edit.run h journal = .done new h' journal') : Edited h' (madeWith made h' new)
  | raised {h h' : Heap} {made : ObjectId → Nat} {error : Error} {journal' : Journal}
      (past : Edited h made) (edit : Edit) (journal : Journal)
      (run : edit.run h journal = .raised error h' journal') : Edited h' made
  | other {h h' : Heap} {made : ObjectId → Nat} {α : Type} {action : Action Heap α}
      (past : Edited h made) (elsewhere : Elsewhere .string action) (journal : Journal)
      (run : (action h journal).state? = some h') : Edited h' made

/-- All strings are legible. -/
structure AllLegible (h : Heap) (made : ObjectId → Nat) : Prop where
  sound : h.Sound
  idle : h.Idle
  texts : ∀ id entry record, h.find? id = some entry → entry.object = .string record →
    Legible h id entry record (made id)

namespace AllLegible

lemma of_spares (hl : AllLegible h made) (hp : SparesTexts h h') : AllLegible h' made := by
  obtain ⟨hs', hi', hold⟩ := hp hl.sound hl.idle
  refine ⟨hs', hi', fun id entry record hfind hobject => ?_⟩
  exact .of_old (hold id entry record hfind hobject) hl.sound fun entry => hl.texts id entry record

/-- A string is added. -/
lemma added (hl : AllLegible h made) {text : String} {pinned : Bool} {ref : Ref .string}
    (ha : Added h h' (.string (.ofBytes text.toUTF8.toList)) pinned
      (fun i => text.toUTF8.toList.getD i 0) ref.id) :
    AllLegible h' (madeWith made h' (some ref)) := by
  have hlength : ((h'.get? ref).map StringRecord.length).getD 0 = text.toUTF8.toList.length := by
    rw [show h'.get? ref = some (.ofBytes text.toUTF8.toList) from ha.get? (k := .string)]
    rfl
  obtain ⟨block, hlarge, hfind', hcells⟩ := ha.found
  refine ⟨ha.sound, hl.idle.onlyAt ha.only ha.isFresh.unmarked, fun id entry record hfind hobject => ?_⟩
  by_cases hsame : id = ref.id
  · subst hsame
    obtain rfl := Option.some.inj (hfind'.symm.trans hfind)
    obtain rfl := Object.string.inj hobject
    rw [madeWith, if_pos rfl, hlength]
    exact .added hlarge hcells
  · rw [madeWith, if_neg hsame]
    exact .of_old (ha.only.oldText hl.sound hsame hfind hobject) hl.sound fun entry =>
      hl.texts id entry record

/-- A byte is stored into a string. -/
lemma stored (hl : AllLegible h made) {id : ObjectId} {entry : Entry} {record : StringRecord}
    {i : Nat} {byte : UInt8} (hfind : h.find? id = some entry)
    (hstored : Stored h h' id entry record (made id) i byte) : AllLegible h' made := by
  obtain ⟨record', hfind', hl', -⟩ := hstored.found
  refine ⟨hstored.sound, hl.idle.onlyAt hstored.only fun entry' hentry => ?_,
    fun other entry' record₁ hother hobject => ?_⟩
  · obtain rfl := Option.some.inj (hfind'.symm.trans hentry)
    exact hl.idle.unmarked id entry hfind
  · by_cases hsame : other = id
    · subst hsame
      obtain rfl := Option.some.inj (hfind'.symm.trans hother)
      obtain rfl := Object.string.inj hobject
      exact hl'
    · exact .of_old (hstored.only.oldText hl.sound hsame hother hobject) hl.sound fun entry =>
        hl.texts other entry record₁

lemma insertText_ends (hl : AllLegible h made) (text : String) (pinned : Bool) (journal : Journal) :
    (Heap.insertText text pinned h journal).Ends
      (fun ref h' => AllLegible h' (madeWith made h' (some ref))) (fun _ h' => AllLegible h' made)
      fun _ => True :=
  Outcome.Ends.imp (hl.sound.insertText text pinned journal) (fun _ _ hdone => hl.added hdone.1)
    (fun _ _ hraised => hraised.1 ▸ hl) fun _ _ => trivial

/-- Only a store into a string reaches a text, and it stays legible. -/
lemma setIndex_ends (hl : AllLegible h made) (container index value : Value) (journal : Journal) :
    (Container.setIndex container index value h journal).Ends (fun _ h' => AllLegible h' made)
      (fun _ h' => AllLegible h' made) fun _ => True := by
  by_cases hne : ∀ ref, container ≠ .scalar (.str ref)
  · exact (Container.within_texts_setIndex hne index value h journal).imp
      (fun _ _ => hl.of_spares) (fun _ _ => hl.of_spares) fun _ => id
  · obtain ⟨ref, hsame⟩ := not_forall.mp hne
    obtain rfl := not_not.mp hsame
    cases hget : h.get? ref with
    | none =>
        rw [Container.setIndex, get_bind]
        have hstale : (Container.setText (.scalar (.str ref)) index value ref h journal).Ends
            (fun _ _ => False) (fun _ h' => h' = h) fun _ => True := by
          rw [Container.setText, get_bind]
          split
          · rw [read_of_none hget]
            trivial
          · rw [← bind_pure (liftM _)]
            exact ends_lift_bind_of (fun _ => rfl) fun _ hok =>
              absurd hok (Container.elementMismatch_ne_ok _ _ _ _)
        refine Outcome.Ends.bind (hstale.imp (fun _ _ h => h) (fun _ _ heq => heq ▸ hl) fun _ => id) ?_
        exact fun _ _ _ hfalse => hfalse.elim
    | some record =>
        obtain ⟨entry, hfind, hobject⟩ := get?_eq_some_iff.mp hget
        refine (Container.setIndex_text_ends (hl.texts _ _ _ hfind hobject) hl.sound hfind hobject index
          value journal).imp ?_ (fun _ _ heq => heq ▸ hl) fun _ => id
        rintro _ h' ⟨i, byte, -, -, hstored⟩
        exact hl.stored hfind hstored

/-- What a copy returns is a string if it made one. -/
lemma copy_ends (hl : AllLegible h made) (value : Value) (journal : Journal) :
    (Container.copy value h journal).Ends
      (fun copy h' => (∃ ref, copy = .scalar (.str ref) ∧
          AllLegible h' (madeWith made h' (some ref))) ∨
        ((∀ ref, copy ≠ .scalar (.str ref)) ∧ AllLegible h' made))
      (fun _ h' => AllLegible h' made) fun _ => True := by
  by_cases hne : ∀ ref, value ≠ .scalar (.str ref)
  · have hspares := Container.within_texts_copy hne h journal
    cases hrun : Container.copy value h journal with
    | raised error h' journal' => exact hl.of_spares (hspares.of_raised hrun)
    | aborted fault => trivial
    | done copy h' journal' =>
        refine .inr ⟨?_, hl.of_spares (hspares.of_done hrun)⟩
        rintro ref rfl
        exact (Container.copy_ends_other hne).of_done hrun ref rfl
  · obtain ⟨ref, hsame⟩ := not_forall.mp hne
    obtain rfl := not_not.mp hsame
    rw [Container.copy, get_bind]
    refine ends_lift_bind_of (fun _ => hl) fun text _ => ?_
    exact (hl.insertText_ends text false journal).bind fun ref h' _ hl' => .inl ⟨ref, rfl, hl'⟩

lemma collect_ends (hl : AllLegible h made) (roots : List ObjectId) (journal : Journal) :
    (Heap.collect roots h journal).Ends (fun _ h' => AllLegible h' made)
      (fun _ h' => AllLegible h' made) fun _ => True := by
  obtain ⟨h', freed, journal', hrun, hc⟩ := hl.sound.collect hl.idle roots journal
  rw [hrun]
  exact hl.of_spares fun hs _ => ⟨hc.sound, hc.idle, hc.oldTexts hs⟩

end AllLegible

/-- An operation leaves all strings legible. -/
lemma AllLegible.edit_ends (hl : AllLegible h made) (edit : Edit) (journal : Journal) :
    (edit.run h journal).Ends (fun new h' => AllLegible h' (madeWith made h' new))
      (fun _ h' => AllLegible h' made) fun _ => True := by
  cases edit with
  | allocate text pinned =>
      exact (hl.insertText_ends text pinned journal).bind fun _ _ _ hl' => hl'
  | concatenate a b =>
      rw [Edit.run, get_bind]
      refine ends_lift_bind_of (fun _ => hl) fun sum _ => ?_
      cases sum with
      | text text => exact (hl.insertText_ends text false journal).bind fun _ _ _ hl' => hl'
      | scalar _ => exact hl
  | copy value =>
      refine (hl.copy_ends value journal).bind ?_
      rintro copy h' journal' (⟨ref, rfl, hl'⟩ | ⟨hne, hl'⟩)
      · exact hl'
      · split
        · exact absurd rfl (hne _)
        · exact hl'
  | store container index value =>
      exact (hl.setIndex_ends container index value journal).bind fun _ _ _ hl' => hl'
  | collect roots => exact (hl.collect_ends roots journal).bind fun _ _ _ hl' => hl'

/-- After any sequence of operations all strings are legible. -/
lemma Edited.allLegible (hh : Edited h made) : AllLegible h made := by
  induction hh with
  | create created =>
      refine ⟨sound_of_create created, idle_of_create created, fun id entry record hfind => ?_⟩
      cases (find?_of_create created id).symm.trans hfind
  | done _ edit journal run ih => exact (ih.edit_ends edit journal).of_done run
  | raised _ edit journal run ih => exact (ih.edit_ends edit journal).of_raised run
  | other _ elsewhere journal run ih =>
      exact ih.of_spares (elsewhere.within_texts.of_state? run)

/-- Every string that is there after any sequence of allocations, concatenations,
copies, collections and stores, whatever happens to other objects in between, is
in order. Its bytes are a text, and its record has their number and their hash.
Its capacity is the length that it was made with, rounded up, and lies within its
block; from the length on up to there the bytes are zero. So its text can be read,
and a character that is stored behind its end is preceded by zeros. -/
theorem Edited.texts_in_order (hh : Edited h made) {ref : Ref .string} {record : StringRecord}
    (hlive : h.get? ref = some record) :
    ∃ bytes text block, h.textBytes ref = .ok bytes ∧ bytes.length = record.length ∧
      IsText bytes ∧ record.hash = Hash.ofBytes bytes ∧
      record.length ≤ record.capacity ∧ record.capacity = roundUp (made ref.id) ∧
      h.block? ref.id = some block ∧ record.capacity ≤ block.size ∧
      (∀ i, record.length ≤ i → i < record.capacity → h.byte? ref.id i = some 0) ∧
      h.text ref = .ok text ∧ text.toUTF8.toList = bytes ∧ h.textRecord ref = .ok record ∧
      ∀ (index : Value) (i : Nat) (byte : UInt8) (journal : Journal),
        index.integral = some (i : Int) → record.length ≤ i → i < record.capacity →
        isAscii byte = true →
        ∃ h', Container.setIndex (.scalar (.str ref)) index (.scalar (.char byte)) h journal =
            .done () h' journal ∧
          h'.textBytes ref =
            .ok (bytes ++ (List.replicate (i - record.length) 0 ++ [byte])) := by
  obtain ⟨entry, hfind, hobject⟩ := get?_eq_some_iff.mp hlive
  have hall := hh.allLegible
  have hl := hall.texts ref.id entry record hfind hobject
  have hle := hall.sound.capacity_le hfind hobject
  have hlength : (h.cells ref.id record.length).length = record.length := by simp [cells]
  have hbytes : h.textBytes ref = .ok (h.cells ref.id record.length) := hall.sound.textBytes hlive
  obtain ⟨text, htext⟩ := Option.isSome_iff_exists.mp (isSome_decode?_iff.mpr hl.text)
  refine ⟨h.cells ref.id record.length, text, entry.block, hbytes, hlength, hl.text, ?_, hle.1, ?_,
    ?_, hle.2, fun i hlow hhigh => ?_, ?_, toUTF8_of_decode? htext, ?_,
    fun index i byte journal hindex hlow hhigh hascii => ?_⟩
  · exact congrArg StringRecord.hash hl.holds
  · exact congrArg StringRecord.capacity hl.holds
  · rw [block?, hfind]
    rfl
  · rw [hall.sound.toTidy.byte?_eq hfind (by omega), hl.zero i hlow hhigh]
  · rw [Heap.text, hbytes]
    simp only [bind, Except.bind, htext]
    rfl
  · exact hl.textRecord hfind hobject
  · obtain ⟨h', hrun, hstored⟩ := Container.setIndex_text_of hl hall.sound hfind hobject hindex hhigh
      (fun old hold => by rw [List.getElem?_eq_none (by omega)] at hold; cases hold) hascii journal
    obtain ⟨record', hfind', -, hcells⟩ := hstored.found
    refine ⟨h', hrun, ?_⟩
    have hget' : h'.get? ref = some record' := get?_eq_some_iff.mpr ⟨_, hfind', rfl⟩
    have hbytes' : h'.textBytes ref = .ok (h'.cells ref.id record'.length) :=
      hstored.sound.textBytes hget'
    rw [hbytes', hcells, storeByte_of_le (by omega), hlength]

/-- A string of two characters, the second of three bytes, and a store behind its
end: four bytes, two zeros and a character are a text. -/
theorem Edited.texts_in_order_extended :
    ∃ (h : Heap) (made : ObjectId → Nat) (record : StringRecord), Edited h made ∧
      h.get? (⟨⟨0, 0⟩⟩ : Ref .string) = some record ∧ record.length = 7 ∧
      roundUp (made ⟨0, 0⟩) = 8 ∧ ∃ text, h.text ⟨⟨0, 0⟩⟩ = .ok text := by
  have created : Edited _ _ := .create (rfl : Heap.create 1024 (fun _ => true) = .ok _)
  have hrun : (((Edit.allocate "a€" false).run
      ⟨⟨1024, #[], [], 0, 0, fun _ => true⟩, #[], [], []⟩ .silent).done?.bind fun first =>
      ((Edit.store (.scalar (.str ⟨⟨0, 0⟩⟩)) (.scalar (.int 6)) (.scalar (.char 120))).run
        first.2.1 first.2.2).done?).any (fun last => (last.2.1.get? (⟨⟨0, 0⟩⟩ : Ref .string)).any
          fun record => record.length = 7 && record.capacity = 8) = true := by
    decide +kernel
  obtain ⟨last, hlast, hrecord⟩ := (Option.any_eq_true _ _).mp hrun
  obtain ⟨first, hfirst, hlast⟩ := Option.bind_eq_some_iff.mp hlast
  obtain ⟨record, hget, hrecord⟩ := (Option.any_eq_true _ _).mp hrecord
  obtain ⟨hlength, hcapacity⟩ : record.length = 7 ∧ record.capacity = 8 := by simpa using hrecord
  have stored : Edited _ _ :=
    (created.done _ .silent (Outcome.eq_of_done? hfirst)).done _ first.2.2 (Outcome.eq_of_done? hlast)
  obtain ⟨bytes, text, block, -, -, -, -, -, hmade, -, -, -, htext, -⟩ := stored.texts_in_order hget
  exact ⟨_, _, record, stored, hget, hlength, hmade.symm.trans hcapacity, text, htext⟩

end Heap

end ScriptMachine
