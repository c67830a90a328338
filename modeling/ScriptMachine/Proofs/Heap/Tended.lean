import ScriptMachine.Proofs.Heap.Course
import ScriptMachine.Proofs.Heap.Texts

/-!
Heaps whose strings can be read and whose tables are whole.

The operations on a heap leave two things to their caller: a character that is
stored into a string must not split a longer one, and a table is changed by the
operations of tables only. The heaps that come about in this way, collections in
all their stages included, are `Heap.Tended`.

* `Table.Made.holds`: a table that comes about by its own operations is whole;
* `Careful.ends`: an operation leaves every string in order;
* `Tended.orderly`: so every string is a text and every table a dictionary;
* `Readable.exists_text`: the text of a string can be read.
-/

namespace ScriptMachine

open Memory

/-- The tables that come about by their own operations. -/
inductive Table.Made : Table → Prop
  | new {t : Table} (new : t.IsNew) : Made t
  | updated {t t' : Table} (made : Made t) (updated : t.Updated (fun _ => True) t') : Made t'

lemma Table.Made.holds {t : Table} (hm : t.Made) : ∃ d, t.Holds d := by
  induction hm with
  | new new => exact new.entries_eq.1
  | updated _ updated ih => exact (updated.holds ih).1

namespace Heap

variable {h h' : Heap} {α : Type} {action : Action Heap α}

/-- What a client may do to a heap. A character that is stored into a string takes the
place of a character of one byte, or stands behind the end. -/
inductive Careful (h : Heap) : {α : Type} → Action Heap α → Prop
  | other {α : Type} {action : Action Heap α} (other : Elsewhere .string action) : Careful h action
  | insertText (text : String) (pinned : Bool) : Careful h (Heap.insertText text pinned)
  | setChar (ref : Ref .string) (index : Nat) (byte : UInt8)
      (whole : ∀ old, h.textByte? ref index = .ok (some old) → isAscii old = true) :
      Careful h (Heap.setChar ref index byte)
  | mark (id : ObjectId) : Careful h (modify (·.mark id) : Action Heap Unit)
  | trace : Careful h (modify Heap.trace : Action Heap Unit)
  | sweep : Careful h Heap.sweep

/-- The heaps that a careful client can come to. Nothing looks into a table but its own
operations. -/
inductive Tended : Heap → Prop
  | create {pageSize : Nat} {grants : Nat → Bool} {h : Heap}
      (created : Heap.create pageSize grants = .ok h) : Tended h
  | next {h h' : Heap} {α : Type} {action : Action Heap α} (past : Tended h)
      (careful : Careful h action) (journal : Journal) (run : (action h journal).state? = some h')
      (tables : ∀ id t, h'.table? id = some t → t.Made) : Tended h'

/-! ### Strings -/

/-- A sound heap in which every string is in order, whatever it was made from. -/
structure Readable (h : Heap) : Prop where
  sound : h.Sound
  texts : ∀ id entry record, h.find? id = some entry → entry.object = .string record →
    ∃ made, Legible h id entry record made

/-- Strings that were there before are in order as they were. -/
lemma Readable.of_old (hr : h.Readable) (hs' : h'.Sound) (ho : OldTexts h h') : h'.Readable := by
  refine ⟨hs', fun id entry' record hfind' hobject' => ?_⟩
  have hold := ho id entry' record hfind' hobject'
  obtain ⟨entry, hfind, hobject, -⟩ := ho id entry' record hfind' hobject'
  obtain ⟨made, hl⟩ := hr.texts id entry record hfind hobject
  refine ⟨made, .of_old hold hr.sound fun found hfound _ => ?_⟩
  obtain rfl := Option.some.inj (hfind.symm.trans hfound)
  exact hl

/-- One string has changed or is new, and is in order. -/
lemma Readable.of_onlyAt (hr : h.Readable) (hs' : h'.Sound) {id : ObjectId} (ho : OnlyAt id h h')
    {entry : Entry} {record : StringRecord} {made : Nat} (hfind : h'.find? id = some entry)
    (hobject : entry.object = .string record) (hl : Legible h' id entry record made) :
    h'.Readable := by
  refine ⟨hs', fun other entry' record' hfind' hobject' => ?_⟩
  by_cases hsame : other = id
  · subst hsame
    obtain rfl := Option.some.inj (hfind.symm.trans hfind')
    obtain rfl := Object.string.inj (hobject.symm.trans hobject')
    exact ⟨made, hl⟩
  · have hold := ho.oldText hr.sound hsame hfind' hobject'
    obtain ⟨made', hl'⟩ := hr.texts other entry' record' ((ho.others other hsame).symm.trans hfind')
      hobject'
    refine ⟨made', .of_old hold hr.sound fun found hfound _ => ?_⟩
    obtain rfl := Option.some.inj (hfind'.symm.trans ((ho.others other hsame).trans hfound))
    exact hl'

lemma Touched.sound {l : Kind} (ht : Touched l h h') (hs : h.Sound) : h'.Sound := by
  cases ht with
  | same eq => exact eq ▸ hs
  | granted grants eq => exact eq ▸ hs.granting grants
  | altered altered => exact altered.sound
  | added added => exact added.sound
  | resized resized => exact hs.resized resized

lemma Remarked.oldTexts (hr : Remarked h h') : OldTexts h h' := by
  intro id entry' record hfind' hobject'
  obtain ⟨entry, hfind, hsame⟩ := hr.symm.exists_find? hfind'
  have hobject : entry.object = entry'.object := (congrArg Entry.object hsame :)
  have hblock : entry.block = entry'.block := (congrArg Entry.block hsame :)
  refine ⟨entry, hfind, hobject.trans hobject', Nat.le_of_eq (congrArg Block.size hblock),
    fun i _ => ?_⟩
  rw [cell_eq hfind', cell_eq hfind, hblock, hr.memory]

/-- What a sweep leaves was there before. -/
lemma Swept.oldTexts {start stop : Nat} {freed : List ObjectId} (hw : Swept start stop freed h h')
    (hs : h.Sound) : OldTexts h h' := by
  intro id entry' record hfind' hobject'
  obtain ⟨entry, hfind, hsame⟩ := hw.exists_find? hfind'
  have hobject : entry.object = entry'.object := (congrArg Entry.object hsame :)
  have hblock : entry.block = entry'.block := (congrArg Entry.block hsame :)
  refine ⟨entry, hfind, hobject.trans hobject', Nat.le_of_eq (congrArg Block.size hblock),
    fun i hi => hw.cells id entry' hfind' i ?_⟩
  rw [← hblock]
  exact Nat.lt_of_lt_of_le hi (hs.capacity_le hfind (hobject.trans hobject')).2

/-! ### Operations -/

/-- An action leaves all strings in order, unless it is aborted. -/
def LeavesReadable (outcome : Outcome Heap α) : Prop :=
  outcome.Ends (fun _ => Readable) (fun _ => Readable) fun _ => True

lemma Readable.setChar_ends (hr : h.Readable) {ref : Ref .string} {index : Nat} {byte : UInt8}
    (whole : ∀ old, h.textByte? ref index = .ok (some old) → isAscii old = true)
    (journal : Journal) : LeavesReadable (Heap.setChar ref index byte h journal) := by
  cases hascii : isAscii byte with
  | false => simp [Heap.setChar, hascii, LeavesReadable, Outcome.Ends]
  | true =>
    cases hget : h.get? ref with
    | none => simp [Heap.setChar, hascii, read_of_none hget, LeavesReadable, Outcome.Ends]
    | some record =>
      by_cases hle : record.capacity ≤ index
      · simp [Heap.setChar, hascii, read_of_get? hget, hle, LeavesReadable, Outcome.Ends, hr]
      · obtain ⟨entry, hfind, hobject⟩ := get?_eq_some_iff.mp hget
        obtain ⟨made, hl⟩ := hr.texts ref.id entry record hfind hobject
        have hold : ∀ old, (h.cells ref.id record.length)[index]? = some old → isAscii old = true :=
          fun old hsome => whole old ((hl.textByte? hr.sound hfind hobject index).trans
            (congrArg Except.ok hsome))
        obtain ⟨h', hrun, hstored⟩ :=
          hl.setChar hr.sound hfind hobject hascii (Nat.lt_of_not_le hle) hold journal
        obtain ⟨record', hfind', hl', -⟩ := hstored.found
        rw [show Heap.setChar ref index byte h journal = _ from hrun]
        exact hr.of_onlyAt hstored.sound hstored.only hfind' rfl hl'

lemma Readable.sweep_ends (hr : h.Readable) (journal : Journal) :
    LeavesReadable (Heap.sweep h journal) := by
  rw [Heap.sweep, Action.get_bind]
  cases hgray : h.gray.isEmpty with
  | false => simp [LeavesReadable, Outcome.Ends]
  | true =>
      obtain ⟨h', freed, journal', hrun, hw⟩ :=
        hr.sound.toTidy.sweepFrom h.slots.size 0 ⟨0, 0⟩ journal
      simp only [Bool.not_true, Bool.false_eq_true, if_false, hrun]
      exact hr.of_old (hw.sound hr.sound) (hw.oldTexts hr.sound)

/-- No operation of a careful client spoils a string. -/
lemma Careful.ends (hc : Careful h action) (hr : h.Readable) (journal : Journal) :
    LeavesReadable (action h journal) := by
  have hmarked : ∀ {h'}, Remarked h h' → h'.Readable := fun hm =>
    hr.of_old (hm.sound hr.sound) hm.oldTexts
  cases hc with
  | other other =>
      have hreadable : ∀ {h'}, Touched .string h h' → h'.Readable := fun ht =>
        hr.of_old (ht.sound hr.sound) (ht.oldTexts hr.sound)
      exact (other.touched hr.sound journal).imp (fun _ _ => hreadable) (fun _ _ => hreadable)
        fun _ => id
  | insertText text pinned =>
      refine (hr.sound.insertText text pinned journal).leaves hr fun ref h' ha => ?_
      obtain ⟨block, hlarge, hfind, hcells⟩ := ha.found
      exact hr.of_onlyAt ha.sound ha.only hfind rfl (.added hlarge hcells)
  | setChar ref index byte whole => exact hr.setChar_ends whole journal
  | mark id => exact hmarked (remarked_mark h id)
  | trace => exact hmarked (remarked_traceFor _ h)
  | sweep => exact hr.sweep_ends journal

/-! ### Histories -/

/-- A heap whose strings are in order and whose tables are whole. -/
structure Orderly (h : Heap) : Prop extends h.Readable where
  tables : ∀ id t, h.table? id = some t → ∃ d, t.Holds d

/-- A careful client leaves strings and tables in order. -/
lemma Tended.orderly (ht : h.Tended) : h.Orderly := by
  induction ht with
  | create created =>
      have hnone := find?_of_create created
      refine ⟨⟨sound_of_create created, fun id entry record hfind => ?_⟩, fun id t htable => ?_⟩
      · cases (hnone id).symm.trans hfind
      · obtain ⟨entry, hfind, -⟩ := exists_find?_of_table? htable
        cases (hnone id).symm.trans hfind
  | next _ careful journal run tables ih =>
      exact ⟨(careful.ends ih.toReadable journal).of_state? run, fun id t ht => (tables id t ht).holds⟩

/-- All tables of a heap are empty. -/
def tablesEmpty (h : Heap) : Bool :=
  h.entries.all fun entry => entry.object.table?.all (· = .empty)

/-- An operation that is done and leaves no table that is not empty. -/
lemma Tended.done (past : h.Tended) (careful : Careful h action) {journal : Journal}
    {result : α × Heap × Journal} (hdone : (action h journal).done? = some result)
    (hempty : result.2.1.tablesEmpty = true) : result.2.1.Tended := by
  refine past.next careful journal (by rw [Outcome.eq_of_done? hdone]; rfl) fun id t htable => ?_
  obtain ⟨entry, hfind, htable⟩ := exists_find?_of_table? htable
  have hall := List.all_eq_true.mp hempty entry (mem_entries hfind)
  rw [htable, Option.all_some, decide_eq_true_eq] at hall
  exact hall ▸ .new Table.isNew_empty

variable {ref : Ref .string} {record : StringRecord}

/-- The text of every string can be read. -/
lemma Readable.exists_text (hr : h.Readable) (hlive : h.get? ref = some record) :
    ∃ text, h.text ref = .ok text := by
  obtain ⟨entry, hfind, hobject⟩ := get?_eq_some_iff.mp hlive
  obtain ⟨made, hl⟩ := hr.texts ref.id entry record hfind hobject
  obtain ⟨text, htext⟩ := Option.isSome_iff_exists.mp (isSome_decode?_iff.mpr hl.text)
  have hbytes : h.textBytes ref = .ok (h.cells ref.id record.length) := hr.sound.textBytes hlive
  refine ⟨text, ?_⟩
  rw [Heap.text, hbytes]
  simp only [bind, Except.bind, htext]
  rfl

end Heap

end ScriptMachine
