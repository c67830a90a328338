import Mathlib.Logic.Relation
import ScriptMachine.Proofs.Heap.Changes
import ScriptMachine.Proofs.Raising
import ScriptMachine.Proofs.Stack
import ScriptMachine.Proofs.Table.Arena

/-!
What becomes of objects, one change at a time.

A `Change` of a heap adds one object or gives one another content. It says what
later results need: tables begin empty or as copies, entries are stored under keys
that are current, a string gets another hash only if it may be written, and an
object that had room in its block has room afterwards. The last is asked of strict
changes only, since an object that has grown is short of room until more memory is
reserved, and stays so if there is none.

* `Revised`: one object has got another content;
* `Change`, `Course`: one change, and any number of them;
* `Revised.resize`: an object that has grown, and the memory reserved for it;
* `Container.keeps_setIndex` and its neighbours: the operations on containers
  consist of such changes.
-/

namespace ScriptMachine

open ScriptMachine.Action Memory
open Relation (ReflTransGen)

/-! ### Tables -/

/-- The table that an object has. -/
def Object.table? : Object → Option Table
  | .table t => some t
  | .inst i => some i.fields
  | .cls c => some c.methods
  | _ => none

/-- An object is made of a content of its kind. -/
lemma Object.exists_content (object : Object) :
    ∃ content : object.kind.Content, object = .ofContent object.kind content := by
  cases object <;> exact ⟨_, rfl⟩

namespace Table

/-- A table without entries, as it is made. -/
def IsNew (t : Table) : Prop := ∃ capacity, withCapacity capacity = .ok t

lemma isNew_empty : empty.IsNew := ⟨0, rfl⟩

/-- A table after a value was stored in it under a key of which `valid` holds, or
removed from it. -/
inductive Updated (valid : Key → Prop) : Table → Table → Prop
  | insert {t t' : Table} {key : Key} {value : Value} {old : Option Value}
      {journal journal' : Journal} (key_valid : valid key)
      (run : Table.insert key value t journal = .done old t' journal') : Updated valid t t'
  | remove {t t' : Table} {hash : UInt64} {old : Option Value} {journal journal' : Journal}
      (run : Table.remove hash t journal = .done old t' journal') : Updated valid t t'

/-- An updated table is whole, and its keys were there before or are valid. -/
lemma Updated.holds {t t' : Table} {valid : Key → Prop} (hu : t.Updated valid t')
    (hwhole : ∃ d, t.Holds d) :
    (∃ d, t'.Holds d) ∧ ∀ key value, (key, value) ∈ t'.entries →
      (∃ old, (key, old) ∈ t.entries) ∨ valid key := by
  obtain ⟨d, hd⟩ := hwhole
  cases hu with
  | @insert new stored _ journal _ key_valid run =>
      obtain ⟨-, hd', -⟩ := (hd.insert new stored journal).of_done run
      refine ⟨⟨_, hd'⟩, fun key value hmem => ?_⟩
      exact (hd.listed.of_insert hd'.listed hmem).imp_right (by rintro rfl; exact key_valid)
  | @remove hash _ journal _ run =>
      obtain ⟨t₁, hrun, hd', -⟩ := hd.remove hash journal
      cases run.symm.trans hrun
      exact ⟨⟨_, hd'⟩, fun key value hmem => .inl ⟨value, hd.listed.of_remove hd'.listed hmem⟩⟩

lemma IsNew.entries_eq {t : Table} (hn : t.IsNew) :
    (∃ d, t.Holds d) ∧ ∀ key value, (key, value) ∉ t.entries := by
  obtain ⟨capacity, ht⟩ := hn
  have hd := holds_of_withCapacity ht
  exact ⟨⟨_, hd⟩, fun key value hmem => nomatch (hd.listed.mem_iff key value).mp hmem⟩

/-- Removing leaves the slots and the places of the arena. -/
lemma footprint_remove {t t' : Table} {hash : UInt64} {old : Option Value} {journal journal' : Journal}
    (h : remove hash t journal = .done old t' journal') : t'.footprint = t.footprint := by
  rcases remove_cases h with rfl | ⟨entry, link, u, hunlink, rfl⟩
  · rfl
  · obtain ⟨hslots, hnodes⟩ := sameSize_unlink hunlink
    rw [footprint, footprint, hslots, hnodes]

end Table

namespace Heap

variable {h h₁ h₂ : Heap} {k : Kind} {id : ObjectId} {ref : Ref k} {written : ObjectId → Prop}
  {strict : Prop}

/-- The table of an object. -/
def table? (h : Heap) (id : ObjectId) : Option Table := (h.object? id).bind Object.table?

/-- A key has the hash that its scalar has now. -/
def Current (h : Heap) (key : Key) : Prop := h.hash? key.scalar = .ok (some key.hash)

lemma table?_of_find? {entry : Entry} (hfind : h.find? id = some entry) :
    h.table? id = entry.object.table? := by
  rw [table?, object?, hfind]
  rfl

lemma exists_find?_of_table? {t : Table} (ht : h.table? id = some t) :
    ∃ entry, h.find? id = some entry ∧ entry.object.table? = some t := by
  cases hfind : h.find? id with
  | none =>
      rw [table?, object?, hfind] at ht
      cases ht
  | some entry => exact ⟨entry, rfl, (table?_of_find? hfind).symm.trans ht⟩

lemma table?_of_get? {ref : Ref .table} {t : Table} (hget : h.get? ref = some t) :
    h.table? ref.id = some t := by
  obtain ⟨entry, hfind, hobject⟩ := get?_eq_some_iff.mp hget
  rw [table?_of_find? hfind, hobject]
  rfl

lemma get?_of_read {content : k.Content} (hread : h.read ref = .ok content) :
    h.get? ref = some content := by
  cases hget : h.get? ref with
  | some found => rw [read_of_get? hget] at hread; exact congrArg some (Except.ok.inj hread)
  | none => rw [read_of_none hget] at hread; cases hread

lemma Intact.table? (hi : Intact id h h₁) : h₁.table? id = h.table? id :=
  congrArg (Option.bind · Object.table?) hi.object

/-! ### Changes -/

/-- One object has got another content. -/
structure Revised (written : ObjectId → Prop) (ref : Ref k) (h h₁ : Heap) : Prop
    extends Altered ref h h₁ where
  /-- Its table has lost an entry, or has got one under a key that is current. -/
  table : ∀ t', h₁.table? ref.id = some t' →
    ∃ t, h.table? ref.id = some t ∧ (t' = t ∨ t.Updated h.Current t')
  /-- It has kept its hash, if it is a string that may not be written. -/
  hash : ∀ record', h₁.get? (⟨ref.id⟩ : Ref .string) = some record' →
    ∃ record, h.get? (⟨ref.id⟩ : Ref .string) = some record ∧
      (record'.hash = record.hash ∨ written ref.id)

/-- What happens to a heap at once. Only strings are pinned, and tables begin empty
or as copies. -/
inductive Change (written : ObjectId → Prop) (strict : Prop) : Heap → Heap → Prop
  | added {h h₁ : Heap} {object : Object} {pinned : Bool} {contents : Nat → UInt8} {id : ObjectId}
      (added : Added h h₁ object pinned contents id)
      (pin : pinned = true → object.kind = .string)
      (table : ∀ t, object.table? = some t → t.IsNew ∨ ∃ other, h.table? other = some t) :
      Change written strict h h₁
  | revised {k : Kind} {ref : Ref k} {h h₁ : Heap} (revised : Revised written ref h h₁)
      (room : strict → h.Roomy ref.id → h₁.Roomy ref.id) : Change written strict h h₁

lemma Change.sound (hc : Change written strict h h₁) : h₁.Sound := by
  cases hc with
  | added added => exact added.sound
  | revised revised => exact revised.sound

lemma Change.idle (hc : Change written strict h h₁) (hi : h.Idle) : h₁.Idle := by
  cases hc with
  | added added => exact hi.onlyAt added.only added.isFresh.unmarked
  | revised revised => exact revised.idle hi

lemma Change.relax (hc : Change written True h h₁) : Change written strict h h₁ := by
  cases hc with
  | added added pin table => exact .added added pin table
  | revised revised room => exact .revised revised fun _ => room trivial

lemma Change.mono {written' : ObjectId → Prop} (hc : Change written strict h h₁)
    (hw : ∀ id, written id → written' id) : Change written' strict h h₁ := by
  cases hc with
  | added added pin table => exact .added added pin table
  | revised revised room =>
      refine .revised ⟨revised.toAltered, revised.table, fun record' hrecord => ?_⟩ room
      obtain ⟨record, hold, hhash⟩ := revised.hash record' hrecord
      exact ⟨record, hold, hhash.imp_right (hw _)⟩

/-- Any number of changes. -/
def Changes (written : ObjectId → Prop) (strict : Prop) : Heap → Heap → Prop :=
  ReflTransGen (Change written strict)

lemma Changes.mono {written' : ObjectId → Prop} (hc : Changes written strict h h₁)
    (hw : ∀ id, written id → written' id) : Changes written' strict h h₁ :=
  ReflTransGen.mono (fun _ _ change => change.mono hw) _ _ hc

lemma Changes.sound_idle (hc : Changes written strict h h₁) (hs : h.Sound) (hi : h.Idle) :
    h₁.Sound ∧ h₁.Idle := by
  induction hc with
  | refl => exact ⟨hs, hi⟩
  | tail _ change ih => exact ⟨change.sound, change.idle ih.2⟩

/-- Any number of changes of a heap in which no collection is under way. -/
def Course (written : ObjectId → Prop) (strict : Prop) (h h₁ : Heap) : Prop :=
  h.Sound → h.Idle → Changes written strict h h₁

instance : Lenient (Course written) where
  refl _ _ _ _ := .refl
  trans hc hc' hs hi := by
    have hchanges := hc hs hi
    obtain ⟨hs', hi'⟩ := hchanges.sound_idle hs hi
    exact hchanges.trans (hc' hs' hi')
  relax hc hs hi := ReflTransGen.mono (fun _ _ => Change.relax) _ _ (hc hs hi)

/-- An action may use that the heap before was sound and idle. -/
lemma kept_of_sound {α : Type} {R : Prop → Heap → Heap → Prop} {outcome : Outcome Heap α}
    (hkept : h.Sound → h.Idle → outcome.Kept R h) :
    outcome.Kept (fun strict h h₁ => h.Sound → h.Idle → R strict h h₁) h :=
  Outcome.ends_of_imp fun hs => Outcome.ends_of_imp (hkept hs)

/-- A request that is refused changes nothing. -/
lemma kept_served {α : Type} {granted full : Prop} {refusal : Option Failure}
    {served : α → Heap → Prop} {outcome : Outcome Heap α}
    (hserved : outcome.Served granted full refusal h served)
    (hchange : ∀ value h₁, served value h₁ → Change written True h h₁) :
    outcome.Kept (Changes written) h :=
  Outcome.Ends.imp hserved (fun value h₁ hdone => .single (hchange value h₁ hdone.1))
    (fun _ _ hraised => hraised.1 ▸ .refl) fun _ _ => trivial

/-! ### New objects -/

lemma alloc_kept {content : k.Content} (hv : (Object.ofContent k content).Valid)
    (htable : ∀ t, (Object.ofContent k content).table? = some t →
      t.IsNew ∨ ∃ other, h.table? other = some t) (journal : Journal) :
    (alloc k content h journal).Kept (Course written) h := by
  refine kept_of_sound fun hs _ => Outcome.Ends.bind (kept_served
    (hs.toTidy.insert _ false journal) fun id h₁ hi => ?_) fun _ _ _ hc => hc
  exact .added (hi.added hs hv) nofun htable

/-- An object whose table, if it has one, is empty. -/
lemma keeps_alloc {content : k.Content} (hv : (Object.ofContent k content).Valid)
    (htable : ∀ t, (Object.ofContent k content).table? = some t → t.IsNew) :
    (alloc k content).Keeps (Course written) :=
  fun _ journal => alloc_kept hv (fun t ht => .inl (htable t ht)) journal

lemma keeps_insertText (text : String) (pinned : Bool) :
    (insertText text pinned).Keeps (Course written) :=
  fun _ journal => kept_of_sound fun hs _ => kept_served (hs.insertText text pinned journal)
    fun _ _ ha => .added ha (fun _ => rfl) nofun

lemma keeps_copyArray (ref : Ref .array) : (copyArray ref).Keeps (Course written) := by
  refine fun h journal => kept_of_sound fun hs _ => ?_
  cases hget : h.get? ref with
  | none =>
      rw [copyArray, get_bind, read_of_none hget]
      trivial
  | some record =>
      obtain ⟨entry, hfind, hobject⟩ := get?_eq_some_iff.mp hget
      refine kept_served (hs.copyArray hfind hobject journal) ?_
      rintro copy h₁ ⟨contents, ha, -⟩
      exact .added ha nofun nofun

/-! ### Objects that change -/

/-- Another content of an object that keeps nothing in memory. -/
lemma Sound.revised_put (hs : h.Sound) (plain : k ≠ .array ∧ k ≠ .string) {old new : k.Content}
    (hget : h.get? ref = some old)
    (htable : ∀ t', (Object.ofContent k new).table? = some t' →
      ∃ t, (Object.ofContent k old).table? = some t ∧ (t' = t ∨ t.Updated h.Current t')) :
    Revised written ref h (h.put ref new) := by
  obtain ⟨entry, hfind, hobject⟩ := get?_eq_some_iff.mp hget
  have hfind₁ : (h.put ref new).find? ref.id = some { entry with object := .ofContent k new } := by
    rw [find?_put, if_pos rfl, hfind]
    rfl
  refine ⟨hs.altered_put hget fun _ _ => object_ofContent_fits plain new _, ?_, ?_⟩
  · rw [table?_of_find? hfind, table?_of_find? hfind₁, hobject]
    exact htable
  · intro record' hrecord
    exact absurd (kind_eq (get?_put hget) hrecord) plain.2

/-- It has room if it is not larger than before. -/
lemma Sound.change_put (hs : h.Sound) (plain : k ≠ .array ∧ k ≠ .string) {old new : k.Content}
    (hget : h.get? ref = some old)
    (htable : ∀ t', (Object.ofContent k new).table? = some t' →
      ∃ t, (Object.ofContent k old).table? = some t ∧ (t' = t ∨ t.Updated h.Current t'))
    (hsize : (Object.ofContent k new).size ≤ (Object.ofContent k old).size) :
    Change written strict h (h.put ref new) := by
  refine .revised (hs.revised_put plain hget htable) fun _ hroom => ?_
  obtain ⟨entry, hfind, hobject⟩ := get?_eq_some_iff.mp hget
  refine hroom.replace hfind (by rw [find?_put, if_pos rfl, hfind]; rfl) ?_
  rwa [hobject]

/-- The memory of an array changes, or its length. -/
lemma Fitted.change_array {ref : Ref .array} (hf : Fitted ref h h₁) : Change written strict h h₁ := by
  obtain ⟨entry, old, block, new, hfind, hobject, hfind₁⟩ := hf.found
  refine .revised ⟨hf.toAltered, ?_, ?_⟩ fun _ => hf.room
  · rw [table?_of_find? hfind₁]
    exact nofun
  · intro record' hrecord
    exact absurd (kind_eq (get?_eq_some_iff.mpr ⟨_, hfind₁, rfl⟩) hrecord) (by decide)

/-- The strings that are others than before, of which there is at most one. -/
def Rewrites (ref : Ref .string) (h h₁ : Heap) (id : ObjectId) : Prop :=
  id = ref.id ∧ h₁.get? (⟨id⟩ : Ref .string) ≠ h.get? (⟨id⟩ : Ref .string)

/-- A string that has changed is written, unless it has the same record. -/
lemma Altered.revised_string {ref : Ref .string} (ha : Altered ref h h₁) :
    Revised (Rewrites ref h h₁) ref h h₁ := by
  obtain ⟨entry, old, block, new, hfind, hobject, hfind₁⟩ := ha.found
  refine ⟨ha, ?_, fun record' hrecord => ?_⟩
  · rw [table?_of_find? hfind₁]
    exact nofun
  · by_cases heq : h₁.get? ref = h.get? ref
    · exact ⟨record', heq.symm.trans hrecord, .inl rfl⟩
    · exact ⟨old, get?_eq_some_iff.mpr ⟨entry, hfind, hobject⟩, .inr ⟨rfl, heq⟩⟩

/-- Another content follows, with the same table. -/
lemma Revised.put (he : Revised written ref h h₁) (plain : k ≠ .array ∧ k ≠ .string)
    {old new : k.Content} (hget : h₁.get? ref = some old)
    (htable : (Object.ofContent k new).table? = (Object.ofContent k old).table?) :
    Revised written ref h (h₁.put ref new) := by
  obtain ⟨entry, hfind, hobject⟩ := get?_eq_some_iff.mp hget
  have hput : (h₁.put ref new).table? ref.id = h₁.table? ref.id := by
    rw [table?_of_find? hfind, hobject, ← htable, table?, object?, find?_put, if_pos rfl, hfind]
    rfl
  refine ⟨he.toAltered.trans (he.sound.altered_put hget fun _ _ =>
    object_ofContent_fits plain new _), ?_, fun record' hrecord => ?_⟩
  · rw [hput]
    exact he.table
  · exact absurd (kind_eq (get?_put hget) hrecord) plain.2

/-! ### Memory for objects that have grown -/

/-- More memory is reserved for an object that has got another content. -/
lemma Revised.resized (he : Revised written ref h h₁) (hr : Resized h₁ h₂ ref.id) :
    Revised written ref h h₂ ∧ h₂.Roomy ref.id := by
  obtain ⟨entry, old, block, new, hfind, hobject, hfind₁⟩ := he.found
  obtain ⟨block', -, hlarge, hfind₂, -⟩ := hr.found _ hfind₁
  refine ⟨⟨⟨he.sound.resized hr, he.only.trans hr.only,
    entry, old, block', new, hfind, hobject, hfind₂⟩, ?_, ?_⟩, fun entry' hentry => ?_⟩
  · rw [hr.intact.table?]
    exact he.table
  · intro record' hrecord
    exact he.hash record' (hr.intact.get?.symm.trans hrecord)
  · obtain rfl := Option.some.inj (hfind₂.symm.trans hentry)
    exact hlarge

/-- An object that has got another content gets the memory that it needs. If there
is none, it may be short of room. -/
lemma Revised.resize_ends (he : Revised written ref h h₁) (journal : Journal) :
    (Heap.resize ref.id h₁ journal).Ends (fun _ h₂ => Revised written ref h h₂ ∧ h₂.Roomy ref.id)
      (fun error h₂ => Revised written ref h h₂ ∧ error.kind = .memory) fun _ => True := by
  have hserved := he.sound.toTidy.resize ref.id journal
  have hstarved := starved_resize ref.id h₁ journal
  cases hrun : Heap.resize ref.id h₁ journal with
  | done value h₂ journal₂ => exact he.resized (hserved.of_done hrun).1
  | raised error h₂ journal₂ =>
      obtain rfl := (hserved.of_raised hrun).1
      exact ⟨he, by_contra fun hkind => hstarved.of_raised hrun hkind⟩
  | aborted fault => trivial

lemma Revised.resize (he : Revised written ref h h₁) (journal : Journal) :
    (Heap.resize ref.id h₁ journal).Kept (Changes written) h :=
  (he.resize_ends journal).imp (fun _ _ h => .single (.revised h.1 fun _ _ => h.2))
    (fun _ _ h => .single (.revised h.1 fun hstrict => absurd h.2 hstrict)) fun _ => id

/-- An object that grows, and then gets the memory that it needs. -/
lemma kept_growth {α : Type} {first : Action Heap α} {journal : Journal}
    (hfirst : (first h journal).Ends (fun _ h₁ => Revised written ref h h₁)
      (fun _ _ => False) fun _ => True) :
    ((first >>= fun _ => Heap.resize ref.id) h journal).Kept (Changes written) h :=
  hfirst.unraised.bind fun _ _ journal₁ he => he.resize journal₁

lemma keeps_resize (id : ObjectId) : (Heap.resize id).Keeps (Course written) := by
  refine fun h journal => kept_of_sound fun hs _ => ?_
  cases hfind : h.find? id with
  | none =>
      rw [Heap.resize, get_bind, hfind]
      exact .refl
  | some entry =>
      have hrevised : Revised written (⟨id⟩ : Ref entry.object.kind) h h := by
        refine ⟨?_, fun t ht => ⟨t, ht, .inl rfl⟩, fun record hrecord => ⟨record, hrecord, .inl rfl⟩⟩
        obtain ⟨content, hcontent⟩ := entry.object.exists_content
        exact hs.altered (get?_eq_some_iff.mpr ⟨entry, hfind, hcontent⟩)
      exact hrevised.resize journal

/-! ### Contents -/

/-- A content is replaced by one that is not larger and has the same table. -/
lemma keeps_onContent {α : Type} (plain : k ≠ .array ∧ k ≠ .string) (ref : Ref k)
    {f : k.Content → α × k.Content}
    (htable : ∀ content, (Object.ofContent k (f content).2).table? =
      (Object.ofContent k content).table?)
    (hsize : ∀ content, (Object.ofContent k (f content).2).size ≤
      (Object.ofContent k content).size) :
    (onContent ref (modifyGet f)).Keeps (Course written) := by
  refine fun h journal => kept_of_sound fun hs _ => ?_
  cases hget : h.get? ref with
  | none =>
      unfold onContent take?
      rw [hget]
      trivial
  | some content =>
      rw [onContent_apply hget, modifyGet_apply]
      refine .single (hs.change_put plain hget (fun t ht => ⟨t, ?_, .inl rfl⟩) (hsize content))
      rwa [htable] at ht

/-- An action on the content of an object, from what it does to the content. -/
lemma revised_onContent {α : Type} (hs : h.Sound) (plain : k ≠ .array ∧ k ≠ .string) (ref : Ref k)
    {action : Action k.Content α} {journal : Journal}
    (haction : ∀ old, (action old journal).Ends
      (fun _ new => ∀ t', (Object.ofContent k new).table? = some t' →
        ∃ t, (Object.ofContent k old).table? = some t ∧ (t' = t ∨ t.Updated h.Current t'))
      (fun _ _ => False) fun _ => True) :
    (onContent ref action h journal).Ends (fun _ h₁ => Revised written ref h h₁) (fun _ _ => False)
      fun _ => True := by
  cases hget : h.get? ref with
  | none =>
      unfold onContent take?
      rw [hget]
      trivial
  | some old =>
      have hends := haction old
      rw [onContent_apply hget]
      cases hrun : action old journal with
      | done value new journal₁ => exact hs.revised_put plain hget (hends.of_done hrun)
      | raised error new journal₁ => exact hends.of_raised hrun
      | aborted fault => trivial

/-- Storing in a table under a key that is current. -/
lemma Current.insert_ends {key : Key} (hkey : h.Current key) (value : Value) (t : Table)
    (journal : Journal) : (Table.insert key value t journal).Ends
      (fun _ t' => t.Updated h.Current t') (fun _ _ => False) fun _ => True := by
  have hends := t.insert_ends key value journal
  cases hrun : Table.insert key value t journal with
  | done old t' journal' => exact .insert hkey hrun
  | raised error t' journal' => exact hends.of_raised hrun
  | aborted fault => trivial

/-- Storing in the table that an object has as a part. -/
lemma revised_insertOn (hs : h.Sound) (plain : k ≠ .array ∧ k ≠ .string) (ref : Ref k)
    {split : k.Content → Table × (Table → k.Content)}
    (hpart : ∀ content, (Object.ofContent k content).table? = some (split content).1)
    (hwhole : ∀ content t, (Object.ofContent k ((split content).2 t)).table? = some t)
    {key : Key} (hkey : h.Current key) (value : Value) (journal : Journal) :
    (onContent ref (Action.on split (Table.insert key value)) h journal).Ends
      (fun _ h₁ => Revised written ref h h₁) (fun _ _ => False) fun _ => True := by
  refine revised_onContent hs plain ref fun content => ?_
  have hends := hkey.insert_ends value (split content).1 journal
  unfold Action.on
  dsimp only
  cases hrun : Table.insert key value (split content).1 journal with
  | done old t journal' =>
      intro t' ht'
      obtain rfl := Option.some.inj ((hwhole content t).symm.trans ht')
      exact ⟨_, hpart content, .inr (hends.of_done hrun)⟩
  | raised error t journal' => exact hends.of_raised hrun
  | aborted fault => trivial

/-- What changes an array takes its course. -/
lemma Refits.kept {α : Type} {ref : Ref .array} {outcome : Outcome Heap α}
    (hr : Refits ref h outcome) : outcome.Kept (Changes written) h :=
  Outcome.Ends.imp hr (fun _ _ hf => .single hf.change_array) (fun _ _ hf => .single hf.change_array)
    fun _ => id

lemma keeps_arraySet (ref : Ref .array) (index : Nat) (scalar : Scalar) :
    (arraySet ref index scalar).Keeps (Course written) :=
  fun _ _ => kept_of_sound fun hs _ => (hs.refits_arraySet ref index scalar).kept

lemma keeps_arrayPush (ref : Ref .array) (scalar : Scalar) :
    (arrayPush ref scalar).Keeps (Course written) :=
  fun _ _ => kept_of_sound fun hs _ => (hs.refits_arrayPush ref scalar).kept

lemma keeps_arrayPop (ref : Ref .array) : (arrayPop ref).Keeps (Course written) :=
  fun _ _ => kept_of_sound fun hs _ => (hs.refits_arrayPop ref).kept

end Heap

/-! ### Containers -/

namespace Container

open Heap (Fitted Rewrites Course Changes kept_of_sound kept_growth keeps_resize)

variable {h : Heap} {written : ObjectId → Prop}

lemma keeps_reserve (container : Value) : (reserve container).Keeps (Course written) := by
  rw [reserve]
  split
  · exact keeps_resize _
  · exact keeps_pure ()

/-- The key for a value is current. -/
lemma current_of_key {value : Value} {key : Key} (hkey : Container.key h value = .ok key) :
    h.Current key := by
  cases value with
  | scalar scalar =>
      obtain ⟨hash, hhash, hkey⟩ := Result.exists_of_bind_ok hkey
      cases hash with
      | some hash => cases hkey; exact hhash
      | none =>
          obtain ⟨type, -, hkey⟩ := Result.exists_of_bind_ok hkey
          cases hkey
  | _ =>
      obtain ⟨type, -, hkey⟩ := Result.exists_of_bind_ok hkey
      cases hkey

/-- The table of an object is itself, if it is a table. -/
lemma table_updated {t t' : Table} (hupdated : t.Updated h.Current t') :
    ∀ s', (Object.table t').table? = some s' →
      ∃ s, (Object.table t).table? = some s ∧ (s' = s ∨ s.Updated h.Current s') := by
  rintro s' ⟨⟩
  exact ⟨t, rfl, .inr hupdated⟩

/-- A character is stored, or nothing has changed. -/
lemma setText_ends_fitted (hs : h.Sound) (container index value : Value) (ref : Ref .string)
    (journal : Journal) : (setText container index value ref h journal).Ends
      (fun _ h₁ => h₁ = h ∨ Fitted ref h h₁) (fun _ h₁ => h₁ = h ∨ Fitted ref h h₁)
      fun _ => True := by
  rw [setText, get_bind]
  split
  case h_1 byte =>
    refine ends_lift_bind_of (fun _ => .inl rfl) fun record _ => ?_
    refine ends_lift_bind_of (fun _ => .inl rfl) fun i _ => ?_
    refine ends_lift_bind_of (fun _ => .inl rfl) fun old _ => ?_
    have hstore : ((do
        let byte ← (ascii i byte : Result UInt8)
        let _ ← Heap.setChar ref i byte : Action Heap Unit) h journal).Ends
          (fun _ h₁ => h₁ = h ∨ Fitted ref h h₁) (fun _ h₁ => h₁ = h ∨ Fitted ref h h₁)
          fun _ => True :=
      ends_lift_bind_of (fun _ => .inl rfl) fun byte' _ =>
        Outcome.Ends.bind ((hs.refits_setChar ref i byte').imp (fun _ _ => .inr) (fun _ _ => .inr)
          fun _ => id) fun _ _ _ hf => hf
    cases old with
    | some old => exact ends_lift_bind_of (fun _ => .inl rfl) fun _ _ => hstore
    | none => exact hstore
  case h_2 =>
    rw [← bind_pure (liftM _)]
    exact ends_lift_bind_of (fun _ => .inl rfl) fun _ _ => .inl rfl

/-- A store into a string writes this string only. -/
lemma setIndex_text_kept (ref : Ref .string) (index value : Value) (h : Heap) (journal : Journal) :
    (setIndex (.scalar (.str ref)) index value h journal).Kept
      (fun strict h h₁ => Course (Rewrites ref h h₁) strict h h₁) h := by
  refine kept_of_sound fun hs hi => ?_
  change Outcome.Kept _ h
    ((setText (.scalar (.str ref)) index value ref >>= fun _ => Heap.resize ref.id) h journal)
  refine Outcome.Ends.bind ((setText_ends_fitted hs _ index value ref journal).imp (fun _ _ => id) ?_
    fun _ => id) ?_
  · rintro error h₁ (rfl | hf)
    · exact .refl
    · exact .single (.revised hf.revised_string fun _ => hf.room)
  · rintro _ h₁ journal₁ (rfl | hf)
    · have hnone : ∀ {strict} {h₂ : Heap}, Course (fun _ => False) strict h₁ h₂ →
          Changes (Rewrites ref h₁ h₂) strict h₁ h₂ := fun hc => (hc hs hi).mono fun _ => False.elim
      exact (keeps_resize ref.id h₁ journal₁).imp (fun _ _ => hnone) (fun _ _ => hnone) fun _ => id
    · exact (hf.revised_string.resize_ends journal₁).imp
        (fun _ _ h => .single (.revised h.1.revised_string fun _ _ => h.2))
        (fun _ _ h => .single (.revised h.1.revised_string fun hstrict => absurd h.2 hstrict))
        fun _ => id

/-- A store into a string leaves all tables as they are. -/
lemma setIndex_text_tables {h : Heap} (hs : h.Sound) (ref : Ref .string) (index value : Value)
    (journal : Journal) : (setIndex (.scalar (.str ref)) index value h journal).Ends
      (fun _ h₁ => ∀ id, h₁.table? id = h.table? id) (fun _ h₁ => ∀ id, h₁.table? id = h.table? id)
      fun _ => True := by
  -- Neither the old record nor the new one is a table.
  have hstored : ∀ {h₁ : Heap}, h₁ = h ∨ Fitted ref h h₁ →
      h₁.Sound ∧ ∀ id, h₁.table? id = h.table? id := by
    rintro h₁ (rfl | hf)
    · exact ⟨hs, fun _ => rfl⟩
    · refine ⟨hf.sound, fun id => ?_⟩
      obtain ⟨entry, old, block, new, hfind, hobject, hfind₁⟩ := hf.found
      by_cases hsame : id = ref.id
      · rw [hsame, Heap.table?_of_find? hfind₁, Heap.table?_of_find? hfind, hobject]
        rfl
      · exact (hf.only.intact hsame).table?
  change Outcome.Ends _ _ _
    ((setText (.scalar (.str ref)) index value ref >>= fun _ => Heap.resize ref.id) h journal)
  refine Outcome.Ends.bind ((setText_ends_fitted hs _ index value ref journal).imp (fun _ _ => hstored)
    (fun _ _ h₁ => (hstored h₁).2) fun _ => id) ?_
  rintro _ h₁ journal₁ ⟨hs₁, htables⟩
  refine (hs₁.toTidy.resize ref.id journal₁).leaves htables fun _ h₂ hr id => ?_
  by_cases hsame : id = ref.id
  · exact (hsame ▸ hr.intact.table?).trans (htables id)
  · exact (hr.only.intact hsame).table?.trans (htables id)

/-- A store into another container than a string writes no string. -/
lemma keeps_setIndex {container : Value} (hne : ∀ ref, container ≠ .scalar (.str ref))
    (index value : Value) : (setIndex container index value).Keeps (Course written) := by
  refine fun h journal => ?_
  rw [setIndex, get_bind]
  split
  case h_1 ref =>
    exact (keeps_lift _).bind (fun _ => (keeps_lift _).bind fun _ => (keeps_lift _).bind fun _ =>
      (Heap.keeps_arraySet ref _ _).bind fun _ => keeps_reserve _) h journal
  case h_2 ref =>
    have hset : ∀ i scalar, (Heap.onContent ref (modifyGet (·.set i scalar))).Keeps
        (Course written) := fun i scalar =>
      Heap.keeps_onContent (by decide) ref (fun _ => rfl) fun s =>
        Nat.le_of_eq (congrArg (recordSize + ·) (s.footprint_set _ _))
    exact (keeps_lift _).bind (fun _ => (keeps_lift _).bind fun _ => (keeps_lift _).bind fun _ =>
      (hset _ _).bind fun _ => keeps_reserve _) h journal
  case h_3 ref =>
    have hset : ∀ i value, (Heap.onContent ref (modifyGet (·.set i value))).Keeps
        (Course written) := fun i value =>
      Heap.keeps_onContent (by decide) ref (fun _ => rfl) fun s =>
        Nat.le_of_eq (congrArg (recordSize + ·) (s.footprint_set _ _))
    exact (keeps_lift _).bind (fun _ => (keeps_lift _).bind fun _ =>
      (hset _ _).bind fun _ => keeps_reserve _) h journal
  case h_4 ref =>
    refine kept_lift_bind fun key hkey => kept_of_sound fun hs _ => kept_growth ?_
    refine Heap.revised_onContent hs (by decide) ref fun t => ?_
    exact ((current_of_key hkey).insert_ends value t journal).imp_done
      fun _ _ hupdated => table_updated hupdated
  case h_5 ref => exact absurd rfl (hne ref)
  case h_6 => exact (keeps_lift _).bind (fun _ => keeps_reserve _) h journal

/-- A stack or a vector grows, and then gets the memory that it needs. -/
lemma kept_pushContent {k : Kind} (plain : k ≠ .array ∧ k ≠ .string) (ref : Ref k)
    {f : k.Content → k.Content}
    (htable : ∀ content, (Object.ofContent k (f content)).table? = none) (h : Heap)
    (journal : Journal) :
    ((Heap.onContent ref (modify f) >>= fun _ => Heap.resize ref.id) h journal).Kept
      (Course written) h := by
  refine kept_of_sound fun hs _ => kept_growth (Heap.revised_onContent hs plain ref fun old => ?_)
  intro t ht
  rw [htable old] at ht
  cases ht

lemma keeps_push (container value : Value) : (push container value).Keeps (Course written) := by
  refine fun h journal => ?_
  rw [push, get_bind]
  split
  case h_1 ref =>
    exact (keeps_lift _).bind (fun _ => (keeps_lift _).bind fun _ =>
      (Heap.keeps_arrayPush ref _).bind fun _ => keeps_reserve _) h journal
  case h_2 ref =>
    exact kept_lift_bind fun _ _ => kept_pushContent (by decide) ref (fun _ => rfl) h journal
  case h_3 ref => exact kept_pushContent (by decide) ref (fun _ => rfl) h journal
  case h_4 => exact (keeps_lift _).bind (fun _ => keeps_reserve _) h journal

lemma keeps_popFrom (container : Value) : (popFrom container).Keeps (Course written) := by
  refine keeps_get.bind fun h => ?_
  split
  case h_1 ref => exact (Heap.keeps_arrayPop ref).bind fun _ => keeps_pure _
  case h_2 ref =>
    refine (Heap.keeps_onContent (by decide) ref (fun _ => rfl) fun s => ?_).bind
      fun _ => keeps_pure _
    exact Nat.le_of_eq (congrArg (recordSize + ·) s.footprint_pop)
  case h_3 ref =>
    refine Heap.keeps_onContent (by decide) ref (fun _ => rfl) fun s => ?_
    exact Nat.le_of_eq (congrArg (recordSize + ·) s.footprint_pop)
  case h_4 => exact keeps_lift _

lemma keeps_pop (container : Value) : (pop container).Keeps (Course written) := by
  refine (keeps_popFrom container).bind fun value => ?_
  cases value with
  | some value => exact keeps_pure value
  | none => exact keeps_get.bind fun _ => (keeps_lift _).bind fun _ => keeps_raise _

/-- Removing from a table needs no more memory. -/
lemma keeps_removeFrom (ref : Ref .table) (hash : UInt64) :
    (Heap.onContent ref (Table.remove hash)).Keeps (Course written) := by
  refine fun h journal => kept_of_sound fun hs _ => ?_
  cases hget : h.get? ref with
  | none =>
      unfold Heap.onContent Heap.take?
      rw [hget]
      trivial
  | some t =>
      have hends := t.remove_ends hash journal
      rw [Heap.onContent_apply hget]
      cases hrun : Table.remove hash t journal with
      | done value t' journal' =>
          refine .single (hs.change_put (by decide) hget (table_updated (.remove hrun)) ?_)
          exact Nat.le_of_eq (congrArg (recordSize + ·) (Table.footprint_remove hrun))
      | raised error t' journal' => exact (hends.of_raised hrun).elim
      | aborted fault => trivial

lemma keeps_remove (container index : Value) : (remove container index).Keeps (Course written) := by
  refine keeps_get.bind fun h => ?_
  split
  · exact (keeps_lift _).bind fun _ => (keeps_removeFrom _ _).bind fun _ => keeps_pure _
  · exact keeps_lift _

/-- The copy of an object that keeps nothing in memory. -/
lemma kept_allocCopy {k : Kind} (plain : k ≠ .array ∧ k ≠ .string) {ref : Ref k} {content : k.Content}
    (hread : h.read ref = .ok content) (journal : Journal) :
    (Heap.alloc k content h journal).Kept (Course written) h := by
  have hvalid : (Object.ofContent k content).Valid := by
    cases k with
    | array => exact absurd rfl plain.1
    | string => exact absurd rfl plain.2
    | _ => trivial
  refine Heap.alloc_kept hvalid (fun t ht => .inr ⟨ref.id, ?_⟩) journal
  obtain ⟨entry, hfind, hobject⟩ := Heap.get?_eq_some_iff.mp (Heap.get?_of_read hread)
  rw [Heap.table?_of_find? hfind, hobject, ht]

lemma keeps_copy (value : Value) : (copy value).Keeps (Course written) := by
  refine fun h journal => ?_
  rw [copy, get_bind]
  split
  case h_1 ref =>
    exact (keeps_lift _).bind (fun text => (Heap.keeps_insertText text false).bind
      fun _ => keeps_pure _) h journal
  case h_2 ref =>
    exact (Heap.keeps_copyArray ref).bind (fun _ => keeps_pure _) h journal
  case h_3 ref | h_4 ref | h_5 ref =>
    exact kept_lift_bind fun _ hread => kept_bind (kept_allocCopy (by decide) hread journal)
      fun _ h₁ j₁ _ => keeps_pure _ h₁ j₁
  case h_6 => exact keeps_lift _ h journal

end Container

end ScriptMachine
