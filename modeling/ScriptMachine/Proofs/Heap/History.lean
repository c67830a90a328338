import ScriptMachine.Proofs.Heap.Array
import ScriptMachine.Proofs.Heap.Sweep

/-!
The heaps that come about by operations on them.

`Heap.Public` lists what a client can do to a heap; `Heap.History` holds of the
heaps that begin empty and go through such operations, those that raise an error
included. All of them are sound (`History.sound`). An operation on one object
changes no other, and this one keeps its kind (`Heap.Altered`); operations on
strings and arrays see to it that there is room for them (`Heap.Fitted`).
-/

namespace ScriptMachine

open Memory

namespace Heap

variable {h h' : Heap} {α : Type} {journal : Journal}

/-- The operations on a heap. The contents of strings and arrays are changed by
operations of their own, those of all other objects in any way. Between two of them the
system may begin to refuse pages that it handed out before. -/
inductive Public : {α : Type} → Action Heap α → Prop
  | insert (object : Object) (pinned : Bool) (valid : object.Valid) :
      Public (Heap.insert object pinned)
  | insertText (text : String) (pinned : Bool) : Public (Heap.insertText text pinned)
  | onContent {k : Kind} {α : Type} (ref : Ref k) (action : Action k.Content α)
      (plain : k ≠ .array ∧ k ≠ .string) : Public (Heap.onContent ref action)
  | setChar (ref : Ref .string) (index : Nat) (byte : UInt8) : Public (Heap.setChar ref index byte)
  | arraySet (ref : Ref .array) (index : Nat) (scalar : Scalar) :
      Public (Heap.arraySet ref index scalar)
  | arrayPush (ref : Ref .array) (scalar : Scalar) : Public (Heap.arrayPush ref scalar)
  | arrayPop (ref : Ref .array) : Public (Heap.arrayPop ref)
  | copyArray (ref : Ref .array) : Public (Heap.copyArray ref)
  | resize (id : ObjectId) : Public (Heap.resize id)
  | mark (id : ObjectId) : Public (modify (·.mark id) : Action Heap Unit)
  | trace : Public (modify Heap.trace : Action Heap Unit)
  | sweep : Public Heap.sweep
  | grant (grants : Nat → Bool) : Public (Heap.grant grants)

/-- The heaps that a client can come to. -/
inductive History : Heap → Prop
  | create {pageSize : Nat} {grants : Nat → Bool} {h : Heap}
      (created : Heap.create pageSize grants = .ok h) : History h
  | done {h h' : Heap} {α : Type} {action : Action Heap α} {value : α} {journal' : Journal}
      (before : History h) (operation : Public action) (journal : Journal)
      (run : action h journal = .done value h' journal') : History h'
  | raised {h h' : Heap} {α : Type} {action : Action Heap α} {error : Error} {journal' : Journal}
      (before : History h) (operation : Public action) (journal : Journal)
      (run : action h journal = .raised error h' journal') : History h'

/-- An action leaves a sound heap, unless it is aborted. -/
def LeavesSound (outcome : Outcome Heap α) : Prop :=
  outcome.Ends (fun _ h' => h'.Sound) (fun _ h' => h'.Sound) fun _ => True

/-! ### Objects that change -/

/-- An object has got another content, and perhaps another block. -/
structure Altered {k : Kind} (ref : Ref k) (h h' : Heap) : Prop where
  sound : h'.Sound
  only : OnlyAt ref.id h h'
  found : ∃ entry old block new, h.find? ref.id = some entry ∧ entry.object = .ofContent k old ∧
    h'.find? ref.id = some { entry with block, object := .ofContent k new }

section Altered

variable {k : Kind} {ref : Ref k} {content : k.Content}

lemma Sound.altered (hs : h.Sound) (hget : h.get? ref = some content) : Altered ref h h := by
  obtain ⟨entry, hfind, hobject⟩ := get?_eq_some_iff.mp hget
  refine ⟨hs, .refl ref.id h, entry, content, entry.block, content, hfind, hobject, ?_⟩
  rw [hfind, ← hobject]

lemma Altered.trans {h'' : Heap} (ha : Altered ref h h') (ha' : Altered ref h' h'') :
    Altered ref h h'' := by
  obtain ⟨entry, old, block, new, hfind, hobject, hfind'⟩ := ha.found
  obtain ⟨entry', -, block', new', hentry, -, hfind''⟩ := ha'.found
  obtain rfl := Option.some.inj (hfind'.symm.trans hentry)
  exact ⟨ha'.sound, ha.only.trans ha'.only, entry, old, block', new', hfind, hobject, hfind''⟩

lemma Rewritten.altered (hr : Rewritten ref.id h h') (hs : h.Sound)
    (hget : h.get? ref = some content) : Altered ref h h' := by
  obtain ⟨entry, hfind, hobject⟩ := get?_eq_some_iff.mp hget
  refine ⟨hr.sound hs, hr.only, entry, content, entry.block, content, hfind, hobject, ?_⟩
  rw [hr.found, hfind, ← hobject]

/-- Another content that fits. -/
lemma Sound.altered_put (hs : h.Sound) (hget : h.get? ref = some content) {new : k.Content}
    (hfits : ∀ entry, h.find? ref.id = some entry → (Object.ofContent k new).Fits entry.block) :
    Altered ref h (h.put ref new) := by
  obtain ⟨entry, hfind, hobject⟩ := get?_eq_some_iff.mp hget
  refine ⟨hs.put hfits, onlyAt_put, entry, content, entry.block, new, hfind, hobject, ?_⟩
  rw [find?_put, if_pos rfl, hfind]
  rfl

/-- The block of an object is large enough for it. -/
def Roomy (h : Heap) (id : ObjectId) : Prop :=
  ∀ entry, h.find? id = some entry → entry.object.size ≤ entry.block.size

/-- An array that is there stays, with elements of the same kind. -/
def KeepsKind (array : Ref .array) (h h' : Heap) : Prop :=
  ∀ a, h.get? array = some a → ∃ b, h'.get? array = some b ∧ b.kind = a.kind

lemma keepsKind_of_get? {array : Ref .array} (heq : h'.get? array = h.get? array) :
    KeepsKind array h h' := fun a ha => ⟨a, heq.trans ha, rfl⟩

lemma KeepsKind.trans {array : Ref .array} {h'' : Heap} (hk : KeepsKind array h h')
    (hk' : KeepsKind array h' h'') : KeepsKind array h h'' := by
  intro a ha
  obtain ⟨b, hb, hkind⟩ := hk a ha
  obtain ⟨c, hc, hkind'⟩ := hk' b hb
  exact ⟨c, hc, hkind'.trans hkind⟩

lemma keepsKind_of_find? {array : Ref .array} {entry entry' : Entry} {a b : ArrayRecord}
    (hfind : h.find? array.id = some entry) (hobject : entry.object = .array a)
    (hfind' : h'.find? array.id = some entry') (hobject' : entry'.object = .array b)
    (hkind : b.kind = a.kind) : KeepsKind array h h' := by
  intro a' ha
  have hget : h.get? array = some a := get?_eq_some_iff.mpr ⟨entry, hfind, hobject⟩
  obtain rfl := Option.some.inj (hget.symm.trans ha)
  exact ⟨b, get?_eq_some_iff.mpr ⟨entry', hfind', hobject'⟩, hkind⟩

/-- An object has got another content, and room for it if it had room before. If it is an
array, its elements are of the same kind. -/
structure Fitted (ref : Ref k) (h h' : Heap) : Prop extends Altered ref h h' where
  room : h.Roomy ref.id → h'.Roomy ref.id
  kind : KeepsKind ⟨ref.id⟩ h h'

lemma Sound.fitted (hs : h.Sound) (hget : h.get? ref = some content) : Fitted ref h h :=
  ⟨hs.altered hget, id, keepsKind_of_get? rfl⟩

lemma Fitted.trans {h'' : Heap} (hf : Fitted ref h h') (hf' : Fitted ref h' h'') :
    Fitted ref h h'' :=
  ⟨hf.toAltered.trans hf'.toAltered, fun hroom => hf'.room (hf.room hroom), hf.kind.trans hf'.kind⟩

lemma Rewritten.fitted (hr : Rewritten ref.id h h') (hs : h.Sound)
    (hget : h.get? ref = some content) : Fitted ref h h' := by
  refine ⟨hr.altered hs hget, fun hroom entry hfind => hroom entry (hr.found.symm.trans hfind),
    keepsKind_of_get? ?_⟩
  rw [Heap.get?, Heap.get?, object?, object?, hr.found]

/-- The object in a block is replaced by one that is not larger. -/
lemma Roomy.replace {id : ObjectId} {entry : Entry} {object : Object} (hroom : h.Roomy id)
    (hfind : h.find? id = some entry) (hfind' : h'.find? id = some { entry with object := object })
    (hsize : object.size ≤ entry.object.size) : h'.Roomy id := by
  intro entry' hentry
  obtain rfl := Option.some.inj (hfind'.symm.trans hentry)
  exact Nat.le_trans hsize (hroom entry hfind)

/-- An action changes at most one object, unless it is aborted. -/
def Alters (ref : Ref k) (h : Heap) (outcome : Outcome Heap α) : Prop :=
  outcome.Ends (fun _ h' => Altered ref h h') (fun _ h' => Altered ref h h') fun _ => True

lemma Alters.leaves {outcome : Outcome Heap α} (ha : Alters ref h outcome) :
    LeavesSound outcome :=
  Outcome.Ends.imp ha (fun _ _ h => h.sound) (fun _ _ h => h.sound) fun _ h => h

/-- As `Alters`, and the object has room afterwards if it had room before. -/
def Refits (ref : Ref k) (h : Heap) (outcome : Outcome Heap α) : Prop :=
  outcome.Ends (fun _ h' => Fitted ref h h') (fun _ h' => Fitted ref h h') fun _ => True

lemma Refits.alters {outcome : Outcome Heap α} (hr : Refits ref h outcome) :
    Alters ref h outcome :=
  Outcome.Ends.imp hr (fun _ _ => Fitted.toAltered) (fun _ _ => Fitted.toAltered) fun _ => id

end Altered

lemma object_ofContent_fits {k : Kind} (plain : k ≠ .array ∧ k ≠ .string) (content : k.Content)
    (block : Block) : (Object.ofContent k content).Fits block := by
  cases k with
  | array => exact absurd rfl plain.1
  | string => exact absurd rfl plain.2
  | _ => trivial

lemma Sound.alters_onContent (hs : h.Sound) {k : Kind} (ref : Ref k) (action : Action k.Content α)
    (plain : k ≠ .array ∧ k ≠ .string) :
    Alters ref h (Heap.onContent ref action h journal) := by
  cases hget : h.get? ref with
  | none =>
      unfold Heap.onContent take?
      rw [hget]
      exact trivial
  | some content =>
      have hput : ∀ new : k.Content, Altered ref h (h.put ref new) :=
        fun new => hs.altered_put hget fun _ _ => object_ofContent_fits plain new _
      rw [onContent_apply hget]
      cases action content journal with
      | done value content journal => exact hput content
      | raised error content journal => exact hput content
      | aborted fault => exact trivial

/-- Storing a character, also past the length. -/
lemma Sound.refits_setChar (hs : h.Sound) (ref : Ref .string) (index : Nat) (byte : UInt8) :
    Refits ref h (Heap.setChar ref index byte h journal) := by
  cases hascii : isAscii byte with
  | false =>
      unfold Heap.setChar
      simp [hascii, Refits, Outcome.Ends]
  | true =>
    cases hget : h.get? ref with
    | none =>
        unfold Heap.setChar
        simp [hascii, read_of_none hget, Refits, Outcome.Ends]
    | some record =>
        obtain ⟨entry, hfind, hobject⟩ := get?_eq_some_iff.mp hget
        by_cases hle : record.capacity ≤ index
        · unfold Heap.setChar
          simp [hascii, read_of_get? hget, hle, Refits, Outcome.Ends, hs.fitted hget]
        · obtain ⟨h', hrun, hs', honly, -, hfind'⟩ :=
            hs.setChar hfind hobject hascii (Nat.lt_of_not_le hle) journal
          rw [hrun]
          refine ⟨⟨hs', honly, entry, record, entry.block, _, hfind, hobject, hfind'⟩, fun hroom => ?_,
            fun a ha => ?_⟩
          · refine hroom.replace hfind hfind' ?_
            rw [hobject]
            exact Nat.le_refl _
          · obtain ⟨entry', hentry, harray⟩ := get?_eq_some_iff.mp ha
            obtain rfl := Option.some.inj (hfind.symm.trans hentry)
            cases hobject.symm.trans harray

lemma Sound.alters_setChar (hs : h.Sound) (ref : Ref .string) (index : Nat) (byte : UInt8) :
    Alters ref h (Heap.setChar ref index byte h journal) := (hs.refits_setChar ref index byte).alters

lemma Sound.resized {id : ObjectId} (hs : h.Sound) (hr : Resized h h' id) : h'.Sound := by
  refine hr.sound (fun other entry _ hother => hs.fits other entry hother) fun entry hfind => ?_
  have hfits := hs.fits id entry hfind
  revert hfits
  cases entry.object with
  | array a => exact And.left
  | string s => exact And.left
  | _ => exact fun _ => trivial

lemma Sound.leaves_resize (hs : h.Sound) (id : ObjectId) :
    LeavesSound (Heap.resize id h journal) :=
  (hs.toTidy.resize id journal).leaves hs fun _ _ hr => hs.resized hr

/-! ### Arrays -/

variable {ref : Ref .array} {entry : Entry} {a : ArrayRecord}

/-- Whatever scalar is stored, only the memory of the array changes. -/
lemma Tidy.writeElement_ends (ht : h.Tidy) (hfind : h.find? ref.id = some entry) {kind : ArrayKind}
    {index : Nat} (hle : index * kind.width + kind.width ≤ entry.block.size) (scalar : Scalar)
    (journal : Journal) :
    Outcome.Ends (fun _ h' => Rewritten ref.id h h') (fun _ h' => Rewritten ref.id h h')
      (fun _ => True) (Heap.writeElement ref kind index scalar h journal) := by
  cases hencode : kind.encode scalar with
  | error failure =>
      unfold Heap.writeElement
      cases failure with
      | error error =>
          simp only [hencode, Action.lift_error, Action.raise_bind, Action.raise_apply]
          exact ht.rewritten ref.id
      | fault fault =>
          simp only [hencode, Action.lift_error, Action.abort_bind, Action.abort_apply]
          exact trivial
  | ok bytes =>
      rw [writeElement_of_ok hencode]
      have hlength := ArrayKind.length_encode_le hencode
      exact ht.rewritten_writeBytes hfind (by omega)

/-- Storing an element, also past the length. -/
lemma Sound.refits_arraySet (hs : h.Sound) (ref : Ref .array) (index : Nat) (scalar : Scalar) :
    Refits ref h (Heap.arraySet ref index scalar h journal) := by
  unfold Heap.arraySet
  rw [Action.get_bind]
  cases hget : h.get? ref with
  | none =>
      rw [read_of_none hget]
      exact trivial
  | some a =>
    obtain ⟨entry, hfind, hobject⟩ := get?_eq_some_iff.mp hget
    simp only [read_of_get? hget, Action.lift_ok, pure_bind]
    by_cases hle : a.capacity ≤ index
    · rw [if_pos hle]
      exact hs.fitted hget
    rw [if_neg hle]
    have hlength := (hs.length_le hfind hobject).1
    have hin : ∀ i < a.capacity, i * a.kind.width + a.kind.width ≤ entry.block.size :=
      fun i hi => hs.element_le hfind hobject hi
    have hzeros : ∀ i < a.length + (index - a.length),
        i * a.kind.width + a.kind.width ≤ entry.block.size := fun i hi => hin i (by omega)
    -- the gap is filled first; refused or not, the element then changes cells only
    obtain ⟨h₁, hrun₁, hr₁, -⟩ := hs.toTidy.writeZeros hfind (index - a.length) hzeros journal
    rw [Action.bind_of_done hrun₁]
    have hends := hr₁.tidy.writeElement_ends (hr₁.found.trans hfind) (hin index (by omega)) scalar
      journal
    refine Outcome.Ends.bind (hends.imp (fun _ _ hr => hr) (fun _ h₂ hr₂ => ?_) fun _ => id) ?_
    · exact (hr₁.trans hr₂).fitted hs hget
    · intro _ h₂ journal₂ hr₂
      have hf := (hr₁.trans hr₂).fitted hs hget
      have hfind₂ : h₂.find? ref.id = some entry := (hr₁.trans hr₂).found.trans hfind
      have hget₂ : h₂.get? ref = some a := get?_eq_some_iff.mpr ⟨entry, hfind₂, hobject⟩
      have hfind₃ : ∀ new : ArrayRecord, (h₂.put ref new).find? ref.id =
          some { entry with object := .array new } := by
        intro new
        rw [find?_put, if_pos rfl, hfind₂]
        rfl
      -- at last the record is put back with a length that covers the index
      refine hf.trans ⟨hf.sound.altered_put hget₂ fun entry' hentry => ?_, fun hroom => ?_, ?_⟩
      · obtain rfl := Option.some.inj (hfind₂.symm.trans hentry)
        have hfits := hs.fits _ _ hfind
        rw [hobject] at hfits
        exact ⟨Nat.max_le.mpr ⟨hlength, Nat.lt_of_not_le hle⟩, hfits.2⟩
      · refine hroom.replace hfind₂ (hfind₃ _) ?_
        rw [hobject]
        exact Nat.le_refl _
      · exact keepsKind_of_find? hfind₂ hobject (hfind₃ _) rfl rfl

lemma Sound.alters_arraySet (hs : h.Sound) (ref : Ref .array) (index : Nat) (scalar : Scalar) :
    Alters ref h (Heap.arraySet ref index scalar h journal) :=
  (hs.refits_arraySet ref index scalar).alters

/-- Appending an element, for which the block may grow. -/
lemma Sound.refits_arrayPush (hs : h.Sound) (ref : Ref .array) (scalar : Scalar) :
    Refits ref h (Heap.arrayPush ref scalar h journal) := by
  unfold Heap.arrayPush
  rw [Action.get_bind]
  cases hget : h.get? ref with
  | none =>
      rw [read_of_none hget]
      exact trivial
  | some a =>
    obtain ⟨entry, hfind, hobject⟩ := get?_eq_some_iff.mp hget
    simp only [read_of_get? hget, Action.lift_ok, pure_bind]
    have hset : ∀ {h₁ : Heap} {journal : Journal}, Fitted ref h h₁ → Refits ref h
        ((do let _ ← Heap.arraySet ref a.length scalar; pure () : Action Heap Unit) h₁ journal) := by
      intro h₁ journal hf
      refine Outcome.Ends.bind ((hf.sound.refits_arraySet ref a.length scalar).imp
        (fun _ _ => hf.trans) (fun _ _ => hf.trans) fun _ => id) fun _ _ _ hf' => hf'
    by_cases hfull : a.length = a.capacity
    · simp only [if_pos hfull, Action.modify_bind]
      refine Outcome.Ends.bind (Outcome.Ends.imp (hs.enlarge hfind hobject journal) (fun _ h₁ => ?_)
        (fun _ _ hraised => hraised.1 ▸ hs.fitted hget) fun _ _ => trivial) fun _ _ _ => hset
      rintro ⟨⟨hs₁, honly, block, hlarge, hfind₁, -⟩, -⟩
      refine ⟨⟨hs₁, honly, entry, a, block, _, hfind, hobject, hfind₁⟩, fun _ entry₁ hentry => ?_,
        keepsKind_of_find? hfind hobject hfind₁ rfl rfl⟩
      obtain rfl := Option.some.inj (hfind₁.symm.trans hentry)
      exact hlarge
    · simp only [if_neg hfull]
      exact hset (hs.fitted hget)

lemma Sound.alters_arrayPush (hs : h.Sound) (ref : Ref .array) (scalar : Scalar) :
    Alters ref h (Heap.arrayPush ref scalar h journal) := (hs.refits_arrayPush ref scalar).alters

lemma Sound.refits_arrayPop (hs : h.Sound) (ref : Ref .array) :
    Refits ref h (Heap.arrayPop ref h journal) := by
  cases hget : h.get? ref with
  | none =>
      unfold Heap.arrayPop
      rw [Action.get_bind, read_of_none hget]
      exact trivial
  | some a =>
    obtain ⟨entry, hfind, hobject⟩ := get?_eq_some_iff.mp hget
    by_cases hne : a.length = 0
    · unfold Heap.arrayPop
      simp only [Action.get_bind, read_of_get? hget, Action.lift_ok, pure_bind, if_pos hne]
      exact hs.fitted hget
    · obtain ⟨h', hrun, hs', honly, hfind', -⟩ := hs.arrayPop hfind hobject hne journal
      rw [hrun]
      refine ⟨⟨hs', honly, entry, a, entry.block, _, hfind, hobject, hfind'⟩, fun hroom => ?_,
        keepsKind_of_find? hfind hobject hfind' rfl rfl⟩
      refine hroom.replace hfind hfind' ?_
      rw [hobject]
      exact Nat.le_refl _

lemma Sound.alters_arrayPop (hs : h.Sound) (ref : Ref .array) :
    Alters ref h (Heap.arrayPop ref h journal) := (hs.refits_arrayPop ref).alters

lemma Sound.leaves_copyArray (hs : h.Sound) (ref : Ref .array) :
    LeavesSound (Heap.copyArray ref h journal) := by
  cases hget : h.get? ref with
  | none =>
      unfold Heap.copyArray
      rw [Action.get_bind, read_of_none hget]
      exact trivial
  | some a =>
    obtain ⟨entry, hfind, hobject⟩ := get?_eq_some_iff.mp hget
    refine (hs.copyArray hfind hobject journal).leaves hs ?_
    rintro copy h' ⟨contents, ha, -⟩
    exact ha.sound

/-! ### Collections -/

lemma remarked_markAll (h : Heap) (ids : List ObjectId) : Remarked h (h.markAll ids) := by
  induction ids generalizing h with
  | nil => exact .refl h
  | cons id ids ih => exact (remarked_mark h id).trans (ih (h.mark id))

lemma remarked_traceFor (fuel : Nat) (h : Heap) : Remarked h (h.traceFor fuel) := by
  induction fuel generalizing h with
  | zero => exact .refl h
  | succ fuel ih =>
      unfold traceFor
      split
      · exact .refl h
      · rename_i id gray _
        have hpop : Remarked h { h with gray := gray } := ⟨rfl, rfl, rfl⟩
        exact hpop.trans ((remarked_markAll _ _).trans (ih _))

/-- What a sweep leaves fits as before. -/
lemma Swept.sound {start stop : Nat} {freed : List ObjectId} (hw : Swept start stop freed h h')
    (hs : h.Sound) : h'.Sound := by
  refine ⟨hw.tidy, fun id entry hfind => ?_⟩
  obtain ⟨old, hold, hsame⟩ := hw.exists_find? hfind
  have hobject : old.object = entry.object := (congrArg Entry.object hsame :)
  have hblock : old.block = entry.block := (congrArg Entry.block hsame :)
  rw [← hobject, ← hblock]
  exact hs.fits id old hold

lemma Sound.leaves_sweep (hs : h.Sound) : LeavesSound (Heap.sweep h journal) := by
  unfold Heap.sweep
  rw [Action.get_bind]
  cases hgray : h.gray.isEmpty with
  | false => simp [LeavesSound, Outcome.Ends]
  | true =>
      obtain ⟨h', freed, journal', hrun, hw⟩ := hs.toTidy.sweepFrom h.slots.size 0 ⟨0, 0⟩ journal
      simp only [Bool.not_true, Bool.false_eq_true, if_false, hrun]
      exact hw.sound hs

/-! ### Histories -/

/-- No operation destroys the invariant. -/
lemma Public.leaves_sound {action : Action Heap α} (hp : Public action) (hs : h.Sound)
    (journal : Journal) : LeavesSound (action h journal) := by
  cases hp with
  | insert object pinned valid =>
      exact (hs.toTidy.insert object pinned journal).leaves hs fun _ _ hi =>
        (hi.added hs valid).sound
  | insertText text pinned =>
      exact (hs.insertText text pinned journal).leaves hs fun _ _ ha => ha.sound
  | onContent ref action plain => exact (hs.alters_onContent ref action plain).leaves
  | setChar ref index byte => exact (hs.alters_setChar ref index byte).leaves
  | arraySet ref index scalar => exact (hs.alters_arraySet ref index scalar).leaves
  | arrayPush ref scalar => exact (hs.alters_arrayPush ref scalar).leaves
  | arrayPop ref => exact (hs.alters_arrayPop ref).leaves
  | copyArray ref => exact hs.leaves_copyArray ref
  | resize id => exact hs.leaves_resize id
  | mark id => exact (remarked_mark h id).sound hs
  | trace => exact (remarked_traceFor _ h).sound hs
  | sweep => exact hs.leaves_sweep
  | grant grants => exact hs.granting grants

section Create

variable {pageSize : Nat} {grants : Nat → Bool}

lemma eq_of_create (hcreate : Heap.create pageSize grants = .ok h) :
    ∃ memory, Allocator.create pageSize grants = .ok memory ∧ h = ⟨memory, #[], [], []⟩ := by
  rw [Heap.create] at hcreate
  cases hmemory : Allocator.create pageSize grants with
  | error failure => rw [hmemory] at hcreate; cases hcreate
  | ok memory =>
      rw [hmemory] at hcreate
      exact ⟨memory, rfl, (Except.ok.inj hcreate).symm⟩

lemma find?_of_create (hcreate : Heap.create pageSize grants = .ok h) (id : ObjectId) :
    h.find? id = none := by
  obtain ⟨memory, -, rfl⟩ := eq_of_create hcreate
  rfl

lemma get?_of_create (hcreate : Heap.create pageSize grants = .ok h) {k : Kind} (ref : Ref k) :
    h.get? ref = none := by
  rw [Heap.get?, object?, find?_of_create hcreate]
  rfl

lemma sound_of_create (hcreate : Heap.create pageSize grants = .ok h) : h.Sound := by
  obtain ⟨memory, hmemory, rfl⟩ := eq_of_create hcreate
  refine ⟨⟨⟨Nat.zero_le _, fun i => by simp, .nil⟩, Allocator.tiled_of_create hmemory⟩, ?_⟩
  intro id entry hfind
  cases hfind

end Create

/-- Every heap that a client can come to is sound. -/
theorem History.sound (hh : h.History) : h.Sound := by
  induction hh with
  | create created => exact sound_of_create created
  | done _ operation journal run ih => exact (operation.leaves_sound ih journal).of_done run
  | raised _ operation journal run ih => exact (operation.leaves_sound ih journal).of_raised run

end Heap

end ScriptMachine
