import ScriptMachine.Proofs.Heap.Collection

/-!
What stays as it is when a heap changes.

* `Changed`, `Fresh`: one object changed, or one was added, in a heap in which no
  collection is under way; `Sound.alloc` adds an object of any kind;
* `Intact.get?`, `Intact.elementAt`: what is read from an object that is as it was;
* `Spares l`: all objects of the kind `l` are as they were, and there are no
  others of this kind;
* `within_insert`, `within_onContent` and their like: no operation touches
  objects of another kind than its own (`Steady`);
* `Elsewhere l`: the operations that concern other kinds than `l`;
* `Primitive`, `Respects`: the operations of which instructions consist, and the
  relations that all of them respect.
-/

namespace ScriptMachine

open Memory

/-- A content that keeps nothing in memory. -/
def Content.Bare : (k : Kind) → k.Content → Prop
  | .array, record => record.length = 0
  | .string, _ => False
  | _, _ => True

/-- How many bytes of its block an object uses at most. -/
def Object.payload : Object → Nat
  | .array a => a.capacity * a.kind.width
  | .string s => s.capacity
  | _ => 0

namespace Heap

variable {h h₁ h₂ : Heap} {k l : Kind} {a c : ObjectId} {entry : Entry}

lemma kind_eq {x : k.Content} {y : l.Content} (hk : h.get? (⟨a⟩ : Ref k) = some x)
    (hl : h.get? (⟨a⟩ : Ref l) = some y) : k = l := by
  obtain ⟨entry, hfind, hobject⟩ := get?_eq_some_iff.mp hk
  obtain ⟨entry', hfind', hobject'⟩ := get?_eq_some_iff.mp hl
  obtain rfl := Option.some.inj (hfind.symm.trans hfind')
  rw [← Object.kind_ofContent x, ← hobject, hobject', Object.kind_ofContent]

lemma contains_of_get? {ref : Ref k} {x : k.Content} (hx : h.get? ref = some x) :
    h.contains ref.id = true := by
  obtain ⟨entry, hfind, -⟩ := get?_eq_some_iff.mp hx
  exact Option.isSome_of_eq_some hfind

/-! ### Objects that stay as they are -/

lemma OnlyAt.intact (ho : OnlyAt c h h₁) (hne : a ≠ c) : Intact a h h₁ :=
  ⟨congrArg (Option.map Entry.object) (ho.others a hne), fun entry => ho.cells a entry hne⟩

lemma Resized.intact (hr : Resized h h₁ a) : Intact a h h₁ := by
  cases hfind : h.find? a with
  | none =>
      refine ⟨?_, fun entry hentry => ?_⟩
      · rw [object?, object?, hfind, hr.missing hfind]
      · cases hfind.symm.trans hentry
  | some entry =>
      obtain ⟨block, -, -, hfound, hcells⟩ := hr.found entry hfind
      refine ⟨?_, fun entry' hentry => ?_⟩
      · rw [object?, object?, hfind, hfound]
        rfl
      · obtain rfl := Option.some.inj (hfind.symm.trans hentry)
        exact hcells

lemma Intact.get? (hi : Intact a h h₁) : h₁.get? (⟨a⟩ : Ref k) = h.get? (⟨a⟩ : Ref k) :=
  congrArg (Option.bind · _) hi.object

lemma Intact.contains (hi : Intact a h h₁) : h₁.contains a = h.contains a := by
  have hsome := congrArg Option.isSome hi.object
  rwa [object?, object?, Option.isSome_map, Option.isSome_map] at hsome

/-- What a collection does not free is as it was. -/
lemma Collected.intact_of_not_freed {roots freed : List ObjectId}
    (hc : Collected roots freed h h₁) (hkept : a ∉ freed) : Intact a h h₁ := by
  by_cases hk : Kept h roots a
  · exact hc.intact hk
  · -- neither kept nor freed: there was nothing
    have hdropped := hc.dropped a hk
    have hnone : h.find? a = none := by
      by_contra hsome
      refine hkept ((hc.freed a).mpr ⟨Option.isSome_iff_ne_none.mpr hsome, ?_⟩)
      rw [Heap.contains, hdropped]
      rfl
    refine ⟨?_, fun entry hfind => ?_⟩
    · rw [object?, object?, hnone, hdropped]
    · cases hnone.symm.trans hfind

/-- The elements of an array that stays as it is. -/
lemma Intact.elementAt (hi : Intact a h h₁) (hs : h.Sound) {r : ArrayRecord}
    (hr : h.get? (⟨a⟩ : Ref .array) = some r) {i : Nat} (hlt : i < r.length) :
    h₁.elementAt a r.kind i = h.elementAt a r.kind i := by
  obtain ⟨entry, hfind, hobject⟩ := get?_eq_some_iff.mp hr
  refine elementAt_congr fun n _ hn => hi.cells entry hfind n (Nat.lt_of_lt_of_le hn ?_)
  exact hs.element_le hfind hobject (Nat.lt_of_lt_of_le hlt (hs.length_le hfind hobject).1)

/-- The cells of a string that stays as it is. -/
lemma Intact.cell (hi : Intact a h h₁) (hs : h.Sound) {r : StringRecord}
    (hr : h.get? (⟨a⟩ : Ref .string) = some r) {i : Nat} (hlt : i < r.capacity) :
    h₁.cell a i = h.cell a i := by
  obtain ⟨entry, hfind, hobject⟩ := get?_eq_some_iff.mp hr
  have hfits := hs.fits _ _ hfind
  rw [hobject] at hfits
  exact hi.cells entry hfind i (Nat.lt_of_lt_of_le hlt hfits.2)

/-! ### Objects that change -/

lemma Idle.onlyAt (hi : h.Idle) (ho : OnlyAt a h h₁)
    (hm : ∀ entry, h₁.find? a = some entry → entry.marked = false) : h₁.Idle := by
  refine ⟨fun id entry hfind => ?_, ho.gray.trans hi.gray⟩
  by_cases heq : id = a
  · exact hm entry (heq ▸ hfind)
  · exact hi.unmarked id entry ((ho.others id heq).symm.trans hfind)

/-- One object has changed; it is not marked. -/
structure Changed (a : ObjectId) (h h₁ : Heap) : Prop where
  sound : h₁.Sound
  only : OnlyAt a h h₁
  unmarked : ∀ entry, h₁.find? a = some entry → entry.marked = false

/-- A change that keeps the mark of an object. -/
lemma Idle.changed (hi : h.Idle) (hs : h₁.Sound) (ho : OnlyAt a h h₁)
    (hfind : h.find? a = some entry) {entry₁ : Entry} (hfind₁ : h₁.find? a = some entry₁)
    (hmarked : entry₁.marked = entry.marked) : Changed a h h₁ := by
  refine ⟨hs, ho, fun entry' hentry => ?_⟩
  obtain rfl := Option.some.inj (hfind₁.symm.trans hentry)
  exact hmarked.trans (hi.unmarked a entry hfind)

/-- An object of kind `k` has changed: all contents of other kinds are as they
were. -/
lemma OnlyAt.get?_of_ne (ho : OnlyAt a h h₁) {y z : k.Content}
    (hy : h.get? (⟨a⟩ : Ref k) = some y) (hz : h₁.get? (⟨a⟩ : Ref k) = some z) (hl : l ≠ k)
    (ref : Ref l) : h₁.get? ref = h.get? ref := by
  by_cases heq : ref.id = a
  · subst heq
    have hnone : ∀ {g : Heap} {u : k.Content}, g.get? (⟨ref.id⟩ : Ref k) = some u →
        g.get? ref = none := by
      intro g u hu
      cases hget : g.get? ref with
      | none => rfl
      | some v => exact absurd (Heap.kind_eq hget hu) hl
    rw [hnone hy, hnone hz]
  · exact (ho.intact heq).get?

/-! ### New objects -/

/-- An object was added that is not marked. -/
structure Fresh (a : ObjectId) (h h₁ : Heap) : Prop extends Changed a h h₁ where
  fresh : h.find? a = none

lemma Fresh.ne (hf : Fresh a h h₁) (hlive : h.contains c = true) : c ≠ a := by
  rintro rfl
  rw [contains, hf.fresh] at hlive
  cases hlive

lemma Fresh.intact (hf : Fresh a h h₁) (hlive : h.contains c = true) : Intact c h h₁ :=
  hf.only.intact (hf.ne hlive)

lemma Added.isFresh {object : Object} {pinned : Bool} {contents : Nat → UInt8}
    (ha : Added h h₁ object pinned contents a) : Fresh a h h₁ := by
  obtain ⟨block, -, hfind, -⟩ := ha.found
  refine ⟨⟨ha.sound, ha.only, fun entry hentry => ?_⟩, ha.fresh⟩
  obtain rfl := Option.some.inj (hfind.symm.trans hentry)
  rfl

lemma Added.get? {content : k.Content} {pinned : Bool} {contents : Nat → UInt8}
    (ha : Added h h₁ (.ofContent k content) pinned contents a) :
    h₁.get? (⟨a⟩ : Ref k) = some content := by
  obtain ⟨block, -, hfind, -⟩ := ha.found
  exact get?_eq_some_iff.mpr ⟨_, hfind, rfl⟩

/-- Adding an object of any kind. -/
lemma Sound.alloc (hs : h.Sound) {content : k.Content} (hb : Content.Bare k content)
    (journal : Journal) :
    (Heap.alloc k content h journal).Served h.memory.Granted (h.hasRoom = false)
      (insertRefusal (Object.ofContent k content).size) h
      fun r h₁ => Fresh r.id h h₁ ∧ h₁.get? r = some content := by
  have hv : (Object.ofContent k content).Valid := by
    cases k with
    | array => exact Nat.le_trans (Nat.le_of_eq hb) (Nat.zero_le _)
    | string => exact hb.elim
    | _ => trivial
  refine (hs.toTidy.insert _ false journal).bind fun id h₁ journal₁ hi => ⟨_, _, _, rfl, ?_⟩
  exact ⟨(hi.added hs hv).isFresh, (hi.added hs hv).get?⟩

/-! ### Kinds that are spared -/

/-- The objects of a kind are the same as before, and so is what they keep in
memory. Nothing is freed. -/
structure Spares (l : Kind) (h h₁ : Heap) : Prop where
  aged : Aged [] h h₁
  get? : ∀ ref : Ref l, h₁.get? ref = h.get? ref
  cells : ∀ (ref : Ref l) (content : l.Content), h.get? ref = some content →
    ∀ i < (Object.ofContent l content).payload, h₁.cell ref.id i = h.cell ref.id i

lemma Sound.payload_le (hs : h.Sound) (hfind : h.find? a = some entry) :
    entry.object.payload ≤ entry.block.size := by
  have hfits := hs.fits a entry hfind
  revert hfits
  cases entry.object with
  | array a => exact And.right
  | string s => exact And.right
  | _ => exact fun _ => Nat.zero_le _

lemma Spares.of_intact (hs : h.Sound) (haged : Aged [] h h₁)
    (hget : ∀ ref : Ref l, h₁.get? ref = h.get? ref)
    (hintact : ∀ ref : Ref l, (h.get? ref).isSome → Intact ref.id h h₁) : Spares l h h₁ := by
  refine ⟨haged, hget, fun ref content hcontent i hi => ?_⟩
  obtain ⟨entry, hfind, hobject⟩ := get?_eq_some_iff.mp hcontent
  have hle := hs.payload_le hfind
  rw [hobject] at hle
  exact (hintact ref (Option.isSome_of_eq_some hcontent)).cells entry hfind i (by omega)

/-- One object has changed, which was and is of another kind. -/
lemma OnlyAt.spares (ho : OnlyAt a h h₁) (hs : h.Sound) (hn : h.get? (⟨a⟩ : Ref l) = none)
    (hn₁ : h₁.get? (⟨a⟩ : Ref l) = none) : Spares l h h₁ := by
  refine .of_intact hs ho.aged (fun ref => ?_) fun ref hsome => ho.intact ?_
  · by_cases heq : ref.id = a
    · subst heq
      exact hn₁.trans hn.symm
    · exact (ho.intact heq).get?
  · rintro rfl
    rw [show h.get? ref = none from hn] at hsome
    cases hsome

/-- The heap stays sound and idle, and objects of kind `l` as they were. -/
def Steady (l : Kind) (h h₁ : Heap) : Prop :=
  h.Sound → h.Idle → h₁.Sound ∧ h₁.Idle ∧ Spares l h h₁

instance : IsPreorder Heap (Steady l) where
  refl h hs hi := ⟨hs, hi, aged_of_slots rfl, fun _ => rfl, fun _ _ _ _ _ => rfl⟩
  trans h h₁ h₂ ht ht₁ hs hi := by
    obtain ⟨hs₁, hi₁, hp⟩ := ht hs hi
    obtain ⟨hs₂, hi₂, hp₁⟩ := ht₁ hs₁ hi₁
    refine ⟨hs₂, hi₂, hp.aged.trans hp₁.aged, fun ref => (hp₁.get? ref).trans (hp.get? ref),
      fun ref content hget i hlt => ?_⟩
    exact (hp₁.cells ref content ((hp.get? ref).trans hget) i hlt).trans
      (hp.cells ref content hget i hlt)

lemma get?_of_kind_ne (hfind : h.find? a = some entry) (hne : entry.object.kind ≠ l) :
    h.get? (⟨a⟩ : Ref l) = none := by
  cases hget : h.get? (⟨a⟩ : Ref l) with
  | none => rfl
  | some content =>
      obtain ⟨entry', hfind', hobject⟩ := get?_eq_some_iff.mp hget
      obtain rfl := Option.some.inj (hfind.symm.trans hfind')
      exact absurd (hobject ▸ Object.kind_ofContent content) hne

lemma Fresh.steady (hf : Fresh a h h₁) (hfind₁ : h₁.find? a = some entry)
    (hne : entry.object.kind ≠ l) : Steady l h h₁ := by
  intro hs hi
  refine ⟨hf.sound, hi.onlyAt hf.only hf.unmarked, hf.only.spares hs ?_ ?_⟩
  · rw [Heap.get?, object?, hf.fresh]
    rfl
  · exact get?_of_kind_ne hfind₁ hne

lemma Altered.changed {ref : Ref k} (ha : Altered ref h h₁) (hi : h.Idle) :
    Changed ref.id h h₁ := by
  obtain ⟨entry, -, block, new, hfind, -, hfind₁⟩ := ha.found
  exact hi.changed ha.sound ha.only hfind hfind₁ rfl

lemma Altered.idle {ref : Ref k} (ha : Altered ref h h₁) (hi : h.Idle) : h₁.Idle :=
  hi.onlyAt ha.only (ha.changed hi).unmarked

lemma get?_put {ref : Ref k} {old new : k.Content} (hget : h.get? ref = some old) :
    (h.put ref new).get? ref = some new := by
  obtain ⟨entry, hfind, -⟩ := get?_eq_some_iff.mp hget
  refine get?_eq_some_iff.mpr ⟨{ entry with object := .ofContent k new }, ?_, rfl⟩
  rw [find?_put, if_pos rfl, hfind]
  rfl

lemma get?_put_of_ne {ref other : Ref k} {new : k.Content} (hne : other ≠ ref) :
    (h.put ref new).get? other = h.get? other :=
  (onlyAt_put.intact fun heq => hne (congrArg Ref.mk heq)).get?

lemma Altered.steady {ref : Ref k} (ha : Altered ref h h₁) (hne : k ≠ l) : Steady l h h₁ := by
  intro hs hi
  obtain ⟨entry, old, block, new, hfind, hobject, hfind₁⟩ := ha.found
  refine ⟨ha.sound, ha.idle hi, ha.only.spares hs ?_ ?_⟩
  · refine get?_of_kind_ne hfind ?_
    rwa [hobject, Object.kind_ofContent]
  · refine get?_of_kind_ne hfind₁ ?_
    rwa [Object.kind_ofContent]

/-! ### Actions on one kind -/

/-- A property of the heaps that an action leaves may use that the heap before
was sound and idle. -/
lemma within_steady {α : Type} {action : Action Heap α}
    (hends : ∀ h journal, h.Sound → h.Idle → (action h journal).Ends (fun _ h₁ => Steady l h h₁)
      (fun _ h₁ => Steady l h h₁) fun _ => True) : action.Within (Steady l) := by
  refine fun h journal => Outcome.ends_of_imp fun hs => Outcome.ends_of_imp fun hi => ?_
  exact (hends h journal hs hi).imp (fun _ _ hsteady => hsteady hs hi)
    (fun _ _ hsteady => hsteady hs hi) fun _ => id

lemma within_of_alters {α : Type} {action : Action Heap α} {ref : Ref k} (hne : k ≠ l)
    (ha : ∀ h journal, h.Sound → Alters ref h (action h journal)) : action.Within (Steady l) :=
  within_steady fun h journal hs _ => (ha h journal hs).imp (fun _ _ ha => ha.steady hne)
    (fun _ _ ha => ha.steady hne) fun _ => id

lemma Added.steady {object : Object} {pinned : Bool} {contents : Nat → UInt8}
    (ha : Added h h₁ object pinned contents a) (hne : object.kind ≠ l) : Steady l h h₁ := by
  obtain ⟨block, -, hfind, -⟩ := ha.found
  exact ha.isFresh.steady hfind hne

lemma within_insert {object : Object} (hv : object.Valid) (hne : object.kind ≠ l)
    (pinned : Bool) : (Heap.insert object pinned).Within (Steady l) :=
  within_steady fun h journal hs _ => (hs.toTidy.insert object pinned journal).leaves
    (refl_of (Steady l) h) fun _ _ hi => (hi.added hs hv).steady hne

lemma within_alloc {content : k.Content} (hv : (Object.ofContent k content).Valid) (hne : k ≠ l) :
    (Heap.alloc k content).Within (Steady l) := by
  refine Action.Within.bind (within_insert hv ?_ false) fun _ => Action.within_pure _
  rwa [Object.kind_ofContent]

lemma within_insertText (hne : .string ≠ l) (text : String) (pinned : Bool) :
    (Heap.insertText text pinned).Within (Steady l) :=
  within_steady fun h journal hs _ => (hs.insertText text pinned journal).leaves
    (refl_of (Steady l) h) fun _ _ ha => ha.steady hne

lemma within_onContent {α : Type} (hne : k ≠ l) (plain : k ≠ .array ∧ k ≠ .string) (ref : Ref k)
    (action : Action k.Content α) : (Heap.onContent ref action).Within (Steady l) :=
  within_of_alters hne fun _ _ hs => hs.alters_onContent ref action plain

lemma within_setChar (hne : .string ≠ l) (ref : Ref .string) (index : Nat) (byte : UInt8) :
    (Heap.setChar ref index byte).Within (Steady l) :=
  within_of_alters hne fun _ _ hs => hs.alters_setChar ref index byte

lemma within_arraySet (hne : .array ≠ l) (ref : Ref .array) (index : Nat) (scalar : Scalar) :
    (Heap.arraySet ref index scalar).Within (Steady l) :=
  within_of_alters hne fun _ _ hs => hs.alters_arraySet ref index scalar

lemma within_arrayPush (hne : .array ≠ l) (ref : Ref .array) (scalar : Scalar) :
    (Heap.arrayPush ref scalar).Within (Steady l) :=
  within_of_alters hne fun _ _ hs => hs.alters_arrayPush ref scalar

lemma within_arrayPop (hne : .array ≠ l) (ref : Ref .array) :
    (Heap.arrayPop ref).Within (Steady l) :=
  within_of_alters hne fun _ _ hs => hs.alters_arrayPop ref

lemma within_copyArray (hne : .array ≠ l) (ref : Ref .array) :
    (Heap.copyArray ref).Within (Steady l) := by
  refine within_steady fun h journal hs _ => ?_
  cases hget : h.get? ref with
  | none =>
      unfold Heap.copyArray
      rw [Action.get_bind, read_of_none hget]
      exact trivial
  | some record =>
      obtain ⟨entry, hfind, hobject⟩ := get?_eq_some_iff.mp hget
      refine (hs.copyArray hfind hobject journal).leaves (refl_of (Steady l) h) ?_
      rintro copy h₁ ⟨contents, ha, -⟩
      exact ha.steady hne

/-- More memory for an object spares all kinds, its own included. -/
lemma Resized.steady (hr : Resized h h₁ a) (hsound : h₁.Sound) : Steady l h h₁ := by
  intro hs hi
  have hintact : ∀ c, Intact c h h₁ := by
    intro c
    by_cases heq : c = a
    · exact heq ▸ hr.intact
    · exact hr.only.intact heq
  refine ⟨hsound, hi.onlyAt hr.only fun entry₁ hfind₁ => ?_,
    .of_intact hs hr.only.aged (fun ref => (hintact ref.id).get?) fun ref _ => hintact ref.id⟩
  cases hfind : h.find? a with
  | none => cases (hr.missing hfind).symm.trans hfind₁
  | some entry =>
      obtain ⟨block, -, -, hfound, -⟩ := hr.found entry hfind
      obtain rfl := Option.some.inj (hfound.symm.trans hfind₁)
      exact hi.unmarked a entry hfind

lemma within_resize (id : ObjectId) : (Heap.resize id).Within (Steady l) := by
  refine within_steady fun h journal hs _ => ?_
  have hserved := hs.toTidy.resize id journal
  have hleaves : LeavesSound (Heap.resize id h journal) := hs.leaves_resize id
  cases hrun : Heap.resize id h journal with
  | done value h₁ journal₁ => exact (hserved.of_done hrun).1.steady (hleaves.of_done hrun)
  | raised error h₁ journal₁ => exact (hserved.of_raised hrun).1 ▸ refl_of (Steady l) h
  | aborted fault => trivial

/-- Which pages are to be had is of no concern to any object. -/
lemma within_grant (grants : Nat → Bool) : (Heap.grant grants).Within (Steady l) :=
  Action.within_modify fun _ hs hi => ⟨hs.granting grants, ⟨hi.unmarked, hi.gray⟩,
    aged_of_slots rfl, fun _ => rfl, fun _ _ _ _ _ => rfl⟩

/-- The operations on a heap that concern no object of the kind `l`. The system may change its
mind about pages between them. -/
inductive Elsewhere (l : Kind) : {α : Type} → Action Heap α → Prop
  | insert (object : Object) (pinned : Bool) (valid : object.Valid) (other : object.kind ≠ l) :
      Elsewhere l (Heap.insert object pinned)
  | insertText (text : String) (pinned : Bool) (other : .string ≠ l) :
      Elsewhere l (Heap.insertText text pinned)
  | onContent {k : Kind} {α : Type} (ref : Ref k) (action : Action k.Content α)
      (plain : k ≠ .array ∧ k ≠ .string) (other : k ≠ l) : Elsewhere l (Heap.onContent ref action)
  | setChar (ref : Ref .string) (index : Nat) (byte : UInt8) (other : .string ≠ l) :
      Elsewhere l (Heap.setChar ref index byte)
  | arraySet (ref : Ref .array) (index : Nat) (scalar : Scalar) (other : .array ≠ l) :
      Elsewhere l (Heap.arraySet ref index scalar)
  | arrayPush (ref : Ref .array) (scalar : Scalar) (other : .array ≠ l) :
      Elsewhere l (Heap.arrayPush ref scalar)
  | arrayPop (ref : Ref .array) (other : .array ≠ l) : Elsewhere l (Heap.arrayPop ref)
  | copyArray (ref : Ref .array) (other : .array ≠ l) : Elsewhere l (Heap.copyArray ref)
  | resize (id : ObjectId) : Elsewhere l (Heap.resize id)
  | grant (grants : Nat → Bool) : Elsewhere l (Heap.grant grants)

lemma Elsewhere.within {α : Type} {action : Action Heap α} (he : Elsewhere l action) :
    action.Within (Steady l) := by
  cases he with
  | insert object pinned valid other => exact within_insert valid other pinned
  | insertText text pinned other => exact within_insertText other text pinned
  | onContent ref action plain other => exact within_onContent other plain ref action
  | setChar ref index byte other => exact within_setChar other ref index byte
  | arraySet ref index scalar other => exact within_arraySet other ref index scalar
  | arrayPush ref scalar other => exact within_arrayPush other ref scalar
  | arrayPop ref other => exact within_arrayPop other ref
  | copyArray ref other => exact within_copyArray other ref
  | resize id => exact within_resize id
  | grant grants => exact within_grant grants

/-! ### What instructions consist of -/

/-- Puts another content in the place of one that has to be there. -/
def replace (ref : Ref k) (f : k.Content → k.Content) : Action Heap Unit := do
  let content ← (← get).read ref
  modify (·.put ref (f content))

lemma Sound.alters_replace (hs : h.Sound) (plain : k ≠ .array ∧ k ≠ .string) (ref : Ref k)
    (f : k.Content → k.Content) (journal : Journal) : Alters ref h (replace ref f h journal) := by
  rw [replace, Action.get_bind]
  cases hget : h.get? ref with
  | none =>
      rw [read_of_none hget]
      trivial
  | some content =>
      rw [read_of_get? hget]
      exact hs.altered_put hget fun _ _ => object_ofContent_fits plain _ _

/-- The operations on a heap of which instructions consist, but for those on upvalues
and for stores into strings. None makes or changes a function, none changes a closure. -/
inductive Primitive : {α : Type} → Action Heap α → Prop
  | alloc {k : Kind} (content : k.Content) (valid : (Object.ofContent k content).Valid)
      (other : k ≠ .upvalue ∧ k ≠ .function) : Primitive (Heap.alloc k content)
  | insertText (text : String) (pinned : Bool) : Primitive (Heap.insertText text pinned)
  | onContent {k : Kind} {α : Type} (ref : Ref k) (action : Action k.Content α)
      (plain : k ≠ .array ∧ k ≠ .string) (other : k ≠ .upvalue ∧ k ≠ .function ∧ k ≠ .closure) :
      Primitive (Heap.onContent ref action)
  | replace {k : Kind} (ref : Ref k) (f : k.Content → k.Content)
      (plain : k ≠ .array ∧ k ≠ .string) (other : k ≠ .upvalue ∧ k ≠ .function ∧ k ≠ .closure) :
      Primitive (Heap.replace ref f)
  | arraySet (ref : Ref .array) (index : Nat) (scalar : Scalar) :
      Primitive (Heap.arraySet ref index scalar)
  | arrayPush (ref : Ref .array) (scalar : Scalar) : Primitive (Heap.arrayPush ref scalar)
  | arrayPop (ref : Ref .array) : Primitive (Heap.arrayPop ref)
  | copyArray (ref : Ref .array) : Primitive (Heap.copyArray ref)
  | resize (id : ObjectId) : Primitive (Heap.resize id)

/-- A relation between the heaps before and after each of these operations. -/
class Respects (H : Heap → Heap → Prop) : Prop extends IsPreorder Heap H where
  primitive : ∀ {α : Type} {action : Action Heap α}, Primitive action → action.Within H

/-- None of them concerns an upvalue. -/
instance : Respects (Steady .upvalue) where
  primitive hp := by
    cases hp with
    | alloc content valid other => exact within_alloc valid other.1
    | insertText text pinned => exact within_insertText (by decide) text pinned
    | onContent ref action plain other => exact within_onContent other.1 plain ref action
    | replace ref f plain other =>
        exact within_of_alters other.1 fun _ journal hs => hs.alters_replace plain ref f journal
    | arraySet ref index scalar => exact within_arraySet (by decide) ref index scalar
    | arrayPush ref scalar => exact within_arrayPush (by decide) ref scalar
    | arrayPop ref => exact within_arrayPop (by decide) ref
    | copyArray ref => exact within_copyArray (by decide) ref
    | resize id => exact within_resize id

end Heap

end ScriptMachine
