import ScriptMachine.Proofs.Machine.Keys

/-!
Functions are never changed.

No instruction makes or changes a function, and none changes a string but the store
into that string. None changes the kind of the elements of an array. A function that is
live after a step was therefore live before, with the same code and the same constants,
the strings among its constants are as they were, and the arrays are of the same type. A
collection that keeps the function keeps them as well, since they are its children.

* `Heap.Upholds`: functions and their constants are as before;
* `Heap.Steadfast`: the same, for heaps on which later operations can rely;
* `ends_step`: a step upholds functions, and writes only the string it stores into.
-/

namespace ScriptMachine

open ScriptMachine.Action

/-- A scalar is among the constants of a function. -/
def Function.Mentions (f : Function) (scalar : Scalar) : Prop :=
  .scalar scalar ∈ f.chunk.constants.toList

instance (f : Function) (scalar : Scalar) : Decidable (f.Mentions scalar) :=
  inferInstanceAs (Decidable (_ ∈ _))

/-- Past the last constant there is null. -/
lemma Function.mentions_of_constant (f : Function) (i : Nat) (scalar : Scalar)
    (hvalue : (f.chunk.constants.get? i).getD .null = .scalar scalar) :
    scalar = .null ∨ f.Mentions scalar := by
  cases hget : f.chunk.constants.get? i with
  | none =>
      rw [hget] at hvalue
      cases hvalue
      exact .inl rfl
  | some value =>
      rw [hget] at hvalue
      obtain rfl : value = _ := hvalue
      exact .inr (Array.mem_toList_iff.mpr (Array.mem_of_getElem? hget))

namespace Heap

variable {h h₁ h₂ : Heap} {k : Kind} {id : ObjectId} {written : ObjectId → Prop} {text : Ref .string}
  {record : StringRecord} {roots freed : List ObjectId}

/-! ### Strings that stay -/

/-- A string stays if it is there, with the same bytes. -/
def KeepsText (text : Ref .string) (h h₁ : Heap) : Prop :=
  ∀ record, h.get? text = some record → h₁.get? text = some record ∧
    ∀ i < record.capacity, h₁.cell text.id i = h.cell text.id i

lemma KeepsText.refl (text : Ref .string) (h : Heap) : KeepsText text h h :=
  fun _ hget => ⟨hget, fun _ _ => rfl⟩

lemma KeepsText.trans (hk : KeepsText text h h₁) (hk₁ : KeepsText text h₁ h₂) :
    KeepsText text h h₂ := by
  intro record hget
  obtain ⟨hget₁, hcells⟩ := hk record hget
  obtain ⟨hget₂, hcells₁⟩ := hk₁ record hget₁
  exact ⟨hget₂, fun i hi => (hcells₁ i hi).trans (hcells i hi)⟩

/-- A string that is as it was. -/
lemma keepsText_of_intact (hs : h.Sound)
    (hintact : ∀ record, h.get? text = some record → Intact text.id h h₁) : KeepsText text h h₁ :=
  fun record hget => ⟨(hintact record hget).get?.trans hget, fun _ hi =>
    (hintact record hget).cell hs hget hi⟩

/-- An array that is as it was. -/
lemma keepsKind_of_intact {array : Ref .array}
    (hintact : ∀ record, h.get? array = some record → Intact array.id h h₁) : KeepsKind array h h₁ :=
  fun record hget => ⟨record, (hintact record hget).get?.trans hget, rfl⟩

/-- It has the same text. -/
lemma KeepsText.text_eq (hk : KeepsText text h h₁) (hs : h.Sound) (hs₁ : h₁.Sound)
    (hget : h.get? text = some record) : h₁.text text = h.text text := by
  obtain ⟨hget₁, hcells⟩ := hk record hget
  obtain ⟨entry, hfind, hobject⟩ := get?_eq_some_iff.mp hget
  have hfits := hs.fits _ _ hfind
  rw [hobject] at hfits
  have hsame : (List.range record.length).map (h₁.cell text.id) =
      (List.range record.length).map (h.cell text.id) :=
    List.map_congr_left fun i hi => hcells i (Nat.lt_of_lt_of_le (List.mem_range.mp hi) hfits.1)
  rw [Heap.text, Heap.text, hs.textBytes hget, hs₁.textBytes hget₁, hsame]

/-! ### Functions that stay -/

/-- A heap between two operations: it is sound, no collection is under way, and
only strings are pinned. -/
structure Settled (h : Heap) : Prop where
  sound : h.Sound
  idle : h.Idle
  pins : h.PinsStrings

/-- The constants of a function are as they were: strings unless they may be written, and
arrays as far as their type goes. -/
structure SameConstants (written : ObjectId → Prop) (f : Function) (h h₁ : Heap) : Prop where
  text : ∀ text, f.Mentions (.str text) → ¬ written text.id → KeepsText text h h₁
  array : ∀ array, f.Mentions (.array array) → KeepsKind array h h₁

lemma SameConstants.refl (f : Function) (h : Heap) : SameConstants written f h h :=
  ⟨fun text _ _ => .refl text h, fun _ _ => keepsKind_of_get? rfl⟩

lemma SameConstants.trans {f : Function} (hp : SameConstants written f h h₁) (hp₁ : SameConstants written f h₁ h₂) :
    SameConstants written f h h₂ where
  text text hmentions hnot := (hp.text text hmentions hnot).trans (hp₁.text text hmentions hnot)
  array array hmentions := (hp.array array hmentions).trans (hp₁.array array hmentions)

lemma SameConstants.mono {written' : ObjectId → Prop} {f : Function} (hp : SameConstants written f h h₁)
    (hw : ∀ text, f.Mentions (.str text) → ¬ written' text.id → ¬ written text.id) :
    SameConstants written' f h h₁ :=
  ⟨fun text hmentions hnot => hp.text text hmentions (hw text hmentions hnot), hp.array⟩

/-- Constants that are as they were. -/
lemma sameConstants_of_intact {f : Function} (hs : h.Sound)
    (hintact : ∀ id, (∃ scalar, f.Mentions scalar ∧ (Value.scalar scalar).id? = some id) →
      h.contains id = true → Intact id h h₁) : SameConstants written f h h₁ where
  text text hmentions _ := keepsText_of_intact hs fun _ hget =>
    hintact text.id ⟨_, hmentions, rfl⟩ (contains_of_get? hget)
  array array hmentions := keepsKind_of_intact fun _ hget =>
    hintact array.id ⟨_, hmentions, rfl⟩ (contains_of_get? hget)

/-- The functions that there are were there before, with the same constants. -/
structure Upholds (written : ObjectId → Prop) (h h₁ : Heap) : Prop where
  function : ∀ (ref : Ref .function) (f : Function), h₁.get? ref = some f → h.get? ref = some f
  constants : ∀ (ref : Ref .function) (f : Function), h₁.get? ref = some f → SameConstants written f h h₁

/-- Functions are upheld in a heap on which later operations can rely. -/
def Steadfast (written : ObjectId → Prop) (h h₁ : Heap) : Prop :=
  h.Settled → h₁.Settled ∧ Upholds written h h₁

instance : IsPreorder Heap (Steadfast written) where
  refl h hs := ⟨hs, fun _ _ hf => hf, fun _ f _ => .refl f h⟩
  trans h h₁ h₂ ht ht₁ hs := by
    obtain ⟨hs₁, hu⟩ := ht hs
    obtain ⟨hs₂, hu₁⟩ := ht₁ hs₁
    refine ⟨hs₂, fun ref f hf => hu.function ref f (hu₁.function ref f hf), fun ref f hf => ?_⟩
    exact (hu.constants ref f (hu₁.function ref f hf)).trans (hu₁.constants ref f hf)

lemma Steadfast.mono {written' : ObjectId → Prop} (ht : Steadfast written h h₁)
    (hw : ∀ id, written id → written' id) : Steadfast written' h h₁ := by
  intro hs
  obtain ⟨hs₁, hu⟩ := ht hs
  exact ⟨hs₁, hu.function, fun ref f hf =>
    (hu.constants ref f hf).mono fun _ _ hnot hwritten => hnot (hw _ hwritten)⟩

/-! ### Changes -/

lemma PinsStrings.onlyAt (hp : h.PinsStrings) (ho : OnlyAt id h h₁)
    (hpin : ∀ entry, h₁.find? id = some entry → entry.pinned = true → entry.object.kind = .string) :
    h₁.PinsStrings := by
  intro other entry hfind hpinned
  by_cases hsame : other = id
  · subst hsame
    exact hpin entry hfind hpinned
  · exact hp other entry ((ho.others other hsame).symm.trans hfind) hpinned

/-- An object is added that is not a function. -/
lemma Added.steadfast {object : Object} {pinned : Bool} {contents : Nat → UInt8}
    (ha : Added h h₁ object pinned contents id) (hpin : pinned = true → object.kind = .string)
    (hother : object.kind ≠ .function) : Steadfast written h h₁ := by
  intro hs
  obtain ⟨block, -, hfind, -⟩ := ha.found
  refine ⟨⟨ha.sound, hs.idle.onlyAt ha.only ha.isFresh.unmarked, hs.pins.onlyAt ha.only ?_⟩,
    fun ref f hf => ?_, fun ref f hf => ?_⟩
  · intro entry hentry
    obtain rfl := Option.some.inj (hfind.symm.trans hentry)
    exact hpin
  · have hne : ref.id ≠ id := by
      rintro rfl
      cases (get?_of_kind_ne hfind hother).symm.trans hf
    exact (ha.only.intact hne).get?.symm.trans hf
  · exact sameConstants_of_intact hs.sound fun _ _ hlive => ha.isFresh.intact hlive

/-- An object gets another content that is not a function. If it is a string, it may be
written, and if it is an array, its elements are of the same kind. -/
lemma Altered.steadfast {ref : Ref k} (ha : Altered ref h h₁) (hother : k ≠ .function)
    (hwritten : k = .string → written ref.id) (hkind : k = .array → KeepsKind ⟨ref.id⟩ h h₁) :
    Steadfast written h h₁ := by
  intro hs
  obtain ⟨entry, old, block, new, hfind, hobject, hfind₁⟩ := ha.found
  have hget : h.get? ref = some old := get?_eq_some_iff.mpr ⟨entry, hfind, hobject⟩
  have hget₁ : h₁.get? ref = some new := get?_eq_some_iff.mpr ⟨_, hfind₁, rfl⟩
  refine ⟨⟨ha.sound, ha.idle hs.idle, hs.pins.onlyAt ha.only ?_⟩, fun function f hf => ?_,
    fun function f hf => ⟨fun text _ hnot => ?_, fun array _ => ?_⟩⟩
  · intro entry₁ hentry hpinned
    obtain rfl := Option.some.inj (hfind₁.symm.trans hentry)
    have hkind := hs.pins _ entry hfind hpinned
    rw [hobject, Object.kind_ofContent] at hkind
    exact (Object.kind_ofContent new).trans hkind
  · exact (ha.only.get?_of_ne hget hget₁ hother.symm function).symm.trans hf
  · refine keepsText_of_intact hs.sound fun record htext => ha.only.intact fun hsame => hnot ?_
    have htext : h.get? (⟨ref.id⟩ : Ref .string) = some record := hsame ▸ htext
    exact hsame ▸ hwritten (kind_eq hget htext)
  · obtain ⟨other⟩ := array
    by_cases hsame : other = ref.id
    · subst hsame
      exact fun record harray => hkind (kind_eq hget harray) record harray
    · exact keepsKind_of_intact fun _ _ => ha.only.intact hsame

/-- More memory is reserved for an object. -/
lemma Resized.steadfast (hr : Resized h h₁ id) (hs₁ : h₁.Sound) : Steadfast written h h₁ := by
  intro hs
  have hintact : ∀ other, Intact other h h₁ := by
    intro other
    by_cases hsame : other = id
    · exact hsame ▸ hr.intact
    · exact hr.only.intact hsame
  obtain ⟨-, hidle, -⟩ := hr.steady (l := .function) hs₁ hs.sound hs.idle
  refine ⟨⟨hs₁, hidle, hs.pins.onlyAt hr.only fun entry₁ hentry hpinned => ?_⟩,
    fun ref f hf => (hintact ref.id).get?.symm.trans hf,
    fun ref f hf => sameConstants_of_intact hs.sound fun other _ _ => hintact other⟩
  cases hfind : h.find? id with
  | none => cases (hr.missing hfind).symm.trans hentry
  | some entry =>
      obtain ⟨block, -, -, hfound, -⟩ := hr.found entry hfind
      obtain rfl := Option.some.inj (hfound.symm.trans hentry)
      exact hs.pins id entry hfind hpinned

/-- A function that a collection leaves was reached, since it is not pinned. So its
constants were reached. -/
lemma Collected.steadfast (hc : Collected roots freed h h₁) : Steadfast written h h₁ := by
  intro hs
  refine ⟨⟨hc.sound, hc.idle, hc.pinsStrings hs.pins⟩, fun ref f hf => ?_,
    fun ref f hf => sameConstants_of_intact hs.sound ?_⟩
  · obtain ⟨entry, hfind, hobject⟩ := get?_eq_some_iff.mp hf
    exact get?_eq_some_iff.mpr ⟨entry, (hc.find?_of_some hfind).2, hobject⟩
  · rintro id ⟨scalar, hmentions, hchild⟩ hlive
    refine hc.intact (.inr ?_)
    obtain ⟨entry, hfind₁, hobject⟩ := get?_eq_some_iff.mp hf
    obtain ⟨hkept, hfind⟩ := hc.find?_of_some hfind₁
    have hreach : Reach h roots ref.id := by
      refine hkept.resolve_left ?_
      rintro ⟨entry', hfind', hpinned⟩
      cases hfind.symm.trans hfind'
      have hkind := hs.pins _ entry hfind hpinned
      rw [hobject, Object.kind_ofContent] at hkind
      cases hkind
    refine hreach.child ?_ hlive
    simp only [children, hfind, hobject]
    exact List.mem_filterMap.mpr ⟨_, hmentions, hchild⟩

/-! ### Operations -/

/-- An operation may use that the heap before was settled. -/
lemma within_steadfast {α : Type} {action : Action Heap α}
    (hends : ∀ h journal, h.Sound → (action h journal).Ends (fun _ h₁ => Steadfast written h h₁)
      (fun _ h₁ => Steadfast written h h₁) fun _ => True) : action.Within (Steadfast written) := by
  refine fun h journal => Outcome.ends_of_imp fun hs => ?_
  exact (hends h journal hs.sound).imp (fun _ _ ht => ht hs) (fun _ _ ht => ht hs) fun _ => id

lemma steadfast_of_alters {α : Type} {action : Action Heap α} {ref : Ref k}
    (hother : k ≠ .function) (harray : k ≠ .array) (hwritten : k = .string → written ref.id)
    (ha : ∀ h journal, h.Sound → Alters ref h (action h journal)) :
    action.Within (Steadfast written) := by
  have halters : ∀ {h h₁ : Heap}, Altered ref h h₁ → Steadfast written h h₁ := fun ha =>
    ha.steadfast hother hwritten fun heq => absurd heq harray
  exact within_steadfast fun h journal hs => (ha h journal hs).imp (fun _ _ => halters)
    (fun _ _ => halters) fun _ => id

lemma steadfast_of_refits {α : Type} {action : Action Heap α} {ref : Ref .array}
    (ha : ∀ h journal, h.Sound → Refits ref h (action h journal)) :
    action.Within (Steadfast written) := by
  have hrefits : ∀ {h h₁ : Heap}, Fitted ref h h₁ → Steadfast written h h₁ := fun hf =>
    hf.toAltered.steadfast (by decide) nofun fun _ => hf.kind
  exact within_steadfast fun h journal hs => (ha h journal hs).imp (fun _ _ => hrefits)
    (fun _ _ => hrefits) fun _ => id

lemma steadfast_alloc {content : k.Content} (hv : (Object.ofContent k content).Valid)
    (hother : k ≠ .function) : (alloc k content).Within (Steadfast written) := by
  refine Within.bind (within_steadfast fun h journal hs => (hs.toTidy.insert _ false journal).leaves
    (refl_of (Steadfast written) h) fun _ _ hi => ?_) fun _ => within_pure _
  refine (hi.added hs hv).steadfast nofun ?_
  rwa [Object.kind_ofContent]

lemma steadfast_resize (id : ObjectId) : (resize id).Within (Steadfast written) := by
  refine within_steadfast fun h journal hs => ?_
  have hleaves : LeavesSound (resize id h journal) := hs.leaves_resize id
  cases hrun : resize id h journal with
  | done value h₁ journal₁ =>
      exact ((hs.toTidy.resize id journal).of_done hrun).1.steadfast (hleaves.of_done hrun)
  | raised error h₁ journal₁ =>
      exact ((hs.toTidy.resize id journal).of_raised hrun).1 ▸ refl_of (Steadfast written) h
  | aborted fault => trivial

instance : Respects (Steadfast written) where
  primitive hp := by
    cases hp with
    | alloc content valid other => exact steadfast_alloc valid other.2
    | insertText text pinned =>
        exact within_steadfast fun h journal hs => (hs.insertText text pinned journal).leaves
          (refl_of (Steadfast written) h) fun _ _ ha => ha.steadfast (fun _ => rfl) nofun
    | onContent ref action plain other =>
        exact steadfast_of_alters other.2.1 plain.1 (fun heq => absurd heq plain.2) fun _ _ hs =>
          hs.alters_onContent ref action plain
    | replace ref f plain other =>
        exact steadfast_of_alters other.2.1 plain.1 (fun heq => absurd heq plain.2) fun _ journal hs =>
          hs.alters_replace plain ref f journal
    | arraySet ref index scalar =>
        exact steadfast_of_refits fun _ _ hs => hs.refits_arraySet ref index scalar
    | arrayPush ref scalar =>
        exact steadfast_of_refits fun _ _ hs => hs.refits_arrayPush ref scalar
    | arrayPop ref =>
        exact steadfast_of_refits fun _ _ hs => hs.refits_arrayPop ref
    | copyArray ref =>
        refine within_steadfast fun h journal hs => ?_
        cases hget : h.get? ref with
        | none =>
            rw [copyArray, get_bind, read_of_none hget]
            trivial
        | some record =>
            obtain ⟨entry, hfind, hobject⟩ := get?_eq_some_iff.mp hget
            refine (hs.copyArray hfind hobject journal).leaves (refl_of (Steadfast written) h) ?_
            rintro copy h₁ ⟨contents, ha, -⟩
            exact ha.steadfast nofun nofun
    | resize id => exact steadfast_resize id

/-- A store into a string that may be written. -/
lemma steadfast_setChar {ref : Ref .string} (hwritten : written ref.id) (index : Nat) (byte : UInt8) :
    (setChar ref index byte).Within (Steadfast written) :=
  steadfast_of_alters (by decide) (by decide) (fun _ => hwritten) fun _ _ hs =>
    hs.alters_setChar ref index byte

/-- An upvalue gets another content. -/
lemma steadfast_putUpvalue {ref : Ref .upvalue} {old : Upvalue} (hget : h.get? ref = some old)
    (new : Upvalue) : Steadfast written h (h.put ref new) :=
  fun hs => (hs.sound.altered_put hget fun _ _ => trivial).steadfast (by decide) nofun nofun hs

end Heap

/-- The host supplies functions that leave functions and their constants alone. -/
def Host.Faithful (host : Host) : Prop := host.Respects (Heap.Steadfast fun _ => False)

lemma Host.builtin_faithful (now : Double) : (builtin now).Faithful := fun _ _ => within_abort _

namespace Machine

variable {m m₁ : Machine} {written : ObjectId → Prop} {host : Host}

/-- Functions are upheld in the heap. -/
def Steadfast (written : ObjectId → Prop) (m m₁ : Machine) : Prop :=
  Heap.Steadfast written m.heap m₁.heap

instance : IsPreorder Machine (Steadfast written) where
  refl m := refl_of (Heap.Steadfast written) m.heap
  trans _ _ _ := trans_of (Heap.Steadfast written)

lemma onHeaps_steadfast {h h₁ : Heap} (hs : Heap.Steadfast written h h₁) :
    OnHeaps (Steadfast written) h h₁ := by
  rintro m rfl
  exact hs

lemma steadfast_collectGarbage : collectGarbage.Within (Steadfast written) := by
  refine fun m journal => Outcome.ends_of_imp fun hs => ?_
  refine (collectGarbage_ends hs.sound hs.idle journal).imp ?_ (fun _ _ h => h.elim) fun _ _ => trivial
  rintro _ _ ⟨heap, freed, threshold, hc, rfl⟩
  exact hc.steadfast hs

lemma steadfast_capture (slot : Nat) : (capture slot).Within (Steadfast written) := by
  have halloc : (Heap.alloc .upvalue (.opened slot)).Within (Heap.Steadfast written) :=
    Heap.steadfast_alloc trivial (by decide)
  refine within_capture_of ((within_collectIfNeeded_of steadfast_collectGarbage).bind fun _ =>
    within_heap (halloc.imp fun _ _ => onHeaps_steadfast)) fun m _ => ?_
  exact refl_of (Heap.Steadfast written) m.heap

instance : Tracks (Steadfast written) where
  of_eq heap _ := by
    rw [Steadfast, heap]
    exact refl_of (Heap.Steadfast written) _
  primitive hp := (Heap.Respects.primitive hp : Within (Heap.Steadfast written) _).imp fun _ _ =>
    onHeaps_steadfast
  collectGarbage := steadfast_collectGarbage
  capture := steadfast_capture

/-! ### Upvalues -/

lemma steadfast_setUpvalue : setUpvalue.Within (Steadfast written) :=
  within_setUpvalue_of fun hget new => onHeaps_steadfast (Heap.steadfast_putUpvalue hget new)

lemma steadfast_closeUpvalues (slot : Nat) : (closeUpvalues slot).Within (Steadfast written) := by
  refine within_closeUpvalues_of (fun hget new =>
    onHeaps_steadfast (Heap.steadfast_putUpvalue hget new)) (fun m _ => ?_) slot
  exact refl_of (Heap.Steadfast written) m.heap

lemma steadfast_closeTop : closeTop.Within (Steadfast written) :=
  within_closeTop_of steadfast_closeUpvalues

lemma steadfast_ret : ret.Within (Steadfast written) := by
  refine within_pop.bind fun result => within_get.bind fun m =>
    (steadfast_closeUpvalues _).bind fun _ => (within_truncate _).bind fun _ =>
      within_get.bind fun m' => ?_
  split
  · refine Within.bind (within_modify fun _ => ?_) fun _ => (within_push result).bind fun _ =>
      within_pure _
    exact of_run _ _ _ _ _
  · exact within_pure _

lemma steadfast_reset : reset.Within (Steadfast written) :=
  (steadfast_closeUpvalues 0).bind fun _ => within_modify fun _ => Tracks.of_eq rfl rfl

/-! ### Steps -/

/-- The next instruction stores into a string. -/
def WritesText (m : Machine) (id : ObjectId) : Prop :=
  m.nextOpcode? = some .setIndex ∧ m.stack.peek? 2 = some (.scalar (.str ⟨id⟩))

/-- A step upholds functions, and writes only the string that it stores into. -/
lemma ends_step (hhost : host.Faithful) (m : Machine) (journal : Journal) :
    (step host m journal).Ends (fun _ m₁ => Steadfast m.WritesText m m₁)
      (fun _ m₁ => Steadfast m.WritesText m m₁) fun _ => True := by
  have hrespects : host.Respects (OnHeaps (Steadfast m.WritesText)) := fun number arguments =>
    (hhost number arguments).imp fun _ _ hs => onHeaps_steadfast (hs.mono fun _ => False.elim)
  refine step_ends (fun _ journal => ?_) (fun op _ hop journal => ?_) journal
  · exact steadfast_ret (m.movedTo (m.frame.ip + 1)) journal
  · by_cases hindex : op = .setIndex
    · subst hindex
      refine setIndex_ends (m := m.movedTo (m.frame.ip + 1)) (M := Steadfast m.WritesText)
        (fun ref i byte hpeek => ?_) journal
      exact (Heap.steadfast_setChar ⟨hop, hpeek⟩ i byte).imp fun _ _ => onHeaps_steadfast
    · by_cases hclose : op = .closeUpvalue
      · subst hclose
        exact steadfast_closeTop (m.movedTo (m.frame.ip + 1)) journal
      · by_cases hupvalue : op = .setUpvalue
        · subst hupvalue
          exact steadfast_setUpvalue (m.movedTo (m.frame.ip + 1)) journal
        · exact within_execute hrespects op hclose hupvalue hindex (m.movedTo (m.frame.ip + 1)) journal

end Machine

end ScriptMachine
