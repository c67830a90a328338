import ScriptMachine.Proofs.Simulation.Heap

/-!
Actions on two heaps that stand for each other.

Each action of the heap ends alike on both sides: `Match` if the world stays as
it is, `Joined` if two new objects come into it.

* `alike_alloc`, `alike_insertText`, `alike_copyArray`: new objects;
* `Tied.put`, `alike_onContent`: another content of a plain object;
* `alike_setChar`, `Tied.arraySet`, `Tied.arrayPush`, `alike_arrayPop`: strings
  and arrays, whose memory changes;
* `alike_resize`: more memory for an object that has grown.
-/

namespace ScriptMachine

open Memory

/-- Kinds of objects that are replaced as a whole when they change. -/
def Kind.isPlain : Kind → Bool
  | .array | .closure | .function | .string => false
  | _ => true

/-- Contents that stand for each other while actions run on them. -/
def Content.Tied (w : World) (k : Kind) (c : k.Content) (j : Journal) (c' : k.Content)
    (j' : Journal) : Prop :=
  Content.Rel w k c c' ∧ (w.twin → j = j')

namespace Heap

variable {w w' : World} {h h₁ h' h₁' : Heap} {j j₁ j' j₁' : Journal} {k : Kind} {a b : ObjectId}
  {r r' : Ref k} {c c' : k.Content} {entry : Entry}

/-! ### Twins -/

/-- The journals of two heaps matter only if they are one. -/
lemma Tied.journal (ht : Tied w h j h' j') (hj : w.twin → j₁ = j₁') : Tied w h j₁ h' j₁' :=
  { ht with twin := fun htw => ⟨(ht.twin htw).1, hj htw, (ht.twin htw).2.2⟩ }

lemma Tied.ref_eq (ht : Tied w h j h' j') (htw : w.twin) (hr : r.Rel w r') : r = r' :=
  congrArg Ref.mk ((ht.twin htw).2.2 hr)

lemma Tied.scalar_eq (ht : Tied w h j h' j') (htw : w.twin) {s s' : Scalar} (hs : s.Rel w s') :
    s = s' :=
  ((hs.rename (ht.follows htw)).trans s.rename_id).symm

lemma Tied.content_eq (ht : Tied w h j h' j') (htw : w.twin) (hc : Content.Rel w k c c') :
    c = c' :=
  ((hc.rename (ht.follows htw)).trans (Content.rename_id c)).symm

/-! ### Requests for memory -/

/-- Two heaps with one more pair of related objects. What could be reached still
can. -/
def Joined (w : World) (h h' : Heap) (r : Ref k) (h₁ : Heap) (j₁ : Journal) (r' : Ref k)
    (h₁' : Heap) (j₁' : Journal) : Prop :=
  ∃ w', w ≤ w' ∧ Tied w' h₁ j₁ h₁' j₁' ∧ r.Rel w' r' ∧
    ∀ roots roots', Spans w h roots h' roots' → Spans w' h₁ (r.id :: roots) h₁' (r'.id :: roots')

/-- Two heaps that are as they were. -/
def Unmoved (w : World) (h h' h₁ : Heap) (j₁ : Journal) (h₁' : Heap) (j₁' : Journal) : Prop :=
  h₁ = h ∧ h₁' = h' ∧ (w.twin → j₁ = j₁')

lemma Unmoved.tied (hu : Unmoved w h h' h₁ j₁ h₁' j₁') (ht : Tied w h j h' j') :
    Tied w h₁ j₁ h₁' j₁' := by
  obtain ⟨rfl, rfl, hj⟩ := hu
  exact ht.journal hj

lemma sim_of_joined (ht : Tied w h j h' j') {o o' : Outcome Heap (Ref k)}
    (ho : Agree (Joined w h h') (Unmoved w h h') o o') : Sim Tied w (fun w' => Ref.Rel w') o o' :=
  ho.imp (fun _ _ _ _ _ _ ⟨w', hle, ht, hr, _⟩ => ⟨w', hle, ht, hr⟩)
    fun _ _ _ _ hu => ⟨w, w.le_refl, hu.tied ht⟩

/-- Two requests that add an object each. -/
lemma Tied.adding (ht : Tied w h j h' j') {o o' : Outcome Heap (Ref k)} {full full' : Prop}
    {refusal : Option Failure} {P P' : Ref k → Heap → Prop}
    (hs : o.Served h.memory.Granted full refusal h P)
    (hs' : o'.Served h'.memory.Granted full' refusal h' P')
    (hadd : ∀ r h₁ r' h₁', P r h₁ → P' r' h₁' →
      Fresh r.id h h₁ ∧ Fresh r'.id h' h₁' ∧ Pair w k h₁ r.id h₁' r'.id)
    (htwin : w.twin → o = o') : Agree (Joined w h h') (Unmoved w h h') o o' := by
  refine Agree.served hs hs' ht.granted htwin ?_ fun j₁ j₁' hj => ⟨rfl, rfl, hj⟩
  intro r h₁ j₁ r' h₁' j₁' hp hp' heq
  obtain ⟨hf, hf', hpair⟩ := hadd r h₁ r' h₁' hp hp'
  refine ⟨_, ht.le_extended hf hf', ht.add hf hf' hpair fun htw => ?_, .inr ⟨rfl, rfl, rfl⟩,
    fun roots roots' hspans => ht.spans_extended hf hf' hpair hspans⟩
  obtain ⟨rfl, rfl, rfl⟩ := heq htw
  exact ⟨rfl, rfl, rfl⟩

/-- Two requests that change related objects. -/
lemma Tied.changing (ht : Tied w h j h' j') (hr : w.rel k a b) (hk : k ≠ .closure)
    (hk' : k ≠ .function) {o o' : Outcome Heap Unit} {full full' : Prop}
    {refusal : Option Failure} {P P' : Heap → Prop}
    (hs : o.Served h.memory.Granted full refusal h fun _ => P)
    (hs' : o'.Served h'.memory.Granted full' refusal h' fun _ => P')
    (hchange : ∀ h₁ h₁', P h₁ → P' h₁' → Changed a h h₁ ∧ Changed b h' h₁' ∧ Pair w k h₁ a h₁' b)
    (htwin : w.twin → o = o') :
    Match (Tied w) Eq o o' := by
  refine Agree.served hs hs' ht.granted htwin ?_ fun j₁ j₁' hj => ht.journal hj
  intro _ h₁ j₁ _ h₁' j₁' hp hp' heq
  obtain ⟨hc, hc', hpair⟩ := hchange h₁ h₁' hp hp'
  exact ⟨ht.update hr hk hk' hc hc' hpair fun htw => (heq htw).2, rfl⟩

/-! ### New objects -/

lemma Tied.alloc (ht : Tied w h j h' j') (hc : Content.Rel w k c c') (hb : Content.Bare k c) :
    Agree (Joined w h h') (Unmoved w h h') (Heap.alloc k c h j) (Heap.alloc k c' h' j') := by
  have hb' : Content.Bare k c' := by
    cases k with
    | array => exact (show c = c' from hc) ▸ hb
    | string => exact hb.elim
    | _ => trivial
  have hs' := ht.sound.2.alloc hb' j'
  rw [← hc.size_eq] at hs'
  refine ht.adding (ht.sound.1.alloc hb j) hs' (fun r h₁ r' h₁' hr hr' => ?_) fun htw => ?_
  · refine ⟨hr.1, hr'.1, c, c', hr.2, hr'.2, hc, ?_⟩
    cases k with
    | array => exact fun i hi => absurd hi (by rw [show c.length = 0 from hb]; omega)
    | string => exact hb.elim
    | _ => trivial
  · obtain ⟨rfl, rfl, -⟩ := ht.twin htw
    rw [ht.content_eq htw hc]

lemma Tied.insertText (ht : Tied w h j h' j') (text : String) (pinned : Bool) :
    Agree (Joined w h h') (Unmoved w h h') (Heap.insertText text pinned h j)
      (Heap.insertText text pinned h' j') := by
  refine ht.adding (ht.sound.1.insertText text pinned j) (ht.sound.2.insertText text pinned j')
    (fun r h₁ r' h₁' ha ha' => ?_) fun htw => ?_
  · refine ⟨ha.isFresh, ha'.isFresh, _, _, ha.get? (k := .string), ha'.get? (k := .string), rfl,
      fun i hi => ?_⟩
    obtain ⟨block, hlarge, -, hcells⟩ := ha.found
    obtain ⟨block', hlarge', -, hcells'⟩ := ha'.found
    have hcap : (StringRecord.ofBytes text.toUTF8.toList).capacity ≤
        (Object.string (.ofBytes text.toUTF8.toList)).size := Nat.le_add_left _ _
    rw [hcells i (by omega), hcells' i (by omega)]
  · obtain ⟨rfl, rfl, -⟩ := ht.twin htw
    rfl

lemma Tied.copyArray (ht : Tied w h j h' j') {r r' : Ref .array} (hr : r.Rel w r') :
    Agree (Joined w h h') (Unmoved w h h') (Heap.copyArray r h j) (Heap.copyArray r' h' j') := by
  obtain ⟨x, x', hx, hx', hrel, hm⟩ := ht.pairs hr
  obtain rfl : x = x' := hrel
  obtain ⟨entry, hfind, hobject⟩ := get?_eq_some_iff.mp hx
  obtain ⟨entry', hfind', hobject'⟩ := get?_eq_some_iff.mp hx'
  refine ht.adding (ht.sound.1.copyArray hfind hobject j) (ht.sound.2.copyArray hfind' hobject' j')
    ?_ fun htw => ?_
  · rintro copy h₁ copy' h₁' ⟨contents, ha, helements⟩ ⟨contents', ha', helements'⟩
    refine ⟨ha.isFresh, ha'.isFresh, x, x, ha.get? (k := .array), ha'.get? (k := .array), rfl,
      fun i hi => ?_⟩
    rw [helements i hi, helements' i hi]
    exact hm i hi
  · obtain ⟨rfl, rfl, -⟩ := ht.twin htw
    rw [ht.ref_eq htw hr]

lemma alike_alloc (hc : Content.Rel w k c c') (hb : Content.Bare k c) :
    Alike Tied w (fun w₁ => Ref.Rel w₁) (Heap.alloc k c) (Heap.alloc k c') :=
  fun _ hle _ _ _ _ ht => sim_of_joined ht (ht.alloc (hc.le hle) hb)

lemma alike_insertText (text : String) (pinned : Bool) :
    Alike Tied w (fun w₁ => Ref.Rel w₁) (Heap.insertText text pinned)
      (Heap.insertText text pinned) :=
  fun _ _ _ _ _ _ ht => sim_of_joined ht (ht.insertText text pinned)

lemma alike_copyArray {r r' : Ref .array} (hr : r.Rel w r') :
    Alike Tied w (fun w₁ => Ref.Rel w₁) (Heap.copyArray r) (Heap.copyArray r') :=
  fun _ hle _ _ _ _ ht => sim_of_joined ht (ht.copyArray (hle.rel hr))

/-! ### Plain objects -/

/-- Two actions that are done and change related objects. -/
lemma Tied.done_changing {α β : Type} {V : α → β → Prop} {o : Outcome Heap α}
    {o' : Outcome Heap β} {v : α} {v' : β} (ht : Tied w h j h' j') (hr : w.rel k a b)
    (hk : k ≠ .closure) (hk' : k ≠ .function) (hrun : o = .done v h₁ j₁)
    (hrun' : o' = .done v' h₁' j₁') (hc : Changed a h h₁) (hc' : Changed b h' h₁')
    (hp : Pair w k h₁ a h₁' b) (hv : V v v') (htwin : w.twin → h₁ = h₁' ∧ j₁ = j₁') :
    Match (Tied w) V o o' := by
  rw [hrun, hrun']
  exact .done (ht.update hr hk hk' hc hc' hp htwin) hv

lemma changed_put (hs : h.Sound) (hi : h.Idle) (hk : k.isPlain = true) {x : k.Content}
    (hx : h.get? r = some x) (c : k.Content) : Changed r.id h (h.put r c) := by
  obtain ⟨entry, hfind, -⟩ := get?_eq_some_iff.mp hx
  have hfits : ∀ block, (Object.ofContent k c).Fits block := by
    intro block
    cases k with
    | array => cases hk
    | string => cases hk
    | _ => trivial
  have hfound : (h.put r c).find? r.id = some { entry with object := .ofContent k c } := by
    rw [find?_put, if_pos rfl, hfind]
    rfl
  exact hi.changed (hs.put fun entry _ => hfits entry.block) onlyAt_put hfind hfound rfl

/-- Another content of two plain objects. -/
lemma Tied.put (ht : Tied w h j h' j') (hr : r.Rel w r') (hk : k.isPlain = true)
    (hc : Content.Rel w k c c') (hj : w.twin → j₁ = j₁') :
    Tied w (h.put r c) j₁ (h'.put r' c') j₁' := by
  obtain ⟨x, x', hx, hx', -⟩ := ht.pairs hr
  have hmemory : SameMemory w (h.put r c) r.id (h'.put r' c') r'.id k c := by
    cases k with
    | array => cases hk
    | string => cases hk
    | _ => trivial
  refine ht.update hr ?_ ?_ (changed_put ht.sound.1 ht.idle.1 hk hx c)
    (changed_put ht.sound.2 ht.idle.2 hk hx' c')
    ⟨c, c', get?_put hx, get?_put hx', hc, hmemory⟩ fun htw => ⟨?_, hj htw⟩
  · rintro rfl
    cases hk
  · rintro rfl
    cases hk
  · obtain ⟨rfl, -, -⟩ := ht.twin htw
    rw [ht.ref_eq htw hr, ht.content_eq htw hc]

lemma alike_put (hr : r.Rel w r') (hk : k.isPlain = true) (hc : Content.Rel w k c c') :
    Alike Tied w (fun _ => Eq) (modify (·.put r c)) (modify (·.put r' c')) := by
  refine .of_match fun w₁ h j h' j' hle ht => .done ?_ rfl
  exact ht.put (hle.rel hr) hk (hc.le hle) fun htw => (ht.twin htw).2.1

/-- Actions on the contents of two plain objects. -/
lemma alike_onContent {α β : Type} {V : World → α → β → Prop} {action : Action k.Content α}
    {action' : Action k.Content β} (hr : r.Rel w r') (hk : k.isPlain = true)
    (haction : ∀ w₁ c j c' j', w ≤ w₁ → Content.Tied w₁ k c j c' j' →
      Match (Content.Tied w₁ k) (V w₁) (action c j) (action' c' j')) :
    Alike Tied w V (Heap.onContent r action) (Heap.onContent r' action') := by
  refine .of_match fun w₁ h j h' j' hle ht => ?_
  have hr₁ : r.Rel w₁ r' := hle.rel hr
  obtain ⟨x, x', hx, hx', hrel, -⟩ := ht.pairs hr₁
  rw [onContent_apply hx, onContent_apply hx']
  have hrun := haction w₁ x j x' j' hle ⟨hrel, fun htw => (ht.twin htw).2.1⟩
  generalize action x j = o, action' x' j' = o' at hrun
  cases hrun with
  | done related => exact .done (ht.put hr₁ hk related.1.1 related.1.2) related.2
  | raised error related => exact .raised error (ht.put hr₁ hk related.1 related.2)
  | aborted live => exact .aborted live
  | left exhausted => exact .left exhausted _
  | right _ exhausted => exact .right _ exhausted

/-! ### Strings -/

/-- What two actions of twins leave is the same. -/
lemma twin_done {α : Type} {first first' : Action Heap α} {v v' : α}
    (hrun : first h j = .done v h₁ j₁) (hrun' : first' h' j' = .done v' h₁' j₁')
    (heq : first h j = first' h' j') : h₁ = h₁' ∧ j₁ = j₁' := by
  rw [hrun, hrun'] at heq
  cases heq
  exact ⟨rfl, rfl⟩

/-- Storing a character in related strings. -/
lemma alike_setChar {r r' : Ref .string} (hr : r.Rel w r') (index : Nat) (byte : UInt8) :
    Alike Tied w (fun _ => Eq) (Heap.setChar r index byte) (Heap.setChar r' index byte) := by
  refine .of_match fun w₁ h j h' j' hle ht => ?_
  have hr₁ : r.Rel w₁ r' := hle.rel hr
  obtain ⟨x, x', hx, hx', hrel, hm⟩ := ht.pairs hr₁
  obtain rfl : x = x' := hrel
  have hwide : isAscii byte = false → ∀ (g : Heap) (i : Journal) (e : Ref .string),
      Heap.setChar e index byte g i = .aborted .wideCharacter := by
    intro hascii g i e
    rw [Heap.setChar, hascii]
    rfl
  have hpast : isAscii byte = true → x.capacity ≤ index → ∀ {g : Heap} {e : Ref .string},
      g.get? e = some x → ∀ i, Heap.setChar e index byte g i = .done false g i := by
    intro hascii hle g e hget i
    simp [Heap.setChar, hascii, read_of_get? hget, hle]
  cases hascii : isAscii byte with
  | false =>
      rw [hwide hascii, hwide hascii]
      exact .aborted (by decide)
  | true =>
      by_cases hlt : index < x.capacity
      · obtain ⟨entry, hfind, hobject⟩ := get?_eq_some_iff.mp hx
        obtain ⟨entry', hfind', hobject'⟩ := get?_eq_some_iff.mp hx'
        obtain ⟨h₁, hrun, hs, ho, hcells, hfound⟩ :=
          ht.sound.1.setChar hfind hobject hascii hlt j
        obtain ⟨h₁', hrun', hs', ho', hcells', hfound'⟩ :=
          ht.sound.2.setChar hfind' hobject' hascii hlt j'
        have hfits := ht.sound.1.fits _ _ hfind
        have hfits' := ht.sound.2.fits _ _ hfind'
        rw [hobject] at hfits
        rw [hobject'] at hfits'
        -- cells past the length agree as well, up to the capacity: the index may lie there
        have hsame : ∀ i < x.capacity, h₁.cell r.id i = h₁'.cell r'.id i := by
          intro i hi
          rw [hcells i (Nat.lt_of_lt_of_le hi hfits.2), hcells' i (Nat.lt_of_lt_of_le hi hfits'.2)]
          split
          · rfl
          · exact hm i hi
        have hbytes : (List.range (max x.length (index + 1))).map (h₁.cell r.id) =
            (List.range (max x.length (index + 1))).map (h₁'.cell r'.id) := by
          refine List.map_congr_left fun i hi => hsame i ?_
          have hlength : x.length ≤ x.capacity := hfits.1
          have hi := List.mem_range.mp hi
          omega
        refine ht.done_changing hr₁ (by decide) (by decide) hrun hrun'
          (ht.idle.1.changed hs ho hfind hfound rfl) (ht.idle.2.changed hs' ho' hfind' hfound' rfl)
          ⟨_, _, get?_eq_some_iff.mpr ⟨_, hfound, rfl⟩, get?_eq_some_iff.mpr ⟨_, hfound', rfl⟩,
            congrArg (StringRecord.holding x.capacity) hbytes, hsame⟩ rfl fun htw => ?_
        refine twin_done hrun hrun' ?_
        obtain ⟨rfl, rfl, -⟩ := ht.twin htw
        rw [ht.ref_eq htw hr₁]
      · rw [hpast hascii (by omega) hx, hpast hascii (by omega) hx']
        exact .done ht rfl

/-! ### Arrays -/

lemma find?_dangling (hs : h.Sound) : h.find? .dangling = none := by
  have hnone : h.slots[ObjectId.dangling.index.toNat]? = none := Array.getElem?_eq_none hs.size
  rw [find?, hnone]

lemma Tied.ne_dangling (ht : Tied w h j h' j') (hr : w.rel k a b) : a ≠ .dangling ∧ b ≠ .dangling := by
  obtain ⟨hlive, hlive'⟩ := (ht.pairs hr).live
  constructor
  · rintro rfl
    rw [contains, find?_dangling ht.sound.1] at hlive
    cases hlive
  · rintro rfl
    rw [contains, find?_dangling ht.sound.2] at hlive'
    cases hlive'

/-- Strings among related scalars are in the heap. -/
lemma Tied.named (ht : Tied w h j h' j') {s s' : Scalar} (hs : s.Rel w s') :
    (∀ string, s = .str string → string.id ≠ .dangling) ∧
      ∀ string, s' = .str string → string.id ≠ .dangling := by
  cases hs with
  | plain s bare =>
      have hnone : ∀ string, s = .str string → string.id ≠ .dangling := by
        rintro string rfl
        cases bare
      exact ⟨hnone, hnone⟩
  | str ref =>
      refine ⟨fun string heq => ?_, fun string heq => ?_⟩
      · cases heq
        exact (ht.ne_dangling ref).1
      · cases heq
        exact (ht.ne_dangling ref).2
  | array ref => exact ⟨fun _ heq => (nomatch heq), fun _ heq => (nomatch heq)⟩

lemma element_of_rel {kind : ArrayKind} {s s' : Scalar} (he : kind.Element s) (hs : s.Rel w s') :
    kind.Element s' := by
  cases hs with
  | plain => exact he
  | str ref =>
      cases he
      exact .str _
  | array ref => cases he

lemma zero_rel (kind : ArrayKind) : kind.zero.Rel w kind.zero := by
  refine .plain _ ?_
  cases kind <;> rfl

/-- Storing an element in related arrays. -/
lemma Tied.arraySet (ht : Tied w h j h' j') {r r' : Ref .array} (hr : r.Rel w r') (index : Nat)
    {s s' : Scalar} (hs : s.Rel w s') (he : ∀ x, h.get? r = some x → x.kind.Element s) :
    Match (Tied w) Eq (Heap.arraySet r index s h j) (Heap.arraySet r' index s' h' j') := by
  obtain ⟨x, x', hx, hx', hrel, hm⟩ := ht.pairs hr
  obtain rfl : x = x' := hrel
  obtain ⟨entry, hfind, hobject⟩ := get?_eq_some_iff.mp hx
  obtain ⟨entry', hfind', hobject'⟩ := get?_eq_some_iff.mp hx'
  by_cases hlt : index < x.capacity
  · obtain ⟨h₁, hrun, hsound, ho, hfound, hat⟩ :=
      ht.sound.1.arraySet hfind hobject (he x hx) (ht.named hs).1 hlt j
    obtain ⟨h₁', hrun', hsound', ho', hfound', hat'⟩ :=
      ht.sound.2.arraySet hfind' hobject' (element_of_rel (he x hx) hs) (ht.named hs).2 hlt j'
    refine ht.done_changing hr (by decide) (by decide) hrun hrun'
      (ht.idle.1.changed hsound ho hfind hfound rfl)
      (ht.idle.2.changed hsound' ho' hfind' hfound' rfl)
      ⟨_, _, get?_eq_some_iff.mpr ⟨_, hfound, rfl⟩, get?_eq_some_iff.mpr ⟨_, hfound', rfl⟩, rfl,
        fun i hi => ?_⟩ rfl fun htw => ?_
    · rw [hat i hi, hat' i hi]
      split
      · exact hs
      · split
        · rename_i hi
          exact hm i hi
        · exact zero_rel x.kind
    · refine twin_done hrun hrun' ?_
      obtain ⟨rfl, rfl, -⟩ := ht.twin htw
      rw [ht.ref_eq htw hr, ht.scalar_eq htw hs]
  · rw [arraySet_of_le hfind hobject (by omega), arraySet_of_le hfind' hobject' (by omega)]
    exact .done ht rfl

/-- Appending related elements. -/
lemma Tied.arrayPush (ht : Tied w h j h' j') {r r' : Ref .array} (hr : r.Rel w r')
    {s s' : Scalar} (hs : s.Rel w s') (he : ∀ x, h.get? r = some x → x.kind.Element s) :
    Match (Tied w) Eq (Heap.arrayPush r s h j) (Heap.arrayPush r' s' h' j') := by
  obtain ⟨x, x', hx, hx', hrel, hm⟩ := ht.pairs hr
  obtain rfl : x = x' := hrel
  obtain ⟨entry, hfind, hobject⟩ := get?_eq_some_iff.mp hx
  obtain ⟨entry', hfind', hobject'⟩ := get?_eq_some_iff.mp hx'
  refine ht.changing hr (by decide) (by decide)
    (ht.sound.1.arrayPush hfind hobject (he x hx) (ht.named hs).1 j)
    (ht.sound.2.arrayPush hfind' hobject' (element_of_rel (he x hx) hs) (ht.named hs).2 j') ?_ ?_
  · rintro h₁ h₁' ⟨hsound, ho, ⟨block, hfound⟩, hat⟩ ⟨hsound', ho', ⟨block', hfound'⟩, hat'⟩
    refine ⟨ht.idle.1.changed hsound ho hfind hfound rfl,
      ht.idle.2.changed hsound' ho' hfind' hfound' rfl, x.pushed, x.pushed,
      get?_eq_some_iff.mpr ⟨_, hfound, rfl⟩, get?_eq_some_iff.mpr ⟨_, hfound', rfl⟩, rfl,
      fun i hi => ?_⟩
    have hkind : x.pushed.kind = x.kind := by
      rw [ArrayRecord.pushed]
      split <;> rfl
    have hi : i < x.length + 1 := hi
    rw [hkind, hat i hi, hat' i hi]
    split
    · exact hs
    · exact hm i (by omega)
  · intro htw
    obtain ⟨rfl, rfl, -⟩ := ht.twin htw
    rw [ht.ref_eq htw hr, ht.scalar_eq htw hs]

/-- Taking the last elements off related arrays. -/
lemma alike_arrayPop {r r' : Ref .array} (hr : r.Rel w r') :
    Alike Tied w (fun w₁ => Option.Rel (Scalar.Rel w₁)) (Heap.arrayPop r) (Heap.arrayPop r') := by
  refine .of_match fun w₁ h j h' j' hle ht => ?_
  have hr₁ : r.Rel w₁ r' := hle.rel hr
  obtain ⟨x, x', hx, hx', hrel, hm⟩ := ht.pairs hr₁
  obtain rfl : x = x' := hrel
  by_cases hlength : x.length = 0
  · have hempty : ∀ {g : Heap} {e : Ref .array}, g.get? e = some x → ∀ i,
        Heap.arrayPop e g i = .done none g i := by
      intro g e hget i
      simp [Heap.arrayPop, read_of_get? hget, hlength]
    rw [hempty hx, hempty hx']
    exact .done ht .none
  · obtain ⟨entry, hfind, hobject⟩ := get?_eq_some_iff.mp hx
    obtain ⟨entry', hfind', hobject'⟩ := get?_eq_some_iff.mp hx'
    obtain ⟨h₁, hrun, hsound, ho, hfound, hat⟩ := ht.sound.1.arrayPop hfind hobject hlength j
    obtain ⟨h₁', hrun', hsound', ho', hfound', hat'⟩ :=
      ht.sound.2.arrayPop hfind' hobject' hlength j'
    refine ht.done_changing hr₁ (by decide) (by decide) hrun hrun'
      (ht.idle.1.changed hsound ho hfind hfound rfl)
      (ht.idle.2.changed hsound' ho' hfind' hfound' rfl)
      ⟨_, _, get?_eq_some_iff.mpr ⟨_, hfound, rfl⟩, get?_eq_some_iff.mpr ⟨_, hfound', rfl⟩, rfl,
        fun i hi => ?_⟩ (.some (hm _ (by omega))) fun htw => ?_
    · have hi : i < x.length - 1 := hi
      rw [hat i, hat' i]
      exact hm i (by omega)
    · refine twin_done hrun hrun' ?_
      obtain ⟨rfl, rfl, -⟩ := ht.twin htw
      rw [ht.ref_eq htw hr₁]

/-! ### Memory for objects that have grown -/

lemma Resized.changed (hr : Resized h h₁ a) (hs : h₁.Sound) (hi : h.Idle)
    (hfind : h.find? a = some entry) : Changed a h h₁ := by
  obtain ⟨block, -, -, hfound, -⟩ := hr.found entry hfind
  exact hi.changed hs hr.only hfind hfound rfl

lemma Tied.resize (ht : Tied w h j h' j') (hr : w.rel k a b) (hk : k ≠ .closure)
    (hk' : k ≠ .function) :
    Match (Tied w) Eq (Heap.resize a h j) (Heap.resize b h' j') := by
  have hpair := ht.pairs hr
  obtain ⟨x, x', hx, hx', hrel, -⟩ := id hpair
  obtain ⟨entry, hfind, hobject⟩ := get?_eq_some_iff.mp hx
  obtain ⟨entry', hfind', hobject'⟩ := get?_eq_some_iff.mp hx'
  have hrefusal : h'.resizeRefusal b = h.resizeRefusal a := by
    rw [resizeRefusal, resizeRefusal, show h.find? a = _ from hfind, show h'.find? b = _ from hfind']
    simp only [Option.bind_some, hobject, hobject', hrel.size_eq]
  have hserved := ht.sound.2.toTidy.resize b j'
  rw [hrefusal] at hserved
  refine ht.changing hr hk hk' (ht.sound.1.toTidy.resize a j) hserved ?_ fun htw => ?_
  · intro h₁ h₁' hresized hresized'
    exact ⟨hresized.changed (ht.sound.1.resized hresized) ht.idle.1 hfind,
      hresized'.changed (ht.sound.2.resized hresized') ht.idle.2 hfind',
      hpair.intact ht.sound hresized.intact hresized'.intact⟩
  · obtain ⟨rfl, rfl, heq⟩ := ht.twin htw
    rw [heq hr]

lemma alike_resize (hr : w.rel k a b) (hk : k ≠ .closure) (hk' : k ≠ .function) :
    Alike Tied w (fun _ => Eq) (Heap.resize a) (Heap.resize b) :=
  .of_match fun _ _ _ _ _ hle ht => ht.resize (hle.rel hr) hk hk'

end Heap

end ScriptMachine
