import ScriptMachine.Proofs.Heap.Changes
import ScriptMachine.Proofs.Simulation.Content

/-!
Heaps that stand for each other.

`Heap.Tied w` says that the ids which the world `w` relates name objects with
related contents, that `w` relates no id to two others, and that requests for
memory end alike in both heaps: either every page is granted, or the two heaps
are one. Everything that happens to such heaps is one of three things:

* `Tied.update`: two related objects change;
* `Tied.add`: two new objects become related;
* `Tied.prune`: objects go away that are not reachable.
-/

namespace ScriptMachine

open Memory

namespace Heap

variable {w w' : World} {h h₁ h' h₁' : Heap} {j j₁ j' j₁' : Journal} {k l : Kind}
  {a b c d : ObjectId} {roots roots' : List ObjectId}

/-- The cells of two strings, or the elements of two arrays, stand for each
other. Other objects keep nothing in memory. -/
def SameMemory (w : World) (h : Heap) (a : ObjectId) (h' : Heap) (b : ObjectId) :
    (k : Kind) → k.Content → Prop
  | .string, record => ∀ i < record.capacity, h.cell a i = h'.cell b i
  | .array, record => ∀ i < record.length,
      (h.elementAt a record.kind i).Rel w (h'.elementAt b record.kind i)
  | _, _ => True

/-- Two objects of kind `k` that stand for each other. -/
def Pair (w : World) (k : Kind) (h : Heap) (a : ObjectId) (h' : Heap) (b : ObjectId) : Prop :=
  ∃ content content', h.get? (⟨a⟩ : Ref k) = some content ∧ h'.get? (⟨b⟩ : Ref k) = some content' ∧
    Content.Rel w k content content' ∧ SameMemory w h a h' b k content

/-- What a closure consists of. -/
def HasBody (h : Heap) (a : ObjectId) (body : Body) : Prop :=
  h.get? (⟨a⟩ : Ref .closure) = some body.closure ∧
    h.get? body.closure.function = some body.function

/-- Heaps that stand for each other. -/
structure Tied (w : World) (h : Heap) (j : Journal) (h' : Heap) (j' : Journal) : Prop where
  sound : h.Sound ∧ h'.Sound
  idle : h.Idle ∧ h'.Idle
  functional : ∀ {k l a b b'}, w.rel k a b → w.rel l a b' → b = b'
  injective : ∀ {k l a a' b}, w.rel k a b → w.rel l a' b → a = a'
  pairs : ∀ {k a b}, w.rel k a b → Pair w k h a h' b
  bodies : ∀ {a b x y}, w.body a b x y ↔ w.rel .closure a b ∧ h.HasBody a x ∧ h'.HasBody b y
  twin : w.twin → h = h' ∧ j = j' ∧ ∀ {k a b}, w.rel k a b → a = b
  granted : ¬ w.twin → h.memory.Granted ∧ h'.memory.Granted

/-! ### Looking objects up -/

lemma Pair.live (hp : Pair w k h a h' b) : h.contains a = true ∧ h'.contains b = true := by
  obtain ⟨x, x', hx, hx', -⟩ := hp
  obtain ⟨entry, hfind, -⟩ := get?_eq_some_iff.mp hx
  obtain ⟨entry', hfind', -⟩ := get?_eq_some_iff.mp hx'
  exact ⟨Option.isSome_of_eq_some hfind, Option.isSome_of_eq_some hfind'⟩

lemma Tied.kind_eq (ht : Tied w h j h' j') (hk : w.rel k a b) (hl : w.rel l a c) : k = l := by
  obtain ⟨x, -, hx, -⟩ := ht.pairs hk
  obtain ⟨y, -, hy, -⟩ := ht.pairs hl
  exact Heap.kind_eq hx hy

lemma Tied.read_get? (ht : Tied w h j h' j') {r r' : Ref k} (hr : r.Rel w r') :
    Result.Rel (fun x x' => Content.Rel w k x x' ∧ h.get? r = some x) (h.read r) (h'.read r') := by
  obtain ⟨x, x', hx, hx', hrel, -⟩ := ht.pairs hr
  rw [read_of_get? hx, read_of_get? hx']
  exact .ok ⟨hrel, hx⟩

lemma Tied.read (ht : Tied w h j h' j') {r r' : Ref k} (hr : r.Rel w r') :
    Result.Rel (Content.Rel w k) (h.read r) (h'.read r') :=
  (ht.read_get? hr).imp fun _ _ => And.left

/-- Related ids of twins are equal. -/
lemma Tied.follows (ht : Tied w h j h' j') (htwin : w.twin) : w.Follows id :=
  fun _ _ _ hrel => ((ht.twin htwin).2.2 hrel).symm

/-! ### Handles -/

/-- The handles in the content and in the memory of an object. -/
def handlesIn (h : Heap) (a : ObjectId) : (k : Kind) → k.Content → List Handle
  | .array, record => (List.range record.length).flatMap fun i =>
      (h.elementAt a record.kind i).handles
  | k, content => Content.handles k content

/-- The handles in an object of kind `k`. -/
def handles (h : Heap) (k : Kind) (a : ObjectId) : List Handle :=
  match h.get? (⟨a⟩ : Ref k) with
  | some content => h.handlesIn a k content
  | none => []

lemma handles_eq {x : k.Content} (hx : h.get? (⟨a⟩ : Ref k) = some x) :
    h.handles k a = h.handlesIn a k x := by
  simp [handles, hx]

lemma handlesIn_eq (hk : k ≠ .array) (x : k.Content) : h.handlesIn a k x = Content.handles k x := by
  cases k with
  | array => exact absurd rfl hk
  | _ => rfl

/-- Handles are children. -/
lemma Sound.handles_children (hs : h.Sound) {x : k.Content} (hx : h.get? (⟨a⟩ : Ref k) = some x)
    (hmem : (l, c) ∈ h.handlesIn a k x) : c ∈ h.children a := by
  obtain ⟨entry, hfind, hobject⟩ := get?_eq_some_iff.mp hx
  have hfind : h.find? a = some entry := hfind
  by_cases hk : k = .array
  · subst hk
    have hobject : entry.object = .array x := hobject
    obtain ⟨i, hi, hh⟩ := List.mem_flatMap.mp hmem
    have hread := hs.toTidy.elements_read hfind (hs.length_le hfind hobject).2
    simp only [children, hfind, hobject, Object.children, scannedBytes, hread]
    refine List.mem_filterMap.mpr ⟨_, List.mem_map_of_mem hi, ?_⟩
    have hid := List.mem_map_of_mem (f := Prod.snd) hh
    rwa [Scalar.map_handles, Option.mem_toList] at hid
  · rw [hs.children_eq hfind, hobject, Content.children_eq hk]
    rw [handlesIn_eq hk] at hmem
    exact List.mem_map.mpr ⟨(l, c), hmem, rfl⟩

/-- Only the handles of two objects matter. -/
lemma Pair.mono (hp : Pair w k h a h' b) (hk : w.Keeps w' (h.handles k a) (h'.handles k b)) :
    Pair w' k h a h' b := by
  obtain ⟨x, x', hx, hx', hrel, hm⟩ := hp
  rw [handles_eq hx, handles_eq hx'] at hk
  refine ⟨x, x', hx, hx', ?_, ?_⟩
  · cases k with
    | array => exact hrel
    | _ => exact hrel.mono hk
  · cases k with
    | string => exact hm
    | array =>
        obtain rfl : x = x' := hrel
        refine fun i hi => (hm i hi).mono (hk.subset ?_ ?_)
        · exact fun _ hh => List.mem_flatMap.mpr ⟨i, List.mem_range.mpr hi, hh⟩
        · exact fun _ hh => List.mem_flatMap.mpr ⟨i, List.mem_range.mpr hi, hh⟩
    | _ => trivial

lemma Pair.le (hp : Pair w k h a h' b) (hle : w ≤ w') : Pair w' k h a h' b :=
  hp.mono (hle.keeps _ _)

/-! ### Objects that stay as they are -/

lemma Pair.intact (hp : Pair w k h a h' b) (hs : h.Sound ∧ h'.Sound) (hi : Intact a h h₁)
    (hi' : Intact b h' h₁') : Pair w k h₁ a h₁' b := by
  obtain ⟨x, x', hx, hx', hrel, hm⟩ := hp
  refine ⟨x, x', hi.get?.trans hx, hi'.get?.trans hx', hrel, ?_⟩
  cases k with
  | string =>
      obtain rfl : x = x' := hrel
      intro i hlt
      rw [hi.cell hs.1 hx hlt, hi'.cell hs.2 hx' hlt]
      exact hm i hlt
  | array =>
      obtain rfl : x = x' := hrel
      intro i hlt
      rw [hi.elementAt hs.1 hx hlt, hi'.elementAt hs.2 hx' hlt]
      exact hm i hlt
  | _ => trivial

lemma HasBody.intact {x : Body} (hb : h.HasBody a x) (hi : Intact a h h₁)
    (hi' : Intact x.closure.function.id h h₁) : h₁.HasBody a x :=
  ⟨hi.get?.trans hb.1, hi'.get?.trans hb.2⟩

/-! ### Objects that change -/

/-- Two related objects change. Closures and functions never do. -/
lemma Tied.update (ht : Tied w h j h' j') (hr : w.rel k a b) (hk : k ≠ .closure)
    (hk' : k ≠ .function) (hc : Changed a h h₁) (hc' : Changed b h' h₁')
    (hp : Pair w k h₁ a h₁' b) (htwin : w.twin → h₁ = h₁' ∧ j₁ = j₁') : Tied w h₁ j₁ h₁' j₁' := by
  obtain ⟨y, y', hy, hy', -⟩ := ht.pairs hr
  obtain ⟨z, z', hz, hz', -⟩ := id hp
  refine ⟨⟨hc.sound, hc'.sound⟩, ⟨ht.idle.1.onlyAt hc.only hc.unmarked,
    ht.idle.2.onlyAt hc'.only hc'.unmarked⟩, ht.functional, ht.injective, fun {l c d} hrel => ?_,
    fun {c d x x'} => ?_, fun htw => ⟨(htwin htw).1, (htwin htw).2, (ht.twin htw).2.2⟩, fun htw => ?_⟩
  · by_cases heq : c = a
    · subst heq
      obtain rfl := ht.functional hrel hr
      obtain rfl := ht.kind_eq hrel hr
      exact hp
    · refine (ht.pairs hrel).intact ht.sound (hc.only.intact heq) (hc'.only.intact fun heq' => heq ?_)
      subst heq'
      exact ht.injective hrel hr
  · rw [ht.bodies]
    simp only [HasBody, hc.only.get?_of_ne hy hz hk.symm, hc.only.get?_of_ne hy hz hk'.symm,
      hc'.only.get?_of_ne hy' hz' hk.symm, hc'.only.get?_of_ne hy' hz' hk'.symm]
  · obtain ⟨hg, hg'⟩ := ht.granted htw
    unfold Allocator.Granted
    rw [hc.only.grants, hc'.only.grants]
    exact ⟨hg, hg'⟩

/-! ### New objects -/

/-- The world in which the objects `a` and `b` of kind `k`, which the heaps `h`
and `h'` hold, are related too. -/
def extended (w : World) (k : Kind) (a b : ObjectId) (h h' : Heap) : World where
  rel l c d := w.rel l c d ∨ (l = k ∧ c = a ∧ d = b)
  body c d x y := (w.rel .closure c d ∨ (.closure = k ∧ c = a ∧ d = b)) ∧
    h.HasBody c x ∧ h'.HasBody d y
  twin := w.twin

lemma Tied.le_extended (ht : Tied w h j h' j') (hf : Fresh a h h₁) (hf' : Fresh b h' h₁') :
    w ≤ extended w k a b h₁ h₁' := by
  refine ⟨.inl, fun {c d x y} hb => ?_, .rfl⟩
  obtain ⟨hrel, hx, hy⟩ := ht.bodies.mp hb
  have hkeep : ∀ {g g₁ : Heap} {e id : ObjectId} {x : Body}, Fresh e g g₁ → g.HasBody id x →
      g₁.HasBody id x := fun hf hx =>
    hx.intact (hf.intact (contains_of_get? hx.1)) (hf.intact (contains_of_get? hx.2))
  exact ⟨.inl hrel, hkeep hf hx, hkeep hf' hy⟩

/-- Two new objects become related. -/
lemma Tied.add (ht : Tied w h j h' j') (hf : Fresh a h h₁) (hf' : Fresh b h' h₁')
    (hp : Pair w k h₁ a h₁' b) (htwin : w.twin → h₁ = h₁' ∧ j₁ = j₁' ∧ a = b) :
    Tied (extended w k a b h₁ h₁') h₁ j₁ h₁' j₁' := by
  have hlive : ∀ {l c d}, w.rel l c d → c ≠ a ∧ d ≠ b := fun hrel =>
    ⟨hf.ne (ht.pairs hrel).live.1, hf'.ne (ht.pairs hrel).live.2⟩
  refine ⟨⟨hf.sound, hf'.sound⟩, ⟨ht.idle.1.onlyAt hf.only hf.unmarked,
    ht.idle.2.onlyAt hf'.only hf'.unmarked⟩, ?_, ?_, ?_, .rfl, fun htw => ?_, fun htw => ?_⟩
  · rintro l l' c d d' (hrel | ⟨rfl, rfl, rfl⟩) (hrel' | ⟨rfl, hc, rfl⟩)
    · exact ht.functional hrel hrel'
    · exact absurd hc (hlive hrel).1
    · exact absurd rfl (hlive hrel').1
    · rfl
  · rintro l l' c c' d (hrel | ⟨rfl, rfl, rfl⟩) (hrel' | ⟨rfl, rfl, hd⟩)
    · exact ht.injective hrel hrel'
    · exact absurd hd (hlive hrel).2
    · exact absurd rfl (hlive hrel').2
    · rfl
  · rintro l c d (hrel | ⟨rfl, rfl, rfl⟩)
    · refine ((ht.pairs hrel).intact ht.sound ?_ ?_).le (ht.le_extended hf hf')
      · exact hf.only.intact (hlive hrel).1
      · exact hf'.only.intact (hlive hrel).2
    · exact hp.le (ht.le_extended hf hf')
  · refine ⟨(htwin htw).1, (htwin htw).2.1, ?_⟩
    rintro l c d (hrel | ⟨rfl, rfl, rfl⟩)
    · exact (ht.twin htw).2.2 hrel
    · exact (htwin htw).2.2
  · obtain ⟨hg, hg'⟩ := ht.granted htw
    unfold Allocator.Granted
    rw [hf.only.grants, hf'.only.grants]
    exact ⟨hg, hg'⟩

/-! ### Objects that can be reached -/

/-- All objects that are related can be reached. -/
def Spans (w : World) (h : Heap) (roots : List ObjectId) (h' : Heap) (roots' : List ObjectId) :
    Prop :=
  ∀ {k a b}, w.rel k a b → Reach h roots a ∧ Reach h' roots' b

/-- What can be reached stays so, if it stays as it is. -/
lemma Reach.intact (hr : Reach h roots a) (hs : h.Sound) (hs₁ : h₁.Sound)
    (hi : ∀ id, Reach h roots id → Intact id h h₁) (hroots : roots ⊆ roots') :
    Reach h₁ roots' a := by
  have hlive : ∀ {id}, Reach h roots id → h₁.contains id = true := by
    intro id hr
    rw [(hi id hr).contains, hr.live]
  induction hr with
  | root mem live => exact .root (hroots mem) (hlive (.root mem live))
  | child parent mem live ih =>
      refine .child ih ?_ (hlive (.child parent mem live))
      rwa [(hi _ parent).children hs hs₁]

lemma Reach.subset {more : List ObjectId} (hr : Reach h roots a) (hsub : roots ⊆ more) :
    Reach h more a := by
  induction hr with
  | root mem live => exact .root (hsub mem) live
  | child _ mem live ih => exact .child ih mem live

lemma Spans.subset {more more' : List ObjectId} (hs : Spans w h roots h' roots')
    (hsub : roots ⊆ more) (hsub' : roots' ⊆ more') : Spans w h more h' more' := by
  intro k a b hrel
  obtain ⟨hr, hr'⟩ := hs hrel
  exact ⟨hr.subset hsub, hr'.subset hsub'⟩

/-- The new pair of objects is reached, too. -/
lemma Tied.spans_extended (ht : Tied w h j h' j') (hf : Fresh a h h₁) (hf' : Fresh b h' h₁')
    (hp : Pair w k h₁ a h₁' b) (hspans : Spans w h roots h' roots') :
    Spans (extended w k a b h₁ h₁') h₁ (a :: roots) h₁' (b :: roots') := by
  rintro l c d (hrel | ⟨rfl, rfl, rfl⟩)
  · obtain ⟨hr, hr'⟩ := hspans hrel
    exact ⟨hr.intact ht.sound.1 hf.sound (fun _ hr => hf.intact hr.live) (List.subset_cons_self _ _),
      hr'.intact ht.sound.2 hf'.sound (fun _ hr => hf'.intact hr.live) (List.subset_cons_self _ _)⟩
  · exact ⟨.root (.head _) hp.live.1, .root (.head _) hp.live.2⟩

/-! ### Objects that go away -/

/-- The world without the objects that cannot be reached. -/
def within (w : World) (h : Heap) (roots : List ObjectId) (h' : Heap) (roots' : List ObjectId) :
    World where
  rel k a b := w.rel k a b ∧ Reach h roots a ∧ Reach h' roots' b
  body a b x y := w.body a b x y ∧ Reach h roots a ∧ Reach h' roots' b
  twin := w.twin

lemma spans_within : Spans (within w h roots h' roots') h roots h' roots' := And.right

/-- Nothing leaves a world that spans what can be reached. -/
lemma Tied.within_eq (ht : Tied w h j h' j') (hspans : Spans w h roots h' roots') :
    within w h roots h' roots' = w := by
  have hrel : ∀ k a b, (w.rel k a b ∧ Reach h roots a ∧ Reach h' roots' b) = w.rel k a b :=
    fun k a b => propext (and_iff_left_of_imp hspans)
  have hbody : ∀ a b x y, (w.body a b x y ∧ Reach h roots a ∧ Reach h' roots' b) = w.body a b x y :=
    fun a b x y => propext (and_iff_left_of_imp fun hb => hspans (ht.bodies.mp hb).1)
  rw [within]
  simp only [hrel, hbody]

/-- What can be reached is as it was. -/
structure Pruned (roots : List ObjectId) (h h₁ : Heap) : Prop where
  sound : h₁.Sound
  idle : h₁.Idle
  intact : ∀ id, Reach h roots id → Intact id h h₁
  grants : h₁.memory.grants = h.memory.grants

lemma Pruned.spans (hp : Pruned roots h h₁) (hp' : Pruned roots' h' h₁') (hs : h.Sound ∧ h'.Sound)
    (hspans : Spans w h roots h' roots') : Spans w h₁ roots h₁' roots' := fun hrel =>
  ⟨(hspans hrel).1.intact hs.1 hp.sound hp.intact (List.Subset.refl _),
    (hspans hrel).2.intact hs.2 hp'.sound hp'.intact (List.Subset.refl _)⟩

lemma pruned_refl (hs : h.Sound) (hi : h.Idle) : Pruned roots h h :=
  ⟨hs, hi, fun _ _ => ⟨rfl, fun _ _ _ _ => rfl⟩, rfl⟩

lemma Collected.pruned {freed : List ObjectId} (hc : Collected roots freed h h₁) :
    Pruned roots h h₁ :=
  ⟨hc.sound, hc.idle, fun _ hr => hc.intact (.inr hr), hc.grants⟩

/-- What a closure consists of stays, if the closure can be reached. -/
lemma Pruned.hasBody_iff (hp : Pruned roots h h₁) (hs : h.Sound) (hr : Reach h roots a)
    (hlive : ∀ y, h.get? (⟨a⟩ : Ref .closure) = some y → h.contains y.function.id = true)
    {x : Body} : h₁.HasBody a x ↔ h.HasBody a x := by
  unfold HasBody
  rw [(hp.intact a hr).get?]
  refine and_congr_right fun hx => ?_
  have hchild : x.closure.function.id ∈ h.children a :=
    hs.handles_children hx (List.mem_cons_self ..)
  have hi := hp.intact _ (.child hr hchild (hlive _ hx))
  rw [show h₁.get? x.closure.function = _ from hi.get?]

/-- Objects go away that cannot be reached. -/
lemma Tied.prune (ht : Tied w h j h' j') (hp : Pruned roots h h₁) (hp' : Pruned roots' h' h₁')
    (htwin : w.twin → h₁ = h₁' ∧ j₁ = j₁') :
    Tied (within w h roots h' roots') h₁ j₁ h₁' j₁' := by
  refine ⟨⟨hp.sound, hp'.sound⟩, ⟨hp.idle, hp'.idle⟩, fun hrel hrel' => ht.functional hrel.1 hrel'.1,
    fun hrel hrel' => ht.injective hrel.1 hrel'.1, ?_, ?_,
    fun htw => ⟨(htwin htw).1, (htwin htw).2, fun hrel => (ht.twin htw).2.2 hrel.1⟩, fun htw => ?_⟩
  · rintro k a b ⟨hrel, hr, hr'⟩
    have hi := hp.intact a hr
    have hi' := hp'.intact b hr'
    have hpair := (ht.pairs hrel).intact ht.sound hi hi'
    obtain ⟨x, x', hx, hx', -⟩ := id hpair
    refine hpair.mono fun l c d hc hd hcd => ?_
    -- what the objects refer to can be reached as well
    rw [handles_eq hx] at hc
    rw [handles_eq hx'] at hd
    have hchild := hp.sound.handles_children hx hc
    have hchild' := hp'.sound.handles_children hx' hd
    rw [hi.children ht.sound.1 hp.sound] at hchild
    rw [hi'.children ht.sound.2 hp'.sound] at hchild'
    have hlive := (ht.pairs hcd).live
    exact ⟨hcd, .child hr hchild hlive.1, .child hr' hchild' hlive.2⟩
  · intro a b x y
    have hbody : w.body a b x y ∧ Reach h roots a ∧ Reach h' roots' b ↔
        (w.rel .closure a b ∧ Reach h roots a ∧ Reach h' roots' b) ∧
          h.HasBody a x ∧ h'.HasBody b y := by
      rw [ht.bodies]
      tauto
    refine hbody.trans (and_congr_right fun ⟨hrel, hr, hr'⟩ => ?_)
    obtain ⟨z, z', hz, hz', hclosure, -⟩ := ht.pairs hrel
    obtain ⟨hlive, hlive'⟩ := (ht.pairs hclosure.function).live
    rw [hp.hasBody_iff ht.sound.1 hr fun y hy => Option.some.inj (hz.symm.trans hy) ▸ hlive,
      hp'.hasBody_iff ht.sound.2 hr' fun y hy => Option.some.inj (hz'.symm.trans hy) ▸ hlive']
  · obtain ⟨hg, hg'⟩ := ht.granted htw
    unfold Allocator.Granted
    rw [hp.grants, hp'.grants]
    exact ⟨hg, hg'⟩

end Heap

end ScriptMachine
