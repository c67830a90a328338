import ScriptMachine.Proofs.Heap.History

/-!
Ids and the slots that they are issued for.

Of a slot an id sees two things, the generation and whether there is an object in it
(`Heap.shape?`). An operation that adds an object fills a slot that had none under the
generation that the slot has, which is zero if the slot is new; a sweep frees slots and
raises their generations by one; and all other operations leave both as they are. So one
operation takes every slot at most one `Turn`, and over a run the generation counts how
often the slot was freed, up to a multiple of its range.

* `Indexed.insert_ends`, `sweepFrom_ends`, `Public.turns`: what an operation does to a slot;
* `Passage.passed`: what a run does to the generation of a slot;
* `Passage.never_alias`: when an id is accepted, and that none is issued twice.
-/

namespace ScriptMachine.Heap

open Memory
open ScriptMachine.Action

variable {h h' h₁ h₂ : Heap} {id : ObjectId} {n : Nat} {journal : Journal}

/-! ### Slots from outside -/

/-- The generation of a slot, and whether there is an object in it. -/
def shape? (h : Heap) (i : Nat) : Option (UInt32 × Bool) :=
  (h.slots[i]?).map fun slot => (slot.generation, slot.entry.isSome)

/-- Whether there is an object in a slot. -/
def occupied (h : Heap) (i : Nat) : Bool := (h.shape? i).any Prod.snd

/-- The generation of a slot, which is zero before the slot is there. -/
def age (h : Heap) (i : Nat) : UInt32 := ((h.shape? i).map Prod.fst).getD 0

/-- What one operation does to a slot, which it frees `n` times. -/
inductive Turn : (n : Nat) → Option (UInt32 × Bool) → Option (UInt32 × Bool) → Prop
  | kept (shape : Option (UInt32 × Bool)) : Turn 0 shape shape
  | filled (generation : UInt32) : Turn 0 (some (generation, false)) (some (generation, true))
  | added : Turn 0 none (some (0, true))
  | freed (generation : UInt32) :
      Turn 1 (some (generation, true)) (some (generation + 1, false))

/-- No slot has changed, seen from outside. -/
def SameShape (h h' : Heap) : Prop := ∀ i, h'.shape? i = h.shape? i

instance : IsPreorder Heap SameShape where
  refl _ _ := rfl
  trans _ _ _ hk hk' i := (hk' i).trans (hk i)

lemma sameShape_of_slots (hslots : h'.slots = h.slots) : SameShape h h' := fun i => by
  rw [shape?, shape?, hslots]

lemma sameShape_updateEntry (h : Heap) (id : ObjectId) (f : Entry → Entry) :
    SameShape h (h.updateEntry id f) := by
  intro i
  rw [shape?, shape?, updateEntry, Array.getElem?_modify]
  split
  · cases h.slots[i]? with
    | none => rfl
    | some slot =>
        simp only [Option.map_some]
        split
        · simp
        · rfl
  · rfl

lemma sameShape_writeBytes (h : Heap) (id : ObjectId) (offset : Nat) (bytes : List UInt8) :
    SameShape h (h.writeBytes id offset bytes) := by
  refine sameShape_of_slots ?_
  unfold writeBytes
  split <;> rfl

lemma Remarked.sameShape (hr : Remarked h h') : SameShape h h' := by
  intro i
  have hslot := hr.slot i
  rw [shape?, shape?]
  cases hs : h.slots[i]? with
  | none =>
      rw [hs] at hslot
      rw [Option.map_eq_none_iff.mp hslot]
  | some slot =>
      rw [hs] at hslot
      obtain ⟨slot', hs', hsame⟩ := Option.map_eq_some_iff.mp hslot
      have hgeneration : slot'.generation = slot.generation := (congrArg Slot.generation hsame :)
      have hentry : slot'.entry.map Entry.unmarked = slot.entry.map Entry.unmarked :=
        (congrArg Slot.entry hsame :)
      have hsome : slot'.entry.isSome = slot.entry.isSome := by
        simpa using congrArg Option.isSome hentry
      rw [hs', Option.map_some, Option.map_some, hgeneration, hsome]

/-! ### Operations that keep all slots -/

section SameShape

variable {α : Type}

lemma onMemory_leaves (action : Action Allocator α) (h : Heap) (journal : Journal) :
    (onMemory action h journal).Ends (fun _ h' => ∃ memory, h' = { h with memory := memory })
      (fun _ h' => SameShape h h') fun _ => True := by
  unfold onMemory Action.on
  dsimp only
  cases action h.memory journal with
  | done value memory journal' => exact ⟨memory, rfl⟩
  | raised error memory journal' => exact sameShape_of_slots rfl
  | aborted fault => trivial

lemma sameShape_onMemory (action : Action Allocator α) : (onMemory action).Within SameShape := by
  refine fun h journal => (onMemory_leaves action h journal).imp_done ?_
  rintro _ _ ⟨memory, rfl⟩
  exact sameShape_of_slots rfl

lemma sameShape_put {k : Kind} (ref : Ref k) (content : k.Content) :
    (modify (·.put ref content) : Action Heap Unit).Within SameShape :=
  within_modify fun h => sameShape_updateEntry h ref.id _

lemma sameShape_write (id : ObjectId) (offset : Nat) (bytes : List UInt8) :
    (modify (·.writeBytes id offset bytes) : Action Heap Unit).Within SameShape :=
  within_modify fun h => sameShape_writeBytes h id offset bytes

lemma sameShape_onContent {k : Kind} (ref : Ref k) (action : Action k.Content α) :
    (Heap.onContent ref action).Within SameShape := by
  intro h journal
  cases hget : h.get? ref with
  | none =>
      unfold Heap.onContent take?
      rw [hget]
      trivial
  | some content =>
      rw [onContent_apply hget]
      cases action content journal with
      | done value content journal => exact sameShape_updateEntry h ref.id _
      | raised error content journal => exact sameShape_updateEntry h ref.id _
      | aborted fault => trivial

lemma sameShape_setChar (ref : Ref .string) (index : Nat) (byte : UInt8) :
    (Heap.setChar ref index byte).Within SameShape := by
  have hstore : (do
      let record ← (← get).read ref
      if record.capacity ≤ index then return false
      let length := max record.length (index + 1)
      modify (·.writeBytes ref.id index [byte])
      let bytes := (← get).bytes ref.id length
      modify (·.put ref ⟨length, record.capacity, Hash.ofBytes bytes, (decode? bytes).isSome⟩)
      return true : Action Heap Bool).Within SameShape := by
    refine within_get.bind fun h => (within_lift _).bind fun record => ?_
    refine Within.ite (within_pure false) ?_
    exact (sameShape_write ref.id index [byte]).bind fun _ => within_get.bind fun _ =>
      (sameShape_put ref _).bind fun _ => within_pure true
  exact Within.ite (within_abort _) hstore

lemma sameShape_writeElement (ref : Ref .array) (kind : ArrayKind) (index : Nat) (scalar : Scalar) :
    (writeElement ref kind index scalar).Within SameShape :=
  (within_lift _).bind fun bytes => sameShape_write ref.id _ bytes

lemma sameShape_writeZeros (ref : Ref .array) (kind : ArrayKind) (count index : Nat) :
    (writeZeros ref kind count index).Within SameShape := by
  induction count generalizing index with
  | zero => exact within_pure ()
  | succ count ih => exact (sameShape_writeElement ref kind index _).bind fun _ => ih (index + 1)

lemma sameShape_arraySet (ref : Ref .array) (index : Nat) (scalar : Scalar) :
    (Heap.arraySet ref index scalar).Within SameShape := by
  refine within_get.bind fun h => (within_lift _).bind fun array => Within.ite (within_pure false) ?_
  exact (sameShape_writeZeros ref _ _ _).bind fun _ =>
    (sameShape_writeElement ref _ _ _).bind fun _ => (sameShape_put ref _).bind fun _ => within_pure true

lemma sameShape_resize (id : ObjectId) : (Heap.resize id).Within SameShape := by
  refine within_get.bind fun h => ?_
  split
  · exact within_pure ()
  · refine Within.ite (within_abort _) (Within.ite ?_ (within_pure ()))
    exact (sameShape_onMemory _).bind fun block => within_modify fun h => sameShape_updateEntry h id _

/-- A repair that changes no slot. -/
lemma sameShape_repairing {action : Action Heap α} (haction : action.Within SameShape)
    {repair : Heap → Heap} (hrepair : ∀ h, SameShape h (repair h)) : (action.repairing repair).Within SameShape := by
  intro h journal
  have hends := haction h journal
  unfold Action.repairing
  cases hrun : action h journal with
  | done value h' journal' => exact hends.of_done hrun
  | raised error h' journal' => exact trans_of SameShape (hends.of_raised hrun) (hrepair h')
  | aborted fault => trivial

lemma sameShape_arrayPush (ref : Ref .array) (scalar : Scalar) :
    (Heap.arrayPush ref scalar).Within SameShape := by
  refine within_get.bind fun h => (within_lift _).bind fun array => ?_
  have hset : (do let _ ← Heap.arraySet ref array.length scalar : Action Heap Unit).Within SameShape :=
    (sameShape_arraySet ref array.length scalar).bind fun _ => within_pure ()
  refine Within.ite ((sameShape_put ref _).bind fun _ => ?_) hset
  refine Within.bind (sameShape_repairing (sameShape_resize ref.id) fun h => ?_) fun _ => hset
  exact sameShape_updateEntry h ref.id _

lemma sameShape_arrayPop (ref : Ref .array) : (Heap.arrayPop ref).Within SameShape := by
  refine within_get.bind fun h => (within_lift _).bind fun array => Within.ite (within_pure none) ?_
  exact within_get.bind fun _ => (within_lift _).bind fun last =>
    (sameShape_put ref _).bind fun _ => within_pure last

end SameShape

/-! ### Adding objects -/

/-- An object has been added under an id. Its slot was vacant or is new. -/
structure Placed (id : ObjectId) (h h' : Heap) : Prop where
  before : h.shape? id.index.toNat = some (id.generation, false) ∨
    h.shape? id.index.toNat = none ∧ id.generation = 0
  after : ∀ i, h'.shape? i =
    if i = id.index.toNat then some (id.generation, true) else h.shape? i

lemma Placed.sameShape (hp : Placed id h h₁) (hk : SameShape h₁ h₂) : Placed id h h₂ :=
  ⟨hp.before, fun i => (hk i).trans (hp.after i)⟩

lemma Placed.of_sameShape (hk : SameShape h h₁) (hp : Placed id h₁ h₂) : Placed id h h₂ := by
  refine ⟨?_, fun i => ?_⟩
  · rw [← hk]
    exact hp.before
  · rw [← hk]
    exact hp.after i

lemma Placed.occupied_before (hp : Placed id h h') : h.occupied id.index.toNat = false := by
  unfold occupied
  rcases hp.before with hvacant | ⟨hnew, -⟩
  · rw [hvacant]
    rfl
  · rw [hnew]
    rfl

lemma Placed.age_before (hp : Placed id h h') : h.age id.index.toNat = id.generation := by
  unfold age
  rcases hp.before with hvacant | ⟨hnew, hzero⟩
  · rw [hvacant]
    rfl
  · rw [hnew, hzero]
    rfl

lemma Placed.occupied_after (hp : Placed id h h') : h'.occupied id.index.toNat = true := by
  rw [occupied, hp.after, if_pos rfl]
  rfl

lemma Placed.age_after (hp : Placed id h h') : h'.age id.index.toNat = id.generation := by
  rw [age, hp.after, if_pos rfl]
  rfl

lemma Placed.turn (hp : Placed id h h') (i : Nat) : Turn 0 (h.shape? i) (h'.shape? i) := by
  rw [hp.after]
  split
  case isTrue heq =>
    subst heq
    rcases hp.before with hvacant | ⟨hnew, hzero⟩
    · rw [hvacant]
      exact .filled _
    · rw [hnew, hzero]
      exact .added
  case isFalse => exact .kept _

/-- A new id has the generation that its slot had. -/
lemma Indexed.placed_occupy (hi : h.Indexed) (entry : Entry) (hroom : h.hasRoom = true) :
    Placed (h.occupy entry).1 h (h.occupy entry).2 := by
  unfold Heap.occupy
  cases hvacant : h.vacant with
  | nil =>
      have hsize : h.slots.size < slotLimit := by simpa [hasRoom, hvacant] using hroom
      have hword : (UInt32.ofNat h.slots.size).toNat = h.slots.size :=
        UInt32.toNat_ofNat_of_lt' (Nat.lt_trans hsize (by decide))
      refine ⟨.inr ⟨?_, rfl⟩, fun i => ?_⟩
      · rw [hword, shape?, Array.getElem?_eq_none (Nat.le_refl _)]
        rfl
      · rw [hword, shape?, Array.getElem?_push, apply_ite (Option.map _)]
        rfl
  | cons index vacant =>
      obtain ⟨frees, hslot⟩ := (hi.vacant index).mp (by simp [hvacant])
      simp only [hslot, Option.map_some, Option.getD_some, setIfInBounds_eq_modify]
      refine ⟨.inl ?_, fun i => ?_⟩
      · rw [shape?, hslot]
        rfl
      · rw [shape?, Array.getElem?_modify]
        by_cases heq : i = index.toNat
        · subst heq
          rw [if_pos rfl, if_pos rfl, hslot]
          rfl
        · rw [if_neg heq, if_neg (Ne.symm heq)]
          rfl

lemma Indexed.insert_ends (hi : h.Indexed) (object : Object) (pinned : Bool) (journal : Journal) :
    (Heap.insert object pinned h journal).Ends (fun id h' => Placed id h h')
      (fun _ h' => SameShape h h') fun _ => True := by
  unfold Heap.insert
  split
  · trivial
  refine Outcome.Ends.bind (onMemory_leaves _ h journal) ?_
  rintro block _ journal ⟨memory, rfl⟩
  have hi' : ({ h with memory := memory } : Heap).Indexed := ⟨hi.size, hi.vacant, hi.nodup⟩
  rw [note_bind, get_bind]
  cases hroom : ({ h with memory := memory } : Heap).hasRoom with
  | false => trivial
  | true =>
      have hk : SameShape h { h with memory := memory } := sameShape_of_slots rfl
      exact .of_sameShape hk (hi'.placed_occupy ⟨block, false, pinned, object⟩ hroom)

lemma Indexed.insertText_ends (hi : h.Indexed) (text : String) (pinned : Bool) (journal : Journal) :
    (Heap.insertText text pinned h journal).Ends (fun ref h' => Placed ref.id h h')
      (fun _ h' => SameShape h h') fun _ => True := by
  refine Outcome.Ends.bind (hi.insert_ends _ pinned journal) fun id h₁ journal₁ hp => ?_
  exact hp.sameShape (sameShape_writeBytes h₁ id 0 _)

lemma Indexed.copyArray_ends (hi : h.Indexed) (ref : Ref .array) (journal : Journal) :
    (Heap.copyArray ref h journal).Ends (fun copy h' => Placed copy.id h h')
      (fun _ h' => SameShape h h') fun _ => True := by
  unfold Heap.copyArray
  rw [get_bind]
  cases hget : h.get? ref with
  | none =>
      rw [read_of_none hget]
      trivial
  | some array =>
      simp only [read_of_get? hget, lift_ok, pure_bind]
      have halloc : (Heap.alloc .array array h journal).Ends (fun copy h' => Placed copy.id h h')
          (fun _ h' => SameShape h h') fun _ => True :=
        Outcome.Ends.bind (hi.insert_ends _ false journal) fun _ _ _ hp => hp
      refine halloc.bind fun copy h₁ journal₁ hp => ?_
      exact hp.sameShape (sameShape_writeBytes h₁ copy.id 0 _)

/-! ### Sweeping -/

/-- An object that leaves its slot raises the generation. -/
lemma shape?_vacate {index frees : Nat} {entry : Option Entry}
    (hslot : h.slots[index]? = some ⟨frees, entry⟩) (i : Nat) :
    (h.vacate index).shape? i =
      if i = index then some (UInt32.ofNat frees + 1, false) else h.shape? i := by
  rw [shape?, vacate, Array.getElem?_modify]
  by_cases heq : i = index
  · subst heq
    rw [if_pos rfl, if_pos rfl, hslot]
    exact congrArg (fun g => some (g, false)) (UInt32.ofNat_add frees 1)
  · rw [if_neg heq, if_neg (Ne.symm heq)]
    rfl

/-- A slot is freed or keeps its object, and no other one changes. -/
lemma sweepSlot_ends (index : Nat) (sweep : Sweep) (h : Heap) (journal : Journal) :
    (Heap.sweepSlot index sweep h journal).Ends
      (fun _ h' => (∃ n, Turn n (h.shape? index) (h'.shape? index)) ∧
        ∀ i, i ≠ index → h'.shape? i = h.shape? i)
      (fun _ h' => SameShape h h') fun _ => True := by
  have hsame : ∀ {h' : Heap}, SameShape h h' → (∃ n, Turn n (h.shape? index) (h'.shape? index)) ∧
      ∀ i, i ≠ index → h'.shape? i = h.shape? i := fun hk =>
    ⟨⟨0, hk index ▸ .kept _⟩, fun i _ => hk i⟩
  unfold Heap.sweepSlot
  rw [get_bind]
  rcases hslot : h.slots[index]? with _ | ⟨frees, _ | entry⟩
  · exact hsame fun _ => rfl
  · exact hsame fun _ => rfl
  -- survivors lose their mark, which no shape shows
  by_cases hmarked : (entry.marked || entry.pinned) = true
  · simp only [if_pos hmarked, modify_bind]
    exact hsame (remarked_unmark h index).sameShape
  simp only [if_neg hmarked, note_bind]
  refine Outcome.Ends.bind (onMemory_leaves _ h _) ?_
  rintro _ _ journal₁ ⟨memory, rfl⟩
  have hshape : h.shape? index = some (UInt32.ofNat frees, true) := by
    rw [shape?, hslot]
    rfl
  have hvacate := shape?_vacate (h := { h with memory := memory }) hslot
  refine ⟨⟨1, ?_⟩, fun i hi => (hvacate i).trans (if_neg hi)⟩
  rw [hshape, (hvacate index).trans (if_pos rfl)]
  exact .freed _

/-- Every slot of a range is freed or keeps its object. Slots below the range are not visited
again. -/
lemma sweepFrom_ends (count index : Nat) (sweep : Sweep) (h : Heap) (journal : Journal) :
    (Heap.sweepFrom count index sweep h journal).Ends
      (fun _ h' => ∀ i, (∃ n, Turn n (h.shape? i) (h'.shape? i)) ∧
        (i < index → h'.shape? i = h.shape? i))
      (fun _ h' => ∀ i, (∃ n, Turn n (h.shape? i) (h'.shape? i)) ∧
        (i < index → h'.shape? i = h.shape? i)) fun _ => True := by
  induction count generalizing h index sweep journal with
  | zero => exact fun i => ⟨⟨0, .kept _⟩, fun _ => rfl⟩
  | succ count ih =>
      refine Outcome.Ends.bind ((sweepSlot_ends index sweep h journal).imp (fun _ _ => id)
        (fun _ h' hk i => ⟨⟨0, hk i ▸ .kept _⟩, fun _ => hk i⟩) fun _ => id) ?_
      rintro sweep₁ h₁ journal₁ ⟨hturn, hothers⟩
      have hnext : ∀ h₂ : Heap, (∀ i, (∃ n, Turn n (h₁.shape? i) (h₂.shape? i)) ∧
            (i < index + 1 → h₂.shape? i = h₁.shape? i)) →
          ∀ i, (∃ n, Turn n (h.shape? i) (h₂.shape? i)) ∧ (i < index → h₂.shape? i = h.shape? i) := by
        intro h₂ hrest i
        by_cases heq : i = index
        · subst heq
          rw [(hrest i).2 (Nat.lt_succ_self i)]
          exact ⟨hturn, fun hlt => absurd hlt (Nat.lt_irrefl i)⟩
        · rw [← hothers i heq]
          exact ⟨(hrest i).1, fun hlt => (hrest i).2 (Nat.lt_succ_of_lt hlt)⟩
      exact (ih (index + 1) sweep₁ h₁ journal₁).imp (fun _ h₂ => hnext h₂) (fun _ h₂ => hnext h₂)
        fun _ => id

/-- An action takes every slot at most one turn. -/
def Turns {α : Type} (h : Heap) (outcome : Outcome Heap α) : Prop :=
  outcome.Ends (fun _ h' => ∀ i, ∃ n, Turn n (h.shape? i) (h'.shape? i))
    (fun _ h' => ∀ i, ∃ n, Turn n (h.shape? i) (h'.shape? i)) fun _ => True

lemma SameShape.turn (hk : SameShape h h') (i : Nat) : ∃ n, Turn n (h.shape? i) (h'.shape? i) :=
  ⟨0, hk i ▸ .kept _⟩

lemma turns_sweep (h : Heap) (journal : Journal) : Turns h (Heap.sweep h journal) := by
  unfold Heap.sweep
  rw [get_bind]
  cases hgray : h.gray.isEmpty with
  | false => trivial
  | true =>
      exact (sweepFrom_ends h.slots.size 0 ⟨0, 0⟩ h journal).imp (fun _ _ hends i => (hends i).1)
        (fun _ _ hends i => (hends i).1) fun _ => id

/-! ### Every operation -/

section Operations

variable {α : Type} {action : Action Heap α}

lemma turns_of_sameShape (haction : action.Within SameShape) (h : Heap) (journal : Journal) :
    Turns h (action h journal) :=
  (haction h journal).imp (fun _ _ => SameShape.turn) (fun _ _ => SameShape.turn) fun _ => id

lemma turns_of_placed {issued : α → ObjectId}
    (hends : (action h journal).Ends (fun value h' => Placed (issued value) h h')
      (fun _ h' => SameShape h h') fun _ => True) : Turns h (action h journal) :=
  hends.imp (fun _ _ hp i => ⟨0, hp.turn i⟩) (fun _ _ => SameShape.turn) fun _ => id

/-- An operation takes every slot at most one turn. -/
lemma Public.turns (hp : Public action) (hi : h.Indexed) (journal : Journal) :
    Turns h (action h journal) := by
  cases hp with
  | insert object pinned valid => exact turns_of_placed (hi.insert_ends object pinned journal)
  | insertText text pinned => exact turns_of_placed (hi.insertText_ends text pinned journal)
  | onContent ref action plain => exact turns_of_sameShape (sameShape_onContent ref action) h journal
  | setChar ref index byte => exact turns_of_sameShape (sameShape_setChar ref index byte) h journal
  | arraySet ref index scalar =>
      exact turns_of_sameShape (sameShape_arraySet ref index scalar) h journal
  | arrayPush ref scalar => exact turns_of_sameShape (sameShape_arrayPush ref scalar) h journal
  | arrayPop ref => exact turns_of_sameShape (sameShape_arrayPop ref) h journal
  | copyArray ref => exact turns_of_placed (hi.copyArray_ends ref journal)
  | resize id => exact turns_of_sameShape (sameShape_resize id) h journal
  | mark id => exact (remarked_mark h id).sameShape.turn
  | trace => exact (remarked_traceFor _ h).sameShape.turn
  | sweep => exact turns_sweep h journal
  | grant grants => exact (sameShape_of_slots rfl : SameShape h (h.granting grants)).turn

end Operations

/-! ### Runs -/

/-- How often an operation frees a slot: an object was in it, and none is any more. -/
def vacated (h h' : Heap) (i : Nat) : Nat := if h.occupied i && !h'.occupied i then 1 else 0

/-- The heap `h` becomes `h'` in a run of operations, which frees slot `i` in `frees i` of
them. -/
inductive Passage (h : Heap) : (frees : Nat → Nat) → (h' : Heap) → Prop
  | start : Passage h (fun _ => 0) h
  | next {frees : Nat → Nat} {h₁ h₂ : Heap} {α : Type} {action : Action Heap α}
      (past : Passage h frees h₁) (operation : Public action) (journal : Journal)
      (run : (action h₁ journal).state? = some h₂) :
      Passage h (fun i => frees i + vacated h₁ h₂ i) h₂

lemma Turn.eq_vacated {i : Nat} (ht : Turn n (h.shape? i) (h'.shape? i)) : n = vacated h h' i := by
  unfold vacated occupied
  generalize h.shape? i = s at ht ⊢
  generalize h'.shape? i = s' at ht ⊢
  cases ht with
  | kept => rw [Bool.and_not_self]; rfl
  | filled | added | freed => rfl

/-- The generation rises by one if the slot is freed. -/
lemma Turn.age {i : Nat} (ht : Turn n (h.shape? i) (h'.shape? i)) :
    h'.age i = h.age i + UInt32.ofNat n := by
  unfold Heap.age
  generalize h.shape? i = s at ht ⊢
  generalize h'.shape? i = s' at ht ⊢
  cases ht with
  | kept | filled => exact (UInt32.add_zero _).symm
  | added | freed => rfl

/-- An object stays in its slot if the slot is not freed. -/
lemma Turn.occupied {i : Nat} (ht : Turn 0 (h.shape? i) (h'.shape? i))
    (hoccupied : h.occupied i = true) : h'.occupied i = true := by
  unfold Heap.occupied at hoccupied ⊢
  generalize h.shape? i = s at ht hoccupied
  generalize h'.shape? i = s' at ht ⊢
  cases ht with
  | kept => exact hoccupied
  | filled | added => rfl

variable {frees since : Nat → Nat}

/-- What a run preserves, and what it does to each slot. -/
structure Passed (frees : Nat → Nat) (h h' : Heap) : Prop where
  sound : h'.Sound
  age : ∀ i, h'.age i = h.age i + UInt32.ofNat (frees i)
  occupied : ∀ i, frees i = 0 → h.occupied i = true → h'.occupied i = true

lemma Passage.passed (hp : Passage h frees h') (hs : h.Sound) : Passed frees h h' := by
  induction hp with
  | start => exact ⟨hs, fun i => (UInt32.add_zero _).symm, fun _ _ => id⟩
  | @next frees h₁ h₂ α action past operation journal run ih =>
      have hturns := (operation.turns ih.sound.toIndexed journal).of_state? run
      refine ⟨(operation.leaves_sound ih.sound journal).of_state? run, fun i => ?_, fun i hzero hi => ?_⟩
      · obtain ⟨n, hturn⟩ := hturns i
        rw [hturn.age, ih.age, ← hturn.eq_vacated, UInt32.ofNat_add, UInt32.add_assoc]
      · obtain ⟨n, hturn⟩ := hturns i
        rw [← hturn.eq_vacated] at hzero
        obtain rfl : n = 0 := by omega
        exact hturn.occupied (ih.occupied i (by omega) hi)

/-! ### Ids -/

/-- An operation adds an object under an id. -/
inductive Issued (h : Heap) (id : ObjectId) (h' : Heap) : Prop
  | insert (object : Object) (pinned : Bool) (valid : object.Valid) (journal journal' : Journal)
      (run : Heap.insert object pinned h journal = .done id h' journal')
  | insertText (text : String) (pinned : Bool) (journal journal' : Journal)
      (run : Heap.insertText text pinned h journal = .done ⟨id⟩ h' journal')
  | copyArray (ref : Ref .array) (journal journal' : Journal)
      (run : Heap.copyArray ref h journal = .done ⟨id⟩ h' journal')

lemma Issued.placed (hi : Issued h id h') (hindexed : h.Indexed) : Placed id h h' := by
  cases hi with
  | insert object pinned valid journal _ run =>
      exact (hindexed.insert_ends object pinned journal).of_done run
  | insertText text pinned journal _ run =>
      exact (hindexed.insertText_ends text pinned journal).of_done run
  | copyArray ref journal _ run => exact (hindexed.copyArray_ends ref journal).of_done run

lemma Issued.sound (hi : Issued h id h') (hs : h.Sound) : h'.Sound := by
  cases hi with
  | insert object pinned valid journal _ run =>
      exact ((Public.insert object pinned valid).leaves_sound hs journal).of_done run
  | insertText text pinned journal _ run =>
      exact ((Public.insertText text pinned).leaves_sound hs journal).of_done run
  | copyArray ref journal _ run => exact ((Public.copyArray ref).leaves_sound hs journal).of_done run

/-- The ways to look up what an id names. -/
def lookups : List (Heap → ObjectId → Bool) :=
  [contains, fun h id => (h.find? id).isSome, fun h id => (h.object? id).isSome,
    fun h id => (h.block? id).isSome]

/-- An id is accepted if there is an object in its slot and the generation is that of the id. -/
lemma accepts_iff {accepts : Heap → ObjectId → Bool} (hmem : accepts ∈ lookups) :
    accepts h id = true ↔
      h.occupied id.index.toNat = true ∧ h.age id.index.toNat = id.generation := by
  have hfind : (h.find? id).isSome = true ↔
      h.occupied id.index.toNat = true ∧ h.age id.index.toNat = id.generation := by
    unfold find? occupied age shape?
    cases h.slots[id.index.toNat]? with
    | none => simp
    | some slot =>
        by_cases hgeneration : slot.generation = id.generation
        · simp [hgeneration]
        · simp [hgeneration]
  simp only [lookups, List.mem_cons, List.not_mem_nil, or_false] at hmem
  rcases hmem with rfl | rfl | rfl | rfl
  · exact hfind
  · exact hfind
  · simpa [object?] using hfind
  · simpa [block?] using hfind

lemma age_of_create {pageSize : Nat} {grants : Nat → Bool}
    (created : Heap.create pageSize grants = .ok h) (i : Nat) : h.age i = 0 := by
  obtain ⟨memory, -, rfl⟩ := eq_of_create created
  rfl

lemma ofNat_eq_zero_iff (n : Nat) : UInt32.ofNat n = 0 ↔ 4294967296 ∣ n := by
  rw [← UInt32.toNat_inj, UInt32.toNat_ofNat', Nat.dvd_iff_mod_eq_zero]
  rfl

/-- Ids name one object only. The generation of a slot is the number of times that the slot was
freed, up to multiples of its range. So an id is accepted later if and only if there is an object
in its slot, and the slot was freed a multiple of 4294967296 times since the id was issued. Before
a slot was freed so often, no id of an object that was freed is accepted, and no id is issued
again. A heap has no more than `slotLimit` slots, or the operation that needs another one is
aborted. -/
theorem Passage.never_alias {pageSize : Nat} {grants : Nat → Bool} {h₀ : Heap}
    (created : Heap.create pageSize grants = .ok h₀) (past : Passage h₀ frees h) :
    (∀ i slot, h.slots[i]? = some slot → slot.generation.toNat = frees i % 4294967296) ∧
    ∀ id h₁, Issued h id h₁ → ∀ since h₂, Passage h₁ since h₂ →
      (∀ accepts ∈ lookups, accepts h₂ id = true ↔
        h₂.occupied id.index.toNat = true ∧ 4294967296 ∣ since id.index.toNat) ∧
      (since id.index.toNat < 4294967296 →
        (0 < since id.index.toNat → ∀ accepts ∈ lookups, accepts h₂ id = false) ∧
        ∀ id' h₃, Issued h₂ id' h₃ → id' ≠ id) := by
  have hpast := past.passed (sound_of_create created)
  refine ⟨fun i slot hslot => ?_, fun id h₁ hissued since h₂ hrun => ?_⟩
  · have hage : h.age i = slot.generation := by
      rw [Heap.age, shape?, hslot]
      rfl
    rw [← hage, hpast.age, age_of_create created, UInt32.zero_add, UInt32.toNat_ofNat']
  · have hplaced := hissued.placed hpast.sound.toIndexed
    have hpassed := hrun.passed (hissued.sound hpast.sound)
    have hage : h₂.age id.index.toNat = id.generation ↔ 4294967296 ∣ since id.index.toNat := by
      rw [hpassed.age, hplaced.age_after, UInt32.add_eq_left, ofNat_eq_zero_iff]
    have haccepts : ∀ accepts ∈ lookups, accepts h₂ id = true ↔
        h₂.occupied id.index.toNat = true ∧ 4294967296 ∣ since id.index.toNat := fun accepts hmem =>
      (accepts_iff hmem).trans (and_congr_right fun _ => hage)
    refine ⟨haccepts, fun hlt => ⟨fun hpos accepts hmem => ?_, ?_⟩⟩
    · refine Bool.eq_false_iff.mpr fun haccepted => ?_
      have := Nat.le_of_dvd hpos ((haccepts accepts hmem).mp haccepted).2
      omega
    · -- the slot of an id that is issued again has been freed in between
      rintro id' h₃ hissued' rfl
      have hplaced' := hissued'.placed hpassed.sound.toIndexed
      have hdvd := hage.mp hplaced'.age_before
      have hzero : since id'.index.toNat = 0 := Nat.eq_zero_of_dvd_of_lt hdvd hlt
      have hstays := hpassed.occupied _ hzero hplaced.occupied_after
      rw [hplaced'.occupied_before] at hstays
      cases hstays

/-- A string is swept and another one added in its slot: the old id is not accepted any more, and
the new one is another. -/
theorem Passage.never_alias_reused : ∃ (h₀ h₁ h₂ h₃ : Heap) (since : Nat → Nat),
    Heap.create 1024 (fun _ => true) = .ok h₀ ∧ Issued h₀ ⟨0, 0⟩ h₁ ∧ Passage h₁ since h₂ ∧
    since 0 = 1 ∧ Issued h₂ ⟨0, 1⟩ h₃ ∧ h₂.contains ⟨0, 0⟩ = false ∧
    h₃.contains ⟨0, 1⟩ = true := by
  have created : Heap.create 1024 (fun _ => true) = .ok _ := rfl
  have hrun : (Heap.insertText "a" false ⟨⟨1024, #[], [], 0, 0, fun _ => true⟩, #[], [], []⟩
      .silent).done?.any (fun first => first.1.id = ⟨0, 0⟩ &&
        (Heap.sweep first.2.1 first.2.2).done?.any fun second =>
          vacated first.2.1 second.2.1 0 = 1 &&
          (Heap.insertText "b" false second.2.1 second.2.2).done?.any fun last =>
            last.1.id = ⟨0, 1⟩ && last.2.1.contains ⟨0, 1⟩) = true := by
    decide +kernel
  obtain ⟨⟨⟨_⟩, h₁, journal₁⟩, hfirst, hrun⟩ := (Option.any_eq_true _ _).mp hrun
  simp only [Bool.and_eq_true, decide_eq_true_eq, Option.any_eq_true] at hrun
  obtain ⟨rfl, ⟨swept, h₂, journal₂⟩, hsecond, hvacated, ⟨⟨_⟩, h₃, journal₃⟩, hlast, rfl, hnew⟩ := hrun
  have hissued : Issued _ ⟨0, 0⟩ h₁ :=
    .insertText "a" false .silent journal₁ (Outcome.eq_of_done? hfirst)
  have hpassage : Passage h₁ (fun i => 0 + vacated h₁ h₂ i) h₂ :=
    Passage.start.next .sweep journal₁ (by rw [Outcome.eq_of_done? hsecond]; rfl)
  have hsince : 0 + vacated h₁ h₂ 0 = 1 := by rw [hvacated]
  obtain ⟨-, hids⟩ := Passage.never_alias created .start
  obtain ⟨-, hrest⟩ := hids ⟨0, 0⟩ h₁ hissued _ h₂ hpassage
  have hlt : 0 + vacated h₁ h₂ 0 < 4294967296 := by rw [hsince]; decide
  have hpos : 0 < 0 + vacated h₁ h₂ 0 := by rw [hsince]; decide
  refine ⟨_, h₁, h₂, h₃, _, created, hissued, hpassage, hsince, ?_, ?_, hnew⟩
  · exact .insertText "b" false journal₂ journal₃ (Outcome.eq_of_done? hlast)
  · exact (hrest hlt).1 hpos contains (by simp [lookups])

end ScriptMachine.Heap
