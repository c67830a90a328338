import ScriptMachine.Proofs.Machine.Captures

/-!
The actions that make and close upvalues.

An action `Leads` from a machine that is ready to another one along a trail. On
the way it `Retains` the values of closed upvalues into which it does not store.

* `Ready.collectIfNeeded`: the listed upvalues survive a collection;
* `Tracked.capture_of_open`, `Ready.capture`: capturing gives the upvalue that
  names the slot;
* `Ready.closeUpvalues`, `Ready.reset`: closing always succeeds.
-/

namespace ScriptMachine.Machine

variable {m m' : Machine} {ref other : Ref .upvalue} {slot : Nat} {closes : Nat → Prop}
  {kept : Ref .upvalue → Prop} {limit : Option Nat} {freed : List ObjectId}

/-! ### Collections -/

lemma onHeap_apply {α : Type} (action : Action Heap α) (m : Machine) (journal : Journal) :
    onHeap action m journal =
      match action m.heap journal with
      | .done value heap journal => .done value { m with heap := heap } journal
      | .raised error heap journal => .raised error { m with heap := heap } journal
      | .aborted fault => .aborted fault := by
  rw [onHeap, Action.on]
  dsimp only
  cases action m.heap journal <;> rfl

/-- What an action of the heap does, as an action of the machine. -/
lemma ends_onHeap {α : Type} {action : Action Heap α} {done : α → Heap → Prop}
    {raised : Error → Heap → Prop} {aborted : Fault → Prop} {journal : Journal}
    (h : (action m.heap journal).Ends done raised aborted) :
    (onHeap action m journal).Ends
      (fun value m' => ∃ heap, m' = { m with heap := heap } ∧ done value heap)
      (fun error m' => ∃ heap, m' = { m with heap := heap } ∧ raised error heap) aborted := by
  rw [onHeap_apply]
  cases hrun : action m.heap journal with
  | done value heap journal' => exact ⟨heap, rfl, h.of_done hrun⟩
  | raised error heap journal' => exact ⟨heap, rfl, h.of_raised hrun⟩
  | aborted fault => exact h.of_aborted hrun

/-- A collection of a machine changes its heap and its threshold. -/
lemma collectGarbage_ends (hs : m.heap.Sound) (hi : m.heap.Idle) (journal : Journal) :
    (collectGarbage m journal).Ends
      (fun _ m' => ∃ heap freed threshold, Heap.Collected m.roots freed m.heap heap ∧
        m' = { m with heap := heap, threshold := threshold })
      (fun _ _ => False) fun fault => fault = .thresholdOverflow := by
  obtain ⟨heap, freed, journal', hrun, hc⟩ := hs.collect hi m.roots
    (journal.note (.collectionBegan m.heap.bytesAllocated))
  have hheap : onHeap (Heap.collect m.roots) m
      (journal.note (.collectionBegan m.heap.bytesAllocated)) =
        .done ⟨freed.length, m.heap.totalSize freed⟩ { m with heap := heap } journal' := by
    rw [onHeap_apply, hrun]
  rw [collectGarbage, Action.get_bind, Action.note_bind, Action.get_bind,
    Action.bind_of_done hheap, Action.get_bind]
  dsimp only
  by_cases hlimit : wordLimit ≤ heap.bytesAllocated * m.config.growFactor
  · rw [if_pos hlimit]
    rfl
  · rw [if_neg hlimit]
    exact ⟨heap, freed, _, hc, rfl⟩

/-! ### Machines between actions -/

/-- What an action does to a machine that is ready. -/
def Leads (closes : Nat → Prop) (m m' : Machine) : Prop := m.Ready → Trail closes m m'

instance : IsPreorder Machine (Leads closes) where
  refl m _ := .refl m
  trans _ _ _ h h' hr := (h hr).trans (h' ((h hr).ready hr))

lemma Leads.ready (h : Leads closes m m') (hr : m.Ready) : m'.Ready := (h hr).ready hr

lemma Leads.mono {closes' : Nat → Prop} (h : Leads closes m m')
    (himp : ∀ slot, closes slot → closes' slot) : Leads closes' m m' := fun hr => (h hr).mono himp

/-- As `Leads`, and of the upvalues in `kept` those that are closed hold the same
value, unless they are freed. -/
def Retains (kept : Ref .upvalue → Prop) (closes : Nat → Prop) (m m' : Machine) : Prop :=
  m.Ready → Trail closes m m' ∧ ∀ ref value, kept ref →
    m'.heap.frees ref.id.index = m.heap.frees ref.id.index → m.Closed ref value → m'.Closed ref value

instance : IsPreorder Machine (Retains kept closes) where
  refl m _ := ⟨.refl m, fun _ _ _ _ => id⟩
  trans _ _ _ h h' hr := by
    obtain ⟨ht, hsame⟩ := h hr
    obtain ⟨ht', hsame'⟩ := h' (ht.ready hr)
    refine ⟨ht.trans ht', fun ref value hkept hfrees hclosed => ?_⟩
    have hle := ht.frees_le ref.id.index
    have hle' := ht'.frees_le ref.id.index
    exact hsame' ref value hkept (by omega) (hsame ref value hkept (by omega) hclosed)

lemma Retains.leads (h : Retains kept closes m m') : Leads closes m m' := fun hr => (h hr).1

lemma Leads.retains (h : Leads closes m m') : Retains (fun _ => False) closes m m' :=
  fun hr => ⟨h hr, fun _ _ => False.elim⟩

lemma Retains.mono {closes' : Nat → Prop} (h : Retains kept closes m m')
    (himp : ∀ slot, closes slot → closes' slot) : Retains kept closes' m m' :=
  fun hr => ⟨(h hr).1.mono himp, (h hr).2⟩

/-- A move that leaves a sound heap and stores into none of the kept upvalues. -/
lemma Move.retains (hm : Move limit m m') (hlimit : ∀ first ∈ limit, closes first)
    (hle : ∀ i, m.heap.frees i ≤ m'.heap.frees i) (hs : m'.heap.Sound) (hi : m'.heap.Idle)
    (hsame : ∀ ref value, kept ref → m'.heap.frees ref.id.index = m.heap.frees ref.id.index →
      m.Closed ref value → m'.Closed ref value) : Retains kept closes m m' :=
  fun _ => ⟨(Trail.refl m).tail hm hlimit hle hs hi, hsame⟩

/-- A part of the machine changes that is neither the heap nor the list. -/
lemma retains_of_eq (hheap : m'.heap = m.heap) (hlisted : m'.openUpvalues = m.openUpvalues) :
    Retains kept closes m m' := by
  intro hr
  refine Move.retains (.other (fun ref => ?_) hlisted) (by simp) ?_ ?_ ?_ (fun ref value _ _ => ?_) hr
  · rw [hheap]
  · exact fun i => Nat.le_of_eq (by rw [hheap])
  · exact hheap ▸ hr.sound
  · exact hheap ▸ hr.idle
  · rw [Closed, Closed, hheap]
    exact id

/-- The heap changes, and no upvalue does. -/
lemma retains_of_steady (hsteady : Heap.Steady .upvalue m.heap m'.heap)
    (hlisted : m'.openUpvalues = m.openUpvalues) : Retains kept closes m m' := by
  intro hr
  obtain ⟨hs, hi, hspares⟩ := hsteady hr.sound hr.idle
  exact Move.retains (.other hspares.get? hlisted) (by simp) hspares.aged.frees_le hs hi
    (fun ref _ _ _ => (hspares.get? ref).trans) hr

/-- How an outcome leads on from a machine, with what it retains. -/
def RetainsFrom {α : Type} (kept : Ref .upvalue → Prop) (closes : Nat → Prop) (m : Machine)
    (outcome : Outcome Machine α) : Prop :=
  outcome.Ends (fun _ m' => Retains kept closes m m') (fun _ m' => Retains kept closes m m')
    fun _ => True

lemma Retains.followed_by {m₁ : Machine} {α : Type} {outcome : Outcome Machine α}
    (h : Retains kept closes m m₁) (h' : RetainsFrom kept closes m₁ outcome) :
    RetainsFrom kept closes m outcome :=
  Outcome.Ends.imp h' (fun _ _ => trans_of _ h) (fun _ _ => trans_of _ h) fun _ => id

lemma within_leads {α : Type} {action : Action Machine α}
    (h : action.Within (Retains (fun _ => False) closes)) : action.Within (Leads closes) :=
  h.imp fun _ _ => Retains.leads

/-- An action that is looked at on machines that are ready only. -/
lemma within_retains {α : Type} {action : Action Machine α}
    (hends : ∀ m journal, m.Ready → RetainsFrom kept closes m (action m journal)) :
    action.Within (Retains kept closes) := by
  intro m journal
  cases hrun : action m journal with
  | done value m' journal' => exact fun hr => (hends m journal hr).of_done hrun hr
  | raised error m' journal' => exact fun hr => (hends m journal hr).of_raised hrun hr
  | aborted fault => trivial

/-- Collecting if it is time to: nothing, or a collection. -/
lemma collectIfNeeded_ends (hs : m.heap.Sound) (hi : m.heap.Idle) (journal : Journal) :
    (collectIfNeeded m journal).Ends
      (fun _ m' => m' = m ∨ ∃ heap freed threshold, Heap.Collected m.roots freed m.heap heap ∧
        m' = { m with heap := heap, threshold := threshold })
      (fun _ _ => False) fun fault => fault = .thresholdOverflow := by
  rw [collectIfNeeded, Action.get_bind]
  by_cases hwants : m.wantsCollection = true
  · rw [if_pos hwants]
    exact (collectGarbage_ends hs hi journal).bind fun _ _ _ hm => .inr hm
  · rw [if_neg hwants]
    exact .inl rfl

/-- Closed upvalues that a collection does not free stay as they are. -/
lemma retains_collected (hc : Heap.Collected m.roots freed m.heap m'.heap)
    (hlisted : m'.openUpvalues = m.openUpvalues) : Retains kept closes m m' :=
  Move.retains (.collect hc hlisted) (by simp) hc.aged.frees_le hc.sound hc.idle fun _ _ _ hfrees hclosed =>
    hclosed.collected hc hfrees

lemma within_collectGarbage : collectGarbage.Within (Retains kept closes) := by
  refine within_retains fun m journal hr => ?_
  refine (collectGarbage_ends hr.sound hr.idle journal).imp ?_ (fun _ _ h => h.elim) fun _ _ => trivial
  rintro _ m' ⟨heap, freed, threshold, hc, rfl⟩
  exact retains_collected hc rfl

lemma within_onHeap {α : Type} {action : Action Heap α}
    (h : action.Within (Heap.Steady .upvalue)) : (onHeap action).Within (Retains kept closes) :=
  h.on fun _ _ hsteady => retains_of_steady hsteady rfl

/-! ### Looking a slot up -/

lemma OpenAt.openSlot_eq (h : m.OpenAt ref slot) : openSlot m.heap ref = .ok slot := by
  rw [openSlot, Heap.read_of_get? h]
  rfl

/-- Cutting a list of open upvalues that is ordered by slot. -/
lemma splitAtSlot_of_sorted (slot : Nat) {refs : List (Ref .upvalue)}
    (hsorted : refs.Pairwise m.Below) (hopen : ∀ ref ∈ refs, ∃ i, m.OpenAt ref i) :
    ∃ below above, splitAtSlot m.heap slot refs = .ok (below, above) ∧ refs = below ++ above ∧
      (∀ ref ∈ below, ∃ i < slot, m.OpenAt ref i) ∧ ∀ ref ∈ above, ∃ i ≥ slot, m.OpenAt ref i := by
  induction refs with
  | nil => exact ⟨[], [], rfl, rfl, by simp, by simp⟩
  | cons ref refs ih =>
      obtain ⟨hfirst, hrest⟩ := List.pairwise_cons.mp hsorted
      obtain ⟨i, hi⟩ := hopen ref List.mem_cons_self
      rw [splitAtSlot, hi.openSlot_eq]
      by_cases hlt : i < slot
      · obtain ⟨below, above, hrun, hrefs, hlower, hhigher⟩ :=
          ih hrest fun r hr => hopen r (List.mem_cons_of_mem ref hr)
        refine ⟨ref :: below, above, ?_, congrArg (ref :: ·) hrefs, ?_, hhigher⟩
        · simp only [hrun, bind, Except.bind, if_pos hlt]
          rfl
        · exact List.forall_mem_cons.mpr ⟨⟨i, hlt, hi⟩, hlower⟩
      · refine ⟨[], ref :: refs, ?_, rfl, by simp, ?_⟩
        · simp only [bind, Except.bind, if_neg hlt]
          rfl
        · refine List.forall_mem_cons.mpr ⟨⟨i, by omega, hi⟩, fun r hr => ?_⟩
          obtain ⟨i', j, hi', hj, hlt'⟩ := hfirst r hr
          have := hi'.slot_eq hi
          exact ⟨j, by omega, hj⟩

lemma Tracked.splitAtSlot (ht : m.Tracked) (slot : Nat) :
    ∃ below above, splitAtSlot m.heap slot m.openUpvalues = .ok (below, above) ∧
      m.openUpvalues = below ++ above ∧ (∀ ref ∈ below, ∃ i < slot, m.OpenAt ref i) ∧
      ∀ ref ∈ above, ∃ i ≥ slot, m.OpenAt ref i :=
  splitAtSlot_of_sorted slot ht.sorted fun ref => (ht.open_iff ref).mp

/-- The first upvalue past the cut names the slot, or all of them name higher
slots. -/
lemma Tracked.head_or_higher {below above : List (Ref .upvalue)} (ht : m.Tracked)
    (hlisted : m.openUpvalues = below ++ above)
    (hhigher : ∀ ref ∈ above, ∃ i ≥ slot, m.OpenAt ref i) :
    (∃ ref rest, above = ref :: rest ∧ m.OpenAt ref slot) ∨
      ∀ ref ∈ above, ∃ i > slot, m.OpenAt ref i := by
  cases above with
  | nil => exact .inr (by simp)
  | cons first rest =>
      obtain ⟨i, hle, hi⟩ := hhigher first List.mem_cons_self
      rcases Nat.eq_or_lt_of_le hle with rfl | hlt
      · exact .inl ⟨first, rest, rfl, hi⟩
      · refine .inr (List.forall_mem_cons.mpr ⟨⟨i, hlt, hi⟩, fun r hr => ?_⟩)
        have hsorted := (List.pairwise_append.mp (hlisted ▸ ht.sorted)).2.1
        obtain ⟨i', j, hi', hj, hlt'⟩ := (List.pairwise_cons.mp hsorted).1 r hr
        have := hi'.slot_eq hi
        exact ⟨j, by omega, hj⟩

/-! ### Capturing -/

section Capture

variable {below above rest : List (Ref .upvalue)}

lemma capture_of_head (hsplit : splitAtSlot m.heap slot m.openUpvalues = .ok (below, ref :: rest))
    (hopen : m.OpenAt ref slot) (journal : Journal) :
    capture slot m journal = .done ref m journal := by
  rw [capture, Action.get_bind, hsplit]
  simp only [Action.lift_ok, pure_bind, hopen.openSlot_eq]
  rfl

lemma capture_of_higher (hsplit : splitAtSlot m.heap slot m.openUpvalues = .ok (below, above))
    (hhigher : ∀ ref ∈ above, ∃ i > slot, m.OpenAt ref i) (journal : Journal) :
    capture slot m journal = (do
      let ref ← alloc .upvalue (.opened slot)
      modify fun m => { m with openUpvalues := below ++ ref :: above }
      return ref : Action Machine (Ref .upvalue)) m journal := by
  rw [capture, Action.get_bind, hsplit]
  simp only [Action.lift_ok, pure_bind]
  cases above with
  | nil => rfl
  | cons first rest =>
      obtain ⟨i, hlt, hi⟩ := hhigher first List.mem_cons_self
      simp only [hi.openSlot_eq, Action.lift_ok, pure_bind, if_neg (Nat.ne_of_gt hlt)]

end Capture

/-- A slot that an upvalue names already. -/
lemma Tracked.capture_of_open (ht : m.Tracked) (hopen : m.OpenAt ref slot) (journal : Journal) :
    capture slot m journal = .done ref m journal := by
  obtain ⟨below, above, hsplit, hlisted, hlower, hhigher⟩ := ht.splitAtSlot slot
  rcases ht.head_or_higher hlisted hhigher with ⟨first, rest, rfl, hfirst⟩ | hhigher
  · obtain rfl := ht.unique hfirst hopen
    exact capture_of_head hsplit hfirst journal
  · have hmem := (ht.open_iff ref).mpr ⟨slot, hopen⟩
    rw [hlisted, List.mem_append] at hmem
    rcases hmem with hmem | hmem
    · obtain ⟨i, hlt, hi⟩ := hlower ref hmem
      have := hi.slot_eq hopen
      omega
    · obtain ⟨i, hlt, hi⟩ := hhigher ref hmem
      have := hi.slot_eq hopen
      omega

/-- Before a new upvalue is made, there may be a collection, which the listed
upvalues survive. -/
lemma Ready.collectIfNeeded (hr : m.Ready) (journal : Journal) :
    (collectIfNeeded m journal).Ends
      (fun _ m' => Retains kept closes m m' ∧ m'.openUpvalues = m.openUpvalues ∧
        ∀ ref slot, m.OpenAt ref slot → m'.OpenAt ref slot)
      (fun _ m' => Retains kept closes m m') fun _ => True := by
  refine (collectIfNeeded_ends hr.sound hr.idle journal).imp ?_ (fun _ _ h => h.elim)
    fun _ _ => trivial
  rintro _ m' (rfl | ⟨heap, freed, threshold, hc, rfl⟩)
  · exact ⟨refl_of (Retains kept closes) m', rfl, fun _ _ => id⟩
  · exact ⟨retains_collected hc rfl, rfl, fun ref slot hopen =>
      (hr.toTracked.collected hc ((hr.open_iff ref).mpr ⟨slot, hopen⟩)).trans hopen⟩

/-- The upvalue that a capture gives names the slot. -/
lemma Ready.capture (hr : m.Ready) (slot : Nat) (journal : Journal) :
    (capture slot m journal).Ends (fun ref m' => m'.OpenAt ref slot ∧ Retains kept closes m m')
      (fun _ m' => Retains kept closes m m') fun _ => True := by
  obtain ⟨below, above, hsplit, hlisted, hlower, hhigher⟩ := hr.splitAtSlot slot
  -- the slot is captured already, or the list is cut where its upvalue belongs
  rcases hr.head_or_higher hlisted hhigher with ⟨first, rest, rfl, hfirst⟩ | hhigher
  · rw [capture_of_head hsplit hfirst]
    exact ⟨hfirst, refl_of (Retains kept closes) m⟩
  rw [capture_of_higher hsplit hhigher, alloc, bind_assoc]
  refine (hr.collectIfNeeded journal).bind ?_
  -- a collection may come before; the listed upvalues are roots and stay
  rintro _ m₁ journal₁ ⟨hretains, hlisted₁, hkept⟩
  have hr₁ := hretains.leads.ready hr
  have hbare : Content.Bare .upvalue (.opened slot) := trivial
  have halloc := ends_onHeap (hr₁.sound.alloc hbare journal₁)
  refine (Outcome.Ends.imp halloc (fun _ _ h => h) ?_ fun _ _ => trivial).bind ?_
  · rintro error m₂ ⟨heap, rfl, rfl, -⟩
    exact hretains
  · rintro new m₂ journal₂ ⟨heap, rfl, ⟨hfresh, hnew⟩, -⟩
    have hothers : ∀ other ≠ new, heap.get? other = m₁.heap.get? other := fun other hne =>
      (hfresh.only.intact fun heq => hne (congrArg Ref.mk heq)).get?
    have hmove : Move none m₁
        { m₁ with heap := heap, openUpvalues := below ++ new :: above } := by
      refine .capture ?_ hnew hothers (hlisted₁.trans hlisted) rfl (fun ref hmem => ?_)
        fun ref hmem => ?_
      · rw [Heap.contains, hfresh.fresh]
        rfl
      · obtain ⟨i, hlt, hi⟩ := hlower ref hmem
        exact ⟨i, hlt, hkept ref i hi⟩
      · obtain ⟨i, hlt, hi⟩ := hhigher ref hmem
        exact ⟨i, hlt, hkept ref i hi⟩
    have hnext : Retains kept closes m₁
        { m₁ with heap := heap, openUpvalues := below ++ new :: above } := by
      refine hmove.retains (by simp) hfresh.only.aged.frees_le hfresh.sound
        (hr₁.idle.onlyAt hfresh.only hfresh.unmarked) fun ref value _ _ hclosed => ?_
      refine (hothers ref ?_).trans hclosed
      rintro rfl
      exact hfresh.ne (Heap.contains_of_get? hclosed) rfl
    exact ⟨hnew, trans_of (Retains kept closes) hretains hnext⟩

lemma within_capture (slot : Nat) : (Machine.capture slot).Within (Retains kept closes) :=
  within_retains fun _ journal hr => (hr.capture slot journal).imp (fun _ _ h => h.2)
    (fun _ _ h => h) fun _ => id

/-! ### Closing -/

/-- The upvalues of a list that has none twice take over the values of their
slots. -/
lemma closeAll_ends (stack : Stack Value) (journal : Journal) {refs : List (Ref .upvalue)} {h : Heap}
    (hs : h.Sound) (hi : h.Idle) (hnodup : refs.Nodup)
    (hopen : ∀ ref ∈ refs, ∃ i, h.get? ref = some (.opened i)) :
    ∃ h', closeAll stack refs h journal = .done () h' journal ∧ Heap.Aged [] h h' ∧ h'.Sound ∧
      h'.Idle ∧ (∀ ref ∈ refs, ∃ i, h.get? ref = some (.opened i) ∧
        h'.get? ref = some (.closed ((stack.get? i).getD .null))) ∧
      ∀ other : Ref .upvalue, other ∉ refs → h'.get? other = h.get? other := by
  induction refs generalizing h with
  | nil => exact ⟨h, rfl, Heap.aged_of_slots rfl, hs, hi, by simp, fun _ _ => rfl⟩
  | cons ref refs ih =>
      obtain ⟨hnot, hnodup⟩ := List.nodup_cons.mp hnodup
      obtain ⟨i, hget⟩ := hopen ref List.mem_cons_self
      let value := (stack.get? i).getD .null
      have hclose : closeOne stack ref h journal =
          .done () (h.put ref (.closed value)) journal := by
        rw [closeOne, Action.get_bind, Heap.read_of_get? hget]
        rfl
      have haltered : Heap.Altered ref h (h.put ref (.closed value)) :=
        hs.altered_put hget fun _ _ => trivial
      -- the rest of the list does not name this upvalue, so it is still open for the induction
      have hothers : ∀ other ∈ refs, (h.put ref (.closed value)).get? other = h.get? other := by
        intro other hmem
        refine Heap.get?_put_of_ne ?_
        rintro rfl
        exact hnot hmem
      obtain ⟨h', hrun, haged, hs', hi', hclosed, hrest⟩ :=
        ih haltered.sound (haltered.idle hi) hnodup fun other hmem =>
          (hopen other (List.mem_cons_of_mem ref hmem)).imp fun _ => (hothers other hmem).trans
      refine ⟨h', ?_, haltered.only.aged.trans haged, hs', hi', ?_, ?_⟩
      · rw [closeAll, Action.bind_of_done hclose, hrun]
      · refine List.forall_mem_cons.mpr ⟨⟨i, hget, ?_⟩, fun other hmem => ?_⟩
        · exact (hrest ref hnot).trans (Heap.get?_put hget)
        · obtain ⟨j, hj, hclosed⟩ := hclosed other hmem
          exact ⟨j, (hothers other hmem).symm.trans hj, hclosed⟩
      · intro other hmem
        obtain ⟨hne, hmem⟩ := not_or.mp (mt List.mem_cons.mpr hmem)
        exact (hrest other hmem).trans (Heap.get?_put_of_ne hne)

/-- Closing always succeeds, and it changes only upvalues. -/
lemma Ready.closeUpvalues (hr : m.Ready) (slot : Nat) (journal : Journal) :
    ∃ heap below, closeUpvalues slot m journal =
        .done () { m with heap := heap, openUpvalues := below } journal ∧
      Move (some slot) m { m with heap := heap, openUpvalues := below } ∧
      Heap.Aged [] m.heap heap ∧ heap.Sound ∧ heap.Idle := by
  obtain ⟨below, above, hsplit, hlisted, hlower, hhigher⟩ := hr.splitAtSlot slot
  have hnodup : above.Nodup := by
    refine (List.pairwise_append.mp (hlisted ▸ hr.sorted)).2.1.imp ?_
    rintro r _ ⟨i, j, hi, hj, hlt⟩ rfl
    have := hi.slot_eq hj
    omega
  obtain ⟨heap, hrun, haged, hs, hi, hclosed, hothers⟩ := closeAll_ends m.stack journal hr.sound
    hr.idle hnodup fun ref hmem => (hhigher ref hmem).imp fun _ h => h.2
  refine ⟨heap, below, ?_, .close hlisted rfl hlower (fun ref hmem => ?_) hothers, haged, hs, hi⟩
  · rw [Machine.closeUpvalues, Action.get_bind, hsplit]
    simp only [Action.lift_ok, pure_bind, Action.modify_bind, onHeap_apply, hrun]
  · obtain ⟨i, hle, hopen⟩ := hhigher ref hmem
    obtain ⟨j, hj, hclosed⟩ := hclosed ref hmem
    obtain rfl := hopen.slot_eq hj
    exact ⟨i, hle, hopen, hclosed⟩

lemma within_closeUpvalues (hslot : closes slot) :
    (Machine.closeUpvalues slot).Within (Retains kept closes) := by
  refine within_retains fun m journal hr => ?_
  obtain ⟨heap, below, hrun, hmove, haged, hs, hi⟩ := hr.closeUpvalues slot journal
  rw [hrun]
  refine hmove.retains (fun _ hfirst => Option.some.inj hfirst ▸ hslot) haged.frees_le hs hi
    fun ref value _ _ hclosed => ?_
  exact hmove.keeps_closed hclosed

lemma within_reset : reset.Within (Retains kept fun _ => True) :=
  (within_closeUpvalues trivial).bind fun _ => Action.within_modify fun _ => retains_of_eq rfl rfl

/-- Closing from the lowest slot on leaves none open. -/
lemma Move.closes_all (hm : Move (some 0) m m') : m'.openUpvalues = [] := by
  cases hm with
  | close before listed lower _ _ =>
      rw [listed]
      refine List.eq_nil_iff_forall_not_mem.mpr fun ref hmem => ?_
      obtain ⟨i, hlt, -⟩ := lower ref hmem
      omega

/-- After a reset no upvalue is open. -/
lemma Ready.reset (hr : m.Ready) (journal : Journal) :
    ∃ m', reset m journal = .done () m' journal ∧ Leads (fun _ => True) m m' ∧
      m'.openUpvalues = [] := by
  obtain ⟨heap, below, hrun, hmove, -⟩ := hr.closeUpvalues 0 journal
  have hreset : Machine.reset m journal = .done () _ journal := Action.bind_of_done hrun
  exact ⟨_, hreset, (within_leads within_reset m journal).of_done hreset, hmove.closes_all⟩

end ScriptMachine.Machine
