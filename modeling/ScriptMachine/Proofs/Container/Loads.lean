import ScriptMachine.Proofs.Container.Stores

/-!
What is read from containers after stores, and popped after pushes.

* `Accepts.exists_push`: what is pushed onto a sequence is read behind its old end, and
  popping it restores the sequence (`Pushed`);
* `loads_after_stores`: stores and loads agree for every kind of container.
-/

namespace ScriptMachine.Container

open ScriptMachine.Action Heap

variable {h h' : Heap} {container index value kept filler : Value} {length capacity : Nat}
  {read : Nat → Result Value} {journal journal' : Journal}

/-! ### Pushing and popping -/

/-- An element was pushed onto a sequence: it is read behind the old end, and popping
gives it back and restores the sequence. -/
def Pushed (h h₁ : Heap) (container kept filler : Value) (length : Nat)
    (read : Nat → Result Value) : Prop :=
  Spared container h h₁ ∧ ∃ capacity,
    Shows h₁ container (length + 1) capacity (withElement read length length kept filler) ∧
    ∀ journal, ∃ h₂, pop container h₁ journal = .done kept h₂ journal ∧
      Spared container h h₂ ∧ Shows h₂ container length capacity read

/-- What a stack shows after a push. -/
lemma shows_push {α : Type} [Inhabited α] {s : Stack α} {new : α} (wrap : α → Value)
    (hshows : Shows h container (s.push new).length capacity fun j =>
      .ok (wrap (((s.push new).get? j).getD default))) :
    Shows h container (s.length + 1) capacity
      (withElement (fun j => .ok (wrap ((s.get? j).getD default))) s.length s.length (wrap new)
        filler) := by
  rw [s.length_push] at hshows
  refine hshows.congr fun j hj => ?_
  rw [s.get?_push, withElement]
  split_ifs with heq hold
  · rfl
  · rfl
  · omega

lemma pop_vector {ref : Ref .vector} {s : Stack Scalar} {scalar : Scalar}
    (hget : h.get? ref = some (s.push scalar)) (journal : Journal) :
    ∃ h', pop (.vector ref) h journal = .done (.scalar scalar) h' journal ∧ OnlyAt ref.id h h' ∧
      h'.get? ref = some { s with capacity := (s.push scalar).capacity } := by
  refine ⟨_, ?_, onlyAt_put, get?_put hget⟩
  have hpop : onContent ref (modifyGet Stack.pop) h journal =
      .done (some scalar) (h.put ref { s with capacity := (s.push scalar).capacity }) journal := by
    rw [onContent_apply hget, modifyGet_apply, s.pop_push]
  rw [pop, popFrom, bind_apply, get_bind]
  simp only [bind_of_done hpop]
  rfl

lemma push_vector {ref : Ref .vector} {s : Stack Scalar} (hs : h.Sound)
    (hget : h.get? ref = some s) (scalar : Scalar) (journal : Journal) :
    (push (.vector ref) (.scalar scalar) h journal).Ends
      (fun _ h₁ => Pushed h h₁ (.vector ref) (.scalar scalar) .null s.length
        fun i => .ok (.scalar ((s.get? i).getD .null)))
      (fun error _ => error.kind = .memory) TooLarge := by
  have hpush : ((modify (·.push scalar) : Action (Stack Scalar) Unit) s journal).Ends
      (fun _ s' => s' = s.push scalar) (fun _ _ => False) TooLarge := rfl
  rw [push, get_bind]
  simp only [scalarOf, lift_ok, pure_bind]
  refine (onContent_reserve_ends (k := .vector) (by decide) hs hget rfl hpush).imp_done ?_
  rintro _ h₁ ⟨honly₁, _, hget₁, rfl⟩
  refine ⟨spared_of_onlyAt honly₁ rfl, _, shows_push .scalar (shows_vector hget₁),
    fun journal => ?_⟩
  obtain ⟨h₂, hpop, honly₂, hget₂⟩ := pop_vector hget₁ journal
  exact ⟨h₂, hpop, spared_of_onlyAt (honly₁.trans honly₂) rfl, shows_vector hget₂⟩

lemma pop_stack {ref : Ref .stack} {s : Stack Value}
    (hget : h.get? ref = some (s.push value)) (journal : Journal) :
    ∃ h', pop (.stack ref) h journal = .done value h' journal ∧ OnlyAt ref.id h h' ∧
      h'.get? ref = some { s with capacity := (s.push value).capacity } := by
  refine ⟨_, ?_, onlyAt_put, get?_put hget⟩
  have hpop : onContent ref (modifyGet Stack.pop) h journal =
      .done (some value) (h.put ref { s with capacity := (s.push value).capacity }) journal := by
    rw [onContent_apply hget, modifyGet_apply, s.pop_push]
  rw [pop, popFrom, bind_apply, get_bind]
  simp only [hpop]
  rfl

lemma push_stack {ref : Ref .stack} {s : Stack Value} (hs : h.Sound)
    (hget : h.get? ref = some s) (value : Value) (journal : Journal) :
    (push (.stack ref) value h journal).Ends
      (fun _ h₁ => Pushed h h₁ (.stack ref) value .null s.length
        fun i => .ok ((s.get? i).getD .null))
      (fun error _ => error.kind = .memory) TooLarge := by
  have hpush : ((modify (·.push value) : Action (Stack Value) Unit) s journal).Ends
      (fun _ s' => s' = s.push value) (fun _ _ => False) TooLarge := rfl
  rw [push, get_bind]
  refine (onContent_reserve_ends (k := .stack) (by decide) hs hget rfl hpush).imp_done ?_
  rintro _ h₁ ⟨honly₁, _, hget₁, rfl⟩
  refine ⟨spared_of_onlyAt honly₁ rfl, _, shows_push id (shows_stack hget₁), fun journal => ?_⟩
  obtain ⟨h₂, hpop, honly₂, hget₂⟩ := pop_stack hget₁ journal
  exact ⟨h₂, hpop, spared_of_onlyAt (honly₁.trans honly₂) rfl, shows_stack hget₂⟩

/-- An array that shows one element more is popped. -/
lemma pop_array {ref : Ref .array} {a : ArrayRecord} (hs : h.Sound)
    (hget : h.get? ref = some a) (hlength : a.length = length + 1) (journal : Journal) :
    ∃ h', pop (.scalar (.array ref)) h journal =
        .done (.scalar (h.elementAt ref.id a.kind length)) h' journal ∧ OnlyAt ref.id h h' ∧
      Shows h' (.scalar (.array ref)) length a.capacity fun i =>
        .ok (.scalar (h.elementAt ref.id a.kind i)) := by
  obtain ⟨entry, hfind, hobject⟩ := get?_eq_some_iff.mp hget
  obtain ⟨h', hpop, hs', honly, hfind', hsame⟩ :=
    hs.arrayPop hfind hobject (by rw [hlength]; exact Nat.succ_ne_zero length) journal
  rw [hlength, Nat.add_sub_cancel] at hpop hfind'
  refine ⟨h', ?_, honly, ?_⟩
  · rw [pop, popFrom, bind_apply, get_bind]
    simp only [bind_of_done hpop]
    rfl
  · refine (shows_array hs' (get?_eq_some_iff.mpr ⟨_, hfind', rfl⟩)).congr fun j _ => ?_
    exact congrArg (fun scalar => (Except.ok (Value.scalar scalar) : Result Value)) (hsame j)

/-- What is pushed to an array can be read, and popped again. -/
lemma push_array {ref : Ref .array} {a : ArrayRecord} {original scalar : Scalar} (hs : h.Sound)
    (hget : h.get? ref = some a) (hcoerce : a.kind.coerce original = some scalar)
    (hnamed : ∀ string, original = .str string → string.id ≠ .dangling) (journal : Journal) :
    (push (.scalar (.array ref)) (.scalar original) h journal).Ends
      (fun _ h₁ => Pushed h h₁ (.scalar (.array ref)) (.scalar scalar) (.scalar a.kind.zero)
        a.length fun i => .ok (.scalar (h.elementAt ref.id a.kind i)))
      (fun error _ => error.kind = .memory) TooLarge := by
  obtain ⟨entry, hfind, hobject⟩ := get?_eq_some_iff.mp hget
  have hkind : a.pushed.kind = a.kind := by
    rw [ArrayRecord.pushed]
    split <;> rfl
  rw [push, get_bind]
  simp only [read_of_get? hget, element_of_coerce hcoerce, lift_ok, pure_bind]
  refine (ends_of_served (hs.arrayPush hfind hobject (ArrayKind.element_of_coerce hcoerce)
    (fun string heq => hnamed string (ArrayKind.eq_of_coerce_string (heq ▸ hcoerce))) journal)
    (Heap.starved_arrayPush ref scalar)).bind ?_
  rintro _ h₁ journal₁ ⟨hs₁, honly₁, ⟨block, hfind₁⟩, helements₁⟩
  -- reserving comes last and may move the block, but leaves record and elements intact
  refine (reserve_ends hs₁ rfl journal₁).imp_done ?_
  rintro _ h₂ ⟨hs₂, honly₂, hintact⟩
  have hget₁ : h₁.get? ref = some a.pushed := get?_eq_some_iff.mpr ⟨_, hfind₁, rfl⟩
  have hget₂ : h₂.get? ref = some a.pushed := hintact.get?.trans hget₁
  have honly := honly₁.trans honly₂
  have helements : ∀ i < a.length + 1, h₂.elementAt ref.id a.pushed.kind i =
      if i = a.length then scalar else h.elementAt ref.id a.kind i := fun i hi => by
    rw [hintact.elementAt hs₁ hget₁ hi, hkind, helements₁ i hi]
  refine ⟨spared_of_onlyAt honly rfl, a.pushed.capacity,
    (shows_array hs₂ hget₂).congr fun j hj => ?_, fun journal => ?_⟩
  · have hj : j < a.length + 1 := hj
    rw [helements j hj, withElement]
    split_ifs with heq hold
    · rfl
    · rfl
    · omega
  · obtain ⟨h₃, hpop, honly₃, hshows⟩ := pop_array hs₂ hget₂ rfl journal
    rw [helements _ (Nat.lt_succ_self _), if_pos rfl] at hpop
    refine ⟨h₃, hpop, spared_of_onlyAt (honly.trans honly₃) rfl, hshows.congr fun j hj => ?_⟩
    rw [helements j (Nat.lt_succ_of_lt hj), if_neg (Nat.ne_of_lt hj)]

lemma Accepts.exists_push (ha : Accepts h container value kept filler) (hr : h.Readable)
    (hstring : ∀ ref, container ≠ .scalar (.str ref))
    (hnamed : ∀ string, value = .scalar (.str string) → string.id ≠ .dangling) :
    ∃ length capacity read, Shows h container length capacity read ∧
      ∀ journal, (push container value h journal).Ends
        (fun _ h₁ => Pushed h h₁ container kept filler length read)
        (fun error _ => error.kind = .memory) TooLarge := by
  cases ha with
  | string live byte => exact absurd rfl (hstring _)
  | array live coerced =>
      exact ⟨_, _, _, shows_array hr.sound live, push_array hr.sound live coerced fun string heq =>
        hnamed string (congrArg Value.scalar heq)⟩
  | vector live scalar => exact ⟨_, _, _, shows_vector live, push_vector hr.sound live scalar⟩
  | stack live value => exact ⟨_, _, _, shows_stack live, push_stack hr.sound live value⟩

/-- A push that is done was onto a live sequence that accepts the value. -/
lemma accepts_of_push (hdone : push container value h journal = .done () h' journal') :
    (∀ ref, container ≠ .scalar (.str ref)) ∧
      ∃ kept filler, Accepts h container value kept filler := by
  rw [push, get_bind] at hdone
  split at hdone
  case h_1 ref =>
    obtain ⟨a, hread, hdone⟩ := exists_of_lift_bind_done hdone
    obtain ⟨scalar, helement, -⟩ := exists_of_lift_bind_done hdone
    exact ⟨by simp, _, _, accepts_of_element hread helement⟩
  case h_2 ref =>
    obtain ⟨scalar, hscalar, hdone⟩ := exists_of_lift_bind_done hdone
    obtain ⟨_, _, _, hcontent, -⟩ := exists_of_bind_done hdone
    obtain ⟨s, hget⟩ := exists_get?_of_onContent hcontent
    obtain rfl := scalarOf_eq_ok hscalar
    exact ⟨by simp, _, _, .vector hget scalar⟩
  case h_3 ref =>
    obtain ⟨_, _, _, hcontent, -⟩ := exists_of_bind_done hdone
    obtain ⟨s, hget⟩ := exists_get?_of_onContent hcontent
    exact ⟨by simp, _, _, .stack hget value⟩
  case h_4 =>
    obtain ⟨_, hok, -⟩ := exists_of_lift_bind_done hdone
    obtain ⟨type, -, hok⟩ := Result.exists_of_bind_ok hok
    cases hok

/-! ### Stores and loads -/

/-- Stores and loads agree for all containers of a heap, whatever has been done to it. A
store that is done is read back at its index, leaves the other elements as they were, and
changes no other object. Where a sequence accepts a value, an index out of bounds is
refused and any other is stored, unless memory is short or a character is not ASCII.
A table takes every key that has a hash. What is pushed is popped again. The value may be
any but a reference to a string that has never been one. -/
theorem loads_after_stores (ht : h.Tended) (container value : Value)
    (hnamed : ∀ string, value = .scalar (.str string) → string.id ≠ .dangling) :
    (∀ index journal h' journal', setIndex container index value h journal = .done () h' journal' →
      Spared container h h' ∧
      (∀ ref, container = .table ref → Filed h h' ref index value) ∧
      ((∀ ref, container ≠ .table ref) → Placed h h' container index value)) ∧
    (∀ kept filler length capacity index (n : Int) journal, Accepts h container value kept filler →
      Container.length h container = .ok length → Container.capacity h container = .ok capacity →
      index.integral = some n →
      (n < 0 ∨ capacity ≤ n → ∃ type, h.typeName container = .ok type ∧
        setIndex container index value h journal = .raised (.outOfBounds type n length) h journal) ∧
      (0 ≤ n → n < capacity → (setIndex container index value h journal).Ends (fun _ _ => True)
        (fun error _ => Refused container value (getIndex h container index) error) TooLarge)) ∧
    (∀ ref t index key journal, container = .table ref → h.get? ref = some t →
      Container.key h index = .ok key → (setIndex container index value h journal).Ends
        (fun _ _ => True) (fun error _ => error.kind = .memory) TooLarge) ∧
    (∀ journal h₁ journal₁, push container value h journal = .done () h₁ journal₁ →
      ∃ kept filler length capacity read, Accepts h container value kept filler ∧
        Shows h container length capacity read ∧ Pushed h h₁ container kept filler length read) ∧
    ∀ kept filler journal, Accepts h container value kept filler →
      (∀ ref, container ≠ .scalar (.str ref)) → (push container value h journal).Ends
        (fun _ _ => True) (fun error _ => error.kind = .memory) TooLarge := by
  have ho := ht.orderly
  refine ⟨fun index journal h' journal' hdone => ?_,
    fun kept filler length capacity index n journal ha hlength hcapacity hindex => ?_,
    fun ref t index key journal htable hget hkey => ?_,
    fun journal h₁ journal₁ hdone => ?_, fun kept filler journal ha hstring => ?_⟩
  -- tables file a value under a key, all else is a sequence
  · by_cases htable : ∃ ref, container = .table ref
    · obtain ⟨ref, rfl⟩ := htable
      obtain ⟨t, key, hget, hkey⟩ := exists_key_of_done hdone
      obtain ⟨hspared, hfiled⟩ := (setIndex_table_ends ho hget hkey journal).of_done hdone
      exact ⟨hspared, fun _ heq => Value.table.inj heq ▸ hfiled, fun hne => absurd rfl (hne ref)⟩
    · have hne : ∀ ref, container ≠ .table ref := fun ref heq => htable ⟨ref, heq⟩
      obtain ⟨kept, filler, ha⟩ := accepts_of_setIndex hne hdone
      obtain ⟨length, capacity, read, htakes⟩ := ha.exists_takes ho.toReadable hnamed
      obtain ⟨hspared, hplaced⟩ := htakes.placed ha hdone
      exact ⟨hspared, fun ref heq => absurd heq (hne ref), fun _ => hplaced⟩
  · obtain ⟨length', capacity', read, htakes⟩ := ha.exists_takes ho.toReadable hnamed
    obtain rfl := Except.ok.inj (hlength.symm.trans htakes.shown.length_eq)
    obtain rfl := Except.ok.inj (hcapacity.symm.trans htakes.shown.capacity_eq)
    refine ⟨fun hout => ?_, fun hpos hlt => ?_⟩
    · obtain ⟨type, htype⟩ := ha.exists_typeName
      exact ⟨type, htype, htakes.refuses htype hindex hout journal⟩
    · obtain ⟨i, rfl⟩ := Int.eq_ofNat_of_zero_le hpos
      exact (htakes.stores index i hindex (Int.ofNat_lt.mp hlt) journal).imp_done
        fun _ _ _ => trivial
  · subst htable
    exact (setIndex_table_ends ho hget hkey journal).imp_done fun _ _ _ => trivial
  · obtain ⟨hstring, kept, filler, ha⟩ := accepts_of_push hdone
    obtain ⟨length, capacity, read, hshows, hpush⟩ := ha.exists_push ho.toReadable hstring hnamed
    exact ⟨kept, filler, length, capacity, read, ha, hshows, (hpush journal).of_done hdone⟩
  · obtain ⟨length, capacity, read, -, hpush⟩ := ha.exists_push ho.toReadable hstring hnamed
    exact (hpush journal).imp_done fun _ _ _ => trivial

/-- A store behind the end of an array from which an element was popped: what is left of
that element in memory is not read. -/
theorem loads_after_stores_gap :
    ∃ (h h' : Heap) (journal' : Journal), h.Tended ∧
      setIndex (.scalar (.array ⟨⟨0, 0⟩⟩)) (.scalar (.int 3)) (.scalar (.int 9)) h .silent =
        .done () h' journal' ∧
      Placed h h' (.scalar (.array ⟨⟨0, 0⟩⟩)) (.scalar (.int 3)) (.scalar (.int 9)) ∧
      getIndex h' (.scalar (.array ⟨⟨0, 0⟩⟩)) (.scalar (.int 1)) = .ok (.scalar (.int 0)) ∧
      setIndex (.scalar (.array ⟨⟨0, 0⟩⟩)) (.scalar (.int 4)) (.scalar (.int 9)) h .silent =
        .raised (.outOfBounds "ints" 4 1) h .silent := by
  have created : Heap.Tended _ := .create (rfl : Heap.create 1024 (fun _ => true) = .ok _)
  have hrun : (Heap.insert (.array ⟨.ints, 0, 4⟩) false
      ⟨⟨1024, #[], [], 0, 0, fun _ => true⟩, #[], [], []⟩ .silent).done?.any (fun first =>
        first.2.1.tablesEmpty &&
        (Heap.arrayPush ⟨⟨0, 0⟩⟩ (.int 7) first.2.1 first.2.2).done?.any fun second =>
          second.2.1.tablesEmpty &&
          (Heap.arrayPush ⟨⟨0, 0⟩⟩ (.int 8) second.2.1 second.2.2).done?.any fun third =>
            third.2.1.tablesEmpty &&
            (Heap.arrayPop ⟨⟨0, 0⟩⟩ third.2.1 third.2.2).done?.any fun last =>
              last.2.1.tablesEmpty &&
              last.2.1.get? (⟨⟨0, 0⟩⟩ : Ref .array) = some ⟨.ints, 1, 4⟩ &&
              (setIndex (.scalar (.array ⟨⟨0, 0⟩⟩)) (.scalar (.int 3)) (.scalar (.int 9)) last.2.1
                .silent).done?.any fun stored =>
                  (getIndex stored.2.1 (.scalar (.array ⟨⟨0, 0⟩⟩)) (.scalar (.int 1))).toOption =
                    some (.scalar (.int 0))) = true := by
    decide +kernel
  obtain ⟨first, hfirst, hrun⟩ := (Option.any_eq_true _ _).mp hrun
  obtain ⟨hempty₁, hrun⟩ := Bool.and_eq_true_iff.mp hrun
  obtain ⟨second, hsecond, hrun⟩ := (Option.any_eq_true _ _).mp hrun
  obtain ⟨hempty₂, hrun⟩ := Bool.and_eq_true_iff.mp hrun
  obtain ⟨third, hthird, hrun⟩ := (Option.any_eq_true _ _).mp hrun
  obtain ⟨hempty₃, hrun⟩ := Bool.and_eq_true_iff.mp hrun
  obtain ⟨last, hlast, hrun⟩ := (Option.any_eq_true _ _).mp hrun
  obtain ⟨hempty₄, hrun⟩ := Bool.and_eq_true_iff.mp hrun
  obtain ⟨hempty₄, hget⟩ := Bool.and_eq_true_iff.mp hempty₄
  obtain ⟨stored, hstored, hread⟩ := (Option.any_eq_true _ _).mp hrun
  have hget : last.2.1.get? (⟨⟨0, 0⟩⟩ : Ref .array) = some ⟨.ints, 1, 4⟩ := of_decide_eq_true hget
  have tended : last.2.1.Tended :=
    ((((created.done (.other (.insert (.array ⟨.ints, 0, 4⟩) false (Nat.zero_le 4) (by decide)))
      hfirst hempty₁).done
      (.other (.arrayPush _ _ (by decide))) hsecond hempty₂).done
      (.other (.arrayPush _ _ (by decide))) hthird hempty₃).done
      (.other (.arrayPop _ (by decide))) hlast hempty₄)
  have hdone := Outcome.eq_of_done? hstored
  obtain ⟨hstores, hbounds, -⟩ := loads_after_stores tended (.scalar (.array ⟨⟨0, 0⟩⟩))
    (.scalar (.int 9)) (by simp)
  have hshows := shows_array tended.orderly.sound hget
  obtain ⟨hout, -⟩ := hbounds _ _ _ _ (.scalar (.int 4)) 4 .silent (.array hget rfl)
    hshows.length_eq hshows.capacity_eq rfl
  obtain ⟨type, htype, hraised⟩ := hout (.inr (Int.le_refl 4))
  have hints : last.2.1.typeName (.scalar (.array ⟨⟨0, 0⟩⟩)) = .ok "ints" := by
    rw [typeName, scalarType, read_of_get? hget]
    rfl
  obtain rfl := Except.ok.inj (hints.symm.trans htype)
  exact ⟨_, _, _, tended, hdone, (hstores _ _ _ _ hdone).2.2 (by simp),
    Outcome.eq_of_toOption (of_decide_eq_true hread), hraised⟩

end ScriptMachine.Container
