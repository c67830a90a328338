import ScriptMachine.Proofs.Simulation.Table

/-!
Contents that stand for each other.

`Content.Rel` relates the contents of two objects of one kind. Strings, arrays
and native functions hold no handles in their records, so theirs are equal.

* `Content.Rel.size_eq`: related contents need blocks of one size;
* `Content.children_eq`: the children of an object are its handles.
-/

namespace ScriptMachine

variable {w w' : World} {ρ : ObjectId → ObjectId} {k : Kind} {a : ObjectId}

/-! ### Functions and classes -/

/-- Functions with one code and related constants. -/
structure Function.Rel (w : World) (f f' : Function) : Prop where
  constants : Stack.Rel (Value.Rel w) f.chunk.constants f'.chunk.constants
  name : f.name = f'.name
  arity : f.arity = f'.arity
  upvalueCount : f.upvalueCount = f'.upvalueCount
  code : f.chunk.code = f'.chunk.code
  lines : f.chunk.lines = f'.chunk.lines
  cases : f.chunk.cases = f'.chunk.cases

/-- Closures of related functions with related variables. -/
structure Closure.Rel (w : World) (c c' : Closure) : Prop where
  function : c.function.Rel w c'.function
  upvalues : ArrayRel (Ref.Rel w) c.upvalues c'.upvalues

/-- Captured variables in one slot, or with related values. -/
inductive Upvalue.Rel (w : World) : Upvalue → Upvalue → Prop
  | opened (slot : Nat) : Rel w (.opened slot) (.opened slot)
  | closed {v v' : Value} (value : v.Rel w v') : Rel w (.closed v) (.closed v')

/-- Classes with related names, initialisers and methods. -/
structure Class.Rel (w : World) (c c' : Class) : Prop where
  name : c.name.Rel w c'.name
  init : Option.Rel (Ref.Rel w) c.init c'.init
  methods : c.methods.Rel w c'.methods

/-- Instances of related classes with related fields. -/
structure Instance.Rel (w : World) (i i' : Instance) : Prop where
  cls : i.cls.Rel w i'.cls
  fields : i.fields.Rel w i'.fields

/-! ### Contents of any kind -/

namespace Content

/-- Contents of one kind that stand for each other. -/
def Rel (w : World) : (k : Kind) → k.Content → k.Content → Prop
  | .array, a, a' => a = a'
  | .cls, c, c' => Class.Rel w c c'
  | .closure, c, c' => Closure.Rel w c c'
  | .function, f, f' => Function.Rel w f f'
  | .inst, i, i' => Instance.Rel w i i'
  | .native, n, n' => n = n'
  | .stack, s, s' => Stack.Rel (Value.Rel w) s s'
  | .string, s, s' => s = s'
  | .table, t, t' => Table.Rel w t t'
  | .upvalue, u, u' => Upvalue.Rel w u u'
  | .vector, v, v' => Stack.Rel (Scalar.Rel w) v v'

/-- The handles in a content. -/
def handles : (k : Kind) → k.Content → List Handle
  | .cls, c => (.string, c.name.id) ::
      (c.init.toList.map fun init => (.closure, init.id)) ++ c.methods.handles
  | .closure, c => (.function, c.function.id) ::
      c.upvalues.toList.map fun upvalue => (.upvalue, upvalue.id)
  | .function, f => f.chunk.constants.toList.flatMap Value.handles
  | .inst, i => (.cls, i.cls.id) :: i.fields.handles
  | .stack, s => s.toList.flatMap Value.handles
  | .table, t => t.handles
  | .upvalue, .closed value => value.handles
  | .upvalue, .opened _ => []
  | .vector, v => v.toList.flatMap Scalar.handles
  | .array, _ | .native, _ | .string, _ => []

/-- A content with all ids renamed. -/
def rename (ρ : ObjectId → ObjectId) : (k : Kind) → k.Content → k.Content
  | .cls, c => ⟨c.name.rename ρ, c.init.map (Ref.rename ρ), c.methods.rename ρ⟩
  | .closure, c => ⟨c.function.rename ρ, c.upvalues.map (Ref.rename ρ)⟩
  | .function, f =>
      { f with
        chunk := { f.chunk with
          constants := ⟨f.chunk.constants.items.map (.rename ρ), f.chunk.constants.capacity⟩ } }
  | .inst, i => ⟨i.cls.rename ρ, i.fields.rename ρ⟩
  | .stack, s => ⟨s.items.map (.rename ρ), s.capacity⟩
  | .table, t => t.rename ρ
  | .upvalue, .closed value => .closed (value.rename ρ)
  | .upvalue, .opened slot => .opened slot
  | .vector, v => ⟨v.items.map (.rename ρ), v.capacity⟩
  | .array, a => a
  | .native, n => n
  | .string, s => s

/-! ### Stacks of values and of scalars -/

section Rows

variable {α : Type} {R : World → α → α → Prop} {f : α → List Handle} {s s' : Stack α}

lemma rows_mono (hR : ∀ x y, R w x y → w.Keeps w' (f x) (f y) → R w' x y)
    (h : Stack.Rel (R w) s s') (hk : w.Keeps w' (s.toList.flatMap f) (s'.toList.flatMap f)) :
    Stack.Rel (R w') s s' :=
  h.mono fun x hx y hy hxy => hR x y hxy (hk.subset
    (fun _ hmem => List.mem_flatMap.mpr ⟨x, hx, hmem⟩) fun _ hmem => List.mem_flatMap.mpr ⟨y, hy, hmem⟩)

lemma rows_refl_of (hR : ∀ x, (∀ k a, (k, a) ∈ f x → w.rel k a a) → R w x x)
    (h : ∀ k a, (k, a) ∈ s.toList.flatMap f → w.rel k a a) : Stack.Rel (R w) s s :=
  .refl_of fun x hx => hR x fun k a ha => h k a (List.mem_flatMap.mpr ⟨x, hx, ha⟩)

lemma rows_exists_handle (hR : ∀ x y k a, R w x y → (k, a) ∈ f x → ∃ b, w.rel k a b)
    (h : Stack.Rel (R w) s s') (hmem : (k, a) ∈ s.toList.flatMap f) : ∃ b, w.rel k a b := by
  obtain ⟨x, hx, ha⟩ := List.mem_flatMap.mp hmem
  obtain ⟨y, -, hxy⟩ := exists_partner h.toList hx
  exact hR x y k a hxy ha

end Rows

/-! ### All kinds -/

variable {c c' : k.Content}

lemma mem_upvalue_handles {c : Closure} {r : Ref .upvalue} (hr : r ∈ c.upvalues) :
    (Kind.upvalue, r.id) ∈ handles .closure c :=
  List.mem_cons_of_mem _ (List.mem_map.mpr ⟨r, Array.mem_toList_iff.mpr hr, rfl⟩)

lemma closure_mono {c c' : Closure} (h : c.Rel w c')
    (hk : w.Keeps w' (handles .closure c) (handles .closure c')) : c.Rel w' c' := by
  refine ⟨hk _ _ _ (.head _) (.head _) h.function, h.upvalues.mono fun r hr r' hr' hrel => ?_⟩
  exact hk _ _ _ (mem_upvalue_handles hr) (mem_upvalue_handles hr') hrel

lemma class_mono {c c' : Class} (h : c.Rel w c')
    (hk : w.Keeps w' (handles .cls c) (handles .cls c')) : c.Rel w' c' := by
  obtain ⟨name, init, methods⟩ := c
  obtain ⟨name', init', methods'⟩ := c'
  obtain ⟨hname, hinit, hmethods⟩ := h
  refine ⟨hk _ _ _ (.head _) (.head _) hname, ?_, hmethods.mono (hk.subset
    (List.subset_append_right _ _) (List.subset_append_right _ _))⟩
  cases hinit with
  | none => exact .none
  | some hrel => exact .some (hk _ _ _ (.tail _ (.head _)) (.tail _ (.head _)) hrel)

/-- Only the handles of a content matter. -/
lemma Rel.mono (h : Rel w k c c') (hk : w.Keeps w' (handles k c) (handles k c')) :
    Rel w' k c c' := by
  cases k with
  | array => exact h
  | native => exact h
  | string => exact h
  | cls => exact class_mono h hk
  | closure => exact closure_mono h hk
  | function =>
      exact ⟨rows_mono (fun _ _ => Value.Rel.mono) h.constants hk, h.name, h.arity, h.upvalueCount,
        h.code, h.lines, h.cases⟩
  | inst =>
      exact ⟨hk _ _ _ (.head _) (.head _) h.cls,
        h.fields.mono (hk.subset (List.subset_cons_self _ _) (List.subset_cons_self _ _))⟩
  | stack => exact rows_mono (fun _ _ => Value.Rel.mono) h hk
  | table => exact Table.Rel.mono h hk
  | upvalue =>
      cases h with
      | opened slot => exact .opened slot
      | closed value => exact .closed (value.mono hk)
  | vector => exact rows_mono (fun _ _ => Scalar.Rel.mono) h hk

lemma Rel.le (h : Rel w k c c') (hle : w ≤ w') : Rel w' k c c' := h.mono (hle.keeps _ _)

/-- A content whose handles are related to themselves. -/
lemma Rel.refl_of (h : ∀ k' a, (k', a) ∈ handles k c → w.rel k' a a) : Rel w k c c := by
  cases k with
  | array => rfl
  | native => rfl
  | string => rfl
  | cls =>
      obtain ⟨name, init, methods⟩ := c
      refine ⟨h _ _ (.head _), ?_, .refl_of fun k a ha => h k a (List.mem_append_right _ ha)⟩
      cases init with
      | none => exact .none
      | some ref => exact .some (h _ _ (.tail _ (.head _)))
  | closure =>
      exact ⟨h _ _ (.head _), .refl_of fun r hr => h _ _ (mem_upvalue_handles hr)⟩
  | function =>
      exact ⟨rows_refl_of (fun _ => Value.Rel.refl_of) h, rfl, rfl, rfl, rfl, rfl, rfl⟩
  | inst => exact ⟨h _ _ (.head _), .refl_of fun k a ha => h k a (.tail _ ha)⟩
  | stack => exact rows_refl_of (fun _ => Value.Rel.refl_of) h
  | table => exact Table.Rel.refl_of h
  | upvalue =>
      cases c with
      | opened slot => exact .opened slot
      | closed value => exact .closed (.refl_of h)
  | vector => exact rows_refl_of (fun _ => Scalar.Rel.refl_of) h

/-- If a function follows the world, the second content is the first renamed. -/
lemma Rel.rename (h : Rel w k c c') (hρ : w.Follows ρ) : c' = Content.rename ρ k c := by
  cases k with
  | array => exact h.symm
  | native => exact h.symm
  | string => exact h.symm
  -- the parts are renamed one by one, and the record is put together again
  | cls =>
      obtain ⟨name, init, methods⟩ := c
      obtain ⟨name', init', methods'⟩ := c'
      obtain ⟨hname, hinit, hmethods⟩ := h
      have hname' : name' = name.rename ρ := hname.rename hρ
      have hinit' : init' = init.map (Ref.rename ρ) := by
        cases hinit with
        | none => rfl
        | some hrel => exact congrArg some (hrel.rename hρ)
      have hmethods' : methods' = methods.rename ρ := hmethods.rename hρ
      rw [hname', hinit', hmethods']
      rfl
  | closure =>
      obtain ⟨function, upvalues⟩ := c
      obtain ⟨function', upvalues'⟩ := c'
      obtain ⟨hfunction, hupvalues⟩ := h
      have hfunction' : function' = function.rename ρ := hfunction.rename hρ
      have hupvalues' : upvalues' = upvalues.map (Ref.rename ρ) :=
        hupvalues.eq_map fun _ _ hr => hr.rename hρ
      rw [hfunction', hupvalues']
      rfl
  | function =>
      obtain ⟨name, arity, count, ⟨code, lines, cases, constants⟩⟩ := c
      obtain ⟨name', arity', count', ⟨code', lines', cases', constants'⟩⟩ := c'
      obtain ⟨hconstants, rfl, rfl, rfl, rfl, rfl, rfl⟩ := h
      have hconstants' : constants' = ⟨constants.items.map (.rename ρ), constants.capacity⟩ :=
        hconstants.eq_map fun _ _ hv => hv.rename hρ
      rw [hconstants']
      rfl
  | inst =>
      obtain ⟨cls, fields⟩ := c
      obtain ⟨cls', fields'⟩ := c'
      obtain ⟨hcls, hfields⟩ := h
      have hcls' : cls' = cls.rename ρ := hcls.rename hρ
      have hfields' : fields' = fields.rename ρ := hfields.rename hρ
      rw [hcls', hfields']
      rfl
  | stack => exact Stack.Rel.eq_map h fun _ _ hv => hv.rename hρ
  | table => exact Table.Rel.rename h hρ
  | upvalue =>
      cases h with
      | opened slot => rfl
      | closed value => exact congrArg Upvalue.closed (value.rename hρ)
  | vector => exact Stack.Rel.eq_map h fun _ _ hv => hv.rename hρ

/-- Each handle of the first content is related to one of the second. -/
lemma Rel.exists_handle (h : Rel w k c c') {k' : Kind} (hmem : (k', a) ∈ handles k c) :
    ∃ b, w.rel k' a b := by
  cases k with
  | array => cases hmem
  | native => cases hmem
  | string => cases hmem
  | cls =>
      obtain ⟨name, init, methods⟩ := c
      obtain ⟨name', init', methods'⟩ := c'
      obtain ⟨hname, hinit, hmethods⟩ := h
      rcases List.mem_cons.mp hmem with heq | hmem
      · cases heq
        exact ⟨_, hname⟩
      · rcases List.mem_append.mp hmem with hmem | hmem
        · cases hinit with
          | none => cases hmem
          | some hrel =>
              cases List.mem_singleton.mp hmem
              exact ⟨_, hrel⟩
        · exact hmethods.exists_handle hmem
  | closure =>
      rcases List.mem_cons.mp hmem with heq | hmem
      · cases heq
        exact ⟨_, h.function⟩
      · obtain ⟨r, hr, heq⟩ := List.mem_map.mp hmem
        cases heq
        obtain ⟨r', -, hrel⟩ := exists_partner h.upvalues.toList hr
        exact ⟨_, hrel⟩
  | function => exact rows_exists_handle (fun _ _ _ _ => Value.Rel.exists_handle) h.constants hmem
  | inst =>
      rcases List.mem_cons.mp hmem with heq | hmem
      · cases heq
        exact ⟨_, h.cls⟩
      · exact h.fields.exists_handle hmem
  | stack => exact rows_exists_handle (fun _ _ _ _ => Value.Rel.exists_handle) h hmem
  | table => exact Table.Rel.exists_handle h hmem
  | upvalue =>
      cases h with
      | opened slot => cases hmem
      | closed value => exact value.exists_handle hmem
  | vector => exact rows_exists_handle (fun _ _ _ _ => Scalar.Rel.exists_handle) h hmem

/-! ### Sizes and children -/

/-- Related contents need blocks of one size. -/
lemma Rel.size_eq (h : Rel w k c c') :
    (Object.ofContent k c).size = (Object.ofContent k c').size := by
  have htable : ∀ {t t' : Table}, t.Rel w t' → t.footprint = t'.footprint := by
    intro t t' ht
    unfold Table.footprint
    rw [ht.slots.size_eq, ht.nodes.size_eq]
  cases k with
  | array => rw [show c = c' from h]
  | native => rw [show c = c' from h]
  | string => rw [show c = c' from h]
  | cls => exact congrArg (recordSize + ·) (htable h.methods)
  | closure => exact congrArg (recordSize + · * referenceWidth) h.upvalues.size_eq
  | function =>
      simp only [Object.ofContent, Object.size, Code.Chunk.footprint]
      rw [h.code, h.cases, h.constants.footprint_eq]
  | inst => exact congrArg (recordSize + ·) (htable h.fields)
  | stack => exact congrArg (recordSize + ·) (Stack.Rel.footprint_eq h)
  | table => exact congrArg (recordSize + ·) (htable h)
  | upvalue => rfl
  | vector => exact congrArg (recordSize + ·) (Stack.Rel.footprint_eq h)

/-- The children of an object that is no array are its handles. -/
lemma children_eq (hk : k ≠ .array) (c : k.Content) (bytes : List UInt8) :
    (Object.ofContent k c).children bytes = (handles k c).map Prod.snd := by
  have hvalues : ∀ l : List Value, l.filterMap Value.id? = (l.flatMap Value.handles).map Prod.snd := by
    intro l
    rw [List.map_flatMap]
    simp only [Value.map_handles, List.filterMap_eq_flatMap_toList]
  have hscalars : ∀ l : List Scalar,
      l.filterMap Scalar.id? = (l.flatMap Scalar.handles).map Prod.snd := by
    intro l
    rw [List.map_flatMap]
    simp only [Scalar.map_handles, List.filterMap_eq_flatMap_toList]
  cases k with
  | array => exact absurd rfl hk
  | native => rfl
  | string => rfl
  | cls =>
      simp only [Object.ofContent, Object.children, handles, List.map_append, List.map_cons,
        Table.map_handles]
      cases c.init <;> rfl
  | closure => simp [Object.ofContent, Object.children, handles]
  | function => exact hvalues _
  | inst => simp [Object.ofContent, Object.children, handles, Table.map_handles]
  | stack => exact hvalues _
  | table => exact c.map_handles.symm
  | upvalue =>
      cases c with
      | opened slot => rfl
      | closed value => exact value.map_handles.symm
  | vector => exact hscalars _

lemma rename_id (c : k.Content) : Content.rename id k c = c := by
  have href : ∀ k : Kind, (Ref.rename id : Ref k → Ref k) = id := fun _ => rfl
  have hvalue : Value.rename id = id := funext Value.rename_id
  have hscalar : Scalar.rename id = id := funext Scalar.rename_id
  cases k with
  | array => rfl
  | native => rfl
  | string => rfl
  | cls => simp [rename, href]
  | closure => simp [rename, href]
  | function => simp [rename, hvalue]
  | inst => simp [rename, href]
  | stack => simp [rename, hvalue]
  | table => exact c.rename_id
  | upvalue =>
      cases c with
      | opened slot => rfl
      | closed value => simp [rename]
  | vector => simp [rename, hscalar]

end Content

end ScriptMachine
