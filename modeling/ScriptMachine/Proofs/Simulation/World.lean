import ScriptMachine.Object
import ScriptMachine.Proofs.Simulation.Rows

/-!
Worlds: which objects of two heaps stand for each other.

Two machines that run the same script, but collect at different times, give
different ids to the objects they make. A `World` relates the ids of one heap to
those of the other, kind by kind. The relations below lift this to everything
that ids occur in: scalars, values, tables and the contents of objects.

For each of them there are four facts:

* `mono`: only the ids that occur matter (`World.Keeps`);
* `refl_of`: it is related to itself if its handles are;
* `rename`: if a function follows the world, the second is the first renamed;
* `exists_handle`: each handle of the first is related to one of the second.
-/

namespace ScriptMachine

/-- An id together with the kind of object that it is meant to name. -/
abbrev Handle := Kind × ObjectId

/-- The content of a closure, and that of its function. Neither ever changes. -/
structure Body where
  closure : Closure
  function : Function

/-- Which ids of two heaps name objects that stand for each other. `body` also
knows what closures consist of; `twin` says that the two heaps are one. -/
structure World where
  rel : Kind → ObjectId → ObjectId → Prop
  body : ObjectId → ObjectId → Body → Body → Prop
  twin : Prop

namespace World

/-- A world that relates no less than another. -/
structure Le (w w' : World) : Prop where
  rel : ∀ {k a b}, w.rel k a b → w'.rel k a b
  body : ∀ {a b x y}, w.body a b x y → w'.body a b x y
  twin : w'.twin ↔ w.twin

instance : LE World := ⟨Le⟩

lemma le_refl (w : World) : w ≤ w := ⟨id, id, .rfl⟩

lemma le_trans {w w' w'' : World} (h : w ≤ w') (h' : w' ≤ w'') : w ≤ w'' :=
  ⟨fun hr => h'.rel (h.rel hr), fun hb => h'.body (h.body hb), h'.twin.trans h.twin⟩

/-- What is related among some handles stays so. -/
def Keeps (w w' : World) (left right : List Handle) : Prop :=
  ∀ k a b, (k, a) ∈ left → (k, b) ∈ right → w.rel k a b → w'.rel k a b

lemma Keeps.subset {w w' : World} {left left' right right' : List Handle}
    (h : w.Keeps w' left right) (hl : left' ⊆ left) (hr : right' ⊆ right) :
    w.Keeps w' left' right' :=
  fun k a b ha hb => h k a b (hl ha) (hr hb)

lemma Le.keeps {w w' : World} (h : w ≤ w') (left right : List Handle) : w.Keeps w' left right :=
  fun _ _ _ _ _ => h.rel

/-- A function that sends every id to the one it is related to. -/
def Follows (w : World) (ρ : ObjectId → ObjectId) : Prop := ∀ k a b, w.rel k a b → b = ρ a

end World

/-- References whose ids are related. -/
def Ref.Rel {k : Kind} (w : World) (r r' : Ref k) : Prop := w.rel k r.id r'.id

/-- A reference with its id renamed. -/
def Ref.rename {k : Kind} (ρ : ObjectId → ObjectId) (r : Ref k) : Ref k := ⟨ρ r.id⟩

variable {w w' : World} {ρ : ObjectId → ObjectId} {k : Kind} {a : ObjectId}

lemma Ref.Rel.rename {r r' : Ref k} (h : Ref.Rel w r r') (hρ : w.Follows ρ) : r' = r.rename ρ := by
  obtain ⟨b⟩ := r'
  exact congrArg Ref.mk (hρ k r.id b h)

/-! ### Scalars -/

/-- The handle of a scalar, if it has one. -/
def Scalar.handles : Scalar → List Handle
  | .str ref => [(.string, ref.id)]
  | .array ref => [(.array, ref.id)]
  | _ => []

/-- A scalar with its id renamed. -/
def Scalar.rename (ρ : ObjectId → ObjectId) : Scalar → Scalar
  | .str ref => .str (ref.rename ρ)
  | .array ref => .array (ref.rename ρ)
  | scalar => scalar

/-- Scalars that stand for each other. -/
inductive Scalar.Rel (w : World) : Scalar → Scalar → Prop
  | plain (s : Scalar) (bare : s.handles = []) : Rel w s s
  | str {r r' : Ref .string} (ref : r.Rel w r') : Rel w (.str r) (.str r')
  | array {r r' : Ref .array} (ref : r.Rel w r') : Rel w (.array r) (.array r')

namespace Scalar

variable {s s' : Scalar}

lemma Rel.mono (h : Rel w s s') (hk : w.Keeps w' s.handles s'.handles) : Rel w' s s' := by
  cases h with
  | plain s bare => exact .plain s bare
  | str ref => exact .str (hk _ _ _ (.head _) (.head _) ref)
  | array ref => exact .array (hk _ _ _ (.head _) (.head _) ref)

lemma Rel.le (h : Rel w s s') (hle : w ≤ w') : Rel w' s s' := h.mono (hle.keeps _ _)

lemma Rel.refl_of (h : ∀ k a, (k, a) ∈ s.handles → w.rel k a a) : Rel w s s := by
  cases s with
  | str ref => exact .str (h _ _ (.head _))
  | array ref => exact .array (h _ _ (.head _))
  | _ => exact .plain _ rfl

lemma Rel.rename (h : Rel w s s') (hρ : w.Follows ρ) : s' = s.rename ρ := by
  cases h with
  | plain _ bare =>
      cases s with
      | str _ => cases bare
      | array _ => cases bare
      | _ => rfl
  | str ref => exact congrArg Scalar.str (ref.rename hρ)
  | array ref => exact congrArg Scalar.array (ref.rename hρ)

lemma Rel.exists_handle (h : Rel w s s') (hmem : (k, a) ∈ s.handles) : ∃ b, w.rel k a b := by
  cases h with
  | plain _ bare => rw [bare] at hmem; cases hmem
  | str ref => cases List.mem_singleton.mp hmem; exact ⟨_, ref⟩
  | array ref => cases List.mem_singleton.mp hmem; exact ⟨_, ref⟩

@[simp] lemma rename_id (s : Scalar) : s.rename id = s := by cases s <;> rfl

lemma map_handles (s : Scalar) : s.handles.map Prod.snd = s.id?.toList := by cases s <;> rfl

end Scalar

/-! ### Values -/

/-- The handle of a value, if it has one. -/
def Value.handles : Value → List Handle
  | .scalar s => s.handles
  | .cls ref => [(.cls, ref.id)]
  | .closure ref => [(.closure, ref.id)]
  | .function ref => [(.function, ref.id)]
  | .inst ref => [(.inst, ref.id)]
  | .native ref => [(.native, ref.id)]
  | .stack ref => [(.stack, ref.id)]
  | .table ref => [(.table, ref.id)]
  | .vector ref => [(.vector, ref.id)]

/-- A value with its id renamed. -/
def Value.rename (ρ : ObjectId → ObjectId) : Value → Value
  | .scalar s => .scalar (s.rename ρ)
  | .cls ref => .cls (ref.rename ρ)
  | .closure ref => .closure (ref.rename ρ)
  | .function ref => .function (ref.rename ρ)
  | .inst ref => .inst (ref.rename ρ)
  | .native ref => .native (ref.rename ρ)
  | .stack ref => .stack (ref.rename ρ)
  | .table ref => .table (ref.rename ρ)
  | .vector ref => .vector (ref.rename ρ)

/-- Values that stand for each other. -/
inductive Value.Rel (w : World) : Value → Value → Prop
  | scalar {s s' : Scalar} (scalar : s.Rel w s') : Rel w (.scalar s) (.scalar s')
  | cls {r r' : Ref .cls} (ref : r.Rel w r') : Rel w (.cls r) (.cls r')
  | closure {r r' : Ref .closure} (ref : r.Rel w r') : Rel w (.closure r) (.closure r')
  | function {r r' : Ref .function} (ref : r.Rel w r') : Rel w (.function r) (.function r')
  | inst {r r' : Ref .inst} (ref : r.Rel w r') : Rel w (.inst r) (.inst r')
  | native {r r' : Ref .native} (ref : r.Rel w r') : Rel w (.native r) (.native r')
  | stack {r r' : Ref .stack} (ref : r.Rel w r') : Rel w (.stack r) (.stack r')
  | table {r r' : Ref .table} (ref : r.Rel w r') : Rel w (.table r) (.table r')
  | vector {r r' : Ref .vector} (ref : r.Rel w r') : Rel w (.vector r) (.vector r')

namespace Value

variable {v v' : Value}

lemma Rel.mono (h : Rel w v v') (hk : w.Keeps w' v.handles v'.handles) : Rel w' v v' := by
  cases h with
  | scalar scalar => exact .scalar (scalar.mono hk)
  | cls ref => exact .cls (hk _ _ _ (.head _) (.head _) ref)
  | closure ref => exact .closure (hk _ _ _ (.head _) (.head _) ref)
  | function ref => exact .function (hk _ _ _ (.head _) (.head _) ref)
  | inst ref => exact .inst (hk _ _ _ (.head _) (.head _) ref)
  | native ref => exact .native (hk _ _ _ (.head _) (.head _) ref)
  | stack ref => exact .stack (hk _ _ _ (.head _) (.head _) ref)
  | table ref => exact .table (hk _ _ _ (.head _) (.head _) ref)
  | vector ref => exact .vector (hk _ _ _ (.head _) (.head _) ref)

lemma Rel.le (h : Rel w v v') (hle : w ≤ w') : Rel w' v v' := h.mono (hle.keeps _ _)

lemma Rel.refl_of (h : ∀ k a, (k, a) ∈ v.handles → w.rel k a a) : Rel w v v := by
  cases v with
  | scalar s => exact .scalar (.refl_of h)
  | cls _ => exact .cls (h _ _ (.head _))
  | closure _ => exact .closure (h _ _ (.head _))
  | function _ => exact .function (h _ _ (.head _))
  | inst _ => exact .inst (h _ _ (.head _))
  | native _ => exact .native (h _ _ (.head _))
  | stack _ => exact .stack (h _ _ (.head _))
  | table _ => exact .table (h _ _ (.head _))
  | vector _ => exact .vector (h _ _ (.head _))

lemma Rel.rename (h : Rel w v v') (hρ : w.Follows ρ) : v' = v.rename ρ := by
  cases h with
  | scalar scalar => exact congrArg Value.scalar (scalar.rename hρ)
  | cls ref => exact congrArg Value.cls (ref.rename hρ)
  | closure ref => exact congrArg Value.closure (ref.rename hρ)
  | function ref => exact congrArg Value.function (ref.rename hρ)
  | inst ref => exact congrArg Value.inst (ref.rename hρ)
  | native ref => exact congrArg Value.native (ref.rename hρ)
  | stack ref => exact congrArg Value.stack (ref.rename hρ)
  | table ref => exact congrArg Value.table (ref.rename hρ)
  | vector ref => exact congrArg Value.vector (ref.rename hρ)

lemma Rel.exists_handle (h : Rel w v v') (hmem : (k, a) ∈ v.handles) : ∃ b, w.rel k a b := by
  cases h with
  | scalar scalar => exact scalar.exists_handle hmem
  | cls ref => cases List.mem_singleton.mp hmem; exact ⟨_, ref⟩
  | closure ref => cases List.mem_singleton.mp hmem; exact ⟨_, ref⟩
  | function ref => cases List.mem_singleton.mp hmem; exact ⟨_, ref⟩
  | inst ref => cases List.mem_singleton.mp hmem; exact ⟨_, ref⟩
  | native ref => cases List.mem_singleton.mp hmem; exact ⟨_, ref⟩
  | stack ref => cases List.mem_singleton.mp hmem; exact ⟨_, ref⟩
  | table ref => cases List.mem_singleton.mp hmem; exact ⟨_, ref⟩
  | vector ref => cases List.mem_singleton.mp hmem; exact ⟨_, ref⟩

@[simp] lemma rename_id (v : Value) : v.rename id = v := by
  cases v with
  | scalar s => exact congrArg Value.scalar s.rename_id
  | _ => rfl

lemma map_handles (v : Value) : v.handles.map Prod.snd = v.id?.toList := by
  cases v with
  | scalar s => exact s.map_handles
  | _ => rfl

lemma option_le {o o' : Option Value} (ho : Option.Rel (Rel w) o o') (hle : w ≤ w') :
    Option.Rel (Rel w') o o' := by
  cases ho with
  | none => exact .none
  | some hv => exact .some (hv.le hle)

lemma rel_null : Rel w .null .null := .scalar (.plain _ rfl)

lemma rel_ofBool (b : Bool) : Rel w (.ofBool b) (.ofBool b) := .scalar (.plain _ rfl)

end Value

end ScriptMachine
