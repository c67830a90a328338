import Mathlib.Data.Fintype.Prod
import Mathlib.Logic.Equiv.Fintype
import ScriptMachine.Proofs.Machine.Reachable
import ScriptMachine.Proofs.Simulation.Session

/-!
Collections are transparent.

Two machines that differ only in when they collect run a function alike: they
print one text and end in one way, and what is left differs in the ids of
objects only.

* `World.exists_renaming`: a renaming of all ids that a world follows;
* `Heap.Renamed`: two objects that are equal up to a renaming;
* `Reachable.transparent`: two runs of one function.
-/

namespace ScriptMachine

open Memory

/-! ### Renaming -/

instance : Finite ObjectId := by
  refine Finite.of_injective (fun id => (id.index.toFin, id.generation.toFin)) ?_
  rintro ⟨index, generation⟩ ⟨index', generation'⟩ heq
  obtain ⟨hindex, hgeneration⟩ := Prod.mk.inj heq
  rw [ObjectId.mk.injEq]
  exact ⟨UInt32.toFin_inj.mp hindex, UInt32.toFin_inj.mp hgeneration⟩

/-- What a world relates one to one is renamed by a permutation of all ids. -/
lemma World.exists_renaming {w : World} (hfun : ∀ {k l a b b'}, w.rel k a b → w.rel l a b' → b = b')
    (hinj : ∀ {k l a a' b}, w.rel k a b → w.rel l a' b → a = a') :
    ∃ ρ : Equiv.Perm ObjectId, w.Follows ρ := by
  choose target htarget using fun a : {a // ∃ b k, w.rel k a b} => a.2
  have hinjective : Function.Injective target := by
    intro a a' heq
    obtain ⟨k, hrel⟩ := htarget a
    obtain ⟨l, hrel'⟩ := htarget a'
    rw [← heq] at hrel'
    exact Subtype.ext (hinj hrel hrel')
  obtain ⟨ρ, hρ⟩ := Equiv.Perm.exists_extending_pair Subtype.val target Subtype.val_injective hinjective
  refine ⟨ρ, fun k a b hrel => ?_⟩
  obtain ⟨l, hrel'⟩ := htarget ⟨a, b, k, hrel⟩
  rw [hρ ⟨a, b, k, hrel⟩]
  exact hfun hrel hrel'

namespace Heap

variable {w : World} {ρ : ObjectId → ObjectId} {h h' : Heap} {j j' : Journal} {x : Handle}

/-- The memory of two objects is equal up to a renaming: the cells of strings and
the elements of arrays. -/
def RenamedMemory (ρ : ObjectId → ObjectId) (h h' : Heap) (a : ObjectId) : (k : Kind) → k.Content → Prop
  | .string, record => ∀ i < record.capacity, h'.cell (ρ a) i = h.cell a i
  | .array, record => ∀ i < record.length,
      h'.elementAt (ρ a) record.kind i = (h.elementAt a record.kind i).rename ρ
  | _, _ => True

/-- A handle and the renamed one name objects that are equal up to the renaming. -/
def Renamed (ρ : ObjectId → ObjectId) (h h' : Heap) (x : Handle) : Prop :=
  ∃ content, h.get? (⟨x.2⟩ : Ref x.1) = some content ∧
    h'.get? (⟨ρ x.2⟩ : Ref x.1) = some (Content.rename ρ x.1 content) ∧
    RenamedMemory ρ h h' x.2 x.1 content

lemma Pair.renamed {k : Kind} {a b : ObjectId} (hp : Pair w k h a h' b) (hρ : w.Follows ρ)
    (hr : w.rel k a b) : Renamed ρ h h' (k, a) := by
  obtain rfl := hρ k a b hr
  obtain ⟨content, content', hget, hget', hcontent, hmemory⟩ := hp
  refine ⟨content, hget, ?_, ?_⟩
  · rw [← hcontent.rename hρ]
    exact hget'
  · cases k with
    | string => exact fun i hi => (hmemory i hi).symm
    | array => exact fun i hi => (hmemory i hi).rename hρ
    | _ => trivial

end Heap

namespace Machine

variable {past : Host} {m m' : Machine}

/-- What a run leaves in two machines: one text is printed, and the global
variables and what can be followed to from them are equal up to a renaming of
ids. -/
def SameResults (m m' : Machine) : Prop :=
  m'.console = m.console ∧ ∃ ρ : Equiv.Perm ObjectId, m'.globals = m.globals.rename ρ ∧
    ∀ x, m.heap.Held m.globals.handles x → Heap.Renamed ρ m.heap m'.heap x

lemma Linked.sameResults {p : Phase} {t : Prop} {j j' : Journal}
    (hl : Linked p t m j m' j') : SameResults m m' := by
  obtain ⟨w, -, ht⟩ := hl
  obtain ⟨ρ, hρ⟩ := World.exists_renaming ht.heap.functional ht.heap.injective
  refine ⟨ht.console.symm, ρ, ht.globals.rename hρ, fun x hx => ?_⟩
  obtain ⟨b, hr⟩ := ht.heap.held (fun x hx => ht.globals.exists_handle hx) hx
  exact (ht.heap.pairs hr).renamed hρ hr

/-- Collections are transparent. A function is run by two machines that differ only
in when they collect. If all handles that can be followed to are live, pages are
always granted and neither machine runs out of numbers for objects or of words for
its threshold, then after as many instructions both are still running, or both
have ended in one way with the same results, or both have stopped with one
fault. -/
theorem Reachable.transparent (hm : Reachable past m) (htame : past.Tame) {config : Config}
    {threshold : Nat} (hm' : m' = { m with config := config, threshold := threshold })
    {function : Ref .function} (hlive : m.heap.Whole ((.function, function.id) :: m.holdings))
    (hgranted : m.heap.memory.Granted) (now : Double) (fuel : Nat) (j j' : Journal)
    (hroom : ∀ fault : Fault, fault.Exhausted →
      runFunction (.builtin now) fuel function m j ≠ .aborted fault)
    (hroom' : ∀ fault : Fault, fault.Exhausted →
      runFunction (.builtin now) fuel function m' j' ≠ .aborted fault) :
    (∃ ending m₁ j₁ m₁' j₁',
      runFunction (.builtin now) fuel function m j = .done ending m₁ j₁ ∧
      runFunction (.builtin now) fuel function m' j' = .done ending m₁' j₁' ∧
      SameResults m₁ m₁') ∨
    ∃ fault, runFunction (.builtin now) fuel function m j = .aborted fault ∧
      runFunction (.builtin now) fuel function m' j' = .aborted fault := by
  have hr := hm.ready htame
  have ht := tied_self False hr.sound hr.idle hlive (List.subset_cons_self _ _) (fun _ => hgranted)
    config threshold j j' False.elim
  have hagree := ht.runFunction (Host.builtin_agrees now _) ⟨rfl, .root (.head _)⟩ fuel
  rw [← hm'] at hagree
  generalize runFunction (.builtin now) fuel function m j = o,
    runFunction (.builtin now) fuel function m' j' = o' at hagree hroom hroom'
  cases hagree with
  | done related =>
      obtain ⟨rfl, hl⟩ := related
      exact .inl ⟨_, _, _, _, _, rfl, rfl, hl.sameResults⟩
  | raised _ related => exact related.elim
  | aborted live => exact .inr ⟨_, rfl, rfl⟩
  | left exhausted => exact (hroom _ exhausted rfl).elim
  | right _ exhausted => exact (hroom' _ exhausted rfl).elim

/-- A script that joins two texts, forgets the result, joins them once more into a
global variable and prints it. -/
def joiningScript : Action Machine (Ref .function) := do
  let a ← onHeap (Heap.insertText "a" false)
  let b ← onHeap (Heap.insertText "b" false)
  let words := [Opcode.constant.toWord, 0, Opcode.constant.toWord, 1, Opcode.add.toWord,
    Opcode.pop.toWord, Opcode.constant.toWord, 0, Opcode.constant.toWord, 1, Opcode.add.toWord,
    Opcode.defineGlobal.toWord, 0, Opcode.getGlobal.toWord, 0, Opcode.print.toWord,
    Opcode.pushNull.toWord, Opcode.ret.toWord]
  onHeap (Heap.alloc .function
    ⟨"", 0, 0, ⟨words.toArray, .empty, #[], .ofList [.scalar (.str a), .scalar (.str b)]⟩⟩)

lemma alike_joiningScript {p : Phase} {w : World} :
    Alike (Tied p) w (fun w₁ => Ref.Rel w₁) joiningScript joiningScript := by
  refine (alike_onHeap (Heap.alike_insertText "a" false)).bind fun w₁ a a' _ ha => ?_
  refine (alike_onHeap (Heap.alike_insertText "b" false)).bind fun w₂ b b' hle hb => ?_
  have hconstants : Stack.Rel (Value.Rel w₂) (.ofList [.scalar (.str a), .scalar (.str b)])
      (.ofList [.scalar (.str a'), .scalar (.str b')]) :=
    (Stack.Rel.empty.push (.scalar (.str (hle.rel ha)))).push (.scalar (.str hb))
  exact alike_onHeap
    (Heap.alike_alloc (k := .function) ⟨hconstants, rfl, rfl, rfl, rfl, rfl, rfl⟩ trivial)

lemma loads_joiningScript : Loads joiningScript :=
  .seq (loads_text _ _) fun _ => .seq (loads_text _ _) fun _ => loads_function _

/-- One machine collects before every allocation, the other never. The global
variable of the script has different ids in them. -/
theorem Reachable.transparent_joining : ∃ m function m₁ m₁' j j₁ j₁', Reachable solitary m ∧
    m.config.mode = .stress ∧ m₁.globals ≠ m₁'.globals ∧
    runFunction (.builtin ⟨0⟩) 12 function m j = .done .finished m₁ j₁ ∧
    runFunction (.builtin ⟨0⟩) 12 function { m with config := { m.config with mode := .off } } j =
      .done .finished m₁' j₁' ∧ m₁.console.printed = "ab\n" ∧ SameResults m₁ m₁' := by
  have hrun : ((Machine.create ⟨4096, 65536, 2, 8, .stress⟩ (fun _ => true) .silent).toOption.bind
      fun new => (joiningScript new.1 new.2).done?.bind fun made =>
        (runFunction (.builtin ⟨0⟩) 12 made.1 made.2.1 made.2.2).done?.bind fun ran =>
          (runFunction (.builtin ⟨0⟩) 12 made.1
              { made.2.1 with config := { made.2.1.config with mode := .off } } made.2.2).done?.map
            fun ran' => decide (ran.1 = .finished ∧ ran'.1 = .finished ∧ made.2.1.config.mode = .stress ∧
              ran.2.1.globals ≠ ran'.2.1.globals ∧ ran.2.1.console.printed = "ab\n")) = some true := by
    decide +kernel
  obtain ⟨⟨new, j⟩, hcreate, hrun⟩ := Option.bind_eq_some_iff.mp hrun
  obtain ⟨⟨function, m, j₀⟩, hscript, hrun⟩ := Option.bind_eq_some_iff.mp hrun
  obtain ⟨⟨ending, m₁, j₁⟩, hran, hrun⟩ := Option.bind_eq_some_iff.mp hrun
  obtain ⟨⟨ending', m₁', j₁'⟩, hran', hrun⟩ := Option.map_eq_some_iff.mp hrun
  obtain ⟨rfl, rfl, hmode, hglobals, hprinted⟩ := of_decide_eq_true hrun
  have hscript := Outcome.eq_of_done? hscript
  have hran := Outcome.eq_of_done? hran
  have hran' := Outcome.eq_of_done? hran'
  have hnew := Outcome.eq_of_toOption hcreate
  obtain ⟨w, htw, ht⟩ := linked_of_create (t := False) hnew fun _ _ => rfl
  obtain ⟨w', hle, ht', hf⟩ := (alike_joiningScript w w.le_refl _ _ _ _ ht).self_done hscript
  have hgranted := ht'.heap.granted (fun htw' => htw.mp (hle.twin.mp htw'))
  have hwhole : m.heap.Whole ((.function, function.id) :: m.holdings) := by
    refine ht'.heap.whole fun x hx => ?_
    rcases List.mem_cons.mp hx with rfl | hx
    · exact ⟨_, hf⟩
    · exact ht'.holding hx
  have hm : Reachable solitary m := (reachable_of_create hnew).done loads_joiningScript.deeds hscript
  obtain ⟨ending, m₂, j₂, m₂', j₂', hrun, hrun', hsame⟩ | ⟨fault, hrun, -⟩ :=
    hm.transparent solitary_tame rfl hwhole hgranted.1 ⟨0⟩ 12 j₀ j₀
      (fun _ _ h => by rw [hran] at h; cases h) fun _ _ h => by rw [hran'] at h; cases h
  · rw [hran] at hrun
    rw [hran'] at hrun'
    cases hrun
    cases hrun'
    exact ⟨m, function, m₁, m₁', j₀, j₁, j₁', hm, hmode, hglobals, hran, hran', hprinted, hsame⟩
  · rw [hran] at hrun
    cases hrun

end Machine

end ScriptMachine
