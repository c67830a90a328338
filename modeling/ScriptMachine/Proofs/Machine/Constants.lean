import ScriptMachine.Proofs.Machine.Functions

/-!
Constants, from one moment of a run to a later one.

As long as a function is live, it is the same function, and whenever one of its
instructions pushes a constant, it pushes the same value, of the same type. If that is a
string, it has the same text, unless something was stored into it: a script can do so,
since the constant and what is on the stack are one string.

* `Ran`: from one machine to a later one, and which strings were changed on the way;
* `Ran.upheld`: what is live all the time stays as it is;
* `Ran.functions_immutable`: functions and constants in every run;
* `constant_overwritten`: a constant that has another text when it is pushed again.
-/

namespace ScriptMachine

open ScriptMachine.Action

namespace Heap

variable {h h₁ : Heap} {id : ObjectId} {written : ObjectId → Prop}

/-- A function that is live before and after is the same one, with the same constants. -/
def Sustains (written : ObjectId → Prop) (h h₁ : Heap) : Prop :=
  h.Settled → h₁.Settled ∧ ∀ (ref : Ref .function) (f : Function), h.get? ref = some f →
    (h₁.get? ref).isSome → h₁.get? ref = some f ∧ SameConstants written f h h₁

lemma Steadfast.sustains (ht : Steadfast written h h₁) : Sustains written h h₁ := by
  intro hs
  obtain ⟨hs₁, hu⟩ := ht hs
  refine ⟨hs₁, fun ref f hf hlive => ?_⟩
  obtain ⟨f₁, hf₁⟩ := Option.isSome_iff_exists.mp hlive
  obtain rfl : f = f₁ := Option.some.inj (hf.symm.trans (hu.function ref f₁ hf₁))
  exact ⟨hf₁, hu.constants ref f hf₁⟩

/-- A new object, which may be a function. -/
lemma Added.sustains {object : Object} {contents : Nat → UInt8}
    (ha : Added h h₁ object false contents id) : Sustains written h h₁ := by
  intro hs
  obtain ⟨block, -, hfind, -⟩ := ha.found
  refine ⟨⟨ha.sound, hs.idle.onlyAt ha.only ha.isFresh.unmarked, hs.pins.onlyAt ha.only ?_⟩,
    fun ref f hf _ => ⟨?_, ?_⟩⟩
  · intro entry hentry
    obtain rfl := Option.some.inj (hfind.symm.trans hentry)
    exact nofun
  · exact (ha.isFresh.intact (contains_of_get? hf)).get?.trans hf
  · exact sameConstants_of_intact hs.sound fun _ _ hlive => ha.isFresh.intact hlive

lemma sustains_alloc (f : Function) : (alloc .function f).Within (Sustains written) := by
  refine fun h journal => Outcome.ends_of_imp fun hs => ?_
  have hrefl : Sustains written h h := Steadfast.sustains (refl_of (Steadfast written) h)
  exact Outcome.Ends.bind ((hs.sound.toTidy.insert _ false journal).leaves (hrefl hs) fun _ _ hi =>
    (hi.added hs.sound trivial).sustains hs) fun _ _ _ hsustains => hsustains

lemma steadfast_grant (grants : Nat → Bool) : (grant grants).Within (Steadfast written) :=
  within_modify fun _ hs =>
    ⟨⟨hs.sound.granting grants, ⟨hs.idle.unmarked, hs.idle.gray⟩, hs.pins⟩, fun _ _ hf => hf,
      fun _ _ _ => sameConstants_of_intact hs.sound fun _ _ _ => ⟨rfl, fun _ _ _ _ => rfl⟩⟩

/-- The type of a value is that of the elements if it is an array, and else does not
depend on the heap. -/
lemma typeName_of_keepsKind {value : Value} {type : String} (htype : h.typeName value = .ok type)
    (hkeeps : ∀ array, value = .scalar (.array array) → KeepsKind array h h₁) :
    h₁.typeName value = .ok type := by
  cases value with
  | scalar scalar =>
      cases scalar with
      | array array =>
          cases hget : h.get? array with
          | none =>
              rw [typeName, scalarType, read_of_none hget] at htype
              cases htype
          | some record =>
              obtain ⟨record₁, hget₁, hkind⟩ := hkeeps array rfl record hget
              rw [typeName, scalarType, read_of_get? hget] at htype
              rw [typeName, scalarType, read_of_get? hget₁, ← htype]
              exact congrArg (fun kind => Except.ok (ArrayKind.name kind)) hkind
      | _ => exact htype
  | _ => exact htype

end Heap

namespace Machine

variable {m m₁ m₂ : Machine} {written stored : ObjectId → Prop} {host : Host}
  {during : Machine → Prop} {ref : Ref .function} {f : Function} {journal journal' : Journal}

/-! ### Runs -/

/-- Loading sustains every function with its constants. -/
lemma Use.sustains {α : Type} {action : Action Machine α} (hu : Use Loading action) :
    action.Within fun m m₁ => Heap.Sustains (fun _ => False) m.heap m₁.heap := by
  have himp : ∀ {α : Type} {action : Action Machine α}, action.Within (Steadfast fun _ => False) →
      action.Within fun m m₁ => Heap.Sustains (fun _ => False) m.heap m₁.heap :=
    fun h => h.imp fun _ _ => Heap.Steadfast.sustains
  cases hu with
  | special allowed =>
      cases allowed with
      | function function =>
          have halloc : (Heap.alloc .function function).Within (Heap.Sustains fun _ => False) :=
            Heap.sustains_alloc function
          refine within_heap (halloc.imp fun _ _ hs => ?_)
          rintro m rfl
          exact hs
      | text text pinned => exact himp (within_primitive (.insertText text pinned))
      | grant grants =>
          exact himp (within_heap ((Heap.steadfast_grant grants).imp fun _ _ => onHeaps_steadfast))
  | defineNative native => exact himp (within_defineNative native)
  | settings config threshold console =>
      exact himp (within_modify fun _ => Tracks.of_eq rfl rfl)
  | collectGarbage => exact himp steadfast_collectGarbage
  | start function => exact himp (within_start function)
  | reset => exact himp steadfast_reset

/-- The next instruction stores into a string, and the string changes. -/
def ChangesText (m m₁ : Machine) (id : ObjectId) : Prop :=
  m.WritesText id ∧ ¬ Heap.KeepsText ⟨id⟩ m.heap m₁.heap

/-- From one machine to a later one. `during` holds at every moment, and `stored` of the
strings that were changed by a store into them. Errors may have been raised. -/
inductive Ran (host : Host) (during : Machine → Prop) (m : Machine) :
    Machine → (ObjectId → Prop) → Prop
  | now (here : during m) : Ran host during m m fun _ => False
  | used {m₁ m₂ : Machine} {stored : ObjectId → Prop} {α : Type} {action : Action Machine α}
      {journal : Journal} (past : Ran host during m m₁ stored) (use : Use Loading action)
      (run : (action m₁ journal).state? = some m₂) (here : during m₂) : Ran host during m m₂ stored
  | stepped {m₁ m₂ : Machine} {stored : ObjectId → Prop} {journal : Journal}
      (past : Ran host during m m₁ stored) (run : (step host m₁ journal).state? = some m₂)
      (here : during m₂) : Ran host during m m₂ fun id => stored id ∨ m₁.ChangesText m₂ id

/-- The machines that a new one becomes. -/
def Arises (host : Host) (m : Machine) : Prop :=
  ∃ config grants journal new journal' stored, create config grants journal = .ok (new, journal') ∧
    Ran host (fun _ => True) new m stored

lemma Ran.settled (hr : Ran host during m m₁ stored) (hhost : host.Faithful)
    (hs : m.heap.Settled) : m₁.heap.Settled := by
  induction hr with
  | now here => exact hs
  | used past use run here ih => exact (use.sustains.of_state? run ih).1
  | stepped past run here ih => exact ((ends_step hhost _ _).of_state? run ih).1

lemma settled_of_create {config : Config} {grants : Nat → Bool}
    (created : create config grants journal = .ok (m, journal')) : m.heap.Settled := by
  obtain ⟨bare, hbare, hcreate⟩ := Result.exists_of_bind_ok created
  have hblank := blank_of_bare hbare
  have hs : bare.heap.Settled := ⟨hblank.sound, hblank.idle, fun id entry hfind => by
    cases (hblank.find? id).symm.trans hfind⟩
  have hends := within_defineNatives (T := Steadfast fun _ => False) Native.builtins bare journal
  cases hrun : defineNatives Native.builtins bare journal with
  | done value m₁ journal₁ =>
      rw [hrun] at hcreate
      cases hcreate
      exact (hends.of_done hrun hs).1
  | raised error m₁ journal₁ => rw [hrun] at hcreate; cases hcreate
  | aborted fault => rw [hrun] at hcreate; cases hcreate

lemma Arises.settled (hm : Arises host m) (hhost : host.Faithful) : m.heap.Settled := by
  obtain ⟨config, grants, journal, new, journal', stored, created, hr⟩ := hm
  exact hr.settled hhost (settled_of_create created)

/-- A step preserves the constants of a function, except strings that it changes. -/
lemma sameConstants_of_step (hhost : host.Faithful) (hs : m.heap.Settled)
    (hrun : (step host m journal).state? = some m₁) (hf : m.heap.get? ref = some f)
    (hlive : (m₁.heap.get? ref).isSome) :
    m₁.heap.get? ref = some f ∧ Heap.SameConstants (m.ChangesText m₁) f m.heap m₁.heap := by
  obtain ⟨hf₁, hsame⟩ := (((ends_step hhost m journal).of_state? hrun).sustains hs).2 ref f hf hlive
  refine ⟨hf₁, fun text hmentions hnot => ?_, hsame.array⟩
  by_cases hwrites : m.WritesText text.id
  · exact not_not.mp fun hchanges => hnot ⟨hwrites, hchanges⟩
  · exact hsame.text text hmentions hwrites

/-- A function that is live all the time, and its constants. -/
lemma Ran.upheld (hr : Ran host (fun m => (m.heap.get? ref).isSome) m m₁ stored)
    (hhost : host.Faithful) (hs : m.heap.Settled) (hf : m.heap.get? ref = some f) :
    m₁.heap.get? ref = some f ∧ Heap.SameConstants stored f m.heap m₁.heap := by
  induction hr with
  | now here => exact ⟨hf, .refl f m.heap⟩
  | used past use run here ih =>
      obtain ⟨hf₁, hfirst⟩ := ih
      obtain ⟨hf₂, hnext⟩ := (use.sustains.of_state? run (past.settled hhost hs)).2 ref f hf₁ here
      exact ⟨hf₂, hfirst.trans (hnext.mono fun _ _ _ => id)⟩
  | stepped past run here ih =>
      obtain ⟨hf₁, hfirst⟩ := ih
      obtain ⟨hf₂, hnext⟩ := sameConstants_of_step hhost (past.settled hhost hs) run hf₁ here
      exact ⟨hf₂, (hfirst.mono fun _ _ hnot hstored => hnot (.inl hstored)).trans
        (hnext.mono fun _ _ hnot hchanges => hnot (.inr hchanges))⟩

/-! ### Instructions that push a constant -/

lemma fetchConstant_of_word (hf : m.heap.get? m.frame.function = some f) {word : UInt16}
    (hword : f.chunk.code[m.frame.ip]? = some word) (journal : Journal) :
    fetchConstant m journal = .done ((f.chunk.constants.get? word.toNat).getD .null)
      (m.movedTo (m.frame.ip + 1)) journal := by
  have hrunning : running (m.movedTo (m.frame.ip + 1)) journal =
      .done f (m.movedTo (m.frame.ip + 1)) journal := by
    rw [running, get_bind, movedTo_heap,
      show (m.movedTo (m.frame.ip + 1)).frame.function = m.frame.function from rfl,
      Heap.read_of_get? hf]
    rfl
  rw [fetchConstant, bind_of_done (fetchNat_of_word (Option.bind_eq_some_iff.mpr ⟨f, hf, hword⟩) journal),
    bind_of_done hrunning]
  rfl

/-- An instruction that pushes a constant fetches its number. -/
lemma step_of_constant (host : Host) (hop : m.nextOpcode? = some .constant)
    (hf : m.heap.get? m.frame.function = some f) {word : UInt16}
    (hword : f.chunk.code[m.frame.ip + 1]? = some word) (journal : Journal) :
    ∃ m' journal', step host m journal = .done .running m' journal' ∧ m'.heap = m.heap ∧
      m'.stack = m.stack.push ((f.chunk.constants.get? word.toNat).getD .null) := by
  obtain ⟨journal', hstep⟩ := step_of_next host hop journal
  have hconstant := fetchConstant_of_word (m := m.movedTo (m.frame.ip + 1)) hf hword journal'
  rw [hstep, if_neg (by decide), execute, bind_assoc, bind_of_done hconstant]
  exact ⟨_, _, rfl, rfl, rfl⟩

/-- Without a number, it is a fault. -/
lemma exists_word (hop : m.nextOpcode? = some .constant) (hf : m.heap.get? m.frame.function = some f)
    {status : Status} (hrun : step host m journal = .done status m₁ journal') :
    ∃ word, f.chunk.code[m.frame.ip + 1]? = some word := by
  obtain ⟨journal₁, hstep⟩ := step_of_next host hop journal
  rw [hstep, if_neg (by decide), execute, bind_assoc, fetchConstant, bind_assoc] at hrun
  obtain ⟨number, m₂, journal₂, hfetch, -⟩ := exists_of_bind_done hrun
  obtain ⟨word, hword, -⟩ := (fetchNat_ends _ _).of_done hfetch
  obtain ⟨f', hf', hword⟩ := Option.bind_eq_some_iff.mp hword
  cases hf.symm.trans hf'
  exact ⟨word, hword⟩

/-! ### Functions in every run -/

/-- In every run a function stays the same as long as it is live: its name, its arity,
its code with lines and cases, and its constants. The strings among its constants
stay and keep their texts, unless a store into them changes them. So if an
instruction pushes a constant, it pushes the same value, of the same type, whenever
it is carried out. -/
theorem Ran.functions_immutable (hhost : host.Faithful) (hm : Arises host m)
    (hr : Ran host (fun m => (m.heap.get? ref).isSome) m m₁ stored)
    (hf : m.heap.get? ref = some f) :
    m₁.heap.get? ref = some f ∧
    (∀ text record, f.Mentions (.str text) → ¬ stored text.id → m.heap.get? text = some record →
      m₁.heap.get? text = some record ∧ m₁.heap.text text = m.heap.text text) ∧
    ∀ journal status m' journal', m.frame.function = ref → m.nextOpcode? = some .constant →
      step host m journal = .done status m' journal' →
      m₁.frame.function = ref → m₁.frame.ip = m.frame.ip →
      ∀ journal₁, ∃ value m₁' journal₁', status = .running ∧ m'.heap = m.heap ∧
        m'.stack = m.stack.push value ∧
        step host m₁ journal₁ = .done .running m₁' journal₁' ∧ m₁'.heap = m₁.heap ∧
        m₁'.stack = m₁.stack.push value ∧
        (∀ scalar, value = .scalar scalar → scalar = .null ∨ f.Mentions scalar) ∧
        ∀ type, m.heap.typeName value = .ok type → m₁.heap.typeName value = .ok type := by
  have hs := hm.settled hhost
  have hs₁ := hr.settled hhost hs
  obtain ⟨hf₁, hconstants⟩ := hr.upheld hhost hs hf
  refine ⟨hf₁, fun text record hmentions hnot hget => ?_, ?_⟩
  · have hkeeps := hconstants.text text hmentions hnot
    exact ⟨(hkeeps record hget).1, hkeeps.text_eq hs.sound hs₁.sound hget⟩
  · rintro journal status m' journal' rfl hop hrun href hip journal₁
    -- both steps read the same word of the same code
    obtain ⟨word, hword⟩ := exists_word hop hf hrun
    have hop₁ : m₁.nextOpcode? = some .constant := by
      rw [nextOpcode?, href, hf₁, hip, ← hop, nextOpcode?, hf]
    obtain ⟨n, j, hstep, hheap, hstack⟩ := step_of_constant host hop hf hword journal
    cases hrun.symm.trans hstep
    obtain ⟨n₁, j₁, hstep₁, hheap₁, hstack₁⟩ :=
      step_of_constant host hop₁ (href ▸ hf₁) (hip ▸ hword) journal₁
    have hmentions := f.mentions_of_constant word.toNat
    refine ⟨_, n₁, j₁, rfl, hheap, hstack, hstep₁, hheap₁, hstack₁, hmentions, fun type htype => ?_⟩
    refine Heap.typeName_of_keepsKind htype fun array harray => hconstants.array array ?_
    rcases hmentions _ harray with hnull | hmentions
    · cases hnull
    · exact hmentions

/-! ### A script that reads its constants again -/

/-- Loading and starting programs. -/
lemma Ran.loads {α : Type} {action : Action Machine α} (hl : Loads action)
    (hr : Ran host (fun _ => True) m m₁ stored) (hrun : (action m₁ journal).state? = some m₂) :
    Ran host (fun _ => True) m m₂ stored := by
  have hends := hl.ends (P := fun m₁ => Ran host (fun _ => True) m m₁ stored) (E := fun _ => True)
    (fun {_ action m₁} journal use hr => ?_) hr journal
  · exact (hends.imp (fun _ _ => id) (fun _ _ h => h trivial) fun _ => id).of_state? hrun
  · cases hrun : action m₁ journal with
    | done value m' journal' => exact hr.used use (congrArg Outcome.state? hrun) trivial
    | raised error m' journal' => exact fun _ => hr.used use (congrArg Outcome.state? hrun) trivial
    | aborted fault => trivial

/-- Whether a function is live during the steps of a run. -/
def lasts (host : Host) (ref : Ref .function) : (fuel : Nat) → Machine → Journal → Bool
  | 0, m, _ => (m.heap.get? ref).isSome
  | fuel + 1, m, journal => (m.heap.get? ref).isSome &&
      match step host m journal with
      | .done .running m journal => lasts host ref fuel m journal
      | _ => false

lemma isSome_of_lasts {fuel : Nat} (hlasts : lasts host ref fuel m journal = true) :
    (m.heap.get? ref).isSome := by
  cases fuel with
  | zero => exact hlasts
  | succ fuel => exact (Bool.and_eq_true_iff.mp hlasts).1

lemma exists_of_lasts {fuel : Nat} (hlasts : lasts host ref (fuel + 1) m journal = true) :
    ∃ m₁ journal₁, step host m journal = .done .running m₁ journal₁ ∧
      lasts host ref fuel m₁ journal₁ = true := by
  have hrest := (Bool.and_eq_true_iff.mp hlasts).2
  split at hrest
  case h_1 m₁ journal₁ hstep => exact ⟨m₁, journal₁, hstep, hrest⟩
  case h_2 => cases hrest

/-- A step during which a function is live and nothing is stored into a string. -/
lemma Ran.step_spared {id : ObjectId} {fuel : Nat}
    (hr : Ran host (fun m => (m.heap.get? ref).isSome) m m₁ stored) (hnot : ¬ stored id)
    (hlasts : lasts host ref (fuel + 1) m₁ journal = true)
    (hspares : spares host id (fuel + 1) m₁ journal = true)
    (hrun : (step host m₁ journal).state? = some m₂) :
    ∃ stored', Ran host (fun m => (m.heap.get? ref).isSome) m m₂ stored' ∧ ¬ stored' id := by
  obtain ⟨m', journal', hstep, hrest⟩ := exists_of_lasts hlasts
  rw [hstep] at hrun
  obtain rfl := Option.some.inj hrun
  refine ⟨_, hr.stepped (congrArg Outcome.state? hstep) (isSome_of_lasts hrest), ?_⟩
  rintro (hstored | ⟨⟨hop, hpeek⟩, -⟩)
  · exact hnot hstored
  · simp [spares, hop, hpeek] at hspares

/-- Steps during which a function is live. A string into which nothing is stored does not
change. -/
lemma Ran.steps {id : ObjectId} {fuel : Nat}
    (hr : Ran host (fun m => (m.heap.get? ref).isSome) m m₁ stored) (hnot : ¬ stored id)
    (hlasts : lasts host ref fuel m₁ journal = true) (hspares : spares host id fuel m₁ journal = true)
    (hrun : (runFor host fuel m₁ journal).state? = some m₂) :
    ∃ stored', Ran host (fun m => (m.heap.get? ref).isSome) m m₂ stored' ∧ ¬ stored' id := by
  have hcases := runFor_cases host (P := fun fuel m₁ journal =>
    (lasts host ref fuel m₁ journal = true ∧ spares host id fuel m₁ journal = true) ∧
      ∃ stored, Ran host (fun m => (m.heap.get? ref).isSome) m m₁ stored ∧ ¬ stored id)
    ⟨⟨hlasts, hspares⟩, stored, hr, hnot⟩ ?_
  · rcases hcases with ⟨m', journal', ⟨-, stored', hr', hnot'⟩, heq⟩ |
      ⟨_, m', journal', ⟨⟨hlasts', hspares'⟩, stored', hr', hnot'⟩, heq⟩
    · rw [heq] at hrun
      exact ⟨stored', Option.some.inj hrun ▸ hr', hnot'⟩
    · exact hr'.step_spared hnot' hlasts' hspares' (heq ▸ hrun)
  · rintro fuel m₁ m' journal journal' ⟨⟨hlasts, hspares⟩, stored, hr, hnot⟩ hstep
    refine ⟨⟨?_, ?_⟩, hr.step_spared hnot hlasts hspares (congrArg Outcome.state? hstep)⟩
    · obtain ⟨m₂, journal₂, hstep', hrest⟩ := exists_of_lasts hlasts
      cases hstep.symm.trans hstep'
      exact hrest
    · rw [spares, hstep] at hspares
      exact (Bool.and_eq_true_iff.mp hspares).2

/-- A script that stores into its first constant, copies its second, and begins anew. -/
def rereading : Action Machine Unit := do
  let first ← onHeap (Heap.insertText "ab" false)
  let second ← onHeap (Heap.insertText "cd" false)
  let words := [Opcode.constant.toWord, 0, Opcode.constant.toWord, 2, Opcode.constant.toWord, 3,
    Opcode.setIndex.toWord, Opcode.pop.toWord, Opcode.constant.toWord, 1, Opcode.copy.toWord,
    Opcode.pop.toWord, Opcode.loop.toWord, 14]
  let script ← onHeap (Heap.alloc .function ⟨"", 0, 0, ⟨words.toArray, .empty, #[],
    .ofList [.scalar (.str first), .scalar (.str second), .scalar (.int 0), .scalar (.char 120)]⟩⟩)
  start script

lemma loads_rereading : Loads rereading :=
  .seq (loads_text _ _) fun _ => .seq (loads_text _ _) fun _ => .seq (loads_function _) fun _ =>
    loads_start _

/-- The script at its start, and when it begins anew. Nothing was stored into its second
constant. -/
lemma exists_ran {p : Machine → Machine → Prop} [∀ m m₁, Decidable (p m m₁)]
    (hrun : ((Machine.create ⟨4096, 65536, 2, 8, .stress⟩ (fun _ => true) .silent).toOption.bind
      fun new => (rereading new.1 new.2).done?.bind fun r =>
        if lasts (.builtin ⟨0⟩) ⟨⟨10, 0⟩⟩ 9 r.2.1 r.2.2 = true ∧
            spares (.builtin ⟨0⟩) ⟨9, 0⟩ 9 r.2.1 r.2.2 = true then
          (runFor (.builtin ⟨0⟩) 9 r.2.1 r.2.2).state?.map (r.2.1, ·) else none).any
        (fun pair => p pair.1 pair.2) = true) :
    ∃ m m₁ stored, Arises (.builtin ⟨0⟩) m ∧
      Ran (.builtin ⟨0⟩) (fun m => (m.heap.get? (⟨⟨10, 0⟩⟩ : Ref .function)).isSome) m m₁ stored ∧
      ¬ stored ⟨9, 0⟩ ∧ p m m₁ := by
  obtain ⟨⟨m, m₁⟩, hstate, hp⟩ := (Option.any_eq_true _ _).mp hrun
  obtain ⟨new, hnew, hstate⟩ := Option.bind_eq_some_iff.mp hstate
  obtain ⟨r, hload, hstate⟩ := Option.bind_eq_some_iff.mp hstate
  obtain ⟨⟨hlasts, hspares⟩, hstate⟩ := Option.ite_none_right_eq_some.mp hstate
  obtain ⟨m₂, hsteps, hpair⟩ := Option.map_eq_some_iff.mp hstate
  cases hpair
  have hbegin : Ran (.builtin ⟨0⟩) (fun _ => True) new.1 new.1 _ := .now trivial
  have hloaded := hbegin.loads loads_rereading (congrArg Outcome.state? (Outcome.eq_of_done? hload))
  obtain ⟨stored, hr, hnot⟩ := Ran.steps (.now (isSome_of_lasts hlasts)) id hlasts hspares hsteps
  exact ⟨_, _, stored, ⟨_, _, _, _, _, _, Outcome.eq_of_toOption hnew, hloaded⟩, hr, hnot,
    of_decide_eq_true hp⟩

/-- The script when it begins anew: the function is the same, and so is the text of its second
constant. Its first instruction pushes the same string as before. -/
theorem Ran.functions_immutable_again : (Host.builtin ⟨0⟩).Faithful ∧
    ∃ m m₁ stored, ∃ (ref : Ref .function) (f : Function) (text : Ref .string) (record : StringRecord)
      (value : Value) (m' m₁' : Machine) (journal' journal₁' : Journal),
      Arises (.builtin ⟨0⟩) m ∧
      Ran (.builtin ⟨0⟩) (fun m => (m.heap.get? ref).isSome) m m₁ stored ∧
      m.heap.get? ref = some f ∧ f.Mentions (.str text) ∧ ¬ stored text.id ∧
      m.heap.get? text = some record ∧ m₁.heap.get? ref = some f ∧
      m₁.heap.text text = m.heap.text text ∧
      step (.builtin ⟨0⟩) m .silent = .done .running m' journal' ∧ m'.stack = m.stack.push value ∧
      step (.builtin ⟨0⟩) m₁ .silent = .done .running m₁' journal₁' ∧
      m₁'.stack = m₁.stack.push value := by
  obtain ⟨m, m₁, stored, hm, hr, hnot, hp⟩ := exists_ran (p := fun m m₁ =>
    (m.heap.get? (⟨⟨10, 0⟩⟩ : Ref .function)).any (fun (f : Function) =>
      decide (f.Mentions (.str ⟨⟨9, 0⟩⟩))) = true ∧
    (m.heap.get? (⟨⟨9, 0⟩⟩ : Ref .string)).isSome = true ∧
    m.frame.function = ⟨⟨10, 0⟩⟩ ∧ m.nextOpcode? = some .constant ∧ m₁.frame = m.frame ∧
    (step (.builtin ⟨0⟩) m .silent).done?.isSome = true) (by decide +kernel)
  obtain ⟨hfunction, htext, href, hop, hframe, hstep⟩ := hp
  obtain ⟨f, hf, hmentions⟩ := (Option.any_eq_true _ _).mp hfunction
  obtain ⟨record, hrecord⟩ := Option.isSome_iff_exists.mp htext
  obtain ⟨r, hstep⟩ := Option.isSome_iff_exists.mp hstep
  have hstep := Outcome.eq_of_done? hstep
  have hmentions : f.Mentions (.str ⟨⟨9, 0⟩⟩) := of_decide_eq_true hmentions
  obtain ⟨hf₁, htexts, hconstant⟩ := hr.functions_immutable (Host.builtin_faithful _) hm hf
  obtain ⟨value, m₁', journal₁', hrunning, -, hstack, hstep₁, -, hstack₁, -⟩ :=
    hconstant _ _ _ _ href hop hstep (hframe ▸ href) (hframe ▸ rfl) .silent
  exact ⟨Host.builtin_faithful _, m, m₁, stored, _, f, _, record, value, _, m₁', _, journal₁', hm, hr, hf,
    hmentions, hnot, hrecord, hf₁, (htexts _ record hmentions hnot hrecord).2, hrunning ▸ hstep, hstack,
    hstep₁, hstack₁⟩

/-- Its first instruction pushes a constant that has got another text. -/
theorem constant_overwritten :
    ∃ m m₁ stored, ∃ (ref : Ref .function) (text : Ref .string) (m' m₁' : Machine)
      (journal' journal₁' : Journal),
      Arises (.builtin ⟨0⟩) m ∧
      Ran (.builtin ⟨0⟩) (fun m => (m.heap.get? ref).isSome) m m₁ stored ∧
      m.frame.function = ref ∧ m.nextOpcode? = some .constant ∧ m₁.frame = m.frame ∧
      step (.builtin ⟨0⟩) m .silent = .done .running m' journal' ∧
      step (.builtin ⟨0⟩) m₁ .silent = .done .running m₁' journal₁' ∧
      m'.stack.peek? 0 = some (.scalar (.str text)) ∧ m'.heap.text text = .ok "ab" ∧
      m₁'.stack.peek? 0 = some (.scalar (.str text)) ∧ m₁'.heap.text text = .ok "xb" := by
  obtain ⟨m, m₁, stored, hm, hr, -, href, hop, hframe, hstep, hstep₁⟩ := exists_ran (p := fun m m₁ =>
    m.frame.function = ⟨⟨10, 0⟩⟩ ∧ m.nextOpcode? = some .constant ∧ m₁.frame = m.frame ∧
    (step (.builtin ⟨0⟩) m .silent).done?.any (fun r => decide (r.1 = .running ∧
      r.2.1.stack.peek? 0 = some (.scalar (.str ⟨⟨8, 0⟩⟩)) ∧
      (r.2.1.heap.text ⟨⟨8, 0⟩⟩).toOption = some "ab")) = true ∧
    (step (.builtin ⟨0⟩) m₁ .silent).done?.any (fun r => decide (r.1 = .running ∧
      r.2.1.stack.peek? 0 = some (.scalar (.str ⟨⟨8, 0⟩⟩)) ∧
      (r.2.1.heap.text ⟨⟨8, 0⟩⟩).toOption = some "xb")) = true) (by decide +kernel)
  obtain ⟨⟨status, m', journal'⟩, hstep, hp⟩ := (Option.any_eq_true _ _).mp hstep
  obtain ⟨⟨status₁, m₁', journal₁'⟩, hstep₁, hp₁⟩ := (Option.any_eq_true _ _).mp hstep₁
  obtain ⟨rfl, hpeek, htext⟩ := of_decide_eq_true hp
  obtain ⟨rfl, hpeek₁, htext₁⟩ := of_decide_eq_true hp₁
  exact ⟨m, m₁, stored, _, _, m', m₁', journal', journal₁', hm, hr, href, hop, hframe,
    Outcome.eq_of_done? hstep, Outcome.eq_of_done? hstep₁, hpeek, Outcome.eq_of_toOption htext, hpeek₁,
    Outcome.eq_of_toOption htext₁⟩

end Machine

end ScriptMachine
