import ScriptMachine.Proofs.Machine.Instructions

/-!
Jumps, from the assembler to the machine.

The assembler writes distances: forward ones when the target is reached, backward
ones at once, and the targets of cases as they are. Later calls keep what was
written, but for the words that they patch.

* `Built`: what becomes of a chunk by calls that succeed;
* `Built.grown`: later calls only add, or patch;
* `About.jump`, `About.loop`, `About.jumpList`: where the machine continues;
* `jumps_arrive`: it continues where the assembler meant it to.
-/

namespace ScriptMachine

open ScriptMachine.Action

namespace Code.Chunk

variable {patches : Nat → Prop} {c c₁ c₂ : Chunk} {journal journal' : Journal}

/-! ### What the calls do -/

lemma patchJump_apply (position : Nat) (c : Chunk) (journal : Journal) :
    patchJump position c journal =
      if c.code.size < position + 1 then .aborted .wordOverflow
      else if largestWord < c.code.size - (position + 1) then .raised .jumpTooLarge c journal
      else .done () { c with
        code := c.code.setIfInBounds position (.ofNat (c.code.size - (position + 1))) } journal := by
  rw [patchJump, get_bind]
  dsimp only
  rw [Nat.sub_sub]
  split
  · rfl
  · split <;> rfl

lemma emitLoop_apply (start line : Nat) (c : Chunk) (journal : Journal) :
    emitLoop start line c journal =
      if c.code.size + 2 < start then .aborted .wordOverflow
      else if largestWord < c.code.size + 2 - start then
        .raised .jumpTooLarge (c.append Opcode.loop.toWord line) journal
      else .done () ((c.append Opcode.loop.toWord line).append (.ofNat (c.code.size + 2 - start)) line)
        journal := by
  have hsize : (c.append Opcode.loop.toWord line).code.size + 1 = c.code.size + 2 := by
    rw [append, Array.size_push]
  rw [emitLoop, write, modify_bind, get_bind]
  dsimp only
  rw [hsize]
  split
  · rfl
  · split <;> rfl

lemma addCase_apply (c : Chunk) (journal : Journal) :
    addCase c journal =
      if largestWord < c.code.size then .raised .jumpTooLarge c journal
      else
        let added := { c with cases := c.cases.push (.ofNat c.code.size) }
        if largestWord < c.cases.size then .raised .jumpTooLarge added journal
        else .done (.ofNat c.cases.size) added journal := by
  rw [addCase, get_bind]
  dsimp only
  split
  · rfl
  · rw [modify_bind, get_bind]
    dsimp only
    rw [Array.size_push, Nat.add_sub_cancel]
    split <;> rfl

/-! ### Building code -/

/-- The calls that build a chunk, with the positions that they may patch. -/
inductive Call (patches : Nat → Prop) : {α : Type} → Action Chunk α → Prop
  | write (word : UInt16) (line : Nat) : Call patches (write word line)
  | emitConstant (value : Value) (line : Nat) : Call patches (emitConstant value line)
  | emitJump (op : UInt16) (line : Nat) : Call patches (emitJump op line)
  | patchJump (position : Nat) (allowed : patches position) : Call patches (patchJump position)
  | emitLoop (start line : Nat) : Call patches (emitLoop start line)
  | addCase : Call patches addCase

/-- What becomes of a chunk by calls that succeed. -/
inductive Built (patches : Nat → Prop) (c : Chunk) : Chunk → Prop
  | start : Built patches c c
  | call {c₁ c₂ : Chunk} {α : Type} {action : Action Chunk α} {value : α} {journal journal' : Journal}
      (past : Built patches c c₁) (call : Call patches action)
      (run : action c₁ journal = .done value c₂ journal') : Built patches c c₂

/-- Words that may not be patched stay, and so do cases. -/
structure Grown (patches : Nat → Prop) (c c' : Chunk) : Prop where
  words : ∀ (i : Nat) (word : UInt16), ¬ patches i → c.code[i]? = some word → c'.code[i]? = some word
  cases : ∀ (i : Nat) (target : UInt16), c.cases[i]? = some target → c'.cases[i]? = some target

instance : IsPreorder Chunk (Grown patches) where
  refl _ := ⟨fun _ _ _ => id, fun _ _ => id⟩
  trans _ _ _ h h' := ⟨fun i word hi hword => h'.words i word hi (h.words i word hi hword),
    fun i target htarget => h'.cases i target (h.cases i target htarget)⟩

lemma getElem?_push_of_some {α : Type} {xs : Array α} {i : Nat} {x y : α} (h : xs[i]? = some x) :
    (xs.push y)[i]? = some x := by
  have hlt : i < xs.size := (Array.getElem?_eq_some_iff.mp h).1
  rw [Array.getElem?_push, if_neg (by omega), h]

lemma grown_append (c : Chunk) (word : UInt16) (line : Nat) : Grown patches c (c.append word line) :=
  ⟨fun _ _ _ => getElem?_push_of_some, fun _ _ => id⟩

lemma within_write (word : UInt16) (line : Nat) : (write word line).Within (Grown patches) :=
  within_modify fun c => grown_append c word line

lemma within_emitConstant (value : Value) (line : Nat) :
    (emitConstant value line).Within (Grown patches) := by
  refine Within.bind (Within.bind (within_modifyGet fun c => ?_) fun index => ?_) fun _ =>
    (within_write _ _).bind fun _ => within_write _ _
  · split <;> exact ⟨fun _ _ _ => id, fun _ _ => id⟩
  · exact .ite (within_pure _) (within_raise _)

lemma within_patchJump {position : Nat} (hpatches : patches position) :
    (patchJump position).Within (Grown patches) := by
  intro c journal
  rw [patchJump_apply]
  split
  · trivial
  · split
    · exact refl_of (Grown patches) c
    · refine ⟨fun i word hi hword => ?_, fun _ _ => id⟩
      have hne : position ≠ i := fun heq => hi (heq ▸ hpatches)
      rw [Array.getElem?_setIfInBounds_ne hne, hword]

lemma within_emitLoop (start line : Nat) : (emitLoop start line).Within (Grown patches) := by
  intro c journal
  rw [emitLoop_apply]
  split
  · trivial
  · split
    · exact grown_append c _ line
    · exact trans_of (Grown patches) (grown_append c _ line) (grown_append _ _ line)

lemma within_addCase : addCase.Within (Grown patches) := by
  intro c journal
  rw [addCase_apply]
  split
  · exact refl_of (Grown patches) c
  · dsimp only
    split <;> exact ⟨fun _ _ _ => id, fun _ _ => getElem?_push_of_some⟩

/-- No call changes words other than those it patches. -/
lemma Call.within {α : Type} {action : Action Chunk α} (hcall : Call patches action) :
    action.Within (Grown patches) := by
  cases hcall with
  | write word line => exact within_write word line
  | emitConstant value line => exact within_emitConstant value line
  | emitJump op line =>
      exact (within_write _ _).bind fun _ => (within_write _ _).bind fun _ => within_get.bind fun _ =>
        within_pure _
  | patchJump position allowed => exact within_patchJump allowed
  | emitLoop start line => exact within_emitLoop start line
  | addCase => exact within_addCase

lemma Built.grown (hb : Built patches c c₁) : Grown patches c c₁ := by
  induction hb with
  | start => exact refl_of (Grown patches) c
  | call _ call run ih => exact trans_of (Grown patches) ih ((call.within _ _).of_done run)

/-- The operand of a jump that was just patched. -/
lemma word_of_patchJump {position : Nat} (hrun : patchJump position c journal = .done () c₁ journal') :
    ∃ word : UInt16, c₁.code[position]? = some word ∧ position + 1 + word.toNat = c.code.size := by
  rw [patchJump_apply] at hrun
  split at hrun
  · cases hrun
  · split at hrun
    · cases hrun
    · rename_i hin hnear
      unfold largestWord at hnear
      cases hrun
      refine ⟨_, Array.getElem?_setIfInBounds_self_of_lt (by omega), ?_⟩
      rw [UInt16.toNat_ofNat_of_lt' (by unfold UInt16.size; omega)]
      omega

/-- A backward jump, as it is written. -/
lemma word_of_emitLoop {start line : Nat}
    (hrun : emitLoop start line c journal = .done () c₁ journal') :
    ∃ word : UInt16, c₁.code[c.code.size + 1]? = some word ∧ word.toNat = c.code.size + 2 - start := by
  rw [emitLoop_apply] at hrun
  split at hrun
  · cases hrun
  · split at hrun
    · cases hrun
    · rename_i hnear
      unfold largestWord at hnear
      cases hrun
      refine ⟨_, ?_, UInt16.toNat_ofNat_of_lt' (by unfold UInt16.size; omega)⟩
      rw [append, append, Array.getElem?_push, if_pos (Array.size_push _).symm]

/-- A case, as it is recorded. -/
lemma case_of_addCase {index : UInt16} (hrun : addCase c journal = .done index c₁ journal') :
    ∃ target : UInt16, c₁.cases[index.toNat]? = some target ∧ target.toNat = c.code.size := by
  rw [addCase_apply] at hrun
  split at hrun
  · cases hrun
  · dsimp only at hrun
    split at hrun
    · cases hrun
    · rename_i hnear hfew
      unfold largestWord at hnear hfew
      cases hrun
      refine ⟨_, ?_, UInt16.toNat_ofNat_of_lt' (by unfold UInt16.size; omega)⟩
      rw [UInt16.toNat_ofNat_of_lt' (by unfold UInt16.size; omega)]
      simp

/-- A forward jump, as it is written. -/
lemma position_of_emitJump {op : UInt16} {line position : Nat}
    (hrun : emitJump op line c journal = .done position c₁ journal') : position = c.code.size + 1 := by
  cases hrun
  simp [append]

/-! ### When calls fail -/

/-- The call raises an error. -/
def Fails {α : Type} (outcome : Outcome Chunk α) : Prop :=
  ∃ error c journal, outcome = .raised error c journal

/-- A patch fails exactly if the distance does not fit into a word. -/
lemma patchJump_fails (position : Nat) (c : Chunk) (journal : Journal) :
    (Fails (patchJump position c journal) ↔ largestWord < c.code.size - (position + 1)) ∧
    (position < c.code.size → c.code.size - (position + 1) ≤ largestWord →
      ∃ c', patchJump position c journal = .done () c' journal) ∧
    ∀ error c' journal', patchJump position c journal = .raised error c' journal' → c' = c := by
  rw [patchJump_apply]
  split
  · refine ⟨⟨?_, fun _ => ?_⟩, fun _ _ => ?_, ?_⟩
    · rintro ⟨_, _, _, h⟩
      cases h
    · omega
    · omega
    · rintro _ _ _ h
      cases h
  · split
    · refine ⟨⟨fun _ => ‹_›, fun _ => ⟨_, _, _, rfl⟩⟩, fun _ _ => ?_, ?_⟩
      · omega
      · rintro _ _ _ h
        cases h
        rfl
    · refine ⟨⟨?_, fun h => absurd h ‹_›⟩, fun _ _ => ⟨_, rfl⟩, ?_⟩
      · rintro ⟨_, _, _, h⟩
        cases h
      · rintro _ _ _ h
        cases h

lemma emitLoop_fails (start line : Nat) (c : Chunk) (journal : Journal) :
    (Fails (emitLoop start line c journal) ↔ largestWord < c.code.size + 2 - start) ∧
    (start ≤ c.code.size → c.code.size + 2 - start ≤ largestWord →
      ∃ c', emitLoop start line c journal = .done () c' journal) := by
  rw [emitLoop_apply]
  split
  · refine ⟨⟨?_, fun _ => ?_⟩, fun _ _ => ?_⟩
    · rintro ⟨_, _, _, h⟩
      cases h
    · omega
    · omega
  · split
    · refine ⟨⟨fun _ => ‹_›, fun _ => ⟨_, _, _, rfl⟩⟩, fun _ _ => ?_⟩
      omega
    · refine ⟨⟨?_, fun h => absurd h ‹_›⟩, fun _ _ => ⟨_, rfl⟩⟩
      rintro ⟨_, _, _, h⟩
      cases h

lemma addCase_fails (c : Chunk) (journal : Journal) :
    (Fails (addCase c journal) ↔ largestWord < c.code.size ∨ largestWord < c.cases.size) ∧
    (c.code.size ≤ largestWord → c.cases.size ≤ largestWord →
      ∃ c', addCase c journal = .done (.ofNat c.cases.size) c' journal) := by
  rw [addCase_apply]
  dsimp only
  split
  · refine ⟨⟨fun _ => .inl ‹_›, fun _ => ⟨_, _, _, rfl⟩⟩, fun _ _ => ?_⟩
    omega
  · split
    · refine ⟨⟨fun _ => .inr ‹_›, fun _ => ⟨_, _, _, rfl⟩⟩, fun _ _ => ?_⟩
      omega
    · refine ⟨⟨?_, fun h => ?_⟩, fun _ _ => ⟨_, rfl⟩⟩
      · rintro ⟨_, _, _, h⟩
        cases h
      · omega

end Code.Chunk

namespace Machine

open Code

variable {host : Host} {m : Machine} {c : Chunk} {ip : Nat} {op : Opcode} {word : UInt16}

/-! ### Carrying jumps out -/

/-- The machine is about to carry out the instruction `op`, which stands at `ip` in
the code of a chunk. -/
structure About (m : Machine) (c : Chunk) (ip : Nat) (op : Opcode) : Prop where
  function : ∃ function : Function, m.heap.get? m.frame.function = some function ∧ function.chunk = c
  ip_eq : m.frame.ip = ip
  word : c.code[ip]? = some op.toWord

/-- Whether a forward jump is taken, with a value on top of the stack. -/
def taken : Opcode → Value → Bool
  | .jump, _ => true
  | .jumpIfFalse, v => !v.isTrue
  | .jumpIfTrue, v => v.isTrue
  | .jumpIfNull, v => v.isNull
  | .jumpIfNotNull, v => !v.isNull
  | _, _ => false

/-- The next instruction continues at `target` and does nothing else. -/
def ContinuesAt (m : Machine) (target : Nat) : Prop :=
  ∀ host journal, ∃ journal', step host m journal = .done .running (m.movedTo target) journal'

lemma About.fetch_word (h : About m c ip op) {position : Nat}
    (hword : c.code[position]? = some word) (journal : Journal) :
    fetch (m.movedTo position) journal = .done word (m.movedTo (position + 1)) journal := by
  obtain ⟨function, hget, rfl⟩ := h.function
  refine fetch_of_word (m := m.movedTo position) (Option.bind_eq_some_iff.mpr ⟨function, ?_, hword⟩) _
  exact hget

/-- After its word is fetched, the instruction is carried out. -/
lemma About.step_eq (h : About m c ip op) (hop : op ≠ .ret) (host : Host) (journal : Journal) :
    ∃ journal', step host m journal =
      (do execute host op; return .running : Action Machine Status) (m.movedTo (ip + 1)) journal' := by
  have hfetch := h.fetch_word h.word journal
  have hm : m.movedTo ip = m := by rw [← h.ip_eq]; rfl
  rw [hm] at hfetch
  obtain ⟨journal', hstep⟩ := step_of_fetch host hfetch (Opcode.ofWord?_toWord op)
  rw [if_neg hop] at hstep
  exact ⟨journal', hstep⟩

lemma About.fetchNat_eq (h : About m c ip op) (hword : c.code[ip + 1]? = some word)
    (journal : Journal) :
    fetchNat (m.movedTo (ip + 1)) journal = .done word.toNat (m.movedTo (ip + 2)) journal := by
  rw [fetchNat, bind_of_done (h.fetch_word hword journal)]
  rfl

/-- A jump that is taken adds its operand to the position behind it. -/
lemma About.jump (h : About m c ip op) (hword : c.code[ip + 1]? = some word)
    (htaken : taken op ((m.stack.peek? 0).getD .null) = true) :
    ContinuesAt m (ip + 2 + word.toNat) := by
  have hif : ∀ test journal, test ((m.stack.peek? 0).getD .null) = true →
      (do jumpIf test; return Status.running : Action Machine Status) (m.movedTo (ip + 1)) journal =
        .done .running (m.movedTo (ip + 2 + word.toNat)) journal := by
    intro test journal htest
    have hpeek : peek 0 (m.movedTo (ip + 2)) journal =
        .done ((m.stack.peek? 0).getD .null) (m.movedTo (ip + 2)) journal := rfl
    rw [jumpIf, bind_assoc, bind_of_done (h.fetchNat_eq hword journal), bind_assoc, bind_of_done hpeek,
      if_pos htest]
    rfl
  intro host journal
  obtain ⟨journal', hstep⟩ := h.step_eq (by rintro rfl; cases htaken) host journal
  refine ⟨journal', hstep.trans ?_⟩
  cases op with
  | jump =>
      rw [execute, bind_assoc, bind_of_done (h.fetchNat_eq hword journal')]
      rfl
  | jumpIfFalse => exact hif _ _ htaken
  | jumpIfTrue => exact hif _ _ htaken
  | jumpIfNull => exact hif _ _ htaken
  | jumpIfNotNull => exact hif _ _ htaken
  | _ => cases htaken

/-- A backward jump subtracts its operand. -/
lemma About.loop (h : About m c ip .loop) (hword : c.code[ip + 1]? = some word)
    (hback : word.toNat ≤ ip + 2) : ContinuesAt m (ip + 2 - word.toNat) := by
  intro host journal
  obtain ⟨journal', hstep⟩ := h.step_eq (by decide) host journal
  refine ⟨journal', hstep.trans ?_⟩
  rw [execute, Machine.loop, bind_assoc, bind_of_done (h.fetchNat_eq hword journal'), bind_assoc,
    get_bind]
  dsimp only [movedTo]
  rw [if_neg (by omega)]
  rfl

/-- A case list jumps to the target of a case. -/
lemma About.jumpList (h : About m c ip .jumpList) (hword : c.code[ip + 1]? = some word)
    {target : UInt16} (htarget : c.cases[word.toNat]? = some target) :
    ContinuesAt m target.toNat := by
  intro host journal
  obtain ⟨journal', hstep⟩ := h.step_eq (by decide) host journal
  refine ⟨journal', hstep.trans ?_⟩
  obtain ⟨function, hget, rfl⟩ := h.function
  have hrunning : (m.movedTo (ip + 2)).heap.get? (m.movedTo (ip + 2)).frame.function =
      some function := hget
  rw [execute, Machine.jumpList, bind_assoc, bind_of_done (h.fetchNat_eq hword journal'), running,
    bind_assoc, bind_assoc, get_bind, Heap.read_of_get? hrunning, lift_ok, pure_bind, htarget]
  rfl

/-- The assembler and the machine agree on jumps. A forward jump that was patched for
the last time when the code had length `n` continues at `n`, a backward jump whose
distance was not patched continues at its start, and a case continues where the
code ended when it was added. Calls fail exactly if a distance, a target or an
index does not fit into a word, and a patch that fails changes nothing. -/
theorem jumps_arrive :
    (∀ {c₀ c₁ c₂ c₃ c : Chunk} {op : Opcode} {line position : Nat} {j₀ j₁ j₂ j₃ : Journal} {m : Machine},
      Chunk.emitJump op.toWord line c₀ j₀ = .done position c₁ j₁ → c₁.Built (fun _ => True) c₂ →
      Chunk.patchJump position c₂ j₂ = .done () c₃ j₃ → c₃.Built (· ≠ position) c →
      m.About c (position - 1) op → taken op ((m.stack.peek? 0).getD .null) = true →
      m.ContinuesAt c₂.code.size) ∧
    (∀ {c₀ c₁ c : Chunk} {start line : Nat} {j₀ j₁ : Journal} {m : Machine},
      start ≤ c₀.code.size → Chunk.emitLoop start line c₀ j₀ = .done () c₁ j₁ →
      c₁.Built (· ≠ c₀.code.size + 1) c → m.About c c₀.code.size .loop → m.ContinuesAt start) ∧
    (∀ {c₀ c₁ c : Chunk} {index : UInt16} {ip : Nat} {j₀ j₁ : Journal} {m : Machine},
      Chunk.addCase c₀ j₀ = .done index c₁ j₁ → c₁.Built (fun _ => True) c →
      m.About c ip .jumpList → c.code[ip + 1]? = some index → m.ContinuesAt c₀.code.size) ∧
    (∀ position (c : Chunk) j,
      (Chunk.Fails (Chunk.patchJump position c j) ↔ 65535 < c.code.size - (position + 1)) ∧
      (position < c.code.size → c.code.size - (position + 1) ≤ 65535 →
        ∃ c', Chunk.patchJump position c j = .done () c' j) ∧
      ∀ error c' j', Chunk.patchJump position c j = .raised error c' j' → c' = c) ∧
    (∀ start line (c : Chunk) j,
      (Chunk.Fails (Chunk.emitLoop start line c j) ↔ 65535 < c.code.size + 2 - start) ∧
      (start ≤ c.code.size → c.code.size + 2 - start ≤ 65535 →
        ∃ c', Chunk.emitLoop start line c j = .done () c' j)) ∧
    ∀ (c : Chunk) j,
      (Chunk.Fails (Chunk.addCase c j) ↔ 65535 < c.code.size ∨ 65535 < c.cases.size) ∧
      (c.code.size ≤ 65535 → c.cases.size ≤ 65535 →
        ∃ c', Chunk.addCase c j = .done (.ofNat c.cases.size) c' j) := by
  refine ⟨?_, ?_, ?_, Chunk.patchJump_fails, Chunk.emitLoop_fails, Chunk.addCase_fails⟩
  -- the patched word survives all building but patches of its own position
  · intro c₀ c₁ c₂ c₃ c op line position j₀ j₁ j₂ j₃ m hemit _ hpatch hbuilt habout htaken
    obtain rfl := Chunk.position_of_emitJump hemit
    obtain ⟨word, hword, hdistance⟩ := Chunk.word_of_patchJump hpatch
    rw [Nat.add_sub_cancel] at habout
    have hcontinues := habout.jump (hbuilt.grown.words _ _ (fun h => h rfl) hword) htaken
    rwa [show c₀.code.size + 2 + word.toNat = c₂.code.size by omega] at hcontinues
  · intro c₀ c₁ c start line j₀ j₁ m hstart hemit hbuilt habout
    obtain ⟨word, hword, hdistance⟩ := Chunk.word_of_emitLoop hemit
    have hcontinues := habout.loop (hbuilt.grown.words _ _ (fun h => h rfl) hword) (by omega)
    rwa [show c₀.code.size + 2 - word.toNat = start by omega] at hcontinues
  · intro c₀ c₁ c index ip j₀ j₁ m hadd hbuilt habout hindex
    obtain ⟨target, htarget, hlength⟩ := Chunk.case_of_addCase hadd
    exact hlength ▸ habout.jumpList hindex (hbuilt.grown.cases _ _ htarget)

/-- A new machine at the beginning of the given code, if it can be made. -/
def atCode? (c : Chunk) : Option Machine :=
  (bare ⟨4096, 65536, 2, 8, .normal⟩ fun _ => true).toOption.bind fun m =>
    match onHeap (Heap.alloc .function ⟨"", 0, 0, c⟩) m .silent with
    | .done function m _ => some { m with frame := ⟨.dangling, function, 0, 0⟩ }
    | _ => none

lemma exists_about (c : Chunk) (op : Opcode)
    (hmade : ((atCode? c).map fun m => decide
      ((m.heap.get? m.frame.function).map Function.chunk = some c ∧ m.frame.ip = 0 ∧
        m.stack = .empty)) = some true)
    (hword : c.code[0]? = some op.toWord) : ∃ m : Machine, m.About c 0 op ∧ m.stack = .empty := by
  obtain ⟨m, -, hm⟩ := Option.map_eq_some_iff.mp hmade
  obtain ⟨hfunction, hip, hstack⟩ := of_decide_eq_true hm
  obtain ⟨function, hget, hchunk⟩ := Option.map_eq_some_iff.mp hfunction
  exact ⟨m, ⟨⟨function, hget, hchunk⟩, hip, hword⟩, hstack⟩

/-- Code from one line. -/
def codeOf (words : List UInt16) : Chunk := ⟨words.toArray, ⟨#[⟨1, words.length⟩]⟩, #[], .empty⟩

/-- A loop that is left if the top value is false. -/
theorem jumps_arrive_while : ∃ (c₁ c₂ c : Chunk) (m : Machine),
    Chunk.emitJump Opcode.jumpIfFalse.toWord 1 .empty .silent = .done 1 c₁ .silent ∧
    c₁.Built (fun _ => True) c₂ ∧ Chunk.patchJump 1 c₂ .silent = .done () c .silent ∧
    c = codeOf [Opcode.jumpIfFalse.toWord, 3, Opcode.pop.toWord, Opcode.loop.toWord, 5] ∧
    m.About c 0 .jumpIfFalse ∧ m.ContinuesAt 5 := by
  let front : List UInt16 := [Opcode.jumpIfFalse.toWord, 65535]
  have hjump : Chunk.emitJump Opcode.jumpIfFalse.toWord 1 .empty .silent =
      .done 1 (codeOf front) .silent := rfl
  have hpop : Chunk.write Opcode.pop.toWord 1 (codeOf front) .silent =
      .done () (codeOf (front ++ [Opcode.pop.toWord])) .silent := rfl
  have hloop : Chunk.emitLoop 0 1 (codeOf (front ++ [Opcode.pop.toWord])) .silent =
      .done () (codeOf (front ++ [Opcode.pop.toWord, Opcode.loop.toWord, 5])) .silent := rfl
  have hpatch : Chunk.patchJump 1
        (codeOf (front ++ [Opcode.pop.toWord, Opcode.loop.toWord, 5])) .silent =
      .done () (codeOf [Opcode.jumpIfFalse.toWord, 3, Opcode.pop.toWord, Opcode.loop.toWord, 5])
        .silent := rfl
  have hbuilt : (codeOf front).Built (fun _ => True) _ :=
    .call (.call .start (.write Opcode.pop.toWord 1) hpop) (.emitLoop 0 1) hloop
  obtain ⟨m, habout, hstack⟩ := exists_about
    (codeOf [Opcode.jumpIfFalse.toWord, 3, Opcode.pop.toWord, Opcode.loop.toWord, 5]) .jumpIfFalse
    (by decide +kernel) rfl
  refine ⟨_, _, _, m, hjump, hbuilt, hpatch, rfl, habout, ?_⟩
  exact jumps_arrive.1 hjump hbuilt hpatch .start habout (by rw [hstack]; rfl)

/-- A backward jump goes astray if its distance is patched as if it were that of a
forward jump. -/
theorem loop_patched_astray : ∃ (c₁ c : Chunk) (m : Machine),
    Chunk.emitLoop 0 1 .empty .silent = .done () c₁ .silent ∧ c₁.Built (fun _ => True) c ∧
    m.About c 0 .loop ∧ ¬ m.ContinuesAt 0 := by
  have hloop : Chunk.emitLoop 0 1 .empty .silent =
      .done () (codeOf [Opcode.loop.toWord, 2]) .silent := rfl
  have hpatch : Chunk.patchJump 1 (codeOf [Opcode.loop.toWord, 2]) .silent =
      .done () (codeOf [Opcode.loop.toWord, 0]) .silent := rfl
  obtain ⟨m, habout, -⟩ := exists_about (codeOf [Opcode.loop.toWord, 0]) .loop (by decide +kernel) rfl
  refine ⟨_, _, m, hloop, .call .start (.patchJump 1 trivial) hpatch, habout, fun hcontinues => ?_⟩
  have hword : (codeOf [Opcode.loop.toWord, 0]).code[1]? = some 0 := rfl
  have helsewhere : m.ContinuesAt 2 := habout.loop hword (by decide)
  obtain ⟨journal, hstep⟩ := hcontinues ⟨⟨0⟩, fun _ _ => pure .null⟩ .silent
  obtain ⟨journal', hstep'⟩ := helsewhere ⟨⟨0⟩, fun _ _ => pure .null⟩ .silent
  rw [hstep, Outcome.done.injEq] at hstep'
  exact absurd (congrArg (·.frame.ip) hstep'.2.1) (by decide : (0 : Nat) ≠ 2)

end Machine

end ScriptMachine
