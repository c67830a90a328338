import ScriptMachine.Proofs.Machine.Jumps

/-!
The source lines of a chunk.

The runs of `Lines` stand for a list with one line for each word, and finding a line in the
runs is looking it up in that list. Every call that builds a chunk adds its line once for
each word that it adds, also if it fails half way.

* `Lines.get?_eq`, `Lines.toList_push`: runs, read as a list;
* `Lines.Narrow`: what a run counts fits into a byte;
* `Lengthened`: the words that a call adds are from its line;
* `Listing`: the lines that were passed, word by word;
* `Listing.line?_eq_some`: these are the lines that are found again.
-/

namespace ScriptMachine

open ScriptMachine.Action

namespace Code

/-! ### Runs as a list -/

namespace Lines

variable {lines : Lines} {line : Nat}

/-- The line of every word that the runs stand for. -/
def expand (runs : List Run) : List Nat := runs.flatMap fun run => List.replicate run.count run.line

/-- The line of every word. -/
def toList (lines : Lines) : List Nat := expand lines.runs.toList

/-- Every run has a word, and at most as many as a run may have. -/
def Narrow (lines : Lines) : Prop := ∀ run ∈ lines.runs, 0 < run.count ∧ run.count ≤ longestRun

lemma expand_append (runs runs' : List Run) :
    expand (runs ++ runs') = expand runs ++ expand runs' :=
  List.flatMap_append

lemma expand_singleton (run : Run) : expand [run] = List.replicate run.count run.line :=
  List.flatMap_singleton _ _

/-- The search skips a run that ends before the word. -/
lemma find?_eq (runs : List Run) (position : Nat) :
    find? runs position = (expand runs)[position]? := by
  induction runs generalizing position with
  | nil => rfl
  | cons run runs ih =>
      rw [find?, expand, List.flatMap_cons]
      split
      · rw [List.getElem?_append_left (by rwa [List.length_replicate]),
          List.getElem?_replicate_of_lt ‹_›]
      · rw [List.getElem?_append_right (by rw [List.length_replicate]; omega),
          List.length_replicate, ih]
        rfl

lemma get?_eq (lines : Lines) (position : Nat) : lines.get? position = lines.toList[position]? :=
  find?_eq _ position

/-- A word either makes the last run longer or starts a new one. -/
lemma push_cases (lines : Lines) (line : Nat) :
    (∃ (runs : Array Run) (count : Nat), lines.runs = runs.push ⟨line, count⟩ ∧ count < longestRun ∧
      lines.push line = ⟨runs.push ⟨line, count + 1⟩⟩) ∨
    lines.push line = ⟨lines.runs.push ⟨line, 1⟩⟩ := by
  unfold push
  split
  · rename_i run hback
    split
    · rename_i hsame
      obtain ⟨rfl, hroom⟩ := hsame
      obtain ⟨runs, hruns⟩ := Array.back?_eq_some_iff.mp hback
      exact .inl ⟨runs, run.count, hruns, hroom, by rw [hruns, Array.pop_push]⟩
    · exact .inr rfl
  · exact .inr rfl

lemma toList_push (lines : Lines) (line : Nat) :
    (lines.push line).toList = lines.toList ++ [line] := by
  rcases push_cases lines line with ⟨runs, count, hruns, -, hpush⟩ | hpush
  · rw [hpush, toList, toList, hruns, Array.toList_push, Array.toList_push, expand_append,
      expand_append, expand_singleton, expand_singleton, List.replicate_succ', List.append_assoc]
  · rw [hpush, toList, Array.toList_push, expand_append, expand_singleton]
    rfl

lemma Narrow.push (h : lines.Narrow) (line : Nat) : (lines.push line).Narrow := by
  intro run hrun
  rcases push_cases lines line with ⟨runs, count, hruns, hroom, hpush⟩ | hpush
  · rw [hpush] at hrun
    rcases Array.mem_push.mp hrun with hrun | rfl
    · exact h run (hruns ▸ Array.mem_push_of_mem _ hrun)
    · exact ⟨Nat.succ_pos count, hroom⟩
  · rw [hpush] at hrun
    rcases Array.mem_push.mp hrun with hrun | rfl
    · exact h run hrun
    · exact ⟨Nat.one_pos, Nat.le_of_ble_eq_true rfl⟩

end Lines

/-! ### What the calls add -/

namespace Chunk

variable {line : Nat} {lines : List Nat} {c c' : Chunk} {journal : Journal}

/-- A chunk got some more words, all from one line, and its runs are as long as before or
count one more word. -/
structure Lengthened (line : Nat) (c c' : Chunk) : Prop where
  words : ∃ added, c'.code.size = c.code.size + added ∧
    c'.lines.toList = c.lines.toList ++ List.replicate added line
  narrow : c.lines.Narrow → c'.lines.Narrow

instance : IsPreorder Chunk (Lengthened line) where
  refl _ := ⟨⟨0, rfl, (List.append_nil _).symm⟩, id⟩
  trans _ _ _ h h' := by
    obtain ⟨added, hsize, hlines⟩ := h.words
    obtain ⟨added', hsize', hlines'⟩ := h'.words
    refine ⟨⟨added + added', by omega, ?_⟩, h'.narrow ∘ h.narrow⟩
    rw [hlines', hlines, List.append_assoc, List.replicate_append_replicate]

/-- Only words have lines. -/
lemma lengthened_of_eq (hsize : c'.code.size = c.code.size) (hlines : c'.lines = c.lines) :
    Lengthened line c c' :=
  ⟨⟨0, hsize, by rw [hlines, List.replicate_zero, List.append_nil]⟩, hlines ▸ id⟩

lemma lengthened_append (c : Chunk) (word : UInt16) (line : Nat) :
    Lengthened line c (c.append word line) :=
  ⟨⟨1, Array.size_push _, Lines.toList_push _ _⟩, fun h => h.push line⟩

lemma lengthens_write (word : UInt16) (line : Nat) : (write word line).Within (Lengthened line) :=
  within_modify fun c => lengthened_append c word line

lemma lengthens_writeConstant (value : Value) : (writeConstant value).Within (Lengthened line) := by
  refine Within.bind (within_modifyGet fun c => ?_) fun index =>
    .ite (within_pure _) (within_raise _)
  split <;> exact lengthened_of_eq rfl rfl

lemma lengthens_patchJump (position : Nat) : (patchJump position).Within (Lengthened line) := by
  intro c journal
  rw [patchJump_apply]
  split
  · trivial
  · split
    · exact refl_of (Lengthened line) c
    · exact lengthened_of_eq Array.size_setIfInBounds rfl

/-- A loop that is too long has its first word. -/
lemma lengthens_emitLoop (start line : Nat) : (emitLoop start line).Within (Lengthened line) := by
  intro c journal
  rw [emitLoop_apply]
  split
  · trivial
  · split
    · exact lengthened_append c _ line
    · exact trans_of (Lengthened line) (lengthened_append c _ line) (lengthened_append _ _ line)

lemma lengthens_addCase : addCase.Within (Lengthened line) := by
  intro c journal
  rw [addCase_apply]
  split
  · exact refl_of (Lengthened line) c
  · dsimp only
    split <;> exact lengthened_of_eq rfl rfl

/-- The calls that build a chunk, with the line that they are passed. Those that write no
words are passed none. -/
inductive CallAt (line : Nat) : {α : Type} → Action Chunk α → Prop
  | write (word : UInt16) : CallAt line (write word line)
  | emitConstant (value : Value) : CallAt line (emitConstant value line)
  | emitJump (op : UInt16) : CallAt line (emitJump op line)
  | emitLoop (start : Nat) : CallAt line (emitLoop start line)
  | patchJump (position : Nat) : CallAt line (patchJump position)
  | writeConstant (value : Value) : CallAt line (writeConstant value)
  | addCase : CallAt line addCase

lemma CallAt.within {α : Type} {action : Action Chunk α} (hcall : CallAt line action) :
    action.Within (Lengthened line) := by
  cases hcall with
  | write word => exact lengthens_write word line
  | emitConstant value =>
      exact (lengthens_writeConstant value).bind fun _ => (lengthens_write _ _).bind fun _ =>
        lengthens_write _ _
  | emitJump op =>
      exact (lengthens_write _ _).bind fun _ => (lengthens_write _ _).bind fun _ =>
        within_get.bind fun _ => within_pure _
  | emitLoop start => exact lengthens_emitLoop start line
  | patchJump position => exact lengthens_patchJump position
  | writeConstant value => exact lengthens_writeConstant value
  | addCase => exact lengthens_addCase

/-! ### Finding the lines again -/

/-- A chunk after some calls, of which any may have failed, with the line that was passed
when each of its words was written. -/
inductive Listing : List Nat → Chunk → Prop
  | empty : Listing [] .empty
  | call {lines : List Nat} {line : Nat} {c c' : Chunk} {α : Type} {action : Action Chunk α}
      {journal : Journal} (past : Listing lines c) (call : CallAt line action)
      (left : (action c journal).state? = some c') :
      Listing (lines ++ List.replicate (c'.code.size - c.code.size) line) c'

/-- The runs stand for the lines that were passed. -/
lemma Listing.stands (h : Listing lines c) :
    c.lines.toList = lines ∧ lines.length = c.code.size ∧ c.lines.Narrow := by
  induction h with
  | empty => exact ⟨rfl, rfl, fun run hrun => absurd hrun (Array.not_mem_empty run)⟩
  | call past call left ih =>
      obtain ⟨hlines, hlength, hnarrow⟩ := ih
      have hlong := call.within.of_state? left
      obtain ⟨added, hsize, hadded⟩ := hlong.words
      rw [hsize, Nat.add_sub_cancel_left, List.length_append, List.length_replicate, hlength]
      exact ⟨by rw [hadded, hlines], rfl, hlong.narrow hnarrow⟩

/-- The line that is found for a word is the one that was passed when the word was written,
whichever calls built the chunk, and behind the code there is none. No run counts beyond a
byte on the way. -/
theorem Listing.line?_eq_some (h : Listing lines c) :
    (∀ ip < c.code.size, ∃ line, lines[ip]? = some line ∧ c.line? ip = some line) ∧
    (∀ ip, c.code.size ≤ ip → c.line? ip = none) ∧
    ∀ run ∈ c.lines.runs, run.count ≤ 255 := by
  obtain ⟨rfl, hlength, hnarrow⟩ := h.stands
  refine ⟨fun ip hip => ?_, fun ip hip => ?_, fun run hrun => (hnarrow run hrun).2⟩
  · have hsome := List.getElem?_eq_getElem (hlength ▸ hip)
    exact ⟨_, hsome, (Lines.get?_eq _ _).trans hsome⟩
  · rw [line?, Lines.get?_eq, List.getElem?_eq_none (hlength ▸ hip)]

/-- A chunk after a word was written often. -/
lemma exists_listing (word : UInt16) (line count : Nat) :
    ∃ c, Listing (List.replicate count line) c ∧ c.code.size = count := by
  induction count with
  | zero => exact ⟨.empty, .empty, rfl⟩
  | succ count ih =>
      obtain ⟨c, hlisting, hsize⟩ := ih
      have hsize' : (c.append word line).code.size = count + 1 := by
        rw [append, Array.size_push, hsize]
      have hwrite : (write word line c .silent).state? = some (c.append word line) := rfl
      have hnext := hlisting.call (.write word) hwrite
      rw [hsize', hsize, Nat.add_sub_cancel_left, ← List.replicate_add] at hnext
      exact ⟨_, hnext, hsize'⟩

/-- A loop that is too long fails behind its first word, whose line is found. -/
theorem Listing.line?_eq_some_long_loop : ∃ c c' : Chunk,
    Listing (List.replicate 65535 7) c ∧
    emitLoop 0 9 c .silent = .raised .jumpTooLarge c' .silent ∧
    c'.line? 65534 = some 7 ∧ c'.line? 65535 = some 9 ∧ c'.line? 65536 = none := by
  obtain ⟨c, hlisting, hsize⟩ := exists_listing 0 7 65535
  have hraised : emitLoop 0 9 c .silent =
      .raised .jumpTooLarge (c.append Opcode.loop.toWord 9) .silent := by
    rw [emitLoop_apply, hsize, if_neg (by decide), if_pos (by decide)]
  have hleft : (emitLoop 0 9 c .silent).state? = some (c.append Opcode.loop.toWord 9) := by
    rw [hraised]
    rfl
  have hsize' : (c.append Opcode.loop.toWord 9).code.size = 65536 := by
    rw [append, Array.size_push, hsize]
  have hlong := hlisting.call (.emitLoop 0) hleft
  rw [hsize', hsize] at hlong
  obtain ⟨hsome, hnone, -⟩ := hlong.line?_eq_some
  rw [hsize'] at hsome hnone
  refine ⟨c, _, hlisting, hraised, ?_, ?_, hnone 65536 (Nat.le_refl _)⟩
  · obtain ⟨line, hline, hfound⟩ := hsome 65534 (by decide)
    rw [List.getElem?_append_left (by rw [List.length_replicate]; decide),
      List.getElem?_replicate_of_lt (by decide)] at hline
    exact hfound.trans hline.symm
  · obtain ⟨line, hline, hfound⟩ := hsome 65535 (by decide)
    rw [List.getElem?_append_right (by rw [List.length_replicate]), List.length_replicate,
      List.getElem?_replicate_of_lt (by decide)] at hline
    exact hfound.trans hline.symm

end Chunk

end Code

end ScriptMachine
