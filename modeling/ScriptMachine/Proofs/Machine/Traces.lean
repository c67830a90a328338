import ScriptMachine.Proofs.Code.Lines
import ScriptMachine.Proofs.Machine.Failures
import ScriptMachine.Proofs.Machine.Positions

/-!
What the trace of an error says.

A call in progress waits behind the instruction that made it, so the word in front of its
position is the last operand of that instruction. The call that raised the error stands
behind the last word that it fetched. What calls run is there as long as they are, so every
call has a line in the trace.

* `Recorded`: the source line of a code word;
* `Suspended`: the call that a frame waits for;
* `Standing`: the calls in progress at some moment of a run;
* `Reachable.trace_of_failed`: the lines of a trace.
-/

namespace ScriptMachine.Machine

open ScriptMachine.Action
open ScriptMachine.Code (Chunk)

variable {host : Host} {m m₁ m₂ caller : Machine} {journal journal₁ journal₂ : Journal}
  {count : Nat} {op : Opcode} {f : Function} {frame : Frame} {frames : List Frame}

/-! ### Lines of a trace -/

/-- The line of a trace for a function, at a source line. -/
def entry (f : Function) (line : Nat) : String :=
  s!"[line {line}] in " ++ if f.name.isEmpty then "script" else f.name ++ "()"

/-- The source line that a trace shows for a code word. If the code was written word by word, it is
the line that came with the word. -/
structure Recorded (f : Function) (position line : Nat) : Prop where
  shown : line = (f.chunk.line? position).getD 0
  passed : ∀ lines, Chunk.Listing lines f.chunk → lines[position]? = some line

lemma recorded_of_word {position : Nat} (hword : (f.chunk.code[position]?).isSome) :
    Recorded f position ((f.chunk.line? position).getD 0) := by
  refine ⟨rfl, fun lines hlisting => ?_⟩
  obtain ⟨hlines, hlength, -⟩ := hlisting.stands
  have hlt : position < lines.length := by
    obtain ⟨word, hword⟩ := Option.isSome_iff_exists.mp hword
    rw [hlength]
    exact (Array.getElem?_eq_some_iff.mp hword).1
  rw [Chunk.line?, Code.Lines.get?_eq, hlines, List.getElem?_eq_getElem hlt]
  rfl

/-- A frame has a line in the trace, for the word in front of its position. -/
lemma traceLine?_of_runs {h : Heap} (hr : frame.Runs h f) (position : Nat)
    (hip : frame.ip = position + 1) :
    traceLine? h frame = some (entry f ((f.chunk.line? position).getD 0)) := by
  rw [traceLine?, hr.function, hip]
  rfl

/-! ### Calls in progress -/

/-- After so many steps a run has come to a machine. -/
def ComesTo (host : Host) (m : Machine) (journal : Journal) (count : Nat) (m₁ : Machine) : Prop :=
  ∃ journal₁, runFor host count m journal = .done .running m₁ journal₁

/-- The first of some frames waits for a call. An instruction of the function `f` made the call
when the run had come to `caller`, and since then it has not returned. -/
structure Suspended (host : Host) (m : Machine) (journal : Journal) (count : Nat) (caller : Machine)
    (op : Opcode) (f : Function) (frames : List Frame) : Prop where
  calls : op = .call ∨ op = .invoke
  next : caller.nextOpcode? = some op
  function : caller.heap.get? caller.frame.function = some f
  operand : (f.chunk.code[caller.frame.ip + callWords op - 1]?).isSome
  frames_eq : frames = { caller.frame with ip := caller.frame.ip + callWords op } :: caller.frames
  since : ∃ made < count, ComesTo host m journal made caller ∧
    ∀ i, made < i → i ≤ count → ∀ m₁, ComesTo host m journal i m₁ → frames <:+ m₁.frames

lemma ComesTo.unique (h : ComesTo host m journal count m₁) (h' : ComesTo host m journal count m₂) :
    m₁ = m₂ := by
  obtain ⟨journal₁, h⟩ := h
  obtain ⟨journal₂, h'⟩ := h'
  cases h.symm.trans h'
  rfl

/-- The call is still in progress after one more step. -/
lemma Suspended.later (h : Suspended host m journal count caller op f frames)
    (hcomes : ComesTo host m journal (count + 1) m₁) (hframes : frames <:+ m₁.frames) :
    Suspended host m journal (count + 1) caller op f frames := by
  obtain ⟨made, hlt, hmade, hsince⟩ := h.since
  refine { h with since := ⟨made, Nat.lt_succ_of_lt hlt, hmade, fun i hi hle m₂ hcomes₂ => ?_⟩ }
  rcases Nat.le_succ_iff.mp hle with hle | rfl
  · exact hsince i hi hle m₂ hcomes₂
  · rwa [← hcomes.unique hcomes₂]

/-- What is known of the calls in progress when a run has come to a machine. -/
structure Standing (host : Host) (m : Machine) (journal : Journal) (count : Nat) (m₁ : Machine) :
    Prop where
  sound : m₁.heap.Sound
  idle : m₁.heap.Idle
  few : m₁.frames.length ≤ mostFrames
  runs : ∃ f, m₁.frame.Runs m₁.heap f
  waits : ∀ frame frames, frame :: frames <:+ m₁.frames → ∃ caller op f,
    Suspended host m journal count caller op f (frame :: frames) ∧ frame.Runs m₁.heap f

lemma mem_closures_of_suffix (h : frame :: frames <:+ m.frames) : frame.closure ∈ m.closures :=
  .tail _ (List.mem_map_of_mem (h.mem (.head _)))

/-- Calls that are still in progress after a step wait as before. -/
lemma Standing.still_waits (h : Standing host m journal count m₁) (ha : Anchored m₁ m₂)
    (hcomes : ComesTo host m journal (count + 1) m₂) (hbefore : frame :: frames <:+ m₁.frames)
    (hafter : frame :: frames <:+ m₂.frames) : ∃ caller op f,
      Suspended host m journal (count + 1) caller op f (frame :: frames) ∧
        frame.Runs m₂.heap f := by
  obtain ⟨caller, op, f, hsuspended, hr⟩ := h.waits frame frames hbefore
  exact ⟨caller, op, f, hsuspended.later hcomes hafter,
    ha.runs frame (mem_closures_of_suffix hbefore) f hr⟩

/-- A call that is made waits behind its instruction. -/
lemma Standing.waits_behind (h : Standing host m journal count m₁) (ha : Anchored m₁ m₂)
    (hcomes₁ : ComesTo host m journal count m₁) (hcomes : ComesTo host m journal (count + 1) m₂)
    (hop : m₁.nextOpcode? = some op) (henters : Enters op m₁ m₂) : ∃ f,
      Suspended host m journal (count + 1) m₁ op f m₂.frames ∧
      Frame.Runs m₂.heap { m₁.frame with ip := m₁.frame.ip + callWords op } f := by
  obtain ⟨f, hr⟩ := h.runs
  obtain ⟨word, hword, -⟩ := henters.base
  rw [wordAt?, hr.function, Option.bind_some] at hword
  refine ⟨f, ⟨henters.calls, hop, hr.function, ?_, henters.frames, count, Nat.lt_succ_self _,
    hcomes₁, fun i hi hle m₃ hcomes₃ => ?_⟩, ?_⟩
  · rw [hword]
    rfl
  · obtain rfl : i = count + 1 := by omega
    rw [hcomes.unique hcomes₃]
  · exact (ha.runs _ (.head _) f hr).moved _

/-- One step of a run. -/
lemma Standing.step (hhost : host.Sparing) (h : Standing host m journal count m₁)
    (hcomes₁ : ComesTo host m journal count m₁) (hcomes : ComesTo host m journal (count + 1) m₂)
    (hstep : step host m₁ journal₁ = .done .running m₂ journal₂) :
    Standing host m journal (count + 1) m₂ := by
  have ha := (anchors_step hhost m₁ journal₁).of_done hstep h.sound h.idle
  have hways := (step_ways m₁ journal₁).of_done hstep
  cases hways with
  | stays hstays =>
      obtain ⟨f, hr⟩ := h.runs
      have habides : Abides m₁ m₂ := ⟨hstays.toSameCalls, fun _ _ => ha⟩
      refine ⟨ha.sound, ha.idle, hstays.frames ▸ h.few, ⟨f, habides.runs h.sound h.idle hr⟩,
        fun frame frames hsuffix => h.still_waits ha hcomes ?_ hsuffix⟩
      rwa [← hstays.frames]
  | enters op hop henters =>
      obtain ⟨hroom, hruns⟩ := ha.entered (by rw [henters.frames]; exact Nat.lt_succ_self _)
      refine ⟨ha.sound, ha.idle, ?_, hruns, fun frame frames hsuffix => ?_⟩
      · rw [henters.frames]
        exact Nat.lt_of_le_of_ne h.few hroom
      · -- The frame that called is on top, and those below it wait as before.
        obtain ⟨f, hsuspended, hr⟩ := h.waits_behind ha hcomes₁ hcomes hop henters
        have hcases := hsuffix
        rw [henters.frames, List.suffix_cons_iff] at hcases
        rcases hcases with heq | hbefore
        · rw [← henters.frames] at heq
          refine ⟨m₁, op, f, heq ▸ hsuspended, ?_⟩
          rw [henters.frames] at heq
          cases heq
          exact hr
        · exact h.still_waits ha hcomes hbefore hsuffix
  | returns hop hreturns =>
      -- What the running frame runs is known since it waited.
      have hbelow : m₂.frame :: m₂.frames <:+ m₁.frames := hreturns.frames ▸ List.suffix_rfl
      obtain ⟨_, _, f, -, hr⟩ := h.waits _ _ hbelow
      refine ⟨ha.sound, ha.idle, ?_, ⟨f, ha.runs _ (mem_closures_of_suffix hbelow) f hr⟩,
        fun frame frames hsuffix => h.still_waits ha hcomes ?_ hsuffix⟩
      · have hfew := h.few
        rw [hreturns.frames] at hfew
        exact Nat.le_of_succ_le hfew
      · exact hsuffix.trans ((List.suffix_cons _ _).trans hbelow)

/-- The last step of a run. -/
lemma runFor_succ (hrun : runFor host (count + 1) m journal = .done .running m₂ journal₂) :
    ∃ m₁ journal₁, runFor host count m journal = .done .running m₁ journal₁ ∧
      step host m₁ journal₁ = .done .running m₂ journal₂ := by
  induction count generalizing m journal with
  | zero =>
      rw [runFor] at hrun
      refine ⟨m, journal, rfl, ?_⟩
      split at hrun
      · rename_i hstep
        cases hrun
        exact hstep
      · exact hrun
  | succ count ih =>
      rw [runFor] at hrun
      split at hrun
      · rename_i m₁ journal₁ hstep
        obtain ⟨m₃, journal₃, hcount, hlast⟩ := ih hrun
        refine ⟨m₃, journal₃, ?_, hlast⟩
        rw [runFor, hstep]
        exact hcount
      · rename_i hother
        exact absurd hrun (hother _ _)

/-- At every moment of a run. -/
lemma Standing.runFor (hhost : host.Sparing) (h : Standing host m journal 0 m)
    (hrun : runFor host count m journal = .done .running m₁ journal₁) :
    Standing host m journal count m₁ := by
  induction count generalizing m₁ journal₁ with
  | zero =>
      cases hrun
      exact h
  | succ count ih =>
      obtain ⟨m₂, journal₂, hcount, hstep⟩ := runFor_succ hrun
      exact (ih hcount).step hhost ⟨_, hcount⟩ ⟨_, hrun⟩ hstep

/-! ### Errors -/

/-- The line of a call that waits. -/
lemma Standing.entry_eq (h : Standing host m journal count m₁) (ha : Anchored m₁ m₂)
    (hsuffix : frame :: frames <:+ m₁.frames) : ∃ caller op f line,
      Suspended host m journal count caller op f (frame :: frames) ∧
      Recorded f (caller.frame.ip + callWords op - 1) line ∧
      traceLine? m₂.heap frame = some (entry f line) := by
  obtain ⟨caller, op, f, hsuspended, hr⟩ := h.waits frame frames hsuffix
  have hr₂ := ha.runs frame (mem_closures_of_suffix hsuffix) f hr
  obtain ⟨rfl, -⟩ := List.cons.inj hsuspended.frames_eq
  refine ⟨caller, op, f, _, hsuspended, recorded_of_word hsuspended.operand,
    traceLine?_of_runs hr₂ _ ?_⟩
  rcases hsuspended.calls with rfl | rfl <;> rfl

/-- The lines of all calls that wait. -/
lemma Standing.lines (h : Standing host m journal count m₁) (ha : Anchored m₁ m₂) :
    (m₁.frames.filterMap (traceLine? m₂.heap)).length = m₁.frames.length ∧
    ∀ k text, (m₁.frames.filterMap (traceLine? m₂.heap))[k]? = some text → ∃ caller op f line,
      Suspended host m journal count caller op f (m₁.frames.drop k) ∧
      Recorded f (caller.frame.ip + callWords op - 1) line ∧ text = entry f line := by
  have hall : ∀ frame ∈ m₁.frames, traceLine? m₂.heap frame =
      some ((traceLine? m₂.heap frame).getD "") := by
    intro frame hmem
    obtain ⟨before, after, hframes⟩ := List.append_of_mem hmem
    obtain ⟨_, _, f, line, -, -, hline⟩ := h.entry_eq ha (hframes ▸ List.suffix_append before _)
    rw [hline]
    rfl
  rw [List.filterMap_eq_map_iff_forall_eq_some.mpr hall]
  refine ⟨List.length_map _, fun k text htext => ?_⟩
  rw [List.getElem?_map] at htext
  obtain ⟨frame, hframe, rfl⟩ := Option.map_eq_some_iff.mp htext
  obtain ⟨hlt, rfl⟩ := List.getElem?_eq_some_iff.mp hframe
  have hdrop := List.drop_eq_getElem_cons hlt
  obtain ⟨caller, op, f, line, hsuspended, hrecorded, hline⟩ :=
    h.entry_eq ha (hdrop ▸ List.drop_suffix k m₁.frames)
  rw [hdrop, hline]
  exact ⟨caller, op, f, line, hsuspended, hrecorded, rfl⟩

/-- The words of an instruction that raises an error are at least one. -/
lemma Extent.pos {words : Nat} (h : Extent f m op words) : 0 < words := by
  cases h <;> omega

/-- The line of the instruction that raises the error. -/
lemma Standing.first_line {error : Error} (h : Standing host m journal count m₁)
    (ha : Anchored m₁ m₂) (hstep : Machine.step host m₁ journal₁ = .raised error m₂ journal₂) :
    ∃ op words f line,
      m₁.nextOpcode? = some op ∧ m₁.heap.get? m₁.frame.function = some f ∧ Extent f m₁ op words ∧
      Recorded f (m₁.frame.ip + words - 1) line ∧
      m₂.trace = entry f line :: m₁.frames.filterMap (traceLine? m₂.heap) := by
  obtain ⟨f, hr⟩ := h.runs
  obtain ⟨op, words, hop, hextent, hadvanced⟩ :=
    (step_extent h.sound h.idle hr journal₁).of_raised hstep
  have hpos := hextent.pos
  have hword := hadvanced.words (words - 1) (by omega)
  rw [wordAt?, hr.function, Option.bind_some, ← Nat.add_sub_assoc hpos] at hword
  have hr₂ : m₂.frame.Runs m₂.heap f := by
    rw [hadvanced.frame]
    exact (ha.runs _ (.head _) f hr).moved _
  have hip : m₂.frame.ip = m₁.frame.ip + words - 1 + 1 := by
    rw [hadvanced.frame]
    exact (Nat.sub_add_cancel (Nat.le_trans hpos (Nat.le_add_left _ _))).symm
  refine ⟨op, words, f, _, hop, hr.function, hextent, recorded_of_word hword, ?_⟩
  rw [trace, hadvanced.frames, List.filterMap_cons, traceLine?_of_runs hr₂ _ hip]

/-- A script has just been started. -/
lemma standing_start (hs : m.heap.Sound) (hi : m.heap.Idle) (hframes : m.frames = [])
    (hruns : ∃ f, m.frame.Runs m.heap f) (journal : Journal) : Standing host m journal 0 m := by
  refine ⟨hs, hi, hframes ▸ Nat.zero_le _, hruns, fun frame frames hsuffix => ?_⟩
  rw [hframes] at hsuffix
  cases List.suffix_nil.mp hsuffix

/-- A machine whose function is not there can take no step. -/
lemma exists_function (hstep : (step host m journal).state? = some m₁) :
    ∃ f, m.heap.get? m.frame.function = some f := by
  cases hf : m.heap.get? m.frame.function with
  | some f => exact ⟨f, rfl⟩
  | none =>
      have hnext : m.nextOpcode? = none := by rw [nextOpcode?, hf, Option.bind_none]
      have hends : (step host m journal).Ends (fun _ _ => False) (fun _ _ => False)
          fun _ => True := by
        refine step_ends (fun hop => ?_) (fun op _ hop => ?_) journal
        all_goals cases hnext.symm.trans hop
      exact (hends.of_state? hstep).elim

/-- A run that raises an error begins with a step. -/
lemma exists_first_step {error : Error}
    (hrun : runFor host count m journal = .done .running m₁ journal₁)
    (hstep : step host m₁ journal₁ = .raised error m₂ journal₂) :
    ∃ m₃, (step host m journal).state? = some m₃ := by
  cases count with
  | zero =>
      cases hrun
      exact ⟨m₂, by rw [hstep]; rfl⟩
  | succ count =>
      rw [runFor] at hrun
      split at hrun
      · rename_i m₃ journal₃ hfirst
        exact ⟨m₃, by rw [hfirst]; rfl⟩
      · exact ⟨m₁, by rw [hrun]; rfl⟩

/-- A script is started with no calls in progress. -/
lemma started_of_ready (hr : m.Ready) {function : Ref .function}
    (hstart : (do reset; start function : Action Machine Unit) m journal = .done () m₁ journal₁) :
    m₁.heap.Sound ∧ m₁.heap.Idle ∧ m₁.frames = [] ∧
      ∀ f, m₁.heap.get? m₁.frame.function = some f → m₁.frame.Runs m₁.heap f := by
  obtain ⟨_, m₂, journal₂, hreset, hstart⟩ := exists_of_bind_done hstart
  have hleads : Leads (fun _ => True) m m₂ := (within_leads within_reset m journal).of_done hreset
  have hr₂ := hleads.ready hr
  obtain ⟨hs, hi, hframes, hruns⟩ :=
    (start_opens hr₂.sound hr₂.idle function journal₂).of_done hstart
  obtain ⟨_, m₃, journal₃, -, hlast⟩ := exists_of_bind_done hreset
  cases hlast
  exact ⟨hs, hi, hframes, hruns⟩

/-- The trace of a run that fails is that of the machine when the error was raised. -/
lemma trace_eq_of_failed {fuel : Nat} {function : Ref .function} {error : Error}
    {trace : List String} {journal' : Journal} {m' : Machine}
    (hstart : (do reset; start function : Action Machine Unit) m journal = .done () m₁ journal₁)
    (hrun : runFunction host fuel function m journal = .done (.failed error trace) m' journal') :
    ∃ m₂ journal₂, runFor host fuel m₁ journal₁ = .raised error m₂ journal₂ ∧ trace = m₂.trace := by
  obtain ⟨_, m₀, journal₀, hreset, hstart⟩ := exists_of_bind_done hstart
  obtain ⟨m₂, journal₂, -, hraised, -⟩ := runFunction_failed hreset hrun
  rw [runFunction_of_reset hreset, hraised] at hrun
  obtain ⟨_, _, _, -, hlast⟩ := exists_of_bind_done hrun
  cases hlast
  exact ⟨m₂, journal₂, (bind_of_done hstart).symm.trans hraised, rfl⟩

/-- If a run fails after its start, some instruction raised the error, and the trace has a line for
every call in progress, innermost first. The first line is for the last word that the instruction
fetched. Every other line is for the last operand of the instruction that made the call which this
function waits for. The functions of the host must leave upvalues, closures and functions alone. -/
theorem Reachable.trace_of_failed (hm : Reachable host m) (htame : host.Tame) (hhost : host.Sparing)
    {fuel : Nat} {function : Ref .function} {error : Error} {trace : List String}
    {journal' : Journal} {m' : Machine}
    (hstart : (do reset; start function : Action Machine Unit) m journal = .done () m₁ journal₁)
    (hrun : runFunction host fuel function m journal = .done (.failed error trace) m' journal') :
    ∃ count failing raised journal₂ journal₃ op words f line lines,
      runFor host count m₁ journal₁ = .done .running failing journal₂ ∧
      step host failing journal₂ = .raised error raised journal₃ ∧
      failing.nextOpcode? = some op ∧ failing.heap.get? failing.frame.function = some f ∧
      Extent f failing op words ∧ Recorded f (failing.frame.ip + words - 1) line ∧
      trace = entry f line :: lines ∧ lines.length = failing.frames.length ∧ lines.length ≤ 500 ∧
      ∀ k text, lines[k]? = some text → ∃ caller op f line,
        Suspended host m₁ journal₁ count caller op f (failing.frames.drop k) ∧
        Recorded f (caller.frame.ip + callWords op - 1) line ∧ text = entry f line := by
  obtain ⟨hs, hi, hframes, hlive⟩ := started_of_ready (hm.ready htame) hstart
  obtain ⟨raised, journal₃, hraised, rfl⟩ := trace_eq_of_failed hstart hrun
  obtain ⟨count, failing, journal₂, hcount, hstep⟩ := runFor_raised hraised
  obtain ⟨_, hfirst⟩ := exists_first_step hcount hstep
  obtain ⟨script, hscript⟩ := exists_function hfirst
  have hstanding := (standing_start hs hi hframes ⟨script, hlive script hscript⟩ journal₁).runFor
    hhost hcount
  have ha := (anchors_step hhost failing journal₂).of_raised hstep hstanding.sound hstanding.idle
  obtain ⟨op, words, f, line, hop, hf, hextent, hrecorded, htrace⟩ := hstanding.first_line ha hstep
  obtain ⟨hlength, hlines⟩ := hstanding.lines ha
  exact ⟨count, failing, raised, journal₂, journal₃, op, words, f, line, _, hcount, hstep, hop, hf,
    hextent, hrecorded, htrace, hlength, hlength ▸ hstanding.few, hlines⟩

/-- A script that calls a function on line 7, which divides by zero on line 3. -/
def dividing : Action Machine (Ref .function) := do
  let words := [Opcode.constant.toWord, 0, Opcode.constant.toWord, 1, Opcode.div.toWord]
  let divide ← onHeap (Heap.alloc .function ⟨"divide", 0, 0,
    ⟨words.toArray, ⟨#[⟨2, 4⟩, ⟨3, 1⟩]⟩, #[], .ofList [.scalar (.int 1), .scalar (.int 0)]⟩⟩)
  let words := [Opcode.closure.toWord, 0, Opcode.call.toWord, 0, Opcode.ret.toWord]
  onHeap (Heap.alloc .function ⟨"", 0, 0,
    ⟨words.toArray, ⟨#[⟨6, 3⟩, ⟨7, 1⟩, ⟨8, 1⟩]⟩, #[], .ofList [.function divide]⟩⟩)

/-- The operand of the call has a line of its own. -/
theorem Reachable.trace_of_failed_division : (Host.builtin ⟨0⟩).Tame ∧ (Host.builtin ⟨0⟩).Sparing ∧
    ∃ m, Reachable (.builtin ⟨0⟩) m ∧ ∃ function m₁ journal₁ m' journal',
      (do reset; start function : Action Machine Unit) m .silent = .done () m₁ journal₁ ∧
      runFunction (.builtin ⟨0⟩) 9 function m .silent = .done (.failed (.divideByZero "division")
        ["[line 3] in divide()", "[line 7] in script"]) m' journal' ∧
      ∃ count failing journal₂ f line caller op f' line',
        runFor (.builtin ⟨0⟩) count m₁ journal₁ = .done .running failing journal₂ ∧
        failing.heap.get? failing.frame.function = some f ∧ entry f line = "[line 3] in divide()" ∧
        Suspended (.builtin ⟨0⟩) m₁ journal₁ count caller op f' failing.frames ∧
        Recorded f' (caller.frame.ip + callWords op - 1) line' ∧
        entry f' line' = "[line 7] in script" := by
  have hdeeds : Deeds (.builtin ⟨0⟩) dividing :=
    .seq (loads_function _).deeds fun _ => (loads_function _).deeds
  obtain ⟨m, hm, hboth⟩ := exists_reachable
    (p := fun m =>
      ((do reset; start ⟨⟨9, 0⟩⟩ : Action Machine Unit) m .silent).done?.isSome ∧
      (runFunction (.builtin ⟨0⟩) 9 ⟨⟨9, 0⟩⟩ m .silent).done?.any fun r => decide (r.1 =
        .failed (.divideByZero "division") ["[line 3] in divide()", "[line 7] in script"]))
    hdeeds (by decide +kernel)
  obtain ⟨⟨_, m₁, journal₁⟩, hstart⟩ := Option.isSome_iff_exists.mp hboth.1
  obtain ⟨⟨ending, m', journal'⟩, hdone, hending⟩ := (Option.any_eq_true _ _).mp hboth.2
  obtain rfl := of_decide_eq_true hending
  have hstarted := Outcome.eq_of_done? hstart
  have hfailed := Outcome.eq_of_done? hdone
  have htame := Host.builtin_tame ⟨0⟩
  have hhost := Host.builtin_sparing ⟨0⟩
  obtain ⟨count, failing, _, journal₂, _, _, _, f, line, lines, hcount, -, -, hf, -, -, htrace, -,
    -, hlines⟩ := hm.trace_of_failed htame hhost hstarted hfailed
  obtain ⟨hfirst, rfl⟩ := List.cons.inj htrace
  obtain ⟨caller, op, f', line', hsuspended, hrecorded, hsecond⟩ := hlines 0 _ rfl
  exact ⟨htame, hhost, m, hm, _, m₁, journal₁, m', journal', hstarted, hfailed, count, failing,
    journal₂, f, line, caller, op, f', line', hcount, hf, hfirst.symm, hsuspended, hrecorded,
    hsecond.symm⟩

end ScriptMachine.Machine
