import LineEditor.Proofs.Screen.Trace
import LineEditor.Proofs.Session.Driving

/-!
# What is put on the screen

On a screen no call fails, so all that can stop a key is a line that cannot grow, and then nothing is
put.  Hence a session puts the cells of its line and blanks, and the end of a line adds the terminator.

* `puts` — the cells that operations put; `Drawn`, `Terminated` — what they should be.
* `mem_puts_keyOps` — **the step**: a key puts blanks and cells of the line behind it.
* `processKey_on_screen` — a key does what the editor does and puts that, or it does nothing.
* `driven_on_screen` — **the run**: all that a session puts, however it is driven.
* `finish_puts` — the terminator comes last, and once.
-/

set_option autoImplicit false

open LineEditor.Action

namespace LineEditor.Screen

/-! ## The cells that are put -/

/-- The cell that an operation puts. -/
def Op.cell? : Op → Option Cell
  | .put cell => some cell
  | _ => none

/-- The cells that some operations put, in order. -/
def puts (ops : List Op) : List Cell := ops.filterMap Op.cell?

variable {screen start : Screen} {editor : Editor} {key : Key} {cell : Cell}

@[simp]
theorem puts_append (ops more : List Op) : puts (ops ++ more) = puts ops ++ puts more :=
  List.filterMap_append

@[simp]
theorem puts_map_put (cells : List Cell) : puts (cells.map .put) = cells := by
  rw [puts, List.filterMap_map]
  exact List.filterMap_some

theorem mem_puts {ops : List Op} : cell ∈ puts ops ↔ .put cell ∈ ops := by
  unfold puts
  rw [List.mem_filterMap]
  constructor
  · rintro ⟨op, hop, hcell⟩
    cases op with
    | put other =>
      cases hcell
      exact hop
    | _ => cases hcell
  · intro hop
    exact ⟨.put cell, hop, rfl⟩

/-- Printing a cell puts it, and a blank at the right edge. -/
theorem mem_puts_printOps {printed : Cell} (h : cell ∈ puts (screen.printOps printed)) :
    cell = Cell.space ∨ cell = printed := by
  rw [mem_puts] at h
  unfold printOps at h
  split at h <;> simp at h
  · exact h.symm
  · exact .inr h

/-- **A key puts blanks and cells of the line that it leads to.** -/
theorem mem_puts_keyOps (h : cell ∈ puts (screen.keyOps editor key)) :
    cell = Cell.space ∨ cell ∈ (editor.press key).cells := by
  have hstep := screen.keyStep editor key
  generalize screen.keyOps editor key = ops at h hstep
  generalize editor.press key = next at hstep ⊢
  cases hstep with
  | idle => cases h
  | @insert inserted hcell =>
    simp only [insertOps, puts_append, puts_map_put, List.mem_append] at h
    rcases h with (hprint | hbehind) | hlast
    · exact (mem_puts_printOps hprint).imp_right fun heq => by simp [heq, Editor.insert]
    · exact .inr (by simp [Editor.insert, hbehind])
    · simp [mem_puts] at hlast
  | backspace hpos =>
    simp only [backspaceOps, puts_append, puts_map_put, List.mem_append] at h
    rcases h with ((hreturn | hbehind) | hblank) | hlast
    · simp [mem_puts, returnOps] at hreturn
    · exact .inr (by simp [Editor.backspace, hbehind])
    · rw [mem_puts] at hblank
      have := List.eq_of_mem_replicate hblank
      exact .inl (by simpa using this)
    · simp [mem_puts] at hlast
  | right hend => simp [mem_puts] at h
  | left hpos => simp [mem_puts] at h

/-! ## Keys -/

variable {session : Session Screen} {supply : Line.Supply} {fault : Line.Fault} {line : Line}

/-- Where the line can grow, a key on a screen does what it does to the editor, and asks for the
operations of the key. -/
theorem processKey_plays (h : session.Edits supply editor)
    (hstore : editor.ended = false → session.CanStore key) :
    ∃ next count, Session.processKey session.terminal.width key session = .ok next.phase next ∧
      next.Edits supply (editor.press key) ∧
      next.terminal = (session.terminal.play (session.terminal.keyOps editor key)).asked count := by
  obtain ⟨count, hdraw⟩ := draw_ok session.terminal editor key
  obtain ⟨next, hrun, hnext, hterminal⟩ := Session.processKey_of_grow h hstore hdraw
  exact ⟨next, count, hrun, hnext, hterminal⟩

/-- **On a screen a key does what it does to the editor, or the line cannot grow and nothing is put.** -/
theorem processKey_on_screen (h : session.Edits supply editor) (key : Key) :
    (∃ next count, Session.processKey session.terminal.width key session = .ok next.phase next ∧
      next.Edits supply (editor.press key) ∧
      next.terminal = (session.terminal.play (session.terminal.keyOps editor key)).asked count) ∨
    ∃ failure next, Session.processKey session.terminal.width key session = .error failure next ∧
      next.Edits supply editor ∧ next.terminal = session.terminal.asked 1 := by
  cases hgrow : Line.grow session.line with
  | ok _ grown => exact .inl (processKey_plays h fun _ _ _ _ => ⟨grown, hgrow⟩)
  | error fault line =>
    by_cases hstores : editor.ended = false ∧ ∃ cell, key = .printable cell ∧ cell.isInsertable = true
    · obtain ⟨hopen, cell, rfl, hcell⟩ := hstores
      have hphase : session.phase = .reading := by
        rw [h.phase, if_neg (by rw [hopen]; exact Bool.false_ne_true)]
      have hinside : session.position ≤ session.line.size := by
        rw [h.position, h.line.size_eq]
        exact editor.inside
      obtain ⟨hkept, -, -⟩ := h.line.grow.of_error hgrow
      exact .inr ⟨_, _, Session.refuses_growth hphase hcell hgrow hinside,
        ⟨hkept, h.position, h.phase⟩, rfl⟩
    · exact .inl (processKey_plays h fun hopen cell hkey hcell =>
        absurd ⟨hopen, cell, hkey, hcell⟩ hstores)

/-! ## Sessions -/

/-- The cells are blanks and typed ones. -/
def Drawn (typed : List Key) (cells : List Cell) : Prop :=
  ∀ cell ∈ cells, cell = Cell.space ∨ Key.Typed typed cell

/-- The operations put blanks and typed cells, and behind them, once, the terminator. -/
def Terminated (typed : List Key) (terminator : String) (ops : List Op) : Prop :=
  ∃ front, puts ops = front ++ terminator.toList.map Cell.ofChar ∧ Drawn typed front

variable {settings : Settings} {typed more : List Key}

theorem Drawn.mono {cells : List Cell} (h : Drawn typed cells) (hmore : ∀ key ∈ typed, key ∈ more) :
    Drawn more cells := fun cell hcell => (h cell hcell).imp_right fun htyped => htyped.mono hmore

/-- **A session on a screen puts blanks and typed cells**, however it is driven. -/
theorem driven_on_screen (h : Session.Driven start.width settings start typed session) :
    ∃ supply editor ops count, session.Edits supply editor ∧
      (∀ cell ∈ editor.cells, Key.Typed typed cell) ∧
      session.terminal = (start.play ops).asked count ∧ Drawn typed (puts ops) := by
  induction h with
  | @create memory after session h =>
    have hnone : ∀ cell ∈ ([] : List Cell), Key.Typed [] cell := fun _ hcell => nomatch hcell
    obtain ⟨hedits, hterminal⟩ := Session.edits_of_create h
    exact ⟨_, _, [], 0, hedits, hnone, hterminal, fun _ hcell => nomatch hcell⟩
  | @key typed session h key ih =>
    obtain ⟨supply, editor, ops, count, hedits, hcells, hterminal, hputs⟩ := ih
    have hlater : ∀ other ∈ typed, other ∈ typed ++ [key] := fun _ hold => List.mem_append_left _ hold
    have hwidth : session.terminal.width = start.width := by
      rw [hterminal]
      exact start.width_play ops
    rw [← hwidth]
    rcases processKey_on_screen hedits key with
      ⟨next, more, hrun, hnext, hdrawn⟩ | ⟨failure, next, hrun, hnext, hdrawn⟩
    · have hpressed : ∀ cell ∈ (editor.press key).cells, Key.Typed (typed ++ [key]) cell :=
        Key.typed_snoc hcells fun _ => Editor.mem_press
      rw [hrun]
      refine ⟨supply, editor.press key, ops ++ session.terminal.keyOps editor key, count + more, hnext,
        hpressed, ?_, fun cell hcell => ?_⟩
      · generalize session.terminal.keyOps editor key = keyOps at hdrawn ⊢
        rw [state, hdrawn, hterminal, play_asked, asked_asked, play_append]
      · rw [puts_append, List.mem_append] at hcell
        rcases hcell with hold | hnew
        · exact hputs.mono hlater cell hold
        · exact (mem_puts_keyOps hnew).imp_right (hpressed cell)
    · rw [hrun]
      refine ⟨supply, editor, ops, count + 1, hnext, fun cell hcell => (hcells cell hcell).mono hlater,
        ?_, hputs.mono hlater⟩
      rw [state, hdrawn, hterminal, asked_asked]

theorem puts_finishOps (width : Char → Nat) (editor : Editor) (terminator : String) :
    puts (finishOps width editor terminator) = terminator.toList.map Cell.ofChar := by
  have hmoves : puts ((editor.cells.drop editor.cursor).flatMap fun cell =>
      List.replicate (cell.columns width) .moveRight) = [] := by
    rw [List.eq_nil_iff_forall_not_mem]
    intro cell hcell
    simp [mem_puts] at hcell
  rw [finishOps, puts_append, hmoves, puts_map_put, List.nil_append]

/-- **The end of a line puts the terminator behind all that was put before**, and nothing else. -/
theorem finish_puts (h : Session.Driven start.width settings start typed session)
    (terminator : String) :
    ∃ text last, Session.finish start.width terminator session = .ok text last ∧
      Terminated typed terminator (last.terminal.opsSince start) := by
  obtain ⟨supply, editor, ops, count, hedits, -, hterminal, hputs⟩ := driven_on_screen h
  obtain ⟨last, hfinish, hend⟩ := finish_on_screen hedits start.width terminator
  refine ⟨_, last, hfinish, puts ops, ?_, hputs⟩
  rw [hend, hterminal, play_asked, ← play_append, opsSince_play, puts_append, puts_finishOps]

end LineEditor.Screen
