import LineEditor.Proofs.Editor
import LineEditor.Proofs.Line.Storage
import LineEditor.Proofs.Text.Cells
import LineEditor.Session

/-!
# A session is an editor that draws

What a session does to its line does not depend on the answers of the terminal: they only decide
what is drawn.  This file parts the two.

* `draw` — what a key draws, as an action on the terminal alone.
* `Edits` — a session whose line, caret and phase are those of an `Editor`.
* `processKey_of_grow`, `processKey_ok` — where the drawing succeeds and the line can grow, a key does
  to the session what it does to the editor, and to the terminal what `draw` does.
* `takeKeys_ok`, `finish_ok` — the same for some keys, and for the end of the line.
-/

set_option autoImplicit false

namespace LineEditor.Session

/-! ## The parts of a session -/

variable {τ : Type} {session : Session τ} {terminal : τ} {cell : Cell}

theorem onTerminal_ok {α : Type} {step : Action τ α} {value : α}
    (h : step session.terminal = .ok value terminal) :
    onTerminal step session = .ok value { session with terminal } := by
  rw [onTerminal, Action.within, h]

theorem onLine_ok {α : Type} {step : EStateM Line.Fault Line α} {value : α} {line : Line}
    (h : step session.line = .ok value line) :
    onLine step session = .ok value { session with line } := by
  rw [onLine, h]

theorem times_onTerminal_ok {step : Action τ Unit} {count : Nat}
    (h : Action.times count step session.terminal = .ok () terminal) :
    Action.times count (onTerminal step) session = .ok () { session with terminal } := by
  induction count generalizing session with
  | zero =>
    cases h
    rfl
  | succ count ih =>
    obtain ⟨_, middle, hstep, hrest⟩ := Action.bind_eq_ok.mp h
    rw [Action.times, Action.bind_of_ok (onTerminal_ok hstep)]
    exact ih hrest

theorem store_ok {longer : Line}
    (hline : (if session.line.size ≤ session.position then Line.append cell
      else Line.insert cell session.position) session.line = .ok () longer) :
    store cell session = .ok () { session with line := longer } := by
  rw [store, Action.get_bind]
  by_cases hend : session.line.size ≤ session.position
  · rw [if_pos hend] at hline ⊢
    exact onLine_ok hline
  · rw [if_neg hend] at hline ⊢
    exact onLine_ok hline

variable [Terminal τ] (width : Char → Nat)

/-! ## What is drawn -/

/-- Draw a new cell, and the cells behind it again. -/
def drawInsert (cell : Cell) (behind : List Cell) : Action τ Unit := do
  let start ← Terminal.cursor
  let columns ← Terminal.columns
  print width cell start columns
  let caret ← Terminal.cursor
  Action.forEach Terminal.put behind
  Terminal.setCursor caret
  Terminal.showCursor

/-- Draw the cells behind an erased one again, and blanks behind them. -/
def drawBackspace (erased : Cell) (behind : List Cell) : Action τ Unit := do
  Terminal.hideCursor
  Action.times (erased.columns width) Terminal.moveLeft
  let caret ← Terminal.cursor
  Action.forEach Terminal.put behind
  Action.times (max (erased.columns width) 1) (Terminal.put Cell.space)
  Terminal.setCursor caret
  Terminal.showCursor

/-- What a key draws. -/
def draw (editor : Editor) (key : Key) : Action τ Unit :=
  if editor.ended then pure ()
  else
    match key with
    | .printable cell =>
      if cell.isInsertable then drawInsert width cell (editor.cells.drop editor.cursor) else pure ()
    | .control .backspace =>
      if 0 < editor.cursor then
        drawBackspace width (editor.cells.getD (editor.cursor - 1) Cell.empty)
          (editor.cells.drop editor.cursor)
      else pure ()
    | .control .right =>
      if editor.cursor < editor.cells.length then
        Action.times ((editor.cells.getD editor.cursor Cell.empty).columns width) Terminal.moveRight
      else pure ()
    | .control .left =>
      if 0 < editor.cursor then
        Action.times ((editor.cells.getD (editor.cursor - 1) Cell.empty).columns width)
          Terminal.moveLeft
      else pure ()
    | .control _ => pure ()

/-! ## Single edits -/

theorem putAll_ok {cells : List Cell}
    (h : Action.forEach Terminal.put cells session.terminal = .ok () terminal) :
    putAll cells session = .ok () { session with terminal } := by
  induction cells generalizing session with
  | nil =>
    cases h
    rfl
  | cons cell cells ih =>
    obtain ⟨_, middle, hput, hrest⟩ := Action.bind_eq_ok.mp h
    rw [putAll, Action.forEach, Action.bind_of_ok (onTerminal_ok hput)]
    exact ih hrest

theorem insert_ok {longer : Line}
    (hline : (if session.line.size ≤ session.position then Line.append cell
      else Line.insert cell session.position) session.line = .ok () longer)
    (hdraw : drawInsert width cell (longer.cells.drop (session.position + 1)) session.terminal =
      .ok () terminal) :
    insert width cell session =
      .ok () { session with line := longer, position := session.position + 1, terminal } := by
  obtain ⟨start, t1, hstart, hdraw⟩ := Action.bind_eq_ok.mp hdraw
  obtain ⟨columns, t2, hcolumns, hdraw⟩ := Action.bind_eq_ok.mp hdraw
  obtain ⟨_, t3, hprint, hdraw⟩ := Action.bind_eq_ok.mp hdraw
  obtain ⟨caret, t4, hcaret, hdraw⟩ := Action.bind_eq_ok.mp hdraw
  obtain ⟨_, t5, hbehind, hdraw⟩ := Action.bind_eq_ok.mp hdraw
  obtain ⟨_, t6, hset, hshow⟩ := Action.bind_eq_ok.mp hdraw
  have hstore : store cell { session with terminal := t2 } = _ := store_ok hline
  rw [insert, Action.bind_of_ok (onTerminal_ok hstart), Action.bind_of_ok (onTerminal_ok hcolumns),
    Action.bind_of_ok hstore, Action.bind_of_ok (onTerminal_ok hprint),
    Action.bind_of_ok (onTerminal_ok hcaret), Action.get_bind, Action.bind_of_ok (putAll_ok hbehind),
    Action.bind_of_ok (onTerminal_ok hset), Action.bind_of_ok (onTerminal_ok hshow)]
  rfl

theorem backspace_ok {erased : Cell} {shorter : Line}
    (herased : session.cellAt (session.position - 1) = erased)
    (hline : Line.erase (session.position - 1) session.line = .ok erased shorter)
    (hdraw : drawBackspace width erased (shorter.cells.drop (session.position - 1))
      session.terminal = .ok () terminal) :
    backspace width session =
      .ok () { session with line := shorter, position := session.position - 1, terminal } := by
  obtain ⟨_, t1, hhide, hdraw⟩ := Action.bind_eq_ok.mp hdraw
  obtain ⟨_, t2, hleft, hdraw⟩ := Action.bind_eq_ok.mp hdraw
  obtain ⟨caret, t3, hcaret, hdraw⟩ := Action.bind_eq_ok.mp hdraw
  obtain ⟨_, t4, hbehind, hdraw⟩ := Action.bind_eq_ok.mp hdraw
  obtain ⟨_, t5, hblank, hdraw⟩ := Action.bind_eq_ok.mp hdraw
  obtain ⟨_, t6, hset, hshow⟩ := Action.bind_eq_ok.mp hdraw
  have herase : onLine (Line.erase (session.position - 1))
      { session with position := session.position - 1, terminal := t3 } = _ := onLine_ok hline
  rw [backspace, Action.bind_of_ok (onTerminal_ok hhide), Action.get_bind]
  dsimp only
  rw [cellAt] at herased ⊢
  rw [herased, Action.bind_of_ok (times_onTerminal_ok hleft), Action.modify_bind,
    Action.bind_of_ok (onTerminal_ok hcaret), Action.get_bind]
  dsimp only
  rw [Action.bind_of_ok herase,
    Action.get_bind, Action.bind_of_ok (putAll_ok hbehind),
    Action.bind_of_ok (times_onTerminal_ok hblank), Action.bind_of_ok (onTerminal_ok hset)]
  exact onTerminal_ok hshow

theorem moveRight_ok
    (hdraw : Action.times ((session.cellAt session.position).columns width) Terminal.moveRight
      session.terminal = .ok () terminal) :
    moveRight width session = .ok () { session with position := session.position + 1, terminal } := by
  rw [moveRight, Action.get_bind, Action.bind_of_ok (times_onTerminal_ok hdraw)]
  rfl

theorem moveLeft_ok
    (hdraw : Action.times ((session.cellAt (session.position - 1)).columns width) Terminal.moveLeft
      session.terminal = .ok () terminal) :
    moveLeft width session = .ok () { session with position := session.position - 1, terminal } := by
  rw [moveLeft, Action.modify_bind, Action.get_bind]
  exact times_onTerminal_ok hdraw

/-! ## Keys -/

/-- The line, the caret and the phase of the session are those of the editor. -/
structure Edits (supply : Line.Supply) (editor : Editor) (session : Session τ) : Prop where
  line : Line.Settled supply editor.cells session.line
  position : session.position = editor.cursor
  phase : session.phase = if editor.ended then .terminating else .reading

variable {width} {supply : Line.Supply} {editor : Editor} {key : Key}

omit [Terminal τ] in
theorem Edits.cellAt_eq (h : session.Edits supply editor) (index : Nat) :
    session.cellAt index = editor.cells.getD index Cell.empty := by
  rw [cellAt, h.line.cells_eq]

/-- Before a key, the line can grow if the key puts a cell into it. -/
def CanStore (session : Session τ) (key : Key) : Prop :=
  ∀ cell, key = .printable cell → cell.isInsertable = true →
    ∃ grown, Line.grow session.line = .ok () grown

omit [Terminal τ] in
/-- Where the line can hold what the key leaves, it can grow before. -/
theorem Edits.canStore (h : session.Edits supply editor) (hopen : editor.ended = false)
    (hhold : Line.CanHold supply (editor.press key).cells.length) : session.CanStore key := by
  rintro cell rfl hcell
  have hpress : editor.press (.printable cell) = editor.insert cell := by
    unfold Editor.press
    rw [if_neg (by rw [hopen]; exact Bool.false_ne_true)]
    exact if_pos hcell
  rw [hpress, Editor.length_insert] at hhold
  exact hhold.grows h.line (Nat.lt_succ_self _)

theorem Edits.insert (h : session.Edits supply editor) {grown : Line}
    (hgrow : Line.grow session.line = .ok () grown)
    (hdraw : drawInsert width cell (editor.cells.drop editor.cursor) session.terminal =
      .ok () terminal) :
    ∃ next, Session.insert width cell session = .ok () next ∧
      next.Edits supply (editor.insert cell) ∧ next.terminal = terminal := by
  have hinside := editor.inside
  have hposition := h.position
  have hinsert : editor.cells.insertIdx editor.cursor cell = (editor.insert cell).cells :=
    Line.insertIdx_eq hinside
  have hplace : session.position ≤ session.line.size := by
    rwa [hposition, h.line.size_eq]
  obtain ⟨longer, hline⟩ := Line.store_of_grow hgrow hplace cell
  have hlonger := (h.line.store cell hinside).of_ok (by rwa [← hposition])
  rw [hinsert] at hlonger
  have hbehind : longer.cells.drop (session.position + 1) = editor.cells.drop editor.cursor := by
    rw [hlonger.cells_eq, hposition, Editor.drop_insert]
  refine ⟨_, insert_ok width hline (by rwa [hbehind]), ⟨hlonger, ?_, h.phase⟩, rfl⟩
  exact congrArg (· + 1) hposition

theorem Edits.backspace (h : session.Edits supply editor) (hpos : 0 < editor.cursor)
    (hdraw : drawBackspace width (editor.cells.getD (editor.cursor - 1) Cell.empty)
      (editor.cells.drop editor.cursor) session.terminal = .ok () terminal) :
    ∃ next, Session.backspace width session = .ok () next ∧
      next.Edits supply editor.backspace ∧ next.terminal = terminal := by
  have hinside := editor.inside
  have hposition := h.position
  obtain ⟨shorter, hline, hshorter, -⟩ :=
    Line.erase_ok h.line (show editor.cursor - 1 < editor.cells.length by omega)
  rw [List.eraseIdx_eq_take_drop_succ, Nat.sub_add_cancel hpos] at hshorter
  have hbehind : shorter.cells.drop (session.position - 1) = editor.cells.drop editor.cursor := by
    rw [hshorter.cells_eq, hposition]
    exact editor.drop_backspace
  rw [← hposition] at hline hdraw
  refine ⟨_, backspace_ok width (h.cellAt_eq _) hline ?_, ⟨hshorter, ?_, h.phase⟩, rfl⟩
  · rw [hbehind, ← hposition]
    exact hdraw
  · exact congrArg (· - 1) hposition

theorem Edits.moveRight (h : session.Edits supply editor)
    (hinside : editor.cursor < editor.cells.length)
    (hdraw : Action.times ((editor.cells.getD editor.cursor Cell.empty).columns width)
      Terminal.moveRight session.terminal = .ok () terminal) :
    ∃ next, Session.moveRight width session = .ok () next ∧
      next.Edits supply editor.right ∧ next.terminal = terminal := by
  rw [← h.cellAt_eq, ← h.position] at hdraw
  refine ⟨_, moveRight_ok width hdraw, ⟨h.line, ?_, h.phase⟩, rfl⟩
  have hposition := h.position
  change session.position + 1 = min (editor.cursor + 1) editor.cells.length
  omega

theorem Edits.moveLeft (h : session.Edits supply editor)
    (hdraw : Action.times ((editor.cells.getD (editor.cursor - 1) Cell.empty).columns width)
      Terminal.moveLeft session.terminal = .ok () terminal) :
    ∃ next, Session.moveLeft width session = .ok () next ∧
      next.Edits supply editor.left ∧ next.terminal = terminal := by
  rw [← h.cellAt_eq, ← h.position] at hdraw
  refine ⟨_, moveLeft_ok width hdraw, ⟨h.line, ?_, h.phase⟩, rfl⟩
  exact congrArg (· - 1) h.position

omit [Terminal τ] in
theorem Edits.enter (h : session.Edits supply editor) :
    Edits supply editor.finish { session with phase := .terminating } :=
  ⟨h.line, h.position, rfl⟩

theorem obey_ok (h : session.Edits supply editor) (hopen : editor.ended = false)
    (hstore : session.CanStore key)
    (hdraw : draw width editor key session.terminal = .ok () terminal) :
    ∃ next, obey width key session = .ok () next ∧
      next.Edits supply (editor.press key) ∧ next.terminal = terminal := by
  unfold draw at hdraw
  unfold Editor.press
  rw [hopen, if_neg Bool.false_ne_true] at hdraw
  rw [if_neg (by rw [hopen]; exact Bool.false_ne_true), obey, Action.get_bind]
  have hinside := editor.inside
  have hposition := h.position
  have hsize := h.line.size_eq
  -- a key that does nothing draws nothing
  have hnothing {e : Editor} (he : e = editor)
      (hpure : (pure () : Action τ Unit) session.terminal = .ok () terminal) :
      ∃ next : Session τ, (pure () : Action (Session τ) Unit) session = .ok () next ∧
        next.Edits supply e ∧ next.terminal = terminal := by
    cases hpure
    subst he
    exact ⟨session, rfl, h, rfl⟩
  cases key with
  | printable cell =>
    dsimp only at hdraw ⊢
    by_cases hcell : cell.isInsertable = true
    · rw [if_pos hcell] at hdraw
      rw [if_pos hcell, if_pos hcell]
      obtain ⟨grown, hgrow⟩ := hstore cell rfl hcell
      exact h.insert hgrow hdraw
    · rw [if_neg hcell] at hdraw
      rw [if_neg hcell, if_neg hcell]
      exact hnothing rfl hdraw
  | control control =>
    cases control with
    | enter =>
      cases hdraw
      exact ⟨_, rfl, h.enter, rfl⟩
    | backspace =>
      dsimp only at hdraw ⊢
      rw [hposition]
      by_cases hpos : 0 < editor.cursor
      · rw [if_pos hpos] at hdraw ⊢
        exact h.backspace hpos hdraw
      · rw [if_neg hpos] at hdraw ⊢
        exact hnothing (Editor.backspace_of_zero (by omega)) hdraw
    | left =>
      dsimp only at hdraw ⊢
      rw [hposition]
      by_cases hpos : 0 < editor.cursor
      · rw [if_pos hpos] at hdraw ⊢
        exact h.moveLeft hdraw
      · rw [if_neg hpos] at hdraw ⊢
        exact hnothing (Editor.left_of_zero (by omega)) hdraw
    | right =>
      dsimp only at hdraw ⊢
      rw [hposition, hsize]
      by_cases hend : editor.cursor < editor.cells.length
      · rw [if_pos hend] at hdraw ⊢
        exact h.moveRight hend hdraw
      · rw [if_neg hend] at hdraw ⊢
        exact hnothing (Editor.right_of_end (by omega)) hdraw
    | _ => exact hnothing rfl hdraw

/-- **A key does to the session what it does to the editor**, and to the terminal what it draws: where
the drawing succeeds and the line can grow, taking the key succeeds. -/
theorem processKey_of_grow (h : session.Edits supply editor)
    (hstore : editor.ended = false → session.CanStore key)
    (hdraw : draw width editor key session.terminal = .ok () terminal) :
    ∃ next, processKey width key session = .ok next.phase next ∧
      next.Edits supply (editor.press key) ∧ next.terminal = terminal := by
  have hphase := h.phase
  rw [processKey, Action.get_bind]
  cases hended : editor.ended with
  | true =>
    rw [hended, if_pos rfl] at hphase
    unfold draw at hdraw
    unfold Editor.press
    rw [hended, if_pos rfl] at hdraw
    rw [hended, if_pos rfl, hphase]
    cases hdraw
    exact ⟨session, by rw [hphase]; rfl, h, rfl⟩
  | false =>
    rw [hended, if_neg Bool.false_ne_true] at hphase
    obtain ⟨next, hobey, hnext⟩ := obey_ok h hended (hstore hended) hdraw
    rw [hphase]
    exact ⟨next, Action.bind_of_ok hobey, hnext⟩

/-- So it does where the line can hold what the key leaves. -/
theorem processKey_ok (h : session.Edits supply editor)
    (hhold : Line.CanHold supply (editor.press key).cells.length)
    (hdraw : draw width editor key session.terminal = .ok () terminal) :
    ∃ next, processKey width key session = .ok next.phase next ∧
      next.Edits supply (editor.press key) ∧ next.terminal = terminal :=
  processKey_of_grow h (fun hopen => h.canStore hopen hhold) hdraw

/-! ## Runs -/

variable (width) in
/-- Take some keys, one after another. -/
def takeKeys : List Key → Action (Session τ) Unit
  | [] => pure ()
  | key :: keys => do
    let _ ← processKey width key
    takeKeys keys

variable (width) in
/-- What some keys draw, one after another. -/
def drawAll : Editor → List Key → Action τ Unit
  | _, [] => pure ()
  | editor, key :: keys => do
    draw width editor key
    drawAll (editor.press key) keys

/-- The line has room after every key. -/
def RoomFor (supply : Line.Supply) (editor : Editor) (keys : List Key) : Prop :=
  ∀ typed, typed <+: keys → Line.HasRoom supply (editor.pressAll typed).cells.length

/-- The line can hold what every key leaves. -/
def CanTake (supply : Line.Supply) (editor : Editor) (keys : List Key) : Prop :=
  ∀ typed, typed <+: keys → Line.CanHold supply (editor.pressAll typed).cells.length

variable {keys more : List Key}

theorem RoomFor.canTake (h : RoomFor supply editor keys) : CanTake supply editor keys :=
  fun typed htyped => (h typed htyped).canHold

theorem CanTake.head (h : CanTake supply editor (key :: keys)) :
    Line.CanHold supply (editor.press key).cells.length :=
  h [key] (by simp)

theorem CanTake.tail (h : CanTake supply editor (key :: keys)) :
    CanTake supply (editor.press key) keys := by
  intro typed htyped
  exact h (key :: typed) (List.cons_prefix_cons.mpr ⟨rfl, htyped⟩)

theorem length_pressAll_le_of_part {typed : List Key} (h : typed <+: keys) :
    (editor.pressAll typed).cells.length ≤ editor.cells.length + keys.length :=
  Nat.le_trans (editor.length_pressAll_le typed) (Nat.add_le_add_left h.length_le _)

/-- There is room for keys if there is room for as many cells. -/
theorem roomFor_of_length (h : Line.HasRoom supply (editor.cells.length + keys.length)) :
    RoomFor supply editor keys := fun _ htyped => h.mono (length_pressAll_le_of_part htyped)

/-- Keys can be taken if as many cells can be held. -/
theorem canTake_of_length (h : Line.CanHold supply (editor.cells.length + keys.length)) :
    CanTake supply editor keys := fun _ htyped => h.mono (length_pressAll_le_of_part htyped)

/-- **Some keys do to the session what they do to the editor.** -/
theorem takeKeys_ok (h : session.Edits supply editor) (hroom : RoomFor supply editor keys)
    (hdraw : drawAll width editor keys session.terminal = .ok () terminal) :
    ∃ next, takeKeys width keys session = .ok () next ∧
      next.Edits supply (editor.pressAll keys) ∧ next.terminal = terminal := by
  replace hroom := hroom.canTake
  induction keys generalizing editor session with
  | nil =>
    cases hdraw
    exact ⟨session, rfl, h, rfl⟩
  | cons key keys ih =>
    obtain ⟨_, middle, hkey, hkeys⟩ := Action.bind_eq_ok.mp hdraw
    obtain ⟨next, hrun, hnext, hterminal⟩ := processKey_ok h hroom.head hkey
    rw [← hterminal] at hkeys
    obtain ⟨last, hlast, hedits⟩ := ih hnext hkeys hroom.tail
    refine ⟨last, ?_, hedits⟩
    rw [takeKeys, Action.bind_of_ok hrun]
    exact hlast

/-! ## The start and the end of a line -/

/-- The supply that settings and storage give a line. -/
def supplyOf (settings : Settings) (memory : Memory) : Line.Supply where
  initial := settings.initialCapacity
  limit := settings.capacityLimit
  answer := memory.answer

omit [Terminal τ] in
theorem create_of_canHold {settings : Settings} {memory : Memory} {count : Nat}
    (hhold : Line.CanHold (supplyOf settings memory) count) (terminal : τ) :
    ∃ session after, create terminal settings memory = .ok session after ∧
      session.Edits (supplyOf settings memory) Editor.blank ∧ session.terminal = terminal := by
  have hmade : ∃ line after,
      Line.create settings.initialCapacity settings.capacityLimit memory = .ok line after := hhold.made rfl
  obtain ⟨line, after, hcreate⟩ := hmade
  have hline : Line.Settled (supplyOf settings memory) [] line := Line.settled_create hcreate
  refine ⟨{ line, terminal }, after, ?_, ⟨hline, rfl, rfl⟩, rfl⟩
  rw [create, hcreate]

omit [Terminal τ] in
theorem create_ok {settings : Settings} {memory : Memory} {count : Nat}
    (hroom : Line.HasRoom (supplyOf settings memory) count) (terminal : τ) :
    ∃ session after, create terminal settings memory = .ok session after ∧
      session.Edits (supplyOf settings memory) Editor.blank ∧ session.terminal = terminal :=
  create_of_canHold hroom.canHold terminal

variable (width) in
/-- What the end of a line draws. -/
def drawFinish (editor : Editor) (terminator : String) : Action τ Unit := do
  Action.forEach (fun cell => Action.times (cell.columns width) Terminal.moveRight)
    (editor.cells.drop editor.cursor)
  Action.forEach Terminal.put (terminator.toList.map Cell.ofChar)
  Terminal.flush

theorem moveRightBy_ok (h : session.Edits supply editor)
    (hdraw : Action.forEach (fun cell => Action.times (cell.columns width) Terminal.moveRight)
      (editor.cells.drop editor.cursor) session.terminal = .ok () terminal) :
    ∃ next, moveRightBy width (editor.cells.length - editor.cursor) session = .ok () next ∧
      Line.Settled supply editor.cells next.line ∧ next.terminal = terminal := by
  generalize hcount : editor.cells.length - editor.cursor = count
  induction count generalizing editor session with
  | zero =>
    rw [List.drop_of_length_le (by omega)] at hdraw
    cases hdraw
    exact ⟨session, rfl, h.line, rfl⟩
  | succ count ih =>
    have hinside : editor.cursor < editor.cells.length := by omega
    have hcell : editor.cells.getD editor.cursor Cell.empty = editor.cells[editor.cursor] := by
      rw [List.getD_eq_getElem?_getD, List.getElem?_eq_getElem hinside, Option.getD_some]
    rw [List.drop_eq_getElem_cons hinside, ← hcell] at hdraw
    obtain ⟨_, middle, hright, hrest⟩ := Action.bind_eq_ok.mp hdraw
    obtain ⟨next, hrun, hnext, hterminal⟩ := h.moveRight hinside hright
    have hcursor : editor.right.cursor = editor.cursor + 1 := Nat.min_eq_left hinside
    have hcells : editor.right.cells = editor.cells := rfl
    rw [← hterminal] at hrest
    obtain ⟨last, hlast, hline, hend⟩ :=
      ih hnext (by rwa [hcells, hcursor]) (by rw [hcells, hcursor]; omega)
    refine ⟨last, ?_, hline, hend⟩
    rw [moveRightBy, Action.times, Action.bind_of_ok hrun]
    exact hlast

/-- **A finished session hands out the text of the editor.** -/
theorem finish_ok {terminator : String} (h : session.Edits supply editor)
    (hdraw : drawFinish width editor terminator session.terminal = .ok () terminal) :
    ∃ next, finish width terminator session = .ok editor.text next ∧
      Line.Settled supply editor.cells next.line ∧ next.terminal = terminal := by
  obtain ⟨_, t1, hright, hdraw⟩ := Action.bind_eq_ok.mp hdraw
  obtain ⟨_, t2, hput, hflush⟩ := Action.bind_eq_ok.mp hdraw
  obtain ⟨next, hrun, hline, hterminal⟩ := moveRightBy_ok h hright
  rw [← hterminal] at hput
  refine ⟨{ next with terminal }, ?_, hline, rfl⟩
  rw [finish, Action.get_bind, h.line.size_eq, h.position, Action.bind_of_ok hrun,
    Action.bind_of_ok (putAll_ok hput), Action.bind_of_ok (onTerminal_ok hflush), Action.get_bind]
  dsimp only
  rw [Line.compose_eq, hline.cells_eq]
  rfl

/-! ## Terminals that never fail -/

/-- Whatever is asked of a terminal with the property `good` succeeds and leaves such a terminal
behind.  Its answers are free. -/
structure NeverFails (good : τ → Prop) : Prop where
  columns : Action.Succeeds good (Terminal.columns : Action τ Nat)
  cursor : Action.Succeeds good (Terminal.cursor : Action τ Position)
  setCursor (position : Position) :
    Action.Succeeds good (Terminal.setCursor position : Action τ Unit)
  put (cell : Cell) : Action.Succeeds good (Terminal.put cell : Action τ Unit)
  moveLeft : Action.Succeeds good (Terminal.moveLeft : Action τ Unit)
  moveRight : Action.Succeeds good (Terminal.moveRight : Action τ Unit)
  showCursor : Action.Succeeds good (Terminal.showCursor : Action τ Unit)
  hideCursor : Action.Succeeds good (Terminal.hideCursor : Action τ Unit)
  enterRawMode : Action.Succeeds good (Terminal.enterRawMode : Action τ Unit)
  leaveRawMode : Action.Succeeds good (Terminal.leaveRawMode : Action τ Unit)
  flush : Action.Succeeds good (Terminal.flush : Action τ Unit)

variable {good : τ → Prop}

variable (width) in
theorem NeverFails.drawInsert (h : NeverFails good) (cell : Cell) (behind : List Cell) :
    Action.Succeeds good (Session.drawInsert width cell behind : Action τ Unit) := by
  refine h.cursor.bind fun start => h.columns.bind fun columns => ?_
  refine Action.Succeeds.bind ?_ fun _ => h.cursor.bind fun caret => ?_
  · refine h.hideCursor.bind fun _ => (h.put cell).bind fun _ => ?_
    split
    · exact (h.put Cell.space).bind fun _ => h.moveLeft
    · exact Action.succeeds_pure _
  · exact (Action.succeeds_forEach h.put behind).bind fun _ =>
      (h.setCursor caret).bind fun _ => h.showCursor

variable (width) in
theorem NeverFails.drawBackspace (h : NeverFails good) (erased : Cell) (behind : List Cell) :
    Action.Succeeds good (Session.drawBackspace width erased behind : Action τ Unit) := by
  refine h.hideCursor.bind fun _ => (h.moveLeft.times _).bind fun _ => h.cursor.bind fun caret => ?_
  refine (Action.succeeds_forEach h.put behind).bind fun _ => ((h.put _).times _).bind fun _ => ?_
  exact (h.setCursor caret).bind fun _ => h.showCursor

variable (width) in
theorem NeverFails.draw (h : NeverFails good) (editor : Editor) (key : Key) :
    Action.Succeeds good (Session.draw width editor key : Action τ Unit) := by
  unfold Session.draw
  repeat' split
  all_goals first
    | exact Action.succeeds_pure _
    | exact h.drawInsert width _ _
    | exact h.drawBackspace width _ _
    | exact h.moveLeft.times _
    | exact h.moveRight.times _

variable (width) in
theorem NeverFails.drawAll (h : NeverFails good) (editor : Editor) (keys : List Key) :
    Action.Succeeds good (Session.drawAll width editor keys : Action τ Unit) := by
  induction keys generalizing editor with
  | nil => exact Action.succeeds_pure _
  | cons key keys ih => exact (h.draw width editor key).bind fun _ => ih _

variable (width) in
theorem NeverFails.drawFinish (h : NeverFails good) (editor : Editor) (terminator : String) :
    Action.Succeeds good (Session.drawFinish width editor terminator : Action τ Unit) := by
  refine (Action.succeeds_forEach (fun _ => h.moveRight.times _) _).bind fun _ => ?_
  exact (Action.succeeds_forEach h.put _).bind fun _ => h.flush

end LineEditor.Session
