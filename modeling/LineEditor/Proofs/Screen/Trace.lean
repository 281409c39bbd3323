import LineEditor.Proofs.Session.Refinement
import LineEditor.Terminal.Screen

/-!
# The operations of a session on a screen

On a screen everything that is drawn is a list of operations, and the screen afterwards is the one
that carries them out.  No operation fails, so a session makes of its keys what the plain editor does.

* `obey`, `play` — carry out an operation, and some of them.
* `Fits` — no column and no row is cut off on the way.
* `insertOps`, `backspaceOps`, `keyOps`, `keysOps`, `finishOps` — what a session asks for.
* `KeyStep` — the five things that a key can do.
* `takeKeys_on_screen`, `finish_on_screen` — a session on a screen, as the operations that it makes.
-/

set_option autoImplicit false

namespace LineEditor.Screen

/-! ## Carrying operations out -/

/-- Write an operation down and carry it out. -/
def obey (screen : Screen) (op : Op) : Screen :=
  let noted := { screen with log := op :: screen.log }
  match op with
  | .put cell => if cell.isEmpty then noted else noted.write cell
  | .moveLeft => { noted with cursor := screen.leftOf }
  | .moveRight => { noted with cursor := screen.rightOf }
  | .moveDown count => { noted with cursor := ⟨screen.cursor.column, screen.cursor.row + count⟩ }
  | .moveUp count => { noted with cursor := ⟨screen.cursor.column, screen.cursor.row - count⟩ }
  | .moveToColumn column => { noted with cursor := ⟨column, screen.cursor.row⟩ }
  | .setCursor position => { noted with cursor := position.wrap screen.size.columns }
  | .showCursor => { noted with visible := true }
  | .hideCursor => { noted with visible := false }
  | .enterRaw => { noted with raw := true }
  | .leaveRaw => { noted with raw := false }

/-- Carry out some operations, one after another. -/
def play (screen : Screen) (ops : List Op) : Screen := ops.foldl obey screen

/-- The screen after some more questions for the place of the cursor. -/
def asked (screen : Screen) (count : Nat) : Screen :=
  { screen with queries := screen.queries + count }

variable {screen : Screen} {cell : Cell} {op : Op}

theorem play_append (screen : Screen) (ops more : List Op) :
    screen.play (ops ++ more) = (screen.play ops).play more := List.foldl_append

theorem obey_asked (screen : Screen) (count : Nat) (op : Op) :
    (screen.asked count).obey op = (screen.obey op).asked count := by
  cases op with
  | put cell =>
    simp only [obey]
    split <;> rfl
  | _ => rfl

theorem play_asked (screen : Screen) (count : Nat) (ops : List Op) :
    (screen.asked count).play ops = (screen.play ops).asked count := by
  induction ops generalizing screen with
  | nil => rfl
  | cons op ops ih =>
    have hcons (start : Screen) : start.play (op :: ops) = (start.obey op).play ops := rfl
    rw [hcons, hcons, obey_asked, ih]

theorem asked_asked (screen : Screen) (count more : Nat) :
    (screen.asked count).asked more = screen.asked (count + more) := by
  simp only [asked, Nat.add_assoc]

/-- Operations change neither the size of the screen nor the measure of characters, and are written
down. -/
theorem obey_frame (screen : Screen) (op : Op) :
    (screen.obey op).size = screen.size ∧ (screen.obey op).width = screen.width ∧
      (screen.obey op).log = op :: screen.log := by
  cases op with
  | put cell =>
    simp only [obey]
    split <;> exact ⟨rfl, rfl, rfl⟩
  | _ => exact ⟨rfl, rfl, rfl⟩

theorem play_frame (screen : Screen) (ops : List Op) :
    (screen.play ops).size = screen.size ∧ (screen.play ops).width = screen.width ∧
      (screen.play ops).log = ops.reverse ++ screen.log := by
  induction ops generalizing screen with
  | nil => exact ⟨rfl, rfl, rfl⟩
  | cons op ops ih =>
    obtain ⟨hsize, hwidth, hlog⟩ := ih (screen.obey op)
    obtain ⟨hsize', hwidth', hlog'⟩ := obey_frame screen op
    refine ⟨hsize.trans hsize', hwidth.trans hwidth', hlog.trans ?_⟩
    rw [hlog', List.reverse_cons, List.append_assoc]
    rfl

@[simp]
theorem size_play (screen : Screen) (ops : List Op) : (screen.play ops).size = screen.size :=
  (screen.play_frame ops).1

@[simp]
theorem width_play (screen : Screen) (ops : List Op) : (screen.play ops).width = screen.width :=
  (screen.play_frame ops).2.1

/-- The operations made since a screen was left. -/
def opsSince (screen earlier : Screen) : List Op := screen.ops.drop earlier.ops.length

/-- Operations that neither hide nor show the cursor leave it as visible as it was. -/
theorem visible_play {ops : List Op}
    (h : ∀ op ∈ ops, ∀ screen : Screen, (screen.obey op).visible = screen.visible) :
    (screen.play ops).visible = screen.visible := by
  induction ops generalizing screen with
  | nil => rfl
  | cons op ops ih =>
    rw [← h op List.mem_cons_self screen]
    exact ih fun other hother => h other (List.mem_cons_of_mem _ hother)

theorem ops_play (screen : Screen) (ops : List Op) (count : Nat) :
    ((screen.play ops).asked count).ops = screen.ops ++ ops := by
  have hlog : ((screen.play ops).asked count).log = ops.reverse ++ screen.log :=
    (screen.play_frame ops).2.2
  rw [Screen.ops, hlog, List.reverse_append, List.reverse_reverse]
  rfl

theorem opsSince_play (screen : Screen) (ops : List Op) (count : Nat) :
    ((screen.play ops).asked count).opsSince screen = ops := by
  rw [opsSince, ops_play, List.drop_left]

/-! ## Columns and rows that fit -/

/-- Folding the column onto the rows below does not pass the last row. -/
def Folds (position : Position) (columns : Nat) : Prop :=
  columns ≤ position.column → position.row + position.column / columns ≤ Position.largest

/-- Every sum of columns or rows that the operation makes is a column or a row. -/
def Op.Fits (screen : Screen) : Op → Prop
  | .put cell =>
    cell.isEmpty = true ∨
      screen.cursor.column + cell.columns screen.width ≤ Position.largest ∧
        Folds ⟨screen.cursor.column + cell.columns screen.width, screen.cursor.row⟩
          screen.size.columns
  | .setCursor position => Folds position screen.size.columns
  | .moveRight =>
    screen.cursor.column + 1 ≤ Position.largest ∧
      (screen.cursor.column + 1 = screen.size.columns → screen.cursor.row + 1 ≤ Position.largest)
  | .moveDown count => screen.cursor.row + count ≤ Position.largest
  | _ => True

/-- Every operation fits when its turn comes. -/
def Fits (screen : Screen) : List Op → Prop
  | [] => True
  | op :: ops => op.Fits screen ∧ Fits (screen.obey op) ops

instance (position : Position) (columns : Nat) : Decidable (Folds position columns) :=
  inferInstanceAs (Decidable (_ → _))

instance (screen : Screen) (op : Op) : Decidable (op.Fits screen) :=
  match op with
  | .put _ => inferInstanceAs (Decidable (_ ∨ _ ∧ Folds _ _))
  | .setCursor _ => inferInstanceAs (Decidable (Folds _ _))
  | .moveRight => inferInstanceAs (Decidable (_ ∧ (_ → _)))
  | .moveDown _ => inferInstanceAs (Decidable (_ ≤ _))
  | .moveLeft | .moveUp _ | .moveToColumn _ | .showCursor | .hideCursor | .enterRaw | .leaveRaw =>
    inferInstanceAs (Decidable True)

instance decidableFits : (screen : Screen) → (ops : List Op) → Decidable (screen.Fits ops)
  | _, [] => inferInstanceAs (Decidable True)
  | screen, op :: ops =>
    have := decidableFits (screen.obey op) ops
    inferInstanceAs (Decidable (_ ∧ _))

theorem fits_append (screen : Screen) (ops more : List Op) :
    screen.Fits (ops ++ more) ↔ screen.Fits ops ∧ (screen.play ops).Fits more := by
  induction ops generalizing screen with
  | nil => exact ⟨fun h => ⟨trivial, h⟩, And.right⟩
  | cons op ops ih =>
    rw [List.cons_append, Fits, Fits, ih, and_assoc]
    rfl

/-! ## What a session asks for -/

/-- The operations that print a cell. -/
def printOps (screen : Screen) (cell : Cell) : List Op :=
  [.hideCursor, .put cell] ++
    if screen.size.columns ≤ screen.cursor.column + cell.columns screen.width then
      [.put Cell.space, .moveLeft]
    else []

/-- The operations of an insertion. -/
def insertOps (screen : Screen) (cell : Cell) (behind : List Cell) : List Op :=
  screen.printOps cell ++ behind.map .put ++
    [.setCursor (screen.play (screen.printOps cell)).cursor, .showCursor]

/-- The operations that go back over an erased cell. -/
def returnOps (screen : Screen) (erased : Cell) : List Op :=
  .hideCursor :: List.replicate (erased.columns screen.width) .moveLeft

/-- The operations of an erasure. -/
def backspaceOps (screen : Screen) (erased : Cell) (behind : List Cell) : List Op :=
  screen.returnOps erased ++ behind.map .put ++
    List.replicate (max (erased.columns screen.width) 1) (.put Cell.space) ++
    [.setCursor (screen.play (screen.returnOps erased)).cursor, .showCursor]

/-- The operations of a key. -/
def keyOps (screen : Screen) (editor : Editor) (key : Key) : List Op :=
  if editor.ended then []
  else
    match key with
    | .printable cell =>
      if cell.isInsertable then screen.insertOps cell (editor.cells.drop editor.cursor) else []
    | .control .backspace =>
      if 0 < editor.cursor then
        screen.backspaceOps (editor.cells.getD (editor.cursor - 1) Cell.empty)
          (editor.cells.drop editor.cursor)
      else []
    | .control .right =>
      if editor.cursor < editor.cells.length then
        List.replicate ((editor.cells.getD editor.cursor Cell.empty).columns screen.width) .moveRight
      else []
    | .control .left =>
      if 0 < editor.cursor then
        List.replicate ((editor.cells.getD (editor.cursor - 1) Cell.empty).columns screen.width)
          .moveLeft
      else []
    | .control _ => []

/-- The operations of some keys. -/
def keysOps (screen : Screen) (editor : Editor) : List Key → List Op
  | [] => []
  | key :: keys =>
    screen.keyOps editor key ++
      keysOps (screen.play (screen.keyOps editor key)) (editor.press key) keys

/-- The operations that finish a line. -/
def finishOps (width : Char → Nat) (editor : Editor) (terminator : String) : List Op :=
  ((editor.cells.drop editor.cursor).flatMap fun cell =>
    List.replicate (cell.columns width) .moveRight) ++
    (terminator.toList.map Cell.ofChar).map .put

/-- What a key can do to an editor, and the operations that it then asks a screen for. -/
inductive KeyStep (screen : Screen) (editor : Editor) : Key → List Op → Editor → Prop where
  /-- nothing but the end of the line -/
  | idle {key : Key} {next : Editor} (hcells : next.cells = editor.cells)
      (hcursor : next.cursor = editor.cursor) : KeyStep screen editor key [] next
  | insert {cell : Cell} (hcell : cell.isInsertable = true) :
    KeyStep screen editor (.printable cell)
      (screen.insertOps cell (editor.cells.drop editor.cursor)) (editor.insert cell)
  | backspace (hpos : 0 < editor.cursor) :
    KeyStep screen editor (.control .backspace)
      (screen.backspaceOps (editor.cells.getD (editor.cursor - 1) Cell.empty)
        (editor.cells.drop editor.cursor)) editor.backspace
  | right (hend : editor.cursor < editor.cells.length) :
    KeyStep screen editor (.control .right)
      (List.replicate ((editor.cells.getD editor.cursor Cell.empty).columns screen.width) .moveRight)
      editor.right
  | left (hpos : 0 < editor.cursor) :
    KeyStep screen editor (.control .left)
      (List.replicate ((editor.cells.getD (editor.cursor - 1) Cell.empty).columns screen.width)
        .moveLeft) editor.left

/-- **Every key is one of these steps.** -/
theorem keyStep (screen : Screen) (editor : Editor) (key : Key) :
    KeyStep screen editor key (screen.keyOps editor key) (editor.press key) := by
  unfold keyOps Editor.press
  by_cases hended : editor.ended = true
  · rw [if_pos hended, if_pos hended]
    exact .idle rfl rfl
  · rw [if_neg hended, if_neg hended]
    cases key with
    | printable cell =>
      dsimp only
      by_cases hcell : cell.isInsertable = true
      · rw [if_pos hcell, if_pos hcell]
        exact .insert hcell
      · rw [if_neg hcell, if_neg hcell]
        exact .idle rfl rfl
    | control control =>
      cases control with
      | backspace =>
        dsimp only
        by_cases hpos : 0 < editor.cursor
        · rw [if_pos hpos]
          exact .backspace hpos
        · rw [if_neg hpos, Editor.backspace_of_zero (by omega)]
          exact .idle rfl rfl
      | right =>
        dsimp only
        by_cases hend : editor.cursor < editor.cells.length
        · rw [if_pos hend]
          exact .right hend
        · rw [if_neg hend, Editor.right_of_end (by omega)]
          exact .idle rfl rfl
      | left =>
        dsimp only
        by_cases hpos : 0 < editor.cursor
        · rw [if_pos hpos]
          exact .left hpos
        · rw [if_neg hpos, Editor.left_of_zero (by omega)]
          exact .idle rfl rfl
      | _ => exact .idle rfl rfl

/-! ## Actions as operations -/

theorem put_ok (cell : Cell) (screen : Screen) :
    (Terminal.put cell : Action Screen Unit) screen = .ok () (screen.obey (.put cell)) := rfl

theorem moveLeft_ok (screen : Screen) :
    (Terminal.moveLeft : Action Screen Unit) screen = .ok () (screen.obey .moveLeft) := rfl

theorem moveRight_ok (screen : Screen) :
    (Terminal.moveRight : Action Screen Unit) screen = .ok () (screen.obey .moveRight) := rfl

theorem hideCursor_ok (screen : Screen) :
    (Terminal.hideCursor : Action Screen Unit) screen = .ok () (screen.obey .hideCursor) := rfl

theorem cursor_ok (screen : Screen) (count : Nat) :
    (Terminal.cursor : Action Screen Position) (screen.asked count) =
      .ok screen.cursor (screen.asked (count + 1)) := rfl

theorem asked_ok {step : Action Screen Unit} {ops : List Op}
    (h : ∀ screen, step screen = .ok () (screen.play ops)) (screen : Screen) (count : Nat) :
    step (screen.asked count) = .ok () ((screen.play ops).asked count) := by
  rw [h, play_asked]

theorem times_ok {step : Action Screen Unit} (h : ∀ screen, step screen = .ok () (screen.obey op))
    (count : Nat) (screen : Screen) :
    Action.times count step screen = .ok () (screen.play (List.replicate count op)) := by
  induction count generalizing screen with
  | zero => rfl
  | succ count ih =>
    rw [Action.times, Action.bind_of_ok (h screen)]
    exact ih _

theorem putAll_ok (cells : List Cell) (screen : Screen) :
    Action.forEach Terminal.put cells screen = .ok () (screen.play (cells.map .put)) := by
  induction cells generalizing screen with
  | nil => rfl
  | cons cell cells ih => exact ih (screen.obey (.put cell))

theorem showAt_ok (caret : Position) (screen : Screen) (count : Nat) :
    (Terminal.setCursor caret >>= fun _ => Terminal.showCursor : Action Screen Unit)
      (screen.asked count) = .ok () ((screen.play [.setCursor caret, .showCursor]).asked count) := rfl

theorem print_ok (screen : Screen) (cell : Cell) :
    Session.print screen.width cell screen.cursor screen.size.columns screen =
      .ok () (screen.play (screen.printOps cell)) := by
  unfold Session.print printOps
  have hcell := put_ok cell (screen.obey .hideCursor)
  have hfiller := put_ok Cell.space ((screen.obey .hideCursor).obey (.put cell))
  rw [Action.bind_of_ok (hideCursor_ok screen), Action.bind_of_ok hcell]
  split
  · rw [Action.bind_of_ok hfiller]
    exact moveLeft_ok _
  · rfl

theorem drawInsert_ok (screen : Screen) (cell : Cell) (behind : List Cell) :
    Session.drawInsert screen.width cell behind screen =
      .ok () ((screen.play (screen.insertOps cell behind)).asked 2) := by
  have hcolumns : (Terminal.columns : Action Screen Nat) (screen.asked 1) =
      .ok screen.size.columns (screen.asked 1) := rfl
  have hprint : Session.print screen.width cell screen.cursor screen.size.columns (screen.asked 1) =
      .ok () ((screen.play (screen.printOps cell)).asked 1) := by
    rw [← play_asked]
    exact print_ok (screen.asked 1) cell
  have hbehind := asked_ok (putAll_ok behind) (screen.play (screen.printOps cell)) 2
  rw [Session.drawInsert,
    Action.bind_of_ok (show Terminal.cursor screen = _ from cursor_ok screen 0),
    Action.bind_of_ok hcolumns, Action.bind_of_ok hprint, Action.bind_of_ok (cursor_ok _ 1),
    Action.bind_of_ok hbehind, insertOps, play_append, play_append]
  exact showAt_ok _ _ 2

theorem drawBackspace_ok (screen : Screen) (erased : Cell) (behind : List Cell) :
    Session.drawBackspace screen.width erased behind screen =
      .ok () ((screen.play (screen.backspaceOps erased behind)).asked 1) := by
  have hreturn : Action.times (erased.columns screen.width) Terminal.moveLeft
      (screen.obey .hideCursor) = .ok () ((screen.play (screen.returnOps erased)).asked 0) :=
    times_ok moveLeft_ok _ _
  have hbehind := asked_ok (putAll_ok behind) (screen.play (screen.returnOps erased)) 1
  have hblank (middle : Screen) :=
    asked_ok (times_ok (put_ok Cell.space) (max (erased.columns screen.width) 1)) middle 1
  rw [Session.drawBackspace, Action.bind_of_ok (hideCursor_ok screen), Action.bind_of_ok hreturn,
    Action.bind_of_ok (cursor_ok _ 0), Action.bind_of_ok hbehind, Action.bind_of_ok (hblank _),
    backspaceOps, play_append, play_append, play_append]
  exact showAt_ok _ _ 1

/-- **What a key draws is carried out on the screen.** -/
theorem draw_ok (screen : Screen) (editor : Editor) (key : Key) :
    ∃ count, Session.draw screen.width editor key screen =
      .ok () ((screen.play (screen.keyOps editor key)).asked count) := by
  unfold Session.draw keyOps
  have hnothing : (pure () : Action Screen Unit) screen = .ok () ((screen.play []).asked 0) := rfl
  by_cases hended : editor.ended = true
  · rw [if_pos hended, if_pos hended]
    exact ⟨0, hnothing⟩
  · rw [if_neg hended, if_neg hended]
    cases key with
    | printable cell =>
      dsimp only
      split
      · exact ⟨2, drawInsert_ok screen cell _⟩
      · exact ⟨0, hnothing⟩
    | control control =>
      cases control with
      | backspace =>
        dsimp only
        split
        · exact ⟨1, drawBackspace_ok screen _ _⟩
        · exact ⟨0, hnothing⟩
      | right =>
        dsimp only
        split
        · exact ⟨0, times_ok moveRight_ok _ _⟩
        · exact ⟨0, hnothing⟩
      | left =>
        dsimp only
        split
        · exact ⟨0, times_ok moveLeft_ok _ _⟩
        · exact ⟨0, hnothing⟩
      | _ => exact ⟨0, hnothing⟩

theorem keyOps_asked (screen : Screen) (count : Nat) (editor : Editor) (key : Key) :
    (screen.asked count).keyOps editor key = screen.keyOps editor key := by
  simp only [keyOps, insertOps, backspaceOps, play_asked]
  rfl

theorem keysOps_asked (screen : Screen) (count : Nat) (editor : Editor) (keys : List Key) :
    (screen.asked count).keysOps editor keys = screen.keysOps editor keys := by
  induction keys generalizing screen editor with
  | nil => rfl
  | cons key keys ih => rw [keysOps, keysOps, keyOps_asked, play_asked, ih]

theorem drawAll_ok (screen : Screen) (editor : Editor) (keys : List Key) :
    ∃ count, Session.drawAll screen.width editor keys screen =
      .ok () ((screen.play (screen.keysOps editor keys)).asked count) := by
  induction keys generalizing screen editor with
  | nil => exact ⟨0, rfl⟩
  | cons key keys ih =>
    obtain ⟨first, hkey⟩ := draw_ok screen editor key
    obtain ⟨others, hkeys⟩ :=
      ih ((screen.play (screen.keyOps editor key)).asked first) (editor.press key)
    have hwidth : ((screen.play (screen.keyOps editor key)).asked first).width = screen.width :=
      screen.width_play _
    refine ⟨first + others, ?_⟩
    rw [hwidth, keysOps_asked, play_asked, ← play_append, asked_asked] at hkeys
    rw [Session.drawAll, Action.bind_of_ok hkey]
    exact hkeys

theorem moveRightOver_ok (width : Char → Nat) (cells : List Cell) (screen : Screen) :
    Action.forEach (fun cell => Action.times (cell.columns width) Terminal.moveRight) cells screen =
      .ok () (screen.play (cells.flatMap fun cell =>
        List.replicate (cell.columns width) .moveRight)) := by
  induction cells generalizing screen with
  | nil => rfl
  | cons cell cells ih =>
    rw [Action.forEach, Action.bind_of_ok (times_ok moveRight_ok _ screen), List.flatMap_cons,
      play_append]
    exact ih _

theorem drawFinish_ok (width : Char → Nat) (editor : Editor) (terminator : String)
    (screen : Screen) :
    Session.drawFinish width editor terminator screen =
      .ok () (screen.play (finishOps width editor terminator)) := by
  rw [Session.drawFinish, Action.bind_of_ok (moveRightOver_ok width _ screen),
    Action.bind_of_ok (putAll_ok _ _), finishOps, play_append]
  rfl

/-! ## Sessions -/

section

variable {settings : Settings} {memory : Memory} {keys : List Key} {editor : Editor}
  {session : Session Screen} {supply : Line.Supply}

/-- **A session on a screen makes of its keys what the editor does, by the operations of the keys.** -/
theorem takeKeys_on_screen (screen : Screen)
    (hroom : Session.RoomFor (Session.supplyOf settings memory) Editor.blank keys) :
    ∃ session after next count, Session.create screen settings memory = .ok session after ∧
      Session.takeKeys screen.width keys session = .ok () next ∧
      next.Edits (Session.supplyOf settings memory) (Editor.typed keys) ∧
      next.terminal = (screen.play (screen.keysOps Editor.blank keys)).asked count := by
  obtain ⟨session, after, hcreate, hedits, hstart⟩ :=
    Session.create_ok (hroom [] List.nil_prefix) screen
  obtain ⟨count, hdraw⟩ := drawAll_ok screen Editor.blank keys
  rw [← hstart] at hdraw
  obtain ⟨next, hrun, hnext⟩ := Session.takeKeys_ok hedits hroom hdraw
  rw [hstart] at hrun hnext
  exact ⟨session, after, next, count, hcreate, hrun, hnext⟩

/-- What a session on a screen has come to, it has come to by the operations of its keys. -/
theorem edits_of_takeKeys {after : Memory} {next : Session Screen}
    (hroom : Session.RoomFor (Session.supplyOf settings memory) Editor.blank keys)
    (hcreate : Session.create screen settings memory = .ok session after)
    (hrun : Session.takeKeys screen.width keys session = .ok () next) :
    ∃ count, next.Edits (Session.supplyOf settings memory) (Editor.typed keys) ∧
      next.terminal = (screen.play (screen.keysOps Editor.blank keys)).asked count := by
  obtain ⟨_, _, _, count, hcreate', hrun', hnext⟩ := takeKeys_on_screen screen hroom
  rw [hcreate] at hcreate'
  cases hcreate'
  rw [hrun] at hrun'
  cases hrun'
  exact ⟨count, hnext⟩

/-- **A session on a screen finishes its line by the operations of the end.** -/
theorem finish_on_screen (h : session.Edits supply editor) (width : Char → Nat)
    (terminator : String) :
    ∃ last, Session.finish width terminator session = .ok editor.text last ∧
      last.terminal = session.terminal.play (finishOps width editor terminator) := by
  obtain ⟨last, hfinish, -, hend⟩ :=
    Session.finish_ok h (drawFinish_ok width editor terminator session.terminal)
  exact ⟨last, hfinish, hend⟩

end

end LineEditor.Screen
