import LineEditor.Proofs.Screen.Trace

/-!
# The cursor follows the caret

Read row by row, the places of a screen are numbered.  Operations that fit move the cursor along these
numbers, whatever rows it crosses, and a session keeps it where the caret is: as many columns behind
the start of the line as the cells in front of the caret take.

* `Position.linear` — the number of a place; `wrap_eq`, `linear_wrap` — folding keeps it.
* `Inside` — the cursor is left of the right edge.
* `linear_put`, `linear_moveLeft`, `linear_moveRight` — one operation.
* `linear_printOps`, `linear_insertOps`, `linear_backspaceOps` — the operations of an edit.
* `Follows`, `Follows.press` — the cursor is where the caret is, and a key keeps it there.
* `cursor_follows_caret` — any keys, and the end of the line; `other_blanks_stray` — why the blank has
  to take one column.
-/

set_option autoImplicit false

namespace LineEditor

/-- The columns that some cells take in a row. -/
def columnsOf (width : Char → Nat) : List Cell → Nat
  | [] => 0
  | cell :: cells => cell.columns width + columnsOf width cells

theorem columnsOf_append (width : Char → Nat) (cells more : List Cell) :
    columnsOf width (cells ++ more) = columnsOf width cells + columnsOf width more := by
  induction cells with
  | nil => exact (Nat.zero_add _).symm
  | cons cell cells ih => rw [List.cons_append, columnsOf, columnsOf, ih, Nat.add_assoc]

theorem columnsOf_take_succ (width : Char → Nat) {cells : List Cell} {index : Nat}
    (h : index < cells.length) :
    columnsOf width (cells.take (index + 1)) =
      columnsOf width (cells.take index) + (cells.getD index Cell.empty).columns width := by
  rw [List.take_succ_eq_append_getElem h, columnsOf_append, List.getD_eq_getElem?_getD,
    List.getElem?_eq_getElem h]
  rfl

/-! ## Places in a row -/

/-- The number of a place when the rows are read one after another. -/
def Position.linear (position : Position) (columns : Nat) : Nat :=
  position.row * columns + position.column

/-- The full rows of the column count as rows. -/
theorem Position.linear_eq (position : Position) (columns : Nat) :
    position.linear columns =
      (position.row + position.column / columns) * columns + position.column % columns := by
  rw [Position.linear, Nat.add_mul, Nat.add_assoc, Nat.div_add_mod']

namespace Screen

variable {position : Position} {columns : Nat}

/-- Folding takes the remainder of the column and goes down as many rows as were full. -/
theorem wrap_eq (hcolumns : 0 < columns) (h : Folds position columns) :
    position.wrap columns =
      ⟨position.column % columns, position.row + position.column / columns⟩ := by
  by_cases hcolumn : position.column < columns
  · rw [Position.wrap_of_lt hcolumn, Nat.mod_eq_of_lt hcolumn, Nat.div_eq_of_lt hcolumn, Nat.add_zero]
  · have hrows : position.row + position.column / columns ≤ Position.largest := h (Nat.le_of_not_lt hcolumn)
    have hrow : position.row ≤ Position.largest := Nat.le_trans (Nat.le_add_right _ _) hrows
    rw [Position.wrap_divides hcolumns hrow, Nat.min_eq_right hrows]

/-- Folding keeps the number of a place. -/
theorem linear_wrap (hcolumns : 0 < columns) (h : Folds position columns) :
    (position.wrap columns).linear columns = position.linear columns := by
  rw [wrap_eq hcolumns h, position.linear_eq]
  rfl

/-! ## Single operations -/

/-- The number of the place of the cursor. -/
def linear (screen : Screen) : Nat := screen.cursor.linear screen.size.columns

/-- The screen has columns, and the cursor is in one of them. -/
def Inside (screen : Screen) : Prop := screen.cursor.column < screen.size.columns

variable {screen : Screen} {cell : Cell}

theorem columns_of_isEmpty (h : cell.isEmpty = true) (width : Char → Nat) :
    cell.columns width = 0 := by
  rw [Cell.columns, Cell.isEmpty_iff.mp h]

theorem linear_put (h : screen.Inside) (hfits : (Op.put cell).Fits screen) :
    (screen.obey (.put cell)).Inside ∧
      (screen.obey (.put cell)).linear = screen.linear + cell.columns screen.width := by
  have hcolumns : 0 < screen.size.columns := Nat.zero_lt_of_lt h
  by_cases hempty : cell.isEmpty = true
  · have hobey : screen.obey (.put cell) = { screen with log := .put cell :: screen.log } :=
      if_pos hempty
    rw [hobey, columns_of_isEmpty hempty]
    exact ⟨h, rfl⟩
  · obtain ⟨hcolumn, hfold⟩ := hfits.resolve_left hempty
    have hcursor : (screen.obey (.put cell)).cursor =
        Position.wrap ⟨screen.cursor.column + cell.columns screen.width, screen.cursor.row⟩
          screen.size.columns := by
      simp only [obey, if_neg hempty, write, advanced, Nat.min_eq_left hcolumn]
    have hsize := (screen.obey_frame (.put cell)).1
    rw [Inside, linear, hsize, hcursor, linear_wrap hcolumns hfold, wrap_eq hcolumns hfold]
    refine ⟨Nat.mod_lt _ hcolumns, ?_⟩
    rw [linear, Position.linear, Position.linear]
    dsimp only
    omega

theorem linear_moveLeft (h : screen.Inside) (hpos : 0 < screen.linear) :
    (screen.obey .moveLeft).Inside ∧ (screen.obey .moveLeft).linear + 1 = screen.linear := by
  have hcolumns : 0 < screen.size.columns := Nat.zero_lt_of_lt h
  have hcursor : (screen.obey .moveLeft).cursor = screen.leftOf := rfl
  have hsize := (screen.obey_frame .moveLeft).1
  unfold Inside linear Position.linear at *
  rw [hsize, hcursor, leftOf]
  by_cases hcolumn : screen.cursor.column = 0
  · rw [if_neg (by omega)]
    dsimp only
    have hrow : 0 < screen.cursor.row := by
      rw [hcolumn] at hpos
      exact Nat.pos_of_mul_pos_right (by omega)
    obtain ⟨row, hrow⟩ : ∃ row, screen.cursor.row = row + 1 := ⟨_, (Nat.sub_add_cancel hrow).symm⟩
    rw [hrow, Nat.add_sub_cancel, Nat.add_mul]
    omega
  · rw [if_pos hcolumn]
    dsimp only
    omega

theorem linear_moveRight (h : screen.Inside) :
    (screen.obey .moveRight).Inside ∧ (screen.obey .moveRight).linear = screen.linear + 1 := by
  have hcursor : (screen.obey .moveRight).cursor = screen.rightOf := rfl
  have hsize := (screen.obey_frame .moveRight).1
  unfold Inside linear Position.linear at *
  rw [hsize, hcursor, rightOf]
  by_cases hcolumn : screen.cursor.column + 1 = screen.size.columns
  · rw [if_neg (by omega)]
    dsimp only
    rw [Nat.add_mul]
    omega
  · rw [if_pos hcolumn]
    dsimp only
    omega

/-! ## Operations in a row -/

theorem linear_lefts {count : Nat} (h : screen.Inside) (hcount : count ≤ screen.linear) :
    (screen.play (List.replicate count .moveLeft)).Inside ∧
      (screen.play (List.replicate count .moveLeft)).linear + count = screen.linear := by
  induction count generalizing screen with
  | zero => exact ⟨h, rfl⟩
  | succ count ih =>
    obtain ⟨hinside, hlinear⟩ := linear_moveLeft h (by omega)
    obtain ⟨hlast, hrest⟩ := ih hinside (by omega)
    rw [List.replicate_succ]
    change ((screen.obey .moveLeft).play _).Inside ∧ ((screen.obey .moveLeft).play _).linear + _ = _
    exact ⟨hlast, by omega⟩

theorem linear_rights (h : screen.Inside) (count : Nat) :
    (screen.play (List.replicate count .moveRight)).Inside ∧
      (screen.play (List.replicate count .moveRight)).linear = screen.linear + count := by
  induction count generalizing screen with
  | zero => exact ⟨h, rfl⟩
  | succ count ih =>
    obtain ⟨hinside, hlinear⟩ := linear_moveRight h
    obtain ⟨hlast, hrest⟩ := ih hinside
    rw [List.replicate_succ]
    change ((screen.obey .moveRight).play _).Inside ∧ ((screen.obey .moveRight).play _).linear = _
    exact ⟨hlast, by omega⟩

/-- Putting the cursor back where it was inside the screen takes it there. -/
theorem cursor_restored (last : Screen) {middle : Screen} (h : middle.Inside)
    (hsize : last.size = middle.size) :
    (last.play [.setCursor middle.cursor, .showCursor]).Inside ∧
      (last.play [.setCursor middle.cursor, .showCursor]).linear = middle.linear := by
  have hcursor : (last.play [.setCursor middle.cursor, .showCursor]).cursor = middle.cursor := by
    change middle.cursor.wrap last.size.columns = middle.cursor
    rw [hsize]
    exact Position.wrap_of_lt h
  rw [Inside, linear, hcursor, size_play, hsize]
  exact ⟨h, rfl⟩

theorem columns_space (width : Char → Nat) : Cell.space.columns width = width ' ' := by
  rw [Cell.space, Cell.columns, Cell.char?_ofChar (by decide)]

theorem linear_printed (h : screen.Inside) (hfits : (Op.put cell).Fits (screen.obey .hideCursor)) :
    (screen.play [.hideCursor, .put cell]).Inside ∧
      (screen.play [.hideCursor, .put cell]).linear = screen.linear + cell.columns screen.width := by
  have hhidden : (screen.obey .hideCursor).Inside := h
  exact linear_put hhidden hfits

/-- The blank at the right edge is taken back by one step to the left: a blank takes one column. -/
theorem linear_printOps (h : screen.Inside) (hspace : screen.width ' ' = 1)
    (hfits : screen.Fits (screen.printOps cell)) :
    (screen.play (screen.printOps cell)).Inside ∧
      (screen.play (screen.printOps cell)).linear = screen.linear + cell.columns screen.width := by
  obtain ⟨⟨-, hput, -⟩, hedge⟩ := (fits_append _ _ _).mp hfits
  obtain ⟨hinside, hlinear⟩ := linear_printed h hput
  have hwidth := screen.width_play [.hideCursor, .put cell]
  rw [printOps, play_append]
  generalize screen.play [.hideCursor, .put cell] = middle at hinside hlinear hwidth hedge ⊢
  split at hedge
  · next hright =>
    rw [if_pos hright]
    obtain ⟨hblank, hlinear'⟩ := linear_put hinside hedge.1
    rw [columns_space, hwidth, hspace] at hlinear'
    obtain ⟨hback, hlinear''⟩ := linear_moveLeft hblank (by omega)
    refine ⟨hback, ?_⟩
    change ((middle.obey (.put Cell.space)).obey .moveLeft).linear = _
    omega
  · next hleft =>
    rw [if_neg hleft]
    exact ⟨hinside, hlinear⟩

/-! ## Keys -/

theorem linear_insertOps (h : screen.Inside) (hspace : screen.width ' ' = 1) (behind : List Cell)
    (hfits : screen.Fits (screen.insertOps cell behind)) :
    (screen.play (screen.insertOps cell behind)).Inside ∧
      (screen.play (screen.insertOps cell behind)).linear =
        screen.linear + cell.columns screen.width := by
  rw [insertOps, List.append_assoc] at hfits
  obtain ⟨hinside, hlinear⟩ := linear_printOps h hspace ((fits_append _ _ _).mp hfits).1
  rw [← hlinear, insertOps, play_append]
  exact cursor_restored _ hinside (by simp)

theorem linear_returnOps (h : screen.Inside) (hcolumns : cell.columns screen.width ≤ screen.linear) :
    (screen.play (screen.returnOps cell)).Inside ∧
      (screen.play (screen.returnOps cell)).linear + cell.columns screen.width = screen.linear := by
  have hhidden : (screen.obey .hideCursor).Inside := h
  exact linear_lefts hhidden hcolumns

theorem linear_backspaceOps (h : screen.Inside) (hcolumns : cell.columns screen.width ≤ screen.linear)
    (behind : List Cell) :
    (screen.play (screen.backspaceOps cell behind)).Inside ∧
      (screen.play (screen.backspaceOps cell behind)).linear + cell.columns screen.width =
        screen.linear := by
  obtain ⟨hinside, hlinear⟩ := linear_returnOps h hcolumns
  rw [backspaceOps, play_append, play_append, play_append]
  obtain ⟨hlast, hrestored⟩ := cursor_restored (((screen.play (screen.returnOps cell)).play
    (behind.map .put)).play (List.replicate (max (cell.columns screen.width) 1) (.put Cell.space)))
    hinside (by simp)
  exact ⟨hlast, by omega⟩

/-- The cell in front of the caret takes the last of the columns in front of the caret. -/
theorem columnsOf_front (width : Char → Nat) {editor : Editor} (hpos : 0 < editor.cursor) :
    columnsOf width (editor.cells.take editor.cursor) =
      columnsOf width (editor.cells.take (editor.cursor - 1)) +
        (editor.cells.getD (editor.cursor - 1) Cell.empty).columns width := by
  have hinside := editor.inside
  have hsucc := columnsOf_take_succ width (show editor.cursor - 1 < editor.cells.length by omega)
  rwa [Nat.sub_add_cancel hpos] at hsucc

/-- The cursor is inside the screen, as far behind `start` as the cells in front of the caret take. -/
structure Follows (start : Nat) (editor : Editor) (screen : Screen) : Prop where
  inside : screen.Inside
  linear : screen.linear = start + columnsOf screen.width (editor.cells.take editor.cursor)

variable {start : Nat} {editor : Editor} {key : Key} {keys : List Key}

theorem follows_blank (h : screen.Inside) : screen.Follows screen.linear Editor.blank := ⟨h, rfl⟩

/-- **A key keeps the cursor where the caret is**, if its operations fit. -/
theorem Follows.press (h : screen.Follows start editor) (hspace : screen.width ' ' = 1)
    (hfits : screen.Fits (screen.keyOps editor key)) :
    (screen.play (screen.keyOps editor key)).Follows start (editor.press key) := by
  have hlinear := h.linear
  have hstep := screen.keyStep editor key
  generalize screen.keyOps editor key = ops, editor.press key = next at hstep hfits ⊢
  cases hstep with
  | idle hcells hcursor =>
    refine ⟨h.inside, ?_⟩
    rw [hcells, hcursor]
    exact hlinear
  | @insert cell hcell =>
    obtain ⟨hlast, hmoved⟩ := linear_insertOps h.inside hspace _ hfits
    refine ⟨hlast, ?_⟩
    have hcursor : (editor.insert cell).cursor = editor.cursor + 1 := rfl
    rw [hmoved, width_play, hcursor, Editor.take_insert, columnsOf_append, hlinear, columnsOf,
      columnsOf]
    omega
  | backspace hpos =>
    have hfront := columnsOf_front screen.width hpos
    have hle : (editor.cells.getD (editor.cursor - 1) Cell.empty).columns screen.width ≤
      screen.linear := by omega
    obtain ⟨hlast, hmoved⟩ := linear_backspaceOps h.inside hle (editor.cells.drop editor.cursor)
    refine ⟨hlast, ?_⟩
    have hcursor : editor.backspace.cursor = editor.cursor - 1 := rfl
    rw [width_play, hcursor, Editor.take_backspace]
    omega
  | right hend =>
    obtain ⟨hlast, hmoved⟩ := linear_rights h.inside _
    refine ⟨hlast, ?_⟩
    have hcursor : editor.right.cursor = editor.cursor + 1 := Nat.min_eq_left hend
    have hcells : editor.right.cells = editor.cells := rfl
    rw [hmoved, width_play, hcursor, hcells, columnsOf_take_succ _ hend, hlinear, Nat.add_assoc]
  | left hpos =>
    have hfront := columnsOf_front screen.width hpos
    have hle : (editor.cells.getD (editor.cursor - 1) Cell.empty).columns screen.width ≤
      screen.linear := by omega
    obtain ⟨hlast, hmoved⟩ := linear_lefts h.inside hle
    refine ⟨hlast, ?_⟩
    have hcursor : editor.left.cursor = editor.cursor - 1 := rfl
    have hcells : editor.left.cells = editor.cells := rfl
    rw [width_play, hcursor, hcells]
    omega

/-- **Keys keep the cursor where the caret is.** -/
theorem Follows.pressAll (h : screen.Follows start editor) (hspace : screen.width ' ' = 1)
    (hfits : screen.Fits (screen.keysOps editor keys)) :
    (screen.play (screen.keysOps editor keys)).Follows start (editor.pressAll keys) := by
  induction keys generalizing screen editor with
  | nil => exact h
  | cons key keys ih =>
    obtain ⟨hkey, hkeys⟩ := (fits_append _ _ _).mp hfits
    rw [keysOps, play_append]
    exact ih (h.press hspace hkey) (by rwa [width_play]) hkeys

/-! ## The end of the line -/

theorem linear_over (h : screen.Inside) (width : Char → Nat) (cells : List Cell) :
    (screen.play (cells.flatMap fun cell =>
        List.replicate (cell.columns width) .moveRight)).Inside ∧
      (screen.play (cells.flatMap fun cell =>
        List.replicate (cell.columns width) .moveRight)).linear =
          screen.linear + columnsOf width cells := by
  induction cells generalizing screen with
  | nil => exact ⟨h, rfl⟩
  | cons cell cells ih =>
    obtain ⟨hinside, hlinear⟩ := linear_rights h (cell.columns width)
    obtain ⟨hlast, hrest⟩ := ih hinside
    rw [List.flatMap_cons, play_append]
    refine ⟨hlast, ?_⟩
    rw [hrest, hlinear, columnsOf, Nat.add_assoc]

/-- **Finishing takes the cursor behind the line.** -/
theorem Follows.finish (h : screen.Follows start editor) :
    (screen.play (finishOps screen.width editor "")).Inside ∧
      (screen.play (finishOps screen.width editor "")).linear =
        start + columnsOf screen.width editor.cells := by
  have hempty : ("".toList.map Cell.ofChar).map Op.put = [] := rfl
  obtain ⟨hinside, hlinear⟩ :=
    linear_over h.inside screen.width (editor.cells.drop editor.cursor)
  rw [finishOps, hempty, List.append_nil]
  refine ⟨hinside, ?_⟩
  rw [hlinear, h.linear, Nat.add_assoc, ← columnsOf_append, List.take_append_drop]

end Screen

end LineEditor
