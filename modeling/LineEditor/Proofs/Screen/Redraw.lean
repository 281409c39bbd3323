import LineEditor.Proofs.Screen.Cursor

/-!
# The screen shows the line

After an edit only the cells behind it are drawn again.  This is enough: where every character takes
a column, the screen always shows the cells of the line from the start on, blanks behind them, and in
front of them what stood there before.

* `slot` — what a screen holds at a place, the rows read one after another.
* `slot_put` — putting a cell changes one slot.
* `Shows` — cells stand in a row of slots, each as many slots behind the last as that takes columns.
* `Printed`, `slots_printOps`, `slots_insertOps`, `slots_backspaceOps` — what is drawn for an edit.
* `Mirrors`, `Mirrors.press` — the screen shows the line, and a key keeps that so.
* `screen_mirrors_line` — any keys.
-/

set_option autoImplicit false

namespace LineEditor.Screen

/-! ## Slots -/

/-- The cell at a place, the rows read one after another; the empty cell where nothing was written. -/
def slot (screen : Screen) (place : Nat) : Cell :=
  (screen.grid.getD (place / screen.size.columns) #[]).getD (place % screen.size.columns) Cell.empty

variable {screen next : Screen} {cell : Cell} {cells : List Cell} {place : Nat}

theorem getD_extend (grid : Array (Array Cell)) (rows row : Nat) :
    (extend grid rows).getD row #[] = grid.getD row #[] := by
  simp only [extend, Array.getD_eq_getD_getElem?, Array.getElem?_append, Array.getElem?_replicate]
  split
  · rfl
  · next h =>
    rw [Array.getElem?_eq_none (Nat.not_lt.mp h)]
    split <;> rfl

theorem getD_widen (row : Array Cell) (columns column : Nat) :
    (widen row columns).getD column Cell.empty = row.getD column Cell.empty := by
  simp only [widen, Array.getD_eq_getD_getElem?, Array.getElem?_append, Array.getElem?_replicate]
  split
  · rfl
  · next h =>
    rw [Array.getElem?_eq_none (Nat.not_lt.mp h)]
    split <;> rfl

theorem row_stored (screen : Screen) (cell : Cell) (row : Nat) :
    (screen.stored cell).getD row #[] =
      if row = screen.cursor.row then
        (widen (screen.grid.getD row #[]) screen.size.columns).setIfInBounds screen.cursor.column cell
      else screen.grid.getD row #[] := by
  have hbound : screen.cursor.row < (extend screen.grid (screen.cursor.row + 1)).size := by
    rw [extend, Array.size_append, Array.size_replicate]
    omega
  rw [stored, Array.getD_eq_getD_getElem?, Array.getElem?_modify]
  by_cases hrow : row = screen.cursor.row
  · rw [if_pos hrow, if_pos hrow.symm, hrow, Array.getElem?_eq_getElem hbound, Option.map_some,
      Option.getD_some, ← getD_extend screen.grid (screen.cursor.row + 1),
      Array.getD_eq_getD_getElem?, Array.getElem?_eq_getElem hbound, Option.getD_some]
  · rw [if_neg hrow, if_neg (Ne.symm hrow), ← Array.getD_eq_getD_getElem?, getD_extend]

/-- Writing changes the slot under the cursor only. -/
theorem slot_write (h : screen.Inside) (cell : Cell) (place : Nat) :
    (screen.write cell).slot place = if place = screen.linear then cell else screen.slot place := by
  have hcolumns : 0 < screen.size.columns := Nat.zero_lt_of_lt h
  have hdivision := Nat.div_add_mod place screen.size.columns
  rw [Nat.mul_comm] at hdivision
  change ((screen.stored cell).getD (place / screen.size.columns) #[]).getD
    (place % screen.size.columns) Cell.empty = _
  rw [row_stored, linear, Position.linear, slot]
  unfold Inside at h
  by_cases hrow : place / screen.size.columns = screen.cursor.row
  · rw [if_pos hrow, Array.getD_eq_getD_getElem?, Array.getElem?_setIfInBounds]
    by_cases hcolumn : screen.cursor.column = place % screen.size.columns
    · have hbound : place % screen.size.columns <
          (widen (screen.grid.getD (place / screen.size.columns) #[]) screen.size.columns).size := by
        rw [widen, Array.size_append, Array.size_replicate, ← hcolumn]
        omega
      rw [if_pos hcolumn, if_pos (hcolumn ▸ hbound), if_pos (by rw [← hrow, hcolumn]; omega)]
      rfl
    · rw [if_neg hcolumn, ← Array.getD_eq_getD_getElem?, getD_widen, if_neg (by rw [← hrow]; omega)]
  · rw [if_neg hrow, if_neg]
    intro hplace
    apply hrow
    rw [hplace, Nat.mul_comm, Nat.mul_add_div hcolumns, Nat.div_eq_of_lt h, Nat.add_zero]

theorem slot_put (h : screen.Inside) (hcell : cell.isEmpty = false) (place : Nat) :
    (screen.obey (.put cell)).slot place =
      if place = screen.linear then cell else screen.slot place := by
  have hobey : screen.obey (.put cell) =
      ({ screen with log := .put cell :: screen.log } : Screen).write cell :=
    if_neg (by rw [hcell]; exact Bool.false_ne_true)
  rw [hobey]
  exact slot_write (show Inside { screen with log := .put cell :: screen.log } from h) cell place

/-- Movements change no slot. -/
theorem slot_movements {ops : List Op} (h : ∀ op ∈ ops, op.isMovement = true) :
    (screen.play ops).slot = screen.slot := by
  induction ops generalizing screen with
  | nil => rfl
  | cons op ops ih =>
    have hop : (screen.obey op).slot = screen.slot := by
      have hmovement := h op List.mem_cons_self
      cases op with
      | put cell => cases hmovement
      | _ => rfl
    rw [← hop]
    exact ih fun other hother => h other (List.mem_cons_of_mem _ hother)

/-! ## Cells in a row of slots -/

/-- The cells stand in the slots from `place` on. -/
def Shows (slot : Nat → Cell) (width : Char → Nat) : Nat → List Cell → Prop
  | _, [] => True
  | place, cell :: cells =>
    slot place = cell ∧ Shows slot width (place + cell.columns width) cells

/-- Every cell takes a column. -/
def Wide (width : Char → Nat) (cells : List Cell) : Prop := ∀ cell ∈ cells, 0 < cell.columns width

variable {slot slot' : Nat → Cell} {width : Char → Nat} {more : List Cell}

theorem shows_append :
    Shows slot width place (cells ++ more) ↔
      Shows slot width place cells ∧ Shows slot width (place + columnsOf width cells) more := by
  induction cells generalizing place with
  | nil => exact ⟨fun h => ⟨trivial, h⟩, And.right⟩
  | cons cell cells ih =>
    rw [List.cons_append, Shows, Shows, ih, columnsOf, ← Nat.add_assoc, and_assoc]

/-- Cells that take columns are shown by their own slots alone. -/
theorem Shows.congr (h : Shows slot width place cells) (hwide : Wide width cells)
    (hsame : ∀ n, place ≤ n → n < place + columnsOf width cells → slot' n = slot n) :
    Shows slot' width place cells := by
  induction cells generalizing place with
  | nil => trivial
  | cons cell cells ih =>
    have hcell : 0 < cell.columns width := hwide cell List.mem_cons_self
    rw [columnsOf] at hsame
    refine ⟨?_, ih h.2 (fun c hc => hwide c (List.mem_cons_of_mem _ hc)) fun n hle hlt => ?_⟩
    · rw [hsame place (Nat.le_refl _) (by omega)]
      exact h.1
    · exact hsame n (by omega) (by omega)

theorem Shows.get (h : Shows slot width place cells) {index : Nat} (hindex : index < cells.length) :
    slot (place + columnsOf width (cells.take index)) = cells[index] := by
  induction cells generalizing place index with
  | nil => cases hindex
  | cons cell cells ih =>
    cases index with
    | zero => exact h.1
    | succ index =>
      rw [List.take_succ_cons, columnsOf, ← Nat.add_assoc]
      exact ih h.2 (Nat.lt_of_succ_lt_succ hindex)

theorem columnsOf_spaces (hspace : width ' ' = 1) (count : Nat) :
    columnsOf width (List.replicate count Cell.space) = count := by
  induction count with
  | zero => rfl
  | succ count ih =>
    rw [List.replicate_succ, columnsOf, ih, columns_space, hspace, Nat.add_comm]

theorem Shows.space (hspace : width ' ' = 1) {count n : Nat}
    (h : Shows slot width place (List.replicate count Cell.space)) (hle : place ≤ n)
    (hlt : n < place + count) : slot n = Cell.space := by
  induction count generalizing place with
  | zero => omega
  | succ count ih =>
    obtain ⟨hfirst, hrest⟩ := h
    rw [columns_space, hspace] at hrest
    by_cases hn : n = place
    · rw [hn]
      exact hfirst
    · exact ih hrest (by omega) (by omega)

/-! ## What is drawn -/

theorem isEmpty_of_wide (h : 0 < cell.columns width) : cell.isEmpty = false := by
  refine Bool.eq_false_iff.mpr fun hempty => ?_
  rw [columns_of_isEmpty hempty] at h
  exact Nat.lt_irrefl 0 h

/-- Some cells were printed from the place of the cursor on, and nothing else was changed. -/
structure Printed (cells : List Cell) (screen next : Screen) : Prop where
  inside : next.Inside
  linear : next.linear = screen.linear + columnsOf screen.width cells
  shows : Shows next.slot screen.width screen.linear cells
  others : ∀ n, n < screen.linear ∨ screen.linear + columnsOf screen.width cells ≤ n →
    next.slot n = screen.slot n

theorem printed_puts (h : screen.Inside) (hwide : Wide screen.width cells)
    (hfits : screen.Fits (cells.map .put)) :
    Printed cells screen (screen.play (cells.map .put)) := by
  induction cells generalizing screen with
  | nil => exact ⟨h, rfl, trivial, fun _ _ => rfl⟩
  | cons cell cells ih =>
    have hcell : 0 < cell.columns screen.width := hwide cell List.mem_cons_self
    obtain ⟨hinside, hlinear⟩ := linear_put h hfits.1
    have hwidth : (screen.obey (.put cell)).width = screen.width := (screen.obey_frame _).2.1
    have hrest : Printed cells (screen.obey (.put cell))
        ((screen.obey (.put cell)).play (cells.map .put)) := by
      refine ih hinside ?_ hfits.2
      rw [hwidth]
      exact fun c hc => hwide c (List.mem_cons_of_mem _ hc)
    have hslot := slot_put h (isEmpty_of_wide hcell)
    obtain ⟨hlast, hend, hshows, hothers⟩ := hrest
    rw [hwidth, hlinear] at hend hshows hothers
    change Printed (cell :: cells) screen ((screen.obey (.put cell)).play (cells.map .put))
    refine ⟨hlast, ?_, ⟨?_, hshows⟩, fun n hn => ?_⟩
    · rw [hend, columnsOf, Nat.add_assoc]
    · rw [hothers _ (by omega), hslot, if_pos rfl]
    · rw [columnsOf] at hn
      rw [hothers n (by omega), hslot, if_neg (by omega)]

theorem slots_printOps (h : screen.Inside) (hcell : 0 < cell.columns screen.width)
    (hfits : screen.Fits (screen.printOps cell)) :
    (screen.play (screen.printOps cell)).slot screen.linear = cell ∧
      ∀ n ≠ screen.linear, (screen.play (screen.printOps cell)).slot n = screen.slot n ∨
        screen.linear < n ∧ (screen.play (screen.printOps cell)).slot n = Cell.space := by
  obtain ⟨⟨-, hput, -⟩, hedge⟩ := (fits_append _ _ _).mp hfits
  obtain ⟨hinside, hlinear⟩ := linear_printed h hput
  have hslot : ∀ n, (screen.play [.hideCursor, .put cell]).slot n =
      if n = screen.linear then cell else screen.slot n :=
    slot_put (show (screen.obey .hideCursor).Inside from h) (isEmpty_of_wide hcell)
  rw [printOps, play_append]
  generalize screen.play [.hideCursor, .put cell] = middle at hinside hlinear hslot hedge ⊢
  split
  · have hfiller : ∀ n, (middle.play [.put Cell.space, .moveLeft]).slot n =
        if n = middle.linear then Cell.space else middle.slot n :=
      slot_put hinside (by decide +kernel)
    refine ⟨?_, fun n hn => ?_⟩
    · rw [hfiller, if_neg (by omega), hslot, if_pos rfl]
    · rw [hfiller]
      by_cases hplace : n = middle.linear
      · rw [if_pos hplace]
        exact .inr ⟨by omega, rfl⟩
      · rw [if_neg hplace, hslot, if_neg hn]
        exact .inl rfl
  · refine ⟨?_, fun n hn => .inl ?_⟩
    · exact (hslot _).trans (if_pos rfl)
    · exact (hslot n).trans (if_neg hn)

/-- Nothing but the end of the cells is blanked by an insertion. -/
theorem slots_insertOps (h : screen.Inside) (hspace : screen.width ' ' = 1)
    (hwide : Wide screen.width (cell :: cells))
    (hfits : screen.Fits (screen.insertOps cell cells)) :
    Shows (screen.play (screen.insertOps cell cells)).slot screen.width screen.linear
        (cell :: cells) ∧
      (∀ n < screen.linear,
        (screen.play (screen.insertOps cell cells)).slot n = screen.slot n) ∧
      ∀ n, screen.linear + columnsOf screen.width (cell :: cells) ≤ n →
        (screen.play (screen.insertOps cell cells)).slot n = screen.slot n ∨
          (screen.play (screen.insertOps cell cells)).slot n = Cell.space := by
  have hcell : 0 < cell.columns screen.width := hwide cell List.mem_cons_self
  rw [insertOps, List.append_assoc, fits_append, fits_append] at hfits
  obtain ⟨hprint, hputs, -⟩ := hfits
  obtain ⟨hinside, hlinear⟩ := linear_printOps h hspace hprint
  obtain ⟨hat, hothers⟩ := slots_printOps h hcell hprint
  have hprinted : Printed cells (screen.play (screen.printOps cell))
      ((screen.play (screen.printOps cell)).play (cells.map .put)) := by
    refine printed_puts hinside ?_ hputs
    rw [width_play]
    exact fun c hc => hwide c (List.mem_cons_of_mem _ hc)
  obtain ⟨-, -, hshows, hkept⟩ := hprinted
  rw [hlinear, width_play] at hshows hkept
  rw [insertOps, play_append, slot_movements (by simp [Op.isMovement]), play_append]
  refine ⟨⟨?_, hshows⟩, fun n hn => ?_, fun n hn => ?_⟩
  · rw [hkept _ (by omega)]
    exact hat
  · rw [hkept n (by omega)]
    exact (hothers n (by omega)).resolve_right fun hbehind => by omega
  · rw [columnsOf] at hn
    rw [hkept n (by omega)]
    exact (hothers n (by omega)).imp_right And.right

/-- An erasure blanks the columns that the erased cell has left behind the others. -/
theorem slots_backspaceOps (h : screen.Inside) (hspace : screen.width ' ' = 1)
    (hcell : 0 < cell.columns screen.width) (hwide : Wide screen.width cells) {place : Nat}
    (hplace : place + cell.columns screen.width = screen.linear)
    (hfits : screen.Fits (screen.backspaceOps cell cells)) :
    Shows (screen.play (screen.backspaceOps cell cells)).slot screen.width place cells ∧
      (∀ n < place, (screen.play (screen.backspaceOps cell cells)).slot n = screen.slot n) ∧
      ∀ n, place + columnsOf screen.width cells ≤ n →
        (screen.play (screen.backspaceOps cell cells)).slot n = Cell.space ∨
          screen.linear + columnsOf screen.width cells ≤ n ∧
            (screen.play (screen.backspaceOps cell cells)).slot n = screen.slot n := by
  rw [backspaceOps, fits_append, fits_append, fits_append] at hfits
  obtain ⟨⟨⟨-, hputs⟩, hblanks⟩, -⟩ := hfits
  obtain ⟨hinside, hlinear⟩ := linear_returnOps h (show cell.columns screen.width ≤ _ by omega)
  have hreturned : (screen.play (screen.returnOps cell)).slot = screen.slot := by
    refine slot_movements fun op hop => ?_
    rcases List.mem_cons.mp hop with rfl | hleft
    · rfl
    · rw [List.eq_of_mem_replicate hleft]
      rfl
  have hwidth := screen.width_play (screen.returnOps cell)
  rw [backspaceOps, play_append, slot_movements (by simp [Op.isMovement]), play_append, play_append]
  rw [play_append] at hblanks
  generalize screen.play (screen.returnOps cell) = middle at *
  obtain ⟨hinside', hlinear', hshows, hothers⟩ := printed_puts hinside (by rwa [hwidth]) hputs
  have hwidth' : (middle.play (cells.map .put)).width = screen.width := by rw [width_play, hwidth]
  generalize middle.play (cells.map .put) = drawn at *
  have hblank : Wide drawn.width (List.replicate (max (cell.columns screen.width) 1) Cell.space) := by
    intro c hc
    rw [List.eq_of_mem_replicate hc, columns_space, hwidth', hspace]
    exact Nat.one_pos
  rw [← List.map_replicate] at hblanks ⊢
  obtain ⟨-, -, hspaces, hkept⟩ := printed_puts hinside' hblank hblanks
  rw [hwidth', columnsOf_spaces hspace] at hkept
  rw [hwidth'] at hspaces
  rw [hwidth] at hlinear' hshows hothers
  have hmax : max (cell.columns screen.width) 1 = cell.columns screen.width := Nat.max_eq_left hcell
  rw [hmax] at hspaces hkept ⊢
  have hstart : middle.linear = place := by omega
  rw [hstart] at hlinear' hshows hothers
  refine ⟨?_, fun n hn => ?_, fun n hn => ?_⟩
  · exact hshows.congr hwide fun n hle hlt => hkept n (by omega)
  · rw [hkept n (by omega), hothers n (by omega), hreturned]
  · by_cases hbehind : n < drawn.linear + cell.columns screen.width
    · exact .inl (hspaces.space hspace (by omega) hbehind)
    · refine .inr ⟨by omega, ?_⟩
      rw [hkept n (by omega), hothers n (by omega), hreturned]

/-! ## Keys -/

/-- Nothing to be seen: the empty cell or a blank. -/
def Blank (cell : Cell) : Prop := cell = Cell.empty ∨ cell = Cell.space

/-- The cursor is where the caret is, the cells of the line stand from `start` on, blanks behind them,
and `before` in front of them. -/
structure Mirrors (start : Nat) (before : Nat → Cell) (editor : Editor) (screen : Screen) : Prop where
  follows : screen.Follows start editor
  shows : Shows screen.slot screen.width start editor.cells
  behind : ∀ n, start + columnsOf screen.width editor.cells ≤ n → Blank (screen.slot n)
  front : ∀ n < start, screen.slot n = before n

variable {start : Nat} {before : Nat → Cell} {editor : Editor} {key : Key} {keys : List Key}

/-- Moving the caret moves no cell. -/
theorem Mirrors.moved (h : screen.Mirrors start before editor) {after : Editor} {ops : List Op}
    (hcells : after.cells = editor.cells) (hops : ∀ op ∈ ops, op.isMovement = true)
    (hfollows : (screen.play ops).Follows start after) :
    (screen.play ops).Mirrors start before after := by
  have hslot : (screen.play ops).slot = screen.slot := slot_movements hops
  refine ⟨hfollows, ?_, ?_, ?_⟩
  · rw [hslot, width_play, hcells]
    exact h.shows
  · rw [hslot, width_play, hcells]
    exact h.behind
  · rw [hslot]
    exact h.front

theorem Mirrors.insert (h : screen.Mirrors start before editor) (hspace : screen.width ' ' = 1)
    (hwide : Wide screen.width (editor.insert cell).cells)
    (hfits : screen.Fits (screen.insertOps cell (editor.cells.drop editor.cursor)))
    (hfollows : (screen.play (screen.insertOps cell (editor.cells.drop editor.cursor))).Follows start
      (editor.insert cell)) :
    (screen.play (screen.insertOps cell (editor.cells.drop editor.cursor))).Mirrors start before
      (editor.insert cell) := by
  obtain ⟨hinside, hlinear⟩ := h.follows
  have hcells : (editor.insert cell).cells =
      editor.cells.take editor.cursor ++ cell :: editor.cells.drop editor.cursor := rfl
  have hline := List.take_append_drop editor.cursor editor.cells
  have hshows := h.shows
  have hbehind := h.behind
  rw [← hline, shows_append] at hshows
  rw [← hline, columnsOf_append] at hbehind
  rw [hcells] at hwide
  obtain ⟨hdrawn, hfront, hend⟩ := slots_insertOps hinside hspace
    (fun c hc => hwide c (List.mem_append_right _ hc)) hfits
  refine ⟨hfollows, ?_, fun n hn => ?_, fun n hn => ?_⟩
  · rw [hcells, width_play, shows_append, ← hlinear]
    refine ⟨hshows.1.congr (fun c hc => hwide c (List.mem_append_left _ hc)) fun n _ hlt => ?_, hdrawn⟩
    exact hfront n (by omega)
  · rw [hcells, width_play, columnsOf_append] at hn
    rcases hend n (by omega) with hsame | hblank
    · rw [hsame]
      rw [columnsOf] at hn
      exact hbehind n (by omega)
    · exact .inr hblank
  · rw [hfront n (by omega)]
    exact h.front n hn

theorem Mirrors.backspace (h : screen.Mirrors start before editor) (hspace : screen.width ' ' = 1)
    (hwide : Wide screen.width editor.cells) (hpos : 0 < editor.cursor)
    (hfits : screen.Fits (screen.backspaceOps (editor.cells.getD (editor.cursor - 1) Cell.empty)
      (editor.cells.drop editor.cursor)))
    (hfollows : (screen.play (screen.backspaceOps (editor.cells.getD (editor.cursor - 1) Cell.empty)
      (editor.cells.drop editor.cursor))).Follows start editor.backspace) :
    (screen.play (screen.backspaceOps (editor.cells.getD (editor.cursor - 1) Cell.empty)
      (editor.cells.drop editor.cursor))).Mirrors start before editor.backspace := by
  obtain ⟨hinside, hlinear⟩ := h.follows
  have hcells : editor.backspace.cells =
      editor.cells.take (editor.cursor - 1) ++ editor.cells.drop editor.cursor := rfl
  have hline := Editor.cells_eq_of_pos hpos
  have hfront := columnsOf_front screen.width hpos
  have hshows := h.shows
  have hbehind := h.behind
  generalize editor.cells.getD (editor.cursor - 1) Cell.empty = erased at *
  rw [hline] at hshows hwide
  rw [hline, columnsOf_append, columnsOf] at hbehind
  rw [shows_append] at hshows
  have herased : 0 < erased.columns screen.width :=
    hwide erased (List.mem_append_right _ List.mem_cons_self)
  obtain ⟨hdrawn, hkept, hend⟩ := slots_backspaceOps hinside hspace herased
    (fun c hc => hwide c (List.mem_append_right _ (List.mem_cons_of_mem _ hc)))
    (show start + columnsOf screen.width (editor.cells.take (editor.cursor - 1)) +
      erased.columns screen.width = screen.linear by omega) hfits
  refine ⟨hfollows, ?_, fun n hn => ?_, fun n hn => ?_⟩
  · rw [hcells, width_play, shows_append]
    refine ⟨hshows.1.congr (fun c hc => hwide c (List.mem_append_left _ hc)) fun n _ hlt => ?_, hdrawn⟩
    exact hkept n hlt
  · rw [hcells, width_play, columnsOf_append] at hn
    rcases hend n (by omega) with hblank | ⟨hle, hsame⟩
    · exact .inr hblank
    · rw [hsame]
      exact hbehind n (by omega)
  · rw [hkept n (by omega)]
    exact h.front n hn

/-- **A key keeps the screen showing the line**, if its operations fit and every cell takes a column. -/
theorem Mirrors.press (h : screen.Mirrors start before editor) (hspace : screen.width ' ' = 1)
    (hwide : Wide screen.width editor.cells) (hwide' : Wide screen.width (editor.press key).cells)
    (hfits : screen.Fits (screen.keyOps editor key)) :
    (screen.play (screen.keyOps editor key)).Mirrors start before (editor.press key) := by
  have hfollows := h.follows.press hspace hfits
  have hstep := screen.keyStep editor key
  generalize screen.keyOps editor key = ops, editor.press key = after at *
  cases hstep with
  | idle hcells _ => exact h.moved hcells (fun _ hop => nomatch hop) hfollows
  | insert _ => exact h.insert hspace hwide' hfits hfollows
  | backspace hpos => exact h.backspace hspace hwide hpos hfits hfollows
  | right _ => exact h.moved rfl (fun _ hop => by rw [List.eq_of_mem_replicate hop]; rfl) hfollows
  | left _ => exact h.moved rfl (fun _ hop => by rw [List.eq_of_mem_replicate hop]; rfl) hfollows

/-- **Keys keep the screen showing the line.** -/
theorem Mirrors.pressAll (h : screen.Mirrors start before editor) (hspace : screen.width ' ' = 1)
    (hwide : Wide screen.width editor.cells)
    (hkeys : ∀ cell, .printable cell ∈ keys → cell.isInsertable = true →
      0 < cell.columns screen.width)
    (hfits : screen.Fits (screen.keysOps editor keys)) :
    (screen.play (screen.keysOps editor keys)).Mirrors start before (editor.pressAll keys) := by
  induction keys generalizing screen editor with
  | nil => exact h
  | cons key keys ih =>
    obtain ⟨hkey, hrest⟩ := (fits_append _ _ _).mp hfits
    have hwide' : Wide screen.width (editor.press key).cells := by
      intro cell hcell
      rcases Editor.mem_press hcell with hmem | ⟨rfl, hinsertable⟩
      · exact hwide cell hmem
      · exact hkeys cell List.mem_cons_self hinsertable
    rw [keysOps, play_append]
    refine ih (h.press hspace hwide hwide' hkey) ?_ ?_ ?_ hrest
    · rw [width_play, hspace]
    · rw [width_play]
      exact hwide'
    · rw [width_play]
      exact fun cell hcell => hkeys cell (List.mem_cons_of_mem _ hcell)

theorem visible_rows {ops : List Op} (h : ∀ op ∈ ops, op = .moveLeft ∨ op = .moveRight) :
    (screen.play ops).visible = screen.visible := by
  refine visible_play fun op hop screen => ?_
  rcases h op hop with rfl | rfl <;> rfl

/-- Every edit ends by showing the cursor. -/
theorem visible_keyOps (h : screen.visible = true) (editor : Editor) (key : Key) :
    (screen.play (screen.keyOps editor key)).visible = true := by
  have hstep := screen.keyStep editor key
  generalize screen.keyOps editor key = ops, editor.press key = after at *
  cases hstep with
  | idle _ _ => exact h
  | insert _ =>
    rw [insertOps, play_append]
    rfl
  | backspace _ =>
    rw [backspaceOps, play_append]
    rfl
  | right _ =>
    rw [visible_rows fun op hop => .inr (List.eq_of_mem_replicate hop)]
    exact h
  | left _ =>
    rw [visible_rows fun op hop => .inl (List.eq_of_mem_replicate hop)]
    exact h

theorem visible_keysOps (h : screen.visible = true) (editor : Editor) (keys : List Key) :
    (screen.play (screen.keysOps editor keys)).visible = true := by
  induction keys generalizing screen editor with
  | nil => exact h
  | cons key keys ih =>
    rw [keysOps, play_append]
    exact ih (visible_keyOps h editor key) _

/-! ## Sessions -/

theorem blank_of_grid_nil (h : screen.grid = #[]) (place : Nat) : Blank (screen.slot place) := by
  rw [slot, h]
  exact .inl rfl

/-- **The screen shows the line.**  Let a line start anywhere on a screen with nothing behind the
start, and let the blank take exactly one column, as in `Text.width`.  After any keys for which the
line has room, whose characters all take columns, if no column and no row was cut off on the way,
each cell stands as many places behind the start as the cells in front of it take columns; all places
behind the line are blank, those in front of the start hold what they held, and a cursor that was
visible is visible. -/
theorem screen_mirrors_line (screen : Screen)
    (hinside : screen.cursor.column < screen.size.columns) (hspace : screen.width ' ' = 1)
    (hblank : ∀ place, screen.cursor.linear screen.size.columns ≤ place → Blank (screen.slot place))
    (settings : Settings) (memory : Memory) (keys : List Key)
    (hroom : Session.RoomFor (Session.supplyOf settings memory) Editor.blank keys)
    (hkeys : ∀ cell, .printable cell ∈ keys → cell.isInsertable = true →
      1 ≤ cell.columns screen.width) :
    ∃ session after next, Session.create screen settings memory = .ok session after ∧
      Session.takeKeys screen.width keys session = .ok () next ∧
      (screen.Fits (next.terminal.opsSince screen) →
        (∀ index (h : index < next.line.cells.length),
          next.terminal.slot (screen.cursor.linear screen.size.columns +
            columnsOf screen.width (next.line.cells.take index)) = next.line.cells[index]) ∧
        (∀ place, screen.cursor.linear screen.size.columns +
            columnsOf screen.width next.line.cells ≤ place → Blank (next.terminal.slot place)) ∧
        ∀ place < screen.cursor.linear screen.size.columns,
          next.terminal.slot place = screen.slot place) ∧
      (screen.visible = true → next.terminal.visible = true) := by
  obtain ⟨session, after, next, count, hcreate, hrun, hedits, hterminal⟩ :=
    takeKeys_on_screen screen hroom
  have hslot : next.terminal.slot = (screen.play (screen.keysOps Editor.blank keys)).slot := by
    rw [hterminal]
    rfl
  refine ⟨session, after, next, hcreate, hrun, ?_⟩
  rw [hslot]
  constructor
  · intro hfits
    rw [hterminal, opsSince_play] at hfits
    have hstart : screen.Mirrors screen.linear screen.slot Editor.blank :=
      ⟨follows_blank hinside, trivial, hblank, fun _ _ => rfl⟩
    obtain ⟨-, hshows, hbehind, hfront⟩ :=
      hstart.pressAll hspace (fun _ hcell => nomatch hcell) hkeys hfits
    rw [width_play] at hshows hbehind
    have hcells : next.line.cells = (Editor.typed keys).cells := hedits.line.cells_eq
    rw [← Editor.typed, ← hcells] at hshows hbehind
    exact ⟨fun index h => hshows.get h, hbehind, hfront⟩
  · intro hvisible
    rw [hterminal]
    exact visible_keysOps hvisible Editor.blank keys

theorem screen_mirrors_line_over_edge :
    ∃ session after next, Session.create { size := ⟨3, 2⟩, cursor := ⟨1, 0⟩ : Screen } {}
        Memory.machine = .ok session after ∧
      Session.takeKeys Text.width [Key.ofChar 'a', Key.ofChar '中', Key.ofChar 'b', .control .left,
        .control .left, Key.ofChar 'c', .control .backspace, Key.ofChar 'd'] session = .ok () next ∧
      next.terminal.slot 1 = Cell.ofChar 'a' ∧ next.terminal.slot 2 = Cell.ofChar 'd' ∧
      next.terminal.slot 3 = Cell.ofChar '中' ∧ next.terminal.slot 5 = Cell.ofChar 'b' ∧
      Blank (next.terminal.slot 6) ∧ next.terminal.slot 0 = Cell.empty ∧
      next.terminal.visible = true := by
  have hroom : Session.RoomFor (Session.supplyOf {} Memory.machine) Editor.blank [Key.ofChar 'a',
      Key.ofChar '中', Key.ofChar 'b', .control .left, .control .left, Key.ofChar 'c',
      .control .backspace, Key.ofChar 'd'] :=
    Session.roomFor_of_length ⟨0, by decide, by decide, by decide, fun request _ hbytes =>
      Line.machine_grants (Nat.le_trans hbytes (by decide)) request⟩
  obtain ⟨session, after, next, hcreate, hrun, hscreen, hvisible⟩ :=
    screen_mirrors_line { size := ⟨3, 2⟩, cursor := ⟨1, 0⟩ } (by decide) (by decide +kernel)
      (fun place _ => blank_of_grid_nil rfl place) {} Memory.machine _ hroom (by
        intro cell hcell _
        simp only [List.mem_cons, Key.ofChar, Key.printable.injEq, reduceCtorEq, List.not_mem_nil,
          or_false, false_or] at hcell
        rcases hcell with rfl | rfl | rfl | rfl | rfl <;> decide +kernel)
  obtain ⟨count, hedits, hterminal⟩ := edits_of_takeKeys hroom hcreate hrun
  have hcells : next.line.cells = "ad中b".toList.map Cell.ofChar :=
    hedits.line.cells_eq.trans (by decide +kernel)
  obtain ⟨hindex, hbehind, hfront⟩ :=
    hscreen (by rw [hterminal, opsSince_play]; decide +kernel)
  simp only [hcells] at hindex hbehind
  have hshown (index : Fin 4) {place : Nat} (hplace : 1 + columnsOf Text.width
      (("ad中b".toList.map Cell.ofChar).take index) = place) :
      next.terminal.slot place = ("ad中b".toList.map Cell.ofChar)[index] := by
    rw [← hplace]
    exact hindex index index.isLt
  exact ⟨session, after, next, hcreate, hrun, hshown 0 (by decide +kernel),
    hshown 1 (by decide +kernel), hshown 2 (by decide +kernel), hshown 3 (by decide +kernel),
    hbehind 6 (by decide +kernel), hfront 0 (by decide), hvisible rfl⟩

end LineEditor.Screen
