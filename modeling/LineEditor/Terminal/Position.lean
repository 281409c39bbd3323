/-!
# Positions on a terminal

Columns and rows are counted from zero and never pass `largest`.  `Position.wrap` folds a column
past the right edge onto the rows below; `wrap_wrap` — once is enough; `wrap_divides` — that is a
division.
-/

set_option autoImplicit false

namespace LineEditor

/-- The columns and rows of a terminal. -/
structure Size where
  columns : Nat
  rows : Nat
  deriving DecidableEq, Repr

/-- A place on a terminal. -/
structure Position where
  column : Nat
  row : Nat
  deriving DecidableEq, Repr, Inhabited

namespace Position

/-- The largest column and the largest row. -/
def largest : Nat := 65535

/-- The top left corner. -/
def origin : Position := ⟨0, 0⟩

/-- Take a full row off the column for as long as there is one, and go down a row each time; in the
last row the way down ends. -/
def wrap (position : Position) (columns : Nat) : Position :=
  if 0 < columns ∧ columns ≤ position.column then
    wrap ⟨position.column - columns, min (position.row + 1) largest⟩ columns
  else position
termination_by position.column
decreasing_by omega

variable {position : Position} {columns : Nat}

theorem wrap_zero : position.wrap 0 = position := by
  rw [wrap, if_neg (by omega)]

theorem wrap_of_lt (h : position.column < columns) : position.wrap columns = position := by
  rw [wrap, if_neg (by omega)]

theorem wrap_of_le (hcolumns : 0 < columns) (h : columns ≤ position.column) :
    position.wrap columns =
      wrap ⟨position.column - columns, min (position.row + 1) largest⟩ columns := by
  rw [wrap, if_pos ⟨hcolumns, h⟩]

/-- A folded column is in its row. -/
theorem column_wrap_lt (hcolumns : 0 < columns) : (position.wrap columns).column < columns := by
  induction position using wrap.induct columns with
  | case1 position hfold ih =>
    rw [wrap_of_le hcolumns hfold.2]
    exact ih
  | case2 position hrest =>
    have hcolumn : position.column < columns := by omega
    rw [wrap_of_lt hcolumn]
    exact hcolumn

/-- What is folded is not folded again. -/
theorem wrap_wrap : (position.wrap columns).wrap columns = position.wrap columns := by
  rcases Nat.eq_zero_or_pos columns with rfl | hcolumns
  · exact wrap_zero
  · exact wrap_of_lt (column_wrap_lt hcolumns)

/-- **Folding divides**: the remainder of the column stays, and the way down is as many rows as were
full, as far as there are rows. -/
theorem wrap_divides (hcolumns : 0 < columns) (hrow : position.row ≤ largest) :
    position.wrap columns =
      ⟨position.column % columns, min largest (position.row + position.column / columns)⟩ := by
  induction position using wrap.induct columns with
  | case1 position hfold ih =>
    have hdiv : position.column / columns = (position.column - columns) / columns + 1 :=
      Nat.div_eq_sub_div hcolumns hfold.2
    have hrows (rows : Nat) :
        min largest (min (position.row + 1) largest + rows) = min largest (position.row + (rows + 1)) := by
      clear ih
      omega
    have hnext := ih (Nat.min_le_right _ _)
    rw [wrap_of_le hcolumns hfold.2, hnext, hdiv, Nat.mod_eq_sub_mod hfold.2, hrows]
  | case2 position hfold =>
    have hcolumn : position.column < columns := by omega
    rw [wrap_of_lt hcolumn, Nat.mod_eq_of_lt hcolumn, Nat.div_eq_of_lt hcolumn, Nat.add_zero,
      Nat.min_eq_right hrow]

end Position

end LineEditor
