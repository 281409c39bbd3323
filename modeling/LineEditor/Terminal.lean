import LineEditor.Action
import LineEditor.Cell
import LineEditor.Terminal.Position

/-!
# Terminals

What the editor asks of a terminal.  Only the terminal knows where the cursor is: whoever needs the
place asks for it again.  A terminal remembers its latest failure.
-/

set_option autoImplicit false

namespace LineEditor

/-- A terminal that the editor can draw on. -/
class Terminal (τ : Type) where
  /-- Is the terminal usable, with no failure remembered? -/
  isOk : τ → Bool
  /-- The latest failure that the terminal remembers. -/
  lastFailure : τ → Option Failure
  /-- Ask for the number of columns and rows. -/
  size : Action τ Size
  /-- Ask for the number of columns. -/
  columns : Action τ Nat := do return (← size).columns
  /-- Ask where the cursor is. -/
  cursor : Action τ Position
  /-- Put the cursor somewhere; a column past the right edge means a place in the rows below. -/
  setCursor : Position → Action τ Unit
  /-- Print the character of a cell and go on behind it. -/
  put : Cell → Action τ Unit
  /-- Go one column to the left, from the first column to the end of the row above. -/
  moveLeft : Action τ Unit
  /-- Go one column to the right, from the last column to the start of the row below. -/
  moveRight : Action τ Unit
  /-- Go down a number of rows. -/
  moveDown : Nat → Action τ Unit
  /-- Go up a number of rows. -/
  moveUp : Nat → Action τ Unit
  /-- Go to a column of the same row. -/
  moveToColumn : Nat → Action τ Unit
  showCursor : Action τ Unit
  hideCursor : Action τ Unit
  /-- Hand out every key at once and print none of them. -/
  enterRawMode : Action τ Unit
  /-- Go back to the mode that `enterRawMode` left. -/
  leaveRawMode : Action τ Unit
  /-- Send on whatever output still waits. -/
  flush : Action τ Unit := pure ()

end LineEditor
