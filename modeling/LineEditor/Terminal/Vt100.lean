import LineEditor.Terminal
import LineEditor.Terminal.Sequence

/-!
# VT100 terminals

A VT100 terminal is drawn on by writing: characters, movements and the visibility of the cursor are
sequences on an output.  Its size, the place of the cursor, absolute positioning and the raw mode
are matters of the system.  A `Console` is both, the output and the system behind it.

* `Vt100 δ` — the terminal over a console.  It flushes the output before every question that the
  answer depends on, makes at most one write in each operation, and remembers every failure.
-/

set_option autoImplicit false

namespace LineEditor

/-! ## Consoles -/

/-- An output for text, and the terminal device that it leads to. -/
class Console (δ : Type) where
  /-- Write a text that is not empty, all of it or nothing. -/
  write : String → EStateM IoFault δ Unit
  /-- Send everything written on to the device. -/
  flush : EStateM IoFault δ Unit
  /-- Ask for the number of columns and rows. -/
  size : Action δ Size
  /-- Ask where the cursor is. -/
  cursor : Action δ Position
  /-- Put the cursor at a place on the terminal. -/
  moveTo : Position → Action δ Unit
  /-- Switch to raw input. -/
  enableRawMode : Action δ Unit
  /-- Go back to the input mode from before. -/
  disableRawMode : Action δ Unit

/-! ## The terminal -/

/-- A VT100 terminal over a console. -/
structure Vt100 (δ : Type) where
  console : δ
  lastFailure : Option Failure := none

namespace Vt100

variable {δ : Type} [Console δ]

/-- Forget the failure that the terminal remembers. -/
def clearFailure (terminal : Vt100 δ) : Vt100 δ := { terminal with lastFailure := none }

/-- Ask the console, and remember a failure. -/
def request {α : Type} (step : Action δ α) : Action (Vt100 δ) α := fun terminal =>
  match step terminal.console with
  | .ok value console => .ok value { terminal with console }
  | .error failure console => .error failure { console, lastFailure := some failure }

/-- Use the output; a fault of it is a failure that says what was tried. -/
def output (attempt : String) (step : EStateM IoFault δ Unit) : Action δ Unit := fun console =>
  match step console with
  | .ok () console => .ok () console
  | .error fault console =>
    .error { category := .io, code := "WRITE_FAILED", message := attempt ++ " failed: " ++ fault.text }
      console

/-- Write a text; an empty one needs no write. -/
def emit (text : String) : Action (Vt100 δ) Unit :=
  if text.isEmpty then pure () else request (output "Write" (Console.write text))

/-- Send everything written on to the device. -/
def flush : Action (Vt100 δ) Unit := request (output "Flush" Console.flush)

/-- Ask for the number of columns and rows. -/
def size : Action (Vt100 δ) Size := request Console.size

/-- Ask for the number of columns. -/
def columns : Action (Vt100 δ) Nat := do
  return (← size).columns

/-- Ask where the cursor is, once the output has reached the device. -/
def cursor : Action (Vt100 δ) Position := do
  flush
  request Console.cursor

/-- Put the cursor somewhere, once the output has reached the device. -/
def setCursor (position : Position) : Action (Vt100 δ) Unit := do
  let columns ← columns
  flush
  request (Console.moveTo (position.wrap columns))

/-- Print the character of a cell. -/
def put (cell : Cell) : Action (Vt100 δ) Unit := emit cell.text

/-- Go one column to the left, from the first column to the end of the row above. -/
def moveLeft : Action (Vt100 δ) Unit := do
  let position ← cursor
  if position.column ≠ 0 then
    emit Sequence.left
  else
    let columns ← columns
    emit (Sequence.wrapLeft columns)

/-- Go one column to the right, from the last column to the start of the row below. -/
def moveRight : Action (Vt100 δ) Unit := do
  let columns ← columns
  let position ← cursor
  if min (position.column + 1) Position.largest ≠ columns then
    emit Sequence.right
  else
    emit Sequence.wrapRight

/-- Let the cursor appear, at once. -/
def showCursor : Action (Vt100 δ) Unit := do
  emit Sequence.showCursor
  flush

/-- Switch to raw input, once the output has reached the device. -/
def enterRawMode : Action (Vt100 δ) Unit := do
  flush
  request Console.enableRawMode

/-- Go back to the input mode from before, once the output has reached the device. -/
def leaveRawMode : Action (Vt100 δ) Unit := do
  flush
  request Console.disableRawMode

instance : Terminal (Vt100 δ) where
  isOk terminal := terminal.lastFailure.isNone
  lastFailure := lastFailure
  size := size
  cursor := cursor
  setCursor := setCursor
  put := put
  moveLeft := moveLeft
  moveRight := moveRight
  moveDown count := emit (Sequence.down count)
  moveUp count := emit (Sequence.up count)
  moveToColumn column := emit (Sequence.toColumn column)
  showCursor := showCursor
  hideCursor := emit Sequence.hideCursor
  enterRawMode := enterRawMode
  leaveRawMode := leaveRawMode
  flush := flush

end Vt100

end LineEditor
