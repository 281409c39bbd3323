import LineEditor.Terminal
import LineEditor.Text.Width

/-!
# A screen that records

A `Screen` is a terminal kept in memory: a grid of cells, a cursor, and a record of the operations
made.  A character that is put is stored at the cursor, and the cursor goes on by the width of the
character and past the right edge at once to the row below.

* `Screen.ops` — the operations, as they were asked for.
* `Screen.rowText` — what a row shows.
* The width of characters is a field, so that laws can be stated for every measure.
-/

set_option autoImplicit false

namespace LineEditor

/-- An operation on a screen. -/
inductive Screen.Op where
  | put (cell : Cell)
  | moveLeft
  | moveRight
  | moveDown (count : Nat)
  | moveUp (count : Nat)
  | moveToColumn (column : Nat)
  | setCursor (position : Position)
  | showCursor
  | hideCursor
  | enterRaw
  | leaveRaw
  deriving DecidableEq, Repr

/-- A terminal in memory. -/
structure Screen where
  size : Size
  cursor : Position := Position.origin
  /-- the rows written so far, each of them as wide as the screen -/
  grid : Array (Array Cell) := #[]
  /-- the operations, the latest first -/
  log : List Screen.Op := []
  /-- how often the place of the cursor was asked for -/
  queries : Nat := 0
  visible : Bool := true
  raw : Bool := false
  /-- does entering raw mode fail? -/
  refusesRaw : Bool := false
  lastFailure : Option Failure := none
  /-- the columns that characters take -/
  width : Char → Nat := Text.width

namespace Screen

/-! ## Views -/

/-- The operations made, in order. -/
def ops (screen : Screen) : List Op := screen.log.reverse

/-- Is the operation anything but the putting of a cell? -/
def Op.isMovement : Op → Bool
  | .put _ => false
  | _ => true

/-- The operations made apart from the cells put, in order. -/
def movements (screen : Screen) : List Op := screen.ops.filter Op.isMovement

/-- The text of a row, a blank for every cell without a character, and no blanks at its end. -/
def rowText (screen : Screen) (row : Nat) : String :=
  let cells := (screen.grid.getD row #[]).toList
  Text.trimRight (String.ofList (cells.map fun cell => cell.char?.getD ' '))

/-- The texts of all rows written so far. -/
def rowTexts (screen : Screen) : List String :=
  (List.range screen.grid.size).map screen.rowText

/-- Forget the operations and the questions. -/
def forget (screen : Screen) : Screen := { screen with log := [], queries := 0 }

/-! ## Operations -/

/-- The grid with at least `rows` rows, the new ones without cells. -/
def extend (grid : Array (Array Cell)) (rows : Nat) : Array (Array Cell) :=
  grid ++ Array.replicate (rows - grid.size) #[]

/-- A row with at least `columns` cells, the new ones empty. -/
def widen (row : Array Cell) (columns : Nat) : Array Cell :=
  row ++ Array.replicate (columns - row.size) Cell.empty

/-- The grid with `cell` stored at the cursor, if the cursor is inside the row. -/
def stored (screen : Screen) (cell : Cell) : Array (Array Cell) :=
  (extend screen.grid (screen.cursor.row + 1)).modify screen.cursor.row fun row =>
    (widen row screen.size.columns).setIfInBounds screen.cursor.column cell

/-- The cursor behind a cell that is put where it stands. -/
def advanced (screen : Screen) (cell : Cell) : Position :=
  Position.wrap
    ⟨min (screen.cursor.column + cell.columns screen.width) Position.largest, screen.cursor.row⟩
    screen.size.columns

/-- The screen with `cell` written at the cursor. -/
def write (screen : Screen) (cell : Cell) : Screen :=
  { screen with grid := screen.stored cell, cursor := screen.advanced cell }

/-- The place to the left of the cursor. -/
def leftOf (screen : Screen) : Position :=
  if screen.cursor.column ≠ 0 then ⟨screen.cursor.column - 1, screen.cursor.row⟩
  else ⟨screen.size.columns - 1, screen.cursor.row - 1⟩

/-- The place to the right of the cursor. -/
def rightOf (screen : Screen) : Position :=
  if screen.cursor.column + 1 ≠ screen.size.columns then
    ⟨screen.cursor.column + 1, screen.cursor.row⟩
  else ⟨0, screen.cursor.row + 1⟩

/-- Write an operation down and carry it out. -/
def perform (op : Op) (change : Screen → Screen) : Action Screen Unit := fun screen =>
  .ok () (change { screen with log := op :: screen.log })

/-- What a screen says that does not enter raw mode. -/
def rawRefused : Failure where
  category := .mode
  code := "RAW_MODE_FAILED"
  message := "Couldn't set the raw console mode"

instance : Terminal Screen where
  isOk screen := screen.lastFailure.isNone
  lastFailure := lastFailure
  size screen := .ok screen.size screen
  cursor screen := .ok screen.cursor { screen with queries := screen.queries + 1 }
  setCursor position := perform (.setCursor position) fun screen =>
    { screen with cursor := position.wrap screen.size.columns }
  put cell := perform (.put cell) fun screen => if cell.isEmpty then screen else screen.write cell
  moveLeft := perform .moveLeft fun screen => { screen with cursor := screen.leftOf }
  moveRight := perform .moveRight fun screen => { screen with cursor := screen.rightOf }
  moveDown count := perform (.moveDown count) fun screen =>
    { screen with cursor := ⟨screen.cursor.column, screen.cursor.row + count⟩ }
  moveUp count := perform (.moveUp count) fun screen =>
    { screen with cursor := ⟨screen.cursor.column, screen.cursor.row - count⟩ }
  moveToColumn column := perform (.moveToColumn column) fun screen =>
    { screen with cursor := ⟨column, screen.cursor.row⟩ }
  showCursor := perform .showCursor fun screen => { screen with visible := true }
  hideCursor := perform .hideCursor fun screen => { screen with visible := false }
  enterRawMode screen :=
    if screen.refusesRaw then
      .error rawRefused { screen with lastFailure := some rawRefused }
    else perform .enterRaw (fun screen => { screen with raw := true }) screen
  leaveRawMode := perform .leaveRaw fun screen => { screen with raw := false }

end Screen

end LineEditor
