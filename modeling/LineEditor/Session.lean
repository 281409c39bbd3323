import LineEditor.Key
import LineEditor.Line
import LineEditor.Settings
import LineEditor.Terminal

/-!
# Editing one line

A `Session` edits one line on a terminal.  It asks the terminal for the place of the cursor whenever
an edit depends on it, changes the line, and draws again only what stands behind the edit.

* `Session.processKey` — what one key does.
* `Session.finish` — put the cursor behind the line, print a terminator, and hand out the text.
* `Session.run` — keys until Enter or the end of the input, then `finish`.

All operations keep the state that they had reached when a call failed.  Characters are measured by
a function `width`, which every operation takes.
-/

set_option autoImplicit false

namespace LineEditor

/-- How far a session has come. -/
inductive Session.Phase where
  /-- keys are taken -/
  | reading
  /-- Enter was pressed -/
  | terminating
  deriving DecidableEq, Repr

/-- The editing of one line on a terminal. -/
structure Session (τ : Type) where
  line : Line
  /-- the number of cells in front of the caret -/
  position : Nat := 0
  phase : Session.Phase := .reading
  terminal : τ

/-- What a finished session hands out. -/
structure Session.Outcome where
  /-- the text of the line, ended by a line feed -/
  line : String
  /-- the input ended before Enter was pressed -/
  endOfInput : Bool
  deriving DecidableEq, Repr

namespace Session

variable {τ : Type} [Terminal τ]

/-! ## Parts of a session -/

/-- Do something with the terminal. -/
def onTerminal {α : Type} (step : Action τ α) : Action (Session τ) α :=
  Action.within Session.terminal (fun session terminal => { session with terminal }) step

/-- Change the line. -/
def onLine {α : Type} (step : EStateM Line.Fault Line α) : Action (Session τ) α := fun session =>
  match step session.line with
  | .ok value line => .ok value { session with line }
  | .error fault line => .error fault.toFailure { session with line }

/-- Start a session with an empty line. -/
def create (terminal : τ) (settings : Settings) : Action Memory (Session τ) := fun memory =>
  match Line.create settings.initialCapacity settings.capacityLimit memory with
  | .ok line memory => .ok { line, terminal } memory
  | .error fault memory => .error fault.toFailure memory

/-- The cell at a place of the line. -/
def cellAt (session : Session τ) (index : Nat) : Cell := session.line.cells.getD index Cell.empty

/-- Put cells in order. -/
def putAll (cells : List Cell) : Action (Session τ) Unit :=
  Action.forEach (fun cell => onTerminal (Terminal.put cell)) cells

/-! ## Keys -/

section

variable (width : Char → Nat)

/-- Put a cell into the line in front of the caret. -/
def store (cell : Cell) : Action (Session τ) Unit := do
  let session ← get
  if session.line.size ≤ session.position then
    onLine (Line.append cell)
  else
    onLine (Line.insert cell session.position)

/-- Print a cell where the cursor stands.  At the right edge a blank takes the cursor down to the next
row. -/
def print (cell : Cell) (start : Position) (columns : Nat) : Action τ Unit := do
  Terminal.hideCursor
  Terminal.put cell
  if columns ≤ start.column + cell.columns width then
    Terminal.put Cell.space
    Terminal.moveLeft

/-- Put a cell in front of the caret and draw it and the cells behind it. -/
def insert (cell : Cell) : Action (Session τ) Unit := do
  let start ← onTerminal Terminal.cursor
  let columns ← onTerminal Terminal.columns
  store cell
  onTerminal (print width cell start columns)
  let caret ← onTerminal Terminal.cursor
  let session ← get
  putAll (session.line.cells.drop (session.position + 1))
  onTerminal (Terminal.setCursor caret)
  onTerminal Terminal.showCursor
  modify fun session => { session with position := session.position + 1 }

/-- Take the cell in front of the caret out, draw the cells behind it, and blank what it leaves. -/
def backspace : Action (Session τ) Unit := do
  onTerminal Terminal.hideCursor
  let session ← get
  let erased := session.cellAt (session.position - 1)
  Action.times (erased.columns width) (onTerminal Terminal.moveLeft)
  modify fun session => { session with position := session.position - 1 }
  let caret ← onTerminal Terminal.cursor
  let session ← get
  let _ ← onLine (Line.erase session.position)
  let session ← get
  putAll (session.line.cells.drop session.position)
  Action.times (max (erased.columns width) 1) (onTerminal (Terminal.put Cell.space))
  onTerminal (Terminal.setCursor caret)
  onTerminal Terminal.showCursor

/-- Move the caret over the cell behind it. -/
def moveRight : Action (Session τ) Unit := do
  let session ← get
  let cell := session.cellAt session.position
  Action.times (cell.columns width) (onTerminal Terminal.moveRight)
  modify fun session => { session with position := session.position + 1 }

/-- Move the caret over the cell in front of it. -/
def moveLeft : Action (Session τ) Unit := do
  modify fun session => { session with position := session.position - 1 }
  let session ← get
  let cell := session.cellAt session.position
  Action.times (cell.columns width) (onTerminal Terminal.moveLeft)

/-- Do what a key asks for while keys are taken. -/
def obey (key : Key) : Action (Session τ) Unit := do
  let session ← get
  match key with
  | .printable cell => if cell.isInsertable then insert width cell
  | .control .backspace => if 0 < session.position then backspace width
  | .control .right => if session.position < session.line.size then moveRight width
  | .control .left => if 0 < session.position then moveLeft width
  | .control .enter => modify fun session => { session with phase := .terminating }
  | .control _ => pure ()

/-- Take one key, and tell whether more are wanted.  After Enter no key does anything. -/
def processKey (key : Key) : Action (Session τ) Phase := do
  match (← get).phase with
  | .terminating => pure .terminating
  | .reading =>
    obey width key
    return (← get).phase

/-! ## The end of a line -/

/-- Move the caret over the given number of cells. -/
def moveRightBy (count : Nat) : Action (Session τ) Unit := Action.times count (moveRight width)

/-- Put the cursor behind the line, print the terminator, and hand out the text. -/
def finish (terminator : String) : Action (Session τ) String := do
  let session ← get
  moveRightBy width (session.line.size - session.position)
  putAll (terminator.toList.map Cell.ofChar)
  onTerminal Terminal.flush
  return (← get).line.compose

end

/-! ## A whole line -/

section

variable {κ : Type} [KeySource κ] (width : Char → Nat)

/-- Take keys until Enter is pressed or the input ends; tells whether it has ended. -/
def readKeys (session : Session τ) (keys : κ) : EStateM.Result Failure (Session τ × κ) Bool :=
  match session.phase with
  | .terminating => .ok false (session, keys)
  | .reading =>
    match _ : KeySource.readKey keys with
    | .error failure keys =>
      if failure.isEndOfInput then .ok true (session, keys) else .error failure (session, keys)
    | .ok key next =>
      match processKey width key session with
      | .error failure session => .error failure (session, next)
      | .ok _ session =>
        if _ : key = .control .enter then .ok false (session, next)
        else readKeys session next
termination_by KeySource.remaining keys
decreasing_by exact KeySource.remaining_lt ‹_› ‹_›

/-- Take keys until Enter is pressed or the input ends, then finish the line. -/
def run (terminator : String) : Action (Session τ × κ) Outcome := fun (session, keys) =>
  match readKeys width session keys with
  | .error failure state => .error failure state
  | .ok endOfInput (session, keys) =>
    match finish width terminator session with
    | .error failure session => .error failure (session, keys)
    | .ok line session => .ok { line, endOfInput } (session, keys)

end

end Session

end LineEditor
