import LineEditor.Proofs.Line.Slots
import LineEditor.Session

/-!
# Keys slot by slot

What a key does, with every place of the line that it uses named by its index.  As with the operations
of a line, an index outside ends the key with a fault that the caller chooses; so does a step to the
left of the first place.

* `Slotwise.before`, `Slotwise.cellAt`, `Slotwise.putFrom` — the uses of a place.
* `Slotwise.insert`, `Slotwise.backspace`, `Slotwise.moveRight`, `Slotwise.moveLeft` — the edits.
* `Slotwise.processKey` — a key.
* `slotwise_putFrom` — cell by cell, the cells from a place on are put as they are all at once.
-/

set_option autoImplicit false

open LineEditor.Action

namespace LineEditor.Session

variable {τ : Type}

namespace Slotwise

variable (trap : Line.Fault)

/-- The place in front of a place. -/
def before (index : Nat) : Action (Session τ) Nat := fun session =>
  if 0 < index then .ok (index - 1) session else .error trap.toFailure session

/-- The cell at a place of the line. -/
def cellAt (index : Nat) : Action (Session τ) Cell := onLine (Line.Slotwise.cellAt trap index)

/-- Put a cell into the line in front of the caret. -/
def store (cell : Cell) : Action (Session τ) Unit := do
  let session ← get
  if session.line.size ≤ session.position then
    onLine (Line.Slotwise.append trap cell)
  else
    onLine (Line.Slotwise.insert trap cell session.position)

variable [Terminal τ]

/-- Put the cells from a place to the end of the line. -/
def putFrom (first : Nat) : Action (Session τ) Unit := do
  let session ← get
  forEach (fun index => do
    let cell ← cellAt trap index
    onTerminal (Terminal.put cell))
    (List.range' first (session.line.size - first))

variable (width : Char → Nat)

/-- Put a cell in front of the caret and draw it and the cells behind it. -/
def insert (cell : Cell) : Action (Session τ) Unit := do
  let start ← onTerminal Terminal.cursor
  let columns ← onTerminal Terminal.columns
  store trap cell
  onTerminal (print width cell start columns)
  let caret ← onTerminal Terminal.cursor
  let session ← get
  putFrom trap (session.position + 1)
  onTerminal (Terminal.setCursor caret)
  onTerminal Terminal.showCursor
  modify fun session => { session with position := session.position + 1 }

/-- Take the cell in front of the caret out, draw the cells behind it, and blank what it leaves. -/
def backspace : Action (Session τ) Unit := do
  onTerminal Terminal.hideCursor
  let session ← get
  let place ← before trap session.position
  let erased ← cellAt trap place
  times (erased.columns width) (onTerminal Terminal.moveLeft)
  let session ← get
  let place ← before trap session.position
  modify fun session => { session with position := place }
  let caret ← onTerminal Terminal.cursor
  let session ← get
  let _ ← onLine (Line.Slotwise.erase trap session.position)
  let session ← get
  putFrom trap session.position
  times (max (erased.columns width) 1) (onTerminal (Terminal.put Cell.space))
  onTerminal (Terminal.setCursor caret)
  onTerminal Terminal.showCursor

/-- Move the caret over the cell behind it. -/
def moveRight : Action (Session τ) Unit := do
  let session ← get
  let cell ← cellAt trap session.position
  times (cell.columns width) (onTerminal Terminal.moveRight)
  modify fun session => { session with position := session.position + 1 }

/-- Move the caret over the cell in front of it. -/
def moveLeft : Action (Session τ) Unit := do
  let session ← get
  let place ← before trap session.position
  modify fun session => { session with position := place }
  let session ← get
  let cell ← cellAt trap session.position
  times (cell.columns width) (onTerminal Terminal.moveLeft)

/-- Do what a key asks for while keys are taken. -/
def obey (key : Key) : Action (Session τ) Unit := do
  let session ← get
  match key with
  | .printable cell => if cell.isInsertable then insert trap width cell
  | .control .backspace => if 0 < session.position then backspace trap width
  | .control .right => if session.position < session.line.size then moveRight trap width
  | .control .left => if 0 < session.position then moveLeft trap width
  | .control .enter => modify fun session => { session with phase := .terminating }
  | .control _ => pure ()

/-- Take one key, and tell whether more are wanted. -/
def processKey (key : Key) : Action (Session τ) Phase := do
  match (← get).phase with
  | .terminating => pure .terminating
  | .reading =>
    obey trap width key
    return (← get).phase

end Slotwise

/-! ## Places in the line -/

variable (trap : Line.Fault) {supply : Line.Supply} {cells : List Cell} {session : Session τ}
  {index : Nat}

theorem before_eq (h : 0 < index) : Slotwise.before trap index session = .ok (index - 1) session :=
  if_pos h

theorem slotwise_cellAt (h : Line.Settled supply cells session.line) (hindex : index < cells.length) :
    Slotwise.cellAt trap index session = .ok (session.cellAt index) session := by
  rw [Slotwise.cellAt, onLine, Line.slotwise_cellAt trap h hindex, cellAt, h.cells_eq]

theorem slotwise_store (h : Line.Settled supply cells session.line)
    (hposition : session.position ≤ cells.length) (cell : Cell) :
    Slotwise.store trap cell session = store cell session := by
  rw [Slotwise.store, store, get_bind, get_bind]
  split
  · rw [onLine, onLine, Line.slotwise_append trap h]
  · rw [onLine, onLine, Line.slotwise_insert trap h cell hposition]

theorem slotwise_erase (h : Line.Settled supply cells session.line) (hindex : index < cells.length) :
    onLine (Line.Slotwise.erase trap index) session = onLine (Line.erase index) session := by
  rw [onLine, onLine, Line.slotwise_erase trap h hindex]

variable [Terminal τ]

/-- **Cell by cell the rest of a line is put as it is all at once.** -/
theorem slotwise_putFrom (h : Line.Settled supply cells session.line) (first : Nat) :
    Slotwise.putFrom trap first session = putAll (session.line.cells.drop first) session := by
  rw [Slotwise.putFrom, get_bind, h.size_eq, h.cells_eq]
  induction hcount : cells.length - first generalizing first session with
  | zero =>
    rw [List.drop_of_length_le (by omega)]
    rfl
  | succ count ih =>
    have hfirst : first < cells.length := by omega
    have hcell : session.cellAt first = cells[first] := by
      rw [cellAt, h.cells_eq, List.getD_eq_getElem?_getD, List.getElem?_eq_getElem hfirst,
        Option.getD_some]
    rw [List.range'_succ, List.drop_eq_getElem_cons hfirst, putAll, forEach, forEach]
    have hhead : (Slotwise.cellAt trap first >>= fun cell => onTerminal (Terminal.put cell)) session =
        onTerminal (Terminal.put cells[first]) session := by
      rw [bind_of_ok (slotwise_cellAt trap h hfirst), hcell]
    cases hput : onTerminal (Terminal.put cells[first]) session with
    | error failure next => rw [bind_of_error (hhead.trans hput), bind_of_error hput]
    | ok _ next =>
      have hline : next.line = session.line := by
        revert hput
        rw [onTerminal, within]
        cases Terminal.put cells[first] session.terminal <;> rintro ⟨⟩
        rfl
      rw [bind_of_ok (hhead.trans hput), bind_of_ok hput]
      rw [← hline] at h
      exact ih h (first + 1) (by omega)

end LineEditor.Session
