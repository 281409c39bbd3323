import LineEditor.LineSource
import LineEditor.Session
import LineEditor.Text.Width

/-!
# Reading edited lines

A `Reader` owns a terminal and a source of keys and hands out edited lines.  Each line is edited in
raw mode, which is left again whatever happens in between.  Characters are measured by a function
`width`, as they are in a `Session`.

* `Reader.readLine` — edit one line.
* `Reader.hasNext` — may another line be asked for?  Not after the input has ended, and not after a
  failure of the terminal, unless it is a raw mode that could not be entered and the reader goes on
  without one.
-/

set_option autoImplicit false

namespace LineEditor

/-- A source of edited lines. -/
structure Reader (τ κ : Type) where
  terminal : τ
  keys : κ
  settings : Settings := {}
  /-- the number of columns that a character takes -/
  width : Char → Nat := Text.width
  /-- the storage that lines are made from -/
  memory : Memory := Memory.machine
  /-- has the input ended? -/
  exhausted : Bool := false
  /-- was a line edited without raw mode? -/
  degraded : Bool := false

namespace Reader

variable {τ κ : Type} [Terminal τ] [KeySource κ]

/-- May another line be asked for? -/
def hasNext (reader : Reader τ κ) : Bool :=
  if reader.exhausted then false
  else
    match Terminal.lastFailure reader.terminal with
    | none => Terminal.isOk reader.terminal
    | some failure => reader.degraded && failure.category = .mode

/-- Do something with the terminal. -/
def onTerminal {α : Type} (step : Action τ α) : Action (Reader τ κ) α :=
  Action.within Reader.terminal (fun reader terminal => { reader with terminal }) step

/-- Enter raw mode, and tell whether it was entered; where that is allowed, a failure only marks the
reader as degraded. -/
def enterRawMode : Action (Reader τ κ) Bool := fun reader =>
  match onTerminal Terminal.enterRawMode reader with
  | .ok () reader => .ok true reader
  | .error failure reader =>
    if reader.settings.allowsDegraded then .ok false { reader with degraded := true }
    else .error failure reader

/-- Edit one line on the terminal. -/
def edit : Action (Reader τ κ) Session.Outcome := fun reader =>
  match Session.create reader.terminal reader.settings reader.memory with
  | .error failure memory => .error failure { reader with memory }
  | .ok session _ =>
    match Session.run reader.width reader.settings.terminator (session, reader.keys) with
    | .ok outcome (session, keys) =>
      .ok outcome { reader with terminal := session.terminal, memory := session.line.memory, keys }
    | .error failure (session, keys) =>
      .error failure { reader with terminal := session.terminal, memory := session.line.memory, keys }

/-- Leave raw mode if it was entered. -/
def restore (raw : Bool) : Action (Reader τ κ) Unit :=
  if raw then onTerminal Terminal.leaveRawMode else pure ()

/-- Edit one line.  A failure of the editing counts for more than one of leaving raw mode, and the
end of the input is remembered in either case. -/
def readLine : Action (Reader τ κ) String := fun reader =>
  if reader.exhausted then .error .endOfInput reader
  else
    match enterRawMode reader with
    | .error failure reader => .error failure reader
    | .ok raw reader =>
      match edit reader with
      | .error failure reader =>
        let exhausted := reader.exhausted || failure.isEndOfInput
        match restore raw reader with
        | .ok () reader => .error failure { reader with exhausted }
        | .error _ reader => .error failure { reader with exhausted }
      | .ok outcome reader =>
        let exhausted := reader.exhausted || outcome.endOfInput
        match restore raw reader with
        | .ok () reader => .ok outcome.line { reader with exhausted }
        | .error failure reader => .error failure { reader with exhausted }

instance : LineSource (Reader τ κ) where
  hasNext := hasNext
  readLine := readLine

end Reader

end LineEditor
