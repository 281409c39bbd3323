import LineEditor.Key

/-!
# From events to keys

Some consoles report keys as events, a key symbol with the modifiers held down.  `KeyEvent.key?` is
the key that an event means to the editor, if it means any.
-/

set_option autoImplicit false

namespace LineEditor

/-- What a key of a keyboard is. -/
inductive KeyEvent.Symbol where
  | char (c : Char)
  | function (number : Nat)
  | backspace
  | enter
  | left
  | right
  | up
  | down
  | home
  | pageEnd
  | pageUp
  | pageDown
  | tab
  | backTab
  | delete
  | insert
  | null
  | escape
  | capsLock
  | menu
  deriving DecidableEq, Repr

/-- A key held down together with another. -/
inductive KeyEvent.Modifier where
  | shift
  | control
  | alt
  | super
  deriving DecidableEq, Repr

/-- A key press as a console reports it. -/
structure KeyEvent where
  symbol : KeyEvent.Symbol
  modifiers : List KeyEvent.Modifier := []
  deriving DecidableEq, Repr

namespace KeyEvent

/-- The control key that a letter means while the control key is held. -/
def controlOfLetter? (letter : Char) : Option ControlKey :=
  match letter.toLower with
  | 'c' => some .interrupt
  | 'z' => some .suspend
  | 'd' => some .endOfFile
  | 'h' => some .backspace
  | _ => none

/-- The key that the event means to the editor, if it means any.  Some consoles report Enter as a
line end character. -/
def key? (event : KeyEvent) : Option Key :=
  match event.symbol with
  | .char c =>
    if c = '\r' ∨ c = '\n' then some (.control .enter)
    else if Modifier.control ∈ event.modifiers then (controlOfLetter? c).map .control
    else some (Key.ofChar c)
  | .backspace => some (.control .backspace)
  | .enter => some (.control .enter)
  | .escape => some (.control .escape)
  | .tab => some (.control .tab)
  | .up => some (.control .up)
  | .down => some (.control .down)
  | .left => some (.control .left)
  | .right => some (.control .right)
  | .delete => some (.control .delete)
  | .function _ | .home | .pageEnd | .pageUp | .pageDown | .backTab | .insert | .null | .capsLock
  | .menu => none

end KeyEvent

end LineEditor
