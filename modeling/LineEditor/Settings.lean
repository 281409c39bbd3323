import LineEditor.Input.Decoder
import LineEditor.Line
import LineEditor.Text.Class
import LineEditor.Text.Numeral

/-!
# Settings

What a caller can choose about the editing of lines, and how the surroundings of a program choose
it: `Settings.ofLookup` reads two variables and passes over values that it does not understand.
-/

set_option autoImplicit false

namespace LineEditor

/-- Where keys come from. -/
inductive KeyInput where
  /-- bytes in the given layout -/
  | bytes (layout : KeyLayout)
  /-- events of the console -/
  | events
  deriving DecidableEq, Repr

namespace KeyInput

/-- The name of a way to read keys. -/
def name : KeyInput → String
  | bytes layout => layout.name
  | events => "events"

/-- The way to read keys that a name stands for, blanks around it and the case of its letters
aside. -/
def ofName? (name : String) : Option KeyInput :=
  if (Text.trim name).toList.map Char.toLower = "events".toList then some events
  else (KeyLayout.ofName? name).map bytes

end KeyInput

/-- What a caller can choose. -/
structure Settings where
  /-- the slots of a new line -/
  initialCapacity : Nat := Line.defaultCapacity
  /-- the slots that a line never passes -/
  capacityLimit : Nat := Line.defaultLimit
  input : KeyInput := .bytes .unix
  /-- what is printed when a line is finished -/
  terminator : String := "\r\n"
  /-- go on without raw mode when it cannot be entered? -/
  allowsDegraded : Bool := false
  deriving DecidableEq, Repr

namespace Settings

/-- The variable that sets `initialCapacity`. -/
def capacityVariable : String := "LINETERM_INITIAL_CAPACITY"

/-- The variable that sets `input`. -/
def inputVariable : String := "LINETERM_KEYS"

/-- The capacity that a value stands for, blanks around it aside; it fits a machine word and is not
zero. -/
def capacity? (value : String) : Option Nat :=
  (Text.count? Line.largestCount (Text.trim value).toList).filter (0 < ·)

/-- The settings that the variables found by `lookup` ask for. -/
def ofLookup (lookup : String → Option String) : Settings :=
  let defaults : Settings := {}
  { defaults with
    initialCapacity := ((lookup capacityVariable).bind capacity?).getD defaults.initialCapacity
    input := ((lookup inputVariable).bind KeyInput.ofName?).getD defaults.input }

/-- The variables whose values are not understood, with their values. -/
def passedOver (lookup : String → Option String) : List (String × String) :=
  let unread (name : String) (isRead : String → Bool) : List (String × String) :=
    match lookup name with
    | some value => if isRead value then [] else [(name, value)]
    | none => []
  unread capacityVariable (fun value => (capacity? value).isSome) ++
    unread inputVariable (fun value => (KeyInput.ofName? value).isSome)

/-- The settings that surroundings choose, as one line of text. -/
def describe (settings : Settings) : String :=
  toString settings.initialCapacity ++ " slots, keys from " ++ settings.input.name

end Settings

end LineEditor
