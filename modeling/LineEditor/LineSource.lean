import LineEditor.Action

/-!
# Sources of lines

Whatever hands out lines, one at a time, each ended by a line feed.  `LineScript` is the source that
hands out lines and failures made beforehand.
-/

set_option autoImplicit false

namespace LineEditor

/-- Whatever hands out lines. -/
class LineSource (σ : Type) where
  /-- May another line be asked for? -/
  hasNext : σ → Bool
  /-- The next line; the end of the input is a failure. -/
  readLine : Action σ String

/-- Lines and failures in the order in which they are handed out; the input ends with the script. -/
structure LineScript where
  items : List (Except Failure String)
  deriving Inhabited

namespace LineScript

instance : LineSource LineScript where
  hasNext script := !script.items.isEmpty
  readLine script :=
    match script.items with
    | [] => .error .endOfInput script
    | .ok line :: rest => .ok line ⟨rest⟩
    | .error failure :: rest => .error failure ⟨rest⟩

end LineScript

end LineEditor
