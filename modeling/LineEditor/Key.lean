import LineEditor.Action
import LineEditor.Cell

/-!
# Keys

A key press is a printable cell or a control key.  Both have a code: printable keys the value of
their first byte, control keys a negative number.

* `ControlKey.code`, `ControlKey.ofCode` — the twelve control keys with a meaning have the codes
  from `-12` to `-1`; every other code is kept as `other`.
* `KeySource` — whatever hands out keys, one at a time.
-/

set_option autoImplicit false

namespace LineEditor

/-! ## Control keys -/

/-- A key that is no character. -/
inductive ControlKey where
  | enter
  | backspace
  | escape
  | up
  | down
  | left
  | right
  | delete
  | tab
  /-- the interrupt key -/
  | interrupt
  /-- the suspend key -/
  | suspend
  /-- the end-of-file key -/
  | endOfFile
  /-- a code without a meaning of its own -/
  | other (code : Int)
  deriving DecidableEq, Repr

namespace ControlKey

/-- The code of a control key. -/
def code : ControlKey → Int
  | enter => -1
  | backspace => -2
  | escape => -3
  | up => -4
  | down => -5
  | right => -6
  | left => -7
  | delete => -8
  | tab => -9
  | interrupt => -10
  | suspend => -11
  | endOfFile => -12
  | other code => code

/-- The twelve control keys with a meaning, in the order of their codes from `-1` down. -/
def canonical : List ControlKey :=
  [enter, backspace, escape, up, down, right, left, delete, tab, interrupt, suspend, endOfFile]

/-- The control key with the given code. -/
def ofCode (code : Int) : ControlKey :=
  match canonical.find? (fun key => key.code = code) with
  | some key => key
  | none => other code

theorem code_ofCode (code : Int) : (ofCode code).code = code := by
  unfold ofCode
  split
  · next key h => simpa using List.find?_some h
  · rfl

theorem ofCode_code {key : ControlKey} (h : key ∈ canonical) : ofCode key.code = key := by
  revert key
  decide

theorem code_neg {key : ControlKey} (h : key ∈ canonical) : key.code < 0 := by
  revert key
  decide

end ControlKey

/-! ## Keys -/

/-- One key press. -/
inductive Key where
  /-- a character to put into the line -/
  | printable (cell : Cell)
  | control (key : ControlKey)
  deriving DecidableEq, Repr

namespace Key

/-- The key of a character. -/
def ofChar (c : Char) : Key := .printable (Cell.ofChar c)

/-- The code of a key: for a printable key the value of its first byte. -/
def code : Key → Int
  | .printable cell => cell.first.toNat
  | .control key => key.code

end Key

/-! ## Sources of keys -/

/-- Whatever hands out keys.  Lines are finite: between two presses of Enter a source can hand out
only so many keys, which `remaining` bounds.

A source that goes on for ever without Enter is left out by this bound; the editing of a line would not
return there.  Nothing that can be said of a line that returns is lost: it has taken finitely many keys,
and a source that ends behind these does the same to it. -/
class KeySource (κ : Type) where
  /-- The next key; the end of the input is a failure. -/
  readKey : Action κ Key
  /-- A bound on the keys in front of the next Enter. -/
  remaining : κ → Nat
  /-- Every key but Enter lowers the bound. -/
  remaining_lt : ∀ {source next : κ} {key : Key}, readKey source = .ok key next →
    key ≠ .control .enter → remaining next < remaining source

/-! ## Scripts of keys -/

/-- Keys and failures in the order in which they are handed out; the input ends with the script. -/
structure KeyScript where
  items : List (Except Failure Key)
  deriving Inhabited

namespace KeyScript

/-- The script of some keys. -/
def ofKeys (keys : List Key) : KeyScript := ⟨keys.map .ok⟩

/-- The script that types a text. -/
def ofText (text : String) : KeyScript := ofKeys (text.toList.map Key.ofChar)

/-- The next item of the script. -/
def readKey : Action KeyScript Key := fun script =>
  match script.items with
  | [] => .error .endOfInput script
  | .ok key :: rest => .ok key ⟨rest⟩
  | .error failure :: rest => .error failure ⟨rest⟩

instance : KeySource KeyScript where
  readKey := readKey
  remaining script := script.items.length
  remaining_lt {source next key} h _ := by
    unfold readKey at h
    split at h
    · cases h
    · next hitems =>
      cases h
      simp [hitems]
    · cases h

end KeyScript

end LineEditor
