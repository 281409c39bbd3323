/-!
# Control sequences

The sequences of characters that a VT100 terminal takes for movements.  Columns are counted from
zero here and from one in the sequences.
-/

set_option autoImplicit false

namespace LineEditor.Sequence

/-- The character that every sequence begins with. -/
def escape : String := "\x1b"

/-- One column to the left, within the row. -/
def left : String := escape ++ "D"

/-- One column to the right, within the row. -/
def right : String := escape ++ "C"

/-- One row up, in the same column. -/
def rowUp : String := escape ++ "A"

/-- One row down, in the same column. -/
def rowDown : String := escape ++ "B"

/-- To the start of the row. -/
def rowStart : String := escape ++ "[0G"

/-- Let the cursor disappear. -/
def hideCursor : String := escape ++ "[?25l"

/-- Let the cursor appear. -/
def showCursor : String := escape ++ "[?25h"

/-- A number of rows down. -/
def down (count : Nat) : String := escape ++ "[" ++ toString count ++ "B"

/-- A number of rows up. -/
def up (count : Nat) : String := escape ++ "[" ++ toString count ++ "A"

/-- To a column of the row. -/
def toColumn (column : Nat) : String := escape ++ "[" ++ toString (column + 1) ++ "G"

/-- From the first column to the last one of the row above. -/
def wrapLeft (columns : Nat) : String := rowUp ++ escape ++ "[" ++ toString columns ++ "G"

/-- From the last column to the first one of the row below. -/
def wrapRight : String := rowDown ++ rowStart

end LineEditor.Sequence
