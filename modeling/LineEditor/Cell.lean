import LineEditor.Text.Class
import LineEditor.Text.Utf8

/-!
# Cells

A cell holds the encoding of one character in four bytes, padded with zeros.  The cell of four
zeros is the blank slot of a line.  A cell made from arbitrary bytes may be malformed; such a cell
is kept as it is, has length zero and stands for no character.

* `Cell.ofBytes`, `Cell.ofChar` — making cells.
* `Cell.length`, `Cell.bytes`, `Cell.char?` — the well-formed part at the start of a cell and the
  character it encodes.
* `Cell.columns` — the room that a cell takes on a terminal, for any measure of characters.
-/

set_option autoImplicit false

namespace LineEditor

/-- Four bytes that hold one encoded character. -/
structure Cell where
  first : UInt8
  second : UInt8
  third : UInt8
  fourth : UInt8
  deriving DecidableEq, Repr

namespace Cell

/-- The cell of an unused slot. -/
def empty : Cell := ⟨0, 0, 0, 0⟩

instance : Inhabited Cell := ⟨empty⟩

/-- The four bytes that `bytes` fills from the left, the others zero. -/
def padded (bytes : List UInt8) : Cell :=
  ⟨bytes.getD 0 0, bytes.getD 1 0, bytes.getD 2 0, bytes.getD 3 0⟩

/-- The first four bytes, and of them those in front of the first zero. -/
def ofBytes (bytes : List UInt8) : Cell := padded ((bytes.take 4).takeWhile (· ≠ 0))

/-- The cell of a character; the null character gives the empty cell. -/
def ofChar (c : Char) : Cell := padded (String.utf8EncodeChar c)

/-- The blank that covers what an edit leaves behind. -/
def space : Cell := ofChar ' '

/-- All four bytes. -/
def raw (cell : Cell) : List UInt8 := [cell.first, cell.second, cell.third, cell.fourth]

/-- The number of well-formed bytes at the start, zero for empty and malformed cells. -/
def length (cell : Cell) : Nat :=
  if cell.first = 0 then 0 else Utf8.validLength cell.raw

/-- Does the cell stand for no character? -/
def isEmpty (cell : Cell) : Bool := cell.length == 0

/-- The well-formed bytes at the start. -/
def bytes (cell : Cell) : List UInt8 := cell.raw.take cell.length

/-- The character that the cell stands for. -/
def char? (cell : Cell) : Option Char := Utf8.scalar? cell.bytes

/-- The character as a text, nothing for empty and malformed cells. -/
def text (cell : Cell) : String :=
  match cell.char? with
  | some c => String.singleton c
  | none => ""

/-- The columns that the cell takes when characters are measured by `width`. -/
def columns (width : Char → Nat) (cell : Cell) : Nat :=
  match cell.char? with
  | some c => width c
  | none => 0

/-- May the cell stand in a line?  It must hold a character, and no control character. -/
def isInsertable (cell : Cell) : Bool :=
  match cell.char? with
  | some c => !Text.isControl c
  | none => false

end Cell

end LineEditor
