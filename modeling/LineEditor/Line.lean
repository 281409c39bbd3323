import LineEditor.Cell
import LineEditor.Failure
import LineEditor.Memory

/-!
# Lines

A line is a row of slots of which the first `size` are in use; the slots behind them hold the empty
cell.  When all slots are in use a new cell first doubles their number, unless that passes the
limit of the line or the machine refuses the storage.

* `Line.create`, `Line.append`, `Line.insert`, `Line.erase` — the operations.  An operation that
  fails leaves the cells as they were.
* `Line.cells` — the cells in use, in order.
* `Line.compose` — the text of the line, ended by a line feed.
-/

set_option autoImplicit false

namespace LineEditor

/-! ## What can go wrong -/

/-- Why an operation on a line failed. -/
inductive Line.Fault where
  /-- more slots are wanted at the start than the limit allows -/
  | startsTooLarge (initial limit : Nat)
  /-- twice the slots are more than the limit allows -/
  | cannotDouble (capacity limit : Nat)
  /-- no storage for the slots of a new line -/
  | notAllocated (reason : Refusal)
  /-- no storage for twice the slots -/
  | notReallocated (reason : Refusal)
  /-- an insertion behind the end -/
  | insertsOutside (index size : Nat)
  /-- an erasure behind the last cell -/
  | erasesOutside (index size : Nat)
  deriving DecidableEq, Repr

/-- What a fault of a line tells the caller. -/
def Line.Fault.toFailure (fault : Line.Fault) : Failure :=
  match fault with
  | .startsTooLarge initial limit =>
    { category := .allocation, code := "CAPACITY_OVERFLOW",
      message := s!"Initial capacity {initial} exceeds the limit of {limit}" }
  | .cannotDouble capacity limit =>
    { category := .allocation, code := "CAPACITY_OVERFLOW",
      message := s!"Line capacity {capacity} cannot double within the limit of {limit}" }
  | .notAllocated reason =>
    { category := .allocation, code := "ALLOCATION_FAILED",
      message := "Couldn't allocate the line: memory allocation failed because " ++ reason.reason }
  | .notReallocated reason =>
    { category := .allocation, code := "ALLOCATION_FAILED",
      message := "Couldn't reallocate the line: memory allocation failed because " ++ reason.reason }
  | .insertsOutside index size =>
    { category := .bounds, code := "INDEX_OUT_OF_BOUNDS",
      message := s!"Cannot insert at {index} (size: {size})" }
  | .erasesOutside index size =>
    { category := .bounds, code := "INDEX_OUT_OF_BOUNDS",
      message := s!"Cannot erase at {index} (size: {size})" }

/-! ## Lines -/

/-- A row of cells that grows by doubling. -/
structure Line where
  slots : Array Cell
  size : Nat
  /-- the number of slots that the line never passes -/
  limit : Nat
  /-- where the slots come from -/
  memory : Memory

namespace Line

/-- The number of slots of a new line if nothing else is asked for. -/
def defaultCapacity : Nat := 64

/-- The largest count that a machine word holds. -/
def largestCount : Nat := 0xFFFFFFFFFFFFFFFF

/-- The size of one slot in bytes. -/
def slotBytes : Nat := 4

/-- The largest number of slots whose size in bytes a machine word holds. -/
def defaultLimit : Nat := largestCount / slotBytes

/-- An empty line with `initial` slots, at least one, that never has more than `limit`. -/
def create (initial limit : Nat) : EStateM Fault Memory Line := fun memory =>
  let initial := max initial 1
  if limit < initial then .error (.startsTooLarge initial limit) memory
  else
    match memory.reserve (initial * slotBytes) with
    | (some reason, memory) => .error (.notAllocated reason) memory
    | (none, memory) =>
      .ok { slots := Array.replicate initial Cell.empty, size := 0, limit, memory } memory

/-- The number of slots. -/
def capacity (line : Line) : Nat := line.slots.size

/-- Is no slot in use? -/
def isEmpty (line : Line) : Bool := line.size == 0

/-- The cells in use, in order. -/
def cells (line : Line) : List Cell := line.slots.toList.take line.size

/-- The cell at a place in use. -/
def get? (line : Line) (index : Nat) : Option Cell :=
  if index < line.size then line.slots[index]? else none

/-- Make room for one more cell: double the slots if all are in use. -/
def grow : EStateM Fault Line Unit := fun line =>
  if line.size < line.capacity then .ok () line
  else
    let doubled := line.capacity * 2
    if largestCount < doubled ∨ line.limit < doubled then
      .error (.cannotDouble line.capacity line.limit) line
    else
      match line.memory.reserve (doubled * slotBytes) with
      | (some reason, memory) => .error (.notReallocated reason) { line with memory }
      | (none, memory) =>
        .ok () { line with
          slots := line.slots ++ Array.replicate (doubled - line.capacity) Cell.empty, memory }

/-- Put a cell at the end. -/
def append (cell : Cell) : EStateM Fault Line Unit := do
  grow
  modify fun line =>
    { line with slots := line.slots.setIfInBounds line.size cell, size := line.size + 1 }

/-- Put a cell in front of the place `index`, which may be the end.  The cells behind it move one
slot to the right, over the unused slot that `grow` has made sure of. -/
def insert (cell : Cell) (index : Nat) : EStateM Fault Line Unit := do
  let line ← get
  if line.size < index then
    throw (.insertsOutside index line.size)
  grow
  modify fun line =>
    { line with
      slots := line.slots.pop.insertIdxIfInBounds index cell
      size := line.size + 1 }

/-- Take the cell at `index` out.  The cells behind it move one slot to the left. -/
def erase (index : Nat) : EStateM Fault Line Cell := do
  let line ← get
  if line.size ≤ index then
    throw (.erasesOutside index line.size)
  set { line with
    slots := (line.slots.eraseIdxIfInBounds index).push Cell.empty
    size := line.size - 1 }
  return line.slots.getD index Cell.empty

/-! ## Texts -/

/-- The cells in use as a text, without the line feed. -/
def text (line : Line) : String := String.join (line.cells.map Cell.text)

/-- The bytes of the line, ended by a line feed; cells without a character add nothing. -/
def encoded (line : Line) : List UInt8 := line.cells.flatMap Cell.bytes ++ [10]

/-- The text of the line, ended by a line feed. -/
def compose (line : Line) : String :=
  match Utf8.decode line.encoded with
  | some text => String.ofList text
  | none => String.ofList (Utf8.repair line.encoded)

end Line

end LineEditor
