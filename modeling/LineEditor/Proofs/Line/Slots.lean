import LineEditor.Proofs.Line.Storage

/-!
# Lines slot by slot

The operations of a line, with every slot that they read, write or shift named by its index.  A place
outside the line and an index without a slot end the operation with a fault that the caller chooses, so
an operation that ends in the same way for every choice uses none of them.

* `Slotwise.read`, `Slotwise.write`, `Slotwise.shift` — the uses of an index.
* `Slotwise.append`, `Slotwise.insert`, `Slotwise.erase`, `Slotwise.cellAt` — the operations.
* `slotwise_append`, `slotwise_insert`, `slotwise_erase`, `slotwise_cellAt` — on a line that `create`
  has made, the operations do what those of `Line` do, whatever the fault.
-/

set_option autoImplicit false

namespace LineEditor.Line

/-! ## Using an index -/

namespace Slotwise

variable (trap : Fault)

/-- The cell in a slot. -/
def read (index : Nat) : EStateM Fault Line Cell := fun line =>
  if index < line.slots.size then .ok (line.slots.getD index Cell.empty) line else .error trap line

/-- Put a cell into a slot. -/
def write (index : Nat) (cell : Cell) : EStateM Fault Line Unit := fun line =>
  if index < line.slots.size then
    .ok () { line with slots := line.slots.setIfInBounds index cell }
  else .error trap line

/-- The slots after those from `first` up to `last` were copied to the place `target`, as they stood
before. -/
def shifted (slots : Array Cell) (first last target : Nat) : Array Cell :=
  Array.ofFn fun place : Fin slots.size =>
    if target ≤ place.val ∧ place.val < target + (last - first) then
      slots[first + (place.val - target)]?.getD Cell.empty
    else slots[place.val]?.getD Cell.empty

/-- Copy the slots from `first` up to `last` to the place `target`; the two parts may overlap. -/
def shift (first last target : Nat) : EStateM Fault Line Unit := fun line =>
  if first ≤ last ∧ last ≤ line.slots.size ∧ target + (last - first) ≤ line.slots.size then
    .ok () { line with slots := shifted line.slots first last target }
  else .error trap line

/-! ## The operations -/

/-- Put a cell at the end. -/
def append (cell : Cell) : EStateM Fault Line Unit := do
  grow
  let line ← get
  write trap line.size cell
  modify fun line => { line with size := line.size + 1 }

/-- Put a cell in front of the place `index`. -/
def insert (cell : Cell) (index : Nat) : EStateM Fault Line Unit := do
  let line ← get
  if line.size < index then
    throw trap
  grow
  let line ← get
  shift trap index line.size (index + 1)
  write trap index cell
  modify fun line => { line with size := line.size + 1 }

/-- Take the cell at `index` out. -/
def erase (index : Nat) : EStateM Fault Line Cell := do
  let line ← get
  if line.size ≤ index then
    throw trap
  let removed ← read trap index
  shift trap (index + 1) line.size index
  modify fun line => { line with size := line.size - 1 }
  write trap (line.size - 1) Cell.empty
  return removed

/-- The cell at a place of the cells in use, which are the first slots. -/
def cellAt (index : Nat) : EStateM Fault Line Cell := fun line =>
  if line.size ≤ line.slots.size ∧ index < line.size then
    .ok (line.slots.getD index Cell.empty) line
  else .error trap line

end Slotwise

variable {line : Line} {cells : List Cell} {cell : Cell} {spare index : Nat} {supply : Supply}

/-! ## Shifting -/

theorem Holds.getElem?_spare (h : line.Holds cells spare) {place : Nat}
    (hcells : cells.length ≤ place) (hplace : place < line.slots.size) :
    line.slots[place]? = some Cell.empty := by
  have hsize : line.slots.size = cells.length + spare := h.capacity_eq
  rw [← Array.getElem?_toList, h.slots, List.getElem?_append_right hcells,
    List.getElem?_replicate, if_pos (by omega)]

theorem getElem?_shifted (slots : Array Cell) (first last target place : Nat)
    (hlast : last ≤ slots.size) (htarget : target + (last - first) ≤ slots.size) :
    (Slotwise.shifted slots first last target)[place]? =
      if target ≤ place ∧ place < target + (last - first) then slots[first + (place - target)]?
      else slots[place]? := by
  unfold Slotwise.shifted
  rw [Array.getElem?_ofFn]
  by_cases hplace : place < slots.size
  · rw [dif_pos hplace]
    dsimp only
    split
    · have hfrom : first + (place - target) < slots.size := by omega
      rw [Array.getElem?_eq_getElem hfrom, Option.getD_some]
    · rw [Array.getElem?_eq_getElem hplace, Option.getD_some]
  · rw [dif_neg hplace, if_neg (by omega), Array.getElem?_eq_none (by omega)]

/-- Shifting the cells behind the place one slot to the right makes room for the new one. -/
theorem Holds.shift_insert (h : line.Holds cells (spare + 1)) (cell : Cell)
    (hindex : index ≤ cells.length) :
    (Slotwise.shifted line.slots index line.size (index + 1)).setIfInBounds index cell =
      line.slots.pop.insertIdxIfInBounds index cell := by
  have hcapacity : line.slots.size = cells.length + (spare + 1) := h.capacity_eq
  have hsize := h.size
  have hbound : index ≤ line.slots.pop.size := by
    rw [Array.size_pop]
    omega
  have hshifted : (Slotwise.shifted line.slots index line.size (index + 1)).size =
      line.slots.size := Array.size_ofFn
  refine Array.ext_getElem? fun place => ?_
  rw [Array.insertIdxIfInBounds, dif_pos hbound, Array.getElem?_insertIdx,
    Array.getElem?_setIfInBounds, hshifted,
    getElem?_shifted _ _ _ _ _ (by omega) (by omega)]
  simp only [Array.getElem?_pop, Array.size_pop]
  rcases Nat.lt_trichotomy place index with hlt | heq | hgt
  · have hne : ¬ index = place := by omega
    have hfront : ¬ (index + 1 ≤ place ∧ place < index + 1 + (line.size - index)) := by omega
    rw [if_neg hne, if_neg hfront, if_pos hlt, if_pos (by omega)]
  · subst heq
    rw [if_pos rfl, if_pos (by omega), if_neg (Nat.lt_irrefl _), if_pos rfl, if_pos (by omega)]
  · have hne : ¬ index = place := by omega
    have hlt : ¬ place < index := by omega
    have hne' : ¬ place = index := by omega
    rw [if_neg hne, if_neg hlt, if_neg hne']
    by_cases hmoved : index + 1 ≤ place ∧ place < index + 1 + (line.size - index)
    · have hback : index + (place - (index + 1)) = place - 1 := by omega
      rw [if_pos hmoved, hback, if_pos (by omega)]
    · -- behind the cells both sides show the same empty slots
      rw [if_neg hmoved]
      by_cases hplace : place < line.slots.size
      · rw [h.getElem?_spare (by omega) hplace, if_pos (by omega),
          h.getElem?_spare (by omega) (by omega)]
      · rw [Array.getElem?_eq_none (by omega), if_neg (by omega)]

/-- Shifting the cells behind the place one slot to the left closes the gap. -/
theorem Holds.shift_erase (h : line.Holds cells spare) (hindex : index < cells.length) :
    (Slotwise.shifted line.slots (index + 1) line.size index).setIfInBounds (line.size - 1) Cell.empty =
      (line.slots.eraseIdxIfInBounds index).push Cell.empty := by
  have hcapacity : line.slots.size = cells.length + spare := h.capacity_eq
  have hsize := h.size
  have hbound : index < line.slots.size := by omega
  have hshifted : (Slotwise.shifted line.slots (index + 1) line.size index).size =
      line.slots.size := Array.size_ofFn
  refine Array.ext_getElem? fun place => ?_
  rw [Array.eraseIdxIfInBounds, dif_pos hbound, Array.getElem?_push, Array.size_eraseIdx,
    Array.getElem?_eraseIdx, Array.getElem?_setIfInBounds, hshifted,
    getElem?_shifted _ _ _ _ _ (by omega) (by omega)]
  by_cases hlast : line.size - 1 = place
  · rw [if_pos hlast, if_pos (by omega)]
    by_cases hend : place = line.slots.size - 1
    · rw [if_pos hend]
    · rw [if_neg hend, if_neg (by omega), h.getElem?_spare (by omega) (by omega)]
  · rw [if_neg hlast]
    by_cases hend : place = line.slots.size - 1
    · rw [if_neg (by omega), if_pos hend, h.getElem?_spare (by omega) (by omega)]
    · rw [if_neg hend]
      by_cases hmoved : index ≤ place ∧ place < line.size - 1
      · have hnext : index + 1 + (place - index) = place + 1 := by omega
        rw [if_pos (by omega), if_neg (by omega), hnext]
      · rw [if_neg (by omega)]
        by_cases hfront : place < index
        · rw [if_pos hfront]
        · -- behind the cells both sides show the same empty slots
          rw [if_neg hfront]
          by_cases hplace : place < line.slots.size
          · rw [h.getElem?_spare (by omega) hplace, h.getElem?_spare (by omega) (by omega)]
          · rw [Array.getElem?_eq_none (by omega), Array.getElem?_eq_none (by omega)]

/-! ## No index without a slot -/

variable (trap : Fault)

theorem slotwise_append (h : Settled supply cells line) (cell : Cell) :
    Slotwise.append trap cell line = Line.append cell line := by
  have hgrow := h.grow
  unfold Slotwise.append Line.append
  cases hline : Line.grow line with
  | error fault kept => rw [Action.bind_of_error hline, Action.bind_of_error hline]
  | ok _ grown =>
    obtain ⟨hgrown, hroom⟩ := hgrow.of_ok hline
    have hwrite : Slotwise.write trap grown.size cell grown = _ := if_pos hroom
    rw [Action.bind_of_ok hline, Action.bind_of_ok hline, Action.get_bind, Action.bind_of_ok hwrite]
    rfl

theorem slotwise_insert (h : Settled supply cells line) (cell : Cell) (hindex : index ≤ cells.length) :
    Slotwise.insert trap cell index line = Line.insert cell index line := by
  have hgrow := h.grow
  have hinside : ¬ line.size < index := by
    rw [h.size_eq]
    omega
  unfold Slotwise.insert Line.insert
  rw [Action.get_bind, Action.get_bind, if_neg hinside, if_neg hinside]
  cases hline : Line.grow line with
  | error fault kept =>
    exact (Action.bind_of_error hline).trans (Action.bind_of_error hline).symm
  | ok _ grown =>
    obtain ⟨hgrown, hroom⟩ := hgrow.of_ok hline
    obtain ⟨spare, hs⟩ := hgrown.holds_succ hroom
    have hcells := hs.size
    have hslots : grown.size < grown.slots.size := hroom
    have hshift : Slotwise.shift trap index grown.size (index + 1) grown = _ :=
      if_pos ⟨by omega, by omega, by omega⟩
    have hwrite : Slotwise.write trap index cell
        { grown with slots := Slotwise.shifted grown.slots index grown.size (index + 1) } = _ :=
      if_pos (by
        change index < (Slotwise.shifted grown.slots index grown.size (index + 1)).size
        rw [Slotwise.shifted, Array.size_ofFn]
        omega)
    have hinsert := hs.shift_insert cell hindex
    refine (Action.bind_of_ok hline).trans (Eq.trans ?_ (Action.bind_of_ok hline).symm)
    rw [Action.get_bind, Action.bind_of_ok hshift, Action.bind_of_ok hwrite]
    dsimp only
    rw [hinsert]
    rfl

theorem slotwise_erase (h : Settled supply cells line) (hindex : index < cells.length) :
    Slotwise.erase trap index line = Line.erase index line := by
  obtain ⟨spare, hs⟩ := h.holds
  have hcells := hs.size
  have hcapacity : line.slots.size = cells.length + spare := hs.capacity_eq
  have hinside : ¬ line.size ≤ index := by omega
  unfold Slotwise.erase Line.erase
  rw [Action.get_bind, Action.get_bind, if_neg hinside, if_neg hinside]
  have hread : Slotwise.read trap index line = _ := if_pos (show index < line.slots.size by omega)
  have hshift : Slotwise.shift trap (index + 1) line.size index line = _ :=
    if_pos ⟨by omega, by omega, by omega⟩
  have hwrite : Slotwise.write trap (line.size - 1) Cell.empty
      { line with
        slots := Slotwise.shifted line.slots (index + 1) line.size index, size := line.size - 1 } = _ :=
    if_pos (by
      change line.size - 1 < (Slotwise.shifted line.slots (index + 1) line.size index).size
      rw [Slotwise.shifted, Array.size_ofFn]
      omega)
  refine (Action.bind_of_ok hread).trans ?_
  rw [Action.bind_of_ok hshift, Action.modify_bind, Action.bind_of_ok hwrite]
  dsimp only
  rw [hs.shift_erase hindex]
  rfl

theorem slotwise_cellAt (h : Settled supply cells line) (hindex : index < cells.length) :
    Slotwise.cellAt trap index line = .ok (cells.getD index Cell.empty) line := by
  obtain ⟨spare, hs⟩ := h.holds
  have hle := h.size_le_capacity
  rw [Slotwise.cellAt, if_pos ⟨hle, by rwa [hs.size]⟩, hs.getD_slots hindex]

end LineEditor.Line
