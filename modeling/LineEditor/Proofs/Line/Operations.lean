import LineEditor.Proofs.Line.Slots

/-!
# A line over time

Cells are appended, inserted and erased at any places, also at places that a line does not have, and
storage may be refused at any time.  This file says what a line is behind any operations.

* `Operation` — what can be asked of a line, on the line and on a list of cells.
* `Sound` — a settled line whose slots are within its limit.
* `grow_ends` — all that growing can do; `Sound.run`, `run_outside` — all that an operation can do.
* `reached`, `succeeding` — the line behind some operations, and those of them that succeeded.
* `Sound.reached` — **the run**: the cells are those that the succeeding operations make.
* `refines_list` — the laws together.
-/

set_option autoImplicit false

open LineEditor.Action

namespace LineEditor.Line

/-! ## Operations -/

/-- What can be asked of a line. -/
inductive Operation where
  | append (cell : Cell)
  | insert (cell : Cell) (index : Nat)
  | erase (index : Nat)
  deriving DecidableEq, Repr

namespace Operation

/-- The operation on a line; an erasure yields the cell that it takes out. -/
def run : Operation → EStateM Fault Line (Option Cell)
  | append cell => do
    Line.append cell
    return none
  | insert cell index => do
    Line.insert cell index
    return none
  | erase index => do
    let cell ← Line.erase index
    return some cell

/-- The operation with every slot that it uses named by its index. -/
def slotwise (trap : Fault) : Operation → EStateM Fault Line (Option Cell)
  | append cell => do
    Slotwise.append trap cell
    return none
  | insert cell index => do
    Slotwise.insert trap cell index
    return none
  | erase index => do
    let cell ← Slotwise.erase trap index
    return some cell

/-- Does a line of this size have the place? -/
def Fits (size : Nat) : Operation → Prop
  | append _ => True
  | insert _ index => index ≤ size
  | erase index => index < size

instance (size : Nat) : (operation : Operation) → Decidable (operation.Fits size)
  | append _ => inferInstanceAs (Decidable True)
  | insert _ index => inferInstanceAs (Decidable (index ≤ size))
  | erase index => inferInstanceAs (Decidable (index < size))

/-- Does the line need a slot more? -/
def grows : Operation → Bool
  | append _ => true
  | insert _ _ => true
  | erase _ => false

/-- The operation on a list of cells. -/
def onCells (cells : List Cell) : Operation → List Cell
  | append cell => cells ++ [cell]
  | insert cell index => cells.insertIdx index cell
  | erase index => cells.eraseIdx index

/-- The cell that the operation takes out of a list of cells. -/
def removed? (cells : List Cell) : Operation → Option Cell
  | append _ => none
  | insert _ _ => none
  | erase index => cells[index]?

end Operation

/-! ## Growing -/

variable {line : Line} {cells : List Cell} {supply : Supply} {operation : Operation}

/-- **All that growing can do**: nothing if a slot is to spare, and otherwise double the slots within the
limit, or refuse to and change nothing but the count of requests. -/
theorem grow_ends (line : Line) :
    Ends grow line
      (fun _ grown => line.size < line.capacity ∧ grown = line ∨
        line.capacity ≤ line.size ∧ grown.capacity = line.capacity * 2 ∧
          line.capacity * 2 ≤ line.limit ∧ line.capacity * 2 ≤ largestCount)
      (fun fault kept => line.capacity ≤ line.size ∧ kept = { line with memory := kept.memory } ∧
        (fault = .cannotDouble line.capacity line.limit ∧ kept = line ∧
            (largestCount < line.capacity * 2 ∨ line.limit < line.capacity * 2) ∨
          ∃ reason, fault = .notReallocated reason ∧
            line.memory.answer line.memory.requests (line.capacity * 2 * slotBytes) = some reason)) := by
  unfold Ends grow
  by_cases hfull : line.size < line.capacity
  · rw [if_pos hfull]
    exact .inl ⟨hfull, rfl⟩
  rw [if_neg hfull]
  dsimp only
  have hfull : line.capacity ≤ line.size := Nat.le_of_not_lt hfull
  by_cases hlimit : largestCount < line.capacity * 2 ∨ line.limit < line.capacity * 2
  · rw [if_pos hlimit]
    exact ⟨hfull, rfl, .inl ⟨rfl, rfl, hlimit⟩⟩
  rw [if_neg hlimit, Memory.reserve]
  cases hanswer : line.memory.answer line.memory.requests (line.capacity * 2 * slotBytes) with
  | some reason => exact ⟨hfull, rfl, .inr ⟨reason, rfl, rfl⟩⟩
  | none =>
    refine .inr ⟨hfull, ?_, by omega, by omega⟩
    change (line.slots ++ Array.replicate (line.capacity * 2 - line.capacity) Cell.empty).size = _
    rw [Array.size_append, Array.size_replicate, ← capacity]
    omega

/-- A settled line whose slots are within its limit; a machine word counts them, unless they are still
those of the start. -/
structure Sound (supply : Supply) (cells : List Cell) (line : Line) : Prop
    extends Settled supply cells line where
  within : line.capacity ≤ supply.limit
  counted : line.capacity = max supply.initial 1 ∨ line.capacity ≤ largestCount

theorem sound_create {initial limit : Nat} {memory after : Memory}
    (h : create initial limit memory = .ok line after) :
    Sound ⟨initial, limit, memory.answer⟩ [] line := by
  have hsettled := settled_create h
  unfold create at h
  dsimp only at h
  split at h
  · cases h
  · next hlimit =>
    split at h
    · cases h
    · cases h
      have hcapacity : (Array.replicate (max initial 1) Cell.empty).size = max initial 1 :=
        Array.size_replicate
      exact ⟨hsettled, Nat.le_trans (Nat.le_of_eq hcapacity) (Nat.le_of_not_lt hlimit), .inl hcapacity⟩

/-- A settled line of other cells is sound too if it has as many slots. -/
theorem Sound.of_settled (h : Sound supply cells line) {other : Line} {others : List Cell}
    (hother : Settled supply others other) (hcapacity : other.capacity = line.capacity) :
    Sound supply others other := ⟨hother, hcapacity ▸ h.within, hcapacity ▸ h.counted⟩

/-- A sound line stays sound when it grows, and its slots do not become fewer. -/
theorem Sound.grow (h : Sound supply cells line) {grown : Line} (hgrow : grow line = .ok () grown) :
    Sound supply cells grown ∧ (∃ spare, grown.Holds cells (spare + 1)) ∧
      line.capacity ≤ grown.capacity := by
  obtain ⟨hsettled, hroom⟩ := h.toSettled.grow.of_ok hgrow
  refine ⟨?_, hsettled.holds_succ hroom, ?_⟩
  · rcases (grow_ends line).of_ok hgrow with ⟨-, rfl⟩ | ⟨-, hcapacity, hlimit, hword⟩
    · exact h
    · refine ⟨hsettled, ?_, .inr (hcapacity ▸ hword)⟩
      rw [hcapacity, ← h.limit]
      exact hlimit
  · rcases (grow_ends line).of_ok hgrow with ⟨-, rfl⟩ | ⟨-, hcapacity, -⟩
    · exact Nat.le_refl _
    · omega

/-- **As many cells as a line has slots, other lines can hold**, if their storage is granted. -/
theorem Sound.canHold (h : Sound supply cells line) {answer : Nat → Nat → Option Refusal}
    (hgrants : ∀ request bytes, answer request bytes = none) :
    CanHold ⟨supply.initial, supply.limit, answer⟩ line.capacity := by
  obtain ⟨doublings, hdoublings⟩ := h.doubled
  have hwithin := h.within
  have hcounted := h.counted
  rw [hdoublings] at hwithin hcounted ⊢
  exact canHold_of_doublings hwithin hcounted fun request bytes _ => hgrants request bytes

/-! ## One operation -/

/-- An operation that lacks a slot fails as growing does. -/
theorem run_of_grow_error (hgrows : operation.grows = true) (hfits : operation.Fits line.size)
    {fault : Fault} {kept : Line} (hgrow : Line.grow line = .error fault kept) :
    operation.run line = .error fault kept := by
  cases operation with
  | append cell => exact bind_of_error (bind_of_error hgrow)
  | insert cell index =>
    have hinside : ¬ line.size < index := Nat.not_lt.mpr hfits
    refine bind_of_error ?_
    rw [Line.insert, get_bind, if_neg hinside]
    exact bind_of_error hgrow
  | erase index => cases hgrows

/-- **At a place that the line has, an operation does what it does to the list of cells**, or it needs one
slot more and the line cannot grow. -/
theorem Sound.run (h : Sound supply cells line) (hfits : operation.Fits cells.length) :
    Ends operation.run line
      (fun removed next => removed = operation.removed? cells ∧
        Sound supply (operation.onCells cells) next ∧ line.capacity ≤ next.capacity)
      (fun fault kept => operation.grows = true ∧ Line.grow line = .error fault kept) := by
  -- what is put in has the slots of the grown line, and those are sound
  have hstored {others : List Cell} {longer : Line} (hlonger : Settled supply others longer ∧
      ∃ grown, Line.grow line = .ok () grown ∧ longer.capacity = grown.capacity) :
      Sound supply others longer ∧ line.capacity ≤ longer.capacity := by
    obtain ⟨hsettled, grown, hgrow, hcapacity⟩ := hlonger
    obtain ⟨hgrown, -, hmore⟩ := h.grow hgrow
    exact ⟨hgrown.of_settled hsettled hcapacity, hcapacity ▸ hmore⟩
  cases operation with
  | append cell =>
    have happend := (h.toSettled.append cell).mono (fun _ _ => hstored) fun _ _ hgrow =>
      And.intro (rfl : (Operation.append cell).grows = true) hgrow
    exact happend.bind fun _ _ hlonger => ends_pure ⟨rfl, hlonger⟩
  | insert cell index =>
    have hinsert := (h.toSettled.insert cell hfits).mono (fun _ _ => hstored) fun _ _ hgrow =>
      And.intro (rfl : (Operation.insert cell index).grows = true) hgrow
    exact hinsert.bind fun _ _ hlonger => ends_pure ⟨rfl, hlonger⟩
  | erase index =>
    obtain ⟨shorter, herase, hshorter, hcapacity⟩ := erase_ok h.toSettled hfits
    refine ends_of_ok (bind_of_ok herase) ⟨?_, h.of_settled hshorter hcapacity, Nat.le_of_eq hcapacity.symm⟩
    have hindex : index < cells.length := hfits
    rw [List.getD_eq_getElem?_getD, List.getElem?_eq_getElem hindex]
    exact (List.getElem?_eq_getElem hindex).symm

/-- **At a place that the line does not have, an operation fails before it does anything.** -/
theorem run_outside (h : ¬ operation.Fits line.size) :
    ∃ fault, fault.toFailure.category = .bounds ∧ operation.run line = .error fault line := by
  cases operation with
  | append cell => exact absurd trivial h
  | insert cell index =>
    refine ⟨.insertsOutside index line.size, rfl, bind_of_error ?_⟩
    rw [Line.insert, get_bind, if_pos (Nat.not_le.mp h)]
    rfl
  | erase index =>
    refine ⟨.erasesOutside index line.size, rfl, bind_of_error ?_⟩
    rw [Line.erase, get_bind, if_pos (Nat.not_lt.mp h)]
    rfl

/-- No index that an operation uses is without a slot. -/
theorem Sound.slotwise_run (h : Sound supply cells line) (hfits : operation.Fits cells.length)
    (trap : Fault) : operation.slotwise trap line = operation.run line := by
  cases operation with
  | append cell => exact bind_of_eq (slotwise_append trap h.toSettled cell)
  | insert cell index => exact bind_of_eq (slotwise_insert trap h.toSettled cell hfits)
  | erase index => exact bind_of_eq (slotwise_erase trap h.toSettled hfits)

/-! ## Any number of operations -/

/-- The line behind some operations, whatever they come to. -/
def reached : List Operation → Line → Line
  | [], line => line
  | operation :: operations, line => reached operations (state (operation.run line))

theorem reached_append (first second : List Operation) (line : Line) :
    reached (first ++ second) line = reached second (reached first line) := by
  induction first generalizing line with
  | nil => rfl
  | cons operation first ih => exact ih _

/-- Those of the operations that succeed. -/
def succeeding : List Operation → Line → List Operation
  | [], _ => []
  | operation :: operations, line =>
    match operation.run line with
    | .ok _ next => operation :: succeeding operations next
    | .error _ next => succeeding operations next

/-- An operation that fails leaves everything as it is but the count of requests. -/
theorem Sound.keeps (h : Sound supply cells line) {fault : Fault} {kept : Line}
    (hrun : operation.run line = .error fault kept) :
    Sound supply cells kept ∧ kept = { line with memory := kept.memory } := by
  by_cases hfits : operation.Fits line.size
  · rw [h.size_eq] at hfits
    obtain ⟨-, hgrow⟩ := (h.run hfits).of_error hrun
    obtain ⟨hkept, -, hframe⟩ := h.toSettled.grow.of_error hgrow
    exact ⟨h.of_settled hkept (by rw [hframe]; rfl), hframe⟩
  · obtain ⟨outside, -, houtside⟩ := run_outside hfits
    cases houtside.symm.trans hrun
    exact ⟨h, rfl⟩

theorem Sound.fits_of_ok (h : Sound supply cells line) {removed : Option Cell} {next : Line}
    (hrun : operation.run line = .ok removed next) : operation.Fits cells.length := by
  rw [← h.size_eq]
  refine Classical.byContradiction fun hfits => ?_
  obtain ⟨outside, -, houtside⟩ := run_outside hfits
  cases houtside.symm.trans hrun

/-- **Behind any operations the line holds what the succeeding ones make of its cells.** -/
theorem Sound.reached (h : Sound supply cells line) (operations : List Operation) :
    Sound supply ((succeeding operations line).foldl Operation.onCells cells)
      (reached operations line) := by
  induction operations generalizing line cells with
  | nil => exact h
  | cons operation operations ih =>
    rw [Line.reached, succeeding]
    cases hrun : operation.run line with
    | ok removed next => exact ih ((h.run (h.fits_of_ok hrun)).of_ok hrun).2.1
    | error fault kept => exact ih (h.keeps hrun).1

/-! ## A list of cells in slots -/

theorem slotsAfter_eq (initial doublings : Nat) :
    slotsAfter initial doublings = max initial 1 * Nat.pow 2 doublings := by
  induction doublings with
  | zero => exact (Nat.mul_one _).symm
  | succ doublings ih =>
    rw [slotsAfter, ih, Nat.mul_assoc]
    rfl

/-- The slots of a line in order: those in use come first and the others are empty, and there are as many
of them as some doublings of the slots at the start give, within the limit. -/
structure InOrder (initial limit : Nat) (line : Line) : Prop where
  size_le : line.size ≤ line.capacity
  spare : ∀ place, line.size ≤ place → place < line.capacity → line.slots[place]? = some Cell.empty
  doubled : ∃ doublings, line.capacity = max initial 1 * Nat.pow 2 doublings
  within : line.capacity ≤ limit

theorem Sound.inOrder (h : Sound supply cells line) : InOrder supply.initial supply.limit line where
  size_le := h.size_le_capacity
  spare place hsize hplace := by
    obtain ⟨spare, hs⟩ := h.holds
    exact hs.getElem?_spare (by rwa [← hs.size]) hplace
  doubled := by
    obtain ⟨doublings, hdoublings⟩ := h.doubled
    exact ⟨doublings, hdoublings.trans (slotsAfter_eq _ _)⟩
  within := h.within

/-- **A line is a list of cells**, whatever is asked of it and whichever request for storage is refused.
Behind any operations its cells are those that the operations that succeeded make of the empty list, and
its slots are in order.  An operation at a place that the line has does what it does to the list, yields
the cell that it takes out, and leaves no fewer slots; slot by slot it uses no index outside the slots.
It can fail only for the want of storage, when all slots are in use and one more is needed, and then it
leaves cells and slots as they are.  At a place that the line does not have it fails before it asks for
storage, and leaves everything as it is. -/
theorem refines_list {initial limit : Nat} {memory after : Memory} {start : Line}
    (hcreate : create initial limit memory = .ok start after) (operations : List Operation) :
    let line := reached operations start
    line.cells = (succeeding operations start).foldl Operation.onCells [] ∧
    InOrder initial limit line ∧
    ∀ operation : Operation,
      (operation.Fits line.size →
        Ends operation.run line
          (fun removed next => removed = operation.removed? line.cells ∧
            next.cells = operation.onCells line.cells ∧ line.capacity ≤ next.capacity)
          (fun fault kept => fault.toFailure.category = .allocation ∧ operation.grows = true ∧
            line.size = line.capacity ∧ kept = { line with memory := kept.memory }) ∧
        ∀ trap, operation.slotwise trap line = operation.run line) ∧
      (¬ operation.Fits line.size →
        ∃ fault, fault.toFailure.category = .bounds ∧ operation.run line = .error fault line) := by
  intro line
  have h : Sound ⟨initial, limit, memory.answer⟩ _ line := (sound_create hcreate).reached operations
  have hcells := h.cells_eq
  refine ⟨hcells, h.inOrder, fun operation => ⟨fun hfits => ?_, run_outside⟩⟩
  have hplace := hfits
  rw [h.size_eq] at hplace
  refine ⟨(h.run hplace).mono ?_ ?_, h.slotwise_run hplace⟩
  · rintro removed next ⟨hremoved, hnext, hcapacity⟩
    rw [hcells]
    exact ⟨hremoved, hnext.cells_eq, hcapacity⟩
  · rintro fault kept ⟨hgrows, hgrow⟩
    obtain ⟨hfull, -⟩ := (grow_ends line).of_error hgrow
    obtain ⟨-, hfault, hframe⟩ := h.toSettled.grow.of_error hgrow
    exact ⟨hfault.category, hgrows, Nat.le_antisymm h.size_le_capacity hfull, hframe⟩

/-- A cell that is refused storage, one that is put behind the end, and one that is taken out are not in
the line; the cell that storage is granted for is. -/
theorem refines_list_over_refusal :
    ∃ start after, create 1 4
        { answer := fun request _ => if request = 1 then some .exhausted else none } = .ok start after ∧
      let line := reached [.append (Cell.ofChar 'a'), .append (Cell.ofChar 'x'),
        .insert (Cell.ofChar 'y') 2, .append (Cell.ofChar 'b'), .erase 0] start
      line.cells = [Cell.ofChar 'b'] ∧ InOrder 1 4 line ∧ line.capacity = 2 ∧
      (∃ fault, fault.toFailure.category = .bounds ∧
        (Operation.erase 1).run line = .error fault line) := by
  refine ⟨_, _, rfl, ?_⟩
  obtain ⟨hcells, horder, hoperations⟩ := @refines_list 1 4
    { answer := fun request _ => if request = 1 then some .exhausted else none } _ _ rfl
    [.append (Cell.ofChar 'a'), .append (Cell.ofChar 'x'), .insert (Cell.ofChar 'y') 2,
      .append (Cell.ofChar 'b'), .erase 0]
  exact ⟨hcells.trans (by decide +kernel), horder, by decide +kernel,
    (hoperations (.erase 1)).2 (by decide +kernel)⟩

end LineEditor.Line
