import LineEditor.Line
import LineEditor.Proofs.Action.Outcomes

/-!
# Lines as lists of cells

`Line` keeps its cells at the start of an array of slots.  This file says what each operation does
to the list of cells, and when there is room for one cell more.

* `Holds` — the cells in use, followed by empty slots only.
* `slotsAfter` — the number of slots after some doublings.
* `Settled` — a line that `create` has made from a supply of slots and that holds some cells.
* `HasRoom` — some number of doublings makes room for that many cells, within the limit and with
  storage that the machine grants.
* `settled_create`, `Settled.grow`, `Settled.store` — what the operations do, whether there is room or
  not.
* `CanHold` — a line can be made and grows up to that many cells; `canHold_of_doublings` — where it can,
  and `HasRoom.canHold`.
* `store_of_grow`, `erase_ok` — they succeed where the line can grow, and where there is a cell.
-/

set_option autoImplicit false

namespace LineEditor.Line

/-! ## Slots and cells -/

/-- The line holds `cells`, and `spare` empty slots behind them. -/
structure Holds (line : Line) (cells : List Cell) (spare : Nat) : Prop where
  size : line.size = cells.length
  slots : line.slots.toList = cells ++ List.replicate spare Cell.empty

variable {line : Line} {cells : List Cell} {cell : Cell} {spare index : Nat}

theorem Holds.cells_eq (h : line.Holds cells spare) : line.cells = cells := by
  rw [Line.cells, h.slots, h.size, List.take_left]

theorem Holds.capacity_eq (h : line.Holds cells spare) : line.capacity = cells.length + spare := by
  rw [capacity, ← Array.length_toList, h.slots, List.length_append, List.length_replicate]

theorem Holds.getD_slots (h : line.Holds cells spare) (hindex : index < cells.length) :
    line.slots.getD index Cell.empty = cells.getD index Cell.empty := by
  rw [Array.getD_eq_getD_getElem?, ← Array.getElem?_toList, h.slots,
    List.getElem?_append_left hindex, List.getD_eq_getElem?_getD]

theorem Holds.extend (h : line.Holds cells spare) (more : Nat) (memory : Memory) :
    Holds { line with slots := line.slots ++ Array.replicate more Cell.empty, memory } cells
      (spare + more) where
  size := h.size
  slots := by simp [h.slots]

theorem Holds.append (h : line.Holds cells (spare + 1)) (cell : Cell) :
    Holds { line with slots := line.slots.setIfInBounds line.size cell, size := line.size + 1 }
      (cells ++ [cell]) spare where
  size := by simp [h.size]
  slots := by
    rw [Array.toList_setIfInBounds, h.slots, h.size, List.set_append_right _ _ (Nat.le_refl _)]
    simp [List.replicate_succ]

theorem insertIdx_eq (h : index ≤ cells.length) :
    cells.insertIdx index cell = cells.take index ++ cell :: cells.drop index := by
  induction cells generalizing index with
  | nil =>
    rw [List.length_nil, Nat.le_zero] at h
    subst h
    rfl
  | cons c cells ih =>
    cases index with
    | zero => rfl
    | succ index =>
      rw [List.insertIdx_succ_cons, ih (Nat.le_of_succ_le_succ h)]
      rfl

theorem insertIdx_append (more : List Cell) (h : index ≤ cells.length) :
    (cells ++ more).insertIdx index cell = cells.insertIdx index cell ++ more := by
  have hlonger : index ≤ (cells ++ more).length := by
    rw [List.length_append]
    omega
  rw [insertIdx_eq hlonger, insertIdx_eq h, List.take_append_of_le_length h,
    List.drop_append_of_le_length h, List.append_assoc, List.cons_append]

theorem Holds.insert (h : line.Holds cells (spare + 1)) (cell : Cell) (hindex : index ≤ cells.length) :
    Holds { line with
      slots := line.slots.pop.insertIdxIfInBounds index cell, size := line.size + 1 }
      (cells.insertIdx index cell) spare where
  size := by rw [List.length_insertIdx_of_le_length hindex, h.size]
  slots := by
    have hpop : line.slots.pop.toList = cells ++ List.replicate spare Cell.empty := by
      rw [Array.toList_pop, h.slots, List.replicate_succ', ← List.append_assoc, List.dropLast_concat]
    have hbound : index ≤ line.slots.pop.size := by
      rw [← Array.length_toList, hpop, List.length_append]
      omega
    rw [Array.insertIdxIfInBounds, dif_pos hbound, Array.toList_insertIdx, hpop,
      insertIdx_append _ hindex]

theorem Holds.erase (h : line.Holds cells spare) (hindex : index < cells.length) :
    Holds { line with
      slots := (line.slots.eraseIdxIfInBounds index).push Cell.empty, size := line.size - 1 }
      (cells.eraseIdx index) (spare + 1) where
  size := by rw [List.length_eraseIdx_of_lt hindex, h.size]
  slots := by
    rw [Array.toList_push, Array.toList_eraseIdxIfInBounds, h.slots,
      List.eraseIdx_append_of_lt_length hindex, List.append_assoc, ← List.replicate_succ']

/-! ## Room to grow -/

/-- The number of slots after some doublings. -/
def slotsAfter (initial : Nat) : Nat → Nat
  | 0 => max initial 1
  | doublings + 1 => slotsAfter initial doublings * 2

variable {initial count : Nat}

theorem slotsAfter_mono {i j : Nat} (h : i ≤ j) : slotsAfter initial i ≤ slotsAfter initial j := by
  induction h with
  | refl => exact Nat.le_refl _
  | step _ ih => rw [slotsAfter]; omega

theorem double_le_slotsAfter {i j : Nat} (h : slotsAfter initial i < slotsAfter initial j) :
    slotsAfter initial i * 2 ≤ slotsAfter initial j := by
  by_cases hij : j ≤ i
  · have : slotsAfter initial j ≤ slotsAfter initial i := slotsAfter_mono hij
    omega
  · exact slotsAfter_mono (i := i + 1) (by omega)

/-- What a line draws on: the slots at the start, the slots that it never passes, and the answers of
the machine to requests for storage. -/
structure Supply where
  initial : Nat
  limit : Nat
  answer : Nat → Nat → Option Refusal

/-- A line can come to hold `count` cells: some number of doublings gives it the slots, the limit and
the machine word allow for them, and the machine grants the storage, whichever request it is. -/
def HasRoom (supply : Supply) (count : Nat) : Prop :=
  ∃ doublings, count ≤ slotsAfter supply.initial doublings ∧
    slotsAfter supply.initial doublings ≤ supply.limit ∧
    slotsAfter supply.initial doublings ≤ largestCount ∧
    ∀ request bytes, bytes ≤ slotsAfter supply.initial doublings * slotBytes →
      supply.answer request bytes = none

/-- A machine grants what its address space holds. -/
theorem machine_grants {bytes : Nat} (h : bytes ≤ Memory.addressSpace) (request : Nat) :
    Memory.machine.answer request bytes = none := by
  have hblock : Memory.addressSpace ≤ Memory.largestBlock := by decide
  change (if Memory.largestBlock < bytes then _ else if Memory.addressSpace < bytes then _ else none) =
    none
  rw [if_neg (by omega), if_neg (by omega)]

theorem HasRoom.mono {supply : Supply} {fewer : Nat} (h : HasRoom supply count)
    (hfewer : fewer ≤ count) : HasRoom supply fewer := by
  obtain ⟨doublings, hcount, hlimits⟩ := h
  exact ⟨doublings, Nat.le_trans hfewer hcount, hlimits⟩

/-- A line that `create` has made from a supply and that holds `cells` by now. -/
structure Settled (supply : Supply) (cells : List Cell) (line : Line) : Prop where
  holds : ∃ spare, line.Holds cells spare
  doubled : ∃ doublings, line.capacity = slotsAfter supply.initial doublings
  limit : line.limit = supply.limit
  answer : line.memory.answer = supply.answer

variable {supply : Supply}

theorem Settled.cells_eq (h : Settled supply cells line) : line.cells = cells := by
  obtain ⟨spare, hs⟩ := h.holds
  exact hs.cells_eq

theorem Settled.size_eq (h : Settled supply cells line) :
    line.size = cells.length := by
  obtain ⟨spare, hs⟩ := h.holds
  exact hs.size

theorem Settled.capacity_pos (h : Settled supply cells line) : 0 < line.capacity := by
  obtain ⟨doublings, hdoublings⟩ := h.doubled
  have hslots : slotsAfter supply.initial 0 ≤ slotsAfter supply.initial doublings :=
    slotsAfter_mono (Nat.zero_le _)
  rw [slotsAfter] at hslots
  omega

theorem Settled.size_le_capacity (h : Settled supply cells line) : line.size ≤ line.capacity := by
  obtain ⟨spare, hs⟩ := h.holds
  rw [hs.capacity_eq, hs.size]
  exact Nat.le_add_right _ _

/-- A line of other cells with as many slots from the same supply is settled too. -/
theorem Settled.change (h : Settled supply cells line) {other : Line} {others : List Cell}
    (hothers : other.Holds others spare) (hcapacity : other.capacity = line.capacity)
    (hlimit : other.limit = line.limit) (hmemory : other.memory = line.memory) :
    Settled supply others other := by
  obtain ⟨doublings, hdoublings⟩ := h.doubled
  refine ⟨⟨spare, hothers⟩, ⟨doublings, hcapacity.trans hdoublings⟩, hlimit.trans h.limit, ?_⟩
  rw [hmemory, h.answer]

/-! ## Making a line -/

/-- Whatever the limit and the storage, a line that was made is an empty line. -/
theorem settled_create {initial limit : Nat} {memory after : Memory}
    (h : create initial limit memory = .ok line after) :
    Settled ⟨initial, limit, memory.answer⟩ [] line := by
  unfold create at h
  dsimp only at h
  split at h
  · cases h
  · split at h
    · cases h
    · next hreserve =>
      cases h
      refine ⟨⟨max initial 1, rfl, ?_⟩, ⟨0, Array.size_replicate⟩, rfl, ?_⟩
      · rw [Array.toList_replicate, List.nil_append]
      · exact congrArg (fun reserved => reserved.2.answer) hreserve.symm

/-! ## Growing -/

/-- A fault of growing: the limit of the line, or the storage of the machine. -/
inductive Fault.Exhausts : Fault → Prop where
  | cannotDouble (capacity limit : Nat) : Exhausts (.cannotDouble capacity limit)
  | notReallocated (reason : Refusal) : Exhausts (.notReallocated reason)

theorem Fault.Exhausts.category {fault : Fault} (h : fault.Exhausts) :
    fault.toFailure.category = .allocation := by
  cases h <;> rfl

/-- **Growing leaves a slot to spare, or it changes nothing but the count of requests.** -/
theorem Settled.grow (h : Settled supply cells line) :
    Action.Ends Line.grow line
      (fun _ grown => Settled supply cells grown ∧ grown.size < grown.capacity)
      (fun fault kept => Settled supply cells kept ∧ fault.Exhausts ∧
        kept = { line with memory := kept.memory }) := by
  obtain ⟨spare, hs⟩ := h.holds
  obtain ⟨doublings, hdoublings⟩ := h.doubled
  have hpos := h.capacity_pos
  have hkept (memory : Memory) (hmemory : memory.answer = line.memory.answer) :
      Settled supply cells { line with memory } :=
    ⟨⟨spare, hs.size, hs.slots⟩, ⟨doublings, hdoublings⟩, h.limit, hmemory.trans h.answer⟩
  unfold Action.Ends Line.grow
  by_cases hfull : line.size < line.capacity
  · rw [if_pos hfull]
    exact ⟨h, hfull⟩
  rw [if_neg hfull]
  dsimp only
  by_cases hlimit : largestCount < line.capacity * 2 ∨ line.limit < line.capacity * 2
  · rw [if_pos hlimit]
    exact ⟨h, .cannotDouble _ _, rfl⟩
  rw [if_neg hlimit, Memory.reserve]
  cases hanswer : line.memory.answer line.memory.requests (line.capacity * 2 * slotBytes) with
  | some reason => exact ⟨hkept _ rfl, .notReallocated reason, rfl⟩
  | none =>
    have hgrown := hs.extend (line.capacity * 2 - line.capacity)
      { line.memory with requests := line.memory.requests + 1 }
    have hcapacity := hs.capacity_eq
    have hsize := hs.size
    have hextended := hgrown.capacity_eq
    refine ⟨⟨⟨_, hgrown⟩, ⟨doublings + 1, ?_⟩, h.limit, h.answer⟩, ?_⟩
    · rw [hextended, slotsAfter, ← hdoublings]
      omega
    · rw [hextended]
      change line.size < _
      omega

/-- Lines of the supply come to hold `count` cells: one can be made, and as long as it holds fewer it can
grow. -/
structure CanHold (supply : Supply) (count : Nat) : Prop where
  made {memory : Memory} (hmemory : memory.answer = supply.answer) :
    ∃ line after, create supply.initial supply.limit memory = .ok line after
  grows {line : Line} {cells : List Cell} (h : Settled supply cells line) (hfewer : cells.length < count) :
    ∃ grown, grow line = .ok () grown

theorem CanHold.mono {fewer : Nat} (h : CanHold supply count) (hfewer : fewer ≤ count) :
    CanHold supply fewer where
  made := h.made
  grows hline hcells := h.grows hline (Nat.lt_of_lt_of_le hcells hfewer)

/-- **Lines can hold as many cells as some number of doublings gives slots**, within the limit and with
the storage granted.  A machine word need not hold the slots of the start, which no doubling has made. -/
theorem canHold_of_doublings {doublings : Nat} (hlimit : slotsAfter supply.initial doublings ≤ supply.limit)
    (hword : slotsAfter supply.initial doublings = max supply.initial 1 ∨
      slotsAfter supply.initial doublings ≤ largestCount)
    (hgrant : ∀ request bytes, bytes ≤ slotsAfter supply.initial doublings * slotBytes →
      supply.answer request bytes = none) :
    CanHold supply (slotsAfter supply.initial doublings) := by
  have hstart (more : Nat) : max supply.initial 1 ≤ slotsAfter supply.initial more :=
    slotsAfter_mono (i := 0) (Nat.zero_le _)
  have hslots := hstart doublings
  constructor
  · intro memory hmemory
    have hanswer := hgrant memory.requests _ (Nat.mul_le_mul_right slotBytes hslots)
    rw [← hmemory] at hanswer
    rw [create, if_neg (by omega), Memory.reserve, hanswer]
    exact ⟨_, _, rfl⟩
  · intro line cells h hfewer
    obtain ⟨i, hi⟩ := h.doubled
    have hsize := h.size_eq
    have hline := hstart i
    by_cases hfull : line.size < line.capacity
    · exact ⟨line, if_pos hfull⟩
    have hdouble : line.capacity * 2 ≤ slotsAfter supply.initial doublings := by
      rw [hi]
      exact double_le_slotsAfter (by omega)
    have hanswer : line.memory.answer line.memory.requests (line.capacity * 2 * slotBytes) = none := by
      rw [h.answer]
      exact hgrant _ _ (Nat.mul_le_mul_right _ hdouble)
    rw [grow, if_neg hfull]
    dsimp only
    rw [if_neg (by rw [h.limit]; omega), Memory.reserve, hanswer]
    exact ⟨_, rfl⟩

theorem HasRoom.canHold (hroom : HasRoom supply count) : CanHold supply count := by
  obtain ⟨doublings, hcount, hlimit, hword, hgrant⟩ := hroom
  exact (canHold_of_doublings hlimit (.inr hword) hgrant).mono hcount

/-- A line with a slot to spare, as cells and empty slots. -/
theorem Settled.holds_succ (h : Settled supply cells line) (hroom : line.size < line.capacity) :
    ∃ spare, line.Holds cells (spare + 1) := by
  obtain ⟨spare, hs⟩ := h.holds
  have hcapacity := hs.capacity_eq
  have hsize := hs.size
  obtain ⟨more, rfl⟩ : ∃ more, spare = more + 1 := ⟨spare - 1, by omega⟩
  exact ⟨more, hs⟩

/-! ## Putting a cell in and taking one out -/

theorem insert_eq {grown : Line} (hindex : index ≤ line.size) (hgrow : grow line = .ok () grown) :
    insert cell index line = .ok () { grown with
      slots := grown.slots.pop.insertIdxIfInBounds index cell, size := grown.size + 1 } := by
  rw [insert, Action.get_bind, if_neg (Nat.not_lt.mpr hindex)]
  exact Action.bind_of_ok hgrow

/-- **An insertion puts the cell into the list, in the slots that growing leaves**, or the line cannot
grow. -/
theorem Settled.insert (h : Settled supply cells line) (cell : Cell) (hindex : index ≤ cells.length) :
    Action.Ends (Line.insert cell index) line
      (fun _ longer => Settled supply (cells.insertIdx index cell) longer ∧
        ∃ grown, Line.grow line = .ok () grown ∧ longer.capacity = grown.capacity)
      (fun fault kept => Line.grow line = .error fault kept) := by
  have hplace : ¬ line.size < index := by
    rw [h.size_eq]
    omega
  cases hline : Line.grow line with
  | error fault kept =>
    have hrun : Line.insert cell index line = .error fault kept := by
      rw [Line.insert, Action.get_bind, if_neg hplace]
      exact Action.bind_of_error hline
    exact Action.ends_of_error hrun rfl
  | ok _ grown =>
    obtain ⟨hgrown, hroom⟩ := h.grow.of_ok hline
    obtain ⟨spare, hs⟩ := hgrown.holds_succ hroom
    have hinsert := hs.insert cell hindex
    have hcapacity := hinsert.capacity_eq
    rw [List.length_insertIdx_of_le_length hindex, Nat.add_right_comm, Nat.add_assoc,
      ← hs.capacity_eq] at hcapacity
    exact Action.ends_of_ok (insert_eq (by omega) hline)
      ⟨hgrown.change hinsert hcapacity rfl rfl, grown, rfl, hcapacity⟩

/-- **An appended cell comes last, in the slots that growing leaves**, or the line cannot grow. -/
theorem Settled.append (h : Settled supply cells line) (cell : Cell) :
    Action.Ends (Line.append cell) line
      (fun _ longer => Settled supply (cells ++ [cell]) longer ∧
        ∃ grown, Line.grow line = .ok () grown ∧ longer.capacity = grown.capacity)
      (fun fault kept => Line.grow line = .error fault kept) := by
  cases hline : Line.grow line with
  | error fault kept => exact Action.ends_of_error (Action.bind_of_error hline) rfl
  | ok _ grown =>
    obtain ⟨hgrown, hroom⟩ := h.grow.of_ok hline
    obtain ⟨spare, hs⟩ := hgrown.holds_succ hroom
    have happend := hs.append cell
    have hcapacity := happend.capacity_eq
    rw [List.length_append, List.length_singleton, Nat.add_right_comm, Nat.add_assoc,
      ← hs.capacity_eq] at hcapacity
    exact Action.ends_of_ok (Action.bind_of_ok hline)
      ⟨hgrown.change happend hcapacity rfl rfl, grown, rfl, hcapacity⟩

/-- A cell that is appended behind the line and inserted elsewhere gets to its place, or the line is as
it was. -/
theorem Settled.store (h : Settled supply cells line) (cell : Cell) (hindex : index ≤ cells.length) :
    Action.Ends (if line.size ≤ index then Line.append cell else Line.insert cell index) line
      (fun _ longer => Settled supply (cells.insertIdx index cell) longer)
      (fun fault kept => Settled supply cells kept ∧ fault.Exhausts) := by
  have hfails (fault : Fault) (kept : Line) (hgrow : Line.grow line = .error fault kept) :
      Settled supply cells kept ∧ fault.Exhausts := by
    obtain ⟨hkept, hfault, -⟩ := h.grow.of_error hgrow
    exact ⟨hkept, hfault⟩
  by_cases hend : cells.length ≤ index
  · have hlast : index = cells.length := by omega
    rw [h.size_eq, if_pos hend, hlast, List.insertIdx_length_self]
    exact (h.append cell).mono (fun _ _ => And.left) hfails
  · rw [h.size_eq, if_neg hend]
    exact (h.insert cell hindex).mono (fun _ _ => And.left) hfails

/-- It does get there if the line can grow. -/
theorem store_of_grow {grown : Line} (hgrow : grow line = .ok () grown) (hindex : index ≤ line.size)
    (cell : Cell) :
    ∃ longer, (if line.size ≤ index then append cell else insert cell index) line = .ok () longer := by
  by_cases hend : line.size ≤ index
  · rw [if_pos hend]
    exact ⟨_, Action.bind_of_ok hgrow⟩
  · rw [if_neg hend]
    exact ⟨_, insert_eq hindex hgrow⟩

theorem erase_eq (hindex : index < line.size) :
    erase index line = .ok (line.slots.getD index Cell.empty) { line with
      slots := (line.slots.eraseIdxIfInBounds index).push Cell.empty, size := line.size - 1 } := by
  rw [erase, Action.get_bind, if_neg (Nat.not_le.mpr hindex)]
  rfl

theorem erase_ok (h : Settled supply cells line) (hindex : index < cells.length) :
    ∃ shorter, erase index line = .ok (cells.getD index Cell.empty) shorter ∧
      Settled supply (cells.eraseIdx index) shorter ∧ shorter.capacity = line.capacity := by
  obtain ⟨spare, hs⟩ := h.holds
  have herase := hs.erase hindex
  have hcapacity := herase.capacity_eq
  rw [List.length_eraseIdx_of_lt hindex, Nat.add_comm spare 1, ← Nat.add_assoc,
    Nat.sub_add_cancel (Nat.one_le_of_lt hindex), ← hs.capacity_eq] at hcapacity
  refine ⟨_, ?_, h.change herase hcapacity rfl rfl, hcapacity⟩
  rw [erase_eq (by rwa [h.size_eq]), hs.getD_slots hindex]

end LineEditor.Line
