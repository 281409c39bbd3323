import LineEditor.Proofs.Line.Operations

/-!
# How much a line can hold

A line doubles its slots, so the limit alone does not say how many cells it can hold: that is the largest
number of slots that doublings reach within the limit.

* `mostSlots` — this number, and `isMost_mostSlots` that it is the largest.
* `Supply.Ample.canHold`, `Sound.grow_of_le` — where storage is granted, a line can grow just below it.
* `Wordwise.grow`, `wordwise_grow` — growing with all counts in machine words comes to the same.
* `holds_mostSlots` — the laws together.
-/

set_option autoImplicit false

open LineEditor.Action

namespace LineEditor.Line

/-! ## The most slots -/

/-- The largest number of slots that doublings reach within a limit. -/
def mostSlots (initial limit : Nat) : Nat := slotsAfter initial (Nat.log2 (limit / max initial 1))

/-- A number is the largest that some doublings of the slots at the start reach within the limit. -/
structure IsMost (initial limit most : Nat) : Prop where
  doubled : ∃ doublings, most = max initial 1 * Nat.pow 2 doublings
  within : most ≤ limit
  largest : ∀ doublings, max initial 1 * Nat.pow 2 doublings ≤ limit →
    max initial 1 * Nat.pow 2 doublings ≤ most

variable {initial limit : Nat}

theorem isMost_mostSlots (h : max initial 1 ≤ limit) : IsMost initial limit (mostSlots initial limit) := by
  have hpos : 0 < max initial 1 := by omega
  have hquotient : limit / max initial 1 ≠ 0 := Nat.ne_of_gt (Nat.div_pos h hpos)
  -- a number of doublings stays within the limit if its power of two divides out
  have hfits (doublings : Nat) :
      max initial 1 * Nat.pow 2 doublings ≤ limit ↔ doublings ≤ Nat.log2 (limit / max initial 1) := by
    rw [Nat.le_log2 hquotient, Nat.le_div_iff_mul_le hpos, Nat.mul_comm]
    rfl
  unfold mostSlots
  refine ⟨⟨_, slotsAfter_eq _ _⟩, ?_, fun doublings hdoublings => ?_⟩
  · rw [slotsAfter_eq]
    exact (hfits _).mpr (Nat.le_refl _)
  · rw [← slotsAfter_eq]
    exact slotsAfter_mono ((hfits _).mp hdoublings)

/-! ## Growing where storage is granted -/

variable {line : Line} {cells : List Cell} {supply : Supply}

/-- The slots of a line are never more than the most. -/
theorem Sound.capacity_le (h : Sound supply cells line) :
    line.capacity ≤ mostSlots supply.initial supply.limit := by
  obtain ⟨doublings, hdoublings⟩ := h.inOrder.doubled
  have hlimit : max supply.initial 1 ≤ supply.limit := by
    have hle : max supply.initial 1 * 1 ≤ max supply.initial 1 * Nat.pow 2 doublings :=
      Nat.mul_le_mul_left _ (Nat.pow_pos (by decide))
    have hwithin := h.within
    omega
  rw [hdoublings]
  exact (isMost_mostSlots hlimit).largest doublings (hdoublings ▸ h.within)

/-- Every request for storage is granted, and the limit is a count. -/
structure Supply.Ample (supply : Supply) : Prop where
  initial : max supply.initial 1 ≤ supply.limit
  limit : supply.limit ≤ largestCount
  grants : ∀ request bytes, supply.answer request bytes = none

/-- Lines can hold as many cells as the most slots. -/
theorem Supply.Ample.canHold (hample : supply.Ample) :
    CanHold supply (mostSlots supply.initial supply.limit) := by
  have hmost := (isMost_mostSlots hample.initial).within
  exact HasRoom.canHold ⟨_, Nat.le_refl _, hmost, Nat.le_trans hmost hample.limit,
    fun request bytes _ => hample.grants request bytes⟩

/-- With the most slots in use it cannot, and nothing changes. -/
theorem Sound.grow_of_le (h : Sound supply cells line) (hample : supply.Ample)
    (hle : mostSlots supply.initial supply.limit ≤ line.size) :
    Line.grow line = .error (.cannotDouble line.capacity line.limit) line := by
  have hcapacity := h.capacity_le
  have hsize := h.size_le_capacity
  cases hgrow : Line.grow line with
  | ok _ grown =>
    obtain ⟨hgrown, ⟨spare, hs⟩, -⟩ := h.grow hgrow
    have hmore := hgrown.capacity_le
    have hroom := hs.capacity_eq
    have hcells := h.size_eq
    omega
  | error fault kept =>
    obtain ⟨-, -, ⟨rfl, rfl, -⟩ | ⟨reason, -, hrefused⟩⟩ := (grow_ends line).of_error hgrow
    · rfl
    · rw [h.answer, hample.grants] at hrefused
      cases hrefused

/-- Below the most slots a line takes a cell at any place that it has. -/
theorem Sound.takes (h : Sound supply cells line) (hample : supply.Ample) {operation : Operation}
    (hgrows : operation.grows = true) (hfits : operation.Fits line.size)
    (hlt : line.size < mostSlots supply.initial supply.limit) :
    ∃ longer, operation.run line = .ok none longer := by
  rw [h.size_eq] at hfits hlt
  have hrun := h.run hfits
  obtain ⟨grown, hgrow⟩ := hample.canHold.grows h.toSettled hlt
  have hnone : operation.removed? cells = none := by
    cases operation with
    | append _ => rfl
    | insert _ _ => rfl
    | erase _ => cases hgrows
  cases htaken : operation.run line with
  | ok removed longer =>
    obtain ⟨rfl, -⟩ := hrun.of_ok htaken
    exact ⟨longer, by rw [hnone]⟩
  | error fault kept =>
    obtain ⟨-, hrefused⟩ := hrun.of_error htaken
    cases hgrow.symm.trans hrefused

/-! ## Counts in machine words -/

namespace Wordwise

/-- Twice a count, if a machine word holds it. -/
def double? (count : UInt64) : Option UInt64 :=
  if count.toNat * 2 ≤ largestCount then some (count * 2) else none

/-- Make room for one more cell, with the counts of cells and slots in machine words. -/
def grow : EStateM Fault Line Unit := fun line =>
  let size := UInt64.ofNat line.size
  let current := UInt64.ofNat line.capacity
  let limit := UInt64.ofNat line.limit
  if size < current then .ok () line
  else
    match (double? current).filter (· ≤ limit) with
    | none => .error (.cannotDouble current.toNat limit.toNat) line
    | some doubled =>
      match line.memory.reserve (doubled.toNat * slotBytes) with
      | (some reason, memory) => .error (.notReallocated reason) { line with memory }
      | (none, memory) =>
        .ok () { line with
          slots := line.slots ++ Array.replicate (doubled - current).toNat Cell.empty, memory }

end Wordwise

theorem toNat_ofNat {count : Nat} (h : count ≤ largestCount) : (UInt64.ofNat count).toNat = count :=
  UInt64.toNat_ofNat_of_lt' (Nat.lt_of_le_of_lt h (by decide))

/-- A doubling within a limit that a machine word holds is the true one. -/
theorem double?_within {count : Nat} (hcount : count ≤ limit) (hlimit : limit ≤ largestCount) :
    (Wordwise.double? (UInt64.ofNat count)).filter (· ≤ UInt64.ofNat limit) =
      if count * 2 ≤ limit then some (UInt64.ofNat (count * 2)) else none := by
  rw [Wordwise.double?, toNat_ofNat (Nat.le_trans hcount hlimit)]
  have htwo : UInt64.ofNat count * 2 = UInt64.ofNat (count * 2) := (UInt64.ofNat_mul count 2).symm
  by_cases hdouble : count * 2 ≤ largestCount
  · have hle : UInt64.ofNat (count * 2) ≤ UInt64.ofNat limit ↔ count * 2 ≤ limit := by
      rw [UInt64.le_iff_toNat_le, toNat_ofNat hdouble, toNat_ofNat hlimit]
    rw [if_pos hdouble, htwo, Option.filter_some]
    simp only [hle, decide_eq_true_eq]
  · rw [if_neg hdouble, if_neg (by omega)]
    rfl

/-- **No count of a line is too large for a machine word.** -/
theorem wordwise_grow (hsize : line.size ≤ line.capacity) (hcapacity : line.capacity ≤ line.limit)
    (hlimit : line.limit ≤ largestCount) : Wordwise.grow line = grow line := by
  have hword := Nat.le_trans hcapacity hlimit
  have hless : UInt64.ofNat line.size < UInt64.ofNat line.capacity ↔ line.size < line.capacity := by
    rw [UInt64.lt_iff_toNat_lt, toNat_ofNat (Nat.le_trans hsize hword), toNat_ofNat hword]
  unfold Wordwise.grow grow
  simp only [hless, double?_within hcapacity hlimit, toNat_ofNat hword, toNat_ofNat hlimit]
  by_cases hfull : line.size < line.capacity
  · rw [if_pos hfull, if_pos hfull]
  rw [if_neg hfull, if_neg hfull]
  by_cases hwithin : line.capacity * 2 ≤ line.limit
  · have hdoubled := toNat_ofNat (Nat.le_trans hwithin hlimit)
    have hmore : (UInt64.ofNat (line.capacity * 2) - UInt64.ofNat line.capacity).toNat =
        line.capacity * 2 - line.capacity := by
      rw [UInt64.toNat_sub_of_le, hdoubled, toNat_ofNat hword]
      rw [UInt64.le_iff_toNat_le, hdoubled, toNat_ofNat hword]
      omega
    rw [if_pos hwithin, if_neg (by omega)]
    cases hreserve : line.memory.reserve (line.capacity * 2 * slotBytes) with
    | mk refusal memory => cases refusal <;> simp only [hdoubled, hmore, hreserve]
  · rw [if_neg hwithin, if_pos (by omega)]

/-! ## How much a line can hold -/

/-- **A line can hold just as many cells as the largest doubling of its slots within the limit**, if
storage is granted.  Behind any operations it holds no more, and a cell gets to any place that the line
has as long as it holds fewer; then the line is full, and refuses the cell because it cannot double.
Whatever is taken out of the line, it takes a cell again.  And all its counts fit a machine word. -/
theorem holds_mostSlots {memory : Memory} (hlimit : max initial 1 ≤ limit)
    (hword : limit ≤ largestCount) (hgrants : ∀ request bytes, memory.answer request bytes = none) :
    IsMost initial limit (mostSlots initial limit) ∧
    ∃ start after, create initial limit memory = .ok start after ∧
      ∀ operations : List Operation,
        let line := reached operations start
        line.size ≤ mostSlots initial limit ∧
        (∀ operation : Operation, operation.grows = true → operation.Fits line.size →
          (line.size < mostSlots initial limit → ∃ longer, operation.run line = .ok none longer) ∧
          (mostSlots initial limit ≤ line.size → ∃ fault, operation.run line = .error fault line ∧
            fault.toFailure.category = .allocation ∧ fault.toFailure.code = "CAPACITY_OVERFLOW")) ∧
        (∀ index < line.size, ∃ cell shorter, erase index line = .ok cell shorter ∧
          ∀ operation : Operation, operation.grows = true → operation.Fits shorter.size →
            ∃ longer, operation.run shorter = .ok none longer) ∧
        line.capacity ≤ largestCount ∧ Wordwise.grow line = grow line := by
  have hample : Supply.Ample ⟨initial, limit, memory.answer⟩ := ⟨hlimit, hword, hgrants⟩
  have hmade : ∃ start after, create initial limit memory = .ok start after := hample.canHold.made rfl
  obtain ⟨start, after, hcreate⟩ := hmade
  have hmost := isMost_mostSlots hlimit
  refine ⟨hmost, start, after, hcreate, fun operations => ?_⟩
  intro line
  have h : Sound ⟨initial, limit, memory.answer⟩ _ line := (sound_create hcreate).reached operations
  have hcapacity : line.capacity ≤ mostSlots initial limit := h.capacity_le
  have hsize := h.size_le_capacity
  refine ⟨Nat.le_trans hsize hcapacity, fun operation hgrows hfits => ⟨fun hlt => ?_, fun hle => ?_⟩,
    fun index hindex => ?_, ?_, ?_⟩
  · exact h.takes hample hgrows hfits hlt
  · refine ⟨_, run_of_grow_error hgrows hfits (h.grow_of_le hample hle), rfl, rfl⟩
  · rw [h.size_eq] at hindex
    obtain ⟨shorter, herase, hsettled, hsame⟩ := erase_ok h.toSettled hindex
    have hshorter := h.of_settled hsettled hsame
    refine ⟨_, shorter, herase, fun operation hgrows hfits => hshorter.takes hample hgrows hfits ?_⟩
    have hline := h.size_eq
    rw [hshorter.size_eq, List.length_eraseIdx_of_lt hindex]
    change _ < mostSlots initial limit
    omega
  · exact Nat.le_trans hcapacity (Nat.le_trans hmost.within hword)
  · exact wordwise_grow hsize (by rw [h.limit]; exact h.within) (by rw [h.limit]; exact hword)

/-- Three slots within a limit of ten double once, so such a line holds six cells. -/
theorem holds_mostSlots_of_six :
    mostSlots 3 10 = 6 ∧
    ∃ start after, create 3 10 Memory.plentiful = .ok start after ∧
      let line := reached (List.replicate 7 (.append (Cell.ofChar 'a'))) start
      line.size = 6 ∧
      (∃ fault, (Operation.append (Cell.ofChar 'b')).run line = .error fault line ∧
        fault.toFailure.category = .allocation ∧ fault.toFailure.code = "CAPACITY_OVERFLOW") ∧
      ∃ cell shorter, erase 5 line = .ok cell shorter ∧
        ∃ longer, (Operation.append (Cell.ofChar 'b')).run shorter = .ok none longer := by
  have hmost : mostSlots 3 10 = 6 := by decide
  obtain ⟨-, start, after, hcreate, hline⟩ :=
    @holds_mostSlots 3 10 Memory.plentiful (by decide) (by decide) fun _ _ => rfl
  refine ⟨hmost, start, after, hcreate, ?_⟩
  cases hcreate
  obtain ⟨-, htakes, herases, -⟩ := hline (List.replicate 7 (.append (Cell.ofChar 'a')))
  obtain ⟨cell, shorter, herase, hshorter⟩ := herases 5 (by decide +kernel)
  refine ⟨by decide +kernel, (htakes (.append (Cell.ofChar 'b')) rfl trivial).2 (by decide +kernel),
    cell, shorter, herase, hshorter (.append (Cell.ofChar 'b')) rfl trivial⟩

end LineEditor.Line
