/-!
# Tables of ranges

A set of numbers written as an array of ranges, both ends included, and searched by halving.

* `RangeTable.Ascending` — no range is empty and each lies wholly below the next; every table carries
  the proof that its ranges are so.
* `RangeTable.contains` — the search; `RangeTable.contains_iff_mem` says that it finds exactly the
  numbers that lie in a range.
-/

set_option autoImplicit false

namespace LineEditor.Text

namespace RangeTable

/-! ## Ascending tables -/

/-- No range is empty, each lies wholly below the next, and none reaches below `floor`. -/
def ascendsFrom (floor : Nat) : List (Nat × Nat) → Bool
  | [] => true
  | (first, last) :: rest => floor ≤ first && first ≤ last && ascendsFrom (last + 1) rest

/-- No range is empty and each lies wholly below the next. -/
def Ascending (ranges : Array (Nat × Nat)) : Prop := ascendsFrom 0 ranges.toList = true

instance (ranges : Array (Nat × Nat)) : Decidable (Ascending ranges) :=
  inferInstanceAs (Decidable (_ = _))

end RangeTable

/-- Ranges of numbers, both ends included, in ascending order. -/
structure RangeTable where
  ranges : Array (Nat × Nat)
  ascending : RangeTable.Ascending ranges

namespace RangeTable

theorem bounds_of_ascendsFrom {floor : Nat} {ranges : List (Nat × Nat)}
    (h : ascendsFrom floor ranges = true) : ∀ r ∈ ranges, floor ≤ r.1 ∧ r.1 ≤ r.2 := by
  induction ranges generalizing floor with
  | nil => simp
  | cons range rest ih =>
    obtain ⟨first, last⟩ := range
    simp only [ascendsFrom, Bool.and_eq_true, decide_eq_true_eq] at h
    intro r hr
    rcases List.mem_cons.mp hr with rfl | hr
    · exact h.1
    · have := ih h.2 r hr
      omega

theorem pairwise_of_ascendsFrom {floor : Nat} {ranges : List (Nat × Nat)}
    (h : ascendsFrom floor ranges = true) : ranges.Pairwise fun r s => r.2 < s.1 := by
  induction ranges generalizing floor with
  | nil => exact List.Pairwise.nil
  | cons range rest ih =>
    obtain ⟨first, last⟩ := range
    simp only [ascendsFrom, Bool.and_eq_true] at h
    exact List.Pairwise.cons (fun r hr => (bounds_of_ascendsFrom h.2 r hr).1) (ih h.2)

variable {table : RangeTable} {i j : Nat} {r s : Nat × Nat}

/-- Of two ranges of a table the earlier one lies wholly below the other. -/
theorem lt_of_lt (hi : table.ranges[i]? = some r) (hj : table.ranges[j]? = some s) (hij : i < j) :
    r.2 < s.1 := by
  obtain ⟨hi', rfl⟩ := Array.getElem?_eq_some_iff.mp hi
  obtain ⟨hj', rfl⟩ := Array.getElem?_eq_some_iff.mp hj
  exact List.pairwise_iff_getElem.mp (pairwise_of_ascendsFrom table.ascending) i j hi' hj' hij

/-- No range of a table is empty. -/
theorem le_of_getElem? (hi : table.ranges[i]? = some r) : r.1 ≤ r.2 :=
  (bounds_of_ascendsFrom table.ascending r
    (Array.mem_toList_iff.mpr (Array.mem_of_getElem? hi))).2

/-! ## Membership -/

/-- The numbers of a table are those that lie in one of its ranges. -/
instance : Membership Nat RangeTable where
  mem table n := ∃ r ∈ table.ranges, r.1 ≤ n ∧ n ≤ r.2

theorem mem_of_range {n : Nat} (hr : r ∈ table.ranges) (hfirst : r.1 ≤ n) (hlast : n ≤ r.2) :
    n ∈ table :=
  ⟨r, hr, hfirst, hlast⟩

/-- Look for `n` among the ranges from place `low` up to but without place `high`. -/
def search (table : RangeTable) (n low high : Nat) : Bool :=
  if low < high then
    let middle := (low + high) / 2
    match table.ranges[middle]? with
    | none => false
    | some (first, last) =>
      if n < first then search table n low middle
      else if last < n then search table n (middle + 1) high
      else true
  else false
termination_by high - low

/-- Does `n` lie in one of the ranges? -/
def contains (table : RangeTable) (n : Nat) : Bool := table.search n 0 table.ranges.size

theorem search_iff (n : Nat) {low high : Nat} (hsize : high ≤ table.ranges.size) :
    table.search n low high = true ↔
      ∃ i r, low ≤ i ∧ i < high ∧ table.ranges[i]? = some r ∧ r.1 ≤ n ∧ n ≤ r.2 := by
  fun_induction search table n low high with
  | case1 low high hlow middle hnone =>
    rw [Array.getElem?_eq_none_iff] at hnone
    omega
  | case2 low high hlow middle first last hmiddle hn ih =>
    rw [ih (by omega)]
    constructor
    · rintro ⟨i, r, h1, h2, h3⟩
      exact ⟨i, r, h1, by omega, h3⟩
    · rintro ⟨i, r, h1, h2, hr, h3, h4⟩
      refine ⟨i, r, h1, ?_, hr, h3, h4⟩
      rcases Nat.lt_trichotomy i middle with hi | rfl | hi
      · exact hi
      · rw [hmiddle] at hr
        cases hr
        simp only at h3
        omega
      · have := lt_of_lt hmiddle hr hi
        have := le_of_getElem? hmiddle
        simp only at *
        omega
  | case3 low high hlow middle first last hmiddle hn hlast ih =>
    rw [ih hsize]
    constructor
    · rintro ⟨i, r, h1, h2, h3⟩
      exact ⟨i, r, by omega, h2, h3⟩
    · rintro ⟨i, r, h1, h2, hr, h3, h4⟩
      refine ⟨i, r, ?_, h2, hr, h3, h4⟩
      rcases Nat.lt_trichotomy i middle with hi | rfl | hi
      · have := lt_of_lt hr hmiddle hi
        have := le_of_getElem? hmiddle
        simp only at *
        omega
      · rw [hmiddle] at hr
        cases hr
        simp only at h4
        omega
      · exact hi
  | case4 low high hlow middle first last hmiddle hn hlast =>
    simp only [true_iff]
    exact ⟨middle, (first, last), by omega, by omega, hmiddle, by simp only; omega,
      by simp only; omega⟩
  | case5 low high hlow =>
    simp only [Bool.false_eq_true, false_iff]
    rintro ⟨i, r, h1, h2, _⟩
    omega

/-- **The search finds exactly the numbers that lie in a range.** -/
theorem contains_iff_mem {n : Nat} : table.contains n = true ↔ n ∈ table := by
  rw [contains, search_iff n (Nat.le_refl _)]
  constructor
  · rintro ⟨i, r, -, -, hr, hfirst, hlast⟩
    exact mem_of_range (Array.mem_of_getElem? hr) hfirst hlast
  · rintro ⟨r, hr, hn⟩
    obtain ⟨i, hi, rfl⟩ := Array.mem_iff_getElem.mp hr
    exact ⟨i, _, Nat.zero_le _, hi, Array.getElem?_eq_getElem hi, hn⟩

instance (n : Nat) (table : RangeTable) : Decidable (n ∈ table) :=
  decidable_of_iff _ contains_iff_mem

end RangeTable

end LineEditor.Text
