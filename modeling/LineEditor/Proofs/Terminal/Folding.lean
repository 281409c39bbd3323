import Mathlib.Data.PFun
import LineEditor.Proofs.Screen.Cursor

/-!
# Positions are folded within machine words

A position is two machine words.  Folding takes one row of columns after another off the first of them and
counts the rows on the second, so a difference could fall below zero, a sum could outgrow its word, and
without columns there would be no end.

* `linear_wrap_iff` — folding keeps the number of a place just where the rows suffice.
* `Words` — the machine words of a position.
* `Wordwise.fold`, `Wordwise.wrap` — folding in machine words, as partial functions: they have no result
  where a difference is below zero or where there is no end.
* `Wordwise.pass_full` — **the step**: a row that is full can be taken off.
* `Wordwise.fold_eq` — **the run**: with columns the fold ends; `fold_zero` — without it does not.
* `folds_within_words` — the laws together, for any words.
-/

set_option autoImplicit false

namespace LineEditor.Position

/-- Folding keeps the number of a place just where the rows suffice. -/
theorem linear_wrap_iff {position : Position} {columns : Nat} (hcolumns : 0 < columns)
    (hrow : position.row ≤ largest) :
    (position.wrap columns).linear columns = position.linear columns ↔
      position.row + position.column / columns ≤ largest := by
  rw [wrap_divides hcolumns hrow, position.linear_eq columns, linear, Nat.add_right_cancel_iff,
    Nat.mul_left_inj (Nat.ne_of_gt hcolumns)]
  show min largest (position.row + position.column / columns) = _ ↔ _
  omega

/-! ## Machine words -/

/-- The machine words of a position. -/
structure Words where
  column : UInt16
  row : UInt16
  deriving DecidableEq, Repr

namespace Words

/-- The position that the words hold. -/
def position (words : Words) : Position := ⟨words.column.toNat, words.row.toNat⟩

theorem row_le (words : Words) : words.position.row ≤ largest :=
  Nat.le_of_lt_succ words.row.toNat_lt

theorem position_injective {words other : Words} (h : words.position = other.position) :
    words = other := by
  obtain ⟨hcolumn, hrow⟩ := Position.mk.inj h
  cases words
  cases other
  rw [mk.injEq]
  exact ⟨UInt16.toNat_inj.mp hcolumn, UInt16.toNat_inj.mp hrow⟩

end Words

namespace Wordwise

/-- The sum of two words, if a word holds it. -/
def sum? (word more : UInt16) : Option UInt16 :=
  if BitVec.uaddOverflow word.toBitVec more.toBitVec then none else some (word + more)

/-- The difference of two words, if it is not below zero. -/
def difference? (word less : UInt16) : Option UInt16 :=
  if BitVec.usubOverflow word.toBitVec less.toBitVec then none else some (word - less)

/-- The row below; below the last one it is the last again. -/
def nextRow (row : UInt16) : UInt16 := (sum? row 1).getD (UInt16.ofNat largest)

/-- One pass: a full row is taken off the column and counted, or there is none and the words stand. -/
def pass (columns : UInt16) : Words →. Words ⊕ Words := fun words =>
  if columns ≤ words.column then
    (Part.ofOption (difference? words.column columns)).map fun column =>
      .inr ⟨column, nextRow words.row⟩
  else .some (.inl words)

/-- Pass after pass, until there is no full row. -/
def fold (columns : UInt16) : Words →. Words := (pass columns).fix

/-- Fold the column onto the rows below, if there are columns. -/
def wrap (words : Words) (columns : UInt16) : Part Words :=
  if 0 < columns then fold columns words else .some words

variable {words : Words} {columns : UInt16}

/-! ## One pass -/

theorem difference?_eq {word less : UInt16} (h : less ≤ word) :
    difference? word less = some (word - less) := by
  have hno : BitVec.usubOverflow word.toBitVec less.toBitVec = false :=
    decide_eq_false (Nat.not_lt.mpr (UInt16.le_iff_toNat_le.mp h))
  rw [difference?, hno]
  rfl

theorem toNat_nextRow (row : UInt16) : (nextRow row).toNat = min (row.toNat + 1) largest := by
  by_cases hlast : row.toNat = largest
  · have hover : BitVec.uaddOverflow row.toBitVec (1 : UInt16).toBitVec = true :=
      decide_eq_true (by rw [UInt16.toNat_toBitVec, hlast]; decide)
    rw [nextRow, sum?, hover, hlast]
    rfl
  · have hword := row.toNat_lt
    have hsum : row.toNat + 1 ≤ largest := by
      unfold largest at *
      omega
    have hno : BitVec.uaddOverflow row.toBitVec (1 : UInt16).toBitVec = false :=
      decide_eq_false (Nat.not_le.mpr (Nat.lt_succ_of_le hsum))
    rw [nextRow, sum?, hno, Nat.min_eq_left hsum]
    show (row + 1).toNat = row.toNat + 1
    rw [UInt16.toNat_add]
    exact Nat.mod_eq_of_lt (Nat.lt_succ_of_le hsum)

/-- **The step**: a row that is full can be taken off, and words hold what is left. -/
theorem pass_full (h : columns ≤ words.column) :
    ∃ next, .inr next ∈ pass columns words ∧
      next.position =
        ⟨words.position.column - columns.toNat, min (words.position.row + 1) largest⟩ := by
  refine ⟨⟨words.column - columns, nextRow words.row⟩, ?_, ?_⟩
  · rw [pass, if_pos h, difference?_eq h]
    exact Part.mem_map _ (Part.mem_some _)
  · rw [Words.position, UInt16.toNat_sub_of_le _ _ h, toNat_nextRow]
    rfl

theorem pass_rest (h : words.column < columns) : .inl words ∈ pass columns words := by
  rw [pass, if_neg (UInt16.not_le.mpr h)]
  exact Part.mem_some _

/-! ## All passes -/

/-- **The run**: with columns the fold ends, where the position folds to. -/
theorem fold_eq (hcolumns : 0 < columns) :
    ∃ last, fold columns words = .some last ∧
      last.position = words.position.wrap columns.toNat := by
  generalize hstart : words.position = position
  induction position using Position.wrap.induct columns.toNat generalizing words with
  | case1 position hfold ih =>
    subst hstart
    obtain ⟨next, hpass, hnext⟩ := pass_full (UInt16.le_iff_toNat_le.mpr hfold.2)
    obtain ⟨last, hlast, hposition⟩ := ih hnext
    refine ⟨last, ?_, ?_⟩
    · rw [fold, PFun.fix_fwd_eq hpass]
      exact hlast
    · rw [hposition, wrap_of_le hfold.1 hfold.2]
  | case2 position hrest =>
    subst hstart
    have hcolumn : words.position.column < columns.toNat := by
      have hpos : 0 < columns.toNat := UInt16.lt_iff_toNat_lt.mp hcolumns
      omega
    refine ⟨words, ?_, (wrap_of_lt hcolumn).symm⟩
    exact Part.eq_some_iff.mpr (PFun.fix_stop (pass_rest (UInt16.lt_iff_toNat_lt.mpr hcolumn)))

/-- Without columns it does not: there is a full row in front of every pass. -/
theorem fold_zero : fold 0 words = .none := by
  refine Part.eq_none_iff.mpr fun last hlast => ?_
  -- the induction is on the passes up to an end, and none of them can be the last one
  refine PFun.fixInduction' hlast ?_ fun _ _ _ _ hnext => hnext
  intro words hends
  have hfull : 0 ≤ words.column := UInt16.zero_le
  obtain ⟨next, hpass, -⟩ := pass_full hfull
  cases Part.mem_unique hpass hends

theorem wrap_eq (words : Words) (columns : UInt16) :
    ∃ last, wrap words columns = .some last ∧
      last.position = words.position.wrap columns.toNat := by
  by_cases hcolumns : 0 < columns
  · rw [wrap, if_pos hcolumns]
    exact fold_eq hcolumns
  · obtain rfl : columns = 0 := UInt16.le_zero_iff.mp (UInt16.not_lt.mp hcolumns)
    exact ⟨words, rfl, wrap_zero.symm⟩

end Wordwise

/-- **Folding a position is a division that stops at the last row, and machine words suffice for it.**
For any words of a position and of a number of columns the fold has an end, no difference on the way is
below zero, and what it ends with is the folded position, which folding leaves as it is.  Without columns
nothing is folded, as the fold would have no end.  With columns the column left is the remainder, the row
is as many rows down as were full, as far as there are rows, and the number of the place is kept just
where there are. -/
theorem folds_within_words (words : Words) (columns : UInt16) :
    ∃ last, Wordwise.wrap words columns = .some last ∧
      last.position = words.position.wrap columns.toNat ∧
      Wordwise.wrap last columns = .some last ∧
      (columns = 0 → last = words ∧ Wordwise.fold columns words = .none) ∧
      (0 < columns →
        last.column.toNat = words.column.toNat % columns.toNat ∧
        last.row.toNat = min largest (words.row.toNat + words.column.toNat / columns.toNat) ∧
        (last.position.linear columns.toNat = words.position.linear columns.toNat ↔
          words.row.toNat + words.column.toNat / columns.toNat ≤ largest)) := by
  obtain ⟨last, hlast, hfolded⟩ := Wordwise.wrap_eq words columns
  refine ⟨last, hlast, hfolded, ?_, ?_, fun hcolumns => ?_⟩
  · obtain ⟨again, hagain, hsame⟩ := Wordwise.wrap_eq last columns
    rw [hfolded, wrap_wrap, ← hfolded] at hsame
    rw [hagain, Words.position_injective hsame]
  · rintro rfl
    exact ⟨Words.position_injective (hfolded.trans wrap_zero), Wordwise.fold_zero⟩
  · have hpos : 0 < columns.toNat := UInt16.lt_iff_toNat_lt.mp hcolumns
    obtain ⟨hcolumn, hrow⟩ := Position.mk.inj (hfolded.trans (wrap_divides hpos words.row_le))
    refine ⟨hcolumn, hrow, ?_⟩
    rw [hfolded]
    exact linear_wrap_iff hpos words.row_le

end LineEditor.Position
