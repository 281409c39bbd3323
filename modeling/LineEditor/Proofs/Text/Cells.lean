import LineEditor.Line
import LineEditor.Proofs.Text.Encoding

/-!
# What cells stand for

A cell stands for the character whose encoding its four bytes start with; the null character and
malformed bytes stand for nothing.

* `Cell.char?_eq_some_iff` — the character of a cell, by its bytes.
* `Cell.bytes_eq` — the bytes that a cell adds to a text are the encoding of its character.
* `Cell.char?_ofChar`, `Cell.ofBytes_encode` — the cells that are made from characters.
-/

set_option autoImplicit false

namespace LineEditor.Cell

open Utf8

variable {cell : Cell} {c : Char}

theorem raw_length (cell : Cell) : cell.raw.length = 4 := rfl

/-- A cell that does not start with zero stands for the sequence that it starts with. -/
theorem read_of_first_ne_zero (h : cell.first ≠ 0) :
    cell.char? = scalar? cell.raw ∧
      cell.bytes = (match scalar? cell.raw with
        | some c => String.utf8EncodeChar c
        | none => []) := by
  have hlength : cell.length = validLength cell.raw := if_neg h
  cases hw : classify cell.raw with
  | none =>
    have hnone : scalar? cell.raw = none := by simp [scalar?, hw]
    have hbytes : cell.bytes = [] := by simp [bytes, hlength, validLength, hw]
    rw [char?, hbytes, hnone]
    exact ⟨by decide, rfl⟩
  | some w =>
    obtain ⟨s, rest, hs, hraw⟩ := classify_eq_some_iff.mp hw
    have hbytes : cell.bytes = s := by
      simp only [bytes, hlength, validLength, hw, ← hs.length_eq]
      rw [hraw, List.take_left]
    have hscalar := hs.scalar?_append []
    rw [List.append_nil] at hscalar
    rw [char?, hbytes, hraw, hs.scalar?_append rest, hscalar]
    exact ⟨rfl, hs.encode_codePoint.symm⟩

theorem read_of_first_eq_zero (h : cell.first = 0) : cell.char? = none ∧ cell.bytes = [] := by
  have hbytes : cell.bytes = [] := by simp [bytes, length, h]
  exact ⟨by rw [char?, hbytes]; decide, hbytes⟩

/-- **The bytes that a cell adds to a text are the encoding of its character.** -/
theorem bytes_eq (cell : Cell) :
    cell.bytes = (match cell.char? with
      | some c => String.utf8EncodeChar c
      | none => []) := by
  by_cases h : cell.first = 0
  · rw [(read_of_first_eq_zero h).1, (read_of_first_eq_zero h).2]
  · rw [(read_of_first_ne_zero h).1, (read_of_first_ne_zero h).2]

/-- **A cell stands for the character whose encoding it starts with**, if that is not null. -/
theorem char?_eq_some_iff :
    cell.char? = some c ↔ c ≠ '\x00' ∧ ∃ rest, cell.raw = String.utf8EncodeChar c ++ rest := by
  have hhead {rest : List UInt8} (hraw : cell.raw = String.utf8EncodeChar c ++ rest) :
      cell.first ∈ String.utf8EncodeChar c := by
    cases hbytes : String.utf8EncodeChar c with
    | nil => exact absurd hbytes String.utf8EncodeChar_ne_nil
    | cons lead more =>
      rw [hbytes, raw, List.cons_append, List.cons.injEq] at hraw
      rw [hraw.1]
      exact List.mem_cons_self
  constructor
  · intro h
    have hfirst : cell.first ≠ 0 := by
      intro h0
      rw [(read_of_first_eq_zero h0).1] at h
      cases h
    rw [(read_of_first_ne_zero hfirst).1, scalar?_eq_some_iff] at h
    obtain ⟨rest, hraw⟩ := h
    refine ⟨?_, rest, hraw⟩
    rintro rfl
    exact hfirst (List.mem_singleton.mp (hhead hraw))
  · rintro ⟨hc, rest, hraw⟩
    have hfirst : cell.first ≠ 0 := ne_zero_of_mem_encode hc (hhead hraw)
    rw [(read_of_first_ne_zero hfirst).1]
    exact scalar?_eq_some_iff.mpr ⟨rest, hraw⟩

theorem length_le (cell : Cell) : cell.length ≤ 4 := by
  unfold length validLength
  split
  · exact Nat.zero_le _
  · split
    · next w _ => cases w <;> decide
    · exact Nat.zero_le _

theorem length_bytes (cell : Cell) : cell.bytes.length = cell.length := by
  rw [bytes, List.length_take, raw_length]
  exact Nat.min_eq_left cell.length_le

/-- The empty cells are those that stand for nothing. -/
theorem isEmpty_iff : cell.isEmpty = true ↔ cell.char? = none := by
  rw [isEmpty, beq_iff_eq, ← length_bytes, List.length_eq_zero_iff, bytes_eq]
  cases cell.char? with
  | none => simp
  | some c => simp [String.utf8EncodeChar_ne_nil]

/-! ## Cells of characters -/

theorem raw_padded_encode (c : Char) :
    ∃ rest, (padded (String.utf8EncodeChar c)).raw = String.utf8EncodeChar c ++ rest := by
  obtain ⟨w, hs⟩ := sequence_encode c
  generalize String.utf8EncodeChar c = s at hs
  cases hs with
  | one _ => exact ⟨[0, 0, 0], rfl⟩
  | two _ _ => exact ⟨[0, 0], rfl⟩
  | three _ _ => exact ⟨[0], rfl⟩
  | four _ _ _ => exact ⟨[], rfl⟩

/-- The cell of a character stands for the character. -/
theorem char?_ofChar (hc : c ≠ '\x00') : (ofChar c).char? = some c :=
  char?_eq_some_iff.mpr ⟨hc, raw_padded_encode c⟩

/-- Gathering the bytes of a character gives the cell of the character. -/
theorem ofBytes_encode (hc : c ≠ '\x00') : ofBytes (String.utf8EncodeChar c) = ofChar c := by
  have hlength : (String.utf8EncodeChar c).length ≤ 4 := by
    rw [String.length_utf8EncodeChar]
    exact Char.utf8Size_le_four c
  have hzero : (String.utf8EncodeChar c).takeWhile (· ≠ 0) = String.utf8EncodeChar c := by
    rw [← List.append_nil (String.utf8EncodeChar c), List.takeWhile_append_of_pos]
    · rfl
    · intro byte hbyte
      exact decide_eq_true (ne_zero_of_mem_encode hc (by simpa using hbyte))
  rw [ofBytes, List.take_of_length_le hlength, hzero, ofChar]

end LineEditor.Cell

namespace LineEditor.Line

/-- The bytes of a line encode the characters of its cells. -/
theorem encoded_eq (line : Line) :
    line.encoded = Utf8.encode (line.cells.filterMap Cell.char? ++ ['\n']) := by
  have hfeed : String.utf8EncodeChar '\n' = [10] := by decide
  rw [encoded, Utf8.encode, List.flatMap_append, List.flatMap_singleton, hfeed]
  congr 1
  induction line.cells with
  | nil => rfl
  | cons cell cells ih =>
    rw [List.flatMap_cons, ih, Cell.bytes_eq, List.filterMap_cons]
    cases cell.char? with
    | none => rfl
    | some c => rw [List.flatMap_cons]

/-- **The text of a line is made of the characters of its cells and a line feed.**  Its bytes are
always well formed, so nothing is ever repaired. -/
theorem compose_eq (line : Line) :
    line.compose = String.ofList (line.cells.filterMap Cell.char? ++ ['\n']) := by
  rw [compose, encoded_eq, Utf8.decode_encode]

end LineEditor.Line
