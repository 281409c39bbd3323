import LineEditor.Proofs.Text.Cells

/-!
# Cells and lines as texts

A cell is filled with bytes up to the fourth and up to the first zero, whatever they are, and a line is
composed of cells, whatever they hold.  Neither loses a character and neither makes one up.

* `Cell.encode_prefix_kept` — filling a cell cuts no character that the bytes start with.
* `Cell.char?_ofBytes` — a cell stands for the character whose encoding the bytes start with.
* `Line.encode_compose` — the bytes of a composed line are those of its cells and a line feed.
* `Line.decodes_exactly` — the laws together.
-/

set_option autoImplicit false

namespace LineEditor

/-! ## Cells of bytes -/

namespace Cell

variable {cell : Cell} {bytes front : List UInt8} {c : Char}

/-- The bytes that fill a cell: at most four, and none from the first zero on. -/
def kept (bytes : List UInt8) : List UInt8 := (bytes.take 4).takeWhile (· ≠ 0)

theorem kept_isPrefix (bytes : List UInt8) : kept bytes <+: bytes :=
  (List.takeWhile_prefix _).trans (List.take_prefix 4 bytes)

/-- Zeros stand behind the bytes that fill a cell. -/
theorem raw_padded (h : bytes.length ≤ 4) :
    (padded bytes).raw = bytes ++ List.replicate (4 - bytes.length) 0 := by
  match bytes, h with
  | [], _ | [_], _ | [_, _], _ | [_, _, _], _ | [_, _, _, _], _ => rfl

theorem raw_ofBytes (bytes : List UInt8) :
    (ofBytes bytes).raw = kept bytes ++ List.replicate (4 - (kept bytes).length) 0 := by
  have hlength : (kept bytes).length ≤ 4 :=
    Nat.le_trans (List.takeWhile_prefix _).length_le (List.length_take_le 4 bytes)
  exact raw_padded hlength

/-- What holds no zero reaches into no zeros. -/
theorem prefix_of_prefix_zeros {count : Nat} (h : front <+: bytes ++ List.replicate count 0)
    (hfront : ∀ byte ∈ front, byte ≠ 0) : front <+: bytes := by
  rcases List.prefix_or_prefix_of_prefix h (List.prefix_append bytes _) with hinside | ⟨more, rfl⟩
  · exact hinside
  · have hmore : more <+: List.replicate count 0 := (List.prefix_append_right_inj bytes).mp h
    have hnone : more = [] := by
      rw [List.eq_nil_iff_forall_not_mem]
      intro byte hbyte
      have hzero : byte = 0 := List.eq_of_mem_replicate (hmore.subset hbyte)
      exact hfront byte (List.mem_append_right _ hbyte) hzero
    exact ⟨[], by rw [hnone, List.append_nil, List.append_nil]⟩

/-- **Filling a cell cuts no character that the bytes start with**: an encoding has at most four bytes,
and that of no character but null has a zero. -/
theorem encode_prefix_kept (hc : c ≠ '\x00') :
    String.utf8EncodeChar c <+: kept bytes ↔ String.utf8EncodeChar c <+: bytes := by
  constructor
  · intro h
    exact h.trans (kept_isPrefix bytes)
  · rintro ⟨rest, rfl⟩
    have hlength : (String.utf8EncodeChar c).length ≤ 4 := by
      rw [String.length_utf8EncodeChar]
      exact Char.utf8Size_le_four c
    have hzero : ∀ byte ∈ String.utf8EncodeChar c, decide (byte ≠ 0) = true :=
      fun byte hbyte => decide_eq_true (Utf8.ne_zero_of_mem_encode hc hbyte)
    rw [kept, List.take_append, List.take_of_length_le hlength, List.takeWhile_append_of_pos hzero]
    exact List.prefix_append _ _

/-- **A cell of some bytes stands for the character whose encoding they start with**, if that is not
null, and for nothing if they start with no encoding. -/
theorem char?_ofBytes :
    (ofBytes bytes).char? = some c ↔ c ≠ '\x00' ∧ String.utf8EncodeChar c <+: bytes := by
  rw [char?_eq_some_iff, raw_ofBytes]
  refine and_congr_right fun hc => ?_
  rw [← encode_prefix_kept hc]
  constructor
  · rintro ⟨rest, hrest⟩
    exact prefix_of_prefix_zeros ⟨rest, hrest.symm⟩ fun byte => Utf8.ne_zero_of_mem_encode hc
  · rintro ⟨rest, hrest⟩
    exact ⟨rest ++ List.replicate (4 - (kept bytes).length) 0, by rw [← hrest, List.append_assoc]⟩

/-- The well-formed bytes of a cell are the encoding of its character, and as many as it is long. -/
theorem read_of_char? (h : cell.char? = some c) :
    cell.bytes = String.utf8EncodeChar c ∧ cell.length = (String.utf8EncodeChar c).length := by
  have hbytes : cell.bytes = String.utf8EncodeChar c := by rw [bytes_eq, h]
  exact ⟨hbytes, by rw [← length_bytes, hbytes]⟩

theorem read_of_char?_none (h : cell.char? = none) : cell.bytes = [] ∧ cell.length = 0 := by
  have hbytes : cell.bytes = [] := by rw [bytes_eq, h]
  exact ⟨hbytes, by rw [← length_bytes, hbytes, List.length_nil]⟩

/-- A character makes a cell that stands for it; only null makes the empty one. -/
theorem char?_ofChar_iff : (ofChar c).char? = some c ↔ c ≠ '\x00' :=
  ⟨fun h => (char?_eq_some_iff.mp h).1, char?_ofChar⟩

/-- The number of well-formed bytes that some cells hold together. -/
def lengthOf : List Cell → Nat
  | [] => 0
  | cell :: cells => cell.length + lengthOf cells

theorem length_flatMap_bytes (cells : List Cell) : (cells.flatMap Cell.bytes).length = lengthOf cells := by
  induction cells with
  | nil => rfl
  | cons cell cells ih => rw [List.flatMap_cons, List.length_append, length_bytes, ih, lengthOf]

end Cell

/-! ## Lines of cells -/

namespace Line

/-- **The bytes of a composed line are those of its cells and a line feed**, with none replaced. -/
theorem encode_compose (line : Line) : Utf8.encode line.compose.toList = line.encoded := by
  rw [compose_eq, String.toList_ofList, encoded_eq]

theorem decode_encoded (line : Line) : Utf8.decode line.encoded = some line.compose.toList := by
  rw [← encode_compose, Utf8.decode_encode]

theorem utf8ByteSize_compose (line : Line) :
    line.compose.utf8ByteSize = Cell.lengthOf line.cells + 1 := by
  have hbytes : line.compose.utf8ByteSize = (Utf8.encode line.compose.toList).length := by
    rw [compose_eq, String.toList_ofList]
    simp [String.ofList, List.utf8Encode, Utf8.encode]
  rw [hbytes, encode_compose, encoded, List.length_append, Cell.length_flatMap_bytes]
  rfl

/-- **Cells and lines decode exactly.**  A cell of any bytes stands for a character if and only if that
is not null and its encoding stands at the start of the bytes.  The length of any cell and its
well-formed bytes are those of the encoding of its character, and zero and none if it has no character.
A character makes a cell that stands for it, unless it is null.  Whatever the cells of a line hold, the
line is composed of the characters of those that have one, in order, and of a line feed; it is as many
bytes long as its cells and the line feed; and its bytes are the encoding of a text, so that nothing is
ever replaced in it. -/
theorem decodes_exactly :
    (∀ (bytes : List UInt8) (c : Char), (Cell.ofBytes bytes).char? = some c ↔
      c ≠ '\x00' ∧ String.utf8EncodeChar c <+: bytes) ∧
    (∀ cell : Cell, match cell.char? with
      | some c => cell.length = (String.utf8EncodeChar c).length ∧ cell.bytes = String.utf8EncodeChar c
      | none => cell.length = 0 ∧ cell.bytes = []) ∧
    (∀ c : Char, (Cell.ofChar c).char? = some c ↔ c ≠ '\x00') ∧
    ∀ line : Line,
      line.compose = String.ofList (line.cells.filterMap Cell.char? ++ ['\n']) ∧
      line.compose.utf8ByteSize = Cell.lengthOf line.cells + 1 ∧
      Utf8.decode line.encoded = some line.compose.toList ∧
      line.encoded = Utf8.encode line.compose.toList := by
  refine ⟨fun bytes c => Cell.char?_ofBytes, fun cell => ?_, fun c => Cell.char?_ofChar_iff,
    fun line => ⟨line.compose_eq, line.utf8ByteSize_compose, line.decode_encoded,
      line.encode_compose.symm⟩⟩
  cases hchar : cell.char? with
  | some c => exact (Cell.read_of_char? hchar).symm
  | none => exact (Cell.read_of_char?_none hchar).symm

/-- A malformed cell and an unused one add nothing to the line. -/
example : (⟨#[Cell.ofChar 'é', Cell.ofBytes [0xC3, 0x28], Cell.empty, Cell.ofChar '中'], 4, 8,
    Memory.plentiful⟩ : Line).compose = "é中\n" := by
  decide +kernel

end Line

end LineEditor
