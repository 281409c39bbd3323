import LineEditor.Proofs.Reader.OneLine

/-!
# Text as input

The encoding of a text is the way a terminal sends it when it is typed: every character that is no
control character is a key of its own and gets to the end of the line, and a line feed is a press of
Enter.

* `Editor.text_typed_chars` — the line that a text types.
* `Decoder.yields_encode`, `Decoder.closes_lineFeed`, `Decoder.closes_end` — the keys in an encoding, and
  what is behind them.
* `Reader.readLine_of_text` — one line of a text.
-/

set_option autoImplicit false

namespace LineEditor

variable {text : List Char}

/-! ## Cells of a text -/

/-- A character that is no control character can be typed. -/
theorem Cell.read_ofChar {c : Char} (h : Text.isControl c = false) :
    (ofChar c).char? = some c ∧ (ofChar c).isInsertable = true := by
  have hchar : (ofChar c).char? = some c := char?_ofChar (by
    rintro rfl
    exact absurd h (by decide))
  refine ⟨hchar, ?_⟩
  rw [isInsertable, hchar]
  exact congrArg not h

theorem Cell.filterMap_ofChar (h : ∀ c ∈ text, Text.isControl c = false) :
    (text.map ofChar).filterMap char? = text := by
  induction text with
  | nil => rfl
  | cons c text ih =>
    rw [List.map_cons, List.filterMap_cons_some (read_ofChar (h c List.mem_cons_self)).1,
      ih fun other hother => h other (List.mem_cons_of_mem _ hother)]

namespace Editor

/-- Characters that are typed at the end of a line make it longer. -/
theorem cells_pressAll_chars {editor : Editor} (hopen : editor.ended = false)
    (hend : editor.cursor = editor.cells.length) (h : ∀ c ∈ text, Text.isControl c = false) :
    (editor.pressAll (text.map Key.ofChar)).cells = editor.cells ++ text.map Cell.ofChar := by
  induction text generalizing editor with
  | nil => exact (List.append_nil _).symm
  | cons c text ih =>
    have hpress : editor.press (Key.ofChar c) = editor.insert (Cell.ofChar c) := by
      unfold press
      rw [if_neg (by rw [hopen]; exact Bool.false_ne_true)]
      exact if_pos (Cell.read_ofChar (h c List.mem_cons_self)).2
    have hcells : (editor.insert (Cell.ofChar c)).cells = editor.cells ++ [Cell.ofChar c] := by
      change editor.cells.take editor.cursor ++ Cell.ofChar c :: editor.cells.drop editor.cursor = _
      rw [hend, List.take_length, List.drop_length]
    have hnext : (editor.insert (Cell.ofChar c)).cursor = (editor.insert (Cell.ofChar c)).cells.length := by
      rw [length_insert, ← hend]
      rfl
    change ((editor.press (Key.ofChar c)).pressAll (text.map Key.ofChar)).cells = _
    have hstill : (editor.insert (Cell.ofChar c)).ended = false := hopen
    rw [hpress, ih hstill hnext fun other hother => h other (List.mem_cons_of_mem _ hother), hcells,
      List.append_assoc]
    rfl

/-- **A text that is typed is the line.** -/
theorem text_typed_chars (h : ∀ c ∈ text, Text.isControl c = false) :
    (typed (text.map Key.ofChar)).text = String.ofList (text ++ ['\n']) := by
  rw [Editor.text, typed, cells_pressAll_chars rfl rfl h]
  exact congrArg (fun front => String.ofList (front ++ ['\n'])) (Cell.filterMap_ofChar h)

end Editor

/-! ## Keys in an encoding -/

/-- A line is encoded as its text and the byte of a line feed. -/
theorem Utf8.encode_line (text more : List Char) :
    encode (text ++ '\n' :: more) = encode text ++ 10 :: encode more := by
  have hfeed : String.utf8EncodeChar '\n' = [10] := by decide
  rw [encode, encode, encode, List.flatMap_append, List.flatMap_cons, hfeed]
  rfl

namespace Decoder

variable {β : Type} [ByteSource β] {decoder : Decoder β} {rest : List UInt8}

theorem Faces.feeds (h : Faces .unix rest decoder) (hpending : decoder.pending = none) :
    ByteSource.Feeds decoder.source rest := by
  obtain ⟨-, fed, hfed, hrest⟩ := h
  rw [hpending] at hrest
  rwa [hrest]

/-- **The keys in the encoding of a text are its characters.** -/
theorem yields_encode (h : ∀ c ∈ text, Text.isControl c = false)
    (hfaces : Faces .unix (Utf8.encode text ++ rest) decoder) :
    ∃ last, KeySource.Yields decoder (text.map Key.ofChar) last ∧ Faces .unix rest last := by
  induction text generalizing decoder with
  | nil => exact ⟨decoder, .nil decoder, hfaces⟩
  | cons c text ih =>
    rw [Utf8.encode, List.flatMap_cons, List.append_assoc] at hfaces
    have hwrites : KeyLayout.Writes .unix (Key.ofChar c) (String.utf8EncodeChar c) :=
      .char (h c List.mem_cons_self) fun hlayout => absurd hlayout (by decide)
    obtain ⟨next, hread, hnext⟩ := takes_nextKey hwrites _ decoder hfaces
    obtain ⟨last, hyields, hlast⟩ := ih (fun other hother => h other (List.mem_cons_of_mem _ hother)) hnext
    exact ⟨last, .cons hread hyields, hlast⟩

/-- A line feed ends a line, and no byte behind it is read. -/
theorem closes_lineFeed (h : Faces .unix (10 :: rest) decoder) :
    ∃ next, KeySource.Closes decoder false next ∧ Faces .unix rest next ∧ next.pending = none := by
  obtain ⟨next, hbyte, hnext, hpending⟩ := nextByte_ok h
  have hstroke : nextStroke decoder = .ok (.control .enter) next := by
    rw [nextStroke, Action.bind_of_ok hbyte, Action.get_bind, hnext.layout]
    rfl
  have hkey : nextKey decoder = .ok (.control .enter) next := by
    rw [nextKey, Action.bind_of_ok hstroke]
    rfl
  exact ⟨next, .enter hkey, hnext, hpending⟩

/-- So does the end of the input. -/
theorem closes_end (h : Faces .unix [] decoder) : ∃ next, KeySource.Closes decoder true next := by
  obtain ⟨next, hend⟩ := nextKey_end h
  exact ⟨next, .endOfInput hend rfl⟩

end Decoder

/-! ## Lines of a text -/

namespace Reader

variable {τ κ : Type} [Terminal τ] [KeySource κ] {good : τ → Prop} (reader : Reader τ κ) {last rest : κ}
  {endOfInput : Bool}

/-- **A reader hands out one line of a text as it is.** -/
theorem readLine_of_text (hterminal : Session.NeverFails good) (hgood : good reader.terminal)
    (hopen : reader.exhausted = false) (h : ∀ c ∈ text, Text.isControl c = false)
    (hhold : Line.CanHold (Session.supplyOf reader.settings reader.memory) text.length)
    (hyields : KeySource.Yields reader.keys (text.map Key.ofChar) last)
    (hcloses : KeySource.Closes last endOfInput rest) :
    ∃ terminal memory, readLine reader = .ok (String.ofList (text ++ ['\n']))
        { reader with terminal, memory, keys := rest, exhausted := endOfInput } ∧
      good terminal ∧
      Session.supplyOf reader.settings memory = Session.supplyOf reader.settings reader.memory := by
  have htake : Session.CanTake (Session.supplyOf reader.settings reader.memory) Editor.blank
      (text.map Key.ofChar) := by
    refine Session.canTake_of_length (hhold.mono (Nat.le_of_eq ?_))
    rw [List.length_map]
    exact Nat.zero_add _
  have hkeys : (.control .enter : Key) ∉ text.map Key.ofChar := by
    intro hmem
    obtain ⟨c, -, hc⟩ := List.mem_map.mp hmem
    cases hc
  rw [← Editor.text_typed_chars h]
  exact readLine_of_yields reader hterminal hgood hopen htake hkeys hyields hcloses

end Reader

end LineEditor
