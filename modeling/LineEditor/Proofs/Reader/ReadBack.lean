import LineEditor.Proofs.Reader.CleanText
import LineEditor.Proofs.Reader.TypedText
import LineEditor.Proofs.Session.Operating

/-!
# Edited lines are read back

A line that was edited is clean text, and the session that edited it had the slots for it.  So with the
same settings the editor takes the line as it is.

* `Line.length_of_clean` — a line has a cell for each character of its text.
* `Reader.reads_back` — **the law**: the encoding of a line that was handed out is read as this line, and
  nothing behind it is read.
-/

set_option autoImplicit false

namespace LineEditor

theorem Line.length_of_clean {line : Line} {characters : List Char}
    (h : Text.Clean characters line.compose) : characters.length ≤ line.cells.length := by
  have hended := h.ended
  rw [Line.compose_eq, String.toList_ofList] at hended
  rw [← List.append_cancel_right hended]
  exact List.length_filterMap_le _ _

namespace Reader

variable {τ τ' κ β : Type} [Terminal τ] [Terminal τ'] [KeySource κ] [ByteSource β]

/-- **Edited lines are fixed points of the editor.**  Whatever line a reader hands out, whatever its keys
and its terminal are and whatever has happened before: on a terminal that never fails and with storage that
is granted, a new reader with the same settings reads the encoding of the line as the line, is not
exhausted, and leaves just what is behind the line. -/
theorem reads_back {reader next : Reader τ κ} {line : String} (hread : readLine reader = .ok line next)
    {good : τ' → Prop} (hterminal : Session.NeverFails good) {terminal : τ'} (hgood : good terminal)
    {memory : Memory} (hgrants : ∀ request bytes, memory.answer request bytes = none) {source : β}
    {rest : List UInt8} (hfeeds : ByteSource.Feeds source (Utf8.encode line.toList ++ rest)) :
    ∃ last : Reader τ' (Decoder β),
      readLine { terminal, keys := { source, layout := .unix }, settings := reader.settings, memory } =
        .ok line last ∧
      last.exhausted = false ∧ last.keys.layout = .unix ∧ last.keys.pending = none ∧
      ByteSource.Feeds last.keys.source rest := by
  obtain ⟨start, typed, -, session, -, hdriven, rfl⟩ := readLine_driven hread
  obtain ⟨characters, hclean, -⟩ := Session.driven_text hdriven
  -- the session has had slots for all characters, so the new line comes to hold them too
  obtain ⟨answer, cells, hsound⟩ := Session.driven_line hdriven
  have hlength : characters.length ≤ session.line.capacity := by
    have hcells := Line.length_of_clean hclean
    rw [hsound.cells_eq, ← hsound.size_eq] at hcells
    exact Nat.le_trans hcells hsound.size_le_capacity
  have hhold := (hsound.canHold hgrants).mono hlength
  rw [hclean.ended, Utf8.encode_line, List.append_assoc] at hfeeds
  have hfaces : Decoder.Faces .unix (Utf8.encode characters ++ 10 :: rest)
      { source, layout := .unix } := ⟨rfl, _, hfeeds, rfl⟩
  obtain ⟨middle, hyields, hmiddle⟩ := Decoder.yields_encode hclean.printable hfaces
  obtain ⟨behind, hcloses, hbehind, hpending⟩ := Decoder.closes_lineFeed hmiddle
  obtain ⟨closed, after, hback, -, -⟩ := readLine_of_text
    { terminal, keys := { source, layout := .unix }, settings := reader.settings, memory }
    hterminal hgood rfl hclean.printable hhold hyields hcloses
  have hline : String.ofList (characters ++ ['\n']) = session.line.compose := by
    rw [← hclean.ended, String.ofList_toList]
  rw [hline] at hback
  exact ⟨_, hback, rfl, hbehind.layout, hpending, hbehind.feeds hpending⟩

/-- A line that was put together with arrow keys is read back from its bytes, up to the byte behind it. -/
theorem reads_back_inserted :
    ∃ next : Reader Screen KeyScript, ∃ last : Reader Screen (Decoder (List UInt8)),
      readLine
        { terminal := { size := ⟨80, 24⟩ },
          keys := KeyScript.ofKeys [.printable (Cell.ofBytes [0xFF]), Key.ofChar 'b', .control .left,
            Key.ofChar 'é', .control .enter] : Reader Screen KeyScript } = .ok "éb\n" next ∧
      readLine
        { terminal := { size := ⟨40, 2⟩ },
          keys := { source := [0xC3, 0xA9, 98, 10, 120], layout := .unix },
          memory := Memory.plentiful : Reader Screen (Decoder (List UInt8)) } = .ok "éb\n" last ∧
      last.exhausted = false ∧ last.keys.pending = none ∧ ByteSource.Feeds last.keys.source [120] := by
  have hroom : Session.RoomFor (Session.supplyOf {} Memory.machine) Editor.blank
      [.printable (Cell.ofBytes [0xFF]), Key.ofChar 'b', .control .left, Key.ofChar 'é'] :=
    Session.roomFor_of_length ⟨0, by decide, by decide, by decide, fun request _ hbytes =>
      Line.machine_grants (Nat.le_trans hbytes (by decide)) request⟩
  have hready : Ready (Session.supplyOf {} Memory.machine) (fun screen => screen.refusesRaw = false)
      ([.printable (Cell.ofBytes [0xFF]), Key.ofChar 'b', .control .left, Key.ofChar 'é'] ++
        [.control .enter])
      { terminal := { size := ⟨80, 24⟩ },
        keys := KeyScript.ofKeys [.printable (Cell.ofBytes [0xFF]), Key.ofChar 'b', .control .left,
          Key.ofChar 'é', .control .enter] : Reader Screen KeyScript } := ⟨rfl, rfl, rfl⟩
  obtain ⟨next, hread, -, -⟩ :=
    readLine_ok Screen.neverFails hready rfl hroom (by decide) (.enter [])
  have hbytes : ByteSource.Feeds ([0xC3, 0xA9, 98, 10, 120] : List UInt8)
      (Utf8.encode "éb\n".toList ++ [120]) := by
    have hencode : Utf8.encode "éb\n".toList = [0xC3, 0xA9, 98, 10] := by decide +kernel
    rw [hencode]
    exact ByteSource.feeds_list _
  have hgood : ({ size := ⟨40, 2⟩ } : Screen).refusesRaw = false := rfl
  have hgrants : ∀ request bytes, Memory.plentiful.answer request bytes = none := fun _ _ => rfl
  obtain ⟨last, hback, hopen, -, hpending, hrest⟩ :=
    reads_back hread Screen.neverFails hgood hgrants hbytes
  exact ⟨next, last, hread, hback, hopen, hpending, hrest⟩

end Reader

end LineEditor
