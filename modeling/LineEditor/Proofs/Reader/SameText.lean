import LineEditor.PlainLines
import LineEditor.Proofs.Reader.Lines
import LineEditor.Proofs.Reader.TypedText
import LineEditor.Proofs.Text.Pieces

/-!
# Interactive and plain reading of the same text

Lines can be edited at a terminal, which sends the text as keys, or be read plainly from its bytes.  Both
part the text at its line feeds.  They differ only behind the last one: an editor hands out a line even if
nothing was typed, and plain reading does not.

* `LineSource.Drains`, `LineSource.Finished` — all lines of a source, and a source that has no more.
* `Reader.drains_text` — an editor hands out the pieces of the text.
* `PlainLines.drains_text` — plain reading hands out its lines.
* `LineSource.parts_text` — the laws together.
-/

set_option autoImplicit false

namespace LineEditor

/-! ## All lines of a source -/

namespace LineSource

/-- Asking for lines for as long as another may be asked for, and until the input ends, comes to these
lines. -/
inductive Drains {σ : Type} [LineSource σ] : σ → List String → σ → Prop where
  | closed {source : σ} (hclosed : hasNext source = false) : Drains source [] source
  | line {source next last : σ} {line : String} {lines : List String} (hnext : hasNext source = true)
      (hread : readLine source = .ok line next) (hlines : Drains next lines last) :
    Drains source (line :: lines) last
  | ended {source last : σ} {failure : Failure} (hnext : hasNext source = true)
      (hread : readLine source = .error failure last) (hend : failure.isEndOfInput = true) :
    Drains source [] last

/-- No other line may be asked for, and who asks is told the end of the input, time and again. -/
structure Finished {σ : Type} [LineSource σ] (source : σ) : Prop where
  hasNext : LineSource.hasNext source = false
  readLine : LineSource.readLine source = .error .endOfInput source

end LineSource

open LineSource Text

/-! ## Lines that are edited -/

/-- A piece of a text without control characters but for line feeds has none. -/
theorem Text.printable_of_piece {text piece : List Char}
    (htext : ∀ c ∈ text, c = '\n' ∨ Text.isControl c = false) (h : '\n' ∉ piece)
    (hpiece : ∀ c ∈ piece, c ∈ text) : ∀ c ∈ piece, Text.isControl c = false := by
  intro c hc
  refine (htext c (hpiece c hc)).resolve_left ?_
  rintro rfl
  exact h hc

namespace Reader

variable {τ β : Type} [Terminal τ] [ByteSource β] {good : τ → Prop}

theorem finished {κ : Type} [KeySource κ] {reader : Reader τ κ} (h : reader.exhausted = true) :
    Finished reader := ⟨if_pos h, if_pos h⟩

theorem hasNext_of_open {κ : Type} [KeySource κ] {reader : Reader τ κ}
    (hok : ∀ terminal, good terminal → Terminal.isOk terminal = true ∧ Terminal.lastFailure terminal = none)
    (hgood : good reader.terminal) (hopen : reader.exhausted = false) :
    LineSource.hasNext reader = true := by
  obtain ⟨hwell, hnone⟩ := hok _ hgood
  change hasNext reader = true
  rw [hasNext, hopen, if_neg Bool.false_ne_true, hnone]
  exact hwell

/-- **An editor hands out the pieces of a text**, each with a line feed. -/
theorem drains_text (hterminal : Session.NeverFails good)
    (hok : ∀ terminal, good terminal → Terminal.isOk terminal = true ∧ Terminal.lastFailure terminal = none)
    {text : List Char} (htext : ∀ c ∈ text, c = '\n' ∨ Text.isControl c = false)
    (reader : Reader τ (Decoder β)) (hgood : good reader.terminal) (hopen : reader.exhausted = false)
    (hhold : ∀ piece ∈ pieces text,
      Line.CanHold (Session.supplyOf reader.settings reader.memory) piece.length)
    (hfaces : Decoder.Faces .unix (Utf8.encode text) reader.keys) :
    ∃ last, Drains reader ((pieces text).map closed) last ∧ last.exhausted = true := by
  induction text using pieces_induction generalizing reader with
  | last piece hpiece =>
    have hprintable := Text.printable_of_piece htext hpiece fun _ hc => hc
    rw [pieces_last hpiece] at hhold ⊢
    rw [← List.append_nil (Utf8.encode piece)] at hfaces
    obtain ⟨middle, hyields, hmiddle⟩ := Decoder.yields_encode hprintable hfaces
    obtain ⟨behind, hcloses⟩ := Decoder.closes_end hmiddle
    obtain ⟨terminal, memory, hread, -, -⟩ := readLine_of_text reader hterminal hgood hopen hprintable
      (hhold piece (List.mem_singleton_self _)) hyields hcloses
    exact ⟨_, .line (hasNext_of_open hok hgood hopen) hread (.closed (finished rfl).hasNext), rfl⟩
  | line piece rest hpiece ih =>
    have hprintable := Text.printable_of_piece htext hpiece fun _ hc => List.mem_append_left _ hc
    have hrest : ∀ c ∈ rest, c = '\n' ∨ Text.isControl c = false :=
      fun c hc => htext c (List.mem_append_right _ (List.mem_cons_of_mem _ hc))
    rw [pieces_line hpiece] at hhold ⊢
    rw [Utf8.encode_line] at hfaces
    obtain ⟨middle, hyields, hmiddle⟩ := Decoder.yields_encode hprintable hfaces
    obtain ⟨behind, hcloses, hbehind, -⟩ := Decoder.closes_lineFeed hmiddle
    obtain ⟨terminal, memory, hread, hdrawn, hsupply⟩ := readLine_of_text reader hterminal hgood hopen
      hprintable (hhold piece List.mem_cons_self) hyields hcloses
    obtain ⟨last, hdrains, hended⟩ := ih hrest
      { reader with terminal, memory, keys := behind, exhausted := false } hdrawn rfl
      (fun other hother => by
        rw [hsupply]
        exact hhold other (List.mem_cons_of_mem _ hother)) hbehind
    exact ⟨last, .line (hasNext_of_open hok hgood hopen) hread hdrains, hended⟩

end Reader

/-! ## Lines that are read plainly -/

namespace PlainLines

variable {bytes : List UInt8} {piece : List Char}

theorem readBytes_line (h : 10 ∉ bytes) (done : List UInt8) (rest : List Feed.Item) :
    readBytes done (bytes.map .byte ++ .byte 10 :: rest) = .ok (done.reverse ++ bytes ++ [10]) rest := by
  induction bytes generalizing done with
  | nil => simp [readBytes]
  | cons byte bytes ih =>
    rw [List.mem_cons, not_or] at h
    rw [List.map_cons, List.cons_append, readBytes, if_neg (Ne.symm h.1), ih h.2]
    simp

theorem readBytes_end (h : 10 ∉ bytes) (done : List UInt8) :
    readBytes done (bytes.map .byte) = .ok (done.reverse ++ bytes) [] := by
  induction bytes generalizing done with
  | nil => simp [readBytes]
  | cons byte bytes ih =>
    rw [List.mem_cons, not_or] at h
    rw [List.map_cons, readBytes, if_neg (Ne.symm h.1), ih h.2]
    simp

theorem readText_line (h : '\n' ∉ piece) (rest : List Char) :
    readText (Feed.ofBytes (Utf8.encode (piece ++ '\n' :: rest))) =
      .ok (piece ++ ['\n']) (Feed.ofBytes (Utf8.encode rest)) := by
  have hbytes : Utf8.encode piece ++ [10] = Utf8.encode (piece ++ ['\n']) := (Utf8.encode_line piece []).symm
  rw [readText, Feed.ofBytes, Utf8.encode_line, List.map_append, List.map_cons,
    readBytes_line (Utf8.lineFeed_not_mem_encode h), List.reverse_nil, List.nil_append, hbytes]
  dsimp only
  rw [Utf8.decode_encode]
  rfl

theorem readText_last (h : '\n' ∉ piece) :
    readText (Feed.ofBytes (Utf8.encode piece)) = .ok piece ⟨[]⟩ := by
  rw [readText, Feed.ofBytes, readBytes_end (Utf8.lineFeed_not_mem_encode h), List.reverse_nil,
    List.nil_append]
  dsimp only
  rw [Utf8.decode_encode]

/-- **Plain reading hands out the lines of a text**, each with a line feed, and comes to the end. -/
theorem drains_text (text : List Char) :
    Drains ({ feed := Feed.ofBytes (Utf8.encode text) } : PlainLines) ((lines text).map closed)
      { feed := ⟨[]⟩, exhausted := true } := by
  induction text using pieces_induction with
  | last piece h =>
    have htext := readText_last h
    rw [lines_last h]
    by_cases hempty : piece = []
    · rw [if_pos hempty]
      have hread : readLine { feed := Feed.ofBytes (Utf8.encode piece) } =
          .error .endOfInput { feed := ⟨[]⟩, exhausted := true } := by
        rw [readLine, if_neg Bool.false_ne_true, htext]
        exact if_pos hempty
      exact .ended rfl hread rfl
    · rw [if_neg hempty]
      refine .line rfl ?_ (.closed rfl)
      change readLine _ = _
      have hlast : piece.getLast? ≠ some '\n' := fun hlast => h (List.mem_of_getLast? hlast)
      rw [readLine, if_neg Bool.false_ne_true, htext]
      exact (if_neg hempty).trans (if_neg hlast)
  | line piece rest h ih =>
    have htext := readText_line h rest
    rw [lines_line h]
    refine .line rfl ?_ ih
    change readLine _ = _
    rw [readLine, if_neg Bool.false_ne_true, htext]
    exact (if_neg (by simp)).trans (if_pos (by simp))

end PlainLines

/-! ## The same text -/

/-- **Interactive and plain reading part a text at the same places.**  Let the text have no control
characters but line feeds.  On a terminal that never fails, and where a line has room for every piece of the
text, an editor hands out all pieces, each with a line feed; plain reading hands them out too, but for an
empty last piece.  Then both have come to the end for good.  And the lines of plain reading make up the
text, with the line feed that it may lack. -/
theorem LineSource.parts_text {text : List Char} (htext : ∀ c ∈ text, c = '\n' ∨ Text.isControl c = false)
    {τ β : Type} [Terminal τ] [ByteSource β] {good : τ → Prop} (hterminal : Session.NeverFails good)
    (hok : ∀ terminal, good terminal → Terminal.isOk terminal = true ∧ Terminal.lastFailure terminal = none)
    {terminal : τ} (hgood : good terminal) {settings : Settings} {memory : Memory}
    (hroom : ∀ piece ∈ pieces text, Line.HasRoom (Session.supplyOf settings memory) piece.length)
    {source : β} (hfeeds : ByteSource.Feeds source (Utf8.encode text)) :
    (∃ last, Drains ({ terminal, keys := { source, layout := .unix }, settings, memory } :
        Reader τ (Decoder β)) ((pieces text).map closed) last ∧ Finished last) ∧
    (∃ last, Drains ({ feed := Feed.ofBytes (Utf8.encode text) } : PlainLines) ((lines text).map closed)
        last ∧ Finished last) ∧
    String.join ((lines text).map closed) = String.ofList (text ++ lacking text) := by
  refine ⟨?_, ⟨_, PlainLines.drains_text text, rfl, rfl⟩, join_lines text⟩
  obtain ⟨last, hdrains, hended⟩ := Reader.drains_text hterminal hok htext
    { terminal, keys := { source, layout := .unix }, settings, memory } hgood rfl
    (fun piece hpiece => (hroom piece hpiece).canHold) ⟨rfl, _, hfeeds, rfl⟩
  exact ⟨last, hdrains, Reader.finished hended⟩

/-- Behind a last line feed an editor hands out an empty line, and plain reading does not. -/
theorem LineSource.parts_text_of_four :
    (∃ last, Drains ({
          terminal := { size := ⟨80, 24⟩ },
          keys := { source := [0xC3, 0xA9, 10, 10, 98, 10], layout := .unix } } :
        Reader Screen (Decoder (List UInt8))) ["é\n", "\n", "b\n", "\n"] last ∧ Finished last) ∧
    (∃ last, Drains ({ feed := Feed.ofBytes [0xC3, 0xA9, 10, 10, 98, 10] } : PlainLines)
        ["é\n", "\n", "b\n"] last ∧ Finished last) ∧
    String.join ["é\n", "\n", "b\n"] = "é\n\nb\n" := by
  have hencode : Utf8.encode ['é', '\n', '\n', 'b', '\n'] = [0xC3, 0xA9, 10, 10, 98, 10] := by
    decide +kernel
  have htext : ∀ c ∈ ['é', '\n', '\n', 'b', '\n'], c = '\n' ∨ Text.isControl c = false := by
    intro c hc
    simp only [List.mem_cons, List.not_mem_nil, or_false] at hc
    rcases hc with rfl | rfl | rfl | rfl | rfl <;> decide
  have hroom : ∀ piece ∈ pieces ['é', '\n', '\n', 'b', '\n'],
      Line.HasRoom (Session.supplyOf {} Memory.machine) piece.length := by
    intro piece hpiece
    have hlength : piece.length ≤ 64 := by
      have hpieces : pieces ['é', '\n', '\n', 'b', '\n'] = [['é'], [], ['b'], []] := by decide
      rw [hpieces] at hpiece
      simp only [List.mem_cons, List.not_mem_nil, or_false] at hpiece
      rcases hpiece with rfl | rfl | rfl | rfl <;> decide
    exact ⟨0, hlength, by decide, by decide, fun request _ hbytes =>
      Line.machine_grants (Nat.le_trans hbytes (by decide)) request⟩
  have hfeeds : ByteSource.Feeds ([0xC3, 0xA9, 10, 10, 98, 10] : List UInt8)
      (Utf8.encode ['é', '\n', '\n', 'b', '\n']) := by
    rw [hencode]
    exact ByteSource.feeds_list _
  have hgood : ({ size := ⟨80, 24⟩ } : Screen).refusesRaw = false ∧
      ({ size := ⟨80, 24⟩ } : Screen).lastFailure = none := ⟨rfl, rfl⟩
  obtain ⟨hedited, hplain, hjoin⟩ := LineSource.parts_text htext
    (Screen.neverFails_keeping (· = none)) (fun screen h => ⟨congrArg Option.isNone h.2, h.2⟩) hgood hroom
    hfeeds
  rw [hencode] at hplain
  exact ⟨hedited, hplain, hjoin⟩

end LineEditor
