import LineEditor.Proofs.Reader.Lines
import LineEditor.Proofs.Screen.Puts

/-!
# Only clean text leaves the editor

Keys may hold anything: malformed bytes, null characters, control characters.  What leaves the editor
holds none of it: a line is text that was typed and a line feed behind it, and a screen is told to put
blanks, typed characters and, at the very end, the terminator.

* `Text.Clean` — a line without control characters, ended by a line feed.
* `Line.encoded_valid` — the bytes of a line are well formed, so no line is ever repaired.
* `Session.driven_text` — the text of a session is clean.
* `Reader.readLine_driven` — a line that is handed out is the one of a session that was driven.
* `Reader.hands_out_clean_text` — the laws together.
-/

set_option autoImplicit false

open LineEditor.Action

namespace LineEditor

/-! ## Clean text -/

/-- The characters, ended by a line feed; none of them is a control character. -/
structure Text.Clean (characters : List Char) (line : String) : Prop where
  ended : line.toList = characters ++ ['\n']
  printable : ∀ c ∈ characters, Text.isControl c = false

/-- **The bytes of a line are well formed**, and its text is the one that they encode. -/
theorem Line.encoded_valid (line : Line) :
    Utf8.isValid line.encoded = true ∧ Utf8.decode line.encoded = some line.compose.toList := by
  rw [Line.encoded_eq, Line.compose_eq, Utf8.decode_encode, String.toList_ofList]
  exact ⟨Utf8.isValid_encode _, rfl⟩

theorem Cell.isControl_of_isInsertable {cell : Cell} {c : Char} (h : cell.isInsertable = true)
    (hc : cell.char? = some c) : Text.isControl c = false := by
  unfold Cell.isInsertable at h
  rw [hc] at h
  simpa using h

/-! ## Sessions -/

namespace Session

variable {τ : Type} [Terminal τ] {width : Char → Nat} {settings : Settings} {start : τ}
  {session : Session τ} {typed : List Key}

/-- The text of a session is clean, and all of it was typed. -/
theorem driven_text (h : Driven width settings start typed session) :
    ∃ characters, Text.Clean characters session.line.compose ∧
      ∀ c ∈ characters, ∃ cell, Key.Typed typed cell ∧ cell.char? = some c := by
  obtain ⟨supply, editor, hedits, hcells⟩ := driven_sound h
  have hcell : ∀ c ∈ editor.cells.filterMap Cell.char?,
      ∃ cell, Key.Typed typed cell ∧ cell.char? = some c := by
    intro c hc
    obtain ⟨cell, hmem, hchar⟩ := List.mem_filterMap.mp hc
    exact ⟨cell, hcells cell hmem, hchar⟩
  refine ⟨editor.cells.filterMap Cell.char?, ⟨?_, fun c hc => ?_⟩, hcell⟩
  · rw [Line.compose_eq, hedits.line.cells_eq, String.toList_ofList]
  · obtain ⟨cell, htyped, hchar⟩ := hcell c hc
    exact Cell.isControl_of_isInsertable htyped.2 hchar

end Session

/-! ## Readers -/

namespace Reader

variable {τ κ : Type} [Terminal τ] [KeySource κ]

theorem edit_driven (reader : Reader τ κ) :
    Ends edit reader
      (fun outcome _ => ∃ typed rest session, KeySource.Yields reader.keys typed rest ∧
        Session.Driven reader.width reader.settings reader.terminal typed session ∧
        outcome.line = session.line.compose)
      fun _ _ => True := by
  unfold Ends edit
  cases hcreate : Session.create reader.terminal reader.settings reader.memory with
  | error failure memory => trivial
  | ok session memory =>
    obtain ⟨typed, rest, middle, hyields, hdriven, hrun⟩ :=
      Session.run_driven (.create hcreate) reader.keys reader.settings.terminator
    dsimp only
    cases hend : Session.run reader.width reader.settings.terminator (session, reader.keys) with
    | error failure last => trivial
    | ok outcome last =>
      have hfinish := hrun.of_ok hend
      exact ⟨typed, rest, middle, hyields, hdriven,
        (Session.finish_compose _ _ middle).of_ok hfinish⟩

omit [KeySource κ] in
theorem enterRawMode_frame {reader next : Reader τ κ} {raw : Bool}
    (h : enterRawMode reader = .ok raw next) :
    next.keys = reader.keys ∧ next.settings = reader.settings ∧ next.width = reader.width := by
  unfold enterRawMode onTerminal within at h
  cases hstep : (Terminal.enterRawMode : Action τ Unit) reader.terminal with
  | ok _ terminal =>
    rw [hstep] at h
    cases h
    exact ⟨rfl, rfl, rfl⟩
  | error failure terminal =>
    rw [hstep] at h
    dsimp only at h
    split at h
    · cases h
      exact ⟨rfl, rfl, rfl⟩
    · cases h

/-- A line that is handed out is the one of a session that the keys of the reader have driven. -/
theorem readLine_driven {reader next : Reader τ κ} {line : String}
    (h : readLine reader = .ok line next) :
    ∃ (start : τ) (typed : List Key) (rest : κ) (session : Session τ),
      KeySource.Yields reader.keys typed rest ∧
      Session.Driven reader.width reader.settings start typed session ∧
      line = session.line.compose := by
  unfold readLine at h
  split at h
  · cases h
  · cases henter : enterRawMode reader with
    | error failure entered =>
      rw [henter] at h
      cases h
    | ok raw entered =>
      obtain ⟨hkeys, hsettings, hwidth⟩ := enterRawMode_frame henter
      have hedit := edit_driven entered
      rw [henter] at h
      dsimp only at h
      cases hrun : edit entered with
      | error failure edited =>
        rw [hrun] at h
        dsimp only at h
        split at h <;> cases h
      | ok outcome edited =>
        obtain ⟨typed, rest, session, hyields, hdriven, hline⟩ := hedit.of_ok hrun
        rw [hkeys] at hyields
        rw [hsettings, hwidth] at hdriven
        rw [hrun] at h
        dsimp only at h
        split at h
        · cases h
          exact ⟨_, typed, rest, session, hyields, hdriven, hline⟩
        · cases h

/-- **Only clean text leaves the editor**, whatever the keys are and whatever the terminal does.  A line
that a reader hands out is the text of a session that its keys have driven: its bytes are well formed
and never repaired, it ends with a line feed, and in front of it stand typed characters, none of them a
control character.  And on a screen, where the measure of characters is the one of the screen, a
session puts nothing but blanks and typed characters that are no control characters; when it is
finished, the characters of the terminator follow, once, and nothing follows them. -/
theorem hands_out_clean_text {κ : Type} [KeySource κ] :
    (∀ {τ : Type} [Terminal τ] (reader next : Reader τ κ) (line : String),
      readLine reader = .ok line next →
      ∃ (start : τ) (typed : List Key) (rest : κ) (session : Session τ) (characters : List Char),
        KeySource.Yields reader.keys typed rest ∧
        Session.Driven reader.width reader.settings start typed session ∧
        line = session.line.compose ∧
        Utf8.isValid session.line.encoded = true ∧
        Utf8.decode session.line.encoded = some line.toList ∧
        Text.Clean characters line ∧
        ∀ c ∈ characters, ∃ cell, Key.Typed typed cell ∧ cell.char? = some c) ∧
    ∀ (screen : Screen) (settings : Settings) (typed : List Key) (session : Session Screen),
      Session.Driven screen.width settings screen typed session → ∀ terminator : String,
      (∃ text last characters, Session.finish screen.width terminator session = .ok text last ∧
        Text.Clean characters text ∧
        Screen.Terminated typed terminator (last.terminal.opsSince screen)) ∧
      ∀ keys : κ, ∃ more rest, KeySource.Yields keys more rest ∧
        Ends (Session.run screen.width terminator) (session, keys)
          (fun outcome last => (∃ characters, Text.Clean characters outcome.line) ∧
            Screen.Terminated (typed ++ more) terminator (last.1.terminal.opsSince screen))
          fun _ last => Screen.Drawn (typed ++ more) (Screen.puts (last.1.terminal.opsSince screen)) := by
  constructor
  · intro τ _ reader next line h
    obtain ⟨start, typed, rest, session, hyields, hdriven, rfl⟩ := readLine_driven h
    obtain ⟨characters, hclean, htyped⟩ := Session.driven_text hdriven
    obtain ⟨hvalid, hdecode⟩ := session.line.encoded_valid
    exact ⟨start, typed, rest, session, characters, hyields, hdriven, rfl, hvalid, hdecode, hclean,
      htyped⟩
  · intro screen settings typed session hdriven terminator
    have hfinish {keys : List Key} {middle : Session Screen}
        (h : Session.Driven screen.width settings screen keys middle) :
        ∃ text last characters, Session.finish screen.width terminator middle = .ok text last ∧
          Text.Clean characters text ∧
          Screen.Terminated keys terminator (last.terminal.opsSince screen) := by
      obtain ⟨text, last, hrun, hputs⟩ := Screen.finish_puts h terminator
      obtain ⟨characters, hclean, -⟩ := Session.driven_text h
      rw [← (Session.finish_compose _ _ middle).of_ok hrun] at hclean
      exact ⟨text, last, characters, hrun, hclean, hputs⟩
    refine ⟨hfinish hdriven, fun keys => ?_⟩
    obtain ⟨more, rest, middle, hyields, hmiddle, hrun⟩ := Session.run_driven hdriven keys terminator
    obtain ⟨text, last, characters, hend, hclean, hputs⟩ := hfinish hmiddle
    refine ⟨more, rest, hyields, hrun.mono ?_ ?_⟩
    · rintro outcome after hafter
      rw [hend] at hafter
      cases hafter
      exact ⟨⟨characters, hclean⟩, hputs⟩
    · rintro failure after (hafter | hafter)
      · obtain ⟨supply, editor, ops, count, -, -, hterminal, hdrawn⟩ := Screen.driven_on_screen hmiddle
        rw [hafter, hterminal, Screen.opsSince_play]
        exact hdrawn
      · rw [hend] at hafter
        cases hafter

/-- Bytes that are no character and a control character do not get into a line, and are not put. -/
theorem hands_out_clean_text_of_malformed_bytes :
    (∃ next start typed rest characters, ∃ session : Session Screen,
      readLine
        { terminal := { size := ⟨80, 24⟩ },
          keys := KeyScript.ofKeys [.printable (Cell.ofBytes [0xFF]), Key.ofChar 'a',
            Key.ofChar '\x1b', .control .enter] : Reader Screen KeyScript } = .ok "a\n" next ∧
      KeySource.Yields (KeyScript.ofKeys [.printable (Cell.ofBytes [0xFF]), Key.ofChar 'a',
        Key.ofChar '\x1b', .control .enter]) typed rest ∧
      Session.Driven Text.width {} start typed session ∧
      Utf8.decode session.line.encoded = some "a\n".toList ∧ Text.Clean characters "a\n") ∧
    ∃ session : Session Screen,
      Session.Driven (fun _ => 1) {} { size := ⟨80, 24⟩, width := fun _ => 1 }
        [.printable (Cell.ofBytes [0xFF])] session ∧
      ∃ text last front, Session.finish (fun _ => 1) "\r\n" session = .ok text last ∧
        Screen.puts (last.terminal.opsSince { size := ⟨80, 24⟩, width := fun _ => 1 }) =
          front ++ "\r\n".toList.map Cell.ofChar ∧
        ∀ cell ∈ front, cell = Cell.space := by
  constructor
  · have hroom : Session.RoomFor (Session.supplyOf {} Memory.machine) Editor.blank
        [.printable (Cell.ofBytes [0xFF]), Key.ofChar 'a', Key.ofChar '\x1b'] :=
      Session.roomFor_of_length ⟨0, by decide, by decide, by decide, fun request _ hbytes =>
        Line.machine_grants (Nat.le_trans hbytes (by decide)) request⟩
    have hready : Ready (Session.supplyOf {} Memory.machine) (fun screen => screen.refusesRaw = false)
        ([.printable (Cell.ofBytes [0xFF]), Key.ofChar 'a', Key.ofChar '\x1b'] ++ [.control .enter])
        { terminal := { size := ⟨80, 24⟩ },
          keys := KeyScript.ofKeys [.printable (Cell.ofBytes [0xFF]), Key.ofChar 'a',
            Key.ofChar '\x1b', .control .enter] : Reader Screen KeyScript } := ⟨rfl, rfl, rfl⟩
    obtain ⟨next, hread, -, -⟩ :=
      readLine_ok Screen.neverFails hready rfl hroom (by decide) (.enter [])
    obtain ⟨start, typed, rest, session, characters, hyields, hdriven, -, -, hdecode, hclean, -⟩ :=
      hands_out_clean_text.1 _ _ _ hread
    exact ⟨next, start, typed, rest, characters, session, hread, hyields, hdriven, hdecode, hclean⟩
  · obtain ⟨session, memory, hcreate⟩ : ∃ session memory,
        Session.create { size := ⟨80, 24⟩, width := fun _ => 1 : Screen } {} Memory.machine =
          .ok session memory := ⟨_, _, rfl⟩
    have hdriven : Session.Driven (fun _ => 1) {} { size := ⟨80, 24⟩, width := fun _ => 1 : Screen }
        [.printable (Cell.ofBytes [0xFF])] _ := .key (.create hcreate) _
    obtain ⟨⟨text, last, -, hfinish, -, front, hputs, hdrawn⟩, -⟩ :=
      (@hands_out_clean_text KeyScript _).2 { size := ⟨80, 24⟩, width := fun _ => 1 } {} _ _ hdriven
        "\r\n"
    refine ⟨_, hdriven, text, last, front, hfinish, hputs, fun cell hcell => ?_⟩
    rcases hdrawn cell hcell with hblank | ⟨hkey, hinsertable⟩
    · exact hblank
    · cases List.mem_singleton.mp hkey
      exact absurd hinsertable (by decide)

end Reader

end LineEditor
