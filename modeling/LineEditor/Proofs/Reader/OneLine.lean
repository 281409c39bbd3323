import LineEditor.Proofs.Input.Spelling
import LineEditor.Proofs.Session.Refinement
import LineEditor.Reader

/-!
# Reading one line from any source of keys

A line takes the keys up to a press of Enter or to the end of the input, wherever the keys come from.
On a terminal that never fails, and where lines can hold what the keys leave, the text that is handed
out is the one of the plain editor.

* `KeySource.Closes` — what ends a line.
* `Session.readKeys_line`, `Session.readKeys_ok`, `Session.run_ok` — a session takes the keys of its line
  and what ends it.
* `Reader.readLine_of_yields` — so does a reader, and nothing else of it changes.
-/

set_option autoImplicit false

namespace LineEditor

variable {τ κ : Type} [Terminal τ] [KeySource κ] {source last rest : κ} {keys : List Key} {key : Key}
  {endOfInput : Bool}

/-- The source hands out a press of Enter, or finds the end of the input. -/
inductive KeySource.Closes : κ → (endOfInput : Bool) → κ → Prop where
  | enter {source rest : κ} (hread : KeySource.readKey source = .ok (.control .enter) rest) :
    Closes source false rest
  | endOfInput {source rest : κ} {failure : Failure} (hread : KeySource.readKey source = .error failure rest)
      (hend : failure.isEndOfInput = true) : Closes source true rest

namespace Session

variable {good : τ → Prop} {width : Char → Nat} {supply : Line.Supply} {editor : Editor}
  {session : Session τ}

theorem readKeys_of_key {next : Session τ} {phase : Phase} (h : session.phase = .reading)
    (hread : KeySource.readKey source = .ok key rest)
    (hkey : processKey width key session = .ok phase next) :
    readKeys width session source =
      if key = .control .enter then .ok false (next, rest) else readKeys width next rest := by
  rw [readKeys, h]
  dsimp only
  split
  case h_1 herror => cases hread.symm.trans herror
  case h_2 hok =>
    cases hread.symm.trans hok
    rw [hkey]
    rfl

theorem readKeys_of_end {failure : Failure} (h : session.phase = .reading)
    (hread : KeySource.readKey source = .error failure rest) (hend : failure.isEndOfInput = true) :
    readKeys width session source = .ok true (session, rest) := by
  rw [readKeys, h]
  dsimp only
  split
  case h_1 herror =>
    cases hread.symm.trans herror
    exact if_pos hend
  case h_2 hok => cases hread.symm.trans hok

/-- **A session takes the keys of its line**, and comes to what is behind them. -/
theorem readKeys_line (hterminal : NeverFails good) (h : session.Edits supply editor)
    (hgood : good session.terminal) (hopen : editor.ended = false)
    (htake : CanTake supply editor keys) (hkeys : .control .enter ∉ keys)
    (hyields : KeySource.Yields source keys last) :
    ∃ next, readKeys width session source = readKeys width next last ∧
      next.Edits supply (editor.pressAll keys) ∧ good next.terminal := by
  induction hyields generalizing editor session with
  | nil source => exact ⟨session, rfl, h, hgood⟩
  | @cons source _ _ key keys hread _ ih =>
    rw [List.mem_cons, not_or] at hkeys
    obtain ⟨_, terminal, hdraw, hgood⟩ := hterminal.draw width editor key _ hgood
    obtain ⟨next, hrun, hnext, hend⟩ := processKey_ok h htake.head hdraw
    rw [← hend] at hgood
    have hstill : (editor.press key).ended = false := by
      refine Bool.eq_false_iff.mpr fun hended => ?_
      exact hkeys.1 ((Editor.ended_press hopen).mp hended).symm
    obtain ⟨last, hlast, hedits⟩ := ih hnext hgood hstill htake.tail hkeys.2
    refine ⟨last, ?_, hedits⟩
    rw [readKeys_of_key (by rw [h.phase, hopen]; rfl) hread hrun, if_neg (Ne.symm hkeys.1)]
    exact hlast

/-- A session takes a line and what ends it. -/
theorem readKeys_ok (hterminal : NeverFails good) (h : session.Edits supply Editor.blank)
    (hgood : good session.terminal) (htake : CanTake supply Editor.blank keys)
    (hkeys : .control .enter ∉ keys) (hyields : KeySource.Yields source keys last)
    (hcloses : KeySource.Closes last endOfInput rest) :
    ∃ next editor, readKeys width session source = .ok endOfInput (next, rest) ∧
      next.Edits supply editor ∧ editor.text = (Editor.typed keys).text ∧ good next.terminal := by
  obtain ⟨next, hrun, hnext, hgood⟩ := readKeys_line hterminal h hgood rfl htake hkeys hyields
  rw [hrun]
  have hopen : (Editor.typed keys).ended = false := Editor.ended_typed hkeys
  have hphase : next.phase = .reading := by
    rw [hnext.phase]
    exact if_neg (by rw [← Editor.typed, hopen]; exact Bool.false_ne_true)
  cases hcloses with
  | enter hread =>
    have hpress : (Editor.typed keys).press (.control .enter) = (Editor.typed keys).finish :=
      Editor.press_enter hopen
    obtain ⟨_, terminal, hdraw, hgood⟩ :=
      hterminal.draw width (Editor.typed keys) (.control .enter) _ hgood
    obtain ⟨finished, hfinished, hedits, hend⟩ :=
      processKey_ok hnext (by rw [← Editor.typed, hpress]; exact htake keys (List.prefix_refl _)) hdraw
    rw [← hend] at hgood
    rw [readKeys_of_key hphase hread hfinished, if_pos rfl]
    exact ⟨finished, _, rfl, hedits, by rw [← Editor.typed, hpress]; rfl, hgood⟩
  | endOfInput hread hend =>
    rw [readKeys_of_end hphase hread hend]
    exact ⟨next, _, rfl, hnext, rfl, hgood⟩

variable (width) in
/-- **One run of a session takes one line.** -/
theorem run_ok (hterminal : NeverFails good) (h : session.Edits supply Editor.blank)
    (hgood : good session.terminal) (htake : CanTake supply Editor.blank keys)
    (hkeys : .control .enter ∉ keys) (hyields : KeySource.Yields source keys last)
    (hcloses : KeySource.Closes last endOfInput rest) (terminator : String) :
    ∃ next, run width terminator (session, source) =
        .ok ⟨(Editor.typed keys).text, endOfInput⟩ (next, rest) ∧
      next.line.memory.answer = supply.answer ∧ good next.terminal := by
  obtain ⟨middle, editor, hrun, hedits, htext, hgood⟩ :=
    readKeys_ok hterminal h hgood htake hkeys hyields hcloses
  obtain ⟨_, terminal, hdraw, hgood⟩ := hterminal.drawFinish width editor terminator _ hgood
  obtain ⟨next, hfinish, hline, hend⟩ := finish_ok hedits hdraw
  refine ⟨next, ?_, hline.answer, by rwa [hend]⟩
  rw [run, hrun]
  dsimp only
  rw [hfinish, htext]

end Session

namespace Reader

variable {good : τ → Prop} (reader : Reader τ κ)

omit [KeySource κ] in
theorem enterRawMode_ok (hterminal : Session.NeverFails good) (hgood : good reader.terminal) :
    ∃ terminal, enterRawMode reader = .ok true { reader with terminal } ∧ good terminal := by
  obtain ⟨_, terminal, hraw, hgood⟩ := hterminal.enterRawMode _ hgood
  refine ⟨terminal, ?_, hgood⟩
  rw [enterRawMode, onTerminal, Action.within, hraw]

omit [KeySource κ] in
theorem restore_ok (hterminal : Session.NeverFails good) (hgood : good reader.terminal) :
    ∃ terminal, restore true reader = .ok () { reader with terminal } ∧ good terminal := by
  obtain ⟨_, terminal, hleave, hgood⟩ := hterminal.leaveRawMode _ hgood
  refine ⟨terminal, ?_, hgood⟩
  rw [restore, if_pos rfl, onTerminal, Action.within, hleave]

theorem edit_of_yields (hterminal : Session.NeverFails good) (hgood : good reader.terminal)
    (htake : Session.CanTake (Session.supplyOf reader.settings reader.memory) Editor.blank keys)
    (hkeys : .control .enter ∉ keys) (hyields : KeySource.Yields reader.keys keys last)
    (hcloses : KeySource.Closes last endOfInput rest) :
    ∃ terminal memory, edit reader = .ok ⟨(Editor.typed keys).text, endOfInput⟩
        { reader with terminal, memory, keys := rest } ∧
      good terminal ∧
      Session.supplyOf reader.settings memory = Session.supplyOf reader.settings reader.memory := by
  obtain ⟨session, after, hcreate, hedits, hstart⟩ :=
    Session.create_of_canHold (htake [] List.nil_prefix) reader.terminal
  rw [← hstart] at hgood
  obtain ⟨next, hrun, hanswer, hgood⟩ := Session.run_ok reader.width hterminal hedits hgood htake hkeys
    hyields hcloses reader.settings.terminator
  refine ⟨next.terminal, next.line.memory, ?_, hgood, by rw [Session.supplyOf, hanswer]; rfl⟩
  rw [edit, hcreate]
  dsimp only
  rw [hrun]

/-- **A reader hands out the text of one line**, takes its keys and what ends it, and leaves the rest. -/
theorem readLine_of_yields (hterminal : Session.NeverFails good) (hgood : good reader.terminal)
    (hopen : reader.exhausted = false)
    (htake : Session.CanTake (Session.supplyOf reader.settings reader.memory) Editor.blank keys)
    (hkeys : .control .enter ∉ keys) (hyields : KeySource.Yields reader.keys keys last)
    (hcloses : KeySource.Closes last endOfInput rest) :
    ∃ terminal memory, readLine reader = .ok (Editor.typed keys).text
        { reader with terminal, memory, keys := rest, exhausted := endOfInput } ∧
      good terminal ∧
      Session.supplyOf reader.settings memory = Session.supplyOf reader.settings reader.memory := by
  obtain ⟨raw, hraw, hgood⟩ := enterRawMode_ok reader hterminal hgood
  obtain ⟨drawn, memory, hedit, hgood, hsupply⟩ :=
    edit_of_yields { reader with terminal := raw } hterminal hgood htake hkeys hyields hcloses
  obtain ⟨terminal, hrestore, hgood⟩ :=
    restore_ok { reader with terminal := drawn, memory, keys := rest } hterminal hgood
  refine ⟨terminal, memory, ?_, hgood, hsupply⟩
  rw [readLine, hopen, if_neg Bool.false_ne_true, hraw]
  dsimp only
  rw [hedit]
  dsimp only
  rw [hrestore]
  dsimp only
  rw [hopen, Bool.false_or]

end Reader

end LineEditor
