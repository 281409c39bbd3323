import LineEditor.Proofs.Reader.OneLine
import LineEditor.Terminal.Screen

/-!
# Reading lines from a list of keys

A reader hands out the lines that the plain editor makes of its keys, one line for the keys up to
each Enter and one for the keys behind the last, and takes no key of a later line.

* `LineEnd` — what ends a line of a list of keys.
* `Reader.readLine_ok` — one line.
* `Reader.readLines_ok` — any number of lines.
* `Reader.refines_editor` — the two halves together, for every terminal that never fails.
-/

set_option autoImplicit false

namespace LineEditor

/-- What ends a line: a press of Enter in front of other keys, or the end of the input. -/
inductive LineEnd : (more rest : List Key) → (endOfInput : Bool) → Prop where
  | enter (rest : List Key) : LineEnd (.control .enter :: rest) rest false
  | endOfInput : LineEnd [] [] true

namespace KeyScript

variable {keys more rest : List Key} {endOfInput : Bool}

theorem yields_ofKeys (keys more : List Key) :
    KeySource.Yields (ofKeys (keys ++ more)) keys (ofKeys more) := by
  induction keys with
  | nil => exact .nil _
  | cons key keys ih => exact .cons rfl ih

theorem closes_of_lineEnd (h : LineEnd more rest endOfInput) :
    KeySource.Closes (ofKeys more) endOfInput (ofKeys rest) := by
  cases h with
  | enter rest => exact .enter rfl
  | endOfInput =>
    have hread : KeySource.readKey (ofKeys []) = .error .endOfInput (ofKeys []) := rfl
    exact .endOfInput hread rfl

end KeyScript

namespace Screen

/-- A screen fails in nothing but entering raw mode, and only where it is told to.  What it remembers of
failures stays. -/
theorem neverFails_keeping (holds : Option Failure → Prop) :
    Session.NeverFails fun screen : Screen => screen.refusesRaw = false ∧ holds screen.lastFailure where
  columns screen h := ⟨screen.size.columns, screen, rfl, h⟩
  cursor screen h := ⟨screen.cursor, _, rfl, h⟩
  setCursor _ screen h := ⟨(), _, rfl, h⟩
  put cell screen h := by
    refine ⟨(), _, rfl, ?_⟩
    cases cell.isEmpty <;> exact h
  moveLeft screen h := ⟨(), _, rfl, h⟩
  moveRight screen h := ⟨(), _, rfl, h⟩
  showCursor screen h := ⟨(), _, rfl, h⟩
  hideCursor screen h := ⟨(), _, rfl, h⟩
  enterRawMode screen h := by
    refine ⟨(), { screen with raw := true, log := .enterRaw :: screen.log }, ?_, h⟩
    exact if_neg (by rw [h.1]; exact Bool.false_ne_true)
  leaveRawMode screen h := ⟨(), _, rfl, h⟩
  flush screen h := ⟨(), screen, rfl, h⟩

theorem neverFails : Session.NeverFails fun screen : Screen => screen.refusesRaw = false := by
  simpa only [and_true] using neverFails_keeping fun _ => True

end Screen

namespace Reader

variable {τ : Type} [Terminal τ] {good : τ → Prop} {supply : Line.Supply}
  {reader : Reader τ KeyScript} {keys more rest : List Key} {endOfInput : Bool}

/-! ## One line -/

/-- The reader has `keys` in front of it, storage like `supply`, and a terminal that never fails. -/
structure Ready (supply : Line.Supply) (good : τ → Prop) (keys : List Key)
    (reader : Reader τ KeyScript) : Prop where
  keys : reader.keys = KeyScript.ofKeys keys
  supply : Session.supplyOf reader.settings reader.memory = supply
  terminal : good reader.terminal

/-- **A reader hands out the text of one line** and has the keys behind the line in front of it. -/
theorem readLine_ok (hterminal : Session.NeverFails good)
    (h : Ready supply good (keys ++ more) reader) (hexhausted : reader.exhausted = false)
    (hroom : Session.RoomFor supply Editor.blank keys) (hkeys : .control .enter ∉ keys)
    (hmore : LineEnd more rest endOfInput) :
    ∃ next, readLine reader = .ok (Editor.typed keys).text next ∧ Ready supply good rest next ∧
      next.exhausted = endOfInput := by
  obtain ⟨hsource, hsupply, hgood⟩ := h
  have hyields : KeySource.Yields reader.keys keys (KeyScript.ofKeys more) := by
    rw [hsource]
    exact KeyScript.yields_ofKeys keys more
  rw [← hsupply] at hroom
  obtain ⟨terminal, memory, hread, hgood, hkept⟩ := readLine_of_yields reader hterminal hgood hexhausted
    hroom.canTake hkeys hyields (KeyScript.closes_of_lineEnd hmore)
  exact ⟨_, hread, ⟨rfl, hkept.trans hsupply, hgood⟩, rfl⟩

/-! ## Any number of lines -/

/-- Read a number of lines. -/
def readLines : Nat → Action (Reader τ KeyScript) (List String)
  | 0 => pure []
  | count + 1 => do
    let line ← readLine
    let lines ← readLines count
    return line :: lines

theorem readLines_succ {count : Nat} {line : String} {lines : List String}
    {next last : Reader τ KeyScript} (hline : readLine reader = .ok line next)
    (hlines : readLines count next = .ok lines last) :
    readLines (count + 1) reader = .ok (line :: lines) last := by
  rw [readLines, Action.bind_of_ok hline, Action.bind_of_ok hlines]
  rfl

/-- **A reader hands out the lines of the keys in order.**  After `count` lines it has the keys of the
others in front of it, and it is exhausted once there are no others. -/
theorem readLines_ok (hterminal : Session.NeverFails good) (h : Ready supply good keys reader)
    (hexhausted : reader.exhausted = false)
    (hroom : ∀ line ∈ Editor.lines keys, Session.RoomFor supply Editor.blank line) {count : Nat}
    (hcount : count ≤ (Editor.lines keys).length) :
    ∃ next, readLines count reader =
        .ok (((Editor.lines keys).take count).map fun line => (Editor.typed line).text) next ∧
      Ready supply good ([.control .enter].intercalate ((Editor.lines keys).drop count)) next ∧
      next.exhausted = decide (count = (Editor.lines keys).length) := by
  induction count generalizing keys reader with
  | zero =>
    have hlines : 0 ≠ (Editor.lines keys).length := by
      have : Editor.lines keys ≠ [] := List.splitOn_ne_nil _ _
      rw [ne_comm, Ne, List.length_eq_zero_iff]
      exact this
    refine ⟨reader, rfl, ?_, ?_⟩
    · rw [List.drop_zero, Editor.lines, List.intercalate_splitOn]
      exact h
    · rw [hexhausted, decide_eq_false hlines]
  | succ count ih =>
    rcases Editor.lines_cases keys with ⟨hkeys, hlines⟩ | ⟨line, rest, hline, rfl, hlines⟩
    · -- the only line is the last one, ended by the end of the input
      rw [hlines] at hroom hcount ⊢
      have hzero : count = 0 := by
        rw [List.length_singleton] at hcount
        omega
      subst hzero
      have hready : Ready supply good (keys ++ []) reader := by rwa [List.append_nil]
      obtain ⟨next, hread, hnext, hend⟩ := readLine_ok hterminal hready hexhausted
        (hroom keys (List.mem_singleton_self _)) hkeys LineEnd.endOfInput
      exact ⟨next, readLines_succ hread rfl, hnext, hend⟩
    · rw [hlines] at hroom hcount ⊢
      obtain ⟨next, hread, hnext, hend⟩ := readLine_ok hterminal h hexhausted
        (hroom line List.mem_cons_self) hline (LineEnd.enter rest)
      obtain ⟨last, hreads, hlast, hexhausted⟩ := ih hnext hend
        (fun other hother => hroom other (List.mem_cons_of_mem _ hother))
        (Nat.le_of_succ_le_succ hcount)
      refine ⟨last, readLines_succ hread hreads, hlast, ?_⟩
      rw [hexhausted, List.length_cons]
      exact decide_eq_decide.mpr (by omega)

/-- **Line editing refines the plain editor.**  Let a terminal never fail, whatever it answers.  After
any keys for which the line has room, a session holds the cells, the caret and the phase of the
editor.  And where every line has room, the reader hands out line by line what the editor makes of the
keys of each line, takes exactly these keys and the press of Enter behind them, and is exhausted by
the line that Enter does not end. -/
theorem refines_editor (hterminal : Session.NeverFails good) (terminal : τ)
    (hgood : good terminal) (settings : Settings) (memory : Memory) (keys : List Key) :
    (∀ width : Char → Nat,
      Session.RoomFor (Session.supplyOf settings memory) Editor.blank keys →
      ∃ session after next, Session.create terminal settings memory = .ok session after ∧
        Session.takeKeys width keys session = .ok () next ∧
        next.line.cells = (Editor.typed keys).cells ∧
        next.position = (Editor.typed keys).cursor ∧
        next.phase = if (Editor.typed keys).ended then .terminating else .reading) ∧
    ((∀ line ∈ Editor.lines keys,
        Session.RoomFor (Session.supplyOf settings memory) Editor.blank line) →
      ∀ count ≤ (Editor.lines keys).length,
      ∃ next, readLines count
            { terminal, keys := KeyScript.ofKeys keys, settings, memory : Reader τ KeyScript } =
          .ok (((Editor.lines keys).take count).map fun line => (Editor.typed line).text) next ∧
        next.keys = KeyScript.ofKeys
          ([.control .enter].intercalate ((Editor.lines keys).drop count)) ∧
        next.exhausted = decide (count = (Editor.lines keys).length) ∧
        (count = (Editor.lines keys).length → readLine next = .error .endOfInput next)) := by
  constructor
  · intro width hroom
    obtain ⟨session, after, hcreate, hedits, hstart⟩ :=
      Session.create_ok (hroom [] List.nil_prefix) terminal
    rw [← hstart] at hgood
    obtain ⟨_, drawn, hdraw, -⟩ := hterminal.drawAll width Editor.blank keys _ hgood
    obtain ⟨next, hrun, hnext, -⟩ := Session.takeKeys_ok hedits hroom hdraw
    exact ⟨session, after, next, hcreate, hrun, hnext.line.cells_eq, hnext.position, hnext.phase⟩
  · intro hroom count hcount
    have hready : Ready (Session.supplyOf settings memory) good keys
        { terminal, keys := KeyScript.ofKeys keys, settings, memory } := ⟨rfl, rfl, hgood⟩
    obtain ⟨next, hread, hnext, hexhausted⟩ := readLines_ok hterminal hready rfl hroom hcount
    refine ⟨next, hread, hnext.keys, hexhausted, fun hall => ?_⟩
    rw [decide_eq_true hall] at hexhausted
    rw [readLine, if_pos hexhausted]

theorem refines_editor_on_screen :
    (∃ session after next, Session.create { size := ⟨80, 24⟩ : Screen } {} Memory.machine =
        .ok session after ∧
      Session.takeKeys (fun _ => 1) [Key.ofChar 'a', Key.ofChar 'b', .control .left, Key.ofChar 'c',
        .control .enter, Key.ofChar 'd'] session = .ok () next ∧
      next.line.cells = "acb".toList.map Cell.ofChar ∧ next.position = 2 ∧
      next.phase = .terminating) ∧
    ∃ next, readLines 2
        { terminal := { size := ⟨80, 24⟩ },
          keys := KeyScript.ofKeys [Key.ofChar 'a', Key.ofChar 'b', .control .left, Key.ofChar 'c',
            .control .enter, Key.ofChar 'd'] : Reader Screen KeyScript } =
        .ok ["acb\n", "d\n"] next ∧
      next.keys = KeyScript.ofKeys [] ∧ next.exhausted = true ∧
      readLine next = .error .endOfInput next := by
  have hroom {count : Nat} (hcount : count ≤ 64) :
      Line.HasRoom (Session.supplyOf {} Memory.machine) count :=
    ⟨0, hcount, by decide, by decide, fun request _ hbytes =>
      Line.machine_grants (Nat.le_trans hbytes (by decide)) request⟩
  obtain ⟨hsession, hreader⟩ := refines_editor Screen.neverFails { size := ⟨80, 24⟩ } rfl {}
    Memory.machine [Key.ofChar 'a', Key.ofChar 'b', .control .left, Key.ofChar 'c',
      .control .enter, Key.ofChar 'd']
  refine ⟨hsession (fun _ => 1) (Session.roomFor_of_length (hroom (by decide))), ?_⟩
  have hlines : ∀ line ∈ Editor.lines [Key.ofChar 'a', Key.ofChar 'b', .control .left,
      Key.ofChar 'c', .control .enter, Key.ofChar 'd'], line.length ≤ 64 := by decide
  obtain ⟨next, hread, hkeys, hexhausted, hend⟩ := hreader
    (fun line hline => Session.roomFor_of_length (hroom (by
      rw [show Editor.blank.cells.length = 0 from rfl, Nat.zero_add]
      exact hlines line hline)))
    2 (by decide)
  exact ⟨next, hread, hkeys, hexhausted, hend rfl⟩

end Reader

end LineEditor
