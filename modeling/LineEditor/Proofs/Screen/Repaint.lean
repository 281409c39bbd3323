import LineEditor.Proofs.Screen.Puts

/-!
# What a key draws

A key draws what its edit has changed, and no more: an insertion the new cell and what stands behind
it, an erasure what stands behind and blanks, a step the way over one cell, all other keys nothing.
What is put is put while the cursor is hidden.

* `Unseen` — a drawing that hides the cursor first and shows it last.
* `unseen_insertOps`, `unseen_backspaceOps` — the two drawings of edits.
* `Session.Quiet`, `Session.processKey_quiet` — the keys that draw nothing, on any terminal.
* `Draws`, `processKey_draws` — **the step**: all that a key can do to a session on a screen.
* `draws_only_changes` — the law for all sessions.
-/

set_option autoImplicit false

namespace LineEditor

/-! ## Keys that draw nothing -/

namespace Session

variable {τ : Type} {session : Session τ} {key : Key}

/-- The keys at which nothing is to be drawn: all keys behind Enter, cells that may not stand in a line,
keys that would lead over an end of the line, and control keys that neither edit nor step. -/
inductive Quiet (session : Session τ) : Key → Prop where
  | ended (hphase : session.phase = .terminating) (key : Key) : Quiet session key
  | printable {cell : Cell} (hcell : cell.isInsertable = false) : Quiet session (.printable cell)
  | backspace (hfirst : session.position = 0) : Quiet session (.control .backspace)
  | left (hfirst : session.position = 0) : Quiet session (.control .left)
  | right (hlast : session.line.size ≤ session.position) : Quiet session (.control .right)
  | other {control : ControlKey} (hedits : control ≠ .backspace)
      (hsteps : control ≠ .left ∧ control ≠ .right) : Quiet session (.control control)

/-- Only printable keys need room. -/
theorem canStore_control (session : Session τ) (control : ControlKey) :
    session.CanStore (.control control) := fun _ hkey => nomatch hkey

/-- The phase behind a key that draws nothing. -/
def phaseBehind (session : Session τ) (key : Key) : Phase :=
  if key = .control .enter then .terminating else session.phase

variable [Terminal τ] {width : Char → Nat}

/-- **A quiet key changes nothing but the phase**, and calls nothing of the terminal. -/
theorem processKey_quiet (h : session.Quiet key) :
    processKey width key session =
      .ok (session.phaseBehind key) { session with phase := session.phaseBehind key } := by
  cases hphase : session.phase with
  | terminating =>
    have hbehind : session.phaseBehind key = .terminating := by rw [phaseBehind, hphase, ite_self]
    rw [processKey_terminating hphase, hbehind, ← hphase]
  | reading =>
    -- a key that is not obeyed leaves the session as it is
    have hkept (hkey : key ≠ .control .enter) (hobey : obey width key session = .ok () session) :
        processKey width key session =
          .ok (session.phaseBehind key) { session with phase := session.phaseBehind key } := by
      have hbehind : session.phaseBehind key = session.phase := if_neg hkey
      rw [processKey, Action.get_bind, hphase, hbehind]
      exact Action.bind_of_ok hobey
    have hskips {p : Prop} [Decidable p] {step : Action (Session τ) Unit} (hp : ¬p) :
        (if p then step else pure ()) session = .ok () session := by
      rw [if_neg hp]
      rfl
    cases h with
    | ended hended _ =>
      rw [hphase] at hended
      cases hended
    | printable hcell => exact hkept (by simp) (hskips (by rw [hcell]; exact Bool.false_ne_true))
    | backspace hfirst => exact hkept (by simp) (hskips (by omega))
    | left hfirst => exact hkept (by simp) (hskips (by omega))
    | right hlast => exact hkept (by simp) (hskips (by omega))
    | @other control hedits hsteps =>
      cases control with
      | backspace => exact absurd rfl hedits
      | left => exact absurd rfl hsteps.1
      | right => exact absurd rfl hsteps.2
      | enter =>
        rw [processKey, Action.get_bind, hphase]
        rfl
      | _ => exact hkept (by simp) rfl

end Session

namespace Screen

variable {screen start : Screen} {middle ops more : List Op}

/-! ## Drawing behind a hidden cursor -/

/-- Cells are put, and the cursor steps back. -/
def Prints (ops : List Op) : Prop := ∀ op ∈ ops, op = .moveLeft ∨ ∃ cell, op = .put cell

/-- A drawing that nobody sees before it is done: the cursor is hidden first, and shown last behind the
only operation that sets it; in the middle cells are put and the cursor steps back, and whenever a
cell is put the cursor is hidden. -/
structure Unseen (screen : Screen) (middle ops : List Op) : Prop where
  framed : ∃ caret, ops = .hideCursor :: (middle ++ [.setCursor caret, .showCursor])
  prints : Prints middle
  hidden : ∀ before cell after, ops = before ++ .put cell :: after →
    (screen.play before).visible = false

theorem visible_prints (h : Prints ops) : (screen.play ops).visible = screen.visible := by
  refine visible_play fun op hop screen => ?_
  rcases h op hop with rfl | ⟨cell, rfl⟩
  · rfl
  · simp only [obey]
    split <;> rfl

theorem unseen_of_prints (h : Prints middle) (caret : Position) :
    Unseen screen middle (.hideCursor :: (middle ++ [.setCursor caret, .showCursor])) := by
  refine ⟨⟨caret, rfl⟩, h, fun before cell after heq => ?_⟩
  cases before with
  | nil => cases heq
  | cons first front =>
    obtain ⟨rfl, hrest⟩ := List.cons_eq_cons.mp heq
    -- a cell is put before the cursor is set, so what is in front of it is in the middle
    have hfront : front <+: middle := by
      rcases List.append_eq_append_iff.mp hrest with ⟨more, -, hmore⟩ | ⟨more, hmiddle, -⟩
      · have hput : Op.put cell ∈ [Op.setCursor caret, .showCursor] := by simp [hmore]
        simp at hput
      · exact ⟨more, hmiddle.symm⟩
    exact visible_prints fun op hop => h op (hfront.subset hop)

theorem prints_map_put (cells : List Cell) : Prints (cells.map .put) := by
  intro op hop
  obtain ⟨cell, -, rfl⟩ := List.mem_map.mp hop
  exact .inr ⟨cell, rfl⟩

theorem prints_append (h : Prints ops) (hmore : Prints more) :
    Prints (ops ++ more) := fun op hop => (List.mem_append.mp hop).elim (h op) (hmore op)

theorem prints_replicate {op : Op} (h : op = .moveLeft ∨ ∃ cell, op = .put cell) (count : Nat) :
    Prints (List.replicate count op) := by
  intro other hother
  rw [List.eq_of_mem_replicate hother]
  exact h

/-- The operations that take the cursor over the right edge behind a cell that reaches it. -/
def edgeOps (screen : Screen) (cell : Cell) : List Op :=
  if screen.size.columns ≤ screen.cursor.column + cell.columns screen.width then
    [.put Cell.space, .moveLeft]
  else []

/-- **An insertion puts the cell, a blank at the right edge, and the cells behind it.** -/
theorem unseen_insertOps (screen : Screen) (cell : Cell) (behind : List Cell) :
    Unseen screen (.put cell :: (screen.edgeOps cell ++ behind.map .put))
      (screen.insertOps cell behind) := by
  have hedge : Prints (screen.edgeOps cell) := by
    unfold edgeOps Prints
    split <;> simp
  have hprints := prints_append (prints_map_put [cell])
    (prints_append hedge (prints_map_put behind))
  have hops : screen.insertOps cell behind = .hideCursor ::
      (.put cell :: (screen.edgeOps cell ++ behind.map .put) ++
        [.setCursor (screen.play (screen.printOps cell)).cursor, .showCursor]) := by
    simp only [insertOps, printOps, edgeOps, List.append_assoc, List.cons_append, List.nil_append]
  rw [hops]
  exact unseen_of_prints hprints _

/-- **An erasure goes back over the cell, and puts the cells behind it and blanks.** -/
theorem unseen_backspaceOps (screen : Screen) (erased : Cell) (behind : List Cell) :
    Unseen screen (List.replicate (erased.columns screen.width) .moveLeft ++ behind.map .put ++
        List.replicate (max (erased.columns screen.width) 1) (.put Cell.space))
      (screen.backspaceOps erased behind) := by
  refine unseen_of_prints (prints_append (prints_append ?_ (prints_map_put behind)) ?_)
    (screen.play (screen.returnOps erased)).cursor
  · exact prints_replicate (.inl rfl) _
  · exact prints_replicate (.inr ⟨Cell.space, rfl⟩) _

/-! ## All that a key can do -/

/-- A session went on with these cells and with the caret behind so many of them, and made these
operations. -/
structure Goes (session : Session Screen) (cells : List Cell) (position : Nat) (ops : List Op)
    (next : Session Screen) : Prop where
  cells : next.line.cells = cells
  position : next.position = position
  phase : next.phase = .reading
  ops : next.terminal.ops = session.terminal.ops ++ ops

/-- What a key can do to a session on a screen, and what it draws.  The cells behind the caret are those
that an edit puts again, and those in front of it are left alone. -/
inductive Draws (session : Session Screen) :
    Key → EStateM.Result Failure (Session Screen) Session.Phase → Prop where
  /-- the cell comes in front of the caret -/
  | inserts {cell : Cell} {grown : Line} {ops : List Op} {next : Session Screen}
      (hphase : session.phase = .reading) (hcell : cell.isInsertable = true)
      (hgrow : Line.grow session.line = .ok () grown)
      (hgoes : Goes session (session.line.cells.take session.position ++
        cell :: session.line.cells.drop session.position) (session.position + 1) ops next)
      (hunseen : Unseen session.terminal (.put cell :: (session.terminal.edgeOps cell ++
        (session.line.cells.drop session.position).map .put)) ops) :
    Draws session (.printable cell) (.ok .reading next)
  /-- the line cannot grow, and the screen was asked for the place of the cursor -/
  | refuses {cell : Cell} {fault : Line.Fault} {memory : Memory}
      (hphase : session.phase = .reading) (hcell : cell.isInsertable = true)
      (hgrow : Line.grow session.line = .error fault { session.line with memory }) :
    Draws session (.printable cell) (.error fault.toFailure
      { session with line := { session.line with memory }, terminal := session.terminal.asked 1 })
  /-- the cell in front of the caret is taken out -/
  | erases {erased : Cell} {ops : List Op} {next : Session Screen}
      (hphase : session.phase = .reading) (hpos : 0 < session.position)
      (hcells : session.line.cells[session.position - 1]? = some erased)
      (hgoes : Goes session (session.line.cells.take (session.position - 1) ++
        session.line.cells.drop session.position) (session.position - 1) ops next)
      (hunseen : Unseen session.terminal
        (List.replicate (erased.columns session.terminal.width) .moveLeft ++
          (session.line.cells.drop session.position).map .put ++
          List.replicate (max (erased.columns session.terminal.width) 1) (.put Cell.space)) ops) :
    Draws session (.control .backspace) (.ok .reading next)
  /-- the caret goes over the cell in front of it -/
  | left {passed : Cell} {next : Session Screen} (hphase : session.phase = .reading)
      (hpos : 0 < session.position)
      (hcells : session.line.cells[session.position - 1]? = some passed)
      (hgoes : Goes session session.line.cells (session.position - 1)
        (List.replicate (passed.columns session.terminal.width) .moveLeft) next) :
    Draws session (.control .left) (.ok .reading next)
  /-- the caret goes over the cell behind it -/
  | right {passed : Cell} {next : Session Screen} (hphase : session.phase = .reading)
      (hcells : session.line.cells[session.position]? = some passed)
      (hgoes : Goes session session.line.cells (session.position + 1)
        (List.replicate (passed.columns session.terminal.width) .moveRight) next) :
    Draws session (.control .right) (.ok .reading next)
  /-- nothing is drawn, and only Enter changes anything -/
  | quiet {key : Key} (hquiet : session.Quiet key) :
    Draws session key
      (.ok (session.phaseBehind key) { session with phase := session.phaseBehind key })

section

variable {session : Session Screen} {supply : Line.Supply} {editor : Editor} {key : Key}

/-- A key that the line has room for does what it does to the editor, and draws that. -/
theorem goes_of_canStore (h : session.Edits supply editor) (hopen : editor.ended = false)
    (hkey : key ≠ .control .enter) (hstore : session.CanStore key) {after : Editor}
    (hpress : editor.press key = after) (hops : session.terminal.keyOps editor key = ops) :
    ∃ next, Session.processKey session.terminal.width key session = .ok .reading next ∧
      Goes session after.cells after.cursor ops next := by
  obtain ⟨next, count, hrun, hnext, hterminal⟩ := processKey_plays h fun _ => hstore
  rw [hpress] at hnext
  rw [hops] at hterminal
  have hended : after.ended = false := Bool.eq_false_iff.mpr fun hended =>
    hkey ((Editor.ended_press hopen).mp (by rw [hpress, hended]))
  have hphase : next.phase = .reading := by
    rw [hnext.phase, hended]
    rfl
  refine ⟨next, by rw [hrun, hphase], hnext.line.cells_eq, hnext.position, hphase, ?_⟩
  rw [hterminal, ops_play]

/-- The cell at a place of the line, as the operations of a key name it. -/
theorem getElem?_of_edits (h : session.Edits supply editor) {place : Nat}
    (hplace : place < editor.cells.length) :
    session.line.cells[place]? = some (editor.cells.getD place Cell.empty) := by
  rw [h.line.cells_eq, List.getD_eq_getElem?_getD, List.getElem?_eq_getElem hplace, Option.getD_some]

theorem draws_quiet (hquiet : session.Quiet key) (width : Char → Nat) :
    Draws session key (Session.processKey width key session) := by
  rw [Session.processKey_quiet hquiet]
  exact .quiet hquiet

theorem draws_insert (h : session.Edits supply editor) (hopen : editor.ended = false)
    (hphase : session.phase = .reading) {cell : Cell} (hcell : cell.isInsertable = true) :
    Draws session (.printable cell)
      (Session.processKey session.terminal.width (.printable cell) session) := by
  have hinside : session.position ≤ session.line.size := by
    rw [h.position, h.line.size_eq]
    exact editor.inside
  cases hgrow : Line.grow session.line with
  | ok _ grown =>
    have hpress : editor.press (.printable cell) = editor.insert cell := by
      rw [Editor.press, hopen, if_neg Bool.false_ne_true]
      exact if_pos hcell
    have hops : session.terminal.keyOps editor (.printable cell) =
        session.terminal.insertOps cell (session.line.cells.drop session.position) := by
      rw [keyOps, hopen, if_neg Bool.false_ne_true, h.line.cells_eq, h.position]
      exact if_pos hcell
    have hcells : (editor.insert cell).cells = session.line.cells.take session.position ++
        cell :: session.line.cells.drop session.position := by
      rw [h.line.cells_eq, h.position]
      rfl
    have hcaret : (editor.insert cell).cursor = session.position + 1 := by
      rw [h.position]
      rfl
    obtain ⟨next, hrun, hgoes⟩ :=
      goes_of_canStore h hopen (by simp) (fun _ _ _ => ⟨grown, hgrow⟩) hpress hops
    rw [hcells, hcaret] at hgoes
    rw [hrun]
    exact .inserts hphase hcell hgrow hgoes (unseen_insertOps _ _ _)
  | error fault line =>
    obtain ⟨-, -, hline⟩ := h.line.grow.of_error hgrow
    rw [hline] at hgrow
    rw [Session.refuses_growth hphase hcell hgrow hinside]
    exact .refuses hphase hcell hgrow

theorem draws_backspace (h : session.Edits supply editor) (hopen : editor.ended = false)
    (hphase : session.phase = .reading) (hpos : 0 < session.position) :
    Draws session (.control .backspace)
      (Session.processKey session.terminal.width (.control .backspace) session) := by
  have hinside := editor.inside
  have hcaret : editor.backspace.cursor = session.position - 1 := by
    rw [h.position]
    rfl
  have hcells : editor.backspace.cells = session.line.cells.take (session.position - 1) ++
      session.line.cells.drop session.position := by
    rw [h.line.cells_eq, h.position]
    rfl
  have hpress : editor.press (.control .backspace) = editor.backspace := by
    rw [Editor.press, hopen, if_neg Bool.false_ne_true]
  have hops : session.terminal.keyOps editor (.control .backspace) =
      session.terminal.backspaceOps (editor.cells.getD (session.position - 1) Cell.empty)
        (session.line.cells.drop session.position) := by
    rw [h.position] at hpos
    rw [keyOps, hopen, if_neg Bool.false_ne_true, h.line.cells_eq, h.position]
    exact if_pos hpos
  have hplace : session.position - 1 < editor.cells.length := by
    have := h.position
    omega
  have herased := getElem?_of_edits h hplace
  obtain ⟨next, hrun, hgoes⟩ :=
    goes_of_canStore h hopen (by simp) (Session.canStore_control _ _) hpress hops
  rw [hcells, hcaret] at hgoes
  rw [hrun]
  exact .erases hphase hpos herased hgoes (unseen_backspaceOps _ _ _)

theorem draws_left (h : session.Edits supply editor) (hopen : editor.ended = false)
    (hphase : session.phase = .reading) (hpos : 0 < session.position) :
    Draws session (.control .left)
      (Session.processKey session.terminal.width (.control .left) session) := by
  have hinside := editor.inside
  have hcaret : editor.left.cursor = session.position - 1 := by
    rw [h.position]
    rfl
  have hpress : editor.press (.control .left) = editor.left := by
    rw [Editor.press, hopen, if_neg Bool.false_ne_true]
  have hops : session.terminal.keyOps editor (.control .left) =
      List.replicate ((editor.cells.getD (session.position - 1) Cell.empty).columns
        session.terminal.width) .moveLeft := by
    rw [h.position] at hpos
    rw [keyOps, hopen, if_neg Bool.false_ne_true, h.position]
    exact if_pos hpos
  have hplace : session.position - 1 < editor.cells.length := by
    have := h.position
    omega
  have hpassed := getElem?_of_edits h hplace
  obtain ⟨next, hrun, hgoes⟩ :=
    goes_of_canStore h hopen (by simp) (Session.canStore_control _ _) hpress hops
  rw [show editor.left.cells = session.line.cells from h.line.cells_eq.symm, hcaret] at hgoes
  rw [hrun]
  exact .left hphase hpos hpassed hgoes

theorem draws_right (h : session.Edits supply editor) (hopen : editor.ended = false)
    (hphase : session.phase = .reading) (hend : session.position < session.line.size) :
    Draws session (.control .right)
      (Session.processKey session.terminal.width (.control .right) session) := by
  rw [h.line.size_eq] at hend
  have hcaret : editor.right.cursor = session.position + 1 := by
    rw [h.position] at hend ⊢
    exact Nat.min_eq_left hend
  have hpress : editor.press (.control .right) = editor.right := by
    rw [Editor.press, hopen, if_neg Bool.false_ne_true]
  have hops : session.terminal.keyOps editor (.control .right) =
      List.replicate ((editor.cells.getD session.position Cell.empty).columns
        session.terminal.width) .moveRight := by
    rw [h.position] at hend ⊢
    rw [keyOps, hopen, if_neg Bool.false_ne_true]
    exact if_pos hend
  have hpassed := getElem?_of_edits h hend
  obtain ⟨next, hrun, hgoes⟩ :=
    goes_of_canStore h hopen (by simp) (Session.canStore_control _ _) hpress hops
  rw [show editor.right.cells = session.line.cells from h.line.cells_eq.symm, hcaret] at hgoes
  rw [hrun]
  exact .right hphase hpassed hgoes

/-- **The step: a key does one of these things**, to every session whose line is the one of an editor. -/
theorem processKey_draws (h : session.Edits supply editor) (key : Key) :
    Draws session key (Session.processKey session.terminal.width key session) := by
  have hphase := h.phase
  cases hopen : editor.ended with
  | true =>
    rw [hopen, if_pos rfl] at hphase
    exact draws_quiet (.ended hphase key) _
  | false =>
    rw [hopen, if_neg Bool.false_ne_true] at hphase
    cases key with
    | printable cell =>
      cases hcell : cell.isInsertable with
      | true => exact draws_insert h hopen hphase hcell
      | false => exact draws_quiet (.printable hcell) _
    | control control =>
      cases control with
      | backspace =>
        by_cases hpos : 0 < session.position
        · exact draws_backspace h hopen hphase hpos
        · exact draws_quiet (.backspace (by omega)) _
      | left =>
        by_cases hpos : 0 < session.position
        · exact draws_left h hopen hphase hpos
        · exact draws_quiet (.left (by omega)) _
      | right =>
        by_cases hend : session.position < session.line.size
        · exact draws_right h hopen hphase hend
        · exact draws_quiet (.right (by omega)) _
      | _ => exact draws_quiet (.other (by simp) (by simp)) _

/-! ## All sessions -/

variable {settings : Settings} {typed : List Key}

/-- **A key draws no more than its edit has changed, and nobody sees how.**  Let a session on a screen
be reached by any keys, also past lines that could not grow.  A key that inserts a cell puts this cell,
at the right edge a blank from which the cursor steps back, and then the cells behind, in order.  A key
that erases a cell steps back over its columns, and puts the cells behind, in order, and as many blanks
as the cell had columns, but one at least.  Both do so behind a hidden cursor, which is then set once
and shown.  A key that steps over a cell moves the cursor by the columns of the cell.  Every other key
makes no operation: Enter only ends the line, a line that cannot grow stays as it is, and nothing else
changes anything. -/
theorem draws_only_changes (h : Session.Driven start.width settings start typed session) (key : Key) :
    Draws session key (Session.processKey start.width key session) := by
  obtain ⟨supply, editor, ops, count, hedits, -, hterminal, -⟩ := driven_on_screen h
  have hwidth : session.terminal.width = start.width := by
    rw [hterminal]
    exact start.width_play ops
  rw [← hwidth]
  exact processKey_draws hedits key

/-- A wide cell in front of another reaches the right edge of three columns. -/
theorem draws_only_changes_at_edge :
    ∃ session next : Session Screen, ∃ caret,
      Session.Driven Text.width {} { size := ⟨3, 2⟩, cursor := ⟨1, 0⟩ : Screen }
        [Key.ofChar 'a', .control .left] session ∧
      Session.processKey Text.width (Key.ofChar '中') session = .ok .reading next ∧
      next.terminal.ops = session.terminal.ops ++ [.hideCursor, .put (Cell.ofChar '中'),
        .put Cell.space, .moveLeft, .put (Cell.ofChar 'a'), .setCursor caret, .showCursor] := by
  let start : Screen := { size := ⟨3, 2⟩, cursor := ⟨1, 0⟩ }
  obtain ⟨first, after, session, hcreate, hsession, hphase, hroom, hbehind, hedge⟩ :
      ∃ first after session, Session.create start {} Memory.machine = .ok first after ∧
        session = Action.state (Session.processKey start.width (.control .left)
          (Action.state (Session.processKey start.width (Key.ofChar 'a') first))) ∧
        session.phase = .reading ∧ session.line.size < session.line.capacity ∧
        session.line.cells.drop session.position = [Cell.ofChar 'a'] ∧
        session.terminal.edgeOps (Cell.ofChar '中') = [.put Cell.space, .moveLeft] :=
    ⟨_, _, _, rfl, rfl, by decide +kernel, by decide +kernel, by decide +kernel, by decide +kernel⟩
  have hdriven : Session.Driven start.width {} start [Key.ofChar 'a', .control .left] session := by
    rw [hsession]
    exact ((Session.Driven.create hcreate).key (Key.ofChar 'a')).key (.control .left)
  have hdraws := draws_only_changes hdriven (Key.ofChar '中')
  generalize hrun : Session.processKey start.width (Key.ofChar '中') session = result at hdraws
  have hgrow : Line.grow session.line = .ok () session.line := if_pos hroom
  have hcell : (Cell.ofChar '中').isInsertable = true := by decide +kernel
  cases hdraws with
  | @inserts _ _ ops next _ _ _ hgoes hunseen =>
    obtain ⟨caret, hframed⟩ := hunseen.framed
    refine ⟨session, next, caret, hdriven, hrun, ?_⟩
    rw [hgoes.ops, hframed, hbehind, hedge]
    rfl
  | refuses _ _ hfull =>
    rw [hgrow] at hfull
    cases hfull
  | quiet hquiet =>
    cases hquiet with
    | ended hended _ =>
      rw [hphase] at hended
      cases hended
    | printable hnone =>
      rw [hcell] at hnone
      cases hnone

end

end Screen

end LineEditor
