import LineEditor.Proofs.Session.Effects
import LineEditor.Proofs.Session.Refinement
import LineEditor.Proofs.Session.Slots
import LineEditor.Terminal.Recorder
import LineEditor.Terminal.Screen

/-!
# A session on a terminal that may fail

Every call to the terminal may fail, and so may every request for storage.  A session that goes on
after such failures stays sound: whatever was cut short, its line and its caret are those of an editor
in front of the key or behind it, and none of its indices lies outside its line.

* `Terminal.Reports`, `Blamed` — the failures of calls, and with those of growing all failures of keys.
* `Halfway` — what a key leaves behind that fails.
* `processKey_agrees` — **the step**: a key does what it does to the editor, or it stops halfway; and it
  does so slot by slot, with no index outside the line.
* `refuses_growth` — a line that cannot grow ends the key before anything is drawn.
* `Reached`, `reached_sound` — **the run**: all that a session can come to.
* `reached_safe` — the laws together.
-/

set_option autoImplicit false

open LineEditor.Action

namespace LineEditor

/-- Some call to a terminal of this kind reports the failure. -/
inductive Terminal.Reports (τ : Type) [Terminal τ] (failure : Failure) : Prop where
  | columns {before after : τ} (h : (Terminal.columns : Action τ Nat) before = .error failure after)
  | cursor {before after : τ} (h : (Terminal.cursor : Action τ Position) before = .error failure after)
  | setCursor (position : Position) {before after : τ}
    (h : (Terminal.setCursor position : Action τ Unit) before = .error failure after)
  | put (cell : Cell) {before after : τ}
    (h : (Terminal.put cell : Action τ Unit) before = .error failure after)
  | moveLeft {before after : τ} (h : (Terminal.moveLeft : Action τ Unit) before = .error failure after)
  | moveRight {before after : τ} (h : (Terminal.moveRight : Action τ Unit) before = .error failure after)
  | showCursor {before after : τ}
    (h : (Terminal.showCursor : Action τ Unit) before = .error failure after)
  | hideCursor {before after : τ}
    (h : (Terminal.hideCursor : Action τ Unit) before = .error failure after)
  | flush {before after : τ} (h : (Terminal.flush : Action τ Unit) before = .error failure after)

namespace Session

variable {τ α : Type}

/-! ## Failures and where they come from -/

/-- A failure of a key: a call to the terminal reports it, or the line could not grow. -/
inductive Blamed (τ : Type) [Terminal τ] : Failure → Prop where
  | terminal {failure : Failure} (h : Terminal.Reports τ failure) : Blamed τ failure
  | line {fault : Line.Fault} (h : fault.Exhausts) : Blamed τ fault.toFailure

/-- Whatever a step does, it fails with the failure of a call. -/
def reporting (τ : Type) [Terminal τ] : Change Failure τ where
  passes _ _ := True
  fails _ failure _ := Terminal.Reports τ failure
  refl _ := trivial
  trans _ _ := trivial
  fails_after _ h := h

variable [Terminal τ]

theorem has_reporting {step : Action τ α}
    (h : ∀ {before failure after}, step before = .error failure after → Terminal.Reports τ failure) :
    Has (reporting τ) step := by
  intro before
  cases hstep : step before with
  | ok value after => exact ends_of_ok hstep trivial
  | error failure after => exact ends_of_error hstep (h hstep)

theorem callsHave_reporting : CallsHave (reporting τ) where
  columns := has_reporting .columns
  cursor := has_reporting .cursor
  setCursor position := has_reporting (.setCursor position)
  put cell := has_reporting (.put cell)
  moveLeft := has_reporting .moveLeft
  moveRight := has_reporting .moveRight
  showCursor := has_reporting .showCursor
  hideCursor := has_reporting .hideCursor
  flush := has_reporting .flush

/-! ## Keys that stop halfway -/

/-- The cells and the caret are each the old ones or the new ones. -/
structure Between (before after middle : Editor) : Prop where
  cells : middle.cells = before.cells ∨ middle.cells = after.cells
  cursor : middle.cursor = before.cursor ∨ middle.cursor = after.cursor
  ended : middle.ended = before.ended

theorem Between.start (before after : Editor) : Between before after before :=
  ⟨.inl rfl, .inl rfl, rfl⟩

/-- A step that was to lead from one editor to another failed on the way. -/
def Halfway (supply : Line.Supply) (before after : Editor) (failure : Failure) (session : Session τ) :
    Prop :=
  ∃ middle, Between before after middle ∧ session.Edits supply middle ∧ Blamed τ failure

variable {supply : Line.Supply} {before after editor middle : Editor} {session : Session τ} {cell : Cell}
  {key : Key} {width : Char → Nat} {trap : Line.Fault}

omit [Terminal τ] in
/-- What is done to the terminal alone keeps the editor. -/
theorem Edits.of_framed {s t : Session τ} (h : s.Edits supply editor)
    (ht : t = { s with terminal := t.terminal }) : t.Edits supply editor := by
  rw [ht]
  exact ⟨h.line, h.position, h.phase⟩

/-- A step on the terminal keeps the editor, and stops where it is if a call fails. -/
theorem Edits.draws (h : session.Edits supply middle) (hbetween : Between before after middle)
    {step : Action (Session τ) α} (hstep : Has (framed (reporting τ)) step) :
    Agree step step session (fun _ next => next.Edits supply middle) (Halfway supply before after) := by
  refine ((hstep session).mono ?_ ?_).agree
  · rintro _ next ⟨-, hnext⟩
    exact h.of_framed hnext
  · rintro failure next ⟨hfailure, hnext⟩
    exact ⟨middle, hbetween, h.of_framed hnext, .terminal hfailure⟩

/-- So does drawing what stands behind a place. -/
theorem Edits.drawsFrom (h : session.Edits supply middle) (hbetween : Between before after middle)
    (first : Nat) :
    Agree (Slotwise.putFrom trap first) (putAll (session.line.cells.drop first)) session
      (fun _ next => next.Edits supply middle) (Halfway supply before after) :=
  (h.draws hbetween (callsHave_reporting.putAll _)).of_eq (slotwise_putFrom trap h.line first)

omit [Terminal τ] in
theorem ends_onLine {step : EStateM Line.Fault Line α} {passed : α → Line → Prop}
    {failed : Line.Fault → Line → Prop} (h : Ends step session.line passed failed) :
    Ends (onLine step) session
      (fun value next => passed value next.line ∧ next = { session with line := next.line })
      (fun failure next => ∃ fault, failure = fault.toFailure ∧ failed fault next.line ∧
        next = { session with line := next.line }) := by
  cases hstep : step session.line with
  | ok value line =>
    have hrun : onLine step session = .ok value { session with line } := by rw [onLine, hstep]
    exact ends_of_ok hrun ⟨h.of_ok hstep, rfl⟩
  | error fault line =>
    have hrun : onLine step session = .error fault.toFailure { session with line } := by
      rw [onLine, hstep]
    exact ends_of_error hrun ⟨fault, rfl, h.of_error hstep, rfl⟩

/-! ## Single edits -/

/-- The editor with a new cell in front of which the caret still stands. -/
def storing (editor : Editor) (cell : Cell) : Editor :=
  { editor.insert cell with
    cursor := editor.cursor
    inside := by
      have := editor.inside
      rw [editor.length_insert]
      omega }

theorem between_storing (editor : Editor) (cell : Cell) :
    Between editor (editor.insert cell) (storing editor cell) :=
  ⟨.inr rfl, .inl rfl, rfl⟩

/-- The editor that has stepped back over a cell which is still there. -/
theorem between_left (editor : Editor) : Between editor editor.backspace editor.left :=
  ⟨.inl rfl, .inr rfl, rfl⟩

/-- The new cell is in the line, or the line could not grow. -/
theorem Edits.store (h : session.Edits supply editor) (cell : Cell) :
    Agree (Slotwise.store trap cell) (store cell) session
      (fun _ next => next.Edits supply (storing editor cell))
      (Halfway supply editor (editor.insert cell)) := by
  have hinside := editor.inside
  have hposition : session.position ≤ editor.cells.length := by rwa [h.position]
  have hinsert : editor.cells.insertIdx editor.cursor cell = (storing editor cell).cells :=
    Line.insertIdx_eq hinside
  have hline : Ends (if session.line.size ≤ session.position then Line.append cell
        else Line.insert cell session.position) session.line
      (fun _ longer => Line.Settled supply (storing editor cell).cells longer)
      (fun fault kept => Line.Settled supply editor.cells kept ∧ fault.Exhausts) := by
    rw [← hinsert, h.position]
    exact h.line.store cell hinside
  have hstore : Session.store cell session = onLine (if session.line.size ≤ session.position then
      Line.append cell else Line.insert cell session.position) session := by
    rw [Session.store, get_bind]
    split <;> rfl
  refine ⟨slotwise_store trap h.line hposition cell, ((ends_onLine hline).of_eq hstore).mono ?_ ?_⟩
  · rintro _ next ⟨hnext, hframe⟩
    rw [hframe]
    exact ⟨hnext, h.position, h.phase⟩
  · rintro _ next ⟨fault, rfl, ⟨hnext, hfault⟩, hframe⟩
    refine ⟨editor, Between.start _ _, ?_, .line hfault⟩
    rw [hframe]
    exact ⟨hnext, h.position, h.phase⟩

theorem Edits.insert_agrees (h : session.Edits supply editor) (cell : Cell) :
    Agree (Slotwise.insert trap width cell) (Session.insert width cell) session
      (fun _ next => next.Edits supply (editor.insert cell))
      (Halfway supply editor (editor.insert cell)) := by
  have hcalls := callsHave_reporting (τ := τ)
  have hstart := Between.start editor (editor.insert cell)
  have hstored := between_storing editor cell
  refine (h.draws hstart (framed_onTerminal hcalls.cursor)).bind fun start s h => ?_
  refine (h.draws hstart (framed_onTerminal hcalls.columns)).bind fun columns s h => ?_
  refine (h.store cell).bind fun _ s h => ?_
  refine (h.draws hstored (framed_onTerminal (hcalls.print width cell start columns))).bind fun _ s h => ?_
  refine (h.draws hstored (framed_onTerminal hcalls.cursor)).bind fun caret s h => agree_get_bind ?_
  refine (h.drawsFrom hstored (s.position + 1)).bind fun _ s h => ?_
  refine (h.draws hstored (framed_onTerminal (hcalls.setCursor caret))).bind fun _ s h => ?_
  refine (h.draws hstored (framed_onTerminal hcalls.showCursor)).bind fun _ s h => ?_
  exact agree_of_ok rfl ⟨h.line, congrArg (· + 1) h.position, h.phase⟩

/-- The caret steps back. -/
theorem Edits.stepBack (h : session.Edits supply editor) (after : Editor) :
    Agree (modify fun s => { s with position := session.position - 1 } : Action (Session τ) PUnit)
      (modify fun s => { s with position := s.position - 1 }) session
      (fun _ next => next.Edits supply editor.left) (Halfway supply editor after) :=
  ⟨rfl, ends_of_ok rfl ⟨h.line, congrArg (· - 1) h.position, h.phase⟩⟩

/-- The caret stands behind the cell that is taken out. -/
theorem Edits.erase (h : session.Edits supply editor.left) (hpos : 0 < editor.cursor)
    (after : Editor) :
    Agree (onLine (Line.Slotwise.erase trap session.position)) (onLine (Line.erase session.position))
      session (fun _ next => next.Edits supply editor.backspace) (Halfway supply editor after) := by
  have hinside := editor.inside
  have hposition : session.position = editor.cursor - 1 := h.position
  have hindex : editor.cursor - 1 < editor.left.cells.length :=
    show editor.cursor - 1 < editor.cells.length by omega
  obtain ⟨shorter, herase, hshorter, -⟩ := Line.erase_ok h.line hindex
  have hcells : editor.cells.eraseIdx (editor.cursor - 1) = editor.backspace.cells := by
    rw [List.eraseIdx_eq_take_drop_succ, Nat.sub_add_cancel hpos]
    rfl
  change Line.Settled supply (editor.cells.eraseIdx (editor.cursor - 1)) shorter at hshorter
  rw [hcells] at hshorter
  rw [hposition]
  exact ⟨slotwise_erase trap h.line hindex,
    ends_of_ok (onLine_ok herase) ⟨hshorter, h.position, h.phase⟩⟩

theorem Edits.backspace_agrees (h : session.Edits supply editor) (hpos : 0 < editor.cursor) :
    Agree (Slotwise.backspace trap width) (Session.backspace width) session
      (fun _ next => next.Edits supply editor.backspace) (Halfway supply editor editor.backspace) := by
  have hcalls := callsHave_reporting (τ := τ)
  have hinside := editor.inside
  have hstart := Between.start editor editor.backspace
  have hback := between_left editor
  have herased : Between editor editor.backspace editor.backspace := ⟨.inr rfl, .inr rfl, rfl⟩
  refine (h.draws hstart (framed_onTerminal hcalls.hideCursor)).bind fun _ s h => agree_get_bind ?_
  have hcaret : 0 < s.position := by rwa [h.position]
  have hplace : s.position - 1 < editor.cells.length := by
    rw [h.position]
    omega
  have hcell := slotwise_cellAt trap h.line hplace
  refine Agree.of_eq ((bind_of_ok (before_eq trap hcaret)).trans (bind_of_ok hcell)) ?_
  refine (h.draws hstart ((framed_onTerminal hcalls.moveLeft).times _)).bind fun _ s h => ?_
  have hcaret : 0 < s.position := by rwa [h.position]
  refine Agree.of_eq ((get_bind _ s).trans (bind_of_ok (before_eq trap hcaret))) ?_
  refine (h.stepBack editor.backspace).bind fun _ s h => ?_
  refine (h.draws hback (framed_onTerminal hcalls.cursor)).bind fun caret s h => agree_get_bind ?_
  refine (h.erase hpos editor.backspace).bind fun _ s h => agree_get_bind ?_
  refine (h.drawsFrom herased s.position).bind fun _ s h => ?_
  refine (h.draws herased ((framed_onTerminal (hcalls.put Cell.space)).times _)).bind fun _ s h => ?_
  refine (h.draws herased (framed_onTerminal (hcalls.setCursor caret))).bind fun _ s h => ?_
  exact h.draws herased (framed_onTerminal hcalls.showCursor)

theorem Edits.moveRight_agrees (h : session.Edits supply editor)
    (hend : editor.cursor < editor.cells.length) :
    Agree (Slotwise.moveRight trap width) (Session.moveRight width) session
      (fun _ next => next.Edits supply editor.right) (Halfway supply editor editor.right) := by
  have hcalls := callsHave_reporting (τ := τ)
  have hstart := Between.start editor editor.right
  have hplace : session.position < editor.cells.length := by rwa [h.position]
  have hcell := slotwise_cellAt trap h.line hplace
  refine agree_get_bind (Agree.of_eq (bind_of_ok hcell) ?_)
  refine (h.draws hstart ((framed_onTerminal hcalls.moveRight).times _)).bind fun _ s h => ?_
  refine agree_of_ok rfl ⟨h.line, ?_, h.phase⟩
  have hposition := h.position
  change s.position + 1 = min (editor.cursor + 1) editor.cells.length
  omega

theorem Edits.moveLeft_agrees (h : session.Edits supply editor) (hpos : 0 < editor.cursor) :
    Agree (Slotwise.moveLeft trap width) (Session.moveLeft width) session
      (fun _ next => next.Edits supply editor.left) (Halfway supply editor editor.left) := by
  have hcalls := callsHave_reporting (τ := τ)
  have hinside := editor.inside
  have hleft : Between editor editor.left editor.left := ⟨.inl rfl, .inr rfl, rfl⟩
  have hcaret : 0 < session.position := by rwa [h.position]
  refine Agree.of_eq ((get_bind _ session).trans (bind_of_ok (before_eq trap hcaret))) ?_
  refine (h.stepBack editor.left).bind fun _ s h => agree_get_bind ?_
  have hposition : s.position = editor.cursor - 1 := h.position
  have hplace : s.position < editor.left.cells.length := by
    change s.position < editor.cells.length
    omega
  have hcell := slotwise_cellAt trap h.line hplace
  refine Agree.of_eq (bind_of_ok hcell) ?_
  exact h.draws hleft ((framed_onTerminal hcalls.moveLeft).times _)

/-! ## Keys -/

theorem obey_agrees (h : session.Edits supply editor) (hopen : editor.ended = false) (key : Key) :
    Agree (Slotwise.obey trap width key) (obey width key) session
      (fun _ next => next.Edits supply (editor.press key)) (Halfway supply editor (editor.press key)) := by
  have hinside := editor.inside
  have hposition := h.position
  have hsize := h.line.size_eq
  unfold Editor.press
  rw [if_neg (by rw [hopen]; exact Bool.false_ne_true)]
  have hnothing {after : Editor} (hafter : after = editor) :
      Agree (pure () : Action (Session τ) Unit) (pure ()) session
        (fun _ next => next.Edits supply after) (Halfway supply editor after) := by
    subst hafter
    exact agree_of_ok rfl h
  refine agree_get_bind ?_
  cases key with
  | printable cell =>
    dsimp only
    by_cases hcell : cell.isInsertable = true
    · rw [if_pos hcell, if_pos hcell, if_pos hcell]
      exact h.insert_agrees cell
    · rw [if_neg hcell, if_neg hcell, if_neg hcell]
      exact hnothing rfl
  | control control =>
    cases control with
    | enter => exact agree_of_ok rfl h.enter
    | backspace =>
      dsimp only
      rw [hposition]
      by_cases hpos : 0 < editor.cursor
      · rw [if_pos hpos, if_pos hpos]
        exact h.backspace_agrees hpos
      · rw [if_neg hpos, if_neg hpos]
        exact hnothing (Editor.backspace_of_zero (by omega))
    | left =>
      dsimp only
      rw [hposition]
      by_cases hpos : 0 < editor.cursor
      · rw [if_pos hpos, if_pos hpos]
        exact h.moveLeft_agrees hpos
      · rw [if_neg hpos, if_neg hpos]
        exact hnothing (Editor.left_of_zero (by omega))
    | right =>
      dsimp only
      rw [hposition, hsize]
      by_cases hend : editor.cursor < editor.cells.length
      · rw [if_pos hend, if_pos hend]
        exact h.moveRight_agrees hend
      · rw [if_neg hend, if_neg hend]
        exact hnothing (Editor.right_of_end (by omega))
    | _ => exact hnothing rfl

variable (width trap) in
/-- **A key does to the session what it does to the editor, or it stops halfway**, and in both cases no
index that it uses lies outside the line. -/
theorem processKey_agrees (h : session.Edits supply editor) (key : Key) :
    Agree (Slotwise.processKey trap width key) (processKey width key) session
      (fun phase next => next.Edits supply (editor.press key) ∧ phase = next.phase)
      (Halfway supply editor (editor.press key)) := by
  have hphase := h.phase
  refine agree_get_bind ?_
  cases hended : editor.ended with
  | true =>
    rw [hended, if_pos rfl] at hphase
    have hpress : editor.press key = editor := by
      unfold Editor.press
      rw [if_pos hended]
    rw [hphase, hpress]
    exact agree_of_ok rfl ⟨h, hphase.symm⟩
  | false =>
    rw [hended, if_neg Bool.false_ne_true] at hphase
    rw [hphase]
    exact (obey_agrees h hended key).bind fun _ s h => agree_of_ok rfl ⟨h, rfl⟩

/-! ## Lines that cannot grow -/

/-- Fail as the line did. -/
def stopWith (fault : Line.Fault) (line : Line) : Action (Session τ) α := fun session =>
  .error fault.toFailure { session with line }

/-- Ask what an insertion asks before it stores the cell, and fail as the line did. -/
def refuse (fault : Line.Fault) (line : Line) : Action (Session τ) α := do
  let _ ← onTerminal Terminal.cursor
  let _ ← onTerminal Terminal.columns
  stopWith fault line

variable {fault : Line.Fault} {line : Line}

theorem refuse_bind {β : Type} (rest : α → Action (Session τ) β) :
    refuse fault line >>= rest = refuse fault line := by
  rw [refuse, refuse, bind_assoc]
  refine bind_congr fun _ => ?_
  rw [bind_assoc]
  rfl

omit [Terminal τ] in
theorem store_of_full (hgrow : Line.grow session.line = .error fault line)
    (hinside : session.position ≤ session.line.size) (cell : Cell) :
    store cell session = stopWith fault line session := by
  have happend : Line.append cell session.line = .error fault line := bind_of_error hgrow
  have hinsert : Line.insert cell session.position session.line = .error fault line := by
    rw [Line.insert, get_bind, if_neg (by omega)]
    exact bind_of_error hgrow
  rw [store, get_bind]
  split
  · rw [onLine, happend, stopWith]
  · rw [onLine, hinsert, stopWith]

theorem insert_of_full (hgrow : Line.grow session.line = .error fault line)
    (hinside : session.position ≤ session.line.size) (cell : Cell) :
    insert width cell session = refuse fault line session := by
  have hcalls := callsHave_reporting (τ := τ)
  have hframe {s : Session τ} (hs : s.line = session.line ∧ s.position = session.position) {β : Type}
      {step : Action (Session τ) β} (hstep : Has (framed (reporting τ)) step) :
      Agree step step s
        (fun _ t => t.line = session.line ∧ t.position = session.position) fun _ _ => True := by
    refine ((hstep s).mono ?_ fun _ _ _ => trivial).agree
    rintro _ t ⟨-, ht⟩
    rw [ht]
    exact hs
  suffices h : Agree (insert width cell) (refuse fault line) session (fun _ _ => False)
      fun _ _ => True from h.1
  refine (hframe ⟨rfl, rfl⟩ (framed_onTerminal hcalls.cursor)).bind fun _ s hs => ?_
  refine (hframe hs (framed_onTerminal hcalls.columns)).bind fun _ s hs => ?_
  obtain ⟨hline, hposition⟩ := hs
  rw [← hline] at hgrow hinside
  rw [← hposition] at hinside
  exact ⟨bind_of_error (store_of_full hgrow hinside cell), ends_of_error rfl trivial⟩

/-- **Where the line cannot grow, an insertable key asks where the cursor is and how wide the terminal
is, and nothing else.** -/
theorem refuses_growth (hphase : session.phase = .reading) (hcell : cell.isInsertable = true)
    (hgrow : Line.grow session.line = .error fault line)
    (hinside : session.position ≤ session.line.size) :
    processKey width (.printable cell) session = refuse fault line session := by
  have hobey : obey width (.printable cell) session = insert width cell session := by
    rw [obey, get_bind]
    dsimp only
    rw [if_pos hcell]
  rw [processKey, get_bind, hphase]
  dsimp only
  rw [bind_of_eq (hobey.trans (insert_of_full hgrow hinside cell)), refuse_bind]

/-- After Enter a key does nothing at all. -/
theorem processKey_terminating (hphase : session.phase = .terminating) (key : Key) :
    processKey width key session = .ok .terminating session := by
  rw [processKey, get_bind, hphase]
  rfl

/-! ## All sessions -/

/-- The sessions that a terminal can come to: keys are taken one after another, also after failures. -/
inductive Reached (width : Char → Nat) (settings : Settings) : Session τ → Prop where
  | create {terminal : τ} {memory after : Memory} {session : Session τ}
    (h : create terminal settings memory = .ok session after) : Reached width settings session
  | key {session : Session τ} (h : Reached width settings session) (key : Key) :
    Reached width settings (state (processKey width key session))

variable {settings : Settings}

omit [Terminal τ] in
/-- A session that was made edits an empty line. -/
theorem edits_of_create {terminal : τ} {memory after : Memory}
    (h : create terminal settings memory = .ok session after) :
    session.Edits (supplyOf settings memory) Editor.blank ∧ session.terminal = terminal := by
  unfold create at h
  split at h
  · next hline =>
    cases h
    exact ⟨⟨Line.settled_create hline, rfl, rfl⟩, rfl⟩
  · cases h

/-- Whatever becomes of a key, there is an editor behind it, and a cell that it holds was there before
or is the one of the key. -/
theorem Edits.taken (width : Char → Nat) (h : session.Edits supply editor) (key : Key) :
    ∃ next, (state (processKey width key session)).Edits supply next ∧
      ∀ cell ∈ next.cells, cell ∈ editor.cells ∨ key = .printable cell ∧ cell.isInsertable := by
  have hends := (processKey_agrees width (.erasesOutside 0 0) h key).2
  cases hrun : processKey width key session with
  | ok phase next => exact ⟨editor.press key, (hends.of_ok hrun).1, fun _ => Editor.mem_press⟩
  | error failure next =>
    obtain ⟨middle, hbetween, hmiddle, -⟩ := hends.of_error hrun
    refine ⟨middle, hmiddle, fun cell hcell => ?_⟩
    rcases hbetween.cells with hold | hnew
    · exact .inl (by rwa [hold] at hcell)
    · exact Editor.mem_press (by rwa [hnew] at hcell)

/-- **Every session is an editor of insertable cells.** -/
theorem reached_sound (h : Reached width settings session) :
    ∃ supply editor, session.Edits supply editor ∧ ∀ cell ∈ editor.cells, cell.isInsertable = true := by
  induction h with
  | create h => exact ⟨_, _, (edits_of_create h).1, fun _ hcell => nomatch hcell⟩
  | @key session h key ih =>
    obtain ⟨supply, editor, hedits, hcells⟩ := ih
    obtain ⟨next, hnext, hkept⟩ := hedits.taken width key
    exact ⟨supply, next, hnext, fun cell hcell => (hkept cell hcell).elim (hcells cell) And.right⟩

/-- **A session is safe on every terminal, whatever fails.**  In every session that can be reached the
caret stands in the line, the line in its slots, and every cell holds a character that is no control
character.  Whatever key comes next, no index that it uses lies outside the line.  If the key succeeds,
the session is what the editor is behind the key, and while keys are taken an insertable one stands in
the line.  If it fails, then because a call to the terminal failed or because the line could not grow,
and line and caret are each those in front of the key or those behind it.  Where the line cannot grow,
they are those in front of it, and nothing is drawn. -/
theorem reached_safe (h : Reached width settings session) (key : Key) :
    session.position ≤ session.line.size ∧
    session.line.size ≤ session.line.capacity ∧
    (∀ cell ∈ session.line.cells, ∃ c, cell.char? = some c ∧ Text.isControl c = false) ∧
    (∀ trap, Slotwise.processKey trap width key session = processKey width key session) ∧
    (∃ editor : Editor, editor.cells = session.line.cells ∧ editor.cursor = session.position ∧
      session.phase = (if editor.ended then .terminating else .reading) ∧
      match processKey width key session with
      | .ok phase next =>
        next.line.cells = (editor.press key).cells ∧ next.position = (editor.press key).cursor ∧
          next.phase = (if (editor.press key).ended then .terminating else .reading) ∧
          phase = next.phase
      | .error failure next =>
        (next.line.cells = session.line.cells ∨ next.line.cells = (editor.press key).cells) ∧
          (next.position = session.position ∨ next.position = (editor.press key).cursor) ∧
          next.phase = session.phase ∧
          (Terminal.Reports τ failure ∨
            failure.category = .allocation ∧ ∃ fault : Line.Fault, fault.Exhausts ∧ failure = fault.toFailure)) ∧
    (session.phase = .terminating → processKey width key session = .ok .terminating session) ∧
    ∀ cell, key = .printable cell → cell.isInsertable = true → session.phase = .reading →
      (∀ phase next, processKey width key session = .ok phase next →
        next.line.cells = session.line.cells.take session.position ++
            cell :: session.line.cells.drop session.position ∧
          next.position = session.position + 1) ∧
      ∀ fault line, Line.grow session.line = .error fault line →
        line = { session.line with memory := line.memory } ∧
          processKey width key session = refuse fault line session := by
  obtain ⟨supply, editor, hedits, hcells⟩ := reached_sound h
  have hinside : session.position ≤ session.line.size := by
    rw [hedits.position, hedits.line.size_eq]
    exact editor.inside
  have hkey (trap : Line.Fault) := processKey_agrees width trap hedits key
  refine ⟨hinside, hedits.line.size_le_capacity, ?_, fun trap => (hkey trap).1,
    ⟨editor, hedits.line.cells_eq.symm, hedits.position.symm, hedits.phase, ?_⟩,
    fun hphase => processKey_terminating hphase key, ?_⟩
  · intro cell hcell
    rw [hedits.line.cells_eq] at hcell
    have hinsertable := hcells cell hcell
    unfold Cell.isInsertable at hinsertable
    split at hinsertable
    · next c hc => exact ⟨c, hc, by simpa using hinsertable⟩
    · exact absurd hinsertable Bool.false_ne_true
  · have hends := (hkey (.erasesOutside 0 0)).2
    cases hrun : processKey width key session with
    | ok phase next =>
      obtain ⟨hnext, hphase⟩ := hends.of_ok hrun
      exact ⟨hnext.line.cells_eq, hnext.position, hnext.phase, hphase⟩
    | error failure next =>
      obtain ⟨middle, hbetween, hmiddle, hblamed⟩ := hends.of_error hrun
      dsimp only
      rw [hmiddle.line.cells_eq, hedits.line.cells_eq, hmiddle.position, hedits.position,
        hmiddle.phase, hedits.phase, hbetween.ended]
      refine ⟨hbetween.cells, hbetween.cursor, rfl, ?_⟩
      cases hblamed with
      | terminal hreports => exact .inl hreports
      | line hfault => exact .inr ⟨hfault.category, _, hfault, rfl⟩
  · rintro cell rfl hcell hphase
    refine ⟨fun phase next hrun => ?_, fun fault line hgrow => ?_⟩
    · obtain ⟨hnext, -⟩ := (hkey (.erasesOutside 0 0)).2.of_ok hrun
      have hopen : ¬ editor.ended = true := by
        intro hended
        have := hedits.phase
        rw [if_pos hended, hphase] at this
        cases this
      have hpress : editor.press (.printable cell) = editor.insert cell := by
        unfold Editor.press
        rw [if_neg hopen]
        dsimp only
        rw [if_pos hcell]
      rw [hpress] at hnext
      rw [hnext.line.cells_eq, hnext.position, hedits.line.cells_eq, hedits.position]
      exact ⟨rfl, rfl⟩
    · exact ⟨(hedits.line.grow.of_error hgrow).2.2, refuses_growth hphase hcell hgrow hinside⟩

/-- A console whose second write fails: the cell is stored and not drawn, and the caret has not moved. -/
theorem reached_safe_of_closed_pipe :
    ∃ session next : Session (Vt100 Recorder), ∃ failure,
      Reached (fun _ => 1) {} session ∧
      processKey (fun _ => 1) (Key.ofChar 'a') session = .error failure next ∧
      Slotwise.processKey (.erasesOutside 0 0) (fun _ => 1) (Key.ofChar 'a') session =
        .error failure next ∧
      next.line.cells = [Cell.ofChar 'a'] ∧ next.position = 0 ∧
      Terminal.Reports (Vt100 Recorder) failure := by
  let console : Recorder := {
    size := ⟨80, 24⟩
    fails := fun call count => call == .write && count == 2 }
  obtain ⟨session, after, failure, next, hcreate, hrun, hcells, hposition, hfailure⟩ :
      ∃ session after failure next,
        create { console : Vt100 Recorder } {} Memory.machine = .ok session after ∧
        processKey (fun _ => 1) (Key.ofChar 'a') session = .error failure next ∧
        next.line.cells = [Cell.ofChar 'a'] ∧ next.position = 0 ∧ failure.category = .io :=
    ⟨_, _, _, _, rfl, rfl, rfl, rfl, rfl⟩
  have hreached : Reached (fun _ => 1) {} session := .create hcreate
  obtain ⟨-, -, -, hslots, ⟨_, -, -, -, hends⟩, -⟩ := reached_safe hreached (Key.ofChar 'a')
  rw [hrun] at hends
  obtain ⟨-, -, -, hreports | ⟨hcategory, -⟩⟩ := hends
  · exact ⟨session, next, failure, hreached, hrun, (hslots _).trans hrun, hcells, hposition, hreports⟩
  · rw [hfailure] at hcategory
    cases hcategory

/-- Behind Enter an insertable key succeeds and is dropped. -/
theorem drops_key_behind_enter :
    ∃ session next : Session Screen, Reached (fun _ => 1) {} session ∧
      (Cell.ofChar 'a').isInsertable = true ∧
      processKey (fun _ => 1) (Key.ofChar 'a') session = .ok .terminating next ∧
      next.line.cells = [] := by
  have hcreate : create { size := ⟨80, 24⟩ : Screen } {} Memory.machine = .ok _ _ := rfl
  have hreached : Reached (fun _ => 1) {} _ := (Reached.create hcreate).key (.control .enter)
  exact ⟨_, _, hreached, by decide, rfl, rfl⟩

end Session

end LineEditor
