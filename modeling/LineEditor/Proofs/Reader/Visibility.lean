import LineEditor.Proofs.Reader.ConsoleMode
import LineEditor.Proofs.Session.Safety

/-!
# The visibility of the cursor

While the cells behind an edit are drawn again, the cursor is hidden.  It appears again at the end of
every edit that succeeds.  A call that fails while it is hidden cuts the edit short, and then nothing
makes it appear again.

* `Console.visibility` — whether the cursor was last made to appear or to disappear.
* `Console.CutShort` — a failed call has cut an edit short.
* `Vt100.Lit`, `Vt100.Dim` — the cursor is not hidden, and it is hidden while an edit is drawn.
* `Session.processKey_shows` — **the step**: a key that succeeds leaves the cursor as it was or shows it.
* `Reader.readLineNoting_shows` — **the run**: so does a line.
* `Reader.hides_only_when_cut_short` — all ways in which the cursor can be left hidden.
* `Reader.stays_hidden_behind_lost_place` — one of them.
-/

set_option autoImplicit false

open LineEditor.Action

namespace LineEditor

/-! ## Visibility -/

namespace Console

/-- What is known of the cursor after an event. -/
def seen (visible : Option Bool) : Event → Option Bool
  | .call (.write text) false =>
    if text = Sequence.showCursor then some true
    else if text = Sequence.hideCursor then some false
    else visible
  | _ => visible

/-- Was the cursor last made to appear, or to disappear?  Neither, if it was left alone. -/
def visibility (events : List Event) : Option Bool := events.foldl seen none

/-- A text that leaves the visibility of the cursor alone. -/
def Plain (text : String) : Prop := text ≠ Sequence.showCursor ∧ text ≠ Sequence.hideCursor

/-- A call that succeeds and leaves the mode of the console and the visibility of the cursor alone. -/
inductive Event.Paints : Event → Prop where
  | write {text : String} (h : Plain text) : Paints (.call (.write text) false)
  | flush : Paints (.call .flush false)
  | size : Paints (.call .size false)
  | cursor : Paints (.call .cursor false)
  | moveTo (position : Position) : Paints (.call (.moveTo position) false)

/-- A call by which raw mode is left. -/
inductive Event.Leaves : Event → Prop where
  | flush (failed : Bool) : Leaves (.call .flush failed)
  | disableRawMode (failed : Bool) : Leaves (.call .disableRawMode failed)

/-- The cursor was hidden, the line was drawn until a call failed, and all that came behind is that raw
mode was left. -/
def CutShort (events : List Event) : Prop :=
  ∃ front drawing call back,
    events = front ++ .call (.write Sequence.hideCursor) false :: drawing ++ .call call true :: back ∧
      (∀ event ∈ drawing, event.Paints) ∧ call.isSwitch = false ∧ ∀ event ∈ back, event.Leaves

/-- The second character tells whether a text may be one of the sequences. -/
theorem plain_of_second {text : String} (h : text.toList[1]? ≠ some '[') : Plain text := by
  constructor
  · rintro rfl
    exact h (by decide)
  · rintro rfl
    exact h (by decide)

theorem plain_text (cell : Cell) : Plain cell.text := by
  refine plain_of_second ?_
  unfold Cell.text
  split <;> simp

theorem plain_wrapLeft (columns : Nat) : Plain (Sequence.wrapLeft columns) :=
  plain_of_second (by simp [Sequence.wrapLeft, Sequence.rowUp, Sequence.escape])

/-- An event that tells nothing of the visibility of the cursor. -/
def Event.Unseen (event : Event) : Prop := ∀ visible, seen visible event = visible

theorem Event.Paints.unseen {event : Event} (h : event.Paints) : event.Unseen := by
  intro visible
  cases h with
  | write h => rw [seen, if_neg h.1, if_neg h.2]
  | _ => rfl

theorem Event.Leaves.unseen {event : Event} (h : event.Leaves) : event.Unseen := by
  intro visible
  cases h <;> rfl

theorem unseen_failed (call : Call) : (Event.call call true).Unseen := by
  intro visible
  cases call <;> rfl

theorem visibility_append {events entries : List Event} (h : ∀ entry ∈ entries, entry.Unseen) :
    visibility (events ++ entries) = visibility events := foldl_append h

@[simp]
theorem visibility_snoc (events : List Event) (event : Event) :
    visibility (events ++ [event]) = seen (visibility events) event := by
  rw [visibility, List.foldl_append, ← visibility]
  rfl

theorem visibility_of_grows {δ : Type} {before after : Logged Event δ}
    (h : Logged.Grows Event.Unseen before after) : visibility after.log = visibility before.log := by
  obtain ⟨entries, hlog, hentries⟩ := h
  rw [hlog, visibility_append hentries]

/-- An edit that was cut short leaves the cursor hidden. -/
theorem CutShort.hidden {events : List Event} (h : CutShort events) : visibility events = some false := by
  obtain ⟨front, drawing, call, back, rfl, hdrawing, -, hback⟩ := h
  rw [List.append_cons _ _ back, visibility_append fun event hevent => (hback event hevent).unseen,
    visibility_snoc, unseen_failed, List.append_cons _ _ drawing,
    visibility_append fun event hevent => (hdrawing event hevent).unseen, visibility_snoc]
  rfl

end Console

/-! ## Calls -/

namespace Vt100

open Console

variable {δ α : Type}

/-- The cursor is not hidden. -/
def Lit (terminal : Vt100 (Logged Event δ)) : Prop := visibility terminal.console.log ≠ some false

/-- The cursor is hidden, and since then the line is drawn. -/
def Dim (terminal : Vt100 (Logged Event δ)) : Prop :=
  ∃ front drawing,
    terminal.console.log = front ++ .call (.write Sequence.hideCursor) false :: drawing ∧
      ∀ event ∈ drawing, event.Paints

/-- The cursor is not hidden, or an edit was cut short. -/
def Stopped (terminal : Vt100 (Logged Event δ)) : Prop :=
  terminal.Lit ∨ CutShort terminal.console.log

/-- Calls that leave the visibility of the cursor alone, up to one that fails. -/
def Breaks (before after : Vt100 (Logged Event δ)) : Prop :=
  ∃ entries call, after.console.log = before.console.log ++ entries ++ [.call call true] ∧
    (∀ entry ∈ entries, entry.Paints) ∧ call.isSwitch = false

/-- Calls that leave the visibility of the cursor alone, the last of which may fail. -/
def painting (δ : Type) : Change Failure (Vt100 (Logged Event δ)) where
  passes before after := Logged.Grows Event.Paints before.console after.console
  fails before _ after := Breaks before after
  refl before := Logged.Grows.refl before.console
  trans := Logged.Grows.trans
  fails_after := by
    rintro before middle after _ ⟨entries, hlog, hentries⟩ ⟨more, call, hlog', hmore, hcall⟩
    refine ⟨entries ++ more, call, ?_, fun entry hentry => ?_, hcall⟩
    · rw [hlog', hlog, List.append_assoc _ entries more]
    · exact (List.mem_append.mp hentry).elim (hentries entry) (hmore entry)

/-- A request that succeeds with such a call, and fails with any. -/
theorem has_painting_request {step : Action (Logged Event δ) α} {call : Call}
    (hcall : (Event.call call false).Paints) (hswitch : call.isSwitch = false)
    (h : ∀ console, Ends step console
      (fun _ next => next.log = console.log ++ [.call call false])
      fun _ next => next.log = console.log ++ [.call call true]) :
    Has (painting δ) (request step) := fun terminal =>
  (ends_request (h terminal.console)).mono (fun _ _ hlog => Logged.grows_of_log hlog hcall)
    fun _ _ hlog => ⟨[], call, by rw [hlog, List.append_nil], fun _ h => (nomatch h), hswitch⟩

variable [Console δ]

theorem requestsHave_painting : RequestsHave (painting δ) Console.Plain where
  write _ h := has_painting_request (.write h) rfl fun console =>
    ends_output "Write" (Logged.ends_record console)
  flush := has_painting_request .flush rfl fun console =>
    ends_output "Flush" (Logged.ends_record console)
  size := has_painting_request .size rfl Logged.ends_record
  place := has_painting_request .cursor rfl Logged.ends_record
  moveTo position := has_painting_request (.moveTo position) rfl Logged.ends_record

theorem drawsHave_painting : Session.DrawsHave (painting δ) :=
  requestsHave_painting.draws plain_text (plain_of_second (by decide)) plain_wrapLeft
    (plain_of_second (by decide)) (plain_of_second (by decide))

variable {terminal next : Vt100 (Logged Event δ)}

omit [Console δ]

/-- Drawing leaves a cursor alone that is not hidden. -/
theorem Lit.passes (h : terminal.Lit) (hnext : (painting δ).passes terminal next) : next.Lit := by
  obtain ⟨entries, hlog, hentries⟩ := hnext
  rwa [Lit, hlog, visibility_append fun entry hentry => (hentries entry hentry).unseen]

theorem Lit.fails (h : terminal.Lit) (hnext : Breaks terminal next) : next.Lit := by
  obtain ⟨entries, call, hlog, hentries, -⟩ := hnext
  rwa [Lit, hlog, visibility_snoc, unseen_failed,
    visibility_append fun entry hentry => (hentries entry hentry).unseen]

/-- Drawing with a hidden cursor goes on. -/
theorem Dim.passes (h : terminal.Dim) (hnext : (painting δ).passes terminal next) : next.Dim := by
  obtain ⟨front, drawing, hterminal, hdrawing⟩ := h
  obtain ⟨entries, hlog, hentries⟩ := hnext
  refine ⟨front, drawing ++ entries, ?_, fun event hevent => ?_⟩
  · rw [hlog, hterminal, List.append_assoc, List.cons_append]
  · exact (List.mem_append.mp hevent).elim (hdrawing event) (hentries event)

/-- A call that fails cuts it short. -/
theorem Dim.fails (h : terminal.Dim) (hnext : Breaks terminal next) :
    CutShort next.console.log := by
  obtain ⟨front, drawing, hterminal, hdrawing⟩ := h
  obtain ⟨entries, call, hlog, hentries, hcall⟩ := hnext
  refine ⟨front, drawing ++ entries, call, [], ?_, fun event hevent => ?_, hcall, fun _ h => nomatch h⟩
  · rw [hlog, hterminal, List.append_assoc front, List.cons_append]
  · exact (List.mem_append.mp hevent).elim (hdrawing event) (hentries event)

variable [Console δ]

/-- The cursor is hidden, or left as it is. -/
theorem Lit.hides (h : terminal.Lit) :
    Ends (Terminal.hideCursor : Action (Vt100 (Logged Event δ)) Unit) terminal (fun _ => Dim)
      fun _ => Stopped := by
  refine (ends_emit terminal (by decide)).mono (fun _ next hlog => ?_) fun _ next hlog => ?_
  · exact ⟨terminal.console.log, [], hlog, fun _ h => nomatch h⟩
  · refine .inl ?_
    rwa [Lit, hlog, visibility_snoc, unseen_failed]

/-- The cursor is shown again, or the edit is cut short right there. -/
theorem Dim.shows (h : terminal.Dim) :
    Ends (Terminal.showCursor : Action (Vt100 (Logged Event δ)) Unit) terminal (fun _ => Lit)
      fun _ => Stopped := by
  have hwrite := ends_emit terminal (by decide : Sequence.showCursor.isEmpty = false)
  refine Ends.bind (hwrite.mono (fun _ next hlog => ?_) fun _ next hlog => ?_)
    fun _ next (hnext : next.Lit) => ?_
  · have hseen : visibility next.console.log = some true := by
      rw [hlog, visibility_snoc]
      rfl
    rw [Lit, hseen]
    decide
  · obtain ⟨front, drawing, hterminal, hdrawing⟩ := h
    refine .inr ⟨front, drawing, .write Sequence.showCursor, [], ?_, hdrawing, rfl, fun _ h => nomatch h⟩
    rw [hlog, hterminal]
  · exact (requestsHave_painting.flush next).mono (fun _ _ => hnext.passes) fun _ _ h => .inl (hnext.fails h)

omit [Console δ] in
/-- Events that tell nothing of the cursor leave it as it is. -/
theorem Lit.of_grows (h : terminal.Lit)
    (hgrows : Logged.Grows Event.Unseen terminal.console next.console) : next.Lit := by
  rwa [Lit, visibility_of_grows hgrows]

theorem Lit.entersRawMode (h : terminal.Lit) :
    Ends (Terminal.enterRawMode : Action (Vt100 (Logged Event δ)) Unit) terminal (fun _ => Lit)
      fun _ => Lit := by
  have hmode : Has (grows Event.Unseen) (Vt100.enterRawMode : Action (Vt100 (Logged Event δ)) Unit) :=
    (has_request (has_output _ (Logged.has_grows_record fun _ _ => rfl))).bind
      fun _ => has_request (Logged.has_grows_record fun _ _ => rfl)
  exact (hmode terminal).mono (fun _ _ => h.of_grows) fun _ _ => h.of_grows

theorem has_leaves :
    Has (grows Event.Leaves) (Terminal.leaveRawMode : Action (Vt100 (Logged Event δ)) Unit) :=
  (has_request (has_output _ (Logged.has_grows_record fun _ => .flush _))).bind
    fun _ => has_request (Logged.has_grows_record fun _ => .disableRawMode _)

theorem Lit.leavesRawMode (h : terminal.Lit) :
    Ends (Terminal.leaveRawMode : Action (Vt100 (Logged Event δ)) Unit) terminal (fun _ => Lit)
      fun _ => Lit :=
  (has_leaves terminal).mono (fun _ _ hnext => h.of_grows (hnext.mono fun _ => Event.Leaves.unseen))
    fun _ _ hnext => h.of_grows (hnext.mono fun _ => Event.Leaves.unseen)

/-- Leaving raw mode does not show a cursor that was left hidden. -/
theorem Stopped.leavesRawMode (h : terminal.Stopped) :
    Ends (Terminal.leaveRawMode : Action (Vt100 (Logged Event δ)) Unit) terminal (fun _ => Stopped)
      fun _ => Stopped := by
  rcases h with hlit | ⟨front, drawing, call, back, hcut, hdrawing, hcall, hback⟩
  · exact hlit.leavesRawMode.mono (fun _ _ => .inl) fun _ _ => .inl
  have hlater {next : Vt100 (Logged Event δ)}
      (hnext : Logged.Grows Event.Leaves terminal.console next.console) : next.Stopped := by
    obtain ⟨entries, hlog, hentries⟩ := hnext
    refine .inr ⟨front, drawing, call, back ++ entries, ?_, hdrawing, hcall, fun event hevent => ?_⟩
    · rw [hlog, hcut, List.append_assoc, List.cons_append]
    · exact (List.mem_append.mp hevent).elim (hback event) (hentries event)
  exact (has_leaves terminal).mono (fun _ _ => hlater) fun _ _ => hlater

/-- Printing a cell hides the cursor first. -/
theorem Lit.prints (h : terminal.Lit) (width : Char → Nat) (cell : Cell) (start : Position)
    (columns : Nat) :
    Ends (Session.print width cell start columns) terminal (fun _ => Dim) fun _ => Stopped := by
  have hcalls := drawsHave_painting (δ := δ)
  have hdraws {next : Vt100 (Logged Event δ)} {step : Action (Vt100 (Logged Event δ)) Unit}
      (hnext : next.Dim) (hstep : Has (painting δ) step) :
      Ends step next (fun _ => Dim) fun _ => Stopped :=
    (hstep next).mono (fun _ _ => hnext.passes) fun _ _ h => .inr (hnext.fails h)
  refine h.hides.bind fun _ next hnext => (hdraws hnext (hcalls.put cell)).bind fun _ next hnext => ?_
  split
  · exact (hdraws hnext (hcalls.put Cell.space)).bind fun _ next hnext => hdraws hnext hcalls.moveLeft
  · exact ends_pure hnext

end Vt100

/-! ## Keys -/

namespace Session

open Console

variable {δ κ α : Type} {width : Char → Nat} {session : Session (Vt100 (Logged Event δ))}

/-- The step does not leave the cursor hidden, unless an edit is cut short. -/
def Shows (step : Action (Session (Vt100 (Logged Event δ))) α)
    (session : Session (Vt100 (Logged Event δ))) : Prop :=
  Ends step session (fun _ next => next.terminal.Lit) fun _ next => next.terminal.Stopped

/-- The cursor is hidden while an edit is drawn; the line and the caret are these. -/
structure Hides (line : Line) (position : Nat) (session : Session (Vt100 (Logged Event δ))) : Prop where
  dim : session.terminal.Dim
  line : session.line = line
  position : session.position = position

theorem draws_lit {step : Action (Session (Vt100 (Logged Event δ))) α}
    (hstep : Has ((Vt100.painting δ).along Session.terminal) step) (h : session.terminal.Lit) :
    Shows step session := (hstep session).mono (fun _ _ => h.passes) fun _ _ hfails => .inl (h.fails hfails)

theorem draws_dim {step : Action (Session (Vt100 (Logged Event δ))) α}
    (hstep : Has ((Vt100.painting δ).along Session.terminal) step) (h : session.terminal.Dim) :
    Ends step session (fun _ next => next.terminal.Dim) fun _ next => next.terminal.Stopped :=
  (hstep session).mono (fun _ _ => h.passes) fun _ _ hfails => .inr (h.fails hfails)

theorem Hides.draws {line : Line} {position : Nat} {step : Action (Session (Vt100 (Logged Event δ))) α}
    (h : Hides line position session) (hstep : Has (framed (Vt100.painting δ)) step) :
    Ends step session (fun _ => Hides line position) fun _ next => next.terminal.Stopped := by
  refine (hstep session).mono ?_ fun _ _ hfails => .inr (h.dim.fails hfails.1)
  rintro _ next ⟨hpasses, hnext⟩
  refine ⟨h.dim.passes hpasses, ?_, ?_⟩
  · rw [hnext, h.line]
  · rw [hnext, h.position]

theorem store_keeps (cell : Cell) :
    Ends (store cell) session (fun _ next => next.terminal = session.terminal)
      fun _ next => next.terminal = session.terminal := by
  have hline (step : EStateM Line.Fault Line Unit) :
      Ends (onLine step) session (fun _ next => next.terminal = session.terminal)
        fun _ next => next.terminal = session.terminal := by
    unfold Ends onLine
    cases step session.line <;> rfl
  refine ends_get_bind ?_
  split
  · exact hline _
  · exact hline _

variable [Console δ]

theorem insert_shows (cell : Cell) (h : session.terminal.Lit) : Shows (insert width cell) session := by
  have hcalls := Vt100.drawsHave_painting (δ := δ)
  refine (draws_lit (along_onTerminal hcalls.cursor) h).bind fun start s h => ?_
  refine (draws_lit (along_onTerminal hcalls.columns) h).bind fun columns s h => ?_
  have hstore : Shows (store cell) s := (store_keeps cell).mono (fun _ next hnext => hnext ▸ h)
    fun _ next hnext => .inl (hnext ▸ h)
  refine hstore.bind fun _ s h => ?_
  have hprint := ends_onTerminal (h.prints width cell start columns)
  refine (hprint.mono (fun _ _ => And.left) fun _ _ => And.left).bind fun _ s h => ?_
  refine (draws_dim (along_onTerminal hcalls.cursor) h).bind fun caret s h => ends_get_bind ?_
  refine (draws_dim (along_of_framed (hcalls.putAll _)) h).bind fun _ s h => ?_
  refine (draws_dim (along_onTerminal (hcalls.setCursor caret)) h).bind fun _ s h => ?_
  have hshow := ends_onTerminal h.shows
  exact (hshow.mono (fun _ _ => And.left) fun _ _ => And.left).bind fun _ s h => ends_of_ok rfl h

theorem backspace_shows (h : session.terminal.Lit) (hpos : 0 < session.position)
    (hinside : session.position ≤ session.line.size) : Shows (backspace width) session := by
  have hcalls := Vt100.drawsHave_painting (δ := δ)
  have hhide := ends_onTerminal h.hides
  refine (hhide.mono ?_ fun _ _ => And.left).bind
    fun _ s (h : s.Hides session.line session.position) => ends_get_bind ?_
  · rintro _ next ⟨hdim, hnext⟩
    exact ⟨hdim, by rw [hnext], by rw [hnext]⟩
  refine (h.draws ((framed_onTerminal hcalls.moveLeft).times _)).bind fun _ s h => ?_
  have hback : Hides session.line (session.position - 1) { s with position := s.position - 1 } :=
    ⟨h.dim, h.line, congrArg (· - 1) h.position⟩
  refine Ends.bind (ends_of_ok rfl hback)
    fun _ s (h : s.Hides session.line (session.position - 1)) => ?_
  refine (h.draws (framed_onTerminal hcalls.cursor)).bind fun caret s h => ends_get_bind ?_
  have hplace : s.position < s.line.size := by
    rw [h.line, h.position]
    omega
  refine Ends.bind (ends_of_ok (onLine_ok (Line.erase_eq hplace)) h.dim)
    fun _ s (h : s.terminal.Dim) => ends_get_bind ?_
  refine (draws_dim (along_of_framed (hcalls.putAll _)) h).bind fun _ s h => ?_
  refine (draws_dim ((along_onTerminal (hcalls.put Cell.space)).times _) h).bind fun _ s h => ?_
  refine (draws_dim (along_onTerminal (hcalls.setCursor caret)) h).bind fun _ s h => ?_
  exact (ends_onTerminal h.shows).mono (fun _ _ => And.left) fun _ _ => And.left

theorem obey_shows (key : Key) (h : session.terminal.Lit) (hinside : session.position ≤ session.line.size) :
    Shows (obey width key) session := by
  have hcalls := Vt100.drawsHave_painting (δ := δ)
  have hnothing : Shows (pure () : Action (Session (Vt100 (Logged Event δ))) Unit) session := ends_pure h
  refine ends_get_bind ?_
  cases key with
  | printable cell =>
    dsimp only
    split
    · exact insert_shows cell h
    · exact hnothing
  | control control =>
    cases control with
    | enter => exact ends_of_ok rfl h
    | backspace =>
      dsimp only
      split
      · next hpos => exact backspace_shows h hpos hinside
      · exact hnothing
    | right =>
      dsimp only
      split
      · exact draws_lit (hcalls.right width) h
      · exact hnothing
    | left =>
      dsimp only
      split
      · exact draws_lit (hcalls.left width) h
      · exact hnothing
    | _ => exact hnothing

/-- **A key that succeeds does not leave the cursor hidden**, and one that fails does so only where an
edit is cut short. -/
theorem processKey_shows (key : Key) (h : session.terminal.Lit)
    (hinside : session.position ≤ session.line.size) : Shows (processKey width key) session := by
  refine ends_get_bind ?_
  split
  · exact ends_pure h
  · exact (obey_shows key h hinside).bind fun _ s h => ends_get_bind (ends_pure h)

variable [KeySource κ] {supply : Line.Supply}

/-- A session that edits a line, with a cursor that is not hidden. -/
def EditsLit (supply : Line.Supply) (session : Session (Vt100 (Logged Event δ))) : Prop :=
  (∃ editor, session.Edits supply editor) ∧ session.terminal.Lit

omit [Console δ] in
theorem EditsLit.noted (h : session.EditsLit supply) (answer : Except Failure Key) :
    (session.noted (Vt100.noteKey answer)).EditsLit supply := by
  obtain ⟨⟨editor, hedits⟩, hlit⟩ := h
  refine ⟨⟨editor, hedits.line, hedits.position, hedits.phase⟩, ?_⟩
  change visibility (session.terminal.console.log ++ [.key]) ≠ some false
  rwa [visibility_snoc]

theorem EditsLit.processKey (h : session.EditsLit supply) (key : Key) :
    Ends (Session.processKey width key) session (fun _ next => next.EditsLit supply)
      fun _ next => next.terminal.Stopped := by
  obtain ⟨⟨editor, hedits⟩, hlit⟩ := h
  have hinside : session.position ≤ session.line.size := by
    rw [hedits.position, hedits.line.size_eq]
    exact editor.inside
  have hkey := (processKey_agrees width (.erasesOutside 0 0) hedits key).2
  refine (hkey.and (processKey_shows key hlit hinside)).mono ?_ fun _ _ => And.right
  rintro _ next ⟨⟨hnext, -⟩, hshown⟩
  exact ⟨⟨_, hnext⟩, hshown⟩

/-- All keys of a line do not leave the cursor hidden, unless an edit is cut short. -/
theorem readKeys_shows (h : session.EditsLit supply) (keys : κ) :
    LoopEnds (fun last => last.terminal.Lit) (fun _ last => last.terminal.Stopped)
      (readKeysNoting Vt100.noteKey width session keys) := by
  have hloop : LoopEnds (EditsLit supply) (fun _ last => last.terminal.Stopped)
      (readKeysNoting Vt100.noteKey width session keys) :=
    readKeysNoting_ends width keys (fun _ _ h _ => h.noted _) (fun _ _ h _ => .inl (h.noted _).2)
      (fun _ key h => (h.noted _).processKey key) h
  exact hloop.mono (fun _ hlast => hlast.2) fun _ _ hlast => hlast

end Session

/-! ## A line -/

namespace Reader

open Console

variable {δ κ : Type} [Console δ] [KeySource κ]

/-- The editing of a line does not leave the cursor hidden, unless an edit is cut short. -/
theorem editNoting_shows {reader : Reader (Vt100 (Logged Event δ)) κ} (h : reader.terminal.Lit) :
    Ends (editWith (Session.readKeysNoting Vt100.noteKey)) reader
      (fun _ last => last.terminal.Lit) fun _ last => last.terminal.Stopped := by
  have hcalls := Vt100.drawsHave_painting (δ := δ)
  refine editWith_ends (fun _ => .inl h) fun session memory hcreate => ?_
  obtain ⟨hedits, hterminal⟩ := Session.edits_of_create hcreate
  refine Session.runWith_ends (Session.readKeys_shows ⟨⟨_, hedits⟩, hterminal ▸ h⟩ reader.keys) ?_
  exact fun last hlast => Session.draws_lit (hcalls.finish reader.width reader.settings.terminator) hlast

/-- Neither does the reading of a line. -/
theorem readLineNoting_shows {reader : Reader (Vt100 (Logged Event δ)) κ} (h : reader.terminal.Lit) :
    Ends (readLineNoting Vt100.noteKey) reader (fun _ next => next.terminal.Lit)
      fun _ next => next.terminal.Stopped := by
  have hclose (raw : Bool) {next : Reader (Vt100 (Logged Event δ)) κ} (hnext : next.terminal.Lit) :
      Ends (closeWith (Session.readKeysNoting Vt100.noteKey) raw) next
        (fun _ last => last.terminal.Lit) fun _ last => last.terminal.Stopped := by
    refine closeWith_leaves_behind Vt100.Lit Vt100.Stopped (editNoting_shows hnext) ?_ ?_
    · exact fun last hlit => restore_ends
        (fun _ => hlit.leavesRawMode.mono (fun _ _ h => h) fun _ _ => .inl) fun _ => hlit
    · exact fun last hstopped => restore_ends (fun _ => hstopped.leavesRawMode) fun _ => hstopped
  exact readLineWith_ends Vt100.Lit Vt100.Lit Vt100.Lit Vt100.Stopped (fun _ => .inl) h h.entersRawMode
    (fun _ => hclose true) fun _ => hclose false

/-- **The cursor is left hidden just if an edit was cut short**, by a call that failed between the one
that hid the cursor and the one that was to show it again; and then the reading of the line fails. -/
theorem hides_only_when_cut_short (reader : Reader (Vt100 δ) κ) :
    mapState (mapTerminal Vt100.forget) reader.watched = readLine reader ∧
    (visibility reader.consoleLog = some false ↔ CutShort reader.consoleLog) ∧
    (CutShort reader.consoleLog → ∃ failure next, readLine reader = .error failure next) := by
  have hforget := forgets_watched reader
  have hends : Ends (readLineNoting Vt100.noteKey) (reader.mapTerminal Vt100.logged) _ _ :=
    readLineNoting_shows (by decide : visibility [] ≠ some false)
  refine ⟨hforget, ⟨fun hhidden => ?_, CutShort.hidden⟩, fun hcut => ?_⟩
  · cases hrun : reader.watched with
    | ok line next =>
      have hlit : next.terminal.Lit := hends.of_ok hrun
      rw [consoleLog, hrun] at hhidden
      exact absurd hhidden hlit
    | error failure next =>
      have hstopped : next.terminal.Stopped := hends.of_error hrun
      rw [consoleLog, hrun] at hhidden ⊢
      exact hstopped.resolve_left fun hlit => hlit hhidden
  · cases hrun : reader.watched with
    | ok line next =>
      have hlit : next.terminal.Lit := hends.of_ok hrun
      rw [consoleLog, hrun] at hcut
      exact absurd hcut.hidden hlit
    | error failure next =>
      rw [hrun] at hforget
      exact ⟨failure, _, hforget.symm⟩

/-- A console that loses the place of the cursor while a cell is drawn is left with a hidden cursor, though
no write, no flush and no switch of the mode fails. -/
theorem stays_hidden_behind_lost_place :
    ∃ reader : Reader (Vt100 Recorder) KeyScript,
      (∀ call count, reader.terminal.console.fails call count = true →
        call = .size ∨ call = .cursor ∨ call = .moveTo) ∧
      visibility reader.consoleLog = some false := by
  let console : Recorder := {
    size := ⟨80, 24⟩
    fails := fun call count => call == .cursor && count == 2 }
  refine ⟨{ terminal := { console }, keys := KeyScript.ofKeys [Key.ofChar 'a', .control .enter] }, ?_, ?_⟩
  · intro call count hfails
    have hcall := (Bool.and_eq_true_iff.mp hfails).1
    exact .inr (.inl (beq_iff_eq.mp hcall))
  · decide +kernel

end Reader

end LineEditor
