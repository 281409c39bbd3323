import LineEditor.Proofs.Reader.Noting
import LineEditor.Proofs.Terminal.Consoles
import LineEditor.Terminal.Recorder

/-!
# The mode that a line leaves a console in

A VT100 terminal flushes its output before it switches the mode of its console.  So raw mode is undone
behind every line, unless just this flush fails or the console refuses.

* `Console.rawAfter` — the mode after the events of a log.
* `Reader.watched` — the reading of one line with a log at the console.
* `Reader.undoes_raw_mode` — all ways in which raw mode can be left behind.
* `Reader.stays_raw_behind_closed_pipe` — one of them.
-/

set_option autoImplicit false

open LineEditor.Action

namespace LineEditor

/-! ## The mode of a console -/

namespace Console

/-- The mode after an event. -/
def switched (raw : Bool) : Event → Bool
  | .call .enableRawMode false => true
  | .call .disableRawMode false => false
  | _ => raw

/-- Is the console raw after these events, if it was not before? -/
def rawAfter (events : List Event) : Bool := events.foldl switched false

/-- An event that leaves the mode as it is. -/
def Event.Keeps (event : Event) : Prop := ∀ raw, switched raw event = raw

/-- The last call was to undo raw mode and failed, or was the flush in front of that and failed. -/
def Stuck (events : List Event) : Prop :=
  ∃ front, events = front ++ [.call .flush true] ∨ events = front ++ [.call .disableRawMode true]

theorem keeps_of_call {call : Call} (failed : Bool) (h : call.isSwitch = false) :
    (Event.call call failed).Keeps := by
  intro raw
  cases call with
  | enableRawMode => cases h
  | disableRawMode => cases h
  | _ => rfl

theorem rawAfter_append {events entries : List Event} (h : ∀ entry ∈ entries, entry.Keeps) :
    rawAfter (events ++ entries) = rawAfter events := foldl_append h

@[simp]
theorem rawAfter_snoc (events : List Event) (event : Event) :
    rawAfter (events ++ [event]) = switched (rawAfter events) event := by
  rw [rawAfter, List.foldl_append, ← rawAfter]
  rfl

theorem rawAfter_of_grows {δ : Type} {before after : Logged Event δ}
    (h : Logged.Grows Event.Keeps before after) : rawAfter after.log = rawAfter before.log := by
  obtain ⟨entries, hlog, hentries⟩ := h
  rw [hlog, rawAfter_append hentries]

end Console

/-! ## The terminal -/

namespace Vt100

open Console

variable {δ : Type} [Console δ]

/-- Raw mode that cannot be entered changes nothing. -/
theorem ends_enterRawMode (terminal : Vt100 (Logged Event δ)) :
    Ends enterRawMode terminal (fun _ _ => True)
      fun _ next => rawAfter next.console.log = rawAfter terminal.console.log := by
  have hflush := ends_flush terminal
  refine Ends.bind (hflush.mono (fun _ next hlog => ?_) fun _ next hlog => ?_)
    fun _ next (hnext : rawAfter next.console.log = rawAfter terminal.console.log) => ?_
  · simp [hlog, switched]
  · simp [hlog, switched]
  · refine (ends_request (Logged.ends_record next.console)).mono (fun _ _ _ => trivial) fun _ last hlog => ?_
    simp [hlog, switched, entry, hnext]

/-- Raw mode is undone, or the console is stuck in it. -/
theorem ends_leaveRawMode (terminal : Vt100 (Logged Event δ)) :
    Ends leaveRawMode terminal (fun _ next => rawAfter next.console.log = false)
      fun _ next => Stuck next.console.log := by
  refine Ends.bind ((ends_flush terminal).mono (fun _ _ _ => trivial) fun _ next hlog => ?_)
    fun _ next _ => ?_
  · exact ⟨_, .inl hlog⟩
  · refine (ends_request (Logged.ends_record next.console)).mono (fun _ last hlog => ?_) fun _ last hlog => ?_
    · simp [hlog, switched, entry]
    · exact ⟨_, .inr hlog⟩

omit [Console δ] in
theorem notesHave_keeps :
    Session.NotesHave (grows Event.Keeps : Change Failure (Vt100 (Logged Event δ))) noteKey where
  key _ _ := Logged.grows_of_log rfl fun _ => rfl
  ended _ _ _ := Logged.grows_of_log rfl fun _ => rfl
  failed _ _ _ := Logged.grows_of_log rfl fun _ => rfl

end Vt100

/-! ## A line -/

namespace Reader

open Console

variable {δ κ : Type} [Console δ] [KeySource κ]

/-- The reading of one line with a log at the console. -/
def watched (reader : Reader (Vt100 δ) κ) :
    EStateM.Result Failure (Reader (Vt100 (Logged Event δ)) κ) String :=
  readLineNoting Vt100.noteKey (reader.mapTerminal Vt100.logged)

/-- What the console is asked while one line is read. -/
def consoleLog (reader : Reader (Vt100 δ) κ) : List Event := (state reader.watched).terminal.console.log

theorem callsMirror_forget : CallsMirror (Vt100.forget : Vt100 (Logged Event δ) → Vt100 δ) where
  toCallsMirror := Vt100.callsMirror_forget
  enterRawMode terminal := (Vt100.mirrors_flush terminal).bind fun _ =>
    Vt100.mirrors_request Logged.mirrors_record
  leaveRawMode terminal := (Vt100.mirrors_flush terminal).bind fun _ =>
    Vt100.mirrors_request Logged.mirrors_record

theorem forgets_watched (reader : Reader (Vt100 δ) κ) :
    mapState (mapTerminal Vt100.forget) reader.watched = readLine reader :=
  forgets_readLineNoting callsMirror_forget Vt100.forget_noteKey (reader.mapTerminal Vt100.logged)

/-- A line that is edited leaves the mode alone; behind it raw mode is undone if it was entered. -/
theorem closeWith_undoes {raw : Bool} {reader : Reader (Vt100 (Logged Event δ)) κ}
    (h : raw = false → rawAfter reader.terminal.console.log = false) :
    Ends (closeWith (Session.readKeysNoting Vt100.noteKey) raw) reader
      (fun _ next => rawAfter next.terminal.console.log = false)
      fun _ next => rawAfter next.terminal.console.log = false ∨ Stuck next.terminal.console.log := by
  have hedit := editNoting_has (Vt100.callsHave_grows fun _ => keeps_of_call)
    (fun _ _ => Logged.Grows.refl _) Vt100.notesHave_keeps reader
  refine closeWith_ends
    (fun last : Vt100 (Logged Event δ) => Logged.Grows Event.Keeps reader.terminal.console last.console)
    (fun next => rawAfter next.console.log = false) (fun next => Stuck next.console.log) hedit
    fun last hlast => ?_
  cases raw with
  | false =>
    refine ends_pure ?_
    rw [rawAfter_of_grows hlast, h rfl]
  | true => exact ends_onTerminal (Vt100.ends_leaveRawMode last.terminal)

/-- A line undoes raw mode, or it fails and the console is stuck. -/
theorem readLineNoting_undoes (reader : Reader (Vt100 (Logged Event δ)) κ)
    (h : rawAfter reader.terminal.console.log = false) :
    Ends (readLineNoting Vt100.noteKey) reader
      (fun _ next => rawAfter next.terminal.console.log = false)
      fun _ next => rawAfter next.terminal.console.log = false ∨ Stuck next.terminal.console.log := by
  let undone (terminal : Vt100 (Logged Event δ)) : Prop := rawAfter terminal.console.log = false
  refine readLineWith_ends (fun _ => True) undone undone
    (fun terminal => undone terminal ∨ Stuck terminal.console.log) (fun _ => .inl) h ?_
    (fun next _ => closeWith_undoes nofun) fun next hnext => closeWith_undoes fun _ => hnext
  exact (Vt100.ends_enterRawMode reader.terminal).mono (fun _ _ _ => trivial)
    fun _ next hnext => hnext.trans h

/-- **Raw mode is undone behind every line, or the console is stuck in it** and the reading of the line
fails. -/
theorem undoes_raw_mode (reader : Reader (Vt100 δ) κ) :
    mapState (mapTerminal Vt100.forget) reader.watched = readLine reader ∧
    (rawAfter reader.consoleLog = true →
      Stuck reader.consoleLog ∧ ∃ failure next, readLine reader = .error failure next) := by
  have hforget := forgets_watched reader
  have hends : Ends (readLineNoting Vt100.noteKey) (reader.mapTerminal Vt100.logged) _ _ :=
    readLineNoting_undoes _ rfl
  refine ⟨hforget, fun hraw => ?_⟩
  cases hrun : reader.watched with
  | ok line next =>
    have hundone : rawAfter next.terminal.console.log = false := hends.of_ok hrun
    rw [consoleLog, hrun] at hraw
    exact absurd (hraw.symm.trans hundone) (by decide)
  | error failure next =>
    rw [consoleLog, hrun] at hraw ⊢
    rw [hrun] at hforget
    refine ⟨(hends.of_error hrun).resolve_left fun hundone => ?_, failure, _, hforget.symm⟩
    exact absurd (hraw.symm.trans hundone) (by decide)

/-- A console that is closed once raw mode is entered stays raw, though undoing it would never fail. -/
theorem stays_raw_behind_closed_pipe :
    ∃ reader : Reader (Vt100 Recorder) KeyScript,
      reader.terminal.console.raw = false ∧
      (∀ count, reader.terminal.console.fails .disableRaw count = false) ∧
      (state (readLine reader)).terminal.console.raw = true := by
  let console : Recorder := {
    size := ⟨80, 24⟩
    fails := fun call count => call == .flush && 2 ≤ count }
  refine ⟨{ terminal := { console }, keys := KeyScript.ofKeys [.control .enter] }, rfl, fun _ => rfl, ?_⟩
  decide +kernel

end Reader

end LineEditor
