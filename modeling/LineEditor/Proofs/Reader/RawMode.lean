import LineEditor.Proofs.Reader.Noting
import LineEditor.Proofs.Terminal.Logged

/-!
# Raw mode around a line

Reading a line enters raw mode first and leaves it last, whatever happens in between; and whatever goes
wrong in between is the last thing that happens there.

* `Reader.events` — the calls to the terminal and the answers of the source of keys, in order, while one
  line is read.
* `Terminal.FailsStop` — events that end with the first failure.
* `Reader.Concludes` — what becomes of a line that was edited.
* `Reader.brackets_raw_mode` — the course of every line.
-/

set_option autoImplicit false

open LineEditor.Action

namespace LineEditor

/-! ## Events -/

namespace Terminal

/-- Does the event enter raw mode or leave it? -/
def Event.isSwitch : Event → Bool
  | .call .enterRawMode _ => true
  | .call .leaveRawMode _ => true
  | _ => false

/-- The failure that an event reports.  The end of the input is none. -/
def Event.failure? : Event → Option Failure
  | .call _ failure => failure
  | .key (.error failure) => if failure.isEndOfInput then none else some failure
  | .key (.ok _) => none

/-- An event while all goes well. -/
def Event.Calm (event : Event) : Prop := event.isSwitch = false ∧ event.failure? = none

/-- No event enters raw mode or leaves it, none comes behind a failure, and the failure is the given
one. -/
structure FailsStop (events : List Event) (failure : Option Failure) : Prop where
  inside : ∀ event ∈ events, event.isSwitch = false
  stops : ∀ front event back, events = front ++ event :: back → event.failure? ≠ none → back = []
  reports : ∀ event ∈ events, event.failure? ≠ none → event.failure? = failure

variable {events : List Event} {failure : Failure} {event : Event}

theorem failsStop_of_calm (h : ∀ event ∈ events, event.Calm) (failure : Option Failure) :
    FailsStop events failure where
  inside event hevent := (h event hevent).1
  stops front event back hevents hfailure := by
    subst hevents
    have hevent := h event (List.mem_append_right _ List.mem_cons_self)
    exact absurd hevent.2 hfailure
  reports event hevent hfailure := absurd (h event hevent).2 hfailure

theorem failsStop_of_last (h : ∀ event ∈ events, event.Calm) (hswitch : event.isSwitch = false)
    (hfailure : event.failure? = some failure) : FailsStop (events ++ [event]) (some failure) where
  inside other hother := by
    rcases List.mem_append.mp hother with hevents | hlast
    · exact (h other hevents).1
    · rwa [List.mem_singleton.mp hlast]
  stops front other back hother hfails := by
    rcases List.eq_nil_or_concat back with rfl | ⟨initial, last, rfl⟩
    · rfl
    · have hsplit : events ++ [event] = (front ++ other :: initial) ++ [last] := by
        rw [hother, List.concat_eq_append, List.append_assoc, List.cons_append]
      obtain ⟨hevents, -⟩ := List.append_inj' hsplit rfl
      have hcalm := h other (hevents ▸ List.mem_append_right _ List.mem_cons_self)
      exact absurd hcalm.2 hfails
  reports other hother hfails := by
    rcases List.mem_append.mp hother with hevents | hlast
    · exact absurd (h other hevents).2 hfails
    · rw [List.mem_singleton.mp hlast, hfailure]

/-! ## Calls -/

variable {τ : Type}

/-- What a step adds to the log before it fails: calm events, and then it may be the failure. -/
def Stops (before : Logged Event τ) (failure : Failure) (after : Logged Event τ) : Prop :=
  Logged.Grows Event.Calm before after ∨
    ∃ middle event, Logged.Grows Event.Calm before middle ∧ after.log = middle.log ++ [event] ∧
      event.isSwitch = false ∧ event.failure? = some failure

theorem Stops.failsStop {before after : Logged Event τ} (h : Stops before failure after) :
    ∃ session, after.log = before.log ++ session ∧ FailsStop session (some failure) := by
  rcases h with ⟨entries, hlog, hcalm⟩ | ⟨middle, event, ⟨entries, hmiddle, hcalm⟩, hlog, hswitch, hfailure⟩
  · exact ⟨entries, hlog, failsStop_of_calm hcalm _⟩
  · refine ⟨entries ++ [event], ?_, failsStop_of_last hcalm hswitch hfailure⟩
    rw [hlog, hmiddle, List.append_assoc]

/-- A step adds calm events, and the failure if it fails. -/
def stopping (τ : Type) : Change Failure (Logged Event τ) where
  passes := Logged.Grows Event.Calm
  fails := Stops
  refl := Logged.Grows.refl
  trans := Logged.Grows.trans
  fails_after := by
    rintro before middle after failure hgrows (hlast | ⟨last, event, hlast, hevent⟩)
    · exact .inl (hgrows.trans hlast)
    · exact .inr ⟨last, event, hgrows.trans hlast, hevent⟩

theorem has_stopping_record {call : Call} {α : Type} {step : Action τ α}
    (h : ∀ failure, (Event.call call failure).isSwitch = false) :
    Has (stopping τ) (Logged.record (.call call) step) :=
  fun logged => (Logged.ends_record logged).mono
    (fun _ _ hlog => Logged.grows_of_log hlog ⟨h none, rfl⟩)
    fun failure _ hlog => .inr ⟨logged, _, .refl _, hlog, h (some failure), rfl⟩

theorem callsHave_stopping [Terminal τ] : Session.CallsHave (stopping τ) where
  columns := has_stopping_record fun _ => rfl
  cursor := has_stopping_record fun _ => rfl
  setCursor _ := has_stopping_record fun _ => rfl
  put _ := has_stopping_record fun _ => rfl
  moveLeft := has_stopping_record fun _ => rfl
  moveRight := has_stopping_record fun _ => rfl
  showCursor := has_stopping_record fun _ => rfl
  hideCursor := has_stopping_record fun _ => rfl
  flush := has_stopping_record fun _ => rfl

/-- Note an answer of the source of keys. -/
def noteKey (answer : Except Failure Key) : Logged Event τ → Logged Event τ := Logged.note (.key answer)

theorem base_noteKey (answer : Except Failure Key) (terminal : Logged Event τ) :
    (noteKey answer terminal).base = terminal.base := rfl

theorem notesHave_stopping : Session.NotesHave (stopping τ) noteKey where
  key _ _ := Logged.grows_of_log rfl ⟨rfl, rfl⟩
  ended _ _ h := Logged.grows_of_log rfl ⟨rfl, if_pos h⟩
  failed _ terminal h :=
    .inr ⟨terminal, _, .refl _, rfl, rfl, if_neg (Bool.eq_false_iff.mp h)⟩

end Terminal

/-! ## A line -/

namespace Reader

open Terminal

variable {τ κ : Type} [Terminal τ] [KeySource κ]

/-- The reader with an empty log at its terminal. -/
def logging (reader : Reader τ κ) : Reader (Logged Event τ) κ := reader.mapTerminal fun base => { base }

/-- The reading of one line, written down. -/
def traced (reader : Reader τ κ) : EStateM.Result Failure (Reader (Logged Event τ) κ) String :=
  readLineNoting noteKey reader.logging

/-- The calls to the terminal and the answers of the source of keys while one line is read. -/
def events (reader : Reader τ κ) : List Event := (state reader.traced).terminal.log

theorem callsMirror_base : CallsMirror (Logged.base : Logged Event τ → τ) where
  toCallsMirror := Terminal.callsMirror_base
  enterRawMode := Logged.mirrors_record
  leaveRawMode := Logged.mirrors_record

/-- **Nothing depends on what is written down.** -/
theorem forgets_traced (reader : Reader τ κ) :
    mapState (mapTerminal Logged.base) reader.traced = readLine reader :=
  forgets_readLineNoting callsMirror_base base_noteKey reader.logging

/-- Nor does the editing of one line. -/
theorem answer_editNoting (reader : Reader (Logged Event τ) κ) :
    answer (editWith (Session.readKeysNoting noteKey) reader) =
      answer (edit (reader.mapTerminal Logged.base)) := by
  have hedit : Mirrors (mapTerminal Logged.base) (editWith (Session.readKeysNoting noteKey))
      (editWith Session.readKeys) reader := by
    refine callsMirror_base.edits (fun width session keys => ?_) reader
    exact Session.forgets_readKeysNoting callsMirror_base.toCallsMirror base_noteKey
  unfold Mirrors at hedit
  rw [← editWith_readKeys, ← hedit, answer_mapState]

/-- What comes out of a line that was edited: its own failure, or else that of leaving raw mode. -/
def verdict (edited : Except Failure Session.Outcome) (leaving : Option Failure) :
    Except Failure String :=
  match edited, leaving with
  | .error failure, _ => .error failure
  | .ok _, some failure => .error failure
  | .ok outcome, none => .ok outcome.line

/-- Has the input ended with the line? -/
def endsInput (edited : Except Failure Session.Outcome) : Bool :=
  match edited with
  | .error failure => failure.isEndOfInput
  | .ok outcome => outcome.endOfInput

/-- The failure of an answer. -/
def failureOf (edited : Except Failure Session.Outcome) : Option Failure :=
  match edited with
  | .error failure => some failure
  | .ok _ => none

/-- What becomes of a line: the editing stops at its first failure, its answer decides what comes out,
unless leaving raw mode fails, and decides in any case whether the input has ended. -/
structure Concludes (edited : Except Failure Session.Outcome) (session : List Event)
    (leaving : Option Failure) (result : EStateM.Result Failure (Reader τ κ) String) : Prop where
  session : FailsStop session (failureOf edited)
  answer : answer result = verdict edited leaving
  exhausted : (state result).exhausted = endsInput edited

omit [KeySource κ] in
/-- Raw mode is left if it was entered, and that is written down. -/
theorem restore_leaves (raw : Bool) (reader : Reader (Logged Event τ) κ) :
    ∃ leaving next,
      restore raw reader = (match leaving with
        | none => .ok () next
        | some failure => .error failure next) ∧
      next.terminal.log =
        reader.terminal.log ++ (if raw then [Event.call .leaveRawMode leaving] else []) ∧
      (raw = false → leaving = none) := by
  cases raw with
  | false => exact ⟨none, reader, rfl, (List.append_nil _).symm, fun _ => rfl⟩
  | true =>
    have hends : Ends (Terminal.leaveRawMode : Action (Logged Event τ) Unit) reader.terminal _ _ :=
      Logged.ends_record reader.terminal
    cases hleave : (Terminal.leaveRawMode : Action (Logged Event τ) Unit) reader.terminal with
    | ok _ terminal =>
      refine ⟨none, { reader with terminal }, ?_, hends.of_ok hleave, fun _ => rfl⟩
      rw [restore, if_pos rfl, onTerminal, within, hleave]
    | error failure terminal =>
      refine ⟨some failure, { reader with terminal }, ?_, hends.of_error hleave, fun h => by cases h⟩
      rw [restore, if_pos rfl, onTerminal, within, hleave]

omit [KeySource κ] in
/-- What comes out of a line is decided by the answer of the editing and that of leaving raw mode. -/
theorem closeWith_leaves (loop : Session.Loop (Logged Event τ) κ) (raw : Bool)
    (reader : Reader (Logged Event τ) κ) :
    ∃ leaving,
      (state (closeWith loop raw reader)).terminal.log =
        (state (editWith loop reader)).terminal.log ++
          (if raw then [.call .leaveRawMode leaving] else []) ∧
      (raw = false → leaving = none) ∧
      answer (closeWith loop raw reader) = verdict (answer (editWith loop reader)) leaving ∧
      (state (closeWith loop raw reader)).exhausted =
        (reader.exhausted || endsInput (answer (editWith loop reader))) := by
  have hsame := exhausted_editWith loop reader
  obtain ⟨leaving, next, hrestore, hlog, hleaving⟩ := restore_leaves raw (state (editWith loop reader))
  unfold closeWith
  cases hrun : editWith loop reader with
  | ok outcome last =>
    rw [hrun] at hsame hrestore hlog
    have hrestore : restore raw last = _ := hrestore
    dsimp only
    rw [hrestore, ← hsame]
    cases leaving with
    | none => exact ⟨none, hlog, hleaving, rfl, rfl⟩
    | some other => exact ⟨some other, hlog, hleaving, rfl, rfl⟩
  | error failure last =>
    rw [hrun] at hsame hrestore hlog
    have hrestore : restore raw last = _ := hrestore
    dsimp only
    rw [hrestore, ← hsame]
    cases leaving with
    | none => exact ⟨none, hlog, hleaving, rfl, rfl⟩
    | some other => exact ⟨some other, hlog, hleaving, rfl, rfl⟩

/-- The editing of a line writes down a session that stops at its first failure. -/
theorem editNoting_failsStop (reader : Reader (Logged Event τ) κ) :
    ∃ session,
      (state (editWith (Session.readKeysNoting noteKey) reader)).terminal.log =
        reader.terminal.log ++ session ∧
      FailsStop session
        (failureOf (answer (editWith (Session.readKeysNoting noteKey) reader))) := by
  have hedit := editNoting_has callsHave_stopping (fun _ _ => .inl (.refl _)) notesHave_stopping reader
  cases hrun : editWith (Session.readKeysNoting noteKey) reader with
  | ok outcome last =>
    obtain ⟨session, hlog, hcalm⟩ := hedit.of_ok hrun
    exact ⟨session, hlog, failsStop_of_calm hcalm _⟩
  | error failure last => exact Stops.failsStop (hedit.of_error hrun)

/-- A line that is edited writes down a session, and behind it that raw mode is left if it was
entered. -/
theorem closeWith_concludes (raw : Bool) (reader : Reader (Logged Event τ) κ)
    (hopen : reader.exhausted = false) :
    ∃ session leaving,
      (state (closeWith (Session.readKeysNoting noteKey) raw reader)).terminal.log =
        reader.terminal.log ++ session ++ (if raw then [.call .leaveRawMode leaving] else []) ∧
      (raw = false → leaving = none) ∧
      Concludes (answer (editWith (Session.readKeysNoting noteKey) reader)) session leaving
        (closeWith (Session.readKeysNoting noteKey) raw reader) := by
  obtain ⟨session, hsession, hstops⟩ := editNoting_failsStop reader
  obtain ⟨leaving, hlog, hleaving, hanswer, hexhausted⟩ :=
    closeWith_leaves (Session.readKeysNoting noteKey) raw reader
  rw [hsession] at hlog
  rw [hopen, Bool.false_or] at hexhausted
  exact ⟨session, leaving, hlog, hleaving, hstops, hanswer, hexhausted⟩

/-- What becomes of the line that is written down becomes of the line. -/
theorem Concludes.forget {reader : Reader τ κ} {edited : Except Failure Session.Outcome}
    {session : List Event} {leaving : Option Failure}
    (h : Concludes edited session leaving reader.traced) :
    Concludes edited session leaving (readLine reader) where
  session := h.session
  answer := by rw [← forgets_traced, answer_mapState, h.answer]
  exhausted := by
    rw [← forgets_traced, state_mapState]
    exact h.exhausted

omit [KeySource κ] in
/-- Entering raw mode is written down. -/
theorem enterRawMode_logging_ok {reader : Reader τ κ} {terminal : τ}
    (h : (Terminal.enterRawMode : Action τ Unit) reader.terminal = .ok () terminal) :
    enterRawMode reader.logging =
      .ok true { reader.logging with terminal := ⟨terminal, [.call .enterRawMode none]⟩ } := by
  have hmode : (Terminal.enterRawMode : Action (Logged Event τ) Unit) ⟨reader.terminal, []⟩ =
      .ok () ⟨terminal, [.call .enterRawMode none]⟩ := Logged.record_ok h
  rw [enterRawMode, onTerminal, within]
  dsimp only [logging, mapTerminal]
  rw [hmode]

omit [KeySource κ] in
/-- So is a failure to enter it, which may be allowed. -/
theorem enterRawMode_logging_error {reader : Reader τ κ} {terminal : τ} {failure : Failure}
    (h : (Terminal.enterRawMode : Action τ Unit) reader.terminal = .error failure terminal) :
    enterRawMode reader.logging =
      if reader.settings.allowsDegraded then
        .ok false { reader.logging with
          terminal := ⟨terminal, [.call .enterRawMode (some failure)]⟩, degraded := true }
      else
        .error failure { reader.logging with
          terminal := ⟨terminal, [.call .enterRawMode (some failure)]⟩ } := by
  have hmode : (Terminal.enterRawMode : Action (Logged Event τ) Unit) ⟨reader.terminal, []⟩ =
      .error failure ⟨terminal, [.call .enterRawMode (some failure)]⟩ := Logged.record_error h
  rw [enterRawMode, onTerminal, within]
  dsimp only [logging, mapTerminal]
  rw [hmode]

/-- What becomes of a line once raw mode was entered, or was not. -/
theorem traced_concludes {reader : Reader τ κ} {opened : Reader (Logged Event τ) κ} {raw : Bool}
    (hopen : reader.exhausted = false) (hraw : enterRawMode reader.logging = .ok raw opened)
    (hopened : opened.exhausted = false) :
    ∃ session leaving,
      reader.events =
        opened.terminal.log ++ session ++ (if raw then [.call .leaveRawMode leaving] else []) ∧
      (raw = false → leaving = none) ∧
      Concludes (answer (edit (opened.mapTerminal Logged.base))) session leaving (readLine reader) := by
  have htraced : reader.traced = closeWith (Session.readKeysNoting noteKey) raw opened := by
    have hlogging : ¬ reader.logging.exhausted = true := Bool.eq_false_iff.mp hopen
    rw [traced, readLineNoting, readLineWith, if_neg hlogging, hraw]
  obtain ⟨session, leaving, hlog, hleaving, hconcludes⟩ := closeWith_concludes raw opened hopened
  rw [answer_editNoting, ← htraced] at hconcludes
  rw [← htraced] at hlog
  exact ⟨session, leaving, hlog, hleaving, hconcludes.forget⟩

/-- **Raw mode brackets every line, and a failure stops it.**  A reader whose input has ended makes no
call and reads no key.  Every other one enters raw mode first.  If that fails and is not allowed to,
nothing else is done.  Otherwise a line is edited without another switch of the mode; after its first
failure there is neither a call nor a key.  Raw mode is left at the very end if it was entered, and not
at all if it was not.  The answer of the editing decides what comes out, unless only leaving raw mode
fails, and the input counts as ended just if the editing has seen its end. -/
theorem brackets_raw_mode (reader : Reader τ κ) :
    mapState (mapTerminal Logged.base) reader.traced = readLine reader ∧
    if reader.exhausted then
      readLine reader = .error .endOfInput reader ∧ reader.events = []
    else
      match (Terminal.enterRawMode : Action τ Unit) reader.terminal with
      | .ok () terminal =>
        ∃ session leaving,
          reader.events = .call .enterRawMode none :: session ++ [.call .leaveRawMode leaving] ∧
          Concludes (answer (edit { reader with terminal })) session leaving (readLine reader)
      | .error failure terminal =>
        if reader.settings.allowsDegraded then
          ∃ session, reader.events = .call .enterRawMode (some failure) :: session ∧
            Concludes (answer (edit { reader with terminal, degraded := true })) session none
              (readLine reader)
        else
          reader.events = [.call .enterRawMode (some failure)] ∧
            readLine reader = .error failure { reader with terminal } := by
  refine ⟨forgets_traced reader, ?_⟩
  by_cases hexhausted : reader.exhausted = true
  · have htraced : reader.traced = .error .endOfInput reader.logging := if_pos hexhausted
    rw [if_pos hexhausted, events, htraced, readLine, if_pos hexhausted]
    exact ⟨rfl, rfl⟩
  · have hopen : reader.exhausted = false := Bool.eq_false_iff.mpr hexhausted
    rw [if_neg hexhausted]
    cases henter : (Terminal.enterRawMode : Action τ Unit) reader.terminal with
    | ok _ terminal =>
      obtain ⟨session, leaving, hlog, -, hconcludes⟩ :=
        traced_concludes hopen (enterRawMode_logging_ok henter) hopen
      exact ⟨session, leaving, hlog, hconcludes⟩
    | error failure terminal =>
      have hraw := enterRawMode_logging_error henter
      dsimp only
      by_cases hdegraded : reader.settings.allowsDegraded = true
      · rw [if_pos hdegraded] at hraw ⊢
        obtain ⟨session, leaving, hlog, hleaving, hconcludes⟩ := traced_concludes hopen hraw hopen
        rw [hleaving rfl] at hconcludes
        exact ⟨session, hlog.trans (List.append_nil _), hconcludes⟩
      · rw [if_neg hdegraded] at hraw ⊢
        have hlogging : ¬ reader.logging.exhausted = true := hexhausted
        have htraced : reader.traced = .error failure { reader.logging with
            terminal := ⟨terminal, [.call .enterRawMode (some failure)]⟩ } := by
          rw [traced, readLineNoting, readLineWith, if_neg hlogging, hraw]
        rw [← forgets_traced, events, htraced]
        exact ⟨rfl, rfl⟩

end Reader

end LineEditor
