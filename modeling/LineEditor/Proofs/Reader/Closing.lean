import LineEditor.Proofs.Reader.RawMode
import LineEditor.Proofs.Stream.Sources
import LineEditor.Proofs.Terminal.Consoles
import LineEditor.Terminal.Recorder

/-!
# When a reader closes

A VT100 terminal remembers only its latest failure, and a reader asks for nothing else when it says
whether another line may be asked for.  So the failures of all lines decide together whether it is
open, and of them only the last.

* `Terminal.recorded` — the failures in a log.
* `Vt100.Remembers` — what the terminal remembers is the last of them.
* `Reader.lastFailure_readLine` — **the step**: one line.
* `Reader.failures`, `Reader.lastFailure_after` — **the run**: any number of lines, also failed ones.
* `Reader.closes_with_last_failure` — when a reader is open.
* `Reader.reopens_behind_lost_place` — a failure that does not close it.
-/

set_option autoImplicit false

open LineEditor.Action

namespace LineEditor

/-! ## Failures in a log -/

namespace Terminal

/-- The failure of a call. -/
def Event.fault? : Event → Option Failure
  | .call _ failure => failure
  | .key _ => none

/-- The failures of all calls, in order. -/
def recorded (events : List Event) : List Failure := events.filterMap Event.fault?

@[simp]
theorem recorded_snoc (events : List Event) (event : Event) :
    recorded (events ++ [event]) = recorded events ++ event.fault?.toList := by
  rw [recorded, List.filterMap_append]
  rfl

end Terminal

/-! ## What a terminal remembers -/

namespace Vt100

open Terminal

variable {δ α : Type} {start : Option Failure}

/-- A step that fails leaves its failure to be remembered, and one that succeeds what was remembered
before. -/
def remembering (δ : Type) : Change Failure (Vt100 δ) where
  passes before after := after.lastFailure = before.lastFailure
  fails _ failure after := after.lastFailure = some failure
  refl _ := rfl
  trans h h' := h'.trans h
  fails_after _ h := h

theorem has_remembering_request (step : Action δ α) : Has (remembering δ) (request step) := by
  intro terminal
  unfold Ends request
  cases step terminal.console <;> rfl

/-- What the terminal remembers is the last failure in its log, and what it remembered at the start if
there is none. -/
def Remembers (start : Option Failure) (terminal : Logged Event (Vt100 δ)) : Prop :=
  terminal.base.lastFailure = (recorded terminal.log).getLast?.or start

/-- A call that is written down. -/
theorem has_remembers_record {step : Action (Vt100 δ) α} (h : Has (remembering δ) step) (call : Call) :
    Has (Change.keeping (Remembers start)) (Logged.record (Event.call call) step) := by
  intro terminal
  have hstep := h terminal.base
  cases hrun : step terminal.base with
  | ok value base =>
    refine ends_of_ok (Logged.record_ok hrun) fun hstart => ?_
    have hkept : base.lastFailure = terminal.base.lastFailure := hstep.of_ok hrun
    unfold Remembers at hstart ⊢
    simpa [Event.fault?, hkept] using hstart
  | error failure base =>
    refine ends_of_error (Logged.record_error hrun) fun _ => ?_
    have hlast : base.lastFailure = some failure := hstep.of_error hrun
    simp [Remembers, Event.fault?, hlast]

/-- The answers of the source of keys are no failures of calls. -/
theorem Remembers.note {terminal : Logged Event (Vt100 δ)} (h : Remembers start terminal)
    (answer : Except Failure Key) : Remembers start (Terminal.noteKey answer terminal) := by
  unfold Remembers Terminal.noteKey Logged.note at *
  simpa [Event.fault?] using h

variable [Console δ]

theorem callsHave_remembering : Session.CallsHave (remembering δ) :=
  RequestsHave.calls ⟨fun _ _ => has_remembering_request _, has_remembering_request _,
    has_remembering_request _, has_remembering_request _, fun _ => has_remembering_request _⟩

theorem callsHave_remembers : Session.CallsHave
    (Change.keeping (Remembers start) : Change Failure (Logged Event (Vt100 δ))) where
  columns := has_remembers_record callsHave_remembering.columns _
  cursor := has_remembers_record callsHave_remembering.cursor _
  setCursor position := has_remembers_record (callsHave_remembering.setCursor position) _
  put cell := has_remembers_record (callsHave_remembering.put cell) _
  moveLeft := has_remembers_record callsHave_remembering.moveLeft _
  moveRight := has_remembers_record callsHave_remembering.moveRight _
  showCursor := has_remembers_record callsHave_remembering.showCursor _
  hideCursor := has_remembers_record callsHave_remembering.hideCursor _
  flush := has_remembers_record callsHave_remembering.flush _

end Vt100

/-! ## One line -/

namespace Reader

open Terminal

variable {τ δ κ : Type} [Terminal τ] [Console δ] [KeySource κ]

theorem traced_remembers (reader : Reader (Vt100 δ) κ) :
    Vt100.Remembers reader.terminal.lastFailure (state reader.traced).terminal := by
  have hstart : Vt100.Remembers reader.terminal.lastFailure reader.logging.terminal := rfl
  have hflush : Has (Vt100.remembering δ) Vt100.flush := Vt100.has_remembering_request _
  have henter : Has (Vt100.remembering δ) Vt100.enterRawMode :=
    hflush.bind fun _ => Vt100.has_remembering_request _
  have hleave : Has (Vt100.remembering δ) Vt100.leaveRawMode :=
    hflush.bind fun _ => Vt100.has_remembering_request _
  have hline : Ends (readLineNoting noteKey) reader.logging
      (fun _ next => Vt100.Remembers reader.terminal.lastFailure next.terminal)
      fun _ next => Vt100.Remembers reader.terminal.lastFailure next.terminal :=
    readLineNoting_keeps Vt100.callsHave_remembers
      (Vt100.has_remembers_record henter .enterRawMode) (Vt100.has_remembers_record hleave .leaveRawMode)
      (fun answer _ h => h.note answer) hstart
  exact hline.state

/-- **Behind a line the terminal remembers the last of its failures**, or what it remembered before. -/
theorem lastFailure_readLine (reader : Reader (Vt100 δ) κ) :
    (state (readLine reader)).terminal.lastFailure =
      (recorded reader.events).getLast?.or reader.terminal.lastFailure := by
  rw [← forgets_traced, state_mapState]
  exact traced_remembers reader

/-! ## What stays of a line -/

/-- Raw mode cannot be entered, and the line is edited without it. -/
def Tolerates (reader : Reader τ κ) : Prop :=
  reader.exhausted = false ∧ reader.settings.allowsDegraded = true ∧
    ∃ failure terminal,
      (Terminal.enterRawMode : Action τ Unit) reader.terminal = .error failure terminal

/-- The settings are the same, and so is whether a line was edited without raw mode. -/
def Akin (reader next : Reader τ κ) : Prop :=
  next.settings = reader.settings ∧ next.degraded = reader.degraded

omit [KeySource κ] in
theorem closeWith_akin (loop : Session.Loop τ κ) (raw : Bool) (reader : Reader τ κ) :
    Akin reader (state (closeWith loop raw reader)) := by
  have hedit : Akin reader (state (editWith loop reader)) := by
    unfold editWith
    split
    · exact ⟨rfl, rfl⟩
    · split <;> exact ⟨rfl, rfl⟩
  have hrestore (last : Reader τ κ) (hlast : Akin reader last) : Akin reader (state (restore raw last)) := by
    cases raw with
    | false => exact hlast
    | true =>
      rw [restore, if_pos rfl, onTerminal, within]
      split <;> exact hlast
  unfold closeWith
  cases hrun : editWith loop reader with
  | ok outcome last =>
    rw [hrun] at hedit
    have hlast := hrestore last hedit
    dsimp only
    cases hleave : restore raw last <;> rw [hleave] at hlast <;> exact hlast
  | error failure last =>
    rw [hrun] at hedit
    have hlast := hrestore last hedit
    dsimp only
    cases hleave : restore raw last <;> rw [hleave] at hlast <;> exact hlast

theorem readLine_of_exhausted {reader : Reader τ κ} (h : reader.exhausted = true) :
    readLine reader = .error .endOfInput reader := if_pos h

/-- A line leaves the settings alone, and marks the reader as degraded just if it tolerates that raw mode
cannot be entered. -/
theorem readLine_degrades (reader : Reader τ κ) :
    (state (readLine reader)).settings = reader.settings ∧
    ((state (readLine reader)).degraded = true ↔ reader.degraded = true ∨ Tolerates reader) := by
  by_cases hexhausted : reader.exhausted = true
  · have htolerates : ¬ Tolerates reader := by
      rintro ⟨hopen, -⟩
      rw [hopen] at hexhausted
      cases hexhausted
    rw [readLine_of_exhausted hexhausted]
    exact ⟨rfl, (or_iff_left htolerates).symm⟩
  have hopen : reader.exhausted = false := Bool.eq_false_iff.mpr hexhausted
  have hline : readLineWith Session.readKeys reader = _ := if_neg hexhausted
  rw [readLineWith_readKeys, enterRawMode, onTerminal, within] at hline
  cases henter : (Terminal.enterRawMode : Action τ Unit) reader.terminal with
  | ok _ terminal =>
    rw [henter] at hline
    have htolerates : ¬ Tolerates reader := by
      rintro ⟨-, -, failure, other, hfails⟩
      rw [henter] at hfails
      cases hfails
    obtain ⟨hsettings, hdegraded⟩ :=
      closeWith_akin Session.readKeys true { reader with terminal }
    rw [hline, hdegraded]
    exact ⟨hsettings, (or_iff_left htolerates).symm⟩
  | error failure terminal =>
    rw [henter] at hline
    by_cases hallowed : reader.settings.allowsDegraded = true
    · have hclose : readLine reader = closeWith Session.readKeys false
          { reader with terminal, degraded := true } := by
        rw [hline]
        dsimp only
        rw [if_pos hallowed]
      obtain ⟨hsettings, hdegraded⟩ :=
        closeWith_akin Session.readKeys false { reader with terminal, degraded := true }
      rw [hclose, hdegraded]
      exact ⟨hsettings, iff_of_true rfl (.inr ⟨hopen, hallowed, failure, terminal, henter⟩)⟩
    · have hclose : readLine reader = .error failure { reader with terminal } := by
        rw [hline]
        dsimp only
        rw [if_neg hallowed]
      rw [hclose]
      exact ⟨rfl, (or_iff_left fun htolerates => hallowed htolerates.2.1).symm⟩

/-! ## Any number of lines -/

/-- What the terminal remembers at the start, and the failures that it records while lines are read, also
lines that fail. -/
def failures (reader : Reader (Vt100 δ) κ) : Nat → List Failure
  | 0 => reader.terminal.lastFailure.toList
  | count + 1 => failures reader count ++ recorded (LineSource.after count reader).events

/-- **The terminal remembers the last of all failures.** -/
theorem lastFailure_after (reader : Reader (Vt100 δ) κ) (count : Nat) :
    (LineSource.after count reader).terminal.lastFailure = (failures reader count).getLast? := by
  induction count with
  | zero => cases hlast : reader.terminal.lastFailure <;> simp [LineSource.after, failures, hlast]
  | succ count ih =>
    have hline := lastFailure_readLine (LineSource.after count reader)
    rw [LineSource.after_succ, failures, List.getLast?_append, ← ih]
    exact hline

/-- Nothing happens behind the end of the input. -/
theorem after_exhausted {reader : Reader τ κ} {count : Nat}
    (h : (LineSource.after count reader).exhausted = true) (more : Nat) :
    LineSource.after (count + more) reader = LineSource.after count reader := by
  induction more with
  | zero => rfl
  | succ more ih =>
    have hline := readLine_of_exhausted h
    rw [← Nat.add_assoc, LineSource.after_succ, ih]
    exact congrArg state hline

theorem settings_after (reader : Reader τ κ) (count : Nat) :
    (LineSource.after count reader).settings = reader.settings := by
  induction count with
  | zero => rfl
  | succ count ih =>
    have hline := (readLine_degrades (LineSource.after count reader)).1
    rw [LineSource.after_succ, ← ih]
    exact hline

/-- A reader stays degraded from the first line on that tolerated a failure. -/
theorem degraded_after (reader : Reader τ κ) (count : Nat) :
    (LineSource.after count reader).degraded = true ↔
      reader.degraded = true ∨ ∃ line < count, Tolerates (LineSource.after line reader) := by
  induction count with
  | zero => simp [LineSource.after]
  | succ count ih =>
    have hlast := (readLine_degrades (LineSource.after count reader)).2
    rw [LineSource.after_succ]
    refine hlast.trans ?_
    rw [ih, or_assoc]
    refine or_congr_right ⟨?_, ?_⟩
    · rintro (⟨line, hlt, hline⟩ | hlast)
      · exact ⟨line, Nat.lt_succ_of_lt hlt, hline⟩
      · exact ⟨count, Nat.lt_succ_self count, hlast⟩
    · rintro ⟨line, hlt, hline⟩
      rcases Nat.lt_succ_iff_lt_or_eq.mp hlt with hlt | rfl
      · exact .inl ⟨line, hlt, hline⟩
      · exact .inr hline

omit [KeySource κ] in
theorem hasNext_iff (reader : Reader (Vt100 δ) κ) :
    reader.hasNext = true ↔ reader.exhausted = false ∧
      ∀ failure, reader.terminal.lastFailure = some failure →
        failure.category = .mode ∧ reader.degraded = true := by
  have hremembered : Terminal.lastFailure reader.terminal = reader.terminal.lastFailure := rfl
  have hok : Terminal.isOk reader.terminal = reader.terminal.lastFailure.isNone := rfl
  rw [hasNext, hremembered, hok]
  cases reader.exhausted <;> cases reader.terminal.lastFailure <;> simp [and_comm]

/-- **A reader is open just if its input has not ended and the last failure of its terminal, if there is
any, is one of the mode that it tolerates.**  The end of the input closes it for good.  Behind a failure
of any other kind it stays closed until the mode fails again, and if it may not go on without raw mode,
any failure closes it for good.  While nothing but the mode has failed, a reader that once tolerated
that is open. -/
theorem closes_with_last_failure (reader : Reader (Vt100 δ) κ) (count : Nat) :
    let now := LineSource.after count reader
    let known := failures reader count
    (now.hasNext = true ↔ now.exhausted = false ∧
      ∀ failure, known.getLast? = some failure → failure.category = .mode ∧ now.degraded = true) ∧
    (now.exhausted = true → ∀ more, (LineSource.after (count + more) reader).hasNext = false) ∧
    (∀ front failure back, known = front ++ failure :: back → failure.category ≠ .mode →
      (∀ later ∈ back, later.category ≠ .mode) → now.hasNext = false) ∧
    (reader.degraded = false → reader.settings.allowsDegraded = false → known ≠ [] →
      now.hasNext = false) ∧
    (now.exhausted = false → (∀ failure ∈ known, failure.category = .mode) →
      (∃ line < count, Tolerates (LineSource.after line reader)) → now.hasNext = true) := by
  intro now known
  have hopen : now.hasNext = true ↔ now.exhausted = false ∧
      ∀ failure, known.getLast? = some failure → failure.category = .mode ∧ now.degraded = true := by
    rw [hasNext_iff, lastFailure_after]
  refine ⟨hopen, fun hended more => ?_, fun front failure back hknown hfailure hback => ?_,
    fun hdegraded hallowed hknown => ?_, fun hended hmode htolerates => ?_⟩
  · rw [after_exhausted hended, Bool.eq_false_iff]
    intro hnext
    exact Bool.eq_false_iff.mp (hopen.mp hnext).1 hended
  · rw [Bool.eq_false_iff]
    intro hnext
    have hlast : known.getLast? = some (back.getLast?.getD failure) := by
      rw [hknown, List.getLast?_append, List.getLast?_cons, Option.some_or]
    have hmode := ((hopen.mp hnext).2 _ hlast).1
    cases hlater : back.getLast? with
    | none => exact hfailure (by rwa [hlater] at hmode)
    | some later => exact hback later (List.mem_of_getLast? hlater) (by rwa [hlater] at hmode)
  · rw [Bool.eq_false_iff]
    intro hnext
    have hnow := ((hopen.mp hnext).2 _ (List.getLast?_eq_some_getLast hknown)).2
    rcases (degraded_after reader count).mp hnow with hstart | ⟨line, -, -, hallows, -⟩
    · exact Bool.eq_false_iff.mp hdegraded hstart
    · rw [settings_after] at hallows
      exact Bool.eq_false_iff.mp hallowed hallows
  · refine hopen.mpr ⟨hended, fun failure hlast => ⟨hmode failure (List.mem_of_getLast? hlast), ?_⟩⟩
    exact (degraded_after reader count).mpr (.inr htolerates)

/-- A reader that goes on without raw mode opens again in the very line that loses the place of the
cursor, because leaving raw mode fails behind that. -/
theorem reopens_behind_lost_place :
    ∃ reader : Reader (Vt100 Recorder) KeyScript,
      reader.terminal.lastFailure = none ∧
      (∃ failure ∈ failures reader 2, failure.category ≠ .mode) ∧
      (LineSource.after 2 reader).hasNext = true := by
  let console : Recorder := {
    size := ⟨80, 24⟩
    fails := fun call count => count == 1 && (call == .enableRaw || call == .cursor || call == .disableRaw) }
  refine ⟨{
    terminal := { console }
    keys := KeyScript.ofKeys [.control .enter, Key.ofChar 'a', .control .enter]
    settings := { allowsDegraded := true } }, rfl, ?_, ?_⟩
  · decide +kernel
  · decide +kernel

end Reader

end LineEditor
