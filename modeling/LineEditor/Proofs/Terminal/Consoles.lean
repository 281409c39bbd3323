import LineEditor.Proofs.Terminal.Logged
import LineEditor.Terminal.Vt100

/-!
# Consoles with a log

A VT100 terminal makes several calls to its console in one operation.  Here the console is given the
log, so that each of them is seen.

* `Console.Event` — what is written down.
* `Vt100.logged`, `Vt100.forget` — the terminal over the console with a log, and back.
* `Vt100.callsMirror_forget` — without the log, every call of a session is the one on the terminal.
* `Vt100.RequestsHave` — every request to the console makes a change of some kind;
  `RequestsHave.draws`, `RequestsHave.calls` — so does every call of a session.
* `Vt100.callsHave_grows` — a session never switches the mode of the console.
-/

set_option autoImplicit false

open LineEditor.Action

namespace LineEditor

/-- A call to a console. -/
inductive Console.Call where
  | write (text : String)
  | flush
  | size
  | cursor
  | moveTo (position : Position)
  | enableRawMode
  | disableRawMode
  deriving DecidableEq

/-- What is written down of a console. -/
inductive Console.Event where
  /-- a call to the console, and whether it failed -/
  | call (call : Console.Call) (failed : Bool)
  /-- a key was asked for -/
  | key
  deriving DecidableEq

namespace Console

/-- Does the call switch the input mode? -/
def Call.isSwitch : Call → Bool
  | .enableRawMode => true
  | .disableRawMode => true
  | _ => false

/-- What is written down of a call. -/
def entry {φ : Type} (call : Call) (fault : Option φ) : Event := .call call fault.isSome

/-- Events that an account of a log passes over add nothing to it. -/
theorem foldl_append {ω : Type} {account : ω → Event → ω} {start : ω} {events entries : List Event}
    (h : ∀ entry ∈ entries, ∀ before, account before entry = before) :
    (events ++ entries).foldl account start = events.foldl account start := by
  rw [List.foldl_append]
  induction entries with
  | nil => rfl
  | cons entry entries ih =>
    rw [List.foldl_cons, h entry List.mem_cons_self]
    exact ih fun other hother => h other (List.mem_cons_of_mem _ hother)

variable {δ : Type} [Console δ]

instance : Console (Logged Event δ) where
  write text := Logged.record (entry (.write text)) (write text)
  flush := Logged.record (entry .flush) flush
  size := Logged.record (entry .size) size
  cursor := Logged.record (entry .cursor) cursor
  moveTo position := Logged.record (entry (.moveTo position)) (moveTo position)
  enableRawMode := Logged.record (entry .enableRawMode) enableRawMode
  disableRawMode := Logged.record (entry .disableRawMode) disableRawMode

end Console

namespace Vt100

open Console

variable {δ : Type}

/-- The terminal with an empty log at its console. -/
def logged (terminal : Vt100 δ) : Vt100 (Logged Event δ) where
  console := { base := terminal.console }
  lastFailure := terminal.lastFailure

/-- The terminal without the log. -/
def forget (terminal : Vt100 (Logged Event δ)) : Vt100 δ where
  console := terminal.console.base
  lastFailure := terminal.lastFailure

/-- Note that a key was asked for. -/
def noteKey (_answer : Except Failure Key) (terminal : Vt100 (Logged Event δ)) :
    Vt100 (Logged Event δ) :=
  { terminal with console := terminal.console.note .key }

theorem forget_noteKey (answer : Except Failure Key) (terminal : Vt100 (Logged Event δ)) :
    (noteKey answer terminal).forget = terminal.forget := rfl

/-! ## Without the log -/

section

variable {α φ : Type} {call : Call}

theorem mirrors_request {step : Action (Logged Event δ) α} {step' : Action δ α}
    (h : ∀ console, Mirrors Logged.base step step' console) (terminal : Vt100 (Logged Event δ)) :
    Mirrors forget (request step) (request step') terminal := by
  have hstep := h terminal.console
  have hconsole : terminal.forget.console = terminal.console.base := rfl
  unfold Mirrors at hstep ⊢
  unfold request
  rw [hconsole, ← hstep]
  cases step terminal.console <;> rfl

theorem mirrors_output (attempt : String) {step : EStateM IoFault (Logged Event δ) Unit}
    {step' : EStateM IoFault δ Unit} (h : ∀ console, Mirrors Logged.base step step' console)
    (console : Logged Event δ) :
    Mirrors Logged.base (output attempt step) (output attempt step') console := by
  have hstep := h console
  unfold Mirrors at hstep ⊢
  unfold output
  rw [← hstep]
  cases step console <;> rfl

end

section

variable [Console δ] (terminal : Vt100 (Logged Event δ))

theorem mirrors_emit (text : String) : Mirrors forget (emit text) (emit text) terminal := by
  unfold emit
  split
  · exact mirrors_pure ()
  · exact mirrors_request (mirrors_output "Write" Logged.mirrors_record) terminal

theorem mirrors_flush : Mirrors forget flush flush terminal :=
  mirrors_request (mirrors_output "Flush" Logged.mirrors_record) terminal

theorem mirrors_columns : Mirrors forget columns columns terminal :=
  (mirrors_request Logged.mirrors_record terminal).bind fun _ _ => mirrors_pure _

theorem mirrors_cursor : Mirrors forget cursor cursor terminal :=
  (mirrors_flush terminal).bind fun _ => mirrors_request Logged.mirrors_record

/-- **Nothing depends on the log of the console.** -/
theorem callsMirror_forget : Session.CallsMirror (forget : Vt100 (Logged Event δ) → Vt100 δ) where
  columns := mirrors_columns
  cursor := mirrors_cursor
  setCursor _ t := (mirrors_columns t).bind fun _ t => (mirrors_flush t).bind fun _ =>
    mirrors_request Logged.mirrors_record
  put cell t := mirrors_emit t cell.text
  moveLeft t := (mirrors_cursor t).bind fun position t => by
    split
    · exact mirrors_emit t _
    · exact (mirrors_columns t).bind fun _ t => mirrors_emit t _
  moveRight t := (mirrors_columns t).bind fun columns t => (mirrors_cursor t).bind fun position t => by
    split
    · exact mirrors_emit t _
    · exact mirrors_emit t _
  showCursor t := (mirrors_emit t _).bind fun _ => mirrors_flush
  hideCursor t := mirrors_emit t _
  flush := mirrors_flush

end

/-! ## What is added to the log -/

section

variable {kind : Event → Prop} {α : Type}

/-- The log of the console takes on entries of one kind. -/
def grows (kind : Event → Prop) : Change Failure (Vt100 (Logged Event δ)) :=
  (Logged.grows kind).along Vt100.console

theorem ends_request {step : Action (Logged Event δ) α} {terminal : Vt100 (Logged Event δ)}
    {passed : α → Logged Event δ → Prop} {failed : Failure → Logged Event δ → Prop}
    (h : Ends step terminal.console passed failed) :
    Ends (request step) terminal (fun value next => passed value next.console)
      fun failure next => failed failure next.console := by
  unfold Ends request
  cases hstep : step terminal.console with
  | ok value console => exact h.of_ok hstep
  | error failure console => exact h.of_error hstep

theorem ends_output (attempt : String) {step : EStateM IoFault (Logged Event δ) Unit}
    {console : Logged Event δ} {passed : Unit → Logged Event δ → Prop} {failed : Logged Event δ → Prop}
    (h : Ends step console passed fun _ => failed) :
    Ends (output attempt step) console passed fun _ => failed := by
  unfold Ends output
  cases hstep : step console with
  | ok value after => exact h.of_ok hstep
  | error fault after => exact h.of_error hstep

theorem has_request {step : Action (Logged Event δ) α} (h : Has (Logged.grows kind) step) :
    Has (grows kind) (request step) := fun terminal => ends_request (h terminal.console)

theorem has_output (attempt : String) {step : EStateM IoFault (Logged Event δ) Unit}
    (h : Has (Logged.grows kind) step) : Has (Logged.grows kind) (output attempt step) :=
  fun console => ends_output attempt (h console)

end

section

variable [Console δ] (terminal : Vt100 (Logged Event δ))

theorem ends_flush :
    Ends flush terminal (fun _ next => next.console.log = terminal.console.log ++ [.call .flush false])
      fun _ next => next.console.log = terminal.console.log ++ [.call .flush true] := by
  have hflush : Ends (Console.flush : EStateM IoFault (Logged Event δ) Unit) terminal.console
      (fun _ next => next.log = terminal.console.log ++ [.call .flush false])
      fun _ next => next.log = terminal.console.log ++ [.call .flush true] :=
    Logged.ends_record terminal.console
  have houtput := ends_output "Flush" hflush
  exact ends_request houtput

theorem ends_emit {text : String} (htext : text.isEmpty = false) :
    Ends (emit text) terminal
      (fun _ next => next.console.log = terminal.console.log ++ [.call (.write text) false])
      fun _ next => next.console.log = terminal.console.log ++ [.call (.write text) true] := by
  have hwrite : Ends (Console.write text : EStateM IoFault (Logged Event δ) Unit) terminal.console
      (fun _ next => next.log = terminal.console.log ++ [.call (.write text) false])
      fun _ next => next.log = terminal.console.log ++ [.call (.write text) true] :=
    Logged.ends_record terminal.console
  have houtput := ends_output "Write" hwrite
  rw [emit, if_neg (Bool.eq_false_iff.mp htext)]
  exact ends_request houtput

end

/-! ## What every request does -/

section

variable [Console δ] {change : Change Failure (Vt100 δ)} {writes : String → Prop}

/-- Every request to the console makes such a change, where only texts of some kind are written. -/
structure RequestsHave (change : Change Failure (Vt100 δ)) (writes : String → Prop) : Prop where
  write (text : String) (h : writes text) :
    Has change (request (output "Write" (Console.write text)))
  flush : Has change (request (output "Flush" Console.flush))
  size : Has change (request Console.size)
  place : Has change (request Console.cursor)
  moveTo (position : Position) : Has change (request (Console.moveTo position))

variable (h : RequestsHave change writes)

include h

theorem RequestsHave.emit {text : String} (htext : writes text) : Has change (Vt100.emit text) := by
  unfold Vt100.emit
  split
  · exact has_pure _
  · exact h.write text htext

theorem RequestsHave.columns : Has change Vt100.columns := h.size.bind fun _ => has_pure _

theorem RequestsHave.cursor : Has change Vt100.cursor := h.flush.bind fun _ => h.place

/-- **What every request does, every call that draws does.** -/
theorem RequestsHave.draws (hcells : ∀ cell : Cell, writes cell.text) (hleft : writes Sequence.left)
    (hwrapLeft : ∀ columns, writes (Sequence.wrapLeft columns)) (hright : writes Sequence.right)
    (hwrapRight : writes Sequence.wrapRight) : Session.DrawsHave change where
  columns := h.columns
  cursor := h.cursor
  setCursor _ := h.columns.bind fun _ => h.flush.bind fun _ => h.moveTo _
  put cell := h.emit (hcells cell)
  moveLeft := h.cursor.bind fun position => by
    split
    · exact h.emit hleft
    · exact h.columns.bind fun columns => h.emit (hwrapLeft columns)
  moveRight := h.columns.bind fun columns => h.cursor.bind fun position => by
    split
    · exact h.emit hright
    · exact h.emit hwrapRight
  flush := h.flush

end

/-- **What every request does, every call of a session does.** -/
theorem RequestsHave.calls [Console δ] {change : Change Failure (Vt100 δ)}
    (h : RequestsHave change fun _ => True) : Session.CallsHave change where
  toDrawsHave := h.draws (fun _ => trivial) trivial (fun _ => trivial) trivial trivial
  showCursor := (h.emit trivial).bind fun _ => h.flush
  hideCursor := h.emit trivial

section

variable [Console δ] {kind : Event → Prop}
  (h : ∀ call failed, call.isSwitch = false → kind (.call call failed))

include h

theorem requestsHave_grows :
    RequestsHave (grows kind : Change Failure (Vt100 (Logged Event δ))) fun _ => True where
  write _ _ := has_request (has_output _ (Logged.has_grows_record fun _ => h _ _ rfl))
  flush := has_request (has_output _ (Logged.has_grows_record fun _ => h _ _ rfl))
  size := has_request (Logged.has_grows_record fun _ => h _ _ rfl)
  place := has_request (Logged.has_grows_record fun _ => h _ _ rfl)
  moveTo _ := has_request (Logged.has_grows_record fun _ => h _ _ rfl)

/-- **Drawing and asking never switches the mode of the console.** -/
theorem callsHave_grows :
    Session.CallsHave (grows kind : Change Failure (Vt100 (Logged Event δ))) :=
  (requestsHave_grows h).calls

end

end Vt100

end LineEditor
