import LineEditor.Proofs.Terminal.Consoles

/-!
# Any calls to a VT100 terminal

A call to a VT100 terminal comes to a few calls to its console, in an order that is fixed but for the
answers, and stops at the first of them that fails.  All that is said of single calls follows from this
order.

* `Terminal.Call.make` — the call itself.
* `Vt100.Operation`, `Vt100.reached` — a terminal behind any calls, the failed ones included, and behind
  clearings of its failure; `forget_reached` — a log changes nothing.
* `Vt100.Asks` — the calls to the console that a call comes to if none of them fails.
* `Vt100.Writes`, `Vt100.make_writes` — **the step**: these calls are written down, up to one that fails,
  and just its failure is remembered.
-/

set_option autoImplicit false

open LineEditor.Action

namespace LineEditor

/-! ## Making calls -/

/-- Make a call, whatever it answers. -/
def Terminal.Call.make {τ : Type} [Terminal τ] : Terminal.Call → Action τ Unit
  | .size => do
    let _ ← Terminal.size
    return ()
  | .columns => do
    let _ ← Terminal.columns
    return ()
  | .cursor => do
    let _ ← Terminal.cursor
    return ()
  | .setCursor position => Terminal.setCursor position
  | .put cell => Terminal.put cell
  | .moveLeft => Terminal.moveLeft
  | .moveRight => Terminal.moveRight
  | .moveDown count => Terminal.moveDown count
  | .moveUp count => Terminal.moveUp count
  | .moveToColumn column => Terminal.moveToColumn column
  | .showCursor => Terminal.showCursor
  | .hideCursor => Terminal.hideCursor
  | .enterRawMode => Terminal.enterRawMode
  | .leaveRawMode => Terminal.leaveRawMode
  | .flush => Terminal.flush

namespace Console

/-- Does the call write? -/
def Call.isWrite : Call → Bool
  | .write _ => true
  | _ => false

/-- What is written down of calls that do not fail. -/
def passed (calls : List Call) : List Event := calls.map (.call · false)

/-- What is written down of calls that are made in order, up to the first that fails, and whether one
fails. -/
inductive Noted : List Call → List Event → Bool → Prop where
  | done : Noted [] [] false
  | fail {call : Call} {rest : List Call} : Noted (call :: rest) [.call call true] true
  | pass {call : Call} {calls : List Call} {entries : List Event} {fails : Bool}
      (h : Noted calls entries fails) : Noted (call :: calls) (.call call false :: entries) fails

theorem passed_append (calls more : List Call) : passed (calls ++ more) = passed calls ++ passed more :=
  List.map_append

theorem noted_passed (calls : List Call) : Noted calls (passed calls) false := by
  induction calls with
  | nil => exact .done
  | cons call calls ih => exact .pass ih

theorem noted_cut (calls : List Call) (call : Call) (rest : List Call) :
    Noted (calls ++ call :: rest) (passed calls ++ [.call call true]) true := by
  induction calls with
  | nil => exact .fail
  | cons earlier calls ih => exact .pass ih

/-- **In front of each entry nothing has failed**; behind it the rest is made, unless it has failed. -/
theorem Noted.split {calls : List Call} {front back : List Event} {asked : Call} {failed fails : Bool}
    (h : Noted calls (front ++ .call asked failed :: back) fails) :
    ∃ earlier rest, calls = earlier ++ asked :: rest ∧ front = passed earlier ∧
      (failed = true ∧ back = [] ∧ fails = true ∨ failed = false ∧ Noted rest back fails) := by
  induction front generalizing calls with
  | nil =>
    cases h with
    | @fail _ rest => exact ⟨[], rest, rfl, rfl, .inl ⟨rfl, rfl, rfl⟩⟩
    | @pass _ rest _ _ h => exact ⟨[], rest, rfl, rfl, .inr ⟨rfl, h⟩⟩
  | cons entry front ih =>
    rw [List.cons_append] at h
    generalize hmiddle : front ++ .call asked failed :: back = middle at h ih
    cases h with
    | fail => simp at hmiddle
    | @pass call calls _ _ h =>
      obtain ⟨earlier, rest, rfl, rfl, hback⟩ := ih h
      exact ⟨call :: earlier, rest, rfl, rfl, hback⟩

end Console

namespace Vt100

open Console

variable {δ : Type} [Console δ]

/-- What is done with a terminal. -/
inductive Operation where
  | call (call : Terminal.Call)
  | clearFailure

/-- The terminal behind an operation, also if it fails. -/
def Operation.after : Operation → Vt100 δ → Vt100 δ
  | .call asked, terminal => state (asked.make terminal)
  | .clearFailure, terminal => terminal.clearFailure

/-- The terminal behind some operations, the failed ones included. -/
def reached : List Operation → Vt100 δ → Vt100 δ
  | [], terminal => terminal
  | operation :: operations, terminal => reached operations (operation.after terminal)

/-! ## The log changes nothing -/

theorem mirrors_make (call : Terminal.Call) (terminal : Vt100 (Logged Event δ)) :
    Mirrors forget call.make call.make terminal := by
  have hcalls := callsMirror_forget (δ := δ)
  cases call with
  | size => exact (mirrors_request Logged.mirrors_record terminal).bind fun _ _ => mirrors_pure _
  | columns => exact (hcalls.columns terminal).bind fun _ _ => mirrors_pure _
  | cursor => exact (hcalls.cursor terminal).bind fun _ _ => mirrors_pure _
  | setCursor position => exact hcalls.setCursor position terminal
  | put cell => exact hcalls.put cell terminal
  | moveLeft => exact hcalls.moveLeft terminal
  | moveRight => exact hcalls.moveRight terminal
  | moveDown count => exact mirrors_emit terminal (Sequence.down count)
  | moveUp count => exact mirrors_emit terminal (Sequence.up count)
  | moveToColumn column => exact mirrors_emit terminal (Sequence.toColumn column)
  | showCursor => exact hcalls.showCursor terminal
  | hideCursor => exact hcalls.hideCursor terminal
  | enterRawMode | leaveRawMode =>
    exact (mirrors_flush terminal).bind fun _ => mirrors_request Logged.mirrors_record
  | flush => exact hcalls.flush terminal

theorem forget_after (operation : Operation) (terminal : Vt100 (Logged Event δ)) :
    (operation.after terminal).forget = operation.after terminal.forget := by
  cases operation with
  | call call =>
    have hmake : mapState forget (call.make terminal) = call.make terminal.forget :=
      mirrors_make call terminal
    rw [Operation.after, Operation.after, ← hmake, state_mapState]
  | clearFailure => rfl

/-- **A terminal with a log at its console is the terminal.** -/
theorem forget_reached (operations : List Operation) (terminal : Vt100 (Logged Event δ)) :
    (reached operations terminal).forget = reached operations terminal.forget := by
  induction operations generalizing terminal with
  | nil => rfl
  | cons operation operations ih => rw [reached, reached, ih, forget_after]

/-! ## What a call asks of the console -/

/-- A text is written, unless it is empty. -/
def written (text : String) : List Console.Call := if text.isEmpty then [] else [.write text]

@[simp]
theorem mem_written {asked : Console.Call} {text : String} :
    asked ∈ written text ↔ text.isEmpty = false ∧ asked = .write text := by
  unfold written
  split <;> simp_all

/-- The calls to the console that a call comes to if none of them fails, in order. -/
inductive Asks (console : δ) : Terminal.Call → List Console.Call → Prop where
  | size : Asks console .size [.size]
  | columns : Asks console .columns [.size]
  | cursor : Asks console .cursor [.flush, .cursor]
  | setCursor {position : Position} {size : Size} {next : δ} (hsize : Console.size console = .ok size next) :
    Asks console (.setCursor position) [.size, .flush, .moveTo (position.wrap size.columns)]
  /-- where the console does not tell its size, there is nothing to ask for behind that -/
  | setCursorBlind {position : Position} {failure : Failure} {next : δ}
      (hsize : Console.size console = .error failure next) : Asks console (.setCursor position) [.size]
  | put {cell : Cell} : Asks console (.put cell) (written cell.text)
  | left : Asks console .moveLeft ([.flush, .cursor] ++ written Sequence.left)
  | wrapLeft {columns : Nat} :
    Asks console .moveLeft ([.flush, .cursor, .size] ++ written (Sequence.wrapLeft columns))
  | right : Asks console .moveRight ([.size, .flush, .cursor] ++ written Sequence.right)
  | wrapRight : Asks console .moveRight ([.size, .flush, .cursor] ++ written Sequence.wrapRight)
  | moveDown {count : Nat} : Asks console (.moveDown count) (written (Sequence.down count))
  | moveUp {count : Nat} : Asks console (.moveUp count) (written (Sequence.up count))
  | moveToColumn {column : Nat} : Asks console (.moveToColumn column) (written (Sequence.toColumn column))
  | showCursor : Asks console .showCursor (written Sequence.showCursor ++ [.flush])
  | hideCursor : Asks console .hideCursor (written Sequence.hideCursor)
  | enterRawMode : Asks console .enterRawMode [.flush, .enableRawMode]
  | leaveRawMode : Asks console .leaveRawMode [.flush, .disableRawMode]
  | flush : Asks console .flush [.flush]

/-- What is written down of a call, and whether it fails: the calls that it asks for, up to the first
that fails. -/
def Writes (console : δ) (call : Terminal.Call) (entries : List Event) (fails : Bool) : Prop :=
  ∃ calls, Asks console call calls ∧ Noted calls entries fails

/-- Behind these calls to the console, of which none has failed. -/
structure Made (start : Vt100 (Logged Event δ)) (calls : List Console.Call)
    (terminal : Vt100 (Logged Event δ)) : Prop where
  log : terminal.console.log = start.console.log ++ passed calls
  lastFailure : terminal.lastFailure = start.lastFailure

/-- Behind a call that has succeeded. -/
def Done (start : Vt100 (Logged Event δ)) (call : Terminal.Call) (next : Vt100 (Logged Event δ)) : Prop :=
  ∃ calls, Asks start.console.base call calls ∧ Made start calls next

/-- Behind a call that has failed. -/
def Failed (start : Vt100 (Logged Event δ)) (call : Terminal.Call) (failure : Failure)
    (next : Vt100 (Logged Event δ)) : Prop :=
  next.lastFailure = some failure ∧
    ∃ entries, Writes start.console.base call entries true ∧
      next.console.log = start.console.log ++ entries

/-- A step that makes one call to the console, and writes it down. -/
def Calls {α : Type} (asked : Console.Call) (step : Action (Logged Event δ) α) : Prop :=
  ∀ console, Ends step console (fun _ next => next.log = console.log ++ [.call asked false])
    fun _ next => next.log = console.log ++ [.call asked true]

section

variable {α : Type} {asked : Console.Call}

omit [Console δ] in
theorem calls_record {step : Action δ α} : Calls asked (Logged.record (entry asked) step) :=
  fun console => Logged.ends_record console

omit [Console δ] in
theorem calls_output (attempt : String) {step : EStateM IoFault δ Unit} :
    Calls asked (output attempt (Logged.record (entry asked) step)) :=
  fun console => ends_output attempt (Logged.ends_record console)

variable {start terminal : Vt100 (Logged Event δ)} {calls : List Console.Call} {call : Terminal.Call}

omit [Console δ] in
theorem made_start (start : Vt100 (Logged Event δ)) : Made start [] start :=
  ⟨(List.append_nil _).symm, rfl⟩

/-- **One more call to the console**: it is made, or it fails and is the last. -/
theorem Made.request {step : Action (Logged Event δ) α} (h : Made start calls terminal)
    (hstep : Calls asked step) (hasks : ∃ rest, Asks start.console.base call (calls ++ asked :: rest)) :
    Ends (request step) terminal
      (fun value next => step terminal.console = .ok value next.console ∧ Made start (calls ++ [asked]) next)
      (Failed start call) := by
  have hends := hstep terminal.console
  unfold Ends Vt100.request
  cases hrun : step terminal.console with
  | ok value console =>
    have hlog := hends.of_ok hrun
    refine ⟨rfl, ?_, h.lastFailure⟩
    simp [hlog, h.log, passed]
  | error failure console =>
    have hlog := hends.of_error hrun
    obtain ⟨rest, hasks⟩ := hasks
    refine ⟨rfl, _, ⟨_, hasks, noted_cut calls asked rest⟩, ?_⟩
    rw [hlog, h.log, List.append_assoc]

theorem Made.flush (h : Made start calls terminal)
    (hasks : ∃ rest, Asks start.console.base call (calls ++ .flush :: rest)) :
    Ends Vt100.flush terminal (fun _ next => Made start (calls ++ [.flush]) next) (Failed start call) :=
  (h.request (calls_output "Flush") hasks).mono (fun _ _ => And.right) fun _ _ => id

theorem Made.place (h : Made start calls terminal)
    (hasks : ∃ rest, Asks start.console.base call (calls ++ .cursor :: rest)) :
    Ends (Vt100.request Console.cursor) terminal (fun _ next => Made start (calls ++ [.cursor]) next)
      (Failed start call) :=
  (h.request calls_record hasks).mono (fun _ _ => And.right) fun _ _ => id

theorem Made.columns (h : Made start calls terminal)
    (hasks : ∃ rest, Asks start.console.base call (calls ++ .size :: rest)) :
    Ends Vt100.columns terminal (fun _ next => Made start (calls ++ [.size]) next) (Failed start call) :=
  (h.request calls_record hasks).bind fun _ _ hmade => ends_pure hmade.2

theorem Made.emit {text : String} (h : Made start calls terminal)
    (hasks : ∃ rest, Asks start.console.base call (calls ++ (written text ++ rest))) :
    Ends (Vt100.emit text) terminal (fun _ next => Made start (calls ++ written text) next)
      (Failed start call) := by
  by_cases hempty : text.isEmpty = true
  · have hwritten : written text = [] := if_pos hempty
    rw [Vt100.emit, if_pos hempty, hwritten, List.append_nil]
    exact ends_pure h
  · have hwritten : written text = [.write text] := if_neg hempty
    rw [hwritten] at hasks
    rw [Vt100.emit, if_neg hempty, hwritten]
    exact (h.request (calls_output "Write") hasks).mono (fun _ _ => And.right) fun _ _ => id

/-- A text that a call writes at its end. -/
theorem Made.emits (h : Made start calls terminal) (text : String)
    (hasks : Asks start.console.base call (calls ++ written text)) :
    Ends (Vt100.emit text) terminal (fun _ next => Done start call next) (Failed start call) := by
  have hrest : ∃ rest, Asks start.console.base call (calls ++ (written text ++ rest)) := by
    refine ⟨[], ?_⟩
    rwa [List.append_nil]
  exact (h.emit hrest).mono (fun _ _ hmade => ⟨_, hasks, hmade⟩) fun _ _ => id

/-- A call to the console that a call ends with. -/
theorem Made.requests {step : Action (Logged Event δ) α} (h : Made start calls terminal)
    (hstep : Calls asked step) (hasks : Asks start.console.base call (calls ++ [asked])) :
    Ends (Vt100.request step) terminal (fun _ next => Done start call next) (Failed start call) :=
  (h.request hstep ⟨[], hasks⟩).mono (fun _ _ hmade => ⟨_, hasks, hmade.2⟩) fun _ _ => id

/-- Whether the cursor can be placed depends on the size, which is asked for first. -/
theorem ends_setCursor (start : Vt100 (Logged Event δ)) (position : Position) :
    Ends (Vt100.setCursor position) start (fun _ next => Done start (.setCursor position) next)
      (Failed start (.setCursor position)) := by
  have hstart := made_start start
  cases hsize : Console.size start.console.base with
  | error failure next =>
    have hrecord : (Console.size : Action (Logged Event δ) Size) start.console =
        .error failure ⟨next, start.console.log ++ [.call .size true]⟩ := Logged.record_error hsize
    have hfails : Ends Vt100.columns start (fun _ _ => False) (Failed start (.setCursor position)) := by
      refine (hstart.request calls_record ⟨[], .setCursorBlind hsize⟩).bind ?_
      rintro size next ⟨hrun, -⟩
      cases hrecord.symm.trans hrun
    exact hfails.bind fun _ _ => False.elim
  | ok size next =>
    have hrecord : (Console.size : Action (Logged Event δ) Size) start.console =
        .ok size ⟨next, start.console.log ++ [.call .size false]⟩ := Logged.record_ok hsize
    have hcolumns : Ends Vt100.columns start (fun columns next => columns = size.columns ∧
        Made start [.size] next) (Failed start (.setCursor position)) := by
      refine (hstart.request calls_record ⟨_, .setCursor hsize⟩).bind ?_
      rintro answered next ⟨hrun, hmade⟩
      obtain ⟨rfl, -⟩ := EStateM.Result.ok.inj (hrecord.symm.trans hrun)
      exact ends_pure ⟨rfl, hmade⟩
    refine hcolumns.bind ?_
    rintro _ terminal ⟨rfl, hmade⟩
    refine (hmade.flush ⟨_, .setCursor hsize⟩).bind fun _ terminal hmade => ?_
    exact hmade.requests calls_record (.setCursor hsize)

theorem ends_moveLeft (start : Vt100 (Logged Event δ)) :
    Ends Vt100.moveLeft start (fun _ next => Done start .moveLeft next) (Failed start .moveLeft) := by
  have hplace : Ends Vt100.cursor start (fun _ next => Made start [.flush, .cursor] next)
      (Failed start .moveLeft) :=
    ((made_start start).flush ⟨_, .left⟩).bind fun _ _ hmade => hmade.place ⟨_, .left⟩
  refine hplace.bind fun position terminal hmade => ?_
  split
  · exact hmade.emits Sequence.left .left
  · refine (hmade.columns ⟨written (Sequence.wrapLeft 0), .wrapLeft⟩).bind fun columns terminal hmade => ?_
    exact hmade.emits (Sequence.wrapLeft columns) .wrapLeft

theorem ends_moveRight (start : Vt100 (Logged Event δ)) :
    Ends Vt100.moveRight start (fun _ next => Done start .moveRight next) (Failed start .moveRight) := by
  refine ((made_start start).columns ⟨_, .right⟩).bind fun columns terminal hmade => ?_
  have hplace : Ends Vt100.cursor terminal (fun _ next => Made start [.size, .flush, .cursor] next)
      (Failed start .moveRight) :=
    (hmade.flush ⟨_, .right⟩).bind fun _ _ hmade => hmade.place ⟨_, .right⟩
  refine hplace.bind fun position terminal hmade => ?_
  split
  · exact hmade.emits Sequence.right .right
  · exact hmade.emits Sequence.wrapRight .wrapRight

end

/-- **A call makes the calls to the console that it asks for**, in order and up to the first that fails;
if one fails its failure is remembered, and otherwise what was remembered before. -/
theorem make_writes (call : Terminal.Call) (terminal : Vt100 (Logged Event δ)) :
    Ends call.make terminal
      (fun _ next => next.lastFailure = terminal.lastFailure ∧
        ∃ entries, Writes terminal.console.base call entries false ∧
          next.console.log = terminal.console.log ++ entries)
      (Failed terminal call) := by
  have hstart := made_start terminal
  suffices h : Ends call.make terminal (fun _ next => Done terminal call next) (Failed terminal call) by
    refine h.mono ?_ fun _ _ => id
    rintro _ next ⟨calls, hasks, hmade⟩
    exact ⟨hmade.lastFailure, _, ⟨calls, hasks, noted_passed calls⟩, hmade.log⟩
  cases call with
  | size => exact (hstart.requests calls_record .size).bind fun _ _ h => ends_pure h
  | columns => exact (hstart.columns ⟨[], .columns⟩).bind fun _ _ h => ends_pure ⟨_, .columns, h⟩
  | cursor =>
    have hplace : Ends Vt100.cursor terminal (fun _ next => Done terminal .cursor next)
        (Failed terminal .cursor) :=
      (hstart.flush ⟨_, .cursor⟩).bind fun _ _ h => h.requests calls_record .cursor
    exact hplace.bind fun _ _ h => ends_pure h
  | setCursor position => exact ends_setCursor terminal position
  | put cell => exact hstart.emits cell.text .put
  | moveLeft => exact ends_moveLeft terminal
  | moveRight => exact ends_moveRight terminal
  | moveDown count => exact hstart.emits (Sequence.down count) .moveDown
  | moveUp count => exact hstart.emits (Sequence.up count) .moveUp
  | moveToColumn column => exact hstart.emits (Sequence.toColumn column) .moveToColumn
  | showCursor =>
    refine (hstart.emit ⟨_, .showCursor⟩).bind fun _ _ h => ?_
    exact h.requests (calls_output "Flush") .showCursor
  | hideCursor => exact hstart.emits Sequence.hideCursor .hideCursor
  | enterRawMode =>
    exact (hstart.flush ⟨_, .enterRawMode⟩).bind fun _ _ h => h.requests calls_record .enterRawMode
  | leaveRawMode =>
    exact (hstart.flush ⟨_, .leaveRawMode⟩).bind fun _ _ h => h.requests calls_record .leaveRawMode
  | flush => exact hstart.requests (calls_output "Flush") .flush

/-- What any call adds to the log. -/
theorem make_log (call : Terminal.Call) (terminal : Vt100 (Logged Event δ)) :
    ∃ entries fails, Writes terminal.console.base call entries fails ∧
      (state (call.make terminal)).console.log = terminal.console.log ++ entries := by
  have hwrites := make_writes call terminal
  cases hmake : call.make terminal with
  | ok value next =>
    obtain ⟨-, entries, hwrites, hlog⟩ := hwrites.of_ok hmake
    exact ⟨entries, false, hwrites, hlog⟩
  | error failure next =>
    obtain ⟨-, entries, hwrites, hlog⟩ := hwrites.of_error hmake
    exact ⟨entries, true, hwrites, hlog⟩

end Vt100

end LineEditor
