import LineEditor.Proofs.Reader.Noting
import LineEditor.Proofs.Terminal.Consoles
import LineEditor.Terminal.Recorder

/-!
# What has reached the device when a key is awaited

Every edit ends by letting the cursor appear, which flushes the output.  A mere movement of the caret
does not: its sequence may still wait when the next key is asked for.  Nothing else ever does.

* `Console.unflushed` — what was written and not flushed.
* `Vt100.AtRest` — nothing waits, or one movement of the caret.
* `Session.processKey_leads` — **the step**: a key that succeeds leaves the terminal at rest.
* `Session.waits_at_rest` — **the run**: the terminal is at rest whenever a key is asked for.
* `Session.movement_waits` — a movement that does wait.
-/

set_option autoImplicit false

open LineEditor.Action

namespace LineEditor

/-! ## What waits -/

namespace Console

/-- What waits after an event: a write adds its text, and a flush sends all on. -/
def awaited (waiting : List String) : Event → List String
  | .call (.write text) false => waiting ++ [text]
  | .call .flush false => []
  | _ => waiting

/-- The texts that were written and not flushed. -/
def unflushed (events : List Event) : List String := events.foldl awaited []

@[simp]
theorem unflushed_snoc (events : List Event) (event : Event) :
    unflushed (events ++ [event]) = awaited (unflushed events) event := by
  rw [unflushed, List.foldl_append, ← unflushed]
  rfl

/-- The sequences that move the cursor by one column. -/
inductive IsMovement : String → Prop where
  | left : IsMovement Sequence.left
  | wrapLeft (columns : Nat) : IsMovement (Sequence.wrapLeft columns)
  | right : IsMovement Sequence.right
  | wrapRight : IsMovement Sequence.wrapRight

theorem IsMovement.nonempty {text : String} (h : IsMovement text) : text.isEmpty = false := by
  cases h with
  | wrapLeft columns => simp [Sequence.wrapLeft, Sequence.rowUp, Sequence.escape]
  | _ => decide

/-- Nothing waits, or one movement of the cursor. -/
def AtRest (events : List Event) : Prop :=
  unflushed events = [] ∨ ∃ movement, IsMovement movement ∧ unflushed events = [movement]

/-- Whenever a key was asked for, the output was at rest. -/
def Attended (events : List Event) : Prop :=
  ∀ index : Nat, events[index]? = some .key → AtRest (events.take index)

theorem attended_nil : Attended [] := fun _ h => nomatch h

/-- Only the keys that are asked for in the new entries have to be looked at. -/
theorem Attended.extend {events entries : List Event} (h : Attended events)
    (hentries : ∀ index : Nat, entries[index]? = some .key → AtRest (events ++ entries.take index)) :
    Attended (events ++ entries) := by
  intro index hkey
  by_cases hindex : index < events.length
  · rw [List.getElem?_append_left hindex] at hkey
    rw [List.take_append_of_le_length (Nat.le_of_lt hindex)]
    exact h index hkey
  · rw [List.getElem?_append_right (by omega)] at hkey
    rw [List.take_append, List.take_of_length_le (by omega)]
    exact hentries _ hkey

theorem Attended.append {events entries : List Event} (h : Attended events)
    (hentries : ∀ entry ∈ entries, entry ≠ .key) : Attended (events ++ entries) :=
  h.extend fun _ hkey => absurd rfl (hentries _ (List.mem_of_getElem? hkey))

theorem Attended.key {events : List Event} (h : Attended events) (hrest : AtRest events) :
    Attended (events ++ [.key]) := by
  refine h.extend fun index hkey => ?_
  obtain ⟨hlength, -⟩ := List.getElem?_eq_some_iff.mp hkey
  have hfirst : index = 0 := Nat.lt_one_iff.mp hlength
  rwa [hfirst, List.take_zero, List.append_nil]

end Console

/-! ## Calls -/

namespace Vt100

open Console

variable {δ : Type} [Console δ]

/-- What waits in front of the device. -/
def waiting (terminal : Vt100 (Logged Event δ)) : List String := unflushed terminal.console.log

/-- The output of the terminal is at rest. -/
def AtRest (terminal : Vt100 (Logged Event δ)) : Prop := Console.AtRest terminal.console.log

omit [Console δ] in
/-- A question leaves what waits as it is. -/
theorem request_leads {α : Type} {call : Call} {step : Action δ α} {texts : List String}
    (h : ∀ waiting, awaited waiting (.call call false) = waiting) :
    Leads (fun terminal => terminal.waiting = texts) (fun terminal => terminal.waiting = texts)
      (request (Logged.record (entry call) step)) := by
  intro terminal hterminal
  refine (ends_request (Logged.ends_record terminal.console)).mono (fun _ next hlog => ?_)
    fun _ _ _ => trivial
  rw [waiting, hlog, unflushed_snoc]
  exact (h _).trans hterminal

theorem flush_leads :
    Leads (fun _ => True) (fun terminal : Vt100 (Logged Event δ) => terminal.waiting = []) flush := by
  intro terminal _
  refine (ends_flush terminal).mono (fun _ next hlog => ?_) fun _ _ _ => trivial
  simp [waiting, hlog, awaited]

theorem emit_leads {text : String} (htext : text.isEmpty = false) :
    Leads (fun terminal : Vt100 (Logged Event δ) => terminal.waiting = [])
      (fun terminal => terminal.waiting = [text]) (emit text) := by
  intro terminal hterminal
  refine (ends_emit terminal htext).mono (fun _ next hlog => ?_) fun _ _ _ => trivial
  have hnone : unflushed terminal.console.log = [] := hterminal
  simp [waiting, hlog, awaited, hnone]

theorem columns_leads {texts : List String} :
    Leads (fun terminal : Vt100 (Logged Event δ) => terminal.waiting = texts)
      (fun terminal => terminal.waiting = texts) columns :=
  (request_leads fun _ => rfl).bind fun _ => leads_pure _

theorem cursor_leads :
    Leads (fun _ => True) (fun terminal : Vt100 (Logged Event δ) => terminal.waiting = []) cursor :=
  flush_leads.bind fun _ => request_leads fun _ => rfl

theorem movement_leads {text : String} (hmovement : IsMovement text) :
    Leads (fun terminal : Vt100 (Logged Event δ) => terminal.waiting = []) AtRest (emit text) :=
  fun terminal h => (emit_leads hmovement.nonempty terminal h).mono
    (fun _ _ hnext => .inr ⟨text, hmovement, hnext⟩) fun _ _ h => h

/-- **A movement may wait, and nothing else does.** -/
theorem moveLeft_leads :
    Leads (fun _ => True) (AtRest : Vt100 (Logged Event δ) → Prop) Vt100.moveLeft := by
  refine cursor_leads.bind fun position => ?_
  split
  · exact movement_leads .left
  · exact columns_leads.bind fun columns => movement_leads (.wrapLeft columns)

theorem moveRight_leads :
    Leads (fun _ => True) (AtRest : Vt100 (Logged Event δ) → Prop) Vt100.moveRight := by
  refine leads_any.bind fun columns => cursor_leads.bind fun position => ?_
  split
  · exact movement_leads .right
  · exact movement_leads .wrapRight

/-- Letting the cursor appear sends on whatever waits. -/
theorem showCursor_leads :
    Leads (fun _ => True) (AtRest : Vt100 (Logged Event δ) → Prop) Vt100.showCursor :=
  leads_any.bind fun _ terminal h =>
    (flush_leads terminal h).mono (fun _ _ hnext => .inl hnext) fun _ _ h => h

end Vt100

/-! ## Keys -/

namespace Session

open Console

variable {δ κ : Type} [Console δ] {width : Char → Nat}

/-- The output of the terminal is at rest. -/
def Rests (session : Session (Vt100 (Logged Event δ))) : Prop := session.terminal.AtRest

omit [Console δ] in
theorem leads_onTerminal {α : Type} {before after : Vt100 (Logged Event δ) → Prop}
    {step : Action (Vt100 (Logged Event δ)) α} (h : Leads before after step) :
    Leads (fun session => before session.terminal) (fun session => after session.terminal)
      (onTerminal step) := fun session hsession =>
  (ends_onTerminal (h session.terminal hsession)).mono (fun _ _ => And.left) fun _ _ _ => trivial

theorem insert_leads (cell : Cell) :
    Leads (fun _ => True) (Rests : Session (Vt100 (Logged Event δ)) → Prop) (insert width cell) := by
  refine leads_any.bind fun start => leads_any.bind fun columns => leads_any.bind fun _ => ?_
  refine leads_any.bind fun _ => leads_any.bind fun caret => leads_any.bind fun session => ?_
  refine leads_any.bind fun _ => leads_any.bind fun _ => ?_
  exact (leads_onTerminal Vt100.showCursor_leads).bind fun _ => leads_modify fun _ h => h

theorem backspace_leads :
    Leads (fun _ => True) (Rests : Session (Vt100 (Logged Event δ)) → Prop) (backspace width) := by
  refine leads_any.bind fun _ => leads_any.bind fun session => leads_any.bind fun _ => ?_
  refine leads_any.bind fun _ => leads_any.bind fun caret => leads_any.bind fun session => ?_
  refine leads_any.bind fun _ => leads_any.bind fun session => leads_any.bind fun _ => ?_
  refine leads_any.bind fun _ => leads_any.bind fun _ => ?_
  exact leads_onTerminal Vt100.showCursor_leads

theorem moveRight_leads :
    Leads Rests (Rests : Session (Vt100 (Logged Event δ)) → Prop) (Session.moveRight width) := by
  refine leads_get.bind fun session => ?_
  refine Leads.bind (Leads.times (leads_onTerminal Vt100.moveRight_leads).of_any _) fun _ => ?_
  exact leads_modify fun _ h => h

theorem moveLeft_leads :
    Leads Rests (Rests : Session (Vt100 (Logged Event δ)) → Prop) (Session.moveLeft width) := by
  have hstep : Leads Rests (Rests : Session (Vt100 (Logged Event δ)) → Prop)
      (modify fun session => { session with position := session.position - 1 } :
        Action (Session (Vt100 (Logged Event δ))) PUnit) := fun _ h => h
  refine hstep.bind fun _ => leads_get.bind fun session => ?_
  exact Leads.times (leads_onTerminal Vt100.moveLeft_leads).of_any _

theorem obey_leads (key : Key) :
    Leads Rests (Rests : Session (Vt100 (Logged Event δ)) → Prop) (obey width key) := by
  have hnothing : Leads Rests (Rests : Session (Vt100 (Logged Event δ)) → Prop)
      (pure () : Action (Session (Vt100 (Logged Event δ))) Unit) := leads_pure ()
  refine leads_get.bind fun session => ?_
  cases key with
  | printable cell =>
    dsimp only
    split
    · exact (insert_leads cell).of_any
    · exact hnothing
  | control control =>
    cases control with
    | enter => exact leads_modify fun _ h => h
    | backspace =>
      dsimp only
      split
      · exact backspace_leads.of_any
      · exact hnothing
    | right =>
      dsimp only
      split
      · exact moveRight_leads
      · exact hnothing
    | left =>
      dsimp only
      split
      · exact moveLeft_leads
      · exact hnothing
    | _ => exact hnothing

/-- **A key that succeeds leaves the output at rest.** -/
theorem processKey_leads (key : Key) :
    Leads Rests (Rests : Session (Vt100 (Logged Event δ)) → Prop) (processKey width key) := by
  refine leads_get.bind fun session => ?_
  split
  · exact leads_pure _
  · exact (obey_leads key).bind fun _ => leads_get.bind fun session => leads_pure _

/-! ## A whole line -/

/-- The output was at rest whenever a key was asked for. -/
def Attended (session : Session (Vt100 (Logged Event δ))) : Prop :=
  Console.Attended session.terminal.console.log

/-- The output is at rest, and was whenever a key was asked for. -/
def Attends (session : Session (Vt100 (Logged Event δ))) : Prop := session.Rests ∧ session.Attended

omit [Console δ] in
theorem Attended.of_grows {session next : Session (Vt100 (Logged Event δ))} (h : session.Attended)
    (hgrows : Logged.Grows (fun event => event ≠ .key) session.terminal.console next.terminal.console) :
    next.Attended := by
  obtain ⟨entries, hlog, hentries⟩ := hgrows
  rw [Attended, hlog]
  exact h.append hentries

omit [Console δ] in
theorem Attends.noted {session : Session (Vt100 (Logged Event δ))} (h : session.Attends)
    (answer : Except Failure Key) : (session.noted (Vt100.noteKey answer)).Attends := by
  refine ⟨?_, Console.Attended.key h.2 h.1⟩
  change Console.AtRest (session.terminal.console.log ++ [.key])
  rw [Console.AtRest, unflushed_snoc]
  exact h.1

/-- The calls of a session ask for no key. -/
theorem callsHave_calls : CallsHave (Vt100.grows (fun event => event ≠ .key) :
    Change Failure (Vt100 (Logged Event δ))) := Vt100.callsHave_grows fun _ _ _ => nofun

theorem processKey_attends (key : Key) {session : Session (Vt100 (Logged Event δ))}
    (h : session.Attends) :
    Ends (processKey width key) session (fun _ next => next.Attends)
      fun _ next => next.Attended := by
  have hcalls := callsHave_calls.processKey width (fun _ _ => Logged.Grows.refl _) key session
  refine ((processKey_leads key session h.1).and hcalls).mono ?_ ?_
  · rintro _ next ⟨hrests, hgrows⟩
    exact ⟨hrests, h.2.of_grows hgrows⟩
  · rintro _ next ⟨-, hgrows⟩
    exact h.2.of_grows hgrows

variable [KeySource κ]

/-- The output is at rest whenever the loop asks for a key. -/
theorem readKeys_attends {session : Session (Vt100 (Logged Event δ))} (h : session.Attends)
    (keys : κ) :
    LoopEnds Attended (fun _ => Attended) (readKeysNoting Vt100.noteKey width session keys) := by
  have hloop : LoopEnds Attends (fun _ => Attended) (readKeysNoting Vt100.noteKey width session keys) :=
    readKeysNoting_ends width keys (fun _ _ h _ => h.noted _) (fun _ _ h _ => (h.noted _).2)
      (fun _ key h => processKey_attends key (h.noted _)) h
  exact hloop.mono (fun _ hlast => hlast.2) fun _ _ hlast => hlast

variable (width)

/-- The editing of one line with a log at the console. -/
def watched (terminator : String) (session : Session (Vt100 δ)) (keys : κ) :
    EStateM.Result Failure (Session (Vt100 (Logged Event δ)) × κ) Outcome :=
  runWith (readKeysNoting Vt100.noteKey) width terminator (session.mapTerminal Vt100.logged, keys)

/-- What the console is asked, and when keys are, while one line is edited. -/
def consoleLog (terminator : String) (session : Session (Vt100 δ)) (keys : κ) : List Event :=
  (state (watched width terminator session keys)).1.terminal.console.log

theorem forgets_watched (terminator : String) (session : Session (Vt100 δ)) (keys : κ) :
    mapState (Prod.map (mapTerminal Vt100.forget) id) (watched width terminator session keys) =
      run width terminator (session, keys) := by
  rw [← runWith_readKeys]
  exact mirrors_runWith width Vt100.callsMirror_forget
    (fun _ _ => forgets_readKeysNoting Vt100.callsMirror_forget Vt100.forget_noteKey) terminator _

/-- **Whenever a key is asked for, nothing waits in front of the device, or a single movement of the
caret.** -/
theorem waits_at_rest (terminator : String) (session : Session (Vt100 δ)) (keys : κ) :
    mapState (Prod.map (mapTerminal Vt100.forget) id) (watched width terminator session keys) =
      run width terminator (session, keys) ∧
    ∀ index : Nat, (consoleLog width terminator session keys)[index]? = some .key →
      AtRest ((consoleLog width terminator session keys).take index) := by
  refine ⟨forgets_watched width terminator session keys, ?_⟩
  have hstart : (session.mapTerminal Vt100.logged).Attends := ⟨.inl rfl, attended_nil⟩
  have hrun : Ends (runWith (readKeysNoting Vt100.noteKey) width terminator)
      (session.mapTerminal Vt100.logged, keys) (fun _ last => last.1.Attended)
      fun _ last => last.1.Attended :=
    runWith_ends (readKeys_attends hstart keys) fun last hlast =>
      (callsHave_calls.finish width terminator last).mono (fun _ _ => hlast.of_grows)
        fun _ _ => hlast.of_grows
  rw [consoleLog]
  cases hwatched : watched width terminator session keys with
  | ok outcome last => exact hrun.of_ok hwatched
  | error failure last => exact hrun.of_error hwatched

/-- On a console that never fails, the movement of Left waits while the next key is asked for. -/
theorem movement_waits :
    ∃ (console : Recorder) (session : Session (Vt100 Recorder)) (after : Memory) (index : Nat),
      (∀ call count, console.fails call count = false) ∧
      create { console : Vt100 Recorder } {} Memory.machine = .ok session after ∧
      (consoleLog (fun _ => 1) "" session (KeyScript.ofKeys [Key.ofChar 'a', .control .left]))[index]? =
        some .key ∧
      unflushed ((consoleLog (fun _ => 1) "" session
        (KeyScript.ofKeys [Key.ofChar 'a', .control .left])).take index) = [Sequence.left] := by
  let console : Recorder := { size := ⟨80, 24⟩, cursor := ⟨1, 0⟩ }
  exact ⟨console, _, _, 17, fun _ _ => rfl, rfl, by decide +kernel, by decide +kernel⟩

end Session

end LineEditor
