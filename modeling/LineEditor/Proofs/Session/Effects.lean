import LineEditor.Proofs.Action.Outcomes
import LineEditor.Session

/-!
# What a session does to its terminal

A session reaches its terminal only through calls.  Whatever change each call makes, the session makes
as a whole; and whatever image of the terminal each call respects, the session respects.

* `StepsHave` — every step that a key takes makes a change of some kind; `StepsHave.processKey` — so does
  the key.
* `DrawsHave`, `CallsHave` — every call makes a change of some kind; `CallsHave.processKey`,
  `DrawsHave.finish` — so does a key, and so does the end of the line.
* `framed` — a change of the terminal and of nothing else.
* `CallsMirror` — every call ends on the image of a terminal as it does on the terminal;
  `CallsMirror.processKey`, `CallsMirror.finish` — so does a key, and so does the end of the line.
-/

set_option autoImplicit false

open LineEditor.Action

namespace LineEditor.Session

variable {τ τ' α : Type}

/-! ## Changes of the terminal -/

/-- The terminal changes in the given way, and nothing else does. -/
def framed (change : Change Failure τ) : Change Failure (Session τ) where
  passes s t := change.passes s.terminal t.terminal ∧ t = { s with terminal := t.terminal }
  fails s failure t :=
    change.fails s.terminal failure t.terminal ∧ t = { s with terminal := t.terminal }
  refl s := ⟨change.refl s.terminal, rfl⟩
  trans := by
    rintro s t u ⟨hst, ht⟩ ⟨htu, hu⟩
    refine ⟨change.trans hst htu, ?_⟩
    rw [hu, ht]
  fails_after := by
    rintro s t u failure ⟨hst, ht⟩ ⟨htu, hu⟩
    refine ⟨change.fails_after hst htu, ?_⟩
    rw [hu, ht]

section

variable {change : Change Failure τ}

/-- A step on the terminal ends as it does there, and nothing else changes. -/
theorem ends_onTerminal {step : Action τ α} {s : Session τ} {passed : α → τ → Prop}
    {failed : Failure → τ → Prop} (h : Ends step s.terminal passed failed) :
    Ends (onTerminal step) s
      (fun value t => passed value t.terminal ∧ t = { s with terminal := t.terminal })
      fun failure t => failed failure t.terminal ∧ t = { s with terminal := t.terminal } := by
  unfold Ends onTerminal within
  cases hstep : step s.terminal with
  | ok value terminal => exact ⟨h.of_ok hstep, rfl⟩
  | error failure terminal => exact ⟨h.of_error hstep, rfl⟩

theorem framed_onTerminal {step : Action τ α} (h : Has change step) :
    Has (framed change) (onTerminal step) := fun s => ends_onTerminal (h s.terminal)

theorem along_of_framed {step : Action (Session τ) α} (h : Has (framed change) step) :
    Has (change.along Session.terminal) step :=
  fun s => (h s).mono (fun _ _ => And.left) fun _ _ => And.left

theorem along_onTerminal {step : Action τ α} (h : Has change step) :
    Has (change.along Session.terminal) (onTerminal step) := along_of_framed (framed_onTerminal h)

/-- A step on the line leaves the terminal as it is, also where it fails. -/
theorem along_onLine (hline : ∀ s failure, change.fails s failure s)
    (step : EStateM Line.Fault Line α) : Has (change.along Session.terminal) (onLine step) := by
  intro s
  cases hstep : step s.line with
  | ok value line =>
    have hrun : onLine step s = .ok value { s with line } := by rw [onLine, hstep]
    exact ends_of_ok hrun (change.refl s.terminal)
  | error fault line =>
    have hrun : onLine step s = .error fault.toFailure { s with line } := by rw [onLine, hstep]
    exact ends_of_error hrun (hline s.terminal _)

end

/-! ## Changes that every step makes -/

variable [Terminal τ] [Terminal τ']

/-- Every step that a key takes makes such a change: the calls to the terminal, the operations on the line,
and what becomes of the caret and of the phase. -/
structure StepsHave (change : Change Failure (Session τ)) : Prop where
  columns : Has change (onTerminal (Terminal.columns : Action τ Nat))
  cursor : Has change (onTerminal (Terminal.cursor : Action τ Position))
  setCursor (position : Position) : Has change (onTerminal (Terminal.setCursor position : Action τ Unit))
  put (cell : Cell) : Has change (onTerminal (Terminal.put cell : Action τ Unit))
  print (width : Char → Nat) (cell : Cell) (start : Position) (columns : Nat) :
    Has change (onTerminal (print width cell start columns : Action τ Unit))
  moveLeft : Has change (onTerminal (Terminal.moveLeft : Action τ Unit))
  moveRight : Has change (onTerminal (Terminal.moveRight : Action τ Unit))
  showCursor : Has change (onTerminal (Terminal.showCursor : Action τ Unit))
  hideCursor : Has change (onTerminal (Terminal.hideCursor : Action τ Unit))
  append (cell : Cell) : Has change (onLine (Line.append cell))
  insert (cell : Cell) (index : Nat) : Has change (onLine (Line.insert cell index))
  erase (index : Nat) : Has change (onLine (Line.erase index))
  caret (s : Session τ) (position : Nat) : change.passes s { s with position }
  phase (s : Session τ) (phase : Phase) : change.passes s { s with phase }

section

variable {change : Change Failure (Session τ)} (width : Char → Nat)

theorem has_moveRight (hmove : Has change (onTerminal (Terminal.moveRight : Action τ Unit)))
    (hcaret : ∀ (s : Session τ) (position : Nat), change.passes s { s with position }) :
    Has change (Session.moveRight width) :=
  has_get_bind fun _ => (hmove.times _).bind fun _ => has_modify fun s => hcaret s _

theorem has_moveLeft (hmove : Has change (onTerminal (Terminal.moveLeft : Action τ Unit)))
    (hcaret : ∀ (s : Session τ) (position : Nat), change.passes s { s with position }) :
    Has change (Session.moveLeft width) :=
  Has.bind (has_modify fun s => hcaret s _) fun _ => has_get_bind fun _ => hmove.times _

variable (h : StepsHave change)

include h

omit width in
theorem StepsHave.putAll (cells : List Cell) : Has change (putAll cells : Action (Session τ) Unit) :=
  has_forEach h.put cells

theorem StepsHave.insertCell (cell : Cell) : Has change (Session.insert width cell) := by
  refine h.cursor.bind fun start => h.columns.bind fun columns => ?_
  refine Has.bind ?_ fun _ => (h.print width cell start columns).bind fun _ => ?_
  · refine has_get_bind fun s => ?_
    split
    · exact h.append cell
    · exact h.insert cell _
  refine h.cursor.bind fun caret => has_get_bind fun s => (h.putAll _).bind fun _ => ?_
  exact (h.setCursor caret).bind fun _ => h.showCursor.bind fun _ => has_modify fun s => h.caret s _

theorem StepsHave.backspace : Has change (Session.backspace width) := by
  refine h.hideCursor.bind fun _ => has_get_bind fun s => (h.moveLeft.times _).bind fun _ => ?_
  refine Has.bind (has_modify fun s => h.caret s _) fun _ => h.cursor.bind fun caret => ?_
  refine has_get_bind fun s => (h.erase _).bind fun _ => has_get_bind fun s => ?_
  refine (h.putAll _).bind fun _ => ((h.put Cell.space).times _).bind fun _ => ?_
  exact (h.setCursor caret).bind fun _ => h.showCursor

theorem StepsHave.obey (key : Key) : Has change (Session.obey width key) := by
  have hnothing : Has change (pure () : Action (Session τ) Unit) := has_pure ()
  refine has_get_bind fun s => ?_
  cases key with
  | printable cell =>
    dsimp only
    split
    · exact h.insertCell width cell
    · exact hnothing
  | control control =>
    cases control with
    | enter => exact has_modify fun s => h.phase s _
    | backspace =>
      dsimp only
      split
      · exact h.backspace width
      · exact hnothing
    | right =>
      dsimp only
      split
      · exact has_moveRight width h.moveRight h.caret
      · exact hnothing
    | left =>
      dsimp only
      split
      · exact has_moveLeft width h.moveLeft h.caret
      · exact hnothing
    | _ => exact hnothing

/-- **A key makes the change that every step makes.** -/
theorem StepsHave.processKey (key : Key) : Has change (Session.processKey width key) := by
  refine has_get_bind fun s => ?_
  split
  · exact has_pure _
  · exact (h.obey width key).bind fun _ => has_get_bind fun s => has_pure _

end

/-! ## Changes that every call makes -/

/-- Every call that a session makes to its terminal makes such a change, but for those that let the
cursor appear and disappear. -/
structure DrawsHave (change : Change Failure τ) : Prop where
  columns : Has change (Terminal.columns : Action τ Nat)
  cursor : Has change (Terminal.cursor : Action τ Position)
  setCursor (position : Position) : Has change (Terminal.setCursor position : Action τ Unit)
  put (cell : Cell) : Has change (Terminal.put cell : Action τ Unit)
  moveLeft : Has change (Terminal.moveLeft : Action τ Unit)
  moveRight : Has change (Terminal.moveRight : Action τ Unit)
  flush : Has change (Terminal.flush : Action τ Unit)

/-- Every call that a session makes to its terminal makes such a change. -/
structure CallsHave (change : Change Failure τ) : Prop extends DrawsHave change where
  showCursor : Has change (Terminal.showCursor : Action τ Unit)
  hideCursor : Has change (Terminal.hideCursor : Action τ Unit)

section

variable {change : Change Failure τ} (width : Char → Nat) (h : DrawsHave change)

include h

theorem DrawsHave.putAll (cells : List Cell) :
    Has (framed change) (putAll cells : Action (Session τ) Unit) :=
  has_forEach (fun cell => framed_onTerminal (h.put cell)) cells

theorem DrawsHave.right : Has (change.along Session.terminal) (Session.moveRight width) :=
  has_moveRight width (along_onTerminal h.moveRight) fun s _ => change.refl s.terminal

theorem DrawsHave.left : Has (change.along Session.terminal) (Session.moveLeft width) :=
  has_moveLeft width (along_onTerminal h.moveLeft) fun s _ => change.refl s.terminal

/-- **The end of a line makes the change that every call makes.** -/
theorem DrawsHave.finish (terminator : String) :
    Has (change.along Session.terminal) (finish width terminator) := by
  refine has_get_bind fun s => ?_
  refine ((h.right width).times _).bind fun _ => ?_
  refine (along_of_framed (h.putAll _)).bind fun _ => (along_onTerminal h.flush).bind fun _ => ?_
  exact has_get_bind fun s => has_pure _

end

section

variable {change : Change Failure τ} (width : Char → Nat) (h : CallsHave change)

include h

theorem CallsHave.print (cell : Cell) (start : Position) (columns : Nat) :
    Has change (print width cell start columns : Action τ Unit) := by
  refine h.hideCursor.bind fun _ => (h.put cell).bind fun _ => ?_
  split
  · exact (h.put Cell.space).bind fun _ => h.moveLeft
  · exact has_pure _

variable (hline : ∀ s failure, change.fails s failure s)

include hline

omit width in
/-- Where every call makes a change of the terminal, every step does. -/
theorem CallsHave.steps : StepsHave (change.along Session.terminal) where
  columns := along_onTerminal h.columns
  cursor := along_onTerminal h.cursor
  setCursor position := along_onTerminal (h.setCursor position)
  put cell := along_onTerminal (h.put cell)
  print width cell start columns := along_onTerminal (h.print width cell start columns)
  moveLeft := along_onTerminal h.moveLeft
  moveRight := along_onTerminal h.moveRight
  showCursor := along_onTerminal h.showCursor
  hideCursor := along_onTerminal h.hideCursor
  append _ := along_onLine hline _
  insert _ _ := along_onLine hline _
  erase _ := along_onLine hline _
  caret s _ := change.refl s.terminal
  phase s _ := change.refl s.terminal

/-- **A key makes the change that every call makes.** -/
theorem CallsHave.processKey (key : Key) :
    Has (change.along Session.terminal) (processKey width key) := (h.steps hline).processKey width key

end

/-! ## Images of the terminal -/

/-- The session on the image of its terminal. -/
def mapTerminal (image : τ → τ') (session : Session τ) : Session τ' where
  line := session.line
  position := session.position
  phase := session.phase
  terminal := image session.terminal

/-- Every call that a session makes ends on the image of a terminal as it does on the terminal. -/
structure CallsMirror (image : τ → τ') : Prop where
  columns (t : τ) : Mirrors image (Terminal.columns : Action τ Nat) Terminal.columns t
  cursor (t : τ) : Mirrors image (Terminal.cursor : Action τ Position) Terminal.cursor t
  setCursor (position : Position) (t : τ) :
    Mirrors image (Terminal.setCursor position : Action τ Unit) (Terminal.setCursor position) t
  put (cell : Cell) (t : τ) :
    Mirrors image (Terminal.put cell : Action τ Unit) (Terminal.put cell) t
  moveLeft (t : τ) : Mirrors image (Terminal.moveLeft : Action τ Unit) Terminal.moveLeft t
  moveRight (t : τ) : Mirrors image (Terminal.moveRight : Action τ Unit) Terminal.moveRight t
  showCursor (t : τ) : Mirrors image (Terminal.showCursor : Action τ Unit) Terminal.showCursor t
  hideCursor (t : τ) : Mirrors image (Terminal.hideCursor : Action τ Unit) Terminal.hideCursor t
  flush (t : τ) : Mirrors image (Terminal.flush : Action τ Unit) Terminal.flush t

section

variable {image : τ → τ'}

omit [Terminal τ] [Terminal τ'] in
theorem mirrors_onTerminal {step : Action τ α} {step' : Action τ' α}
    (h : ∀ t, Mirrors image step step' t) (s : Session τ) :
    Mirrors (mapTerminal image) (onTerminal step) (onTerminal step') s := by
  have himage : step' (mapTerminal image s).terminal = mapState image (step s.terminal) :=
    (h s.terminal).symm
  unfold Mirrors
  rw [onTerminal, onTerminal, within, within, himage]
  cases step s.terminal <;> rfl

omit [Terminal τ] [Terminal τ'] in
theorem mirrors_onLine (step : EStateM Line.Fault Line α) (s : Session τ) :
    Mirrors (mapTerminal image) (onLine step) (onLine step) s := by
  have hline : (mapTerminal image s).line = s.line := rfl
  unfold Mirrors
  rw [onLine, onLine, hline]
  cases step s.line <;> rfl

variable (width : Char → Nat) (h : CallsMirror image)

include h

theorem CallsMirror.putAll (cells : List Cell) (s : Session τ) :
    Mirrors (mapTerminal image) (putAll cells) (putAll cells) s :=
  mirrors_forEach (fun cell => mirrors_onTerminal (h.put cell)) cells s

theorem CallsMirror.print (cell : Cell) (start : Position) (columns : Nat) (t : τ) :
    Mirrors image (print width cell start columns : Action τ Unit) (print width cell start columns) t := by
  refine (h.hideCursor t).bind fun _ t => (h.put cell t).bind fun _ t => ?_
  split
  · exact (h.put Cell.space t).bind fun _ t => h.moveLeft t
  · exact mirrors_pure _

omit h [Terminal τ] [Terminal τ'] in
theorem mirrors_store (cell : Cell) (s : Session τ) :
    Mirrors (mapTerminal image) (store cell) (store cell) s := by
  refine mirrors_get_bind ?_
  dsimp only [mapTerminal]
  split
  · exact mirrors_onLine _ s
  · exact mirrors_onLine _ s

theorem CallsMirror.insert (cell : Cell) (s : Session τ) :
    Mirrors (mapTerminal image) (insert width cell) (insert width cell) s := by
  refine (mirrors_onTerminal h.cursor s).bind fun start s => ?_
  refine (mirrors_onTerminal h.columns s).bind fun columns s => ?_
  refine (mirrors_store cell s).bind fun _ s => ?_
  refine (mirrors_onTerminal (h.print width cell start columns) s).bind fun _ s => ?_
  refine (mirrors_onTerminal h.cursor s).bind fun caret s => mirrors_get_bind ?_
  refine (h.putAll _ s).bind fun _ s => ?_
  refine (mirrors_onTerminal (h.setCursor caret) s).bind fun _ s => ?_
  exact (mirrors_onTerminal h.showCursor s).bind fun _ s => rfl

theorem CallsMirror.backspace (s : Session τ) :
    Mirrors (mapTerminal image) (backspace width) (backspace width) s := by
  refine (mirrors_onTerminal h.hideCursor s).bind fun _ s => mirrors_get_bind ?_
  refine (mirrors_times (mirrors_onTerminal h.moveLeft) _ s).bind fun _ s => ?_
  refine Mirrors.bind rfl fun _ s => ?_
  refine (mirrors_onTerminal h.cursor s).bind fun caret s => mirrors_get_bind ?_
  refine (mirrors_onLine _ s).bind fun _ s => mirrors_get_bind ?_
  refine (h.putAll _ s).bind fun _ s => ?_
  refine (mirrors_times (mirrors_onTerminal (h.put Cell.space)) _ s).bind fun _ s => ?_
  exact (mirrors_onTerminal (h.setCursor caret) s).bind fun _ s => mirrors_onTerminal h.showCursor s

theorem CallsMirror.right (s : Session τ) :
    Mirrors (mapTerminal image) (Session.moveRight width) (Session.moveRight width) s := by
  refine mirrors_get_bind ?_
  exact (mirrors_times (mirrors_onTerminal h.moveRight) _ s).bind fun _ s => rfl

theorem CallsMirror.left (s : Session τ) :
    Mirrors (mapTerminal image) (Session.moveLeft width) (Session.moveLeft width) s := by
  refine Mirrors.bind rfl fun _ s => mirrors_get_bind ?_
  exact mirrors_times (mirrors_onTerminal h.moveLeft) _ s

theorem CallsMirror.obey (key : Key) (s : Session τ) :
    Mirrors (mapTerminal image) (obey width key) (obey width key) s := by
  refine mirrors_get_bind ?_
  dsimp only [mapTerminal]
  cases key with
  | printable cell =>
    dsimp only
    split
    · exact h.insert width cell s
    · exact mirrors_pure _
  | control control =>
    cases control with
    | enter => rfl
    | backspace =>
      dsimp only
      split
      · exact h.backspace width s
      · exact mirrors_pure _
    | right =>
      dsimp only
      split
      · exact h.right width s
      · exact mirrors_pure _
    | left =>
      dsimp only
      split
      · exact h.left width s
      · exact mirrors_pure _
    | _ => exact mirrors_pure _

/-- **A key ends on the image of the terminal as it does on the terminal.** -/
theorem CallsMirror.processKey (key : Key) (s : Session τ) :
    Mirrors (mapTerminal image) (processKey width key) (processKey width key) s := by
  refine mirrors_get_bind ?_
  dsimp only [mapTerminal]
  split
  · exact mirrors_pure _
  · exact (h.obey width key s).bind fun _ s => rfl

/-- **The end of a line is the same on the image of the terminal.** -/
theorem CallsMirror.finish (terminator : String) (s : Session τ) :
    Mirrors (mapTerminal image) (finish width terminator) (finish width terminator) s := by
  refine mirrors_get_bind ?_
  refine (mirrors_times (h.right width) _ s).bind fun _ s => ?_
  refine (h.putAll _ s).bind fun _ s => ?_
  exact (mirrors_onTerminal h.flush s).bind fun _ s => rfl

end

end LineEditor.Session
