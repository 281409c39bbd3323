import LineEditor.Proofs.Line.Operations
import LineEditor.Proofs.Session.Driving

/-!
# What sessions do to their lines

A session changes its line by the operations of a line and by nothing else, whatever the terminal does.
So all that is known of a line behind any operations is known of the line of a session.

* `operating` — a change of the line that some operations make.
* `stepsHave_operating` — every step of a key makes one.
* `driven_reached` — **the law**: the line of a session is what some operations make of an empty line.
* `driven_line` — so it is sound.
-/

set_option autoImplicit false

open LineEditor.Action

namespace LineEditor.Session

variable {τ : Type} {width : Char → Nat} {settings : Settings} {start : τ} {session : Session τ}
  {typed : List Key}

/-- Some operations make the line after from the line before. -/
def operating (τ : Type) : Change Failure (Session τ) where
  passes before after := ∃ operations, after.line = Line.reached operations before.line
  fails before _ after := ∃ operations, after.line = Line.reached operations before.line
  refl _ := ⟨[], rfl⟩
  trans := by
    rintro s t u ⟨first, ht⟩ ⟨second, hu⟩
    exact ⟨first ++ second, by rw [Line.reached_append, ← ht, hu]⟩
  fails_after := by
    rintro s t u _ ⟨first, ht⟩ ⟨second, hu⟩
    exact ⟨first ++ second, by rw [Line.reached_append, ← ht, hu]⟩

theorem onTerminal_operates {α : Type} (step : Action τ α) : Has (operating τ) (onTerminal step) := by
  intro s
  unfold Ends onTerminal within
  cases step s.terminal with
  | ok value terminal => exact ⟨[], rfl⟩
  | error failure terminal => exact ⟨[], rfl⟩

theorem onLine_operates {α : Type} {step : EStateM Line.Fault Line α} (operation : Line.Operation)
    (hstep : ∀ line, state (operation.run line) = state (step line)) :
    Has (operating τ) (onLine step) := by
  intro s
  have hreached : Line.reached [operation] s.line = state (step s.line) := hstep s.line
  unfold Ends onLine
  cases hline : step s.line with
  | ok value line =>
    rw [hline] at hreached
    exact ⟨[operation], hreached.symm⟩
  | error fault line =>
    rw [hline] at hreached
    exact ⟨[operation], hreached.symm⟩

variable [Terminal τ]

/-- **Every step of a key leaves the line alone or is an operation on it.** -/
theorem stepsHave_operating : StepsHave (operating τ) where
  columns := onTerminal_operates _
  cursor := onTerminal_operates _
  setCursor _ := onTerminal_operates _
  put _ := onTerminal_operates _
  print _ _ _ _ := onTerminal_operates _
  moveLeft := onTerminal_operates _
  moveRight := onTerminal_operates _
  showCursor := onTerminal_operates _
  hideCursor := onTerminal_operates _
  append cell := onLine_operates (.append cell) fun line => state_bind_pure _ (fun _ => none) line
  insert cell index := onLine_operates (.insert cell index) fun line => state_bind_pure _ (fun _ => none) line
  erase index := onLine_operates (.erase index) fun line => state_bind_pure _ some line
  caret _ _ := ⟨[], rfl⟩
  phase _ _ := ⟨[], rfl⟩

/-- **The line of a session is what some operations make of an empty line.** -/
theorem driven_reached (h : Driven width settings start typed session) :
    ∃ memory after line operations,
      Line.create settings.initialCapacity settings.capacityLimit memory = .ok line after ∧
      session.line = Line.reached operations line := by
  induction h with
  | @create memory after session h =>
    unfold create at h
    cases hline : Line.create settings.initialCapacity settings.capacityLimit memory with
    | ok line after =>
      rw [hline] at h
      cases h
      exact ⟨memory, after, line, [], hline, rfl⟩
    | error fault after =>
      rw [hline] at h
      cases h
  | @key typed session h key ih =>
    obtain ⟨memory, after, line, operations, hline, hsession⟩ := ih
    have hkey : (operating τ).passes session (state (processKey width key session)) :=
      Ends.state (stepsHave_operating.processKey width key session)
    obtain ⟨more, hmore⟩ := hkey
    refine ⟨memory, after, line, operations ++ more, hline, ?_⟩
    rw [hmore, hsession, Line.reached_append]

/-- The line of a session is sound. -/
theorem driven_line (h : Driven width settings start typed session) :
    ∃ answer cells,
      Line.Sound ⟨settings.initialCapacity, settings.capacityLimit, answer⟩ cells session.line := by
  obtain ⟨memory, after, line, operations, hcreate, hline⟩ := driven_reached h
  rw [hline]
  exact ⟨memory.answer, _, (Line.sound_create hcreate).reached operations⟩

end LineEditor.Session
