import Mathlib.Data.List.Chain
import LineEditor.Proofs.Terminal.Calls

/-!
# What the device is asked about has reached it

The answers of the device, and what it does, depend on what it has been sent.  A VT100 terminal flushes
its output in front of every call that consults the device, and a flush that fails ends the call.

* `Console.Call.consults` — the calls to the device, its size apart.
* `Console.Sent` — everything written has been flushed; `Console.Prompt` — so it is whenever the device
  is consulted.
* `Vt100.Asks.behind_flush` — a single call flushes right in front of each question.
* `Vt100.Writes.prompt` — **the step**: the entries of a call keep the log prompt.
* `Vt100.prompt_reached` — **the run**.
* `Vt100.Asks.place` — where the cursor is put.
* `Vt100.consults_behind_flush` — any calls, to a console that fails at will.
-/

set_option autoImplicit false

open LineEditor.Action

namespace LineEditor

/-! ## Prompt logs -/

namespace Console

/-- Does the call depend on what the device has been sent? -/
def Call.consults : Call → Bool
  | .cursor => true
  | .moveTo _ => true
  | .enableRawMode => true
  | .disableRawMode => true
  | _ => false

/-- Everything that was written, or tried to be, has been followed by a flush that did not fail. -/
def Sent (events : List Event) : Prop :=
  ∀ front text failed back, events = front ++ .call (.write text) failed :: back →
    .call .flush false ∈ back

/-- Whenever the device was consulted, everything written had been sent. -/
def Prompt (events : List Event) : Prop :=
  ∀ front asked failed back, events = front ++ .call asked failed :: back → asked.consults = true →
    Sent front

theorem sent_flush (events : List Event) : Sent (events ++ [.call .flush false]) := by
  intro front text failed back hevents
  rcases List.eq_nil_or_concat' back with rfl | ⟨back, last, rfl⟩
  · cases (List.append_inj' hevents rfl).2
  · rw [← List.cons_append, ← List.append_assoc] at hevents
    cases (List.append_inj' hevents rfl).2
    exact List.mem_append_right back List.mem_cons_self

theorem prompt_nil : Prompt [] := by
  intro front asked failed back hevents
  cases front <;> cases hevents

/-- Only the new entries have to be looked at. -/
theorem Prompt.append {events entries : List Event} (h : Prompt events)
    (hentries : ∀ front asked failed back, entries = front ++ .call asked failed :: back →
      asked.consults = true → Sent (events ++ front)) : Prompt (events ++ entries) := by
  intro front asked failed back hall hasked
  rcases List.append_eq_append_iff.mp hall with ⟨added, rfl, hadded⟩ | ⟨behind, rfl, hbehind⟩
  · exact hentries added asked failed back hadded hasked
  · cases behind with
    | nil =>
      have hsent := hentries [] asked failed back hbehind.symm hasked
      rwa [List.append_nil, List.append_nil] at hsent
    | cons event behind =>
      obtain ⟨rfl, -⟩ := List.cons.inj hbehind
      exact h front asked failed behind rfl hasked

end Console

namespace Vt100

open Console

variable {δ : Type} [Console δ] {console : δ} {call : Terminal.Call} {calls rest : List Console.Call}
  {asked : Console.Call}

/-! ## Questions -/

/-- Each call that consults the device comes right behind a flush.  The size in front stands for whatever
was called before: the first call needs a flush too. -/
theorem Asks.isChain (h : Asks console call calls) :
    (.size :: calls).IsChain fun first later => later.consults = true → first = .flush := by
  cases h with
  | left | wrapLeft | right | wrapRight | put | moveDown | moveUp | moveToColumn | showCursor
  | hideCursor =>
    unfold written
    split <;> simp [Call.consults]
  | _ => simp [Call.consults]

theorem Asks.behind_flush (h : Asks console call (calls ++ asked :: rest))
    (hasked : asked.consults = true) : ∃ earlier, calls = earlier ++ [.flush] := by
  have hchain := h.isChain
  rcases List.eq_nil_or_concat' calls with rfl | ⟨earlier, last, rfl⟩
  · cases hchain.rel hasked
  · rw [List.append_assoc, List.singleton_append, ← List.cons_append,
      List.isChain_append_cons_cons] at hchain
    obtain rfl : last = .flush := hchain.2.1 hasked
    exact ⟨earlier, rfl⟩

/-- The cursor is put where the position folds to in the columns that the device has just told. -/
theorem Asks.place {place : Position} (h : Asks console call (calls ++ .moveTo place :: rest)) :
    ∃ position size next, call = .setCursor position ∧ calls = [.size, .flush] ∧
      Console.size console = .ok size next ∧ place = position.wrap size.columns := by
  generalize hall : calls ++ .moveTo place :: rest = all at h
  have hplace : .moveTo place ∈ all := hall ▸ List.mem_append_right calls List.mem_cons_self
  cases h with
  | @setCursor position size next hsize =>
    obtain ⟨rfl, rfl, -⟩ : calls = [.size, .flush] ∧ place = position.wrap size.columns ∧ rest = [] := by
      simpa [List.append_eq_cons_iff, List.cons_eq_append_iff] using hall
    exact ⟨position, size, next, rfl, rfl, hsize, rfl⟩
  | _ => simp at hplace

variable {entries : List Event} {fails : Bool}

/-- **The step**: the entries of a call keep the log prompt. -/
theorem Writes.prompt {events : List Event} (h : Writes console call entries fails)
    (hevents : Prompt events) : Prompt (events ++ entries) := by
  obtain ⟨calls, hasks, hnoted⟩ := h
  refine hevents.append fun front asked failed back hentries hasked => ?_
  rw [hentries] at hnoted
  obtain ⟨earlier, rest, rfl, rfl, -⟩ := hnoted.split
  obtain ⟨flushed, rfl⟩ := hasks.behind_flush hasked
  rw [passed_append, ← List.append_assoc]
  exact sent_flush _

theorem Operation.prompt (operation : Operation) {terminal : Vt100 (Logged Event δ)}
    (h : Prompt terminal.console.log) : Prompt (operation.after terminal).console.log := by
  cases operation with
  | call call =>
    obtain ⟨entries, fails, hwrites, hlog⟩ := make_log call terminal
    rw [Operation.after, hlog]
    exact hwrites.prompt h
  | clearFailure => exact h

/-- **The run**: the log is prompt behind any calls. -/
theorem prompt_reached (operations : List Operation) {terminal : Vt100 (Logged Event δ)}
    (h : Prompt terminal.console.log) : Prompt (reached operations terminal).console.log := by
  induction operations generalizing terminal with
  | nil => exact h
  | cons operation operations ih => exact ih (operation.prompt h)

/-- **The device is consulted about output that has reached it.**  Whatever was called before, and
whatever of it failed: behind a further call the log of the console is prompt.  A call to the console that
fails, so a flush that fails, is the last of its call.  And the cursor is only put somewhere by a call for
that, once the size is told and the output flushed: with columns, in one of them, and as many rows down as
were full, as far as there are rows. -/
theorem consults_behind_flush (terminal : Vt100 δ) (operations : List Operation)
    (call : Terminal.Call) :
    let before := reached operations terminal.logged
    let after := state (call.make before)
    before.forget = reached operations terminal ∧
      after.forget = state (call.make (reached operations terminal)) ∧
      Prompt after.console.log ∧
      ∃ entries, after.console.log = before.console.log ++ entries ∧
        (∀ front asked back, entries = front ++ .call asked true :: back → back = []) ∧
        ∀ front place failed back, entries = front ++ .call (.moveTo place) failed :: back →
          ∃ position size next, call = .setCursor position ∧
            front = [.call .size false, .call .flush false] ∧
            Console.size (reached operations terminal).console = .ok size next ∧
            (0 < size.columns → position.row ≤ Position.largest →
              place.column < size.columns ∧
                place.row = min Position.largest (position.row + position.column / size.columns)) := by
  intro before after
  have hforget : before.forget = reached operations terminal := forget_reached operations terminal.logged
  obtain ⟨entries, fails, ⟨calls, hasks, hnoted⟩, hlog⟩ := make_log call before
  refine ⟨hforget, ?_, ?_, entries, hlog, ?_, ?_⟩
  · rw [← hforget]
    exact forget_after (.call call) before
  · have hstart : Prompt terminal.logged.console.log := prompt_nil
    exact (Operation.call call).prompt (prompt_reached operations hstart)
  · intro front asked back hentries
    rw [hentries] at hnoted
    obtain ⟨-, -, -, -, ⟨-, hback, -⟩ | ⟨hfailed, -⟩⟩ := hnoted.split
    · exact hback
    · cases hfailed
  · intro front place failed back hentries
    rw [hentries] at hnoted
    obtain ⟨earlier, rest, rfl, rfl, -⟩ := hnoted.split
    obtain ⟨position, size, next, rfl, rfl, hsize, rfl⟩ := hasks.place
    rw [← hforget]
    refine ⟨position, size, next, rfl, rfl, hsize, fun hcolumns hrow => ?_⟩
    rw [Position.wrap_divides hcolumns hrow]
    exact ⟨Nat.mod_lt _ hcolumns, rfl⟩

end Vt100

end LineEditor
