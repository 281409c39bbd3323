import LineEditor.Proofs.Terminal.Calls
import LineEditor.Terminal.Recorder

/-!
# A call that fails says so, and has written nothing

A call to a VT100 terminal writes once, and behind all that it asks for.  Whatever fails has therefore
failed in front of the write, or is the write.  Only the cursor that is to appear has its sequence flushed
at once, and that flush can fail behind the write.

* `Vt100.Asks.write` — what a single call asks for around its write.
* `Vt100.Sparing` — one write at most, in its place; `Writes.sparing` — every call is sparing.
* `Vt100.Writes.nothing` — a call that fails has written nothing, or let the cursor appear.
* `Vt100.Operation.keeps_failure` — only clearing forgets a failure.
* `Vt100.failures_are_remembered` — any calls, to a console that fails at will.
-/

set_option autoImplicit false

open LineEditor.Action

namespace LineEditor

namespace Console

/-- Does the event write, or try to? -/
def Event.isWrite : Event → Bool
  | .call asked _ => asked.isWrite
  | .key => false

theorem Event.isWrite_iff {event : Event} :
    event.isWrite = true ↔ ∃ text failed, event = .call (.write text) failed := by
  constructor
  · intro hwrite
    rcases event with ⟨asked, failed⟩ | _
    · cases asked with
      | write text => exact ⟨text, failed, rfl⟩
      | _ => cases hwrite
    · cases hwrite
  · rintro ⟨text, failed, rfl⟩
    rfl

end Console

namespace Vt100

open Console

variable {δ : Type} [Console δ] {console : δ} {call : Terminal.Call}
  {calls earlier rest : List Console.Call} {text : String}

/-! ## The write of a call -/

/-- Only a flush comes behind a write, where the cursor is to appear. -/
theorem Asks.pairwise (h : Asks console call calls) :
    calls.Pairwise fun first later => first.isWrite = true → call = .showCursor ∧ later = .flush := by
  cases h with
  | left | wrapLeft | right | wrapRight | put | moveDown | moveUp | moveToColumn | showCursor
  | hideCursor =>
    unfold written
    split <;> simp [Call.isWrite]
  | _ => simp [Call.isWrite]

theorem Asks.showCursor_write (h : Asks console .showCursor (earlier ++ .write text :: rest)) :
    earlier = [] ∧ text = Sequence.showCursor ∧ rest = [.flush] := by
  generalize hall : earlier ++ .write text :: rest = all at h
  cases h with
  | showCursor =>
    have hwritten : written Sequence.showCursor = [.write Sequence.showCursor] := by decide
    rw [hwritten] at hall
    simpa [List.append_eq_cons_iff, List.cons_eq_append_iff] using hall

/-- **A call writes behind all that it asks for**, and writes last but for the flush of a cursor that is
to appear. -/
theorem Asks.write (h : Asks console call (earlier ++ .write text :: rest)) :
    (∀ asked ∈ earlier, asked.isWrite = false) ∧
      (rest = [] ∨
        call = .showCursor ∧ earlier = [] ∧ text = Sequence.showCursor ∧ rest = [.flush]) := by
  have hpairs := h.pairwise
  rw [List.pairwise_append, List.pairwise_cons] at hpairs
  obtain ⟨-, ⟨hrest, -⟩, hearlier⟩ := hpairs
  constructor
  · intro asked hasked
    refine Bool.eq_false_iff.mpr fun hwrite => ?_
    cases (hearlier asked hasked _ List.mem_cons_self hwrite).2
  · cases rest with
    | nil => exact .inl rfl
    | cons later rest =>
      obtain ⟨rfl, -⟩ := hrest later List.mem_cons_self rfl
      exact .inr ⟨rfl, h.showCursor_write⟩

/-- One write at most, behind calls that have all succeeded, and nothing behind it but the flush of a
cursor that is to appear. -/
structure Sparing (call : Terminal.Call) (entries : List Event) : Prop where
  once : entries.countP Event.isWrite ≤ 1
  last : ∀ front text failed back, entries = front ++ .call (.write text) failed :: back →
    (∀ entry ∈ front, ∃ asked, asked.isWrite = false ∧ entry = .call asked false) ∧
      (back = [] ∨ call = .showCursor ∧ ∃ failed, back = [.call .flush failed])

variable {entries : List Event} {fails : Bool}

/-- What stands around a write in the entries of a call. -/
theorem Writes.around {front back : List Event} {failed : Bool}
    (h : Writes console call (front ++ .call (.write text) failed :: back) fails) :
    (∀ entry ∈ front, ∃ asked, asked.isWrite = false ∧ entry = .call asked false) ∧
      (back = [] ∧ fails = failed ∨
        call = .showCursor ∧ front = [] ∧ text = Sequence.showCursor ∧ failed = false ∧
          back = [.call .flush fails]) := by
  obtain ⟨calls, hasks, hnoted⟩ := h
  obtain ⟨earlier, rest, rfl, rfl, hback⟩ := hnoted.split
  obtain ⟨hearlier, hrest⟩ := hasks.write
  constructor
  · intro entry hentry
    obtain ⟨asked, hasked, rfl⟩ := List.mem_map.mp hentry
    exact ⟨asked, hearlier asked hasked, rfl⟩
  · rcases hback with ⟨rfl, rfl, rfl⟩ | ⟨rfl, hback⟩
    · exact .inl ⟨rfl, rfl⟩
    · rcases hrest with rfl | ⟨rfl, rfl, rfl, rfl⟩
      · cases hback
        exact .inl ⟨rfl, rfl⟩
      · refine .inr ⟨rfl, rfl, rfl, rfl, ?_⟩
        cases hback with
        | fail => rfl
        | pass h =>
          cases h
          rfl

/-- **Every call is sparing.** -/
theorem Writes.sparing (h : Writes console call entries fails) : Sparing call entries := by
  constructor
  · by_cases hwrite : ∃ event ∈ entries, event.isWrite = true
    · obtain ⟨event, hmem, hevent⟩ := hwrite
      obtain ⟨front, back, rfl⟩ := List.append_of_mem hmem
      obtain ⟨text, failed, rfl⟩ := Event.isWrite_iff.mp hevent
      obtain ⟨hfront, hback⟩ := h.around
      have hbefore : front.countP Event.isWrite = 0 := by
        refine List.countP_eq_zero.mpr fun entry hentry => ?_
        obtain ⟨asked, hasked, rfl⟩ := hfront entry hentry
        exact Bool.eq_false_iff.mp hasked
      have hbehind : back.countP Event.isWrite = 0 := by
        rcases hback with ⟨rfl, -⟩ | ⟨-, -, -, -, rfl⟩ <;> rfl
      have hcount :
          (front ++ .call (.write text) failed :: back).countP Event.isWrite = 0 + (0 + 1) := by
        rw [List.countP_append, List.countP_cons, if_pos hevent, hbefore, hbehind]
      omega
    · have hnone : entries.countP Event.isWrite = 0 :=
        List.countP_eq_zero.mpr fun event hmem hevent => hwrite ⟨event, hmem, hevent⟩
      omega
  · intro front text failed back hentries
    rw [hentries] at h
    obtain ⟨hfront, ⟨hback, -⟩ | ⟨hcall, -, -, -, hback⟩⟩ := h.around
    · exact ⟨hfront, .inl hback⟩
    · exact ⟨hfront, .inr ⟨hcall, fails, hback⟩⟩

/-- **A call that fails has written nothing**, unless it is the flush of a cursor that is to appear that
has failed. -/
theorem Writes.nothing (h : Writes console call entries true) :
    (∀ text, .call (.write text) false ∉ entries) ∨
      call = .showCursor ∧
        entries = [.call (.write Sequence.showCursor) false, .call .flush true] := by
  by_cases hwritten : ∃ text, .call (.write text) false ∈ entries
  · obtain ⟨text, hwritten⟩ := hwritten
    obtain ⟨front, back, rfl⟩ := List.append_of_mem hwritten
    rcases h.around.2 with ⟨-, hfails⟩ | ⟨hcall, rfl, rfl, -, rfl⟩
    · cases hfails
    · exact .inr ⟨hcall, rfl⟩
  · exact .inl (not_exists.mp hwritten)

/-! ## Any calls -/

/-- **Only clearing forgets a failure.** -/
theorem Operation.keeps_failure {operation : Operation} {terminal : Vt100 (Logged Event δ)}
    (h : terminal.lastFailure ≠ none) (hafter : (operation.after terminal).lastFailure = none) :
    operation = .clearFailure := by
  cases operation with
  | clearFailure => rfl
  | call call =>
    have hmake := make_writes call terminal
    rw [Operation.after] at hafter
    cases hrun : call.make terminal with
    | ok value next =>
      obtain ⟨hkept, -⟩ := hmake.of_ok hrun
      rw [hrun] at hafter
      exact absurd (hkept.symm.trans hafter) h
    | error failure next =>
      obtain ⟨hlast, -⟩ := hmake.of_error hrun
      rw [hrun] at hafter
      cases hlast.symm.trans hafter

/-- **A call that fails says so, is remembered and has written nothing.**  Whatever was called before, and
whatever of it failed: a further call that succeeds leaves what is remembered, and one that fails is
remembered with its failure.  Either way the call has written once at most, behind questions and flushes
that have all succeeded, and nothing at all where it fails, unless it is the flush of a cursor that is to
appear that does.  What is remembered is only forgotten where it is cleared. -/
theorem failures_are_remembered (terminal : Vt100 δ) (operations : List Operation)
    (call : Terminal.Call) :
    let before := reached operations terminal.logged
    before.forget = reached operations terminal ∧
      mapState forget (call.make before) = call.make (reached operations terminal) ∧
      Ends call.make before
        (fun _ after => after.lastFailure = before.lastFailure ∧
          ∃ entries, after.console.log = before.console.log ++ entries ∧ Sparing call entries)
        (fun failure after => after.lastFailure = some failure ∧ Terminal.isOk after = false ∧
          ∃ entries, after.console.log = before.console.log ++ entries ∧ Sparing call entries ∧
            ((∀ text, .call (.write text) false ∉ entries) ∨
              call = .showCursor ∧
                entries = [.call (.write Sequence.showCursor) false, .call .flush true])) ∧
      ∀ operation : Operation, before.lastFailure ≠ none →
        (operation.after before).lastFailure = none → operation = .clearFailure := by
  intro before
  have hforget : before.forget = reached operations terminal := forget_reached operations terminal.logged
  refine ⟨hforget, ?_, ?_, fun operation => Operation.keeps_failure⟩
  · rw [← hforget]
    exact mirrors_make call before
  · refine (make_writes call before).mono ?_ ?_
    · rintro _ after ⟨hkept, entries, hwrites, hlog⟩
      exact ⟨hkept, entries, hlog, hwrites.sparing⟩
    · rintro failure after ⟨hlast, entries, hwrites, hlog⟩
      have hok : Terminal.isOk after = false := by
        show after.lastFailure.isNone = false
        rw [hlast]
        rfl
      exact ⟨hlast, hok, entries, hlog, hwrites.sparing, hwrites.nothing⟩

/-- The exception: the cursor is to appear, and the sequence for that is written but not flushed. -/
example :
    let console : Recorder := { size := ⟨80, 24⟩, fails := fun call _ => call = .flush }
    let after := state (showCursor { console })
    after.console.transcript = [.written Sequence.showCursor] ∧ Terminal.isOk after = false := by
  decide +kernel

end Vt100

end LineEditor
