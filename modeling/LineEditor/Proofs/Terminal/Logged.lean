import LineEditor.Proofs.Session.Effects

/-!
# Terminals with a log

To say in which order calls are made, a terminal is given a log: every call writes down what was asked
and how it went.  Nothing depends on the log, so a run on the terminal with the log is a run on the
terminal.

* `Logged`, `Logged.record` — a state with a log, and a step that is written down.
* `Logged.grows` — the change of a log that takes on entries of some kind.
* `Terminal.Event` — what is written down; `callsMirror_base` — without the log, every call of a session
  is the one on the terminal.
-/

set_option autoImplicit false

open LineEditor.Action

namespace LineEditor

/-- A state, and a log of what was done to it. -/
structure Logged (ε σ : Type) where
  base : σ
  /-- the entries, in order -/
  log : List ε := []

namespace Logged

variable {ε φ σ α : Type}

/-- Write an entry down. -/
def note (entry : ε) (logged : Logged ε σ) : Logged ε σ :=
  { logged with log := logged.log ++ [entry] }

/-- Do something to the state, and write down how it went. -/
def record (entry : Option φ → ε) (step : EStateM φ σ α) : EStateM φ (Logged ε σ) α := fun logged =>
  match step logged.base with
  | .ok value base => .ok value ⟨base, logged.log ++ [entry none]⟩
  | .error fault base => .error fault ⟨base, logged.log ++ [entry (some fault)]⟩

variable {entry : Option φ → ε} {step : EStateM φ σ α}

theorem mirrors_record (logged : Logged ε σ) : Mirrors Logged.base (record entry step) step logged := by
  unfold Mirrors record
  cases step logged.base <;> rfl

theorem record_ok {before after : σ} {log : List ε} {value : α} (h : step before = .ok value after) :
    record entry step ⟨before, log⟩ = .ok value ⟨after, log ++ [entry none]⟩ := by
  rw [record, h]

theorem record_error {before after : σ} {log : List ε} {fault : φ} (h : step before = .error fault after) :
    record entry step ⟨before, log⟩ = .error fault ⟨after, log ++ [entry (some fault)]⟩ := by
  rw [record, h]

theorem ends_record (logged : Logged ε σ) :
    Ends (record entry step) logged (fun _ next => next.log = logged.log ++ [entry none])
      fun fault next => next.log = logged.log ++ [entry (some fault)] := by
  cases hstep : step logged.base with
  | ok value base => exact ends_of_ok (record_ok hstep) rfl
  | error fault base => exact ends_of_error (record_error hstep) rfl

/-- The log takes on entries of one kind. -/
def Grows (kind : ε → Prop) (before after : Logged ε σ) : Prop :=
  ∃ entries, after.log = before.log ++ entries ∧ ∀ entry ∈ entries, kind entry

variable {kind : ε → Prop} {before middle after : Logged ε σ}

theorem Grows.refl (logged : Logged ε σ) : Grows kind logged logged :=
  ⟨[], (List.append_nil _).symm, fun _ h => nomatch h⟩

theorem Grows.trans (h : Grows kind before middle) (h' : Grows kind middle after) :
    Grows kind before after := by
  obtain ⟨entries, hlog, hentries⟩ := h
  obtain ⟨more, hlog', hmore⟩ := h'
  refine ⟨entries ++ more, by rw [hlog', hlog, List.append_assoc], fun entry hentry => ?_⟩
  exact (List.mem_append.mp hentry).elim (hentries entry) (hmore entry)

theorem Grows.mono {kind' : ε → Prop} (h : Grows kind before after)
    (hkind : ∀ entry, kind entry → kind' entry) : Grows kind' before after := by
  obtain ⟨entries, hlog, hentries⟩ := h
  exact ⟨entries, hlog, fun entry hentry => hkind entry (hentries entry hentry)⟩

theorem grows_of_log {entry : ε} (h : after.log = before.log ++ [entry]) (hkind : kind entry) :
    Grows kind before after :=
  ⟨[entry], h, fun _ hmem => List.mem_singleton.mp hmem ▸ hkind⟩

/-- The change of a log that takes on entries of one kind, also where a step fails. -/
def grows (kind : ε → Prop) : Change φ (Logged ε σ) where
  passes := Grows kind
  fails before _ after := Grows kind before after
  refl := Grows.refl
  trans := Grows.trans
  fails_after := Grows.trans

theorem has_grows_record (h : ∀ fault, kind (entry fault)) : Has (grows kind) (record entry step) :=
  fun logged => (ends_record logged).mono (fun _ _ hlog => grows_of_log hlog (h none))
    fun fault _ hlog => grows_of_log hlog (h (some fault))

end Logged

/-! ## Terminals -/

/-- A call to a terminal. -/
inductive Terminal.Call where
  | size
  | columns
  | cursor
  | setCursor (position : Position)
  | put (cell : Cell)
  | moveLeft
  | moveRight
  | moveDown (count : Nat)
  | moveUp (count : Nat)
  | moveToColumn (column : Nat)
  | showCursor
  | hideCursor
  | enterRawMode
  | leaveRawMode
  | flush
  deriving DecidableEq

/-- What is written down of an edited line. -/
inductive Terminal.Event where
  /-- a call to the terminal, with the failure that it ended in -/
  | call (call : Terminal.Call) (failure : Option Failure)
  /-- what the source of keys handed out -/
  | key (answer : Except Failure Key)

namespace Terminal

open Logged

variable {τ : Type} [Terminal τ]

instance : Terminal (Logged Event τ) where
  isOk logged := isOk logged.base
  lastFailure logged := lastFailure logged.base
  size := record (.call .size) size
  columns := record (.call .columns) columns
  cursor := record (.call .cursor) cursor
  setCursor position := record (.call (.setCursor position)) (setCursor position)
  put cell := record (.call (.put cell)) (put cell)
  moveLeft := record (.call .moveLeft) moveLeft
  moveRight := record (.call .moveRight) moveRight
  moveDown count := record (.call (.moveDown count)) (moveDown count)
  moveUp count := record (.call (.moveUp count)) (moveUp count)
  moveToColumn column := record (.call (.moveToColumn column)) (moveToColumn column)
  showCursor := record (.call .showCursor) showCursor
  hideCursor := record (.call .hideCursor) hideCursor
  enterRawMode := record (.call .enterRawMode) enterRawMode
  leaveRawMode := record (.call .leaveRawMode) leaveRawMode
  flush := record (.call .flush) flush

theorem callsMirror_base : Session.CallsMirror (Logged.base : Logged Event τ → τ) where
  columns := mirrors_record
  cursor := mirrors_record
  setCursor _ := mirrors_record
  put _ := mirrors_record
  moveLeft := mirrors_record
  moveRight := mirrors_record
  showCursor := mirrors_record
  hideCursor := mirrors_record
  flush := mirrors_record

end Terminal

end LineEditor
