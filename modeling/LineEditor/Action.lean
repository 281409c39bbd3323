import LineEditor.Failure

/-!
# Actions

An `Action σ α` is a step on a state `σ` that yields an `α` or a `Failure`.  The state survives a
failure: what had been done before it stays done.

* `Action.within` — run an action on a part of a larger state.
* `Action.times`, `Action.forEach` — repeat an action until the count or the list is used up or one
  repetition fails.
-/

set_option autoImplicit false

namespace LineEditor

/-- A step on a state that yields a value or a failure, and in both cases a new state. -/
abbrev Action (σ α : Type) : Type := EStateM Failure σ α

namespace Action

variable {σ τ α : Type}

/-- Run an action on the part of the state that `get` reads and `set` replaces. -/
def within (get : σ → τ) (set : σ → τ → σ) (step : Action τ α) : Action σ α := fun s =>
  match step (get s) with
  | .ok value part => .ok value (set s part)
  | .error failure part => .error failure (set s part)

/-- Do `step` the given number of times. -/
def times : Nat → Action σ Unit → Action σ Unit
  | 0, _ => pure ()
  | n + 1, step => do
    step
    times n step

/-- Do `step` for each element in order. -/
def forEach (step : α → Action σ Unit) : List α → Action σ Unit
  | [] => pure ()
  | a :: rest => do
    step a
    forEach step rest

/-! ## Running actions in a row -/

section

variable {ε β : Type} {first : EStateM ε σ α} {rest : α → EStateM ε σ β} {s t : σ} {value : α}
  {fault : ε}

theorem bind_of_ok (h : first s = .ok value t) : (first >>= rest) s = rest value t := by
  simp only [bind, EStateM.bind, h]

theorem bind_of_error (h : first s = .error fault t) : (first >>= rest) s = .error fault t := by
  simp only [bind, EStateM.bind, h]

theorem get_bind (rest : σ → EStateM ε σ β) (s : σ) : (get >>= rest) s = rest s s := rfl

theorem modify_bind (change : σ → σ) (rest : PUnit → EStateM ε σ β) (s : σ) :
    (modify change >>= rest) s = rest ⟨⟩ (change s) := rfl

theorem bind_eq_ok {result : β} {u : σ} :
    (first >>= rest) s = .ok result u ↔
      ∃ value t, first s = .ok value t ∧ rest value t = .ok result u := by
  cases h : first s with
  | ok value t =>
    rw [bind_of_ok h]
    constructor
    · intro hrest
      exact ⟨value, t, rfl, hrest⟩
    · rintro ⟨_, _, hfirst, hrest⟩
      cases hfirst
      exact hrest
  | error fault t =>
    rw [bind_of_error h]
    constructor
    · intro hrest
      cases hrest
    · rintro ⟨_, _, hfirst, _⟩
      cases hfirst

end

/-! ## Actions that cannot fail -/

/-- From a state with the property `good` the action succeeds, and leaves such a state behind. -/
def Succeeds (good : σ → Prop) (step : Action σ α) : Prop :=
  ∀ s, good s → ∃ value t, step s = .ok value t ∧ good t

section

variable {β : Type} {good : σ → Prop} {step : Action σ α}

theorem succeeds_pure (value : α) : Succeeds good (pure value : Action σ α) :=
  fun s hs => ⟨value, s, rfl, hs⟩

theorem Succeeds.bind {rest : α → Action σ β} (h : Succeeds good step)
    (hrest : ∀ value, Succeeds good (rest value)) : Succeeds good (step >>= rest) := by
  intro s hs
  obtain ⟨value, t, hstep, ht⟩ := h s hs
  rw [bind_of_ok hstep]
  exact hrest value t ht

theorem Succeeds.times {step : Action σ Unit} (h : Succeeds good step) (count : Nat) :
    Succeeds good (times count step) := by
  induction count with
  | zero => exact succeeds_pure _
  | succ count ih => exact h.bind fun _ => ih

theorem succeeds_forEach {step : α → Action σ Unit} (h : ∀ a, Succeeds good (step a))
    (list : List α) : Succeeds good (forEach step list) := by
  induction list with
  | nil => exact succeeds_pure _
  | cons a list ih => exact (h a).bind fun _ => ih

end

end Action

end LineEditor
