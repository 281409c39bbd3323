import LineEditor.Action

/-!
# How actions end

An action ends with a value or with a failure and leaves a state behind in both cases.  What is said
of the parts of an action is put together here to say something of the whole.

* `Ends` — what an action leaves behind from one state, if it succeeds and if it fails.
* `Agree` — two actions of which that is the same.
* `Change`, `Has` — a kind of change that several steps in a row make if each of them makes it.
* `Leads` — what an action makes true if it succeeds.
* `Mirrors` — an action that does to the image of a state what another does to the state.
-/

set_option autoImplicit false

namespace LineEditor.Action

variable {ε σ τ α β : Type}

/-! ## From one state -/

/-- From `s` the action either succeeds and leaves behind what `passed` says, or it fails and leaves
behind what `failed` says. -/
def Ends (step : EStateM ε σ α) (s : σ) (passed : α → σ → Prop) (failed : ε → σ → Prop) : Prop :=
  match step s with
  | .ok value t => passed value t
  | .error fault t => failed fault t

section

variable {step first : EStateM ε σ α} {rest : α → EStateM ε σ β} {s t : σ} {value : α} {fault : ε}
  {passed middle : α → σ → Prop} {last : β → σ → Prop} {failed failed' : ε → σ → Prop}

theorem ends_of_ok (h : step s = .ok value t) (hpassed : passed value t) :
    Ends step s passed failed := by
  rw [Ends, h]
  exact hpassed

theorem ends_of_error (h : step s = .error fault t) (hfailed : failed fault t) :
    Ends step s passed failed := by
  rw [Ends, h]
  exact hfailed

theorem Ends.of_ok (h : Ends step s passed failed) (hstep : step s = .ok value t) :
    passed value t := by
  rwa [Ends, hstep] at h

theorem Ends.of_error (h : Ends step s passed failed) (hstep : step s = .error fault t) :
    failed fault t := by
  rwa [Ends, hstep] at h

theorem Ends.of_eq {step' : EStateM ε σ α} (h : Ends step' s passed failed)
    (hstep : step s = step' s) : Ends step s passed failed := by
  rwa [Ends, hstep]

theorem ends_pure (h : passed value s) : Ends (pure value : EStateM ε σ α) s passed failed := h

theorem ends_get_bind {rest : σ → EStateM ε σ β} (h : Ends (rest s) s last failed) :
    Ends (get >>= rest) s last failed := h

theorem Ends.bind (h : Ends first s middle failed)
    (hrest : ∀ value t, middle value t → Ends (rest value) t last failed) :
    Ends (first >>= rest) s last failed := by
  cases hfirst : first s with
  | ok value t =>
    have hmiddle := h.of_ok hfirst
    rw [Ends, bind_of_ok hfirst]
    exact hrest value t hmiddle
  | error fault t =>
    rw [Ends, bind_of_error hfirst]
    exact h.of_error hfirst

theorem Ends.mono (h : Ends step s passed failed) (hpassed : ∀ value t, passed value t → middle value t)
    (hfailed : ∀ fault t, failed fault t → failed' fault t) : Ends step s middle failed' := by
  cases hstep : step s with
  | ok value t => exact ends_of_ok hstep (hpassed value t (h.of_ok hstep))
  | error fault t => exact ends_of_error hstep (hfailed fault t (h.of_error hstep))

theorem Ends.and {passed' : α → σ → Prop} (h : Ends step s passed failed)
    (h' : Ends step s passed' failed') :
    Ends step s (fun value t => passed value t ∧ passed' value t)
      fun fault t => failed fault t ∧ failed' fault t := by
  cases hstep : step s with
  | ok value t => exact ends_of_ok hstep ⟨h.of_ok hstep, h'.of_ok hstep⟩
  | error fault t => exact ends_of_error hstep ⟨h.of_error hstep, h'.of_error hstep⟩

end

theorem bind_of_eq {ε σ α β : Type} {first first' : EStateM ε σ α} {rest : α → EStateM ε σ β} {s : σ}
    (h : first s = first' s) : (first >>= rest) s = (first' >>= rest) s := by
  simp only [bind, EStateM.bind, h]

/-! ## Two actions in step -/

/-- From `s` the two actions end in the same way, and as `passed` and `failed` say. -/
def Agree (other step : EStateM ε σ α) (s : σ) (passed : α → σ → Prop) (failed : ε → σ → Prop) : Prop :=
  other s = step s ∧ Ends step s passed failed

section

variable {other other' step : EStateM ε σ α} {rest rest' : α → EStateM ε σ β} {s t : σ} {value : α}
  {passed : α → σ → Prop} {last : β → σ → Prop} {failed : ε → σ → Prop}

theorem Ends.agree (h : Ends step s passed failed) : Agree step step s passed failed := ⟨rfl, h⟩

theorem agree_of_ok (h : step s = .ok value t) (hpassed : passed value t) :
    Agree step step s passed failed := (ends_of_ok h hpassed).agree

theorem Agree.of_eq (hother : other s = other' s) (h : Agree other' step s passed failed) :
    Agree other step s passed failed := ⟨hother.trans h.1, h.2⟩

theorem agree_get_bind {rest rest' : σ → EStateM ε σ β} (h : Agree (rest' s) (rest s) s last failed) :
    Agree (get >>= rest') (get >>= rest) s last failed := h

theorem Agree.bind (h : Agree other step s passed failed)
    (hrest : ∀ value t, passed value t → Agree (rest' value) (rest value) t last failed) :
    Agree (other >>= rest') (step >>= rest) s last failed := by
  refine ⟨?_, h.2.bind fun value t ht => (hrest value t ht).2⟩
  cases hstep : step s with
  | ok value t =>
    have hother := h.1.trans hstep
    rw [bind_of_ok hother, bind_of_ok hstep]
    exact (hrest value t (h.2.of_ok hstep)).1
  | error fault t =>
    have hother := h.1.trans hstep
    rw [bind_of_error hother, bind_of_error hstep]

end

/-! ## Changes -/

/-- A kind of change: what a step that succeeds does to a state, and what one that fails does.  Doing
nothing is such a change, and so are two of them in a row. -/
structure Change (ε σ : Type) where
  passes : σ → σ → Prop
  fails : σ → ε → σ → Prop
  refl (s : σ) : passes s s
  trans {s t u : σ} : passes s t → passes t u → passes s u
  fails_after {s t u : σ} {fault : ε} : passes s t → fails t fault u → fails s fault u

/-- The change that keeps a condition true, whether a step succeeds or fails. -/
def Change.keeping (holds : σ → Prop) : Change ε σ where
  passes s t := holds s → holds t
  fails s _ t := holds s → holds t
  refl _ h := h
  trans h h' hs := h' (h hs)
  fails_after h h' hs := h' (h hs)

/-- The change that a change of a part is for the whole. -/
def Change.along (change : Change ε τ) (part : σ → τ) : Change ε σ where
  passes s t := change.passes (part s) (part t)
  fails s fault t := change.fails (part s) fault (part t)
  refl s := change.refl (part s)
  trans := change.trans
  fails_after := change.fails_after

/-- From every state the action makes such a change. -/
def Has (change : Change ε σ) (step : EStateM ε σ α) : Prop :=
  ∀ s, Ends step s (fun _ t => change.passes s t) (change.fails s)

section

variable {change : Change ε σ} {step : EStateM ε σ α} {rest : α → EStateM ε σ β}

theorem has_pure (value : α) : Has change (pure value : EStateM ε σ α) :=
  fun s => ends_pure (change.refl s)

theorem Has.bind (h : Has change step) (hrest : ∀ value, Has change (rest value)) :
    Has change (step >>= rest) := by
  intro s
  cases hstep : step s with
  | ok value t =>
    have hfirst := (h s).of_ok hstep
    rw [Ends, bind_of_ok hstep]
    exact (hrest value t).mono (fun _ _ => change.trans hfirst) fun _ _ => change.fails_after hfirst
  | error fault t =>
    rw [Ends, bind_of_error hstep]
    exact (h s).of_error hstep

theorem has_get_bind {rest : σ → EStateM ε σ β} (h : ∀ s, Has change (rest s)) :
    Has change (get >>= rest) := fun s => h s s

theorem has_modify {next : σ → σ} (h : ∀ s, change.passes s (next s)) :
    Has change (modify next : EStateM ε σ PUnit) := h

end

section

variable {change : Change Failure σ}

theorem Has.times {step : Action σ Unit} (h : Has change step) (count : Nat) :
    Has change (times count step) := by
  induction count with
  | zero => exact has_pure _
  | succ count ih => exact h.bind fun _ => ih

theorem has_forEach {step : α → Action σ Unit} (h : ∀ a, Has change (step a)) (list : List α) :
    Has change (forEach step list) := by
  induction list with
  | nil => exact has_pure _
  | cons a list ih => exact (h a).bind fun _ => ih

end

/-! ## Conditions -/

/-- From every state of which `before` holds, the action leaves one of which `after` holds, unless it
fails. -/
def Leads (before after : σ → Prop) (step : EStateM ε σ α) : Prop :=
  ∀ s, before s → Ends step s (fun _ => after) fun _ _ => True

section

variable {before middle after : σ → Prop} {step : EStateM ε σ α} {rest : α → EStateM ε σ β}

theorem leads_any : Leads before (fun _ => True) step := by
  intro s _
  cases hstep : step s with
  | ok value t => exact ends_of_ok hstep trivial
  | error fault t => exact ends_of_error hstep trivial

theorem leads_pure (value : α) : Leads before before (pure value : EStateM ε σ α) :=
  fun _ h => ends_pure h

theorem leads_get : Leads before before (get : EStateM ε σ σ) := fun _ h => h

theorem leads_modify {next : σ → σ} (h : ∀ s, before s → after (next s)) :
    Leads before after (modify next : EStateM ε σ PUnit) := h

theorem Leads.bind (h : Leads before middle step) (hrest : ∀ value, Leads middle after (rest value)) :
    Leads before after (step >>= rest) :=
  fun s hs => (h s hs).bind fun value t ht => hrest value t ht

theorem Leads.of_any (h : Leads (fun _ => True) after step) : Leads before after step :=
  fun s _ => h s trivial

end

theorem Leads.times {before : σ → Prop} {step : Action σ Unit} (h : Leads before before step)
    (count : Nat) : Leads before before (times count step) := by
  induction count with
  | zero => exact leads_pure _
  | succ count ih => exact h.bind fun _ => ih

/-! ## Images -/

/-- The state that is left behind. -/
def state : EStateM.Result ε σ α → σ
  | .ok _ s => s
  | .error _ s => s

theorem Ends.state {step : EStateM ε σ α} {s : σ} {holds : σ → Prop}
    (h : Ends step s (fun _ => holds) fun _ => holds) : holds (state (step s)) := by
  cases hstep : step s with
  | ok value t => exact h.of_ok hstep
  | error fault t => exact h.of_error hstep

theorem state_bind_pure (step : EStateM ε σ α) (result : α → β) (s : σ) :
    state ((step >>= fun value => pure (result value)) s) = state (step s) := by
  cases hstep : step s with
  | ok value t =>
    rw [bind_of_ok hstep]
    rfl
  | error fault t => rw [bind_of_error hstep, state, state]

/-- The value or the fault, without the state. -/
def answer : EStateM.Result ε σ α → Except ε α
  | .ok value _ => .ok value
  | .error fault _ => .error fault

/-- The same end, with the image of the state. -/
def mapState (image : σ → τ) : EStateM.Result ε σ α → EStateM.Result ε τ α
  | .ok value s => .ok value (image s)
  | .error fault s => .error fault (image s)

theorem state_mapState (image : σ → τ) (result : EStateM.Result ε σ α) :
    state (mapState image result) = image (state result) := by
  cases result <;> rfl

theorem answer_mapState (image : σ → τ) (result : EStateM.Result ε σ α) :
    answer (mapState image result) = answer result := by
  cases result <;> rfl

/-- From `s` the one action ends as the other does from the image of `s`. -/
def Mirrors (image : σ → τ) (step : EStateM ε σ α) (step' : EStateM ε τ α) (s : σ) : Prop :=
  mapState image (step s) = step' (image s)

section

variable {image : σ → τ} {step : EStateM ε σ α} {step' : EStateM ε τ α}
  {rest : α → EStateM ε σ β} {rest' : α → EStateM ε τ β} {s : σ}

theorem mirrors_pure (value : α) :
    Mirrors image (pure value : EStateM ε σ α) (pure value) s := rfl

theorem Mirrors.bind (h : Mirrors image step step' s)
    (hrest : ∀ value t, Mirrors image (rest value) (rest' value) t) :
    Mirrors image (step >>= rest) (step' >>= rest') s := by
  unfold Mirrors at h ⊢
  cases hstep : step s with
  | ok value t =>
    rw [hstep] at h
    rw [bind_of_ok hstep, bind_of_ok h.symm]
    exact hrest value t
  | error fault t =>
    rw [hstep] at h
    rw [bind_of_error hstep, bind_of_error h.symm]
    rfl

theorem mirrors_get_bind {rest : σ → EStateM ε σ β} {rest' : τ → EStateM ε τ β}
    (h : Mirrors image (rest s) (rest' (image s)) s) :
    Mirrors image (get >>= rest) (get >>= rest') s := h

end

section

variable {image : σ → τ}

theorem mirrors_times {step : Action σ Unit} {step' : Action τ Unit}
    (h : ∀ s, Mirrors image step step' s) (count : Nat) (s : σ) :
    Mirrors image (times count step) (times count step') s := by
  induction count generalizing s with
  | zero => rfl
  | succ count ih => exact (h s).bind fun _ t => ih t

theorem mirrors_forEach {step : α → Action σ Unit} {step' : α → Action τ Unit}
    (h : ∀ a s, Mirrors image (step a) (step' a) s) (list : List α) (s : σ) :
    Mirrors image (forEach step list) (forEach step' list) s := by
  induction list generalizing s with
  | nil => rfl
  | cons a list ih => exact (h a s).bind fun _ t => ih t

end

end LineEditor.Action
