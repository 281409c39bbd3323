import LineEditor.Proofs.Input.Spelling
import LineEditor.Proofs.Session.Safety

/-!
# What sessions are made of

A session can be driven by hand, key by key and also past failures, or by a source of keys until Enter
or the end.  Either way nothing is in its line but what was typed, and the text that it hands out at
the end is the one of this line.

* `Key.Typed` — a cell of a line: it was typed, and holds a character that is no control character.
* `Driven` — the sessions that some keys lead to.
* `driven_sound` — **the law**: all cells of such a session were typed.
* `readKeys_driven`, `run_driven` — a source of keys drives a session.
* `finish_compose` — the text that is handed out.
-/

set_option autoImplicit false

open LineEditor.Action

namespace LineEditor

/-- The cell is the one of a key, and may stand in a line. -/
def Key.Typed (keys : List Key) (cell : Cell) : Prop :=
  .printable cell ∈ keys ∧ cell.isInsertable = true

theorem Key.Typed.mono {keys more : List Key} {cell : Cell} (h : Key.Typed keys cell)
    (hmore : ∀ key ∈ keys, key ∈ more) : Key.Typed more cell := ⟨hmore _ h.1, h.2⟩

/-- One more key adds at most the cell that it is the key of. -/
theorem Key.typed_snoc {typed : List Key} {key : Key} {cells next : List Cell}
    (h : ∀ cell ∈ cells, Key.Typed typed cell)
    (hnext : ∀ cell ∈ next, cell ∈ cells ∨ key = .printable cell ∧ cell.isInsertable = true) :
    ∀ cell ∈ next, Key.Typed (typed ++ [key]) cell := by
  intro cell hcell
  rcases hnext cell hcell with hold | ⟨rfl, hinsertable⟩
  · exact (h cell hold).mono fun other hother => List.mem_append_left _ hother
  · exact ⟨List.mem_append_right _ List.mem_cons_self, hinsertable⟩

namespace Session

variable {τ : Type} [Terminal τ] {width : Char → Nat} {settings : Settings} {start : τ}
  {session : Session τ} {typed : List Key}

/-! ## Sessions that are driven -/

/-- The sessions that some keys can lead to, starting with an empty line on the terminal `start`.  Keys
are taken one after another, also after failures. -/
inductive Driven (width : Char → Nat) (settings : Settings) (start : τ) :
    List Key → Session τ → Prop where
  | create {memory after : Memory} {session : Session τ}
    (h : create start settings memory = .ok session after) : Driven width settings start [] session
  | key {typed : List Key} {session : Session τ} (h : Driven width settings start typed session)
    (key : Key) : Driven width settings start (typed ++ [key]) (state (processKey width key session))

/-- **Nothing but what was typed is in the line of a session.** -/
theorem driven_sound (h : Driven width settings start typed session) :
    ∃ supply editor, session.Edits supply editor ∧ ∀ cell ∈ editor.cells, Key.Typed typed cell := by
  induction h with
  | create h => exact ⟨_, _, (edits_of_create h).1, fun _ hcell => nomatch hcell⟩
  | @key typed session h key ih =>
    obtain ⟨supply, editor, hedits, hcells⟩ := ih
    obtain ⟨next, hnext, hkept⟩ := hedits.taken width key
    exact ⟨supply, next, hnext, Key.typed_snoc hcells hkept⟩

/-! ## The end of a line -/

/-- A step that leaves the line alone. -/
def keepsLine (τ : Type) : Change Failure (Session τ) where
  passes before after := after.line = before.line
  fails _ _ _ := True
  refl _ := rfl
  trans h h' := h'.trans h
  fails_after _ _ := trivial

omit [Terminal τ] in
theorem onTerminal_keepsLine {α : Type} (step : Action τ α) : Has (keepsLine τ) (onTerminal step) := by
  intro session
  unfold Ends onTerminal within
  cases step session.terminal with
  | ok value terminal => exact rfl
  | error failure terminal => exact trivial

theorem moveRight_keepsLine : Has (keepsLine τ) (moveRight width) :=
  has_moveRight width (onTerminal_keepsLine Terminal.moveRight) fun _ _ => rfl

/-- The text that is handed out is the one of the line, whatever the terminal does. -/
theorem finish_compose (width : Char → Nat) (terminator : String) (session : Session τ) :
    Ends (finish width terminator) session (fun text _ => text = session.line.compose)
      fun _ _ => True := by
  have hmove : Has (keepsLine τ) (moveRightBy width (session.line.size - session.position)) :=
    moveRight_keepsLine.times _
  have hput : Has (keepsLine τ) (putAll (terminator.toList.map Cell.ofChar)) :=
    has_forEach (fun cell => onTerminal_keepsLine (Terminal.put cell)) _
  have hdrawn := hmove.bind fun _ => hput.bind fun _ => onTerminal_keepsLine Terminal.flush
  have hfinish : finish width terminator session =
      ((do
        moveRightBy width (session.line.size - session.position)
        putAll (terminator.toList.map Cell.ofChar)
        onTerminal Terminal.flush) >>= fun _ => do return (← get).line.compose) session := by
    rw [finish, get_bind]
    simp only [bind_assoc]
  refine Ends.of_eq ((hdrawn session).bind fun _ last hlast => ?_) hfinish
  exact ends_of_ok rfl (congrArg Line.compose hlast)

/-! ## Sources of keys -/

variable {κ : Type} [KeySource κ] {keys : κ}

/-- **A source of keys drives a session.** -/
theorem readKeys_driven (h : Driven width settings start typed session) (keys : κ) :
    ∃ more rest, KeySource.Yields keys more rest ∧
      Driven width settings start (typed ++ more) (state (readKeys width session keys)).1 := by
  fun_induction readKeys width session keys generalizing typed with
  | case1 session keys hphase => exact ⟨[], keys, .nil keys, by rwa [List.append_nil]⟩
  | case2 session keys hphase failure next hread hended =>
    exact ⟨[], keys, .nil keys, by rwa [List.append_nil]⟩
  | case3 session keys hphase failure next hread hopen =>
    exact ⟨[], keys, .nil keys, by rwa [List.append_nil]⟩
  | case4 session keys hphase key next hread failure stopped hrun =>
    have hnext := h.key key
    rw [hrun] at hnext
    exact ⟨[key], next, .cons hread (.nil next), hnext⟩
  | case5 session keys hphase next phase last hread hrun =>
    have hnext := h.key (.control .enter)
    rw [hrun] at hnext
    exact ⟨[.control .enter], next, .cons hread (.nil next), hnext⟩
  | case6 session keys hphase key next hread phase last hrun henter ih =>
    have hnext := h.key key
    rw [hrun] at hnext
    obtain ⟨more, rest, hyields, hdriven⟩ := ih hnext
    exact ⟨key :: more, rest, .cons hread hyields, by simpa using hdriven⟩

/-- **The line that a source of keys leads to is finished, or what failed on the way is told.** -/
theorem run_driven (h : Driven width settings start typed session) (keys : κ) (terminator : String) :
    ∃ more rest middle, KeySource.Yields keys more rest ∧
      Driven width settings start (typed ++ more) middle ∧
      Ends (run width terminator) (session, keys)
        (fun outcome last => finish width terminator middle = .ok outcome.line last.1)
        fun failure last => last.1 = middle ∨ finish width terminator middle = .error failure last.1 := by
  obtain ⟨more, rest, hyields, hdriven⟩ := readKeys_driven h keys
  refine ⟨more, rest, _, hyields, hdriven, ?_⟩
  unfold Ends run
  dsimp only
  cases hloop : readKeys width session keys with
  | error failure last => exact .inl rfl
  | ok endOfInput last =>
    dsimp only [state]
    cases hfinish : finish width terminator last.1 with
    | ok line finished => exact rfl
    | error failure finished => exact .inr rfl

end Session

end LineEditor
