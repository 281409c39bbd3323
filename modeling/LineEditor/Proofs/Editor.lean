import LineEditor.Key

/-!
# What keys do to a line

The plainest editor: a list of cells and a cursor between them.  It has no terminal, no storage and
no failures, so it says what a line should be after some keys.

* `Editor.press` — what one key does.
* `Editor.typed` — the editor after some keys on an empty line.
* `Editor.text` — the text of the line, ended by a line feed.
* `Editor.lines` — the keys of each line, without the presses of Enter between them.
-/

set_option autoImplicit false

namespace LineEditor

/-- A list of cells and a cursor, with `cursor` cells in front of it. -/
structure Editor where
  cells : List Cell
  cursor : Nat
  /-- was Enter pressed? -/
  ended : Bool
  inside : cursor ≤ cells.length
  deriving DecidableEq

namespace Editor

/-! ## Keys -/

/-- The editor of an empty line. -/
def blank : Editor := ⟨[], 0, false, Nat.le_refl _⟩

/-- Put a cell in front of the cursor. -/
def insert (editor : Editor) (cell : Cell) : Editor where
  cells := editor.cells.take editor.cursor ++ cell :: editor.cells.drop editor.cursor
  cursor := editor.cursor + 1
  ended := editor.ended
  inside := by
    rw [List.length_append, List.length_take_of_le editor.inside, List.length_cons]
    omega

/-- Take the cell in front of the cursor out, if there is one. -/
def backspace (editor : Editor) : Editor where
  cells := editor.cells.take (editor.cursor - 1) ++ editor.cells.drop editor.cursor
  cursor := editor.cursor - 1
  ended := editor.ended
  inside := by
    have := editor.inside
    rw [List.length_append, List.length_take_of_le (by omega)]
    omega

/-- Move the cursor over the cell in front of it, if there is one. -/
def left (editor : Editor) : Editor :=
  { editor with cursor := editor.cursor - 1, inside := by have := editor.inside; omega }

/-- Move the cursor over the cell behind it, if there is one. -/
def right (editor : Editor) : Editor :=
  { editor with
    cursor := min (editor.cursor + 1) editor.cells.length, inside := Nat.min_le_right _ _ }

/-- End the line. -/
def finish (editor : Editor) : Editor := { editor with ended := true }

/-- What a key does: nothing once the line is ended. -/
def press (editor : Editor) (key : Key) : Editor :=
  if editor.ended then editor
  else
    match key with
    | .printable cell => if cell.isInsertable then editor.insert cell else editor
    | .control .backspace => editor.backspace
    | .control .left => editor.left
    | .control .right => editor.right
    | .control .enter => editor.finish
    | .control _ => editor

/-- What some keys do, one after another. -/
def pressAll (editor : Editor) (keys : List Key) : Editor := keys.foldl press editor

/-- The editor after some keys on an empty line. -/
def typed (keys : List Key) : Editor := blank.pressAll keys

/-- The text of the line, ended by a line feed. -/
def text (editor : Editor) : String :=
  String.ofList (editor.cells.filterMap Cell.char? ++ ['\n'])

variable {editor : Editor} {key : Key} {keys more : List Key} {cell : Cell}

/-! ## Around the cursor -/

theorem take_insert (editor : Editor) (cell : Cell) :
    (editor.insert cell).cells.take (editor.cursor + 1) =
      editor.cells.take editor.cursor ++ [cell] := by
  have hlength := List.length_take_of_le editor.inside
  rw [insert, List.take_append, hlength, Nat.add_sub_cancel_left,
    List.take_of_length_le (by omega)]
  rfl

theorem drop_insert (editor : Editor) (cell : Cell) :
    (editor.insert cell).cells.drop (editor.cursor + 1) = editor.cells.drop editor.cursor := by
  have hlength := List.length_take_of_le editor.inside
  rw [insert, List.drop_append, hlength, Nat.add_sub_cancel_left,
    List.drop_of_length_le (by omega)]
  rfl

theorem length_insert (editor : Editor) (cell : Cell) :
    (editor.insert cell).cells.length = editor.cells.length + 1 := by
  have := editor.inside
  rw [insert, List.length_append, List.length_take_of_le this, List.length_cons, List.length_drop]
  omega

theorem take_backspace (editor : Editor) :
    editor.backspace.cells.take (editor.cursor - 1) = editor.cells.take (editor.cursor - 1) := by
  have hinside := editor.inside
  have hlength : (editor.cells.take (editor.cursor - 1)).length = editor.cursor - 1 :=
    List.length_take_of_le (by omega)
  rw [backspace, List.take_append, hlength, Nat.sub_self, List.take_zero, List.append_nil,
    List.take_of_length_le (by omega)]

theorem drop_backspace (editor : Editor) :
    editor.backspace.cells.drop (editor.cursor - 1) = editor.cells.drop editor.cursor := by
  have hinside := editor.inside
  have hlength : (editor.cells.take (editor.cursor - 1)).length = editor.cursor - 1 :=
    List.length_take_of_le (by omega)
  rw [backspace, List.drop_append, hlength, Nat.sub_self, List.drop_of_length_le (by omega)]
  rfl

/-- The cells in front of the cursor end with the one that `backspace` takes out. -/
theorem cells_eq_of_pos (h : 0 < editor.cursor) :
    editor.cells = editor.cells.take (editor.cursor - 1) ++
      editor.cells.getD (editor.cursor - 1) Cell.empty :: editor.cells.drop editor.cursor := by
  have hinside : editor.cursor - 1 < editor.cells.length := by
    have := editor.inside
    omega
  have hdrop := List.drop_eq_getElem_cons hinside
  rw [Nat.sub_add_cancel h] at hdrop
  rw [List.getD_eq_getElem?_getD, List.getElem?_eq_getElem hinside, Option.getD_some, ← hdrop,
    List.take_append_drop]

/-- With no cell in front of the cursor there is nothing to take out. -/
theorem backspace_of_zero (h : editor.cursor = 0) : editor.backspace = editor := by
  cases editor
  subst h
  rfl

theorem left_of_zero (h : editor.cursor = 0) : editor.left = editor := by
  cases editor
  subst h
  rfl

theorem right_of_end (h : editor.cells.length ≤ editor.cursor) : editor.right = editor := by
  have hcursor : min (editor.cursor + 1) editor.cells.length = editor.cursor := by
    have := editor.inside
    omega
  cases editor
  simpa only [right, mk.injEq, and_true, true_and] using hcursor

theorem length_press_le (editor : Editor) (key : Key) :
    (editor.press key).cells.length ≤ editor.cells.length + 1 := by
  unfold press
  split
  · omega
  · cases key with
    | printable cell =>
      dsimp only
      split
      · exact Nat.le_of_eq (editor.length_insert cell)
      · omega
    | control control =>
      cases control with
      | backspace =>
        simp only [backspace, List.length_append, List.length_take, List.length_drop]
        omega
      | _ => exact Nat.le_succ _

/-- A key makes a line longer by at most one cell. -/
theorem length_pressAll_le (editor : Editor) (keys : List Key) :
    (editor.pressAll keys).cells.length ≤ editor.cells.length + keys.length := by
  induction keys generalizing editor with
  | nil => exact Nat.le_refl _
  | cons key keys ih =>
    have hkey := editor.length_press_le key
    have hkeys := ih (editor.press key)
    rw [List.length_cons]
    exact Nat.le_trans hkeys (by omega)

/-! ## Every cell was typed -/

/-- **A cell that a key leaves in the line** was there before or is the one that was typed. -/
theorem mem_press (h : cell ∈ (editor.press key).cells) :
    cell ∈ editor.cells ∨ key = .printable cell ∧ cell.isInsertable := by
  unfold press at h
  split at h
  · exact .inl h
  · cases key with
    | printable c =>
      dsimp only at h
      split at h
      · next hc =>
        rcases List.mem_append.mp h with htake | hcons
        · exact .inl (List.mem_of_mem_take htake)
        · rcases List.mem_cons.mp hcons with rfl | hdrop
          · exact .inr ⟨rfl, hc⟩
          · exact .inl (List.mem_of_mem_drop hdrop)
      · exact .inl h
    | control control =>
      left
      cases control with
      | backspace =>
        rcases List.mem_append.mp h with htake | hdrop
        · exact List.mem_of_mem_take htake
        · exact List.mem_of_mem_drop hdrop
      | _ => exact h

/-! ## The end of a line -/

theorem ended_press (h : editor.ended = false) :
    (editor.press key).ended = true ↔ key = .control .enter := by
  unfold press
  rw [if_neg (by rw [h]; exact Bool.false_ne_true)]
  cases key with
  | printable c =>
    dsimp only
    split <;> simp [insert, h]
  | control control => cases control <;> simp [backspace, left, right, finish, h]

/-- A line is open as long as Enter is not among its keys. -/
theorem ended_typed (h : .control .enter ∉ keys) : (typed keys).ended = false := by
  suffices hall : ∀ editor : Editor, editor.ended = false → (editor.pressAll keys).ended = false from
    hall blank rfl
  induction keys with
  | nil => exact fun _ h => h
  | cons key keys ih =>
    intro editor heditor
    rw [List.mem_cons, not_or] at h
    refine ih h.2 _ (Bool.eq_false_iff.mpr fun hended => ?_)
    exact h.1 ((ended_press heditor).mp hended).symm

theorem press_enter (h : editor.ended = false) : editor.press (.control .enter) = editor.finish := by
  rw [press, if_neg (by rw [h]; exact Bool.false_ne_true)]

/-! ## Lines -/

/-- The keys of each line, without the presses of Enter between them. -/
def lines (keys : List Key) : List (List Key) := keys.splitOn (.control .enter)

theorem lines_of_not_mem (h : .control .enter ∉ keys) : lines keys = [keys] :=
  List.splitOn_eq_singleton h

theorem lines_append_enter (h : .control .enter ∉ keys) (rest : List Key) :
    lines (keys ++ .control .enter :: rest) = keys :: lines rest :=
  List.splitOn_append_cons_self_of_not_mem h rest

/-- Keys are one line, or a line, the press of Enter that ends it, and the keys of other lines. -/
theorem lines_cases (keys : List Key) :
    .control .enter ∉ keys ∧ lines keys = [keys] ∨
      ∃ line rest, .control .enter ∉ line ∧ keys = line ++ .control .enter :: rest ∧
        lines keys = line :: lines rest := by
  by_cases h : (.control .enter : Key) ∈ keys
  · obtain ⟨line, rest, rfl, hline⟩ := List.eq_append_cons_of_mem h
    exact .inr ⟨line, rest, hline, rfl, lines_append_enter hline rest⟩
  · exact .inl ⟨h, lines_of_not_mem h⟩

end Editor

end LineEditor
