import LineEditor.Proofs.Text.Encoding

/-!
# The pieces of a text

The line feeds of a text part it into pieces, one more than there are line feeds.  The last piece is a line
only if it is not empty.

* `Text.pieces`, `Text.lines` — the pieces, and those of them that are lines.
* `Text.pieces_induction` — a text is its last piece, or a piece, a line feed and another text.
* `Text.join_lines` — the lines, each with a line feed, make up the text and the line feed that it lacks.
* `Utf8.lineFeed_not_mem_encode` — in an encoding the byte of a line feed is a line feed.
-/

set_option autoImplicit false

namespace LineEditor

namespace Text

/-- The pieces of a text between its line feeds. -/
def pieces (text : List Char) : List (List Char) := text.splitOn '\n'

/-- The lines of a text: its pieces but for an empty last one. -/
def lines (text : List Char) : List (List Char) :=
  if (pieces text).getLast? = some [] then (pieces text).dropLast else pieces text

/-- The piece with a line feed behind it. -/
def closed (piece : List Char) : String := String.ofList (piece ++ ['\n'])

/-- The line feed that a text lacks if it is not empty and does not end in one. -/
def lacking (text : List Char) : List Char :=
  if text ≠ [] ∧ text.getLast? ≠ some '\n' then ['\n'] else []

variable {piece : List Char}

/-! ## From piece to piece -/

/-- A text without a line feed is its only piece. -/
theorem pieces_last (h : '\n' ∉ piece) : pieces piece = [piece] := List.splitOn_eq_singleton h

theorem pieces_line (h : '\n' ∉ piece) (rest : List Char) :
    pieces (piece ++ '\n' :: rest) = piece :: pieces rest :=
  List.splitOn_append_cons_self_of_not_mem h rest

theorem pieces_ne_nil (text : List Char) : pieces text ≠ [] := List.splitOn_ne_nil _ _

/-- What holds of every piece, and of a text behind a piece and a line feed if it holds of the text,
holds of all texts. -/
@[elab_as_elim]
theorem pieces_induction {motive : List Char → Prop} (last : ∀ piece, '\n' ∉ piece → motive piece)
    (line : ∀ piece rest, '\n' ∉ piece → motive rest → motive (piece ++ '\n' :: rest))
    (text : List Char) : motive text := by
  induction hlength : text.length using Nat.strongRecOn generalizing text with
  | _ length ih =>
    by_cases hfeed : '\n' ∈ text
    · obtain ⟨piece, rest, rfl, hpiece⟩ := List.eq_append_cons_of_mem hfeed
      refine line piece rest hpiece (ih rest.length ?_ rest rfl)
      rw [← hlength, List.length_append, List.length_cons]
      omega
    · exact last text hfeed

theorem lines_last (h : '\n' ∉ piece) : lines piece = if piece = [] then [] else [piece] := by
  have hlast : [piece].getLast? = some piece := rfl
  rw [lines, pieces_last h, hlast]
  by_cases hempty : piece = []
  · rw [if_pos hempty, if_pos (congrArg some hempty)]
    rfl
  · rw [if_neg hempty, if_neg fun hlast => hempty (Option.some.inj hlast)]

theorem lines_line (h : '\n' ∉ piece) (rest : List Char) :
    lines (piece ++ '\n' :: rest) = piece :: lines rest := by
  rw [lines, lines, pieces_line h, List.getLast?_cons_of_ne_nil (pieces_ne_nil rest),
    List.dropLast_cons_of_ne_nil (pieces_ne_nil rest)]
  split <;> rfl

theorem lacking_last (h : '\n' ∉ piece) : lacking piece = if piece = [] then [] else ['\n'] := by
  have hlast : piece.getLast? ≠ some '\n' := fun hlast => h (List.mem_of_getLast? hlast)
  unfold lacking
  by_cases hempty : piece = []
  · rw [if_pos hempty, if_neg fun hlacks => hlacks.1 hempty]
  · rw [if_neg hempty, if_pos ⟨hempty, hlast⟩]

theorem lacking_line (piece rest : List Char) : lacking (piece ++ '\n' :: rest) = lacking rest := by
  have hne : piece ++ '\n' :: rest ≠ [] := List.append_ne_nil_of_right_ne_nil _ (List.cons_ne_nil _ _)
  have hend : (piece ++ '\n' :: rest).getLast? = ('\n' :: rest).getLast? := by
    rw [List.getLast?_append, List.getLast?_cons, Option.some_or]
  unfold lacking
  rw [hend]
  by_cases hempty : rest = []
  · subst hempty
    rw [if_neg fun hlacks => hlacks.2 rfl, if_neg fun hlacks => hlacks.1 rfl]
  · rw [List.getLast?_cons_of_ne_nil hempty]
    simp only [ne_eq, hne, hempty, not_false_eq_true, true_and]

theorem flatMap_lines (text : List Char) :
    (lines text).flatMap (· ++ ['\n']) = text ++ lacking text := by
  induction text using pieces_induction with
  | last piece h =>
    rw [lines_last h, lacking_last h]
    by_cases hempty : piece = []
    · rw [if_pos hempty, if_pos hempty, hempty]
      rfl
    · rw [if_neg hempty, if_neg hempty, List.flatMap_singleton]
  | line piece rest h ih =>
    rw [lines_line h, List.flatMap_cons, ih, lacking_line, List.append_assoc, List.append_assoc]
    rfl

/-- **The lines, each with a line feed, make up the text** and the line feed that it lacks. -/
theorem join_lines (text : List Char) :
    String.join ((lines text).map closed) = String.ofList (text ++ lacking text) := by
  apply String.toList_inj.mp
  rw [String.toList_join, String.toList_ofList, List.flatMap_map, ← flatMap_lines]
  simp only [closed, String.toList_ofList]

end Text

/-- **In an encoding the byte of a line feed is a line feed.** -/
theorem Utf8.lineFeed_not_mem_encode {piece : List Char} (h : '\n' ∉ piece) : 10 ∉ encode piece := by
  intro hmem
  obtain ⟨c, hc, hbyte⟩ := List.mem_flatMap.mp hmem
  have hvalue : c.toNat = '\n'.toNat := toNat_of_mem_encode hbyte (by decide)
  rw [Char.toNat_inj.mp hvalue] at hc
  exact h hc

end LineEditor
