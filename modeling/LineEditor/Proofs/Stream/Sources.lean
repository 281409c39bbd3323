import LineEditor.LineSource
import LineEditor.Proofs.Action.Outcomes

/-!
# Sources of lines over time

A source is read again and again, whatever the reads before came to.

* `LineSource.after` — the source behind a number of reads.
* `LineSource.Supplies` — a source of some lines and failures that then ends for good.
* `LineSource.text` — the characters of all its lines, without carriage returns.
-/

set_option autoImplicit false

open LineEditor.Action

namespace LineEditor

namespace LineSource

/-- What a source hands out at a time: a line or a failure. -/
abbrev Item : Type := Except Failure String

/-- A line ends with a line feed, and a failure does not say that the input has ended. -/
def Proper : Item → Prop
  | .ok line => line.toList.getLast? = some '\n'
  | .error failure => failure.isEndOfInput = false

instance : DecidablePred Proper
  | .ok line => inferInstanceAs (Decidable (line.toList.getLast? = some '\n'))
  | .error failure => inferInstanceAs (Decidable (failure.isEndOfInput = false))

/-- The characters of an item: those of a line, without carriage returns. -/
def characters : Item → List Char
  | .ok line => line.toList.filter (· ≠ '\r')
  | .error _ => []

/-- The characters of all items, in order. -/
def text (items : List Item) : List Char := items.flatMap characters

variable {σ : Type} [LineSource σ] {source : σ} {items : List Item} {item : Item} {count : Nat}

/-- The source after a number of reads, whatever they came to. -/
def after : Nat → σ → σ
  | 0, source => source
  | count + 1, source => after count (state (readLine source))

/-- The source hands out these items, one at a time, and from then on nothing but the end of the
input. -/
def Supplies (source : σ) (items : List Item) : Prop :=
  ∀ count, match items[count]? with
    | some item => answer (readLine (after count source)) = item
    | none => ∃ failure, answer (readLine (after count source)) = .error failure ∧
        failure.isEndOfInput = true

theorem after_succ (count : Nat) (source : σ) :
    after (count + 1) source = state (readLine (after count source)) := by
  induction count generalizing source with
  | zero => rfl
  | succ count ih => exact ih (state (readLine source))

/-- One more read: the next item, or the end of the input behind the last. -/
theorem Supplies.read (h : Supplies source items) (count : Nat) :
    (∃ line, items[count]? = some (.ok line) ∧
      readLine (after count source) = .ok line (after (count + 1) source)) ∨
    (∃ failure, items[count]? = some (.error failure) ∧
      readLine (after count source) = .error failure (after (count + 1) source)) ∨
    items.length ≤ count ∧ ∃ failure, failure.isEndOfInput = true ∧
      readLine (after count source) = .error failure (after (count + 1) source) := by
  have hanswer := h count
  rw [after_succ]
  cases hitem : items[count]? with
  | none =>
    rw [hitem] at hanswer
    obtain ⟨failure, hfailure, hended⟩ := hanswer
    refine .inr (.inr ⟨List.getElem?_eq_none_iff.mp hitem, failure, hended, ?_⟩)
    cases hread : readLine (after count source) <;> rw [hread] at hfailure <;> cases hfailure
    rfl
  | some item =>
    rw [hitem] at hanswer
    cases hread : readLine (after count source) with
    | ok line next =>
      rw [hread] at hanswer
      exact .inl ⟨line, congrArg some hanswer.symm, rfl⟩
    | error failure next =>
      rw [hread] at hanswer
      exact .inr (.inl ⟨failure, congrArg some hanswer.symm, rfl⟩)

theorem text_take_succ (h : items[count]? = some item) :
    text (items.take (count + 1)) = text (items.take count) ++ characters item := by
  rw [text, List.take_add_one, h, List.flatMap_append]
  exact congrArg (_ ++ ·) (List.append_nil _)

/-- The line feed of a line is delivered. -/
theorem characters_ne_nil {line : String} (h : Proper (.ok line)) : characters (.ok line) ≠ [] := by
  have hfeed : '\n' ∈ characters (.ok line) :=
    List.mem_filter.mpr ⟨List.mem_of_getLast? h, by decide⟩
  exact List.ne_nil_of_mem hfeed

theorem supplies_script (items : List Item) : Supplies (⟨items⟩ : LineScript) items := by
  intro count
  induction count generalizing items with
  | zero => cases items with
    | nil => exact ⟨.endOfInput, rfl, by decide⟩
    | cons item items => cases item <;> rfl
  | succ count ih => cases items with
    | nil => exact ih []
    | cons item items => cases item <;> exact ih items

end LineSource

end LineEditor
