import LineEditor.Proofs.Reader.SameText
import LineEditor.Proofs.Stream.Delivery

/-!
# Where a stream ends

A stream says that it may have another character for as long as one is left, and once it has said that
there is none, there is none.  Between the two its source may still have to be asked: behind a last line
feed nobody knows yet that the text is over.

* `LineSource.Drains.supplies` — a source that is drained of some lines supplies just these;
  `Drains.finished` — it closes behind the last of them.
* `CharStream.Over` — a stream without another character; `Over.reached` — it stays so.
* `CharStream.Iterates` — an iteration to the end; `Reads.iterates` — there is one from everywhere.
* `CharStream.ends_with_text` — the law for plain text.
-/

set_option autoImplicit false

open LineEditor.Action

namespace LineEditor

/-! ## Sources that are drained -/

namespace LineSource

variable {σ : Type} [LineSource σ] {source next last : σ} {line : String} {lines : List String}
  {failure : Failure} {count : Nat}

/-- The items of a source that hands out these lines and never fails. -/
def itemsOf (lines : List String) : List Item := lines.map .ok

theorem after_of_ok (h : readLine source = .ok line next) (count : Nat) :
    after (count + 1) source = after count next := by
  rw [after, h, state]

theorem after_of_error (h : readLine source = .error failure next) (count : Nat) :
    after (count + 1) source = after count next := by
  rw [after, h, state]

theorem Finished.after (h : Finished source) (count : Nat) : after count source = source := by
  induction count with
  | zero => rfl
  | succ count ih => rw [after_of_error h.readLine, ih]

/-- **A drained source supplies the lines that it was drained of**, and no failure. -/
theorem Drains.supplies (h : Drains source lines last) (hlast : Finished last) :
    Supplies source (itemsOf lines) := by
  intro count
  have hended : ∃ failure, answer (readLine last) = .error failure ∧ failure.isEndOfInput = true := by
    rw [hlast.readLine]
    exact ⟨.endOfInput, rfl, Failure.isEndOfInput_endOfInput⟩
  induction h generalizing count with
  | closed =>
    rw [hlast.after]
    exact hended
  | line hnext hread hlines ih =>
    cases count with
    | zero => exact congrArg answer hread
    | succ count =>
      rw [after_of_ok hread]
      exact ih hlast count hended
  | ended hnext hread hend =>
    cases count with
    | zero => exact ⟨_, congrArg answer hread, hend⟩
    | succ count =>
      rw [after_of_error hread, hlast.after]
      exact hended

/-- **A drained source closes behind its last line**, and not before. -/
theorem Drains.finished (h : Drains source lines last) (hlast : Finished last)
    (hclosed : hasNext (after count source) = false) :
    lines.length ≤ count ∧ Finished (after count source) := by
  induction h generalizing count with
  | closed =>
    rw [hlast.after]
    exact ⟨Nat.zero_le _, hlast⟩
  | line hnext hread hlines ih =>
    cases count with
    | zero => exact absurd (hnext.symm.trans hclosed) (by decide)
    | succ count =>
      rw [after_of_ok hread] at hclosed ⊢
      obtain ⟨hlength, hfinished⟩ := ih hlast hclosed
      exact ⟨Nat.succ_le_succ hlength, hfinished⟩
  | ended hnext hread hend =>
    cases count with
    | zero => exact absurd (hnext.symm.trans hclosed) (by decide)
    | succ count =>
      rw [after_of_error hread, hlast.after]
      exact ⟨Nat.zero_le _, hlast⟩

/-- A source that was read more often than it has lines is drained. -/
theorem Drains.after_eq (h : Drains source lines last) (hlast : Finished last)
    (hcount : lines.length < count) : after count source = last := by
  induction h generalizing count with
  | closed => exact hlast.after count
  | line hnext hread hlines ih =>
    cases count with
    | zero => simp at hcount
    | succ count =>
      rw [after_of_ok hread]
      apply ih hlast
      simpa using hcount
  | ended hnext hread hend =>
    cases count with
    | zero => simp at hcount
    | succ count => rw [after_of_error hread, hlast.after]

theorem proper_itemsOf (h : ∀ line ∈ lines, line.toList.getLast? = some '\n') :
    ∀ item ∈ itemsOf lines, Proper item := by
  intro item hitem
  obtain ⟨line, hline, rfl⟩ := List.mem_map.mp hitem
  exact h line hline

theorem itemsOf_ne_error (count : Nat) (failure : Failure) :
    (itemsOf lines)[count]? ≠ some (.error failure) := by
  simp [itemsOf]

end LineSource

namespace CharStream

open LineSource

variable {σ : Type} [LineSource σ] {start last : σ} {lines : List String} {count offset : Nat}
  {passed : List Char} {stream : CharStream σ}

/-! ## Behind the end -/

/-- The line is used up, and there is no other: the end was met, or the source has closed. -/
structure Over (offset : Nat) (stream : CharStream σ) : Prop where
  rest : stream.rest = []
  closed : stream.finished = true ∨ LineSource.Finished stream.source
  offset : stream.offset = offset

/-- Looking for a character finds none. -/
theorem Over.fill (h : Over offset stream) :
    ∃ filled, CharStream.fill stream = .ok () filled ∧ filled.Filled ∧ Over offset filled := by
  by_cases hfilled : stream.Filled
  · exact ⟨stream, if_pos hfilled, hfilled, h⟩
  · have hclosed : LineSource.Finished stream.source := by
      apply h.closed.resolve_left
      intro hfinished
      apply hfilled
      simp [Filled, hfinished]
    have hfill := fill_of_end hfilled hclosed.readLine Failure.isEndOfInput_endOfInput
    exact ⟨_, hfill, filled_of_not_wantsLine rfl, rfl, .inl rfl, h.offset⟩

/-- **Once it is over, a stream stays over**, whatever is asked of it. -/
theorem Over.reached (h : Over offset stream) (requests : List Request) :
    Over offset (CharStream.reached requests stream) := by
  apply @reached_keeps σ _ [] stream (fun _ stream => Over offset stream)
  · intro _ stream hover
    obtain ⟨filled, hfill, -, hfilled⟩ := hover.fill
    rw [hfill, state]
    exact hfilled
  · intro _ stream hover
    rw [passOver_of_nil hover.rest]
    exact hover
  · exact h

/-- A stream that is over says so, and hands out nothing. -/
theorem Over.answers (h : Over offset stream) :
    hasNext stream = false ∧ answer (peek stream) = .ok none ∧ answer (grab stream) = .ok none ∧
      (next stream).1 = none ∧ stream.offset = offset := by
  obtain ⟨filled, hfill, hfilled, hover⟩ := h.fill
  have hpeek := peek_of_fill hfill
  have hgrab := grab_of_fill hfill hfilled
  rw [hover.rest, List.head?_nil] at hpeek hgrab
  refine ⟨?_, ?_, ?_, ?_, h.offset⟩
  · rcases h.closed with hfinished | hclosed
    · simp [hasNext, h.rest, hfinished]
    · simp [hasNext, h.rest, hclosed.hasNext]
  · rw [hpeek, answer]
  · rw [hgrab, answer]
  · simp [next, hgrab]

/-! ## Up to the end -/

/-- An iteration over the stream hands out these characters and then ends. -/
inductive Iterates : CharStream σ → List Char → CharStream σ → Prop where
  | ended {stream last : CharStream σ} (hnext : next stream = (none, last)) : Iterates stream [] last
  | char {stream after last : CharStream σ} {c : Char} {text : List Char}
      (hnext : next stream = (some (.ok c), after)) (hrest : Iterates after text last) :
      Iterates stream (c :: text) last

/-- **A stream says that it is over only behind the whole text.** -/
theorem Reads.over (h : Reads start (itemsOf lines) count passed stream) (hdrains : Drains start lines last)
    (hlast : Finished last) (hnone : hasNext stream = false) :
    Over stream.offset stream ∧ passed = LineSource.text (itemsOf lines) := by
  unfold hasNext at hnone
  split at hnone
  · cases hnone
  · next hused =>
    have hrest : stream.rest = [] := by
      cases hwants : stream.wantsLine with
      | true => exact h.used hwants
      | false => simpa [hwants] using hused
    have htext := h.text
    rw [hrest, List.append_nil] at htext
    have hended : (itemsOf lines).length ≤ count ∧
        (stream.finished = true ∨ LineSource.Finished stream.source) := by
      cases hfinished : stream.finished with
      | true => exact ⟨Nat.le_of_lt (h.ended hfinished), .inl rfl⟩
      | false =>
        have hclosed : LineSource.hasNext stream.source = false := by simpa [hfinished] using hnone
        rw [h.source] at hclosed ⊢
        obtain ⟨hlength, hsource⟩ := hdrains.finished hlast hclosed
        exact ⟨by simpa [itemsOf] using hlength, .inr hsource⟩
    obtain ⟨hcount, hclosed⟩ := hended
    rw [List.take_of_length_le hcount] at htext
    exact ⟨⟨hrest, hclosed, rfl⟩, htext⟩

/-- The next item of an iteration is the next character, or there is none behind the last. -/
theorem Reads.next (h : Reads start (itemsOf lines) count passed stream)
    (hsource : Supplies start (itemsOf lines)) (hitems : ∀ item ∈ itemsOf lines, Proper item) :
    (∃ c after count, CharStream.next stream = (some (.ok c), after) ∧
      (LineSource.text (itemsOf lines))[passed.length]? = some c ∧
      Reads start (itemsOf lines) count (passed ++ [c]) after) ∨
    (∃ after count, CharStream.next stream = (none, after) ∧ passed = LineSource.text (itemsOf lines) ∧
      Reported start (itemsOf lines) after ∧ Reads start (itemsOf lines) count passed after) := by
  have hnext := (h.delivers hsource hitems).next
  obtain ⟨more, hreads⟩ := h.request hsource hitems .next
  simp only [Request.passes, Request.after] at hreads
  cases hrun : CharStream.next stream with
  | mk found after =>
    rw [hrun] at hnext hreads
    cases found with
    | none =>
      right
      rw [List.append_nil] at hreads
      exact ⟨after, more, rfl, hnext.1, hnext.2, hreads⟩
    | some item =>
      cases item with
      | ok c =>
        left
        exact ⟨c, after, more, rfl, hnext.1, hreads⟩
      | error failure =>
        obtain ⟨read, hfailed, -⟩ := hnext
        exact absurd hfailed (itemsOf_ne_error read failure)

/-- **From everywhere an iteration hands out the rest of the text**, and behind it the stream is over. -/
theorem Reads.iterates (h : Reads start (itemsOf lines) count passed stream)
    (hdrains : Drains start lines last) (hlast : Finished last)
    (hlines : ∀ line ∈ lines, line.toList.getLast? = some '\n') {left : List Char}
    (hleft : LineSource.text (itemsOf lines) = passed ++ left) :
    ∃ behind, Iterates stream left behind ∧ hasNext behind = false := by
  have hnext := h.next (hdrains.supplies hlast) (proper_itemsOf hlines)
  rw [hleft] at hnext
  induction left generalizing count passed stream with
  | nil =>
    rcases hnext with ⟨c, after, more, -, hc, -⟩ | ⟨after, more, hend, -, ⟨read, hread, hsource⟩, hreads⟩
    · simp at hc
    · have hsplit := hreads.split
      rw [hleft, List.append_cancel_left_eq] at hsplit
      have hrest : after.rest = [] := (List.append_eq_nil_iff.mp hsplit.symm).1
      have hcount : lines.length < read := by simpa [itemsOf] using hread
      rw [hdrains.after_eq hlast hcount] at hsource
      refine ⟨after, .ended hend, ?_⟩
      simp [hasNext, hrest, hsource, hlast.hasNext]
  | cons c left ih =>
    rcases hnext with ⟨first, after, more, hchar, hfirst, hreads⟩ | ⟨after, more, -, hwhole, -⟩
    · have hc : c = first := by simpa using hfirst
      subst hc
      have hafter : LineSource.text (itemsOf lines) = (passed ++ [c]) ++ left := by simp [hleft]
      have hmore := hreads.next (hdrains.supplies hlast) (proper_itemsOf hlines)
      rw [hafter] at hmore
      obtain ⟨behind, hiterates, hover⟩ := ih hreads hafter hmore
      exact ⟨behind, .char hchar hiterates, hover⟩
    · simp at hwhole

/-- A stream with text left says that it may have another character. -/
theorem Reads.hasNext_of_left (h : Reads start (itemsOf lines) count passed stream)
    (hdrains : Drains start lines last) (hlast : Finished last) {left : List Char}
    (hleft : LineSource.text (itemsOf lines) = passed ++ left) (hne : left ≠ []) :
    hasNext stream = true := by
  cases hnext : hasNext stream with
  | true => rfl
  | false =>
    obtain ⟨-, hwhole⟩ := h.over hdrains hlast hnext
    rw [← hwhole] at hleft
    exact absurd (List.append_right_eq_self.mp hleft.symm) hne

end CharStream

/-! ## Plain text -/

namespace PlainLines

/-- The plain lines of a text. -/
def ofText (text : List Char) : PlainLines := { feed := Feed.ofBytes (Utf8.encode text) }

/-- The characters of the lines of a text are the text without carriage returns, and the line feed that
it lacks. -/
theorem text_lines (text : List Char) :
    LineSource.text (LineSource.itemsOf ((Text.lines text).map Text.closed)) =
      text.filter (· ≠ '\r') ++ Text.lacking text := by
  have hlacking : (Text.lacking text).filter (· ≠ '\r') = Text.lacking text := by
    unfold Text.lacking
    split <;> rfl
  rw [← hlacking, ← List.filter_append, ← Text.flatMap_lines, List.filter_flatMap]
  simp [LineSource.text, LineSource.itemsOf, List.flatMap_map, LineSource.characters, Text.closed]

end PlainLines

/-- **A stream of plain text ends where the text ends.**  Whatever was asked of the stream before, the
characters that were passed over and those that an iteration still hands out are together the text
without carriage returns, and the line feed that it lacks.  For as long as one of them is left the stream
says that it may have another.  Once it says that it has none, whatever else is asked of it, it shows and
hands out nothing, and its offset stays. -/
theorem CharStream.ends_with_text (text : List Char) (requests : List Request) :
    let stream : CharStream PlainLines := reached requests { source := PlainLines.ofText text }
    let passed : List Char := passedBy requests { source := PlainLines.ofText text }
    (∃ left behind, text.filter (· ≠ '\r') ++ Text.lacking text = passed ++ left ∧
      Iterates stream left behind ∧ hasNext behind = false ∧ (left ≠ [] → hasNext stream = true)) ∧
    (hasNext stream = false → ∀ more, let later := reached more stream
      hasNext later = false ∧ answer (peek later) = .ok none ∧ answer (grab later) = .ok none ∧
        (next later).1 = none ∧ later.offset = stream.offset) := by
  intro stream passed
  have hdrains : LineSource.Drains (PlainLines.ofText text) ((Text.lines text).map Text.closed)
      { feed := ⟨[]⟩, exhausted := true } := PlainLines.drains_text text
  have hlast : LineSource.Finished ({ feed := ⟨[]⟩, exhausted := true } : PlainLines) := ⟨rfl, rfl⟩
  have hlines : ∀ line ∈ (Text.lines text).map Text.closed, line.toList.getLast? = some '\n' := by
    intro line hline
    obtain ⟨piece, -, rfl⟩ := List.mem_map.mp hline
    simp [Text.closed]
  obtain ⟨count, hreads⟩ :=
    reads_start.reached (hdrains.supplies hlast) (LineSource.proper_itemsOf hlines) requests
  rw [List.nil_append] at hreads
  constructor
  · have hleft := hreads.split
    obtain ⟨behind, hiterates, hover⟩ := hreads.iterates hdrains hlast hlines hleft
    refine ⟨_, behind, ?_, hiterates, hover, hreads.hasNext_of_left hdrains hlast hleft⟩
    rw [← PlainLines.text_lines, hleft]
  · intro hnone more
    obtain ⟨hover, -⟩ := hreads.over hdrains hlast hnone
    exact (hover.reached more).answers

end LineEditor
