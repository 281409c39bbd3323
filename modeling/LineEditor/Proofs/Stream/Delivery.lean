import LineEditor.CharStream
import LineEditor.Proofs.Stream.Sources

/-!
# What a stream delivers

A stream hands out the characters of its source one by one, whoever asks for them and in whatever way.
A source may fail at any point; the stream then stays where it is, and goes on there when it is asked
again.

* `CharStream.Reads` — what has been read of the source, and what of it was passed over.
* `CharStream.Reads.fill` — **the step**: looking for the next character passes over nothing, and fails
  only as the source does.
* `CharStream.Request`, `CharStream.reached_keeps` — what looking for a character and passing over one
  keep, any mix of requests keeps; `CharStream.Reads.reached` is **the run**.
* `CharStream.Delivers`, `CharStream.delivers_in_order` — the law.
-/

set_option autoImplicit false

open LineEditor.Action

namespace LineEditor

/-! ## What has been read -/

namespace CharStream

open LineSource (Item)

variable {σ : Type} [LineSource σ] {start : σ} {items : List Item} {count : Nat} {passed : List Char}
  {stream filled : CharStream σ}

/-- The source was read a number of times, and of the characters that it handed out `passed` were
passed over and all others are still to come. -/
structure Reads (start : σ) (items : List Item) (count : Nat) (passed : List Char)
    (stream : CharStream σ) : Prop where
  source : stream.source = LineSource.after count start
  text : passed ++ stream.rest = LineSource.text (items.take count)
  offset : stream.offset = passed.length
  used : stream.wantsLine = true → stream.rest = []
  emptied : stream.wantsLine = false → stream.rest = [] → stream.finished = true
  ended : stream.finished = true → items.length < count

/-- The stream does not have to read in order to show its next character. -/
def Filled (stream : CharStream σ) : Prop := (!stream.wantsLine || stream.finished) = true

/-- The source has reported its end: it was read more often than it has items. -/
def Reported (start : σ) (items : List Item) (stream : CharStream σ) : Prop :=
  ∃ count, items.length < count ∧ stream.source = LineSource.after count start

/-- A read of the source has failed as this item does, and nothing but the source has changed. -/
def Stays (start : σ) (items : List Item) (stream : CharStream σ) (failure : Failure)
    (next : CharStream σ) : Prop :=
  ∃ count, items[count]? = some (.error failure) ∧ stream.source = LineSource.after count start ∧
    next = { stream with source := LineSource.after (count + 1) start }

omit [LineSource σ] in
theorem filled_of_not_wantsLine (h : stream.wantsLine = false) : stream.Filled := by
  rw [Filled, h]
  rfl

theorem reads_start : Reads start items 0 [] { source := start } :=
  ⟨rfl, rfl, rfl, fun _ => rfl, nofun, nofun⟩

/-- What was passed over, what is left of the line, and what the source still has. -/
theorem Reads.split (h : Reads start items count passed stream) :
    LineSource.text items = passed ++ (stream.rest ++ LineSource.text (items.drop count)) := by
  rw [← List.append_assoc, h.text, LineSource.text, LineSource.text, LineSource.text,
    ← List.flatMap_append, List.take_append_drop]

theorem Reads.reported (h : Reads start items count passed stream) (hfilled : stream.Filled)
    (hrest : stream.rest = []) : items.length < count := by
  cases hwants : stream.wantsLine with
  | false => exact h.ended (h.emptied hwants hrest)
  | true =>
    rw [Filled, hwants] at hfilled
    exact h.ended hfilled

/-- The stream shows the character behind those that were passed over. -/
theorem Reads.shown (h : Reads start items count passed stream) (hfilled : stream.Filled) :
    stream.rest.head? = (LineSource.text items)[passed.length]? := by
  rw [h.split, List.getElem?_append_right (Nat.le_refl _), Nat.sub_self]
  cases hrest : stream.rest with
  | nil =>
    rw [List.drop_of_length_le (Nat.le_of_lt (h.reported hfilled hrest))]
    rfl
  | cons c rest => rfl

/-- The stream shows nothing only behind the whole text. -/
theorem Reads.whole (h : Reads start items count passed stream) (hfilled : stream.Filled)
    (hrest : stream.rest = []) : passed = LineSource.text items ∧ Reported start items stream := by
  have hcount := h.reported hfilled hrest
  refine ⟨?_, count, hcount, h.source⟩
  have htext := h.text
  rwa [hrest, List.append_nil, List.take_of_length_le (Nat.le_of_lt hcount)] at htext

/-- The source hands out a line. -/
theorem Reads.accept (h : Reads start items count passed stream) (hused : stream.rest = []) {line : String}
    (hitem : items[count]? = some (.ok line)) (hproper : LineSource.Proper (.ok line)) :
    Reads start items (count + 1) passed
      (accept line.toList { stream with source := LineSource.after (count + 1) start }) where
  source := rfl
  text := by
    rw [LineSource.text_take_succ hitem, ← h.text, hused, List.append_nil]
    rfl
  offset := h.offset
  used := nofun
  emptied _ hempty := absurd hempty (LineSource.characters_ne_nil hproper)
  ended hfinished := Nat.lt_succ_of_lt (h.ended hfinished)

/-- The source reports its end. -/
theorem Reads.finish (h : Reads start items count passed stream) (hused : stream.rest = [])
    (hlength : items.length ≤ count) :
    Reads start items (count + 1) passed
      (CharStream.accept []
        { stream with source := LineSource.after (count + 1) start, finished := true }) where
  source := rfl
  text := by
    have htext := h.text
    rw [List.take_of_length_le hlength, hused] at htext
    rw [List.take_of_length_le (Nat.le_succ_of_le hlength)]
    exact htext
  offset := h.offset
  used := nofun
  emptied _ _ := rfl
  ended _ := Nat.lt_succ_of_le hlength

/-- The source fails. -/
theorem Reads.stays (h : Reads start items count passed stream) {failure : Failure}
    (hitem : items[count]? = some (.error failure)) :
    Reads start items (count + 1) passed
      { stream with source := LineSource.after (count + 1) start } where
  source := rfl
  text := by
    rw [LineSource.text_take_succ hitem, ← h.text]
    exact (List.append_nil _).symm
  offset := h.offset
  used := h.used
  emptied := h.emptied
  ended hfinished := Nat.lt_succ_of_lt (h.ended hfinished)

/-! ## Looking for a character -/

section

variable {line : String} {failure : Failure} {source : σ}

theorem fill_of_line (h : ¬stream.Filled) (hread : LineSource.readLine stream.source = .ok line source) :
    fill stream = .ok () (accept line.toList { stream with source }) := by
  have hfill : fill stream = _ := if_neg h
  rw [hfill, hread]

theorem fill_of_end (h : ¬stream.Filled)
    (hread : LineSource.readLine stream.source = .error failure source)
    (hended : failure.isEndOfInput = true) :
    fill stream = .ok () (accept [] { stream with source, finished := true }) := by
  have hfill : fill stream = _ := if_neg h
  rw [hfill, hread]
  exact if_pos hended

theorem fill_of_failure (h : ¬stream.Filled)
    (hread : LineSource.readLine stream.source = .error failure source)
    (hopen : ¬failure.isEndOfInput = true) :
    fill stream = .error failure { stream with source } := by
  have hfill : fill stream = _ := if_neg h
  rw [hfill, hread]
  exact if_neg hopen

/-- Whoever has looked for a character successfully does not have to read in order to look again. -/
theorem filled_of_fill {filled : CharStream σ} (h : fill stream = .ok () filled) : filled.Filled := by
  by_cases hfilled : stream.Filled
  · have hkept : fill stream = .ok () stream := if_pos hfilled
    rw [hkept] at h
    cases h
    exact hfilled
  · cases hread : LineSource.readLine stream.source with
    | ok line source =>
      rw [fill_of_line hfilled hread] at h
      cases h
      exact filled_of_not_wantsLine rfl
    | error failure source =>
      by_cases hended : failure.isEndOfInput = true
      · rw [fill_of_end hfilled hread hended] at h
        cases h
        exact filled_of_not_wantsLine rfl
      · rw [fill_of_failure hfilled hread hended] at h
        cases h

end

/-! ## Looking and passing over -/

/-- **Looking for the next character passes over nothing**, and fails only as the source does. -/
theorem Reads.fill (h : Reads start items count passed stream)
    (hsource : LineSource.Supplies start items) (hitems : ∀ item ∈ items, LineSource.Proper item) :
    Ends CharStream.fill stream
      (fun _ next => next.Filled ∧ ∃ count, Reads start items count passed next)
      fun failure next => Stays start items stream failure next ∧
        ∃ count, Reads start items count passed next := by
  by_cases hfilled : stream.Filled
  · exact ends_of_ok (if_pos hfilled) ⟨hfilled, count, h⟩
  · have hwants : stream.wantsLine = true := by
      cases hwants : stream.wantsLine with
      | false => exact absurd (filled_of_not_wantsLine hwants) hfilled
      | true => rfl
    have hused := h.used hwants
    have hnext := hsource.read count
    rw [← h.source] at hnext
    rcases hnext with ⟨line, hitem, hread⟩ | ⟨failure, hitem, hread⟩ | ⟨hlength, failure, hended, hread⟩
    · have hproper := hitems _ (List.mem_of_getElem? hitem)
      exact ends_of_ok (fill_of_line hfilled hread)
        ⟨filled_of_not_wantsLine rfl, _, h.accept hused hitem hproper⟩
    · have hopen : failure.isEndOfInput = false := hitems _ (List.mem_of_getElem? hitem)
      exact ends_of_error (fill_of_failure hfilled hread (Bool.eq_false_iff.mp hopen))
        ⟨⟨count, hitem, h.source, rfl⟩, _, h.stays hitem⟩
    · exact ends_of_ok (fill_of_end hfilled hread hended)
        ⟨filled_of_not_wantsLine rfl, _, h.finish hused hlength⟩

theorem Reads.state_fill (h : Reads start items count passed stream)
    (hsource : LineSource.Supplies start items) (hitems : ∀ item ∈ items, LineSource.Proper item) :
    ∃ count, Reads start items count passed (state (CharStream.fill stream)) :=
  ((h.fill hsource hitems).mono (fun _ _ => And.right) fun _ _ => And.right).state

/-- Pass over the next character of the line, if there is one. -/
def passOver (stream : CharStream σ) : CharStream σ :=
  match stream.rest with
  | [] => stream
  | _ :: rest => { stream with rest, offset := stream.offset + 1, wantsLine := rest.isEmpty }

omit [LineSource σ] in
theorem passOver_of_nil (h : stream.rest = []) : stream.passOver = stream := by
  simp [passOver, h]

omit [LineSource σ] in
theorem passOver_of_cons {c : Char} {rest : List Char} (h : stream.rest = c :: rest) :
    stream.passOver = { stream with rest, offset := stream.offset + 1, wantsLine := rest.isEmpty } := by
  simp [passOver, h]

omit [LineSource σ] in
theorem offset_passOver (stream : CharStream σ) :
    stream.passOver.offset = stream.offset + stream.rest.head?.toList.length := by
  unfold passOver
  split
  · next hrest => rw [hrest]; rfl
  · next hrest => rw [hrest]; rfl

omit [LineSource σ] in
theorem source_passOver (stream : CharStream σ) : stream.passOver.source = stream.source := by
  unfold passOver
  split <;> rfl

/-- One more character is passed over. -/
theorem Reads.passOver (h : Reads start items count passed stream) :
    Reads start items count (passed ++ stream.rest.head?.toList) stream.passOver := by
  unfold CharStream.passOver
  split
  · next hrest =>
    rw [hrest]
    exact (List.append_nil passed).symm ▸ h
  · next c rest hrest =>
    rw [hrest]
    refine ⟨h.source, ?_, ?_, List.isEmpty_iff.mp, fun hwants hempty => ?_, h.ended⟩
    · rw [← h.text, hrest]
      exact List.append_assoc passed [c] rest
    · rw [List.length_append, ← h.offset]
      rfl
    · have hempty : rest = [] := hempty
      rw [hempty] at hwants
      cases hwants

theorem peek_of_fill (h : fill stream = .ok () filled) :
    peek stream = .ok filled.rest.head? filled := bind_of_ok h

theorem step_of_fill (h : fill stream = .ok () filled) : step stream = .ok () filled.passOver :=
  bind_of_ok h

theorem grab_of_fill (h : fill stream = .ok () filled) (hfilled : filled.Filled) :
    grab stream = .ok filled.rest.head? filled.passOver := by
  have hagain : fill filled = .ok () filled := if_pos hfilled
  rw [grab, bind_of_ok (peek_of_fill h)]
  cases hrest : filled.rest with
  | nil =>
    rw [passOver_of_nil hrest]
    rfl
  | cons c rest => exact bind_of_ok (step_of_fill hagain)

section

variable {failure : Failure} {next : CharStream σ}

theorem peek_of_fill_error (h : fill stream = .error failure next) : peek stream = .error failure next :=
  bind_of_error h

theorem step_of_fill_error (h : fill stream = .error failure next) : step stream = .error failure next :=
  bind_of_error h

theorem grab_of_fill_error (h : fill stream = .error failure next) : grab stream = .error failure next :=
  bind_of_error (peek_of_fill_error h)

end

/-! ## Requests -/

/-- What is asked of a stream. -/
inductive Request where
  | peek
  | step
  | grab
  | next
  | hasNext
  | lookahead (distance : Nat)
  | matchText (start : String)
  | text
  | offset

/-- The stream behind a request; some requests only look at it. -/
def Request.after (request : Request) (stream : CharStream σ) : CharStream σ :=
  match request with
  | .peek => state (CharStream.peek stream)
  | .step => state (CharStream.step stream)
  | .grab => state (CharStream.grab stream)
  | .next => (CharStream.next stream).2
  | .hasNext | .lookahead _ | .matchText _ | .text | .offset => stream

/-- The characters that a request passes over: those that `grab` and `next` hand out, and for `step` the
one that a look at the stream would have shown. -/
def Request.passes (request : Request) (stream : CharStream σ) : List Char :=
  match request with
  | .step =>
    match CharStream.peek stream with
    | .ok found _ => found.toList
    | .error _ _ => []
  | .grab =>
    match CharStream.grab stream with
    | .ok found _ => found.toList
    | .error _ _ => []
  | .next =>
    match (CharStream.next stream).1 with
    | some (.ok c) => [c]
    | _ => []
  | .peek | .hasNext | .lookahead _ | .matchText _ | .text | .offset => []

/-- The stream behind some requests, the failed ones included. -/
def reached : List Request → CharStream σ → CharStream σ
  | [], stream => stream
  | request :: requests, stream => reached requests (request.after stream)

/-- The characters that some requests pass over. -/
def passedBy : List Request → CharStream σ → List Char
  | [], _ => []
  | request :: requests, stream => request.passes stream ++ passedBy requests (request.after stream)

/-- Where the next character can be looked for, a request looks at most at it, or passes over it. -/
theorem Request.of_fill (h : CharStream.fill stream = .ok () filled) (hfilled : filled.Filled)
    (request : Request) :
    (request.passes stream = [] ∧ (request.after stream = stream ∨ request.after stream = filled)) ∨
      request.passes stream = filled.rest.head?.toList ∧ request.after stream = filled.passOver := by
  have hpeek := peek_of_fill h
  have hgrab := grab_of_fill h hfilled
  cases request with
  | peek => exact .inl ⟨rfl, .inr (by rw [Request.after, hpeek, state])⟩
  | step =>
    refine .inr ⟨?_, ?_⟩
    · simp only [Request.passes, hpeek]
    · rw [Request.after, step_of_fill h, state]
  | grab =>
    refine .inr ⟨?_, ?_⟩
    · simp only [Request.passes, hgrab]
    · rw [Request.after, hgrab, state]
  | next =>
    refine .inr ⟨?_, ?_⟩
    · simp only [Request.passes, CharStream.next, hgrab]
      cases filled.rest.head? <;> rfl
    · simp only [Request.after, CharStream.next, hgrab]
      cases filled.rest.head? <;> rfl
  | hasNext | lookahead distance | matchText start | text | offset => exact .inl ⟨rfl, .inl rfl⟩

/-- Where it cannot, a request passes over nothing. -/
theorem Request.of_fill_error {failure : Failure} {next : CharStream σ}
    (h : CharStream.fill stream = .error failure next) (request : Request) :
    request.passes stream = [] ∧ (request.after stream = stream ∨ request.after stream = next) := by
  have hpeek := peek_of_fill_error h
  have hgrab := grab_of_fill_error h
  cases request with
  | peek => exact ⟨rfl, .inr (by rw [Request.after, hpeek, state])⟩
  | step =>
    refine ⟨?_, .inr ?_⟩
    · simp only [Request.passes, hpeek]
    · rw [Request.after, step_of_fill_error h, state]
  | grab => exact ⟨by simp only [Request.passes, hgrab], .inr (by rw [Request.after, hgrab, state])⟩
  | next =>
    refine ⟨?_, .inr ?_⟩
    · simp only [Request.passes, CharStream.next, hgrab]
    · simp only [Request.after, CharStream.next, hgrab]
  | hasNext | lookahead distance | matchText start | text | offset => exact ⟨rfl, .inl rfl⟩

section

variable (holds : List Char → CharStream σ → Prop)
  (hfill : ∀ {passed stream}, holds passed stream → holds passed (state (CharStream.fill stream)))
  (hpassOver : ∀ {passed stream}, holds passed stream →
    holds (passed ++ stream.rest.head?.toList) stream.passOver)

include hfill hpassOver

/-- **A request passes over what it says**: what looking for a character keeps, and passing over one, a
request keeps. -/
theorem Request.keeps (h : holds passed stream) (request : Request) :
    holds (passed ++ request.passes stream) (request.after stream) := by
  have hlooked := hfill h
  cases hrun : CharStream.fill stream with
  | ok value filled =>
    rw [hrun, state] at hlooked
    rcases request.of_fill hrun (filled_of_fill hrun) with
      ⟨hpasses, hafter | hafter⟩ | ⟨hpasses, hafter⟩
    · rwa [hpasses, hafter, List.append_nil]
    · rwa [hpasses, hafter, List.append_nil]
    · rw [hpasses, hafter]
      exact hpassOver hlooked
  | error failure next =>
    rw [hrun, state] at hlooked
    obtain ⟨hpasses, hafter | hafter⟩ := request.of_fill_error hrun
    · rwa [hpasses, hafter, List.append_nil]
    · rwa [hpasses, hafter, List.append_nil]

/-- **Any mix of requests** keeps it too. -/
theorem reached_keeps (h : holds passed stream) (requests : List Request) :
    holds (passed ++ passedBy requests stream) (reached requests stream) := by
  induction requests generalizing passed stream with
  | nil => simpa [passedBy, reached] using h
  | cons request requests ih =>
    have hnext := ih (request.keeps holds hfill hpassOver h)
    rwa [List.append_assoc] at hnext

end

/-- **A request keeps the account** of what was read and passed over. -/
theorem Reads.request (h : Reads start items count passed stream)
    (hsource : LineSource.Supplies start items) (hitems : ∀ item ∈ items, LineSource.Proper item)
    (request : Request) :
    ∃ count, Reads start items count (passed ++ request.passes stream) (request.after stream) :=
  request.keeps (fun passed stream => ∃ count, Reads start items count passed stream)
    (fun ⟨_, h⟩ => h.state_fill hsource hitems) (fun ⟨_, h⟩ => ⟨_, h.passOver⟩) ⟨_, h⟩

/-- **Any mix of requests** keeps it too. -/
theorem Reads.reached (h : Reads start items count passed stream)
    (hsource : LineSource.Supplies start items) (hitems : ∀ item ∈ items, LineSource.Proper item)
    (requests : List Request) :
    ∃ count, Reads start items count (passed ++ passedBy requests stream)
      (CharStream.reached requests stream) :=
  reached_keeps (fun passed stream => ∃ count, Reads start items count passed stream)
    (fun ⟨_, h⟩ => h.state_fill hsource hitems) (fun ⟨_, h⟩ => ⟨_, h.passOver⟩) ⟨_, h⟩ requests

/-! ## The law -/

/-- What a stream answers behind the characters `passed` of its source.  Nothing is shown only behind
all of them, once the source has reported its end. -/
structure Delivers (start : σ) (items : List Item) (passed : List Char) (stream : CharStream σ) :
    Prop where
  delivered : passed <+: LineSource.text items
  offset : stream.offset = passed.length
  peek : Ends CharStream.peek stream
    (fun found next =>
      found = (LineSource.text items)[passed.length]? ∧ next.offset = passed.length ∧
      (found = none → passed = LineSource.text items ∧ Reported start items next))
    (Stays start items stream)
  step : Ends CharStream.step stream
    (fun _ next =>
      next = state (CharStream.grab stream) ∧
      next.offset = passed.length + (LineSource.text items)[passed.length]?.toList.length)
    (Stays start items stream)
  grab : Ends CharStream.grab stream
    (fun found next =>
      found = (LineSource.text items)[passed.length]? ∧
      next.offset = passed.length + found.toList.length ∧
      (found = none → passed = LineSource.text items ∧ Reported start items next))
    (Stays start items stream)
  next : match CharStream.next stream with
    | (some (.ok c), next) =>
      (LineSource.text items)[passed.length]? = some c ∧ next.offset = passed.length + 1
    | (some (.error failure), next) => Stays start items stream failure next
    | (none, next) => passed = LineSource.text items ∧ Reported start items next

/-- What has been read decides what is answered. -/
theorem Reads.delivers (h : Reads start items count passed stream)
    (hsource : LineSource.Supplies start items) (hitems : ∀ item ∈ items, LineSource.Proper item) :
    Delivers start items passed stream := by
  have hdelivered : passed <+: LineSource.text items := ⟨_, h.split.symm⟩
  have hfill := h.fill hsource hitems
  cases hrun : CharStream.fill stream with
  | ok value filled =>
    obtain ⟨hfilled, count, hreads⟩ := hfill.of_ok hrun
    have hshown := hreads.shown hfilled
    have hgrab := grab_of_fill hrun hfilled
    have hpassed : filled.passOver.offset = passed.length + filled.rest.head?.toList.length := by
      rw [offset_passOver, hreads.offset]
    have hwhole : filled.rest.head? = none → passed = LineSource.text items ∧ Reported start items filled :=
      fun hnone => hreads.whole hfilled (List.head?_eq_none_iff.mp hnone)
    have hover : filled.rest.head? = none →
        passed = LineSource.text items ∧ Reported start items filled.passOver := by
      rw [Reported, source_passOver]
      exact hwhole
    refine ⟨hdelivered, h.offset, ends_of_ok (peek_of_fill hrun) ⟨hshown, hreads.offset, hwhole⟩,
      ends_of_ok (step_of_fill hrun) ⟨by rw [hgrab, state], hshown ▸ hpassed⟩,
      ends_of_ok hgrab ⟨hshown, hpassed, hover⟩, ?_⟩
    rw [CharStream.next, hgrab]
    cases hhead : filled.rest.head? with
    | none => exact hover hhead
    | some c =>
      rw [hhead] at hshown hpassed
      exact ⟨hshown.symm, hpassed⟩
  | error failure next =>
    obtain ⟨hstays, -⟩ := hfill.of_error hrun
    refine ⟨hdelivered, h.offset, ends_of_error (peek_of_fill_error hrun) hstays,
      ends_of_error (step_of_fill_error hrun) hstays, ends_of_error (grab_of_fill_error hrun) hstays, ?_⟩
    rw [CharStream.next, grab_of_fill_error hrun]
    exact hstays

/-- **The text of a source is delivered once and in order**, whatever is asked of the stream in whatever
order.  What was passed over is the front of the text, the offset is its length, and what is shown or
handed out next is the character behind it.  A failure of the source leaves all but the source as it
is, so asking again loses nothing and repeats nothing. -/
theorem delivers_in_order (hsource : LineSource.Supplies start items)
    (hitems : ∀ item ∈ items, LineSource.Proper item) (requests : List Request) :
    Delivers start items (passedBy requests { source := start })
      (CharStream.reached requests { source := start }) := by
  obtain ⟨count, hreads⟩ := reads_start.reached hsource hitems requests
  exact hreads.delivers hsource hitems

/-- Two lines with carriage returns, and a failure between them that a look at the second line meets. -/
theorem delivers_in_order_over_failure :
    let fault : IoFault := { kind := .timedOut }
    let items : List Item := [.ok "a\r\n", .error fault.toFailure, .ok "\rb\n"]
    let requests : List Request := [.grab, .hasNext, .step, .peek, .offset, .next, .lookahead 0]
    passedBy requests { source := (⟨items⟩ : LineScript) } = ['a', '\n', 'b'] ∧
    Delivers (⟨items⟩ : LineScript) items (passedBy requests { source := (⟨items⟩ : LineScript) })
      (CharStream.reached requests { source := (⟨items⟩ : LineScript) }) := by
  intro fault items requests
  exact ⟨by decide +kernel,
    delivers_in_order (LineSource.supplies_script items) (by decide +kernel) requests⟩

end CharStream

end LineEditor
