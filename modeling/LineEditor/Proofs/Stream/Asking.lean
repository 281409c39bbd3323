import LineEditor.Proofs.Stream.Delivery
import LineEditor.Proofs.Terminal.Logged

/-!
# When a stream asks for a line

Whoever types a line should not be asked for the next one before somebody wants to see it.  A source
with a log tells when it was asked: only by requests that look for a character, once for each of them,
and only after all characters that it had handed out were passed over.

* `LineSource.readLogging` — a source with a log of what it handed out.
* `CharStream.forget_reached` — the log changes nothing.
* `CharStream.Paced` — what the log says of a stream; `Paced.fill` is **the step**, `Paced.reached` is
  **the run**.
* `CharStream.asks_when_used_up` — the law.
-/

set_option autoImplicit false

open LineEditor.Action

namespace LineEditor

/-! ## Sources with a log -/

namespace LineSource

variable {σ : Type} [LineSource σ]

/-- The source reports that the input has ended. -/
def endsInput : Item → Bool
  | .ok _ => false
  | .error failure => failure.isEndOfInput

/-- Read a line, and write down what was handed out. -/
def readLogging : Action (Logged Item σ) String := fun logged =>
  match readLine logged.base with
  | .ok line base => .ok line ⟨base, logged.log ++ [.ok line]⟩
  | .error failure base => .error failure ⟨base, logged.log ++ [.error failure]⟩

instance : LineSource (Logged Item σ) where
  hasNext logged := hasNext logged.base
  readLine := readLogging

section

variable {logged : Logged Item σ} {line : String} {failure : Failure} {base : σ}

theorem readLogging_ok (h : readLine logged.base = .ok line base) :
    readLine logged = .ok line ⟨base, logged.log ++ [.ok line]⟩ := by
  change readLogging logged = _
  rw [readLogging, h]

theorem readLogging_error (h : readLine logged.base = .error failure base) :
    readLine logged = .error failure ⟨base, logged.log ++ [.error failure]⟩ := by
  change readLogging logged = _
  rw [readLogging, h]

theorem state_readLogging (logged : Logged Item σ) :
    state (readLine logged) =
      ⟨state (readLine logged.base), logged.log ++ [answer (readLine logged.base)]⟩ := by
  cases h : readLine logged.base with
  | ok line base => rw [readLogging_ok h, state, state, answer]
  | error failure base => rw [readLogging_error h, state, state, answer]

end

theorem text_snoc (items : List Item) (item : Item) :
    text (items ++ [item]) = text items ++ characters item := by
  rw [text, List.flatMap_append, List.flatMap_singleton]
  rfl

end LineSource

namespace CharStream

open LineSource (Item endsInput)

variable {σ : Type}

/-! ## What looking for a character reads -/

section

variable [LineSource σ] {stream : CharStream σ}

/-- **Looking for a character reads once, or not at all.** -/
theorem source_fill_of_not_filled (h : ¬stream.Filled) :
    (state (fill stream)).source = state (LineSource.readLine stream.source) := by
  cases hread : LineSource.readLine stream.source with
  | ok line source =>
    rw [fill_of_line h hread]
    rfl
  | error failure source =>
    by_cases hended : failure.isEndOfInput = true
    · rw [fill_of_end h hread hended]
      rfl
    · rw [fill_of_failure h hread hended]
      rfl

theorem source_fill_of_filled (h : stream.Filled) : (state (fill stream)).source = stream.source := by
  have hfill : fill stream = .ok () stream := if_pos h
  rw [hfill, state]

/-- The requests that look for a character, which may not have been read yet. -/
def Request.looks : Request → Bool
  | .peek | .step | .grab | .next => true
  | .hasNext | .lookahead _ | .matchText _ | .text | .offset => false

/-- **A request reads what looking for a character reads**: it looks only once. -/
theorem source_after_of_looks {request : Request} (h : request.looks = true) :
    (request.after stream).source = (state (fill stream)).source := by
  cases hfill : fill stream with
  | ok value filled =>
    have hgrab := grab_of_fill hfill (filled_of_fill hfill)
    cases request with
    | peek => rw [Request.after, peek_of_fill hfill, state, state]
    | step => rw [Request.after, step_of_fill hfill, state, state, source_passOver]
    | grab => rw [Request.after, hgrab, state, state, source_passOver]
    | next =>
      rw [Request.after, CharStream.next, hgrab, state, ← source_passOver filled]
      cases filled.rest.head? <;> rfl
    | hasNext | lookahead _ | matchText _ | text | offset => cases h
  | error failure next =>
    have hgrab := grab_of_fill_error hfill
    cases request with
    | peek => simp only [Request.after, peek_of_fill_error hfill, state]
    | step => simp only [Request.after, step_of_fill_error hfill, state]
    | grab => simp only [Request.after, hgrab, state]
    | next => simp only [Request.after, CharStream.next, hgrab, state]
    | hasNext | lookahead _ | matchText _ | text | offset => cases h

theorem after_of_not_looks {request : Request} (h : request.looks = false) :
    request.after stream = stream := by
  cases request with
  | peek | step | grab | next => cases h
  | hasNext | lookahead _ | matchText _ | text | offset => rfl

end

/-! ## The log changes nothing -/

/-- The same stream on another source. -/
def onSource {τ : Type} (stream : CharStream σ) (source : τ) : CharStream τ where
  source
  line := stream.line
  rest := stream.rest
  offset := stream.offset
  wantsLine := stream.wantsLine
  finished := stream.finished

/-- The stream without the log. -/
def forget (stream : CharStream (Logged Item σ)) : CharStream σ := stream.onSource stream.source.base

variable [LineSource σ] {start : σ} {passed : List Char} {stream filled : CharStream (Logged Item σ)}

theorem mirrors_fill (stream : CharStream (Logged Item σ)) : Mirrors forget fill fill stream := by
  unfold Mirrors
  by_cases hfilled : stream.Filled
  · have hfill : fill stream = .ok () stream := if_pos hfilled
    have hforget : fill stream.forget = .ok () stream.forget := if_pos hfilled
    rw [hfill, hforget, mapState]
  · have hforget : ¬stream.forget.Filled := hfilled
    cases hread : LineSource.readLine stream.source.base with
    | ok line base =>
      rw [fill_of_line hfilled (LineSource.readLogging_ok hread), fill_of_line hforget hread]
      rfl
    | error failure base =>
      have hlogging := LineSource.readLogging_error hread
      by_cases hended : failure.isEndOfInput = true
      · rw [fill_of_end hfilled hlogging hended, fill_of_end hforget hread hended]
        rfl
      · rw [fill_of_failure hfilled hlogging hended, fill_of_failure hforget hread hended]
        rfl

theorem mirrors_peek (stream : CharStream (Logged Item σ)) : Mirrors forget peek peek stream :=
  (mirrors_fill stream).bind fun _ _ => rfl

omit [LineSource σ] in
theorem forget_passOver (stream : CharStream (Logged Item σ)) :
    stream.passOver.forget = stream.forget.passOver := by
  have hrest : stream.forget.rest = stream.rest := rfl
  unfold passOver
  rw [hrest]
  split <;> rfl

theorem mirrors_step (stream : CharStream (Logged Item σ)) : Mirrors forget step step stream :=
  (mirrors_fill stream).bind fun _ filled => congrArg (EStateM.Result.ok ()) (forget_passOver filled)

theorem mirrors_grab (stream : CharStream (Logged Item σ)) : Mirrors forget grab grab stream := by
  refine (mirrors_peek stream).bind fun found shown => ?_
  cases found with
  | none => rfl
  | some c => exact (mirrors_step shown).bind fun _ _ => rfl

theorem mirrors_next (stream : CharStream (Logged Item σ)) :
    CharStream.next stream.forget = ((CharStream.next stream).1, (CharStream.next stream).2.forget) := by
  have hgrab : mapState forget (grab stream) = grab stream.forget := mirrors_grab stream
  rw [CharStream.next, CharStream.next, ← hgrab]
  cases grab stream with
  | error failure stream => rfl
  | ok found stream => cases found <;> rfl

theorem forget_after (request : Request) (stream : CharStream (Logged Item σ)) :
    (request.after stream).forget = request.after stream.forget := by
  have hstate {α : Type} {action : Action (CharStream (Logged Item σ)) α}
      {action' : Action (CharStream σ) α} (h : Mirrors forget action action' stream) :
      (state (action stream)).forget = state (action' stream.forget) := by
    rw [← h, state_mapState]
  cases request with
  | peek => exact hstate (mirrors_peek stream)
  | step => exact hstate (mirrors_step stream)
  | grab => exact hstate (mirrors_grab stream)
  | next => exact congrArg Prod.snd (mirrors_next stream).symm
  | hasNext | lookahead _ | matchText _ | text | offset => rfl

theorem passes_forget (request : Request) (stream : CharStream (Logged Item σ)) :
    request.passes stream.forget = request.passes stream := by
  have hpeek : mapState forget (peek stream) = peek stream.forget := mirrors_peek stream
  have hgrab : mapState forget (grab stream) = grab stream.forget := mirrors_grab stream
  cases request with
  | step =>
    rw [Request.passes, Request.passes, ← hpeek]
    cases peek stream <;> rfl
  | grab =>
    rw [Request.passes, Request.passes, ← hgrab]
    cases grab stream <;> rfl
  | next => rw [Request.passes, Request.passes, mirrors_next]
  | peek | hasNext | lookahead _ | matchText _ | text | offset => rfl

/-- **A stream on a source with a log is the stream on the source.** -/
theorem forget_reached (requests : List Request) (stream : CharStream (Logged Item σ)) :
    (reached requests stream).forget = reached requests stream.forget ∧
      passedBy requests stream.forget = passedBy requests stream := by
  induction requests generalizing stream with
  | nil => exact ⟨rfl, rfl⟩
  | cons request requests ih =>
    obtain ⟨hreached, hpassed⟩ := ih (request.after stream)
    rw [forget_after] at hreached hpassed
    rw [reached, reached, passedBy, passedBy, passes_forget, hreached, hpassed]
    exact ⟨rfl, rfl⟩

/-! ## What the log says -/

/-- All that the source has handed out was passed over, and it has not reported its end. -/
def Due (passed : List Char) (log : List Item) : Prop :=
  passed = LineSource.text log ∧ ∀ item ∈ log, endsInput item = false

instance (passed : List Char) (log : List Item) : Decidable (Due passed log) :=
  inferInstanceAs (Decidable (_ ∧ _))

/-- The log holds what the source has handed out since `start`, and of its characters `passed` were
passed over and all others are still to come. -/
structure Paced (start : σ) (passed : List Char) (stream : CharStream (Logged Item σ)) : Prop where
  source : stream.source.base = LineSource.after stream.source.log.length start
  text : passed ++ stream.rest = LineSource.text stream.source.log
  offset : stream.offset = passed.length
  used : stream.wantsLine = true → stream.rest = []
  emptied : stream.wantsLine = false → stream.rest = [] → stream.finished = true
  ended : stream.finished = true ↔ ∃ item ∈ stream.source.log, endsInput item = true

theorem paced_start (start : σ) : Paced start [] { source := ⟨start, []⟩ } :=
  ⟨rfl, rfl, rfl, fun _ => rfl, nofun, ⟨nofun, fun ⟨_, hitem, _⟩ => nomatch hitem⟩⟩

/-- **A stream has to read just where a line is due.** -/
theorem Paced.due_iff (h : Paced start passed stream) :
    Due passed stream.source.log ↔ ¬stream.Filled := by
  have htext := h.text
  constructor
  · rintro ⟨hpassed, hopen⟩ hfilled
    have hrest : stream.rest = [] := by
      rw [← hpassed] at htext
      exact List.append_right_eq_self.mp htext
    have hfinished : stream.finished = true := by
      cases hwants : stream.wantsLine with
      | false => exact h.emptied hwants hrest
      | true =>
        rw [Filled, hwants] at hfilled
        exact hfilled
    obtain ⟨item, hitem, hended⟩ := h.ended.mp hfinished
    rw [hopen item hitem] at hended
    cases hended
  · intro hfilled
    rw [Filled, Bool.or_eq_true, not_or, Bool.not_eq_true', Bool.not_eq_false] at hfilled
    obtain ⟨hwants, hfinished⟩ := hfilled
    rw [h.used hwants, List.append_nil] at htext
    refine ⟨htext, fun item hitem => Bool.eq_false_iff.mpr fun hended => hfinished ?_⟩
    exact h.ended.mpr ⟨item, hitem, hended⟩

theorem exists_ends_snoc {log : List Item} {item : Item} :
    (∃ other ∈ log ++ [item], endsInput other = true) ↔
      (∃ other ∈ log, endsInput other = true) ∨ endsInput item = true := by
  simp [or_and_right, exists_or]

/-- Every line of the source ends with a line feed. -/
def ProperLines (start : σ) : Prop :=
  ∀ count line next, LineSource.readLine (LineSource.after count start) = .ok line next →
    LineSource.Proper (.ok line)

section

variable {line : String} {failure : Failure} {base : σ}

/-- The log is as long as the source was read often. -/
theorem Paced.source_snoc (h : Paced start passed stream)
    (hread : state (LineSource.readLine stream.source.base) = base) (item : Item) :
    base = LineSource.after (stream.source.log ++ [item]).length start := by
  rw [List.length_append, List.length_singleton, LineSource.after_succ, ← h.source, hread]

/-- The source hands out a line. -/
theorem Paced.accept (h : Paced start passed stream) (hused : passed = LineSource.text stream.source.log)
    (hread : LineSource.readLine stream.source.base = .ok line base)
    (hproper : LineSource.Proper (.ok line)) :
    Paced start passed
      (accept line.toList { stream with source := ⟨base, stream.source.log ++ [.ok line]⟩ }) where
  source := by
    have hbase : state (LineSource.readLine stream.source.base) = base := congrArg state hread
    exact h.source_snoc hbase _
  text := by
    change passed ++ LineSource.characters (.ok line) =
      LineSource.text (stream.source.log ++ [.ok line])
    rw [LineSource.text_snoc, hused]
  offset := h.offset
  used := nofun
  emptied _ hempty := absurd hempty (LineSource.characters_ne_nil hproper)
  ended := by
    change stream.finished = true ↔ ∃ other ∈ stream.source.log ++ [.ok line], endsInput other = true
    rw [exists_ends_snoc, ← h.ended]
    exact (or_iff_left Bool.false_ne_true).symm

/-- The source reports its end. -/
theorem Paced.finish (h : Paced start passed stream) (hused : passed = LineSource.text stream.source.log)
    (hread : LineSource.readLine stream.source.base = .error failure base)
    (hended : failure.isEndOfInput = true) :
    Paced start passed (CharStream.accept []
      { stream with source := ⟨base, stream.source.log ++ [.error failure]⟩, finished := true }) where
  source := by
    have hbase : state (LineSource.readLine stream.source.base) = base := congrArg state hread
    exact h.source_snoc hbase _
  text := by
    change passed ++ [] = LineSource.text (stream.source.log ++ [.error failure])
    rw [LineSource.text_snoc, hused]
    rfl
  offset := h.offset
  used := nofun
  emptied _ _ := rfl
  ended := by
    change true = true ↔ ∃ other ∈ stream.source.log ++ [.error failure], endsInput other = true
    rw [exists_ends_snoc]
    exact iff_of_true rfl (.inr hended)

/-- The source fails. -/
theorem Paced.stays (h : Paced start passed stream)
    (hread : LineSource.readLine stream.source.base = .error failure base)
    (hopen : ¬failure.isEndOfInput = true) :
    Paced start passed { stream with source := ⟨base, stream.source.log ++ [.error failure]⟩ } where
  source := by
    have hbase : state (LineSource.readLine stream.source.base) = base := congrArg state hread
    exact h.source_snoc hbase _
  text := by
    rw [LineSource.text_snoc, ← h.text]
    exact (List.append_nil _).symm
  offset := h.offset
  used := h.used
  emptied := h.emptied
  ended := by
    rw [exists_ends_snoc, ← h.ended]
    exact (or_iff_left hopen).symm

end

theorem properLines_of_supplies {items : List Item} (h : LineSource.Supplies start items)
    (hitems : ∀ item ∈ items, LineSource.Proper item) : ProperLines start := by
  intro count line next hread
  rcases h.read count with ⟨_, hitem, hline⟩ | ⟨_, _, hfailure⟩ | ⟨_, _, _, hfailure⟩
  · rw [hread] at hline
    cases hline
    exact hitems _ (List.mem_of_getElem? hitem)
  · rw [hread] at hfailure
    cases hfailure
  · rw [hread] at hfailure
    cases hfailure

/-- **Looking for a character keeps the log in step** with the stream. -/
theorem Paced.fill (h : Paced start passed stream) (hlines : ProperLines start) :
    Paced start passed (state (CharStream.fill stream)) := by
  by_cases hfilled : stream.Filled
  · have hfill : CharStream.fill stream = .ok () stream := if_pos hfilled
    rwa [hfill, state]
  · obtain ⟨hused, -⟩ := h.due_iff.mpr hfilled
    cases hread : LineSource.readLine stream.source.base with
    | ok line base =>
      have hproper : LineSource.Proper (.ok line) := by
        rw [h.source] at hread
        exact hlines _ _ _ hread
      rw [fill_of_line hfilled (LineSource.readLogging_ok hread), state]
      exact h.accept hused hread hproper
    | error failure base =>
      have hlogging := LineSource.readLogging_error hread
      by_cases hended : failure.isEndOfInput = true
      · rw [fill_of_end hfilled hlogging hended, state]
        exact h.finish hused hread hended
      · rw [fill_of_failure hfilled hlogging hended, state]
        exact h.stays hread hended

theorem Paced.passOver (h : Paced start passed stream) :
    Paced start (passed ++ stream.rest.head?.toList) stream.passOver := by
  unfold CharStream.passOver
  cases hrest : stream.rest with
  | nil => exact (List.append_nil passed).symm ▸ h
  | cons c rest =>
    have htext := h.text
    rw [hrest] at htext
    refine ⟨h.source, ?_, ?_, List.isEmpty_iff.mp, fun hwants hempty => ?_, h.ended⟩
    · rw [← htext]
      exact List.append_assoc passed [c] rest
    · rw [List.length_append, ← h.offset]
      rfl
    · have hempty : rest = [] := hempty
      rw [hempty] at hwants
      cases hwants

/-- **Any mix of requests** keeps the log in step. -/
theorem Paced.reached (h : Paced start passed stream) (hlines : ProperLines start)
    (requests : List Request) :
    Paced start (passed ++ passedBy requests stream) (CharStream.reached requests stream) :=
  reached_keeps (Paced start) (fun h => h.fill hlines) Paced.passOver h requests

/-! ## The law -/

/-- **A request reads one item where it looks for a character and a line is due, and nothing
otherwise.** -/
theorem Paced.reads (h : Paced start passed stream) (request : Request) :
    (request.after stream).source.log = stream.source.log ++
      if request.looks = true ∧ Due passed stream.source.log then
        [answer (LineSource.readLine (LineSource.after stream.source.log.length start))]
      else [] := by
  cases hlooks : request.looks with
  | false =>
    rw [after_of_not_looks hlooks, if_neg fun h => Bool.false_ne_true h.1, List.append_nil]
  | true =>
    rw [source_after_of_looks hlooks]
    by_cases hdue : Due passed stream.source.log
    · rw [if_pos ⟨rfl, hdue⟩, source_fill_of_not_filled (h.due_iff.mp hdue),
        LineSource.state_readLogging, h.source]
    · have hfilled : stream.Filled := Classical.not_not.mp (mt h.due_iff.mpr hdue)
      rw [if_neg fun h => hdue h.2, source_fill_of_filled hfilled, List.append_nil]

/-- Requests that look for no character read nothing, whatever the source would hand out: on any other
source that has more lines when this one has, they leave and answer the same. -/
theorem onSource_answers {τ : Type} [LineSource τ] {stream : CharStream σ} {source : τ}
    (h : LineSource.hasNext source = LineSource.hasNext stream.source) :
    (stream.onSource source).hasNext = stream.hasNext ∧
    (stream.onSource source).lookahead = stream.lookahead ∧
    (stream.onSource source).matchText = stream.matchText ∧
    (stream.onSource source).text = stream.text ∧ (stream.onSource source).offset = stream.offset := by
  refine ⟨?_, rfl, rfl, rfl, rfl⟩
  rw [hasNext, hasNext, ← h]
  rfl

/-- **A stream asks for a line when it is wanted and no earlier.**  Let every line of a source end with a
line feed, and give the source a log, which changes nothing of what the stream does.  Whatever was asked
of the stream before, the next request reads one item if it looks for a character, all characters of
the lines read so far were passed over, and the source has not reported its end; in all other cases it
reads nothing.  So to take a line feed asks for no further line.  Requests that do not look for a
character leave the stream as it is, and answer the same whatever the source would hand out. -/
theorem asks_when_used_up (hlines : ProperLines start) (requests : List Request) (request : Request) :
    let stream : CharStream (Logged Item σ) := reached requests { source := ⟨start, []⟩ }
    let passed : List Char := passedBy requests { source := start }
    stream.forget = reached requests { source := start } ∧
    stream.source.base = LineSource.after stream.source.log.length start ∧
    passed <+: LineSource.text stream.source.log ∧
    stream.offset = passed.length ∧
    ((request.after stream).source.log = stream.source.log ++
      if request.looks = true ∧ passed = LineSource.text stream.source.log ∧
          ∀ item ∈ stream.source.log, endsInput item = false then
        [answer (LineSource.readLine (LineSource.after stream.source.log.length start))]
      else []) ∧
    (request.looks = false → request.after stream = stream) ∧
    ∀ (τ : Type) [LineSource τ] (source : τ),
      LineSource.hasNext source = LineSource.hasNext stream.source →
      (stream.onSource source).hasNext = stream.hasNext ∧
      (stream.onSource source).lookahead = stream.lookahead ∧
      (stream.onSource source).matchText = stream.matchText ∧
      (stream.onSource source).text = stream.text ∧
      (stream.onSource source).offset = stream.offset := by
  intro stream passed
  obtain ⟨hforget, hpassed⟩ := forget_reached requests { source := (⟨start, []⟩ : Logged Item σ) }
  have hpaced : Paced start passed stream := by
    have hreached := (paced_start start).reached hlines requests
    rwa [List.nil_append, ← hpassed] at hreached
  exact ⟨hforget, hpaced.source, ⟨stream.rest, hpaced.text⟩, hpaced.offset, hpaced.reads request,
    after_of_not_looks, fun _ _ _ => onSource_answers⟩

/-- The line feed of a line is taken without a read; the next character that is wanted asks for the next
line, and the source fails. -/
theorem asks_when_used_up_behind_feed :
    let fault : IoFault := { kind := .timedOut }
    let items : List Item := [.ok "a\r\n", .error fault.toFailure, .ok "b\n"]
    let taken : CharStream (Logged Item LineScript) :=
      reached [.peek, .grab, .step, .hasNext, .lookahead 0] { source := ⟨⟨items⟩, []⟩ }
    taken.source.log = [.ok "a\r\n"] ∧
    (Request.next.after taken).source.log = [.ok "a\r\n", .error fault.toFailure] ∧
    (Request.offset.after taken).source.log = [.ok "a\r\n"] := by
  intro fault items taken
  have hlines : ProperLines (⟨items⟩ : LineScript) :=
    properLines_of_supplies (LineSource.supplies_script items) (by decide +kernel)
  obtain ⟨-, -, -, -, hnext, -⟩ :=
    asks_when_used_up hlines [.peek, .grab, .step, .hasNext, .lookahead 0] .next
  obtain ⟨-, -, -, -, hoffset, -⟩ :=
    asks_when_used_up hlines [.peek, .grab, .step, .hasNext, .lookahead 0] .offset
  exact ⟨rfl, hnext.trans rfl, hoffset.trans rfl⟩

end CharStream

end LineEditor
