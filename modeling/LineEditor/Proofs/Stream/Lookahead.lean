import LineEditor.Proofs.Stream.Asking

/-!
# What looking ahead foretells

A parser looks ahead before it takes anything.  It is shown what it will get: looking ahead never leaves
the line that was read, and for as long as something of this line is left, to grab it asks the source
for nothing.

* `LineSource.lastLine` — the line that a source has handed out last.
* `CharStream.Tracks` — this is the line of the stream, and what is not left of it was passed over;
  `Tracks.fill` is **the step**, `Tracks.reached` is **the run**.
* `CharStream.grabs`, `CharStream.hands_of_rest` — any number of grabs within the line.
* `CharStream.Foretells`, `CharStream.looks_at_what_comes` — the law.
-/

set_option autoImplicit false

open LineEditor.Action

namespace LineEditor

/-! ## The line that was read last -/

namespace LineSource

/-- The line behind an item: a new one, none behind the end of the input, and behind any other failure
still the old one. -/
def renewed (line : List Char) : Item → List Char
  | .ok text => characters (.ok text)
  | .error failure => if failure.isEndOfInput then [] else line

/-- The line that was handed out last, without carriage returns. -/
def lastLine (items : List Item) : List Char := items.foldl renewed []

@[simp]
theorem lastLine_snoc (items : List Item) (item : Item) :
    lastLine (items ++ [item]) = renewed (lastLine items) item := by
  simp [lastLine]

end LineSource

namespace CharStream

open LineSource (Item lastLine)

variable {σ : Type} [LineSource σ]

section

variable {start : σ} {passed : List Char} {stream : CharStream (Logged Item σ)}

/-- The line of the stream is the last one that its source has handed out, and what is not left of it
was passed over last. -/
structure Tracks (passed : List Char) (stream : CharStream (Logged Item σ)) : Prop where
  line : stream.line = lastLine stream.source.log
  parted : ∃ front, front <:+ passed ∧ stream.line = front ++ stream.rest

omit [LineSource σ] in
theorem tracks_start (start : σ) : Tracks [] { source := (⟨start, []⟩ : Logged Item σ) } :=
  ⟨rfl, [], List.suffix_refl [], rfl⟩

/-- **Looking for a character keeps track of the line.** -/
theorem Tracks.fill (h : Tracks passed stream) : Tracks passed (state (CharStream.fill stream)) := by
  by_cases hfilled : stream.Filled
  · have hfill : CharStream.fill stream = .ok () stream := if_pos hfilled
    rwa [hfill, state]
  · cases hread : LineSource.readLine stream.source.base with
    | ok line base =>
      rw [fill_of_line hfilled (LineSource.readLogging_ok hread), state]
      constructor
      · simp [accept, LineSource.renewed, LineSource.characters]
      · exact ⟨[], List.nil_suffix, rfl⟩
    | error failure base =>
      have hlogging := LineSource.readLogging_error hread
      by_cases hended : failure.isEndOfInput = true
      · rw [fill_of_end hfilled hlogging hended, state]
        constructor
        · simp [accept, LineSource.renewed, hended]
        · exact ⟨[], List.nil_suffix, rfl⟩
      · rw [fill_of_failure hfilled hlogging hended, state]
        constructor
        · simp [LineSource.renewed, hended, h.line]
        · exact h.parted

omit [LineSource σ] in
theorem Tracks.passOver (h : Tracks passed stream) :
    Tracks (passed ++ stream.rest.head?.toList) stream.passOver := by
  obtain ⟨hline, front, ⟨before, hpassed⟩, hparted⟩ := h
  cases hrest : stream.rest with
  | nil =>
    rw [passOver_of_nil hrest]
    constructor
    · exact hline
    · refine ⟨front, ⟨before, ?_⟩, hparted⟩
      simpa using hpassed
  | cons c rest =>
    rw [hrest] at hparted
    rw [passOver_of_cons hrest]
    constructor
    · exact hline
    · refine ⟨front ++ [c], ⟨before, ?_⟩, ?_⟩
      · simp [← hpassed]
      · simpa using hparted

/-- **Any mix of requests keeps track of it.** -/
theorem Tracks.reached (h : Tracks passed stream) (requests : List Request) :
    Tracks (passed ++ passedBy requests stream) (CharStream.reached requests stream) :=
  reached_keeps Tracks Tracks.fill Tracks.passOver h requests

end

/-! ## Grabbing within the line -/

section

variable {stream : CharStream σ} {text rest : List Char} {c : Char}

/-- What so many grabs in a row answer. -/
def grabs : Nat → CharStream σ → List (Except Failure (Option Char))
  | 0, _ => []
  | count + 1, stream => answer (grab stream) :: grabs count (Request.grab.after stream)

/-- As many grabs as the text has characters hand out just this text, pass over it, and leave the source
alone. -/
structure Hands (text : List Char) (stream : CharStream σ) : Prop where
  grabs : grabs text.length stream = text.map fun c => .ok (some c)
  offset : (reached (List.replicate text.length .grab) stream).offset = stream.offset + text.length
  source : (reached (List.replicate text.length .grab) stream).source = stream.source

omit [LineSource σ] in
/-- A stream with characters left does not have to read. -/
theorem filled_of_rest (hused : stream.wantsLine = true → stream.rest = []) (hrest : stream.rest ≠ []) :
    stream.Filled := by
  apply filled_of_not_wantsLine
  cases hwants : stream.wantsLine with
  | false => rfl
  | true => exact absurd (hused hwants) hrest

theorem grab_of_rest (hused : stream.wantsLine = true → stream.rest = []) (hrest : stream.rest = c :: rest) :
    grab stream = .ok (some c) stream.passOver := by
  have hfilled : stream.Filled := filled_of_rest hused (by simp [hrest])
  have hfill : fill stream = .ok () stream := if_pos hfilled
  rw [grab_of_fill hfill hfilled, hrest, List.head?_cons]

/-- **What is left of the line is grabbed without a read.** -/
theorem hands_of_rest (hused : stream.wantsLine = true → stream.rest = [])
    (hrest : stream.rest = text ++ rest) : Hands text stream := by
  induction text generalizing stream with
  | nil => exact ⟨rfl, rfl, rfl⟩
  | cons c text ih =>
    rw [List.cons_append] at hrest
    have hgrab := grab_of_rest hused hrest
    have hafter : Request.grab.after stream = stream.passOver := by
      rw [Request.after, hgrab, state]
    have hover := passOver_of_cons hrest
    have hnext : Hands text stream.passOver := by
      apply ih
      · intro hwants
        simpa [hover] using hwants
      · rw [hover]
    obtain ⟨hgrabs, hoffset, hsource⟩ := hnext
    constructor
    · simp [CharStream.grabs, hgrab, hafter, hgrabs, answer]
    · rw [List.length_cons, List.replicate_succ, reached, hafter, hoffset, hover]
      dsimp only
      omega
    · rw [List.length_cons, List.replicate_succ, reached, hafter, hsource, source_passOver]

/-! ## Looking ahead -/

/-- What looking ahead shows is left of the line, and will be grabbed. -/
structure Foretells (unread : List Char) (stream : CharStream σ) : Prop where
  shows (distance : Nat) : (stream.lookahead distance).isSome = true ↔ distance < unread.length
  shown (distance : Nat) (c : Char) : stream.lookahead distance = some c →
    ∃ text, text <+: unread ∧ text.length = distance + 1 ∧ text.getLast? = some c ∧ Hands text stream
  recognizes (start : String) :
    stream.matchText start ≠ 0 ↔ start ≠ "" ∧ start.toList <+: unread
  recognized (start : String) : stream.matchText start ≠ 0 →
    stream.matchText start = start.length ∧ Hands start.toList stream

omit [LineSource σ] in
theorem matchText_ne_zero_iff (stream : CharStream σ) (start : String) :
    stream.matchText start ≠ 0 ↔ start ≠ "" ∧ start.toList <+: stream.rest := by
  unfold matchText
  split
  · next hahead =>
    rw [List.isPrefixOf_iff_prefix] at hahead
    simp [hahead]
  · next hahead =>
    rw [List.isPrefixOf_iff_prefix] at hahead
    simp [hahead]

/-- **A stream foretells what is left of its line.** -/
theorem foretells_rest (hused : stream.wantsLine = true → stream.rest = []) :
    Foretells stream.rest stream where
  shows distance := by
    simp [lookahead]
  shown distance c hshown := by
    have hshown : stream.rest[distance]? = some c := hshown
    obtain ⟨hdistance, hc⟩ := List.getElem?_eq_some_iff.mp hshown
    refine ⟨stream.rest.take (distance + 1), List.take_prefix _ _, ?_, ?_, ?_⟩
    · rw [List.length_take]
      omega
    · rw [List.take_add_one, hshown]
      simp
    · exact hands_of_rest hused (List.take_append_drop _ _).symm
  recognizes := matchText_ne_zero_iff stream
  recognized start hmatch := by
    obtain ⟨-, rest, hrest⟩ := (matchText_ne_zero_iff stream start).mp hmatch
    constructor
    · unfold matchText at hmatch ⊢
      split at hmatch
      · next hahead =>
        rw [if_pos hahead]
        exact String.length_toList
      · exact absurd rfl hmatch
    · exact hands_of_rest hused hrest.symm

end

/-! ## The law -/

variable {start : σ}

/-- **What a stream shows ahead is what it will hand out.**  Let every line of a source end with a line
feed, and give the source a log, which changes nothing of what the stream does.  Whatever was asked of
the stream before, let `unread` be what its source has handed out and what was not passed over yet: the
end of the current line.  Looking ahead shows a character just if `unread` reaches so far, and a text is
recognized just if `unread` starts with it.  What was shown or recognized is then grabbed, character by
character and up to there, without a failure and without a read. -/
theorem looks_at_what_comes (hlines : ProperLines start) (requests : List Request) :
    let stream : CharStream (Logged Item σ) := reached requests { source := ⟨start, []⟩ }
    let passed : List Char := passedBy requests { source := start }
    let unread : List Char := (LineSource.text stream.source.log).drop passed.length
    stream.forget = reached requests { source := start } ∧
    passed ++ unread = LineSource.text stream.source.log ∧
    stream.text = String.ofList (lastLine stream.source.log) ∧
    (∃ front, front <:+ passed ∧ lastLine stream.source.log = front ++ unread) ∧
    Foretells unread stream ∧ Foretells unread stream.forget := by
  intro stream passed unread
  obtain ⟨hforget, hpassed⟩ := forget_reached requests { source := (⟨start, []⟩ : Logged Item σ) }
  have hpaced : Paced start passed stream := by
    have hreached := (paced_start start).reached hlines requests
    rwa [List.nil_append, ← hpassed] at hreached
  have htracks : Tracks passed stream := by
    have hreached := (tracks_start start).reached requests
    rwa [List.nil_append, ← hpassed] at hreached
  have hunread : stream.rest = unread := by
    have htext := hpaced.text
    simp [unread, ← htext]
  obtain ⟨hline, hparted⟩ := htracks
  rw [hline] at hparted
  have hplain : Foretells stream.forget.rest stream.forget := foretells_rest hpaced.used
  rw [← hunread]
  refine ⟨hforget, hpaced.text, ?_, hparted, ?_, hplain⟩
  · rw [text, hline]
  · exact foretells_rest hpaced.used

/-- Behind the first character of a line, and a failure of the source in front of it. -/
theorem looks_at_what_comes_behind_failure :
    let fault : IoFault := { kind := .timedOut }
    let items : List Item := [.error fault.toFailure, .ok "let\r\n", .ok "x\n"]
    let stream : CharStream (Logged Item LineScript) :=
      reached [.peek, .grab] { source := ⟨⟨items⟩, []⟩ }
    Foretells ['e', 't', '\n'] stream := by
  intro fault items stream
  have hlines : ProperLines (⟨items⟩ : LineScript) :=
    properLines_of_supplies (LineSource.supplies_script items) (by decide +kernel)
  obtain ⟨-, -, -, -, hforetells, -⟩ := looks_at_what_comes hlines [.peek, .grab]
  exact hforetells

end CharStream

end LineEditor
