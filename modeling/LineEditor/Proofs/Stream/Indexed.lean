import LineEditor.Proofs.Stream.Delivery

/-!
# A stream over a buffer

The characters of a line that were not passed over yet need not be kept as such.  It is enough to keep
the line in a buffer, the place of the next character in it, and the number of characters in all lines
before it; a prefix is then matched one character after another.

* `CharStream.Indexed` — a stream kept this way, and what can be asked of it.
* `CharStream.Indexed.view` — the stream that it is.
* `CharStream.Indexed.Sound` — the next character is in the buffer or right behind it, and a line is
  wanted only behind it.
* `CharStream.Indexed.Realizes` — **the step**: what is done to the buffer is done to its view.
* `CharStream.Indexed.Agrees`, `CharStream.Indexed.reached_agrees` — **the run**: after any mix of
  requests the two ways answer alike.
-/

set_option autoImplicit false

open LineEditor.Action

namespace LineEditor.CharStream

/-- A stream that keeps the line that was read last in a buffer. -/
structure Indexed (σ : Type) where
  source : σ
  /-- the line that was read last -/
  buffer : Array Char := #[]
  /-- the place of the next character in the buffer -/
  place : Nat := 0
  /-- the number of characters in all lines before this one -/
  consumed : Nat := 0
  /-- is the line used up? -/
  wantsLine : Bool := true
  /-- has the source ended? -/
  finished : Bool := false

namespace Indexed

variable {σ : Type}

/-! ## Operations -/

section

variable [LineSource σ]

/-- Take up a line. -/
def accept (text : List Char) (stream : Indexed σ) : Indexed σ :=
  { stream with
    consumed := stream.consumed + stream.buffer.size
    buffer := (text.filter (· ≠ '\r')).toArray
    place := 0
    wantsLine := false }

/-- Read a line, unless the source has ended. -/
def readNextLine : Action (Indexed σ) Unit := fun stream =>
  if stream.finished then .ok () stream
  else
    match LineSource.readLine stream.source with
    | .ok text source => .ok () (accept text.toList { stream with source })
    | .error failure source =>
      if failure.isEndOfInput then .ok () (accept [] { stream with source, finished := true })
      else .error failure { stream with source }

/-- Read a line if the last one is used up. -/
def fill : Action (Indexed σ) Unit := fun stream =>
  if stream.wantsLine then readNextLine stream else .ok () stream

/-- May there be another character? -/
def hasNext (stream : Indexed σ) : Bool :=
  if !stream.wantsLine && stream.place < stream.buffer.size then true
  else !stream.finished && LineSource.hasNext stream.source

/-- The next character, which stays the next one. -/
def peek : Action (Indexed σ) (Option Char) := do
  fill
  let stream ← get
  return stream.buffer[stream.place]?

/-- Move the place behind the next character of the buffer, if there is one. -/
def advance (stream : Indexed σ) : Indexed σ :=
  if stream.buffer.size ≤ stream.place then stream
  else
    { stream with
      place := stream.place + 1
      wantsLine := if stream.place + 1 = stream.buffer.size then true else stream.wantsLine }

/-- Pass over the next character. -/
def step : Action (Indexed σ) Unit := do
  fill
  modify advance

/-- The next character, and pass over it. -/
def grab : Action (Indexed σ) (Option Char) := do
  match ← peek with
  | none => return none
  | some c =>
    step
    return some c

/-- The next character as an item of an iteration. -/
def next (stream : Indexed σ) : Option (Except Failure Char) × Indexed σ :=
  match grab stream with
  | .ok none stream => (none, stream)
  | .ok (some c) stream => (some (.ok c), stream)
  | .error failure stream => (some (.error failure), stream)

end

/-- The character of the current line that stands `distance` places behind the next one. -/
def lookahead (stream : Indexed σ) (distance : Nat) : Option Char :=
  stream.buffer[stream.place + distance]?

/-- The number of characters passed over. -/
def offset (stream : Indexed σ) : Nat := stream.consumed + stream.place

/-- The whole current line. -/
def text (stream : Indexed σ) : String := String.ofList stream.buffer.toList

/-- Compare the characters of a text with those from place `matched` on, up to the first difference. -/
def matchFrom (rest : Array Char) : List Char → Nat → Nat
  | [], matched => matched
  | c :: text, matched => if rest[matched]? = some c then matchFrom rest text (matched + 1) else 0

/-- The length of `start` if the rest of the current line starts with it, and zero otherwise. -/
def matchText (stream : Indexed σ) (start : String) : Nat :=
  matchFrom (stream.buffer.extract (min stream.place stream.buffer.size)) start.toList 0

/-! ## The view -/

/-- The stream that is kept. -/
def view (stream : Indexed σ) : CharStream σ where
  source := stream.source
  line := stream.buffer.toList
  rest := stream.buffer.toList.drop stream.place
  offset := stream.offset
  wantsLine := stream.wantsLine
  finished := stream.finished

/-- The next character is in the buffer or right behind it, and a line is wanted only behind it. -/
structure Sound (stream : Indexed σ) : Prop where
  inside : stream.place ≤ stream.buffer.size
  used : stream.wantsLine = true → stream.place = stream.buffer.size

variable {stream : Indexed σ}

theorem sound_start (source : σ) : Sound { source } := ⟨Nat.le_refl _, fun _ => rfl⟩

theorem Sound.wantsLine_of_lt (h : stream.Sound) (hmore : ¬stream.buffer.size ≤ stream.place) :
    stream.wantsLine = false :=
  Bool.eq_false_iff.mpr fun hwants => hmore (Nat.le_of_eq (h.used hwants).symm)

theorem head?_view (stream : Indexed σ) : stream.view.rest.head? = stream.buffer[stream.place]? := by
  rw [view, List.head?_drop, Array.getElem?_toList]

theorem lookahead_view (stream : Indexed σ) (distance : Nat) :
    stream.lookahead distance = stream.view.lookahead distance := by
  rw [lookahead, CharStream.lookahead, view, List.getElem?_drop, Array.getElem?_toList]

/-- Comparing one character after another finds out whether the rest starts with the text. -/
theorem matchFrom_eq (rest : Array Char) (text : List Char) (matched : Nat) :
    matchFrom rest text matched =
      if text.isPrefixOf (rest.toList.drop matched) then matched + text.length else 0 := by
  induction text generalizing matched with
  | nil => rfl
  | cons c text ih =>
    have hshown : rest[matched]? = (rest.toList.drop matched).head? := by
      rw [List.head?_drop, Array.getElem?_toList]
    rw [matchFrom, hshown, ih, ← List.tail_drop]
    cases rest.toList.drop matched with
    | nil => rfl
    | cons d others =>
      rw [List.head?_cons, List.tail_cons, List.isPrefixOf_cons_cons]
      by_cases hc : d = c
      · rw [hc, if_pos rfl, beq_self_eq_true, Bool.true_and, List.length_cons, Nat.add_right_comm,
          Nat.add_assoc]
      · have hdiffer : (c == d) = false := beq_false_of_ne (Ne.symm hc)
        rw [if_neg (fun h => hc (Option.some.inj h)), hdiffer, Bool.false_and, if_neg Bool.false_ne_true]

theorem matchText_view (h : stream.Sound) (start : String) :
    stream.matchText start = stream.view.matchText start := by
  have hrest : (stream.buffer.extract stream.place).toList.drop 0 = stream.view.rest := by
    rw [List.drop_zero, Array.toList_extract, List.extract_eq_take_drop, ← Array.length_toList,
      ← List.length_drop, List.take_length, view]
  rw [matchText, CharStream.matchText, Nat.min_eq_left h.inside, matchFrom_eq, hrest, Nat.zero_add]

theorem hasNext_view [LineSource σ] (stream : Indexed σ) : stream.hasNext = stream.view.hasNext := by
  have hleft : (!stream.view.rest.isEmpty) = decide (stream.place < stream.buffer.size) := by
    rw [Bool.eq_iff_iff]
    simp [view, List.drop_eq_nil_iff]
  rw [hasNext, CharStream.hasNext, hleft]
  rfl

/-! ## Steps -/

/-- From a sound stream the one action does to the buffer what the other does to the view, and leaves
a sound stream behind. -/
def Realizes {α : Type} (step : Action (Indexed σ) α) (step' : Action (CharStream σ) α) : Prop :=
  ∀ stream : Indexed σ, stream.Sound → Mirrors view step step' stream ∧ (state (step stream)).Sound

section

variable {α β : Type} {step : Action (Indexed σ) α} {step' : Action (CharStream σ) α}
  {rest : α → Action (Indexed σ) β} {rest' : α → Action (CharStream σ) β}

theorem realizes_pure (value : α) :
    Realizes (pure value : Action (Indexed σ) α) (pure value) := fun _ h => ⟨rfl, h⟩

theorem Realizes.bind (h : Realizes step step') (hrest : ∀ value, Realizes (rest value) (rest' value)) :
    Realizes (step >>= rest) (step' >>= rest') := by
  intro stream hsound
  obtain ⟨hview, hnext⟩ := h stream hsound
  unfold Mirrors at hview ⊢
  cases hstep : step stream with
  | ok value next =>
    rw [hstep] at hview hnext
    rw [bind_of_ok hstep, bind_of_ok hview.symm]
    exact hrest value next hnext
  | error failure next =>
    rw [hstep] at hview hnext
    rw [bind_of_error hstep, bind_of_error hview.symm]
    exact ⟨rfl, hnext⟩

theorem realizes_get_bind {rest : Indexed σ → Action (Indexed σ) β}
    {rest' : CharStream σ → Action (CharStream σ) β}
    (h : ∀ stream : Indexed σ, Realizes (rest stream) (rest' stream.view)) :
    Realizes (get >>= rest) (get >>= rest') := fun stream hsound => h stream stream hsound

end

theorem accept_view [LineSource σ] (text : List Char) (stream : Indexed σ)
    (h : stream.place = stream.buffer.size) :
    (accept text stream).view = CharStream.accept text stream.view := by
  simp [accept, view, offset, CharStream.accept, h]

theorem sound_accept [LineSource σ] (text : List Char) (stream : Indexed σ) :
    (accept text stream).Sound := ⟨Nat.zero_le _, nofun⟩

theorem advance_view (h : stream.Sound) : stream.advance.view = stream.view.passOver := by
  unfold advance
  split
  · next hend =>
    have hnone : stream.view.rest = [] := by
      rw [view, List.drop_of_length_le (by simpa using hend)]
    rw [passOver_of_nil hnone]
  · next hmore =>
    have hplace : stream.place < stream.buffer.toList.length := by simpa using hmore
    have hsome : stream.view.rest =
        stream.buffer.toList[stream.place] :: stream.buffer.toList.drop (stream.place + 1) := by
      rw [view, List.drop_eq_getElem_cons hplace]
    have hused : (stream.buffer.toList.drop (stream.place + 1)).isEmpty =
        if stream.place + 1 = stream.buffer.size then true else false := by
      rw [Bool.eq_iff_iff, List.isEmpty_iff, List.drop_eq_nil_iff, Array.length_toList]
      split <;> simp only [reduceCtorEq, iff_true, iff_false] <;> omega
    rw [passOver_of_cons hsome, hused]
    simp only [view, offset, h.wantsLine_of_lt hmore, Nat.add_assoc]

theorem sound_advance (h : stream.Sound) : stream.advance.Sound := by
  unfold advance
  split
  · exact h
  · next hmore =>
    refine ⟨Nat.lt_of_not_le hmore, fun hwants => ?_⟩
    rw [h.wantsLine_of_lt hmore] at hwants
    simpa using hwants

section

variable [LineSource σ]

theorem fill_of_filled (h : stream.view.Filled) : fill stream = .ok () stream := by
  unfold fill
  cases hwants : stream.wantsLine with
  | false => rfl
  | true =>
    have hfinished : stream.finished = true := by simpa [Filled, view, hwants] using h
    exact (if_pos rfl).trans (if_pos hfinished)

theorem fill_of_not_filled (h : ¬stream.view.Filled) :
    stream.wantsLine = true ∧
      fill stream = match LineSource.readLine stream.source with
        | .ok text source => .ok () (accept text.toList { stream with source })
        | .error failure source =>
          if failure.isEndOfInput then .ok () (accept [] { stream with source, finished := true })
          else .error failure { stream with source } := by
  have hboth : stream.wantsLine = true ∧ ¬stream.finished = true := by simpa [Filled, view] using h
  exact ⟨hboth.1, (if_pos hboth.1).trans (if_neg hboth.2)⟩

/-- Reading a line into the buffer puts it into the view. -/
theorem realizes_fill : Realizes (fill : Action (Indexed σ) Unit) CharStream.fill := by
  intro stream h
  unfold Mirrors
  by_cases hfilled : stream.view.Filled
  · have hview : CharStream.fill stream.view = .ok () stream.view := if_pos hfilled
    rw [fill_of_filled hfilled, hview]
    exact ⟨rfl, h⟩
  · obtain ⟨hwants, hfill⟩ := fill_of_not_filled hfilled
    have hplace := h.used hwants
    cases hread : LineSource.readLine stream.source with
    | ok text source =>
      rw [hread] at hfill
      rw [hfill, fill_of_line hfilled hread]
      exact ⟨congrArg (EStateM.Result.ok ()) (accept_view _ { stream with source } hplace),
        sound_accept _ _⟩
    | error failure source =>
      rw [hread] at hfill
      by_cases hended : failure.isEndOfInput = true
      · rw [hfill.trans (if_pos hended), fill_of_end hfilled hread hended]
        exact ⟨congrArg (EStateM.Result.ok ())
          (accept_view _ { stream with source, finished := true } hplace), sound_accept _ _⟩
      · rw [hfill.trans (if_neg hended), fill_of_failure hfilled hread hended]
        exact ⟨rfl, h.inside, h.used⟩

theorem realizes_peek : Realizes (peek : Action (Indexed σ) (Option Char)) CharStream.peek := by
  refine realizes_fill.bind fun _ => realizes_get_bind fun stream => ?_
  rw [head?_view]
  exact realizes_pure _

theorem realizes_step : Realizes (step : Action (Indexed σ) Unit) CharStream.step :=
  realizes_fill.bind fun _ _ h => ⟨congrArg _ (advance_view h), sound_advance h⟩

theorem realizes_grab : Realizes (grab : Action (Indexed σ) (Option Char)) CharStream.grab := by
  refine realizes_peek.bind fun found => ?_
  cases found with
  | none => exact realizes_pure _
  | some c => exact realizes_step.bind fun _ => realizes_pure _

theorem next_view (h : stream.Sound) :
    (stream.next.1, stream.next.2.view) = CharStream.next stream.view ∧ stream.next.2.Sound := by
  obtain ⟨hview, hsound⟩ := realizes_grab stream h
  unfold Mirrors at hview
  unfold next CharStream.next
  rw [← hview]
  cases hgrab : grab stream with
  | ok found last =>
    rw [hgrab] at hsound
    cases found <;> exact ⟨rfl, hsound⟩
  | error failure last =>
    rw [hgrab] at hsound
    exact ⟨rfl, hsound⟩

/-! ## Any requests -/

/-- The stream behind a request. -/
def after (request : Request) (stream : Indexed σ) : Indexed σ :=
  match request with
  | .peek => state (peek stream)
  | .step => state (step stream)
  | .grab => state (grab stream)
  | .next => stream.next.2
  | .hasNext | .lookahead _ | .matchText _ | .text | .offset => stream

/-- The stream behind some requests, the failed ones included. -/
def reached : List Request → Indexed σ → Indexed σ
  | [], stream => stream
  | request :: requests, stream => reached requests (after request stream)

/-- The stream answers every request as its view does. -/
structure Agrees (stream : Indexed σ) : Prop where
  peek : Mirrors view Indexed.peek CharStream.peek stream
  step : Mirrors view Indexed.step CharStream.step stream
  grab : Mirrors view Indexed.grab CharStream.grab stream
  next : (stream.next.1, stream.next.2.view) = CharStream.next stream.view
  hasNext : stream.hasNext = stream.view.hasNext
  lookahead (distance : Nat) : stream.lookahead distance = stream.view.lookahead distance
  matchText (start : String) : stream.matchText start = stream.view.matchText start
  text : stream.text = stream.view.text
  offset : stream.offset = stream.view.offset

theorem Sound.agrees (h : stream.Sound) : stream.Agrees where
  peek := (realizes_peek stream h).1
  step := (realizes_step stream h).1
  grab := (realizes_grab stream h).1
  next := (next_view h).1
  hasNext := hasNext_view stream
  lookahead := lookahead_view stream
  matchText := matchText_view h
  text := rfl
  offset := rfl

omit [LineSource σ] in
theorem Realizes.after {α : Type} {step : Action (Indexed σ) α} {step' : Action (CharStream σ) α}
    (h : Realizes step step') (hsound : stream.Sound) :
    (state (step stream)).view = state (step' stream.view) ∧ (state (step stream)).Sound := by
  obtain ⟨hview, hnext⟩ := h stream hsound
  unfold Mirrors at hview
  rw [← hview, state_mapState]
  exact ⟨rfl, hnext⟩

/-- **A request does to the buffer what it does to the view.** -/
theorem Sound.request (h : stream.Sound) (request : Request) :
    (after request stream).view = request.after stream.view ∧ (after request stream).Sound := by
  cases request with
  | peek => exact realizes_peek.after h
  | step => exact realizes_step.after h
  | grab => exact realizes_grab.after h
  | next =>
    obtain ⟨hview, hsound⟩ := next_view h
    exact ⟨congrArg Prod.snd hview, hsound⟩
  | hasNext | lookahead distance | matchText start | text | offset => exact ⟨rfl, h⟩

theorem Sound.reached (h : stream.Sound) (requests : List Request) :
    (reached requests stream).view = CharStream.reached requests stream.view ∧
      (reached requests stream).Sound := by
  induction requests generalizing stream with
  | nil => exact ⟨rfl, h⟩
  | cons request requests ih =>
    obtain ⟨hview, hsound⟩ := h.request request
    rw [Indexed.reached, CharStream.reached, ← hview]
    exact ih hsound

/-- **A stream can be kept in a buffer.**  After any mix of requests to a stream that starts on a source,
the buffer is a view of the stream that the same requests leave, and answers every further request as
that one does. -/
theorem reached_agrees (source : σ) (requests : List Request) :
    (reached requests { source }).view = CharStream.reached requests { source } ∧
      (reached requests { source }).Agrees := by
  obtain ⟨hview, hsound⟩ := (sound_start source).reached requests
  exact ⟨hview, hsound.agrees⟩

end

end Indexed

end LineEditor.CharStream
