import LineEditor.LineSource

/-!
# Streams of characters

A `CharStream` hands out the characters of a source of lines one at a time, without carriage
returns.  A line is read only when one of its characters is asked for: whoever has taken the line
feed of a line has not yet asked for the next one.

* `CharStream.peek`, `CharStream.step`, `CharStream.grab` — look at the next character, pass over
  it, or both; `CharStream.next` — do both as an iteration does.
* `CharStream.lookahead`, `CharStream.matchText` — look further ahead in the line that was read.
* `CharStream.offset` — the number of characters passed over.
-/

set_option autoImplicit false

namespace LineEditor

/-- The characters of a source of lines. -/
structure CharStream (σ : Type) where
  source : σ
  /-- the line that was read last -/
  line : List Char := []
  /-- the characters of this line that were not passed over yet -/
  rest : List Char := []
  /-- the number of characters passed over -/
  offset : Nat := 0
  /-- is the line used up? -/
  wantsLine : Bool := true
  /-- has the source ended? -/
  finished : Bool := false

namespace CharStream

variable {σ : Type} [LineSource σ]

/-- Take up a line. -/
def accept (text : List Char) (stream : CharStream σ) : CharStream σ :=
  let line := text.filter (· ≠ '\r')
  { stream with line, rest := line, wantsLine := false }

/-- Read a line if the last one is used up.  At the end of the source the stream goes on with an
empty line. -/
def fill : Action (CharStream σ) Unit := fun stream =>
  if !stream.wantsLine || stream.finished then .ok () stream
  else
    match LineSource.readLine stream.source with
    | .ok text source => .ok () (accept text.toList { stream with source })
    | .error failure source =>
      if failure.isEndOfInput then .ok () (accept [] { stream with source, finished := true })
      else .error failure { stream with source }

/-- May there be another character? -/
def hasNext (stream : CharStream σ) : Bool :=
  if !stream.wantsLine && !stream.rest.isEmpty then true
  else !stream.finished && LineSource.hasNext stream.source

/-- The next character, which stays the next one. -/
def peek : Action (CharStream σ) (Option Char) := do
  fill
  return (← get).rest.head?

/-- Pass over the next character. -/
def step : Action (CharStream σ) Unit := do
  fill
  modify fun stream =>
    match stream.rest with
    | [] => stream
    | _ :: rest => { stream with rest, offset := stream.offset + 1, wantsLine := rest.isEmpty }

/-- The next character, and pass over it. -/
def grab : Action (CharStream σ) (Option Char) := do
  match ← peek with
  | none => return none
  | some c =>
    step
    return some c

/-- The next character as an item of an iteration, which `none` ends; a failure is an item too. -/
def next (stream : CharStream σ) : Option (Except Failure Char) × CharStream σ :=
  match grab stream with
  | .ok none stream => (none, stream)
  | .ok (some c) stream => (some (.ok c), stream)
  | .error failure stream => (some (.error failure), stream)

/-- The character of the current line that stands `distance` places behind the next one. -/
def lookahead (stream : CharStream σ) (distance : Nat) : Option Char := stream.rest[distance]?

/-- The whole current line. -/
def text (stream : CharStream σ) : String := String.ofList stream.line

/-- The length of `start` if the rest of the current line starts with it, and zero otherwise. -/
def matchText (stream : CharStream σ) (start : String) : Nat :=
  if start.toList.isPrefixOf stream.rest then start.toList.length else 0

/-- Grab at most `count` characters behind those in `done`, the latest of them first, up to the end
or a failure; hands out the characters and the failure. -/
def grabOnto (done : List Char) : Nat → CharStream σ → (String × Option Failure) × CharStream σ
  | 0, stream => ((String.ofList done.reverse, none), stream)
  | count + 1, stream =>
    match grab stream with
    | .ok none stream => ((String.ofList done.reverse, none), stream)
    | .ok (some c) stream => grabOnto (c :: done) count stream
    | .error failure stream => ((String.ofList done.reverse, some failure), stream)

/-- Grab at most `count` characters. -/
def grabMany (count : Nat) (stream : CharStream σ) : (String × Option Failure) × CharStream σ :=
  grabOnto [] count stream

end CharStream

end LineEditor
