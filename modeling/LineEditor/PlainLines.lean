import LineEditor.Input.Feed
import LineEditor.LineSource
import LineEditor.Text.Utf8

/-!
# Reading plain lines

`PlainLines` hands out the lines of an input that is no terminal.  The last line gets a line feed if
it lacks one.

* A fault in the middle of a line drops what was read of that line.
* A line that is no text is passed over, with a failure.
-/

set_option autoImplicit false

namespace LineEditor

/-- The lines of a feed of bytes. -/
structure PlainLines where
  feed : Feed
  /-- has the end been met? -/
  exhausted : Bool := false

namespace PlainLines

/-- Read on behind the bytes in `done`, the latest of them first, to a line feed or to the end. -/
def readBytes (done : List UInt8) : List Feed.Item → EStateM.Result IoFault (List Feed.Item) (List UInt8)
  | [] => .ok done.reverse []
  | .ending :: rest => .ok done.reverse rest
  | .byte value :: rest =>
    if value = 10 then .ok (value :: done).reverse rest else readBytes (value :: done) rest
  | .fault fault :: rest =>
    if fault.kind = .interrupted then readBytes done rest else .error fault rest

/-- The next line: the text up to a line feed, or the rest before the end. -/
def readText : EStateM IoFault Feed (List Char) := fun feed =>
  match readBytes [] feed.items with
  | .error fault rest => .error fault ⟨rest⟩
  | .ok bytes rest =>
    match Utf8.decode bytes with
    | some text => .ok text ⟨rest⟩
    | none => .error IoFault.notText ⟨rest⟩

/-- The next line. -/
def readLine : Action PlainLines String := fun lines =>
  if lines.exhausted then .error .endOfInput lines
  else
    match readText lines.feed with
    | .error fault feed => .error fault.toFailure { lines with feed }
    | .ok text feed =>
      if text = [] then .error .endOfInput { feed, exhausted := true }
      else if text.getLast? = some '\n' then .ok (String.ofList text) { lines with feed }
      else .ok (String.ofList (text ++ ['\n'])) { feed, exhausted := true }

/-! ## Every line takes a part of the input -/

theorem length_of_readBytes {done : List UInt8} {items rest : List Feed.Item} {bytes : List UInt8}
    (h : readBytes done items = .ok bytes rest) :
    rest.length + bytes.length ≤ items.length + done.length := by
  induction items generalizing done with
  | nil => cases h; simp
  | cons item items ih =>
    cases item with
    | ending => cases h; simp
    | byte value =>
      simp only [readBytes] at h
      split at h
      · cases h; simp; omega
      · have := ih h; simp only [List.length_cons] at this ⊢; omega
    | fault fault =>
      simp only [readBytes] at h
      split at h
      · have := ih h; simp only [List.length_cons]; omega
      · cases h

theorem length_of_readText {feed next : Feed} {text : List Char}
    (h : readText feed = .ok text next) (htext : text ≠ []) :
    next.items.length < feed.items.length := by
  unfold readText at h
  split at h
  · cases h
  · next bytes rest hbytes =>
    split at h
    · next decoded hdecode =>
      cases h
      have hle := length_of_readBytes hbytes
      cases bytes with
      | nil =>
        simp only [Utf8.decode, Utf8.decodeAfter, List.reverse_nil, Option.some.injEq] at hdecode
        exact absurd hdecode.symm htext
      | cons byte bytes => simp only [List.length_cons, List.length_nil] at hle ⊢; omega
    · cases h

/-- **A line that is handed out has shortened the feed.** -/
theorem length_of_readLine {lines next : PlainLines} {line : String}
    (h : readLine lines = .ok line next) : next.feed.items.length < lines.feed.items.length := by
  unfold readLine at h
  split at h
  · cases h
  · split at h
    · cases h
    · next text feed htext =>
      split at h
      · cases h
      · next hne =>
        have := length_of_readText htext hne
        split at h <;> cases h <;> exact this

instance : LineSource PlainLines where
  hasNext lines := !lines.exhausted
  readLine := readLine

end PlainLines

end LineEditor
