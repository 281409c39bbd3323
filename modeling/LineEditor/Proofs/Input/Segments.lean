import LineEditor.Proofs.Input.View

/-!
# Keys as pieces of the input

A decoder sometimes reads a byte too far and puts it back.  This cannot be seen from outside: whether a
byte was put back or is still in the source makes no difference, and the keys are those that a pure
reading of the bytes finds, one piece behind the other.

* `Decoder.nextStrokeWith`, `Decoder.nextKeyWith` — the decoder with another way to put a byte back.
* `Decoder.nextStroke_settles`, `Decoder.nextKey_settles` — a byte is put back only where none is, and
  only the escape key leaves one behind.
* `Decoder.Request`, `Decoder.ask` — what is asked of a decoder: a stroke or a whole key.
* `KeyLayout.reply?`, `KeyLayout.replies`, `KeyLayout.unread` — the pure reading of some requests.
* `Decoder.cuts_input` — any mix of requests cuts the input into pieces.
-/

set_option autoImplicit false

open LineEditor.Action

namespace LineEditor

namespace Decoder

variable {β : Type} [ByteSource β] {α : Type} {layout : KeyLayout} {view rest : List UInt8}
  {decoder : Decoder β}

/-! ## The slot for a byte put back -/

section

variable (put : UInt8 → Action (Decoder β) Unit)

/-- `nextSequence` with another way to put a byte back. -/
def nextSequenceWith (parameters : List UInt8) (intermediate : Bool) :
    Nat → Action (Decoder β) ControlKey
  | 0 => pure .escape
  | room + 1 => do
    let byte ← nextByte
    if Stroke.isParameter byte && !intermediate then
      nextSequenceWith (parameters ++ [byte]) intermediate room
    else if Stroke.isIntermediate byte then
      nextSequenceWith parameters true room
    else if Stroke.isFinal byte then
      pure (Stroke.ofSequence parameters intermediate byte)
    else
      put byte
      pure .escape

/-- `nextEscape` with another way to put a byte back. -/
def nextEscapeWith : Action (Decoder β) ControlKey := do
  let byte ← nextByte
  if byte = 0x5B then
    nextSequenceWith put [] false Stroke.longestBody
  else if byte = 0x4F then
    let selector ← nextByte
    pure ((Stroke.arrow? selector).getD .escape)
  else
    put byte
    pure .escape

/-- `strokeOfEscapes` with another way to put a byte back. -/
def strokeOfEscapesWith (byte : UInt8) : Action (Decoder β) Stroke := do
  if byte = 10 ∨ byte = 13 then
    pure (.control .enter)
  else if byte = 127 then
    pure (.control .backspace)
  else if byte = Stroke.escape then
    let key ← nextEscapeWith put
    pure (.control key)
  else
    pure (Stroke.ofByte byte)

/-- `nextStroke` with another way to put a byte back. -/
def nextStrokeWith : Action (Decoder β) Stroke := do
  let byte ← nextByte
  match (← get).layout with
  | .unix => strokeOfEscapesWith put byte
  | .windows => strokeOfScanCodes byte

/-- `nextKey` with another way to put a byte back. -/
def nextKeyWith : Action (Decoder β) Key := do
  match ← nextStrokeWith put with
  | .control key => pure (.control key)
  | .byte lead =>
    let cell ← nextCell lead
    pure (.printable cell)

end

/-- A way to put a byte back that is the usual one as long as the slot is free.  It may do anything at
all where a byte is in the slot already. -/
def Careful (put : UInt8 → Action (Decoder β) Unit) : Prop :=
  ∀ byte (decoder : Decoder β), decoder.Free → put byte decoder = putBack byte decoder

/-- From a free slot the two actions do the same, and then the slot is free again unless they have
come to something that may hold a byte back. -/
def Settles (holding : α → Prop) (other action : Action (Decoder β) α) : Prop :=
  ∀ decoder, decoder.Free →
    Agree other action decoder (fun value next => next.Free ∨ holding value) fun _ next => next.Free

section

variable {holding : α → Prop} {put : UInt8 → Action (Decoder β) Unit}

omit [ByteSource β] in
theorem settles_pure (value : α) :
    Settles holding (pure value : Action (Decoder β) α) (pure value) :=
  fun _ hfree => (ends_pure (.inl hfree)).agree

/-- Reading a byte leaves the slot free, whatever it was and whatever the source does. -/
theorem nextByte_frees (decoder : Decoder β) :
    Ends nextByte decoder (fun _ next => next.Free) fun _ next => next.Free := by
  unfold Ends nextByte
  cases hpending : decoder.pending with
  | some put => exact rfl
  | none => cases ByteSource.readByte decoder.source <;> exact rfl

theorem nextByte_settles {other after : UInt8 → Action (Decoder β) α}
    (h : ∀ byte, Settles holding (other byte) (after byte)) (decoder : Decoder β) :
    Agree (nextByte >>= other) (nextByte >>= after) decoder
      (fun value next => next.Free ∨ holding value) fun _ next => next.Free :=
  (nextByte_frees decoder).agree.bind fun byte next hfree => h byte next hfree

omit [ByteSource β] in
theorem settles_putBack (hput : Careful put) (byte : UInt8) {value : α} (hvalue : holding value) :
    Settles holding (put byte >>= fun _ => pure value) (putBack byte >>= fun _ => pure value) := by
  intro decoder hfree
  exact ⟨bind_of_eq (hput byte decoder hfree), ends_of_ok rfl (.inr hvalue)⟩

theorem settles_nextSequence (hput : Careful put) (parameters : List UInt8) (intermediate : Bool)
    (room : Nat) :
    Settles (· = .escape) (nextSequenceWith put parameters intermediate room)
      (nextSequence parameters intermediate room) := by
  induction room generalizing parameters intermediate with
  | zero => exact settles_pure _
  | succ room ih =>
    refine fun decoder _ => nextByte_settles (fun byte => ?_) decoder
    split
    · exact ih _ _
    · split
      · exact ih _ _
      · split
        · exact settles_pure _
        · exact settles_putBack hput byte rfl

theorem settles_nextEscape (hput : Careful put) :
    Settles (· = .escape) (nextEscapeWith put) nextEscape := by
  refine fun decoder _ => nextByte_settles (fun byte => ?_) decoder
  split
  · exact settles_nextSequence hput _ _ _
  · split
    · exact fun decoder _ => nextByte_settles (fun _ => settles_pure _) decoder
    · exact settles_putBack hput byte rfl

theorem settles_strokeOfEscapes (hput : Careful put) (byte : UInt8) :
    Settles (· = .control .escape) (strokeOfEscapesWith put byte) (strokeOfEscapes byte) := by
  unfold strokeOfEscapesWith strokeOfEscapes
  split
  · exact settles_pure _
  · split
    · exact settles_pure _
    · split
      · intro decoder hfree
        refine (settles_nextEscape hput decoder hfree).bind fun key next hnext => ?_
        have hstroke : next.Free ∨ Stroke.control key = .control .escape :=
          hnext.imp_right fun hkey => congrArg Stroke.control hkey
        exact ⟨rfl, hstroke⟩
      · exact settles_pure _

theorem settles_strokeOfScanCodes (byte : UInt8) :
    Settles (· = .control .escape) (strokeOfScanCodes byte : Action (Decoder β) Stroke)
      (strokeOfScanCodes byte) := by
  unfold strokeOfScanCodes
  split
  · exact fun decoder _ => nextByte_settles (fun _ => settles_pure _) decoder
  · repeat' split
    all_goals exact settles_pure _

/-- **The slot is never filled twice, and only escape holds a byte back.** -/
theorem nextStroke_settles (hput : Careful put) (decoder : Decoder β) :
    Agree (nextStrokeWith put) nextStroke decoder
      (fun stroke next => next.Free ∨ stroke = .control .escape) fun _ next => next.Free := by
  refine nextByte_settles (fun byte decoder hfree => agree_get_bind ?_) decoder
  cases decoder.layout with
  | unix => exact settles_strokeOfEscapes hput byte decoder hfree
  | windows => exact settles_strokeOfScanCodes byte decoder hfree

theorem settles_nextCell (lead : UInt8) :
    Settles (fun _ => False) (nextCell lead : Action (Decoder β) Cell) (nextCell lead) := by
  unfold nextCell
  split
  · exact settles_pure _
  · refine fun decoder _ => nextByte_settles (fun second => ?_) decoder
    split
    · exact settles_pure _
    · refine fun decoder _ => nextByte_settles (fun third => ?_) decoder
      split
      · exact settles_pure _
      · exact fun decoder _ => nextByte_settles (fun _ => settles_pure _) decoder

theorem nextKey_settles (hput : Careful put) (decoder : Decoder β) :
    Agree (nextKeyWith put) nextKey decoder
      (fun key next => next.Free ∨ key = .control .escape) fun _ next => next.Free := by
  refine (nextStroke_settles hput decoder).bind fun stroke next hnext => ?_
  cases stroke with
  | control key =>
    have hkey : next.Free ∨ Key.control key = .control .escape := by simpa using hnext
    exact ⟨rfl, hkey⟩
  | byte lead =>
    have hfree : next.Free := by simpa using hnext
    refine (settles_nextCell lead next hfree).bind fun cell last hlast => ?_
    exact ⟨rfl, .inl (hlast.resolve_right id)⟩

end

/-! ## Requests -/

/-- What is asked of a decoder. -/
inductive Request where
  | stroke
  | key
  deriving DecidableEq, Repr

/-- What a decoder has found. -/
inductive Reply where
  | stroke (stroke : Stroke)
  | key (key : Key)
  deriving DecidableEq, Repr

/-- The control key that was found. -/
def Reply.control? : Reply → Option ControlKey
  | .stroke (.control control) => some control
  | .key (.control control) => some control
  | _ => none

/-- Answer a request, with some way to put a byte back. -/
def askWith (put : UInt8 → Action (Decoder β) Unit) : Request → Action (Decoder β) Reply
  | .stroke => do
    let stroke ← nextStrokeWith put
    pure (.stroke stroke)
  | .key => do
    let key ← nextKeyWith put
    pure (.key key)

/-- Answer a request. -/
def ask : Request → Action (Decoder β) Reply
  | .stroke => do
    let stroke ← nextStroke
    pure (.stroke stroke)
  | .key => do
    let key ← nextKey
    pure (.key key)

/-- The answers to some requests, the failed ones included. -/
def answers : List Request → Decoder β → List (Except Failure Reply)
  | [], _ => []
  | request :: requests, decoder =>
    answer (ask request decoder) :: answers requests (state (ask request decoder))

/-- The decoder after some requests, the failed ones included. -/
def reached : List Request → Decoder β → Decoder β
  | [], decoder => decoder
  | request :: requests, decoder => reached requests (state (ask request decoder))

end Decoder

namespace KeyLayout

open Decoder (Request Reply)

variable {request : Request} {reply : Reply} {bytes rest : List UInt8} {layout : KeyLayout}

/-- The answer that the bytes begin with, and the bytes behind it. -/
def reply? (layout : KeyLayout) : Request → List UInt8 → Option (Reply × List UInt8)
  | .stroke, bytes => (layout.stroke? bytes).map fun found => (.stroke found.1, found.2)
  | .key, bytes => (layout.key? bytes).map fun found => (.key found.1, found.2)

/-- The answers to some requests.  Each starts afresh where the one before it stopped; bytes that fall
short of an answer are used up. -/
def replies (layout : KeyLayout) : List Request → List UInt8 → List (Except Failure Reply)
  | [], _ => []
  | request :: requests, bytes =>
    match layout.reply? request bytes with
    | some (reply, rest) => .ok reply :: replies layout requests rest
    | none => .error .endOfInput :: replies layout requests []

/-- The bytes that some requests leave unread. -/
def unread (layout : KeyLayout) : List Request → List UInt8 → List UInt8
  | [], bytes => bytes
  | request :: requests, bytes =>
    match layout.reply? request bytes with
    | some (_, rest) => unread layout requests rest
    | none => unread layout requests []

/-- An answer takes a piece of one to eighteen bytes, and no control key without a meaning is found. -/
theorem reply?_piece (h : layout.reply? request bytes = some (reply, rest)) :
    (∃ taken, bytes = taken ++ rest ∧ 0 < taken.length ∧ taken.length ≤ 18) ∧
      ∀ control, reply.control? = some control → control ∈ ControlKey.canonical := by
  suffices hpiece :
      (∃ byte behind, bytes = byte :: behind ∧ Cuts (Stroke.longestBody + 1) behind rest) ∧
        ∀ control, reply.control? = some control → control ∈ ControlKey.canonical by
    obtain ⟨⟨byte, behind, rfl, taken, rfl, hlength⟩, hcontrol⟩ := hpiece
    exact ⟨⟨byte :: taken, rfl, Nat.succ_pos _, Nat.succ_le_succ hlength⟩, hcontrol⟩
  cases request with
  | stroke =>
    obtain ⟨⟨stroke, left⟩, hstroke, hfound⟩ := Option.map_eq_some_iff.mp h
    cases hfound
    obtain ⟨byte, behind, rfl, hpiece⟩ := stroke?_piece hstroke
    cases stroke with
    | byte value =>
      refine ⟨⟨byte, behind, rfl, Cuts.mono hpiece (by decide)⟩, ?_⟩
      rintro control hcontrol
      cases hcontrol
    | control key =>
      refine ⟨⟨byte, behind, rfl, hpiece.1⟩, ?_⟩
      rintro control hcontrol
      cases hcontrol
      exact hpiece.2
  | key =>
    obtain ⟨⟨key, left⟩, hkey, hfound⟩ := Option.map_eq_some_iff.mp h
    cases hfound
    obtain ⟨hcuts, hcanonical⟩ := key?_piece hkey
    refine ⟨hcuts, ?_⟩
    cases key with
    | printable cell =>
      rintro control hcontrol
      cases hcontrol
    | control key =>
      rintro control hcontrol
      cases hcontrol
      exact hcanonical key rfl

end KeyLayout

namespace Decoder

variable {β : Type} [ByteSource β] {layout : KeyLayout} {view : List UInt8} {decoder : Decoder β}

theorem reads_ask (request : Request) :
    Reads (fun _ : Decoder β => True) layout (ask request) (layout.reply? request) := by
  cases request with
  | stroke =>
    refine (reads_nextStroke.bind _ fun stroke => reads_pure _).congr fun view => ?_
    simp only [KeyLayout.reply?]
    cases layout.stroke? view <;> rfl
  | key =>
    refine (reads_nextKey.bind _ fun key => reads_pure _).congr fun view => ?_
    simp only [KeyLayout.reply?]
    cases layout.key? view <;> rfl

theorem ask_settles {put : UInt8 → Action (Decoder β) Unit} (hput : Careful put) (request : Request)
    (decoder : Decoder β) :
    Agree (askWith put request) (ask request) decoder
      (fun reply next => next.Free ∨ reply.control? = some .escape) fun _ next => next.Free := by
  cases request with
  | stroke =>
    refine (nextStroke_settles hput decoder).bind fun stroke next hnext => ⟨rfl, ?_⟩
    exact hnext.imp_right fun hstroke => by rw [hstroke, Reply.control?]
  | key =>
    refine (nextKey_settles hput decoder).bind fun key next hnext => ⟨rfl, ?_⟩
    exact hnext.imp_right fun hkey => by rw [hkey, Reply.control?]

/-- **The run**: the answers are those of the pure reading, and what is left unread then is what that
reading leaves. -/
theorem answers_eq (h : Sees layout view decoder) (requests : List Request) :
    answers requests decoder = layout.replies requests view ∧
      Sees layout (layout.unread requests view) (reached requests decoder) := by
  induction requests generalizing view decoder with
  | nil => exact ⟨rfl, h⟩
  | cons request requests ih =>
    have hask := reads_ask request view decoder h trivial
    cases hend : ask request decoder with
    | ok reply next =>
      obtain ⟨rest, hreply, hnext⟩ := hask.of_ok hend
      simp only [answers, reached, KeyLayout.replies, KeyLayout.unread, hreply, hend, answer, state]
      exact ⟨by rw [(ih hnext).1], (ih hnext).2⟩
    | error failure next =>
      obtain ⟨rfl, hreply, hnext⟩ := hask.of_error hend
      simp only [answers, reached, KeyLayout.replies, KeyLayout.unread, hreply, hend, answer, state]
      exact ⟨by rw [(ih hnext).1], (ih hnext).2⟩

/-- **Reading ahead loses nothing.**  A decoder that has some bytes in front of it answers any mix of
requests as the pure reading of these bytes does, whether the first of them was put back or is still
in the source.  After any such mix, the next answer is the one that the bytes left unread begin with:
it takes one to eighteen of them and leaves the others, a control key that is found is one of the twelve
with a meaning, and behind Enter no byte is held back; or the bytes fall short of an answer, and the
end of the input is reported.  And no byte is ever put back into a slot that is taken: whatever would
be done there, the answers are the same. -/
theorem cuts_input (h : Sees layout view decoder) (requests : List Request) :
    answers requests decoder = layout.replies requests view ∧
    ∀ request,
      Ends (ask request) (reached requests decoder)
        (fun reply next =>
          (∃ taken rest, layout.unread requests view = taken ++ rest ∧
            0 < taken.length ∧ taken.length ≤ 18 ∧
            layout.reply? request (layout.unread requests view) = some (reply, rest) ∧
            Sees layout rest next) ∧
          (∀ control, reply.control? = some control → control ∈ ControlKey.canonical) ∧
          (reply.control? = some .enter → next.pending = none))
        (fun failure next =>
          failure = .endOfInput ∧
          layout.reply? request (layout.unread requests view) = none ∧ Sees layout [] next) ∧
      ∀ put : UInt8 → Action (Decoder β) Unit, Careful put →
        askWith put request (reached requests decoder) = ask request (reached requests decoder) := by
  obtain ⟨hanswers, hreached⟩ := answers_eq h requests
  refine ⟨hanswers, fun request => ⟨?_, fun put hput => (ask_settles hput request _).1⟩⟩
  have hask := reads_ask request _ _ hreached trivial
  have hslot := (ask_settles (fun _ _ _ => rfl) request (reached requests decoder)).2
  refine (hask.and hslot).mono ?_ ?_
  · rintro reply next ⟨⟨rest, hreply, hnext⟩, hfree⟩
    obtain ⟨⟨taken, hview, hpos, hmost⟩, hcontrol⟩ := KeyLayout.reply?_piece hreply
    refine ⟨⟨taken, rest, hview, hpos, hmost, hreply, hnext⟩, hcontrol, ?_⟩
    intro henter
    refine hfree.resolve_right fun hescape => ?_
    rw [henter] at hescape
    cases hescape
  · rintro failure next ⟨⟨hfailure, hreply, hnext⟩, -⟩
    exact ⟨hfailure, hreply, hnext⟩

theorem cuts_input_of_escapes :
    Sees .unix [27, 27, 0x5B, 0x41, 13, 0xC3]
      ({ source := [27, 0x5B, 0x41, 13, 0xC3], layout := .unix, pending := some 27 } :
        Decoder (List UInt8)) ∧
    answers [.key, .stroke, .key, .key]
      ({ source := [27, 0x5B, 0x41, 13, 0xC3], layout := .unix, pending := some 27 } :
        Decoder (List UInt8)) =
      [.ok (.key (.control .escape)), .ok (.stroke (.control .up)), .ok (.key (.control .enter)),
        .error .endOfInput] := by
  have hsees : Sees .unix [27, 27, 0x5B, 0x41, 13, 0xC3]
      ({ source := [27, 0x5B, 0x41, 13, 0xC3], layout := .unix, pending := some 27 } :
        Decoder (List UInt8)) := ⟨rfl, _, ByteSource.supplies_list _, rfl⟩
  exact ⟨hsees, (cuts_input hsees _).1.trans rfl⟩

end Decoder

end LineEditor
