import LineEditor.Input.Feed
import LineEditor.Key

/-!
# From bytes to keys

A terminal sends keys as bytes.  A `Decoder` reads them from any `ByteSource` and knows two layouts.

* `Decoder.nextStroke` — one key as the layout writes it: a control key, or a byte that is, or
  begins, a character.  In the escape layout an escape sequence is read whole, so that none of its
  bytes becomes text; a byte that cannot belong to the sequence is put back and begins the next key.
  `Decoder.nextCode` hands out the code of the key instead.
* `Decoder.nextKey` — one whole key: the bytes of a character are gathered until a rule of UTF-8
  matches, at most four of them.  Malformed bytes give a cell without a character, never a failure.
* `Decoder.Consumes` — how many bytes an action takes from the input at least; every key takes one,
  which makes a decoder a `KeySource`.
-/

set_option autoImplicit false

namespace LineEditor

/-! ## Layouts -/

/-- How a platform writes the keys that are no characters. -/
inductive KeyLayout where
  /-- escape sequences, arrows as `ESC [ A` to `ESC [ D` -/
  | unix
  /-- a lead byte and a scan code -/
  | windows
  deriving DecidableEq, Repr

namespace KeyLayout

/-- The name of a layout. -/
def name : KeyLayout → String
  | unix => "unix"
  | windows => "windows"

/-- The layout that a name stands for, blanks around it and the case of its letters aside.  All
names are ASCII, and no other character has a lower case letter of theirs. -/
def ofName? (name : String) : Option KeyLayout :=
  let folded := String.ofList ((Text.trim name).toList.map Char.toLower)
  if folded = "unix" ∨ folded = "vt100" then some unix
  else if folded = "windows" ∨ folded = "conio" then some windows
  else none

end KeyLayout

/-! ## Strokes -/

/-- What a layout writes for one key. -/
inductive Stroke where
  /-- a character, or the first byte of one -/
  | byte (value : UInt8)
  | control (key : ControlKey)
  deriving DecidableEq, Repr

/-- The code of a stroke: the value of its byte or the code of its control key. -/
def Stroke.code : Stroke → Int
  | .byte value => value.toNat
  | .control key => key.code

namespace Stroke

/-- The byte that opens an escape sequence, and the escape key on its own. -/
def escape : UInt8 := 27

/-- The stroke of a byte that both layouts read alike. -/
def ofByte (byte : UInt8) : Stroke :=
  if byte = 9 then .control .tab
  else if byte = 3 then .control .interrupt
  else if byte = 26 then .control .suspend
  else if byte = 4 then .control .endOfFile
  else .byte byte

/-- The arrow key that an escape sequence ends with. -/
def arrow? (final : UInt8) : Option ControlKey :=
  if final = 0x41 then some .up
  else if final = 0x42 then some .down
  else if final = 0x43 then some .right
  else if final = 0x44 then some .left
  else none

/-- The key of a complete control sequence, given its parameters, whether it has intermediate bytes,
and its final byte: an arrow, or the delete key.  Every other sequence is the escape key. -/
def ofSequence (parameters : List UInt8) (intermediate : Bool) (final : UInt8) : ControlKey :=
  if intermediate then .escape
  else if parameters = [] then (arrow? final).getD .escape
  else if parameters = [0x33] ∧ final = 0x7E then .delete
  else .escape

/-- The stroke of the scan code that follows a lead byte. -/
def ofScanCode (code : UInt8) : Stroke :=
  if code = 0x48 then .control .up
  else if code = 0x50 then .control .down
  else if code = 0x4D then .control .right
  else if code = 0x4B then .control .left
  else if code = 83 then .control .delete
  else .byte code

/-- The bytes that may stand in a control sequence in front of its intermediate bytes. -/
def isParameter (byte : UInt8) : Bool := 0x30 ≤ byte && byte ≤ 0x3F

/-- The bytes that may stand in a control sequence in front of its final byte. -/
def isIntermediate (byte : UInt8) : Bool := 0x20 ≤ byte && byte ≤ 0x2F

/-- The bytes that end a control sequence. -/
def isFinal (byte : UInt8) : Bool := 0x40 ≤ byte && byte ≤ 0x7E

/-- The longest body of a control sequence that is waited for. -/
def longestBody : Nat := 16

end Stroke

/-! ## The decoder -/

/-- A source of bytes, read as keys. -/
structure Decoder (β : Type) where
  source : β
  layout : KeyLayout
  /-- a byte that was read too far -/
  pending : Option UInt8 := none

namespace Decoder

variable {β : Type} [ByteSource β]

/-- The next byte, one put back before all others. -/
def nextByte : Action (Decoder β) UInt8 := fun decoder =>
  match decoder.pending with
  | some byte => .ok byte { decoder with pending := none }
  | none =>
    match ByteSource.readByte decoder.source with
    | .ok byte source => .ok byte { decoder with source := source }
    | .error failure source => .error failure { decoder with source := source }

/-- Let `byte` be the next byte again. -/
def putBack (byte : UInt8) : Action (Decoder β) Unit := fun decoder =>
  .ok () { decoder with pending := some byte }

/-- Read the body of a control sequence of at most `room` more bytes. -/
def nextSequence (parameters : List UInt8) (intermediate : Bool) :
    Nat → Action (Decoder β) ControlKey
  | 0 => pure .escape
  | room + 1 => do
    let byte ← nextByte
    if Stroke.isParameter byte && !intermediate then
      nextSequence (parameters ++ [byte]) intermediate room
    else if Stroke.isIntermediate byte then
      nextSequence parameters true room
    else if Stroke.isFinal byte then
      pure (Stroke.ofSequence parameters intermediate byte)
    else
      putBack byte
      pure .escape

/-- Read what follows the escape byte. -/
def nextEscape : Action (Decoder β) ControlKey := do
  let byte ← nextByte
  if byte = 0x5B then
    nextSequence [] false Stroke.longestBody
  else if byte = 0x4F then
    let selector ← nextByte
    pure ((Stroke.arrow? selector).getD .escape)
  else
    putBack byte
    pure .escape

/-- Go on from the first byte of a key in the escape layout. -/
def strokeOfEscapes (byte : UInt8) : Action (Decoder β) Stroke := do
  if byte = 10 ∨ byte = 13 then
    pure (.control .enter)
  else if byte = 127 then
    pure (.control .backspace)
  else if byte = Stroke.escape then
    let key ← nextEscape
    pure (.control key)
  else
    pure (Stroke.ofByte byte)

/-- Go on from the first byte of a key in the layout of lead bytes and scan codes. -/
def strokeOfScanCodes (byte : UInt8) : Action (Decoder β) Stroke := do
  if byte = 0 ∨ byte = 224 then
    let code ← nextByte
    pure (Stroke.ofScanCode code)
  else if byte = Stroke.escape then
    pure (.control .escape)
  else if byte = 8 then
    pure (.control .backspace)
  else if byte = 13 then
    pure (.control .enter)
  else
    pure (Stroke.ofByte byte)

/-- The next key as the layout writes it. -/
def nextStroke : Action (Decoder β) Stroke := do
  let byte ← nextByte
  match (← get).layout with
  | .unix => strokeOfEscapes byte
  | .windows => strokeOfScanCodes byte

/-- The code of the next key: the value of a byte, or a negative number for a control key. -/
def nextCode : Action (Decoder β) Int := do
  let stroke ← nextStroke
  pure stroke.code

/-- Gather the character that begins with `lead`. -/
def nextCell (lead : UInt8) : Action (Decoder β) Cell := do
  if lead ≤ 0x7F || !Utf8.between 0xC2 0xF4 lead then
    pure (Cell.ofBytes [lead])
  else
    let second ← nextByte
    if Utf8.isTwoBytes [lead, second] then
      pure (Cell.ofBytes [lead, second])
    else
      let third ← nextByte
      if Utf8.isThreeBytes [lead, second, third] then
        pure (Cell.ofBytes [lead, second, third])
      else
        let fourth ← nextByte
        pure (Cell.ofBytes [lead, second, third, fourth])

/-- The next key. -/
def nextKey : Action (Decoder β) Key := do
  match ← nextStroke with
  | .control key => pure (.control key)
  | .byte lead =>
    let cell ← nextCell lead
    pure (.printable cell)

/-! ## Every key takes a byte -/

/-- A bound on the bytes still to come, the one put back included. -/
def remaining (decoder : Decoder β) : Nat :=
  ByteSource.remaining decoder.source + if decoder.pending.isSome then 1 else 0

/-- Whenever the action succeeds, it has taken at least `count` bytes. -/
def Consumes {α : Type} (count : Int) (action : Action (Decoder β) α) : Prop :=
  ∀ decoder value next, action decoder = .ok value next →
    (next.remaining : Int) + count ≤ decoder.remaining

section

variable {α γ : Type}

theorem Consumes.mono {m n : Int} {action : Action (Decoder β) α} (h : Consumes n action)
    (hmn : m ≤ n) : Consumes m action := by
  intro decoder value next hrun
  have := h decoder value next hrun
  omega

theorem consumes_pure (a : α) : Consumes 0 (pure a : Action (Decoder β) α) := by
  intro decoder value next hrun
  cases hrun
  omega

theorem Consumes.bind {m n : Int} {action : Action (Decoder β) α}
    {rest : α → Action (Decoder β) γ} (h : Consumes m action) (hrest : ∀ a, Consumes n (rest a)) :
    Consumes (m + n) (action >>= rest) := by
  intro decoder value next hrun
  change EStateM.bind action rest decoder = _ at hrun
  unfold EStateM.bind at hrun
  split at hrun
  · next a middle hfirst =>
    have h1 := h decoder a middle hfirst
    have h2 := hrest a middle value next hrun
    omega
  · cases hrun

theorem consumes_get : Consumes 0 (get : Action (Decoder β) (Decoder β)) := by
  intro decoder value next hrun
  cases hrun
  omega

theorem consumes_nextByte : Consumes 1 (nextByte : Action (Decoder β) UInt8) := by
  intro decoder value next hrun
  unfold nextByte at hrun
  split at hrun
  · next byte hpending =>
    cases hrun
    simp [remaining, hpending]
  · next hpending =>
    split at hrun
    · next byte source hread =>
      cases hrun
      have := ByteSource.remaining_lt hread
      simp only [remaining, hpending]
      omega
    · cases hrun

theorem consumes_putBack (byte : UInt8) :
    Consumes (-1) (putBack byte : Action (Decoder β) Unit) := by
  intro decoder value next hrun
  cases hrun
  simp only [remaining, Option.isSome_some, if_true]
  omega

theorem consumes_nextSequence (parameters : List UInt8) (intermediate : Bool) (room : Nat) :
    Consumes 0 (nextSequence parameters intermediate room : Action (Decoder β) ControlKey) := by
  induction room generalizing parameters intermediate with
  | zero => exact consumes_pure _
  | succ room ih =>
    unfold nextSequence
    refine (consumes_nextByte.bind (n := -1) fun byte => ?_).mono (by omega)
    split
    · exact (ih _ _).mono (by omega)
    · split
      · exact (ih _ _).mono (by omega)
      · split
        · exact (consumes_pure _).mono (by omega)
        · exact ((consumes_putBack byte).bind fun _ => consumes_pure _).mono (by omega)

theorem consumes_nextEscape : Consumes 0 (nextEscape : Action (Decoder β) ControlKey) := by
  unfold nextEscape
  refine (consumes_nextByte.bind (n := -1) fun byte => ?_).mono (by omega)
  split
  · exact (consumes_nextSequence _ _ _).mono (by omega)
  · split
    · exact (consumes_nextByte.bind fun _ => consumes_pure _).mono (by omega)
    · exact ((consumes_putBack byte).bind fun _ => consumes_pure _).mono (by omega)

theorem consumes_strokeOfEscapes (byte : UInt8) :
    Consumes 0 (strokeOfEscapes byte : Action (Decoder β) Stroke) := by
  unfold strokeOfEscapes
  repeat' split
  all_goals first
    | exact consumes_pure _
    | exact (consumes_nextEscape.bind fun _ => consumes_pure _).mono (by omega)

theorem consumes_strokeOfScanCodes (byte : UInt8) :
    Consumes 0 (strokeOfScanCodes byte : Action (Decoder β) Stroke) := by
  unfold strokeOfScanCodes
  repeat' split
  all_goals first
    | exact consumes_pure _
    | exact (consumes_nextByte.bind fun _ => consumes_pure _).mono (by omega)

theorem consumes_nextStroke : Consumes 1 (nextStroke : Action (Decoder β) Stroke) := by
  unfold nextStroke
  refine (consumes_nextByte.bind (n := 0) fun byte => ?_).mono (by omega)
  refine (consumes_get.bind (n := 0) fun decoder => ?_).mono (by omega)
  split
  · exact consumes_strokeOfEscapes byte
  · exact consumes_strokeOfScanCodes byte

theorem consumes_nextCell (lead : UInt8) :
    Consumes 0 (nextCell lead : Action (Decoder β) Cell) := by
  unfold nextCell
  split
  · exact consumes_pure _
  · refine (consumes_nextByte.bind (n := 0) fun second => ?_).mono (by omega)
    split
    · exact consumes_pure _
    · refine (consumes_nextByte.bind (n := 0) fun third => ?_).mono (by omega)
      split
      · exact consumes_pure _
      · exact (consumes_nextByte.bind fun _ => consumes_pure _).mono (by omega)

/-- **Every key takes at least one byte.** -/
theorem consumes_nextKey : Consumes 1 (nextKey : Action (Decoder β) Key) := by
  unfold nextKey
  refine (consumes_nextStroke.bind (n := 0) fun stroke => ?_).mono (by omega)
  split
  · exact consumes_pure _
  · next lead => exact ((consumes_nextCell lead).bind fun _ => consumes_pure _).mono (by omega)

end

instance : KeySource (Decoder β) where
  readKey := nextKey
  remaining := remaining
  remaining_lt {source next key} h _ := by
    have := consumes_nextKey source key next h
    omega

end Decoder

end LineEditor
