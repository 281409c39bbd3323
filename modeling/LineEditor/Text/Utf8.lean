/-!
# UTF-8

The standard's rules for well-formed sequences, on lists of bytes.

* `classify` — the width of the well-formed sequence at the start of the bytes, if there is one.
  Overlong forms and surrogates are rejected.  A missing byte counts as zero, which is never a
  continuation byte, so short input fails the longer rules.
* `scalar?` — the character that this sequence encodes.
* `isValid`, `decode` — whether the bytes are the encoding of a text, and of which one.
* `encode` — the encoding of a text.
-/

set_option autoImplicit false

namespace LineEditor.Utf8

/-! ## The rules -/

/-- The number of bytes of a well-formed sequence. -/
inductive Width where
  | one
  | two
  | three
  | four
  deriving DecidableEq, Repr

/-- The width as a number. -/
def Width.toNat : Width → Nat
  | .one => 1
  | .two => 2
  | .three => 3
  | .four => 4

theorem Width.toNat_pos (w : Width) : 0 < w.toNat := by cases w <;> decide

/-- Does the byte lie between the two bounds, both included? -/
def between (low high byte : UInt8) : Bool := low ≤ byte && byte ≤ high

/-- The byte at a place, zero past the end. -/
def byteAt (bytes : List UInt8) (index : Nat) : UInt8 := bytes.getD index 0

/-- A byte that goes on with a sequence. -/
def isContinuation (byte : UInt8) : Bool := between 0x80 0xBF byte

/-- The bytes start with an ASCII character, control characters included. -/
def isOneByte (bytes : List UInt8) : Bool :=
  match bytes with
  | [] => false
  | lead :: _ => lead ≤ 0x7F

/-- The bytes start with a sequence of two; the leads `C0` and `C1` would be overlong. -/
def isTwoBytes (bytes : List UInt8) : Bool :=
  between 0xC2 0xDF (byteAt bytes 0) && isContinuation (byteAt bytes 1)

/-- May `second` follow the lead of a sequence of three?  After `E0` the low half would be overlong,
after `ED` the high half would be a surrogate. -/
def isSecondOfThree (lead second : UInt8) : Bool :=
  if lead = 0xE0 then between 0xA0 0xBF second
  else if lead = 0xED then between 0x80 0x9F second
  else between 0xE1 0xEF lead && isContinuation second

/-- The bytes start with a sequence of three. -/
def isThreeBytes (bytes : List UInt8) : Bool :=
  isSecondOfThree (byteAt bytes 0) (byteAt bytes 1) && isContinuation (byteAt bytes 2)

/-- May `second` follow the lead of a sequence of four?  After `F0` the low part would be overlong,
after `F4` the high part would lie past the last code point. -/
def isSecondOfFour (lead second : UInt8) : Bool :=
  if lead = 0xF0 then between 0x90 0xBF second
  else if lead = 0xF4 then between 0x80 0x8F second
  else between 0xF1 0xF3 lead && isContinuation second

/-- The bytes start with a sequence of four. -/
def isFourBytes (bytes : List UInt8) : Bool :=
  isSecondOfFour (byteAt bytes 0) (byteAt bytes 1) &&
    isContinuation (byteAt bytes 2) && isContinuation (byteAt bytes 3)

/-- The width of the sequence at the start of the bytes, if a rule matches. -/
def classify (bytes : List UInt8) : Option Width :=
  if isOneByte bytes then some .one
  else if isTwoBytes bytes then some .two
  else if isThreeBytes bytes then some .three
  else if isFourBytes bytes then some .four
  else none

/-- The number of well-formed bytes at the start, zero if no rule matches. -/
def validLength (bytes : List UInt8) : Nat :=
  match classify bytes with
  | some width => width.toNat
  | none => 0

/-! ## Reading -/

/-- The character at the start of the bytes, if they start with a well-formed sequence.  A
continuation byte carries six bits, and a lead byte those that its marker leaves. -/
def scalar? (bytes : List UInt8) : Option Char :=
  let bits (index modulus : Nat) : Nat := (byteAt bytes index).toNat % modulus
  match classify bytes with
  | some .one => some (Char.ofNat (bits 0 128))
  | some .two => some (Char.ofNat (bits 0 32 * 64 + bits 1 64))
  | some .three => some (Char.ofNat ((bits 0 16 * 64 + bits 1 64) * 64 + bits 2 64))
  | some .four =>
    some (Char.ofNat (((bits 0 8 * 64 + bits 1 64) * 64 + bits 2 64) * 64 + bits 3 64))
  | none => none

/-- Is the whole list a row of well-formed sequences? -/
def isValid (bytes : List UInt8) : Bool :=
  match bytes with
  | [] => true
  | lead :: rest =>
    match classify (lead :: rest) with
    | none => false
    | some width =>
      if ((lead :: rest).take width.toNat).length = width.toNat then
        isValid ((lead :: rest).drop width.toNat)
      else false
termination_by bytes.length
decreasing_by
  have := width.toNat_pos
  simp only [List.length_drop, List.length_cons]
  omega

/-- Read on after the characters in `done`, the latest of them first. -/
def decodeAfter (done : List Char) (bytes : List UInt8) : Option (List Char) :=
  match bytes with
  | [] => some done.reverse
  | lead :: rest =>
    match classify (lead :: rest), scalar? (lead :: rest) with
    | some width, some c =>
      if ((lead :: rest).take width.toNat).length = width.toNat then
        decodeAfter (c :: done) ((lead :: rest).drop width.toNat)
      else none
    | _, _ => none
termination_by bytes.length
decreasing_by
  have := width.toNat_pos
  simp only [List.length_drop, List.length_cons]
  omega

/-- The text that the bytes encode, if they are the encoding of one. -/
def decode (bytes : List UInt8) : Option (List Char) := decodeAfter [] bytes

/-- The length of the longest part at the start of malformed bytes that could still have become a
sequence, and at least one. -/
def brokenLength (bytes : List UInt8) : Nat :=
  let lead := byteAt bytes 0
  let second := byteAt bytes 1
  if isSecondOfFour lead second then
    if isContinuation (byteAt bytes 2) then 3 else 2
  else if isSecondOfThree lead second then 2
  else 1

theorem brokenLength_pos (bytes : List UInt8) : 0 < brokenLength bytes := by
  unfold brokenLength
  dsimp only
  split
  · split <;> decide
  · split <;> decide

/-- Read on after the characters in `done`, with a replacement character for each malformed part. -/
def repairAfter (done : List Char) (bytes : List UInt8) : List Char :=
  match bytes with
  | [] => done.reverse
  | lead :: rest =>
    match classify (lead :: rest), scalar? (lead :: rest) with
    | some width, some c => repairAfter (c :: done) ((lead :: rest).drop width.toNat)
    | _, _ => repairAfter ('\uFFFD' :: done) ((lead :: rest).drop (brokenLength (lead :: rest)))
termination_by bytes.length
decreasing_by
  · have := width.toNat_pos
    simp only [List.length_drop, List.length_cons]
    omega
  · have := brokenLength_pos (lead :: rest)
    simp only [List.length_drop, List.length_cons]
    omega

/-- The text of the bytes, with a replacement character for each malformed part. -/
def repair (bytes : List UInt8) : List Char := repairAfter [] bytes

/-! ## Writing -/

/-- The encoding of a text. -/
def encode (text : List Char) : List UInt8 := text.flatMap String.utf8EncodeChar

end LineEditor.Utf8
