import LineEditor.Input.Decoder
import LineEditor.Input.KeyEvent
import LineEditor.Proofs.Text.Cells

/-!
# Every way of input reports the same keys

The two layouts write keys as bytes, and consoles report them as events.  Whatever bytes a layout
allows for some keys, a decoder of the layout reads these keys and then finds the end; and the events
of the keys mean the same keys.

* `KeyLayout.Writes` — the bytes of one key.
* `KeyLayout.Spells` — the bytes of some keys; the escape key on its own needs a key behind it.
* `KeyEvent.Reports`, `KeyEvent.ReportsAll` — the events of a key and of some keys.
* `Decoder.Faces`, `Decoder.Takes` — what a decoder has in front of it, and what an action takes of it.
* `Decoder.takes_nextKey`, `Decoder.nextKey_of_escape` — one key is read.
* `KeySource.Yields`, `Decoder.reads_canonical_keys` — all of them are read, and nothing else.
-/

set_option autoImplicit false

namespace LineEditor

/-! ## Keys as bytes -/

namespace KeyLayout

/-- The arrow keys and the bytes that end their sequences. -/
def arrowFinals : List (ControlKey × UInt8) :=
  [(.up, 0x41), (.down, 0x42), (.right, 0x43), (.left, 0x44)]

/-- The keys that are written with a lead byte, and their scan codes. -/
def scanCodes : List (ControlKey × UInt8) :=
  [(.up, 0x48), (.down, 0x50), (.left, 0x4B), (.right, 0x4D), (.delete, 83)]

/-- A layout writes a key as these bytes, whatever follows them. -/
inductive Writes : KeyLayout → Key → List UInt8 → Prop where
  /-- a character; `E0` would be a lead byte of the layout with scan codes -/
  | char {layout : KeyLayout} {c : Char} (hc : Text.isControl c = false)
      (hlead : layout = .windows → (String.utf8EncodeChar c).head? ≠ some 0xE0) :
    Writes layout (Key.ofChar c) (String.utf8EncodeChar c)
  | carriageReturn {layout : KeyLayout} : Writes layout (.control .enter) [13]
  | lineFeed : Writes .unix (.control .enter) [10]
  | rubout : Writes .unix (.control .backspace) [127]
  | backspace : Writes .windows (.control .backspace) [8]
  | tab {layout : KeyLayout} : Writes layout (.control .tab) [9]
  | interrupt {layout : KeyLayout} : Writes layout (.control .interrupt) [3]
  | suspend {layout : KeyLayout} : Writes layout (.control .suspend) [26]
  | endOfFile {layout : KeyLayout} : Writes layout (.control .endOfFile) [4]
  | arrow {key : ControlKey} {introducer final : UInt8} (hkey : (key, final) ∈ arrowFinals)
      (hintroducer : introducer = 0x5B ∨ introducer = 0x4F) :
    Writes .unix (.control key) [27, introducer, final]
  | delete : Writes .unix (.control .delete) [27, 0x5B, 0x33, 0x7E]
  | scanCode {key : ControlKey} {lead code : UInt8} (hkey : (key, code) ∈ scanCodes)
      (hlead : lead = 0 ∨ lead = 224) : Writes .windows (.control key) [lead, code]
  | escape : Writes .windows (.control .escape) [27]

/-- A layout writes some keys as these bytes.  Where escape opens a sequence, the escape key is known
by a next byte that opens no sequence. -/
inductive Spells (layout : KeyLayout) : List Key → List UInt8 → Prop where
  | nil : Spells layout [] []
  | cons {key : Key} {keys : List Key} {bytes rest : List UInt8} (hkey : layout.Writes key bytes)
      (hkeys : Spells layout keys rest) : Spells layout (key :: keys) (bytes ++ rest)
  | escape {keys : List Key} {byte : UInt8} {rest : List UInt8} (hlayout : layout = .unix)
      (hkeys : Spells layout keys (byte :: rest)) (hbracket : byte ≠ 0x5B) (hletter : byte ≠ 0x4F) :
    Spells layout (.control .escape :: keys) (27 :: byte :: rest)

end KeyLayout

/-! ## Keys as events -/

namespace KeyEvent

/-- The letters that mean a control key while the control key is held. -/
def controlLetters : List (Char × ControlKey) :=
  [('c', .interrupt), ('C', .interrupt), ('z', .suspend), ('Z', .suspend), ('d', .endOfFile),
    ('D', .endOfFile), ('h', .backspace), ('H', .backspace)]

/-- The symbols of the keys that are no characters. -/
def symbols : List (Symbol × ControlKey) :=
  [(.enter, .enter), (.backspace, .backspace), (.escape, .escape), (.tab, .tab), (.up, .up),
    (.down, .down), (.left, .left), (.right, .right), (.delete, .delete)]

/-- The event reports the key. -/
inductive Reports : KeyEvent → Key → Prop where
  | char {c : Char} {modifiers : List Modifier} (hc : Text.isControl c = false)
      (hfree : .control ∉ modifiers) : Reports ⟨.char c, modifiers⟩ (Key.ofChar c)
  | letter {letter : Char} {key : ControlKey} {modifiers : List Modifier}
      (hletter : (letter, key) ∈ controlLetters) (hheld : .control ∈ modifiers) :
    Reports ⟨.char letter, modifiers⟩ (.control key)
  | symbol {symbol : Symbol} {key : ControlKey} {modifiers : List Modifier}
      (hsymbol : (symbol, key) ∈ symbols) : Reports ⟨symbol, modifiers⟩ (.control key)

/-- The events report the keys, one for one. -/
inductive ReportsAll : List KeyEvent → List Key → Prop where
  | nil : ReportsAll [] []
  | cons {event : KeyEvent} {key : Key} {events : List KeyEvent} {keys : List Key}
      (hkey : Reports event key) (hkeys : ReportsAll events keys) :
    ReportsAll (event :: events) (key :: keys)

/-- **An event means the key that it reports.** -/
theorem key?_of_reports {event : KeyEvent} {key : Key} (h : Reports event key) :
    event.key? = some key := by
  cases h with
  | @char c modifiers hc hfree =>
    have hend : ¬(c = '\r' ∨ c = '\n') := by
      rintro (rfl | rfl) <;> exact absurd hc (by decide)
    simp only [key?, if_neg hend, if_neg hfree]
  | @letter letter key modifiers hletter hheld =>
    simp only [controlLetters, List.mem_cons, Prod.mk.injEq, List.not_mem_nil, or_false] at hletter
    rcases hletter with h | h | h | h | h | h | h | h
    all_goals
      obtain ⟨rfl, rfl⟩ := h
      simp only [key?, if_pos hheld]
      rfl
  | @symbol symbol key modifiers hsymbol =>
    simp only [symbols, List.mem_cons, Prod.mk.injEq, List.not_mem_nil, or_false] at hsymbol
    rcases hsymbol with h | h | h | h | h | h | h | h | h
    all_goals
      obtain ⟨rfl, rfl⟩ := h
      rfl

end KeyEvent

/-! ## What a decoder has in front of it -/

/-- The source hands out these bytes, one at a time, and then ends. -/
inductive ByteSource.Feeds {β : Type} [ByteSource β] : β → List UInt8 → Prop where
  | nil {source next : β} (hend : ByteSource.readByte source = .error .endOfInput next) :
    Feeds source []
  | cons {source next : β} {byte : UInt8} {bytes : List UInt8}
      (hbyte : ByteSource.readByte source = .ok byte next) (hbytes : Feeds next bytes) :
    Feeds source (byte :: bytes)

theorem ByteSource.feeds_list (bytes : List UInt8) : Feeds bytes bytes := by
  induction bytes with
  | nil => exact .nil rfl
  | cons byte bytes ih => exact .cons rfl ih

namespace Decoder

variable {β : Type} [ByteSource β] {α γ : Type} {layout : KeyLayout} {bytes more rest : List UInt8}
  {decoder : Decoder β} {byte : UInt8} {value : α} {key : Key}

/-- A decoder of some bytes. -/
abbrev ofBytes (layout : KeyLayout) (bytes : List UInt8) : Decoder (List UInt8) :=
  { source := bytes, layout }

/-- The decoder of a layout has these bytes in front of it, a byte put back before all others. -/
structure Faces (layout : KeyLayout) (bytes : List UInt8) (decoder : Decoder β) : Prop where
  layout : decoder.layout = layout
  bytes : ∃ fed, ByteSource.Feeds decoder.source fed ∧ bytes = decoder.pending.toList ++ fed

/-- In front of whatever follows, the action takes these bytes and yields this value. -/
def Takes (layout : KeyLayout) (action : Action (Decoder β) α) (bytes : List UInt8) (value : α) :
    Prop :=
  ∀ rest decoder, Faces layout (bytes ++ rest) decoder →
    ∃ next, action decoder = .ok value next ∧ Faces layout rest next

theorem nextByte_ok (h : Faces layout (byte :: rest) decoder) :
    ∃ next, nextByte decoder = .ok byte next ∧ Faces layout rest next ∧ next.pending = none := by
  obtain ⟨hlayout, fed, hfed, hbytes⟩ := h
  cases hpending : decoder.pending with
  | some put =>
    rw [hpending] at hbytes
    cases hbytes
    refine ⟨{ decoder with pending := none }, ?_, ⟨hlayout, _, hfed, rfl⟩, rfl⟩
    rw [nextByte, hpending]
  | none =>
    rw [hpending] at hbytes
    cases hbytes
    cases hfed with
    | @cons _ next _ _ hbyte hrest =>
      refine ⟨{ decoder with source := next }, ?_, ⟨hlayout, rest, hrest, ?_⟩, hpending⟩
      · rw [nextByte, hpending, hbyte]
      · rw [hpending]
        rfl

theorem nextByte_end (h : Faces layout [] decoder) :
    ∃ next, nextByte decoder = .error .endOfInput next := by
  obtain ⟨hlayout, fed, hfed, hbytes⟩ := h
  cases hpending : decoder.pending with
  | some put =>
    rw [hpending] at hbytes
    cases hbytes
  | none =>
    rw [hpending] at hbytes
    cases hbytes
    cases hfed with
    | @nil _ next hend =>
      refine ⟨{ decoder with source := next }, ?_⟩
      rw [nextByte, hpending, hend]

theorem putBack_ok (h : Faces layout rest decoder) (hpending : decoder.pending = none)
    (byte : UInt8) :
    ∃ next, putBack byte decoder = .ok () next ∧ Faces layout (byte :: rest) next := by
  obtain ⟨hlayout, fed, hfed, hbytes⟩ := h
  rw [hpending] at hbytes
  refine ⟨{ decoder with pending := some byte }, rfl, ⟨hlayout, fed, hfed, ?_⟩⟩
  rw [hbytes]
  rfl

/-! ## Actions that take bytes -/

theorem takes_pure (value : α) : Takes layout (pure value : Action (Decoder β) α) [] value :=
  fun _ decoder h => ⟨decoder, rfl, h⟩

theorem takes_nextByte (byte : UInt8) :
    Takes layout (nextByte : Action (Decoder β) UInt8) [byte] byte := by
  intro rest decoder h
  obtain ⟨next, hrun, hnext, -⟩ := nextByte_ok h
  exact ⟨next, hrun, hnext⟩

theorem Takes.bind {action : Action (Decoder β) α} {after : α → Action (Decoder β) γ} {result : γ}
    (h : Takes layout action bytes value) (hafter : Takes layout (after value) more result) :
    Takes layout (action >>= after) (bytes ++ more) result := by
  intro rest decoder hfaces
  rw [List.append_assoc] at hfaces
  obtain ⟨middle, hrun, hmiddle⟩ := h (more ++ rest) decoder hfaces
  rw [Action.bind_of_ok hrun]
  exact hafter rest middle hmiddle

/-- The first byte of what an action takes is read by `nextByte`. -/
theorem takes_cons {after : UInt8 → Action (Decoder β) γ} {result : γ}
    (h : Takes layout (after byte) bytes result) :
    Takes layout (nextByte >>= after) (byte :: bytes) result := (takes_nextByte byte).bind h

/-! ## Characters -/

open Utf8

theorem opens_of_range {lead : UInt8} (hlow : 0xC2 ≤ lead.toNat) (hhigh : lead.toNat ≤ 0xF4) :
    ¬((decide (lead ≤ 0x7F) || !between 0xC2 0xF4 lead) = true) := by
  have hbetween : between 0xC2 0xF4 lead = true := between_iff.mpr ⟨hlow, hhigh⟩
  have hascii : ¬lead ≤ 0x7F := by
    have hdelete : (0x7F : UInt8).toNat = 0x7F := rfl
    rw [UInt8.le_iff_toNat_le, hdelete]
    omega
  rw [hbetween, decide_eq_false hascii]
  exact Bool.false_ne_true

theorem not_isTwoBytes {a b : UInt8} (ha : 0xE0 ≤ a.toNat) : ¬isTwoBytes [a, b] = true := by
  intro h
  rw [isTwoBytes, Bool.and_eq_true, between_iff] at h
  have hhigh : a.toNat ≤ 0xDF := h.1.2
  omega

theorem not_isThreeBytes {a b c : UInt8} (ha : 0xF0 ≤ a.toNat) : ¬isThreeBytes [a, b, c] = true := by
  intro h
  rw [isThreeBytes, Bool.and_eq_true, isSecondOfThree_iff] at h
  have hhigh : a.toNat ≤ 0xEF := h.1.2.1
  omega

/-- A character is gathered from its bytes. -/
theorem takes_nextCell {w : Width} {lead : UInt8} (h : Sequence w (lead :: bytes)) :
    Takes layout (nextCell lead : Action (Decoder β) Cell) bytes (Cell.ofBytes (lead :: bytes)) := by
  unfold nextCell
  cases h with
  | one hlead =>
    rw [if_pos (by rw [decide_eq_true hlead]; rfl)]
    exact takes_pure _
  | two hlead hsecond =>
    obtain ⟨hlow, hhigh⟩ := between_iff.mp hlead
    rw [if_neg (opens_of_range hlow (Nat.le_trans hhigh (by decide)))]
    refine takes_cons ?_
    rw [if_pos (by rw [isTwoBytes, Bool.and_eq_true]; exact ⟨hlead, hsecond⟩)]
    exact takes_pure _
  | three hstart hthird =>
    obtain ⟨hlow, hhigh, -⟩ := isSecondOfThree_iff.mp hstart
    rw [if_neg (opens_of_range (by omega) (by omega))]
    refine takes_cons ?_
    rw [if_neg (not_isTwoBytes hlow)]
    refine takes_cons ?_
    rw [if_pos (by rw [isThreeBytes, Bool.and_eq_true]; exact ⟨hstart, hthird⟩)]
    exact takes_pure _
  | four hstart hthird hfourth =>
    obtain ⟨hlow, hhigh, -⟩ := isSecondOfFour_iff.mp hstart
    rw [if_neg (opens_of_range (by omega) hhigh)]
    refine takes_cons ?_
    rw [if_neg (not_isTwoBytes (by omega))]
    refine takes_cons ?_
    rw [if_neg (not_isThreeBytes hlow)]
    refine takes_cons ?_
    exact takes_pure _

/-- The first byte of a character that is no control character means nothing else to a layout. -/
theorem lead_of_char {c : Char} (hc : Text.isControl c = false) :
    ∃ w lead tail, String.utf8EncodeChar c = lead :: tail ∧ Sequence w (lead :: tail) ∧
      0x20 ≤ lead.toNat ∧ lead.toNat ≠ 0x7F := by
  obtain ⟨w, hs⟩ := sequence_encode c
  have hvalue := codePoint_encode c
  rw [Text.isControl, Bool.or_eq_false_iff, decide_eq_false_iff_not, Bool.and_eq_false_iff,
    decide_eq_false_iff_not, decide_eq_false_iff_not] at hc
  generalize String.utf8EncodeChar c = s at hs hvalue
  cases hs with
  | @one a hlead =>
    have hhigh : a.toNat ≤ 0x7F := UInt8.le_iff_toNat_le.mp hlead
    rw [codePoint, Nat.mod_eq_of_lt (by omega)] at hvalue
    exact ⟨_, a, [], rfl, .one hlead, by omega, by omega⟩
  | two hlead hsecond =>
    have hlow : 0xC2 ≤ _ := (between_iff.mp hlead).1
    exact ⟨_, _, _, rfl, .two hlead hsecond, by omega, by omega⟩
  | three hstart hthird =>
    have hlow := (isSecondOfThree_iff.mp hstart).1
    exact ⟨_, _, _, rfl, .three hstart hthird, by omega, by omega⟩
  | four hstart hthird hfourth =>
    have hlow := (isSecondOfFour_iff.mp hstart).1
    exact ⟨_, _, _, rfl, .four hstart hthird hfourth, by omega, by omega⟩

/-! ## Keys -/

/-- How a layout goes on from the first byte of a key. -/
def strokeOf (layout : KeyLayout) (byte : UInt8) : Action (Decoder β) Stroke :=
  match layout with
  | .unix => strokeOfEscapes byte
  | .windows => strokeOfScanCodes byte

theorem takes_nextStroke {stroke : Stroke}
    (h : Takes layout (strokeOf layout byte : Action (Decoder β) Stroke) bytes stroke) :
    Takes layout (nextStroke : Action (Decoder β) Stroke) (byte :: bytes) stroke := by
  intro rest decoder hfaces
  obtain ⟨middle, hrun, hmiddle, -⟩ := nextByte_ok hfaces
  rw [nextStroke, Action.bind_of_ok hrun, Action.get_bind, hmiddle.layout]
  exact h rest middle hmiddle

theorem takes_nextKey_control {control : ControlKey}
    (h : Takes layout (nextStroke : Action (Decoder β) Stroke) bytes (.control control)) :
    Takes layout (nextKey : Action (Decoder β) Key) bytes (.control control) := by
  intro rest decoder hfaces
  obtain ⟨next, hrun, hnext⟩ := h rest decoder hfaces
  refine ⟨next, ?_, hnext⟩
  rw [nextKey, Action.bind_of_ok hrun]
  rfl

theorem takes_nextKey_char {lead : UInt8} {cell : Cell}
    (h : Takes layout (nextStroke : Action (Decoder β) Stroke) [lead] (.byte lead))
    (hcell : Takes layout (nextCell lead : Action (Decoder β) Cell) bytes cell) :
    Takes layout (nextKey : Action (Decoder β) Key) (lead :: bytes) (.printable cell) := by
  intro rest decoder hfaces
  obtain ⟨middle, hrun, hmiddle⟩ := h (bytes ++ rest) decoder hfaces
  obtain ⟨next, hgather, hnext⟩ := hcell rest middle hmiddle
  refine ⟨next, ?_, hnext⟩
  rw [nextKey, Action.bind_of_ok hrun]
  exact Action.bind_of_ok hgather

theorem ne_of_control {a b : UInt8} (ha : 0x20 ≤ a.toNat) (hb : b.toNat < 0x20) : a ≠ b := by
  rintro rfl
  omega

theorem ofByte_of_char {lead : UInt8} (h : 0x20 ≤ lead.toNat) : Stroke.ofByte lead = .byte lead := by
  rw [Stroke.ofByte, if_neg (ne_of_control h (by decide)), if_neg (ne_of_control h (by decide)),
    if_neg (ne_of_control h (by decide)), if_neg (ne_of_control h (by decide))]

/-- The first byte of a character is a stroke of its own. -/
theorem takes_nextStroke_char {lead : UInt8} (hlow : 0x20 ≤ lead.toNat) (hdelete : lead.toNat ≠ 0x7F)
    (hscan : layout = .windows → lead ≠ 0xE0) :
    Takes layout (nextStroke : Action (Decoder β) Stroke) [lead] (.byte lead) := by
  have hne {byte : UInt8} (hbyte : byte.toNat < 0x20) : lead ≠ byte := ne_of_control hlow hbyte
  cases layout with
  | unix =>
    have hrubout : lead ≠ 127 := by
      rintro rfl
      exact hdelete rfl
    refine takes_nextStroke ?_
    rw [strokeOf, strokeOfEscapes, if_neg (not_or.mpr ⟨hne (by decide), hne (by decide)⟩),
      if_neg hrubout, if_neg (hne (by decide)), ofByte_of_char hlow]
    exact takes_pure _
  | windows =>
    refine takes_nextStroke ?_
    rw [strokeOf, strokeOfScanCodes, if_neg (not_or.mpr ⟨hne (by decide), hscan rfl⟩),
      if_neg (hne (by decide)), if_neg (hne (by decide)), if_neg (hne (by decide)),
      ofByte_of_char hlow]
    exact takes_pure _

/-- A control key of a single byte. -/
theorem takes_nextKey_single {control : ControlKey}
    (h : (strokeOf layout byte : Action (Decoder β) Stroke) = pure (.control control)) :
    Takes layout (nextKey : Action (Decoder β) Key) [byte] (.control control) := by
  refine takes_nextKey_control (takes_nextStroke ?_)
  rw [h]
  exact takes_pure _

/-! ## Sequences -/

theorem takes_nextSequence_final {final : UInt8} (parameters : List UInt8) (room : Nat)
    (hparameter : Stroke.isParameter final = false)
    (hintermediate : Stroke.isIntermediate final = false) (hfinal : Stroke.isFinal final = true) :
    Takes layout (nextSequence parameters false (room + 1) : Action (Decoder β) ControlKey) [final]
      (Stroke.ofSequence parameters false final) := by
  refine takes_cons ?_
  rw [hparameter, hintermediate, hfinal]
  exact takes_pure _

theorem takes_nextSequence_parameter {parameters : List UInt8} {room : Nat} {control : ControlKey}
    (hparameter : Stroke.isParameter byte = true)
    (h : Takes layout
      (nextSequence (parameters ++ [byte]) false room : Action (Decoder β) ControlKey) bytes control) :
    Takes layout (nextSequence parameters false (room + 1) : Action (Decoder β) ControlKey)
      (byte :: bytes) control := by
  refine takes_cons ?_
  rw [hparameter]
  exact h

/-- An escape sequence is the key that follows the escape byte. -/
theorem takes_nextStroke_escape {control : ControlKey}
    (h : Takes .unix (nextEscape : Action (Decoder β) ControlKey) bytes control) :
    Takes .unix (nextStroke : Action (Decoder β) Stroke) (27 :: bytes) (.control control) := by
  refine takes_nextStroke ?_
  have hescape : (strokeOf .unix 27 : Action (Decoder β) Stroke) =
      nextEscape >>= fun key => pure (.control key) := rfl
  rw [hescape, ← List.append_nil bytes]
  exact h.bind (takes_pure _)

theorem takes_nextKey_escape {control : ControlKey}
    (h : Takes .unix (nextEscape : Action (Decoder β) ControlKey) bytes control) :
    Takes .unix (nextKey : Action (Decoder β) Key) (27 :: bytes) (.control control) :=
  takes_nextKey_control (takes_nextStroke_escape h)

theorem takes_nextEscape_bracket {control : ControlKey}
    (h : Takes layout (nextSequence [] false Stroke.longestBody : Action (Decoder β) ControlKey) bytes
      control) :
    Takes layout (nextEscape : Action (Decoder β) ControlKey) (0x5B :: bytes) control := takes_cons h

theorem takes_nextEscape_letter (final : UInt8) :
    Takes layout (nextEscape : Action (Decoder β) ControlKey) [0x4F, final]
      ((Stroke.arrow? final).getD .escape) := by
  refine takes_cons ?_
  exact takes_cons (takes_pure _)

theorem takes_nextKey_arrow {control : ControlKey} {introducer final : UInt8}
    (hkey : (control, final) ∈ KeyLayout.arrowFinals)
    (hintroducer : introducer = 0x5B ∨ introducer = 0x4F) :
    Takes .unix (nextKey : Action (Decoder β) Key) [27, introducer, final] (.control control) := by
  have hfinal : Stroke.arrow? final = some control ∧ Stroke.isParameter final = false ∧
      Stroke.isIntermediate final = false ∧ Stroke.isFinal final = true := by
    simp only [KeyLayout.arrowFinals, List.mem_cons, Prod.mk.injEq, List.not_mem_nil, or_false] at hkey
    rcases hkey with h | h | h | h
    all_goals
      obtain ⟨rfl, rfl⟩ := h
      decide
  obtain ⟨harrow, hparameter, hintermediate, hend⟩ := hfinal
  refine takes_nextKey_escape ?_
  rcases hintroducer with rfl | rfl
  · have hsequence : Stroke.ofSequence [] false final = control := by
      rw [Stroke.ofSequence, if_neg Bool.false_ne_true, if_pos rfl, harrow]
      rfl
    rw [← hsequence]
    exact takes_nextEscape_bracket (takes_nextSequence_final [] _ hparameter hintermediate hend)
  · have hletter : Takes .unix (nextEscape : Action (Decoder β) ControlKey) [0x4F, final]
        ((Stroke.arrow? final).getD .escape) := takes_nextEscape_letter final
    rw [harrow] at hletter
    exact hletter

theorem takes_nextKey_scanCode {control : ControlKey} {lead code : UInt8}
    (hkey : (control, code) ∈ KeyLayout.scanCodes) (hlead : lead = 0 ∨ lead = 224) :
    Takes .windows (nextKey : Action (Decoder β) Key) [lead, code] (.control control) := by
  have hcode : Stroke.ofScanCode code = .control control := by
    simp only [KeyLayout.scanCodes, List.mem_cons, Prod.mk.injEq, List.not_mem_nil, or_false] at hkey
    rcases hkey with h | h | h | h | h
    all_goals
      obtain ⟨rfl, rfl⟩ := h
      decide
  refine takes_nextKey_control (takes_nextStroke ?_)
  rw [strokeOf, strokeOfScanCodes, if_pos hlead, ← hcode]
  exact takes_cons (takes_pure _)

/-- **A decoder reads the key that its layout has written**, and no byte behind it. -/
theorem takes_nextKey (h : layout.Writes key bytes) :
    Takes layout (nextKey : Action (Decoder β) Key) bytes key := by
  cases h with
  | @char _ c hc hlead =>
    obtain ⟨w, lead, tail, hbytes, hs, hlow, hdelete⟩ := lead_of_char hc
    have hcell : Cell.ofBytes (lead :: tail) = Cell.ofChar c := by
      rw [← hbytes, Cell.ofBytes_encode]
      rintro rfl
      exact absurd hc (by decide)
    rw [hbytes] at hlead ⊢
    rw [Key.ofChar, ← hcell]
    refine takes_nextKey_char (takes_nextStroke_char hlow hdelete fun hlayout hzero => ?_)
      (takes_nextCell hs)
    exact hlead hlayout (by rw [hzero]; rfl)
  | carriageReturn => exact takes_nextKey_single (by cases layout <;> rfl)
  | lineFeed => exact takes_nextKey_single rfl
  | rubout => exact takes_nextKey_single rfl
  | backspace => exact takes_nextKey_single rfl
  | tab => exact takes_nextKey_single (by cases layout <;> rfl)
  | interrupt => exact takes_nextKey_single (by cases layout <;> rfl)
  | suspend => exact takes_nextKey_single (by cases layout <;> rfl)
  | endOfFile => exact takes_nextKey_single (by cases layout <;> rfl)
  | arrow hkey hintroducer => exact takes_nextKey_arrow hkey hintroducer
  | delete =>
    refine takes_nextKey_escape (takes_nextEscape_bracket ?_)
    refine takes_nextSequence_parameter (by decide) ?_
    exact takes_nextSequence_final [0x33] _ (by decide) (by decide) (by decide)
  | scanCode hkey hlead => exact takes_nextKey_scanCode hkey hlead
  | escape => exact takes_nextKey_single rfl

/-- **A decoder reads the escape key where no sequence follows**, and leaves the next byte there. -/
theorem nextKey_of_escape (h : Faces .unix (27 :: byte :: rest) decoder) (hbracket : byte ≠ 0x5B)
    (hletter : byte ≠ 0x4F) :
    ∃ next, nextKey decoder = .ok (.control .escape) next ∧ Faces .unix (byte :: rest) next := by
  obtain ⟨first, hfirst, hfaces, -⟩ := nextByte_ok h
  obtain ⟨second, hsecond, hrest, hpending⟩ := nextByte_ok hfaces
  obtain ⟨last, hput, hlast⟩ := putBack_ok hrest hpending byte
  have hescape : nextEscape first = .ok .escape last := by
    rw [nextEscape, Action.bind_of_ok hsecond, if_neg hbracket, if_neg hletter,
      Action.bind_of_ok hput]
    rfl
  have hstroke : nextStroke decoder = .ok (.control .escape) last := by
    rw [nextStroke, Action.bind_of_ok hfirst, Action.get_bind, hfaces.layout]
    exact Action.bind_of_ok hescape
  refine ⟨last, ?_, hlast⟩
  rw [nextKey, Action.bind_of_ok hstroke]
  rfl

theorem nextKey_end (h : Faces layout [] decoder) :
    ∃ next, nextKey decoder = .error .endOfInput next := by
  obtain ⟨next, hend⟩ := nextByte_end h
  exact ⟨next, Action.bind_of_error (Action.bind_of_error hend)⟩

end Decoder

/-! ## All keys -/

/-- The source hands out these keys, one at a time, and comes to `last`. -/
inductive KeySource.Yields {κ : Type} [KeySource κ] : κ → List Key → κ → Prop where
  | nil (source : κ) : Yields source [] source
  | cons {source next last : κ} {key : Key} {keys : List Key}
      (hkey : KeySource.readKey source = .ok key next) (hkeys : Yields next keys last) :
    Yields source (key :: keys) last

/-- **A decoder reads the keys that its layout has spelled, and then finds the end.** -/
theorem Decoder.yields_of_spells {β : Type} [ByteSource β] {layout : KeyLayout} {keys : List Key}
    {bytes : List UInt8} {decoder : Decoder β} (h : layout.Spells keys bytes)
    (hfaces : Decoder.Faces layout bytes decoder) :
    ∃ last after, KeySource.Yields decoder keys last ∧
      KeySource.readKey last = .error .endOfInput after := by
  induction h generalizing decoder with
  | nil =>
    obtain ⟨after, hend⟩ := nextKey_end hfaces
    exact ⟨decoder, after, .nil decoder, hend⟩
  | cons hkey _ ih =>
    obtain ⟨next, hrun, hnext⟩ := takes_nextKey hkey _ decoder hfaces
    obtain ⟨last, after, hyields, hend⟩ := ih hnext
    exact ⟨last, after, .cons hrun hyields, hend⟩
  | escape hlayout _ hbracket hletter ih =>
    subst hlayout
    obtain ⟨next, hrun, hnext⟩ := nextKey_of_escape hfaces hbracket hletter
    obtain ⟨last, after, hyields, hend⟩ := ih hnext
    exact ⟨last, after, .cons hrun hyields, hend⟩

theorem KeyEvent.map_key?_of_reportsAll {events : List KeyEvent} {keys : List Key}
    (h : ReportsAll events keys) : events.map KeyEvent.key? = keys.map some := by
  induction h with
  | nil => rfl
  | cons hkey _ ih => rw [List.map_cons, List.map_cons, ih, key?_of_reports hkey]

/-! ## Every key can be written -/

/-- A key that every way of input can report: a character, or a control key with a meaning that is not
escape. -/
def Key.IsCommon : Key → Prop
  | .printable cell => ∃ c, Text.isControl c = false ∧ cell = Cell.ofChar c
  | .control key => key ∈ ControlKey.canonical ∧ key ≠ .escape

theorem KeyLayout.exists_writes_arrow (layout : KeyLayout) {key : ControlKey} (final code : UInt8)
    (hfinal : (key, final) ∈ arrowFinals) (hcode : (key, code) ∈ scanCodes) :
    ∃ bytes, layout.Writes (.control key) bytes := by
  cases layout with
  | unix => exact ⟨[27, 0x5B, final], .arrow hfinal (.inl rfl)⟩
  | windows => exact ⟨[0, code], .scanCode hcode (.inl rfl)⟩

theorem KeyLayout.exists_writes (layout : KeyLayout) {key : Key} (h : key.IsCommon)
    (hlead : layout = .windows → ∀ c, key = Key.ofChar c →
      (String.utf8EncodeChar c).head? ≠ some 0xE0) : ∃ bytes, layout.Writes key bytes := by
  cases key with
  | printable cell =>
    obtain ⟨c, hc, rfl⟩ := h
    exact ⟨_, .char hc fun hlayout => hlead hlayout c rfl⟩
  | control key =>
    obtain ⟨hkey, hescape⟩ := h
    cases key with
    | enter => exact ⟨_, .carriageReturn⟩
    | tab => exact ⟨_, .tab⟩
    | interrupt => exact ⟨_, .interrupt⟩
    | suspend => exact ⟨_, .suspend⟩
    | endOfFile => exact ⟨_, .endOfFile⟩
    | escape => exact absurd rfl hescape
    | other code => simp [ControlKey.canonical] at hkey
    | backspace =>
      cases layout with
      | unix => exact ⟨_, .rubout⟩
      | windows => exact ⟨_, .backspace⟩
    | delete =>
      cases layout with
      | unix => exact ⟨_, .delete⟩
      | windows => exact ⟨[0, 83], .scanCode (by decide) (.inl rfl)⟩
    | up => exact layout.exists_writes_arrow 0x41 0x48 (by decide) (by decide)
    | down => exact layout.exists_writes_arrow 0x42 0x50 (by decide) (by decide)
    | right => exact layout.exists_writes_arrow 0x43 0x4D (by decide) (by decide)
    | left => exact layout.exists_writes_arrow 0x44 0x4B (by decide) (by decide)

theorem KeyLayout.exists_spells (layout : KeyLayout) {keys : List Key}
    (h : ∀ key ∈ keys, key.IsCommon)
    (hlead : layout = .windows → ∀ c, Key.ofChar c ∈ keys →
      (String.utf8EncodeChar c).head? ≠ some 0xE0) : ∃ bytes, layout.Spells keys bytes := by
  induction keys with
  | nil => exact ⟨[], .nil⟩
  | cons key keys ih =>
    obtain ⟨bytes, hbytes⟩ := layout.exists_writes (h key List.mem_cons_self)
      fun hlayout c hc => hlead hlayout c (hc ▸ List.mem_cons_self)
    obtain ⟨rest, hrest⟩ := ih (fun other hother => h other (List.mem_cons_of_mem _ hother))
      fun hlayout c hc => hlead hlayout c (List.mem_cons_of_mem _ hc)
    exact ⟨bytes ++ rest, .cons hbytes hrest⟩

theorem KeyEvent.exists_reports {key : Key} (h : key.IsCommon) :
    ∃ event, KeyEvent.Reports event key := by
  cases key with
  | printable cell =>
    obtain ⟨c, hc, rfl⟩ := h
    exact ⟨⟨.char c, []⟩, .char hc List.not_mem_nil⟩
  | control key =>
    obtain ⟨hkey, hescape⟩ := h
    cases key with
    | interrupt => exact ⟨⟨.char 'c', [.control]⟩, .letter (by decide) (by decide)⟩
    | suspend => exact ⟨⟨.char 'z', [.control]⟩, .letter (by decide) (by decide)⟩
    | endOfFile => exact ⟨⟨.char 'd', [.control]⟩, .letter (by decide) (by decide)⟩
    | escape => exact absurd rfl hescape
    | other code => simp [ControlKey.canonical] at hkey
    | enter => exact ⟨⟨.enter, []⟩, .symbol (by decide)⟩
    | backspace => exact ⟨⟨.backspace, []⟩, .symbol (by decide)⟩
    | up => exact ⟨⟨.up, []⟩, .symbol (by decide)⟩
    | down => exact ⟨⟨.down, []⟩, .symbol (by decide)⟩
    | left => exact ⟨⟨.left, []⟩, .symbol (by decide)⟩
    | right => exact ⟨⟨.right, []⟩, .symbol (by decide)⟩
    | delete => exact ⟨⟨.delete, []⟩, .symbol (by decide)⟩
    | tab => exact ⟨⟨.tab, []⟩, .symbol (by decide)⟩

theorem KeyEvent.exists_reportsAll {keys : List Key} (h : ∀ key ∈ keys, key.IsCommon) :
    ∃ events, KeyEvent.ReportsAll events keys := by
  induction keys with
  | nil => exact ⟨[], .nil⟩
  | cons key keys ih =>
    obtain ⟨event, hevent⟩ := KeyEvent.exists_reports (h key List.mem_cons_self)
    obtain ⟨events, hevents⟩ := ih fun other hother => h other (List.mem_cons_of_mem _ hother)
    exact ⟨event :: events, .cons hevent hevents⟩

/-! ## One meaning for all ways of input -/

/-- **Every way of input reports the same keys.**  Whatever bytes a layout spells some keys with and
whatever source hands the bytes out, a decoder of the layout reads exactly these keys and then finds
the end of the input; whatever events report them mean exactly these keys.  And all keys but escape
can be spelled and reported, in the layout with scan codes as long as no character begins with one of
its lead bytes. -/
theorem Decoder.reads_canonical_keys (keys : List Key) :
    (∀ (layout : KeyLayout) (bytes : List UInt8), layout.Spells keys bytes →
      ∀ {β : Type} [ByteSource β] (source : β), ByteSource.Feeds source bytes →
        ∃ last after, KeySource.Yields ({ source, layout } : Decoder β) keys last ∧
          KeySource.readKey last = .error .endOfInput after) ∧
    (∀ events : List KeyEvent, KeyEvent.ReportsAll events keys →
      events.map KeyEvent.key? = keys.map some) ∧
    ((∀ key ∈ keys, key.IsCommon) →
      (∃ bytes, KeyLayout.unix.Spells keys bytes) ∧
      ((∀ c, Key.ofChar c ∈ keys → (String.utf8EncodeChar c).head? ≠ some 0xE0) →
        ∃ bytes, KeyLayout.windows.Spells keys bytes) ∧
      ∃ events, KeyEvent.ReportsAll events keys) := by
  refine ⟨?_, fun events h => KeyEvent.map_key?_of_reportsAll h, fun h => ⟨?_, ?_, ?_⟩⟩
  · intro layout bytes hspells β _ source hfed
    exact Decoder.yields_of_spells hspells ⟨rfl, bytes, hfed, rfl⟩
  · exact KeyLayout.exists_spells .unix h fun hlayout => nomatch hlayout
  · exact fun hlead => KeyLayout.exists_spells .windows h fun _ => hlead
  · exact KeyEvent.exists_reportsAll h

theorem Decoder.reads_canonical_keys_of_four :
    (∃ last after, KeySource.Yields
        ({ source := [0xC3, 0xA9, 27, 0x4F, 0x41, 27, 10], layout := .unix } : Decoder (List UInt8))
        [Key.ofChar 'é', .control .up, .control .escape, .control .enter] last ∧
      KeySource.readKey last = .error .endOfInput after) ∧
    [KeyEvent.mk (.char 'é') [.shift], ⟨.up, []⟩, ⟨.escape, []⟩, ⟨.enter, []⟩].map KeyEvent.key? =
      [Key.ofChar 'é', .control .up, .control .escape, .control .enter].map some := by
  obtain ⟨hbytes, hevents, -⟩ := Decoder.reads_canonical_keys
    [Key.ofChar 'é', .control .up, .control .escape, .control .enter]
  have hspells : KeyLayout.unix.Spells
      [Key.ofChar 'é', .control .up, .control .escape, .control .enter]
      ([0xC3, 0xA9] ++ ([27, 0x4F, 0x41] ++ 27 :: 10 :: [])) :=
    .cons (.char (by decide) fun h => nomatch h) (.cons (.arrow (by decide) (.inr rfl))
      (.escape rfl (.cons .lineFeed .nil) (by decide) (by decide)))
  exact ⟨hbytes .unix _ hspells _ (ByteSource.feeds_list _),
    hevents _ (.cons (.char (by decide) (by decide)) (.cons (.symbol (by decide))
      (.cons (.symbol (by decide)) (.cons (.symbol (by decide)) .nil))))⟩

end LineEditor
