import LineEditor.Proofs.Action.Outcomes
import LineEditor.Proofs.Input.Spelling

/-!
# The bytes in front of a decoder

What a decoder finds depends on the bytes in front of it alone: the one put back, if there is one, and
behind it those still in the source.  A pure reading of these bytes finds the same.

* `ByteSource.Supplies` — a source of some bytes that then ends for good.
* `KeyLayout.stroke?`, `KeyLayout.key?` — the key that some bytes begin with, and the bytes behind it.
* `KeyLayout.stroke?_piece`, `KeyLayout.key?_piece` — how many bytes that takes.
* `Decoder.Sees` — the bytes in front of a decoder.
* `Decoder.reads_nextStroke`, `Decoder.reads_nextKey` — a decoder finds what these bytes begin with, and
  has those behind it in front of it then.
-/

set_option autoImplicit false

open LineEditor.Action

namespace LineEditor

/-! ## Sources that end for good -/

namespace ByteSource

variable {β : Type} [ByteSource β] {source : β} {byte : UInt8} {bytes : List UInt8}

/-- The source after a number of reads, whatever they came to. -/
def after : Nat → β → β
  | 0, source => source
  | count + 1, source => after count (state (readByte source))

/-- The source hands out these bytes, one at a time, and from then on nothing but the end of the
input. -/
def Supplies (source : β) (bytes : List UInt8) : Prop :=
  ∀ count, answer (readByte (after count source)) =
    match bytes[count]? with
    | some byte => .ok byte
    | none => .error .endOfInput

theorem Supplies.next (h : Supplies source (byte :: bytes)) :
    ∃ next, readByte source = .ok byte next ∧ Supplies next bytes := by
  have hfirst : answer (readByte source) = .ok byte := h 0
  cases hread : readByte source with
  | error failure next =>
    rw [hread] at hfirst
    cases hfirst
  | ok value next =>
    rw [hread] at hfirst
    cases hfirst
    refine ⟨next, rfl, fun count => ?_⟩
    have hlater := h (count + 1)
    simp only [after, hread, state, List.getElem?_cons_succ] at hlater
    exact hlater

theorem Supplies.ended (h : Supplies source []) :
    ∃ next, readByte source = .error .endOfInput next ∧ Supplies next [] := by
  have hfirst : answer (readByte source) = .error .endOfInput := h 0
  cases hread : readByte source with
  | ok value next =>
    rw [hread] at hfirst
    cases hfirst
  | error failure next =>
    rw [hread] at hfirst
    cases hfirst
    refine ⟨next, rfl, fun count => ?_⟩
    have hlater := h (count + 1)
    simp only [after, hread, state] at hlater
    exact hlater

/-- What a source supplies is settled by the source. -/
theorem Supplies.unique {others : List UInt8} (h : Supplies source bytes)
    (hothers : Supplies source others) : bytes = others := by
  apply List.ext_getElem?
  intro count
  have heq := (h count).symm.trans (hothers count)
  cases hbyte : bytes[count]? <;> cases hother : others[count]? <;> simp_all

theorem supplies_list (bytes : List UInt8) : Supplies bytes bytes := by
  intro count
  induction count generalizing bytes with
  | zero => cases bytes <;> rfl
  | succ count ih =>
    cases bytes with
    | nil => exact ih []
    | cons byte bytes => exact ih bytes

end ByteSource

/-! ## The keys of some bytes -/

namespace KeyLayout

/-- The key of a control sequence whose body the bytes go on with, and the bytes behind it. -/
def sequence? (parameters : List UInt8) (intermediate : Bool) :
    Nat → List UInt8 → Option (ControlKey × List UInt8)
  | 0, bytes => some (.escape, bytes)
  | _ + 1, [] => none
  | room + 1, byte :: rest =>
    if Stroke.isParameter byte && !intermediate then
      sequence? (parameters ++ [byte]) intermediate room rest
    else if Stroke.isIntermediate byte then
      sequence? parameters true room rest
    else if Stroke.isFinal byte then
      some (Stroke.ofSequence parameters intermediate byte, rest)
    else
      some (.escape, byte :: rest)

/-- The key whose escape byte stood in front of the bytes, and the bytes behind it. -/
def escape? : List UInt8 → Option (ControlKey × List UInt8)
  | [] => none
  | byte :: rest =>
    if byte = 0x5B then sequence? [] false Stroke.longestBody rest
    else if byte = 0x4F then
      match rest with
      | [] => none
      | selector :: rest => some ((Stroke.arrow? selector).getD .escape, rest)
    else some (.escape, byte :: rest)

/-- The stroke that the bytes begin with, and the bytes behind it. -/
def stroke? : KeyLayout → List UInt8 → Option (Stroke × List UInt8)
  | _, [] => none
  | .unix, byte :: rest =>
    if byte = 10 ∨ byte = 13 then some (.control .enter, rest)
    else if byte = 127 then some (.control .backspace, rest)
    else if byte = Stroke.escape then (escape? rest).map fun found => (.control found.1, found.2)
    else some (Stroke.ofByte byte, rest)
  | .windows, byte :: rest =>
    if byte = 0 ∨ byte = 224 then
      match rest with
      | [] => none
      | code :: rest => some (Stroke.ofScanCode code, rest)
    else if byte = Stroke.escape then some (.control .escape, rest)
    else if byte = 8 then some (.control .backspace, rest)
    else if byte = 13 then some (.control .enter, rest)
    else some (Stroke.ofByte byte, rest)

/-- The character whose first byte stood in front of the bytes, and the bytes behind it. -/
def cell? (lead : UInt8) (bytes : List UInt8) : Option (Cell × List UInt8) :=
  if lead ≤ 0x7F || !Utf8.between 0xC2 0xF4 lead then some (Cell.ofBytes [lead], bytes)
  else
    match bytes with
    | [] => none
    | second :: rest =>
      if Utf8.isTwoBytes [lead, second] then some (Cell.ofBytes [lead, second], rest)
      else
        match rest with
        | [] => none
        | third :: rest =>
          if Utf8.isThreeBytes [lead, second, third] then
            some (Cell.ofBytes [lead, second, third], rest)
          else
            match rest with
            | [] => none
            | fourth :: rest => some (Cell.ofBytes [lead, second, third, fourth], rest)

/-- The key whose stroke stood in front of the bytes, and the bytes behind it. -/
def keyOf? : Stroke → List UInt8 → Option (Key × List UInt8)
  | .control key, bytes => some (.control key, bytes)
  | .byte lead, bytes => (cell? lead bytes).map fun found => (.printable found.1, found.2)

/-- The key that the bytes begin with, and the bytes behind it. -/
def key? (layout : KeyLayout) (bytes : List UInt8) : Option (Key × List UInt8) :=
  match layout.stroke? bytes with
  | some (stroke, rest) => keyOf? stroke rest
  | none => none

/-! ### How much of the bytes a key takes -/

/-- At most so many bytes were taken from the front, and the rest is left. -/
def Cuts (most : Nat) (bytes rest : List UInt8) : Prop :=
  ∃ taken, bytes = taken ++ rest ∧ taken.length ≤ most

section

variable {most : Nat} {bytes rest : List UInt8}

theorem cuts_none (most : Nat) (bytes : List UInt8) : Cuts most bytes bytes :=
  ⟨[], rfl, Nat.zero_le most⟩

theorem Cuts.cons (h : Cuts most bytes rest) (byte : UInt8) : Cuts (most + 1) (byte :: bytes) rest := by
  obtain ⟨taken, rfl, hmost⟩ := h
  exact ⟨byte :: taken, rfl, Nat.succ_le_succ hmost⟩

theorem Cuts.mono {more : Nat} (h : Cuts most bytes rest) (hmore : most ≤ more) :
    Cuts more bytes rest := by
  obtain ⟨taken, htaken, hmost⟩ := h
  exact ⟨taken, htaken, Nat.le_trans hmost hmore⟩

theorem Cuts.trans {middle : List UInt8} {more : Nat} (h : Cuts most bytes middle)
    (hrest : Cuts more middle rest) : Cuts (most + more) bytes rest := by
  obtain ⟨taken, rfl, hmost⟩ := h
  obtain ⟨others, rfl, hmore⟩ := hrest
  exact ⟨taken ++ others, by simp, by simp only [List.length_append]; omega⟩

end

/-- The keys that escape sequences stand for. -/
def escapeKeys : List ControlKey := [.up, .down, .right, .left, .delete, .escape]

theorem escapeKeys_canonical {key : ControlKey} (h : key ∈ escapeKeys) : key ∈ ControlKey.canonical := by
  revert key
  decide

theorem getD_arrow?_mem (final : UInt8) : (Stroke.arrow? final).getD .escape ∈ escapeKeys := by
  unfold Stroke.arrow?
  repeat' split
  all_goals decide

theorem ofSequence_mem (parameters : List UInt8) (intermediate : Bool) (final : UInt8) :
    Stroke.ofSequence parameters intermediate final ∈ escapeKeys := by
  unfold Stroke.ofSequence
  split
  · decide
  · split
    · exact getD_arrow?_mem final
    · split <;> decide

/-- A stroke that is cut from the bytes behind its first one: at most one more byte if it is a byte
itself, and at most a control sequence if it is a control key, which is one with a meaning. -/
def IsPiece (stroke : Stroke) (bytes rest : List UInt8) : Prop :=
  match stroke with
  | .byte _ => Cuts 1 bytes rest
  | .control key => Cuts (Stroke.longestBody + 1) bytes rest ∧ key ∈ ControlKey.canonical

section

variable {key : ControlKey} {stroke : Stroke} {bytes rest : List UInt8} {layout : KeyLayout}

theorem sequence?_piece {parameters : List UInt8} {intermediate : Bool} {room : Nat}
    (h : sequence? parameters intermediate room bytes = some (key, rest)) :
    Cuts room bytes rest ∧ key ∈ escapeKeys := by
  fun_induction sequence? parameters intermediate room bytes with
  | case1 =>
    cases h
    exact ⟨cuts_none _ _, by decide⟩
  | case2 => cases h
  | case3 parameters intermediate room byte bytes hparameter ih =>
    exact ⟨(ih h).1.cons byte, (ih h).2⟩
  | case4 parameters intermediate room byte bytes hparameter hintermediate ih =>
    exact ⟨(ih h).1.cons byte, (ih h).2⟩
  | case5 =>
    cases h
    exact ⟨(cuts_none _ _).cons _, ofSequence_mem _ _ _⟩
  | case6 =>
    cases h
    exact ⟨cuts_none _ _, by decide⟩

theorem escape?_piece (h : escape? bytes = some (key, rest)) :
    Cuts (Stroke.longestBody + 1) bytes rest ∧ key ∈ escapeKeys := by
  unfold escape? at h
  split at h
  · cases h
  · next byte bytes =>
    split at h
    · obtain ⟨hcuts, hkey⟩ := sequence?_piece h
      exact ⟨hcuts.cons byte, hkey⟩
    · split at h
      · split at h
        · cases h
        · next selector behind =>
          cases h
          exact ⟨(((cuts_none 0 _).cons selector).cons byte).mono (by decide), getD_arrow?_mem _⟩
      · cases h
        exact ⟨cuts_none _ _, by decide⟩

theorem IsPiece.suffix (h : IsPiece stroke bytes rest) : rest <:+ bytes := by
  have hcuts : ∃ most, Cuts most bytes rest := by
    cases stroke with
    | byte value => exact ⟨1, h⟩
    | control key => exact ⟨_, h.1⟩
  obtain ⟨most, taken, htaken, -⟩ := hcuts
  exact ⟨taken, htaken.symm⟩

theorem ofByte_piece (byte : UInt8) (rest : List UInt8) :
    IsPiece (Stroke.ofByte byte) rest rest := by
  unfold Stroke.ofByte
  repeat' split
  · exact ⟨cuts_none _ _, by decide⟩
  · exact ⟨cuts_none _ _, by decide⟩
  · exact ⟨cuts_none _ _, by decide⟩
  · exact ⟨cuts_none _ _, by decide⟩
  · exact cuts_none _ _

theorem ofScanCode_piece (code : UInt8) (rest : List UInt8) :
    IsPiece (Stroke.ofScanCode code) (code :: rest) rest := by
  have hcode : Cuts 1 (code :: rest) rest := (cuts_none 0 rest).cons code
  have hlong : Cuts (Stroke.longestBody + 1) (code :: rest) rest := hcode.mono (by decide)
  unfold Stroke.ofScanCode
  repeat' split
  · exact ⟨hlong, by decide⟩
  · exact ⟨hlong, by decide⟩
  · exact ⟨hlong, by decide⟩
  · exact ⟨hlong, by decide⟩
  · exact ⟨hlong, by decide⟩
  · exact hcode

/-- Behind its first byte, a stroke goes on no further than the longest control sequence. -/
theorem stroke?_piece (h : layout.stroke? bytes = some (stroke, rest)) :
    ∃ byte behind, bytes = byte :: behind ∧ IsPiece stroke behind rest := by
  unfold stroke? at h
  split at h
  · cases h
  · next byte behind =>
    refine ⟨byte, behind, rfl, ?_⟩
    split at h
    · cases h
      exact ⟨cuts_none _ _, by decide⟩
    · split at h
      · cases h
        exact ⟨cuts_none _ _, by decide⟩
      · split at h
        · obtain ⟨⟨key, left⟩, hescape, hfound⟩ := Option.map_eq_some_iff.mp h
          cases hfound
          obtain ⟨hcuts, hkey⟩ := escape?_piece hescape
          exact ⟨hcuts, escapeKeys_canonical hkey⟩
        · cases h
          exact ofByte_piece byte _
  · next byte behind =>
    refine ⟨byte, behind, rfl, ?_⟩
    split at h
    · split at h
      · cases h
      · cases h
        exact ofScanCode_piece _ _
    · repeat' split at h
      all_goals cases h
      · exact ⟨cuts_none _ _, by decide⟩
      · exact ⟨cuts_none _ _, by decide⟩
      · exact ⟨cuts_none _ _, by decide⟩
      · exact ofByte_piece byte _

theorem cell?_cuts {lead : UInt8} {cell : Cell} (h : cell? lead bytes = some (cell, rest)) :
    Cuts 3 bytes rest := by
  unfold cell? at h
  split at h
  · cases h
    exact cuts_none _ _
  · split at h
    · cases h
    · next second bytes =>
      split at h
      · cases h
        exact (cuts_none _ _).cons _
      · split at h
        · cases h
        · next third bytes =>
          split at h
          · cases h
            exact ((cuts_none _ _).cons _).cons _
          · split at h
            · cases h
            · cases h
              exact (((cuts_none _ _).cons _).cons _).cons _

/-- **A key takes at least one byte and at most an escape byte, a bracket and a longest body**, and a
control key among the keys is one with a meaning. -/
theorem key?_piece {key : Key} (h : layout.key? bytes = some (key, rest)) :
    (∃ byte behind, bytes = byte :: behind ∧ Cuts (Stroke.longestBody + 1) behind rest) ∧
      ∀ control, key = .control control → control ∈ ControlKey.canonical := by
  unfold key? at h
  split at h
  · next stroke middle hstroke =>
    obtain ⟨byte, behind, rfl, hpiece⟩ := stroke?_piece hstroke
    cases stroke with
    | control key =>
      cases h
      refine ⟨⟨byte, behind, rfl, hpiece.1⟩, ?_⟩
      rintro control hcontrol
      cases hcontrol
      exact hpiece.2
    | byte lead =>
      obtain ⟨⟨cell, left⟩, hcell, hfound⟩ := Option.map_eq_some_iff.mp h
      cases hfound
      have hcuts : Cuts (1 + 3) behind left := Cuts.trans hpiece (cell?_cuts hcell)
      exact ⟨⟨byte, behind, rfl, hcuts.mono (by decide)⟩, fun control hcontrol => nomatch hcontrol⟩
  · cases h

end

end KeyLayout

/-! ## What a decoder has in front of it -/

namespace Decoder

variable {β : Type} [ByteSource β] {α γ : Type} {layout : KeyLayout} {view rest : List UInt8}
  {decoder : Decoder β} {byte : UInt8}

/-- The decoder of a layout has these bytes in front of it: the one put back, and those still in the
source, which ends behind them. -/
structure Sees (layout : KeyLayout) (view : List UInt8) (decoder : Decoder β) : Prop where
  layout : decoder.layout = layout
  view : ∃ unread, ByteSource.Supplies decoder.source unread ∧
    view = decoder.pending.toList ++ unread

theorem Sees.unique {other : List UInt8} (h : Sees layout view decoder)
    (hother : Sees layout other decoder) : view = other := by
  obtain ⟨-, unread, hunread, rfl⟩ := h
  obtain ⟨-, unread', hunread', rfl⟩ := hother
  rw [hunread.unique hunread']

/-- No byte was put back. -/
def Free (decoder : Decoder β) : Prop := decoder.pending = none

theorem sees_start {source : β} (h : ByteSource.Supplies source view) :
    Sees layout view { source, layout } := ⟨rfl, view, h, rfl⟩

/-- A byte is read from the slot or from the source, and the slot is free then. -/
theorem nextByte_ends (h : Sees layout view decoder) :
    Ends nextByte decoder
      (fun byte next => ∃ rest, view = byte :: rest ∧ Sees layout rest next ∧ next.Free)
      fun failure next => failure = .endOfInput ∧ view = [] ∧ Sees layout [] next := by
  obtain ⟨hlayout, unread, hunread, hview⟩ := h
  unfold Ends nextByte
  cases hpending : decoder.pending with
  | some put =>
    rw [hpending] at hview
    exact ⟨unread, hview, ⟨hlayout, unread, hunread, rfl⟩, rfl⟩
  | none =>
    rw [hpending] at hview
    cases unread with
    | nil =>
      obtain ⟨next, hread, hnext⟩ := hunread.ended
      rw [hread]
      exact ⟨rfl, hview, hlayout, [], hnext, rfl⟩
    | cons byte unread =>
      obtain ⟨next, hread, hnext⟩ := hunread.next
      rw [hread]
      exact ⟨unread, hview, ⟨hlayout, unread, hnext, rfl⟩, rfl⟩

/-- From the decoders in question the action does what `parse` says of the bytes in front of them. -/
def Reads (start : Decoder β → Prop) (layout : KeyLayout) (action : Action (Decoder β) α)
    (parse : List UInt8 → Option (α × List UInt8)) : Prop :=
  ∀ view decoder, Sees layout view decoder → start decoder →
    Ends action decoder
      (fun value next => ∃ rest, parse view = some (value, rest) ∧ Sees layout rest next)
      fun failure next => failure = .endOfInput ∧ parse view = none ∧ Sees layout [] next

section

variable {start : Decoder β → Prop} {action : Action (Decoder β) α}
  {parse : List UInt8 → Option (α × List UInt8)}

theorem reads_pure (value : α) :
    Reads start layout (pure value) fun view => some (value, view) :=
  fun view _ h _ => ends_pure ⟨view, rfl, h⟩

/-- A byte that is put back into a free slot is in front of all others again. -/
theorem reads_putBack (byte : UInt8) (value : α) :
    Reads Free layout (putBack byte >>= fun _ => pure value : Action (Decoder β) α)
      fun rest => some (value, byte :: rest) := by
  intro rest decoder h hfree
  obtain ⟨hlayout, unread, hunread, hrest⟩ := h
  rw [show decoder.pending = none from hfree] at hrest
  refine ends_of_ok rfl ⟨_, rfl, ⟨hlayout, unread, hunread, ?_⟩⟩
  simp [hrest]

theorem reads_nextByte {after : UInt8 → Action (Decoder β) α} (hnil : parse [] = none)
    (hcons : ∀ byte, Reads Free layout (after byte) fun rest => parse (byte :: rest)) :
    Reads start layout (nextByte >>= after) parse := by
  intro view decoder h _
  refine Ends.bind ((nextByte_ends h).mono (fun _ _ h => h) ?_) ?_
  · rintro failure next ⟨hfailure, rfl, hnext⟩
    exact ⟨hfailure, hnil, hnext⟩
  · rintro byte next ⟨rest, rfl, hnext, hfree⟩
    exact hcons byte rest next hnext hfree

theorem Reads.bind {after : α → Action (Decoder β) γ} (h : Reads start layout action parse)
    (parse' : α → List UInt8 → Option (γ × List UInt8))
    (hafter : ∀ value, Reads (fun _ : Decoder β => True) layout (after value) (parse' value)) :
    Reads start layout (action >>= after) fun view =>
      match parse view with
      | some (value, rest) => parse' value rest
      | none => none := by
  intro view decoder hsees hstart
  refine Ends.bind ((h view decoder hsees hstart).mono (fun _ _ h => h) ?_) ?_
  · rintro failure next ⟨hfailure, hparse, hnext⟩
    simp only [hparse]
    exact ⟨hfailure, trivial, hnext⟩
  · rintro value next ⟨rest, hparse, hnext⟩
    simp only [hparse]
    exact hafter value rest next hnext trivial

theorem Reads.congr {parse' : List UInt8 → Option (α × List UInt8)}
    (h : Reads start layout action parse) (hparse : ∀ view, parse view = parse' view) :
    Reads start layout action parse' := by
  have : parse = parse' := funext hparse
  rwa [← this]

theorem Reads.of_any (h : Reads (fun _ : Decoder β => True) layout action parse) :
    Reads start layout action parse := fun view decoder hsees _ => h view decoder hsees trivial

end

/-! ## Strokes -/

theorem reads_nextSequence (parameters : List UInt8) (intermediate : Bool) (room : Nat) :
    Reads (fun _ : Decoder β => True) layout
      (nextSequence parameters intermediate room : Action (Decoder β) ControlKey)
      (KeyLayout.sequence? parameters intermediate room) := by
  induction room generalizing parameters intermediate with
  | zero => exact (reads_pure ControlKey.escape).congr fun view => by rw [KeyLayout.sequence?]
  | succ room ih =>
    unfold nextSequence
    refine reads_nextByte rfl fun byte => ?_
    simp only [KeyLayout.sequence?]
    split
    · exact (ih _ _).of_any
    · split
      · exact (ih _ _).of_any
      · split
        · exact reads_pure _
        · exact reads_putBack byte _

theorem reads_nextEscape :
    Reads (fun _ : Decoder β => True) layout (nextEscape : Action (Decoder β) ControlKey)
      KeyLayout.escape? := by
  refine reads_nextByte rfl fun byte => ?_
  simp only [KeyLayout.escape?]
  split
  · exact (reads_nextSequence _ _ _).of_any
  · split
    · exact reads_nextByte rfl fun selector => reads_pure _
    · exact reads_putBack byte _

theorem reads_strokeOf (byte : UInt8) :
    Reads (fun _ : Decoder β => True) layout (strokeOf layout byte : Action (Decoder β) Stroke)
      fun rest => layout.stroke? (byte :: rest) := by
  cases layout with
  | unix =>
    simp only [strokeOf, strokeOfEscapes, KeyLayout.stroke?]
    split
    · exact reads_pure _
    · split
      · exact reads_pure _
      · split
        · refine (reads_nextEscape.bind _ fun key => reads_pure _).congr fun view => ?_
          cases KeyLayout.escape? view <;> rfl
        · exact reads_pure _
  | windows =>
    simp only [strokeOf, strokeOfScanCodes, KeyLayout.stroke?]
    split
    · exact reads_nextByte rfl fun code => reads_pure _
    · split
      · exact reads_pure _
      · split
        · exact reads_pure _
        · split <;> exact reads_pure _

/-- **A decoder finds the stroke that the bytes in front of it begin with.** -/
theorem reads_nextStroke :
    Reads (fun _ : Decoder β => True) layout (nextStroke : Action (Decoder β) Stroke) layout.stroke? := by
  refine reads_nextByte (by cases layout <;> rfl) fun byte view decoder h _ => ?_
  have hstroke : Ends (strokeOf layout byte) decoder _ _ := reads_strokeOf byte view decoder h trivial
  unfold Ends at hstroke ⊢
  rw [get_bind, h.layout]
  exact hstroke

/-! ## Keys -/

theorem reads_nextCell (lead : UInt8) :
    Reads (fun _ : Decoder β => True) layout (nextCell lead) (KeyLayout.cell? lead) := by
  unfold nextCell KeyLayout.cell?
  split
  · exact reads_pure _
  · refine reads_nextByte rfl fun second => ?_
    simp only
    split
    · exact reads_pure _
    · refine reads_nextByte rfl fun third => ?_
      simp only
      split
      · exact reads_pure _
      · exact reads_nextByte rfl fun fourth => reads_pure _

/-- **A decoder finds the key that the bytes in front of it begin with**, and has those behind it in
front of it then; where the bytes stop short of a key it reports the end of the input. -/
theorem reads_nextKey :
    Reads (fun _ : Decoder β => True) layout nextKey layout.key? := by
  unfold nextKey
  refine (reads_nextStroke.bind KeyLayout.keyOf? fun stroke => ?_).congr fun view => ?_
  · cases stroke with
    | control key => exact reads_pure _
    | byte lead =>
      refine ((reads_nextCell lead).bind _ fun cell => reads_pure _).congr fun view => ?_
      simp only [KeyLayout.keyOf?]
      cases KeyLayout.cell? lead view <;> rfl
  · unfold KeyLayout.key?
    cases layout.stroke? view <;> rfl

end Decoder

end LineEditor
