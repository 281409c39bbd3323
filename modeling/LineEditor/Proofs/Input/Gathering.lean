import LineEditor.Input.Decoder
import LineEditor.Proofs.Action.Outcomes
import LineEditor.Proofs.Input.Spelling
import LineEditor.Proofs.Text.Classification
import LineEditor.Proofs.Text.Composition

/-!
# The bytes of one character

A decoder gathers a character byte by byte, and tries the rules of UTF-8 as the bytes come in.  It stops
neither before the character is whole nor behind it: the cell of a key holds the character of exactly the
bytes that were taken for it, or it holds none.

* `Decoder.Advances` — the bytes that lead from one decoder to another, one after another.
* `Decoder.Gathered` — a whole character, or bytes that begin with none.
* `Decoder.nextCell_gathers` — what is gathered for one cell.
* `Decoder.gathers_whole_characters` — the law for keys.
-/

set_option autoImplicit false

open LineEditor.Action

namespace LineEditor.Decoder

open Utf8

variable {β : Type} [ByteSource β] {decoder middle next : Decoder β} {lead : UInt8}
  {bytes others tail : List UInt8} {cell : Cell} {w : Width}

/-! ## The bytes that are taken -/

/-- Taking these bytes, one after another, leads from one decoder to another. -/
inductive Advances : Decoder β → List UInt8 → Decoder β → Prop where
  | nil (decoder : Decoder β) : Advances decoder [] decoder
  | cons {decoder middle next : Decoder β} {byte : UInt8} {bytes : List UInt8}
      (hbyte : nextByte decoder = .ok byte middle) (hbytes : Advances middle bytes next) :
    Advances decoder (byte :: bytes) next

theorem Advances.snoc {byte : UInt8} (h : Advances decoder bytes middle)
    (hbyte : nextByte middle = .ok byte next) : Advances decoder (bytes ++ [byte]) next := by
  induction h with
  | nil => exact .cons hbyte (.nil next)
  | cons hfirst _ ih => exact .cons hfirst (ih hbyte)

theorem Advances.remaining_le (h : Advances decoder bytes next) :
    next.remaining + bytes.length ≤ decoder.remaining := by
  induction h with
  | nil => exact Nat.le_refl _
  | cons hbyte _ ih =>
    have := consumes_nextByte _ _ _ hbyte
    rw [List.length_cons]
    omega

/-- **Two decoders settle which bytes lie between them**: a source is finite, so no byte is taken in
vain. -/
theorem Advances.unique (h : Advances decoder bytes next) (hothers : Advances decoder others next) :
    bytes = others := by
  induction h generalizing others with
  | nil decoder =>
    have hlength := hothers.remaining_le
    exact (List.length_eq_zero_iff.mp (by omega)).symm
  | cons hbyte hbytes ih =>
    cases hothers with
    | nil =>
      have hlength := (Advances.cons hbyte hbytes).remaining_le
      rw [List.length_cons] at hlength
      omega
    | cons hbyte' hbytes' =>
      rw [hbyte] at hbyte'
      cases hbyte'
      rw [ih hbytes']

/-! ## Rules for bytes that come in -/

/-- May a byte begin a character of several bytes? -/
def Leads (lead : UInt8) : Prop := 0xC2 ≤ lead ∧ lead ≤ 0xF4

instance (lead : UInt8) : Decidable (Leads lead) := inferInstanceAs (Decidable (_ ∧ _))

theorem leads_iff : Leads lead ↔ between 0xC2 0xF4 lead = true := by
  rw [Leads, between, Bool.and_eq_true, decide_eq_true_iff, decide_eq_true_iff]

/-- All bytes of a character were gathered, and nothing else; or bytes that begin with no character,
four of them if the first might have begun one, and otherwise only this one. -/
inductive Gathered (lead : UInt8) (tail : List UInt8) : Prop where
  | whole {w : Width} (hrule : classify (lead :: tail) = some w)
      (hlength : (lead :: tail).length = w.toNat)
  | broken (hnone : classify (lead :: tail) = none)
      (hlength : (lead :: tail).length = if Leads lead then 4 else 1)

theorem gathered_of_matches (h : w.matches (lead :: tail) = true)
    (hlength : (lead :: tail).length = w.toNat) : Gathered lead tail :=
  .whole (Width.matches_iff.mp h) hlength

/-- A byte that begins no character of several bytes is alone. -/
theorem gathered_alone (h : (decide (lead ≤ 0x7F) || !between 0xC2 0xF4 lead) = true) :
    Gathered lead [] := by
  cases hrule : classify [lead] with
  | some w =>
    obtain ⟨s, rest, hs, hbytes⟩ := classify_eq_some_iff.mp hrule
    have hlength : s.length + rest.length = 1 := by rw [← List.length_append, ← hbytes]; rfl
    have hone : w.toNat = 1 := by
      have hpos := w.toNat_pos
      have hwidth := hs.length_eq
      omega
    exact .whole hrule hone.symm
  | none =>
    have hascii : ¬lead ≤ 0x7F := by
      intro hascii
      have hmatches : Width.one.matches [lead] = true := decide_eq_true hascii
      rw [Width.matches_iff.mp hmatches] at hrule
      cases hrule
    have hleads : ¬Leads lead := by
      rw [decide_eq_false hascii, Bool.false_or, Bool.not_eq_true'] at h
      rw [leads_iff, h]
      exact Bool.false_ne_true
    exact .broken hrule (by rw [if_neg hleads, List.length_singleton])

/-- Behind three bytes that are no character, the fourth makes one of four bytes or none. -/
theorem gathered_four {second third fourth : UInt8}
    (hlead : ¬(decide (lead ≤ 0x7F) || !between 0xC2 0xF4 lead) = true)
    (htwo : ¬isTwoBytes [lead, second] = true) (hthree : ¬isThreeBytes [lead, second, third] = true) :
    Gathered lead [second, third, fourth] := by
  rw [Bool.or_eq_true, not_or, decide_eq_true_iff, Bool.not_eq_true', Bool.not_eq_false] at hlead
  obtain ⟨hascii, hleads⟩ := hlead
  cases hrule : classify [lead, second, third, fourth] with
  | some w =>
    have hmatches := Width.matches_iff.mpr hrule
    cases w with
    | one => exact absurd (of_decide_eq_true hmatches) hascii
    -- the shorter rules do not look at the bytes that came in later
    | two => exact absurd hmatches htwo
    | three => exact absurd hmatches hthree
    | four => exact .whole hrule rfl
  | none => exact .broken hrule (by rw [if_pos (leads_iff.mpr hleads)]; rfl)

/-- **What is gathered for a cell** is a whole character, or begins with none. -/
theorem nextCell_gathers (lead : UInt8) (decoder : Decoder β) :
    Ends (nextCell lead) decoder
      (fun cell next => ∃ tail, Advances decoder tail next ∧ Gathered lead tail ∧
        cell = Cell.ofBytes (lead :: tail))
      fun _ _ => True := by
  have hbyte {taken : List UInt8} {middle : Decoder β} (htaken : Advances decoder taken middle) :
      Ends nextByte middle (fun byte next => Advances decoder (taken ++ [byte]) next)
        fun _ _ => True := by
    cases hrun : nextByte middle with
    | ok byte next => exact ends_of_ok hrun (htaken.snoc hrun)
    | error failure next => exact ends_of_error hrun trivial
  unfold nextCell
  split
  · next halone => exact ends_pure ⟨[], .nil decoder, gathered_alone halone, rfl⟩
  · next hlead =>
    refine (hbyte (.nil decoder)).bind fun second middle hsecond => ?_
    split
    · next htwo =>
      exact ends_pure ⟨[second], hsecond, gathered_of_matches (w := .two) htwo rfl, rfl⟩
    · next htwo =>
      refine (hbyte hsecond).bind fun third middle hthird => ?_
      split
      · next hthree =>
        exact ends_pure
          ⟨[second, third], hthird, gathered_of_matches (w := .three) hthree rfl, rfl⟩
      · next hthree =>
        refine (hbyte hthird).bind fun fourth last hfourth => ?_
        exact ends_pure
          ⟨[second, third, fourth], hfourth, gathered_four hlead htwo hthree, rfl⟩

/-! ## The cells of keys -/

/-- **A whole character makes its own cell**, with nothing behind the character; only null makes the
empty one. -/
theorem Gathered.cell_char (h : Gathered lead tail) :
    (∃ c, (Cell.ofBytes (lead :: tail)).char? = some c ∧ Cell.ofBytes (lead :: tail) = Cell.ofChar c ∧
      String.utf8EncodeChar c = lead :: tail) ∨
    (Cell.ofBytes (lead :: tail)).char? = none ∧
      (lead :: tail).length = if Leads lead then 4 else 1 := by
  cases h with
  | @whole w hrule hlength =>
    obtain ⟨c, hstart, hwidth⟩ := classify_eq_some_iff_encode.mp hrule
    have hencode : String.utf8EncodeChar c = lead :: tail :=
      hstart.eq_of_length (hwidth.trans hlength.symm)
    by_cases hc : c = '\x00'
    · subst hc
      have hnull : String.utf8EncodeChar '\x00' = [0] := by decide
      rw [hnull] at hencode
      cases hencode
      exact .inr ⟨by decide, by decide⟩
    · refine .inl ⟨c, Cell.char?_ofBytes.mpr ⟨hc, hstart⟩, ?_, hencode⟩
      rw [← hencode]
      exact Cell.ofBytes_encode hc
  | broken hnone hlength =>
    refine .inr ⟨Option.eq_none_iff_forall_not_mem.mpr fun c hc => ?_, hlength⟩
    obtain ⟨-, hstart⟩ := Cell.char?_ofBytes.mp hc
    obtain ⟨w, hw⟩ := sequence_encode c
    have hrule := classify_eq_some_iff_encode.mpr ⟨c, hstart, hw.length_eq⟩
    rw [hnone] at hrule
    cases hrule

/-- A printable key is a stroke that is a byte, and the cell that is gathered behind it. -/
theorem nextKey_printable (h : nextKey decoder = .ok (.printable cell) next) :
    ∃ lead middle, nextStroke decoder = .ok (.byte lead) middle ∧
      nextCell lead middle = .ok cell next := by
  obtain ⟨stroke, middle, hstroke, hrest⟩ := bind_eq_ok.mp h
  cases stroke with
  | control key => cases hrest
  | byte lead =>
    obtain ⟨gathered, last, hcell, hkey⟩ := bind_eq_ok.mp hrest
    cases hkey
    exact ⟨lead, middle, hstroke, hcell⟩

/-- **The cell of a key holds the character of exactly the bytes that were taken for it, or none.**  The
stroke of a printable key is a byte, and behind it the decoder takes some bytes, which the decoders
before and behind them settle.  Either all these bytes together are the encoding of the character that
the cell stands for, and the cell is the one of this character; or the cell has length zero, and four
bytes were taken if the first might have begun a character of several, and otherwise only this one, as
where it is zero. -/
theorem gathers_whole_characters (h : nextKey decoder = .ok (.printable cell) next) :
    ∃ lead middle tail, nextStroke decoder = .ok (.byte lead) middle ∧
      (∀ bytes, Advances middle bytes next ↔ bytes = tail) ∧
      ((∃ c, cell.char? = some c ∧ cell = Cell.ofChar c ∧ cell.bytes = lead :: tail ∧
          cell.length = (lead :: tail).length) ∨
        cell.char? = none ∧ cell.length = 0 ∧
          (lead :: tail).length = if 0xC2 ≤ lead ∧ lead ≤ 0xF4 then 4 else 1) := by
  obtain ⟨lead, middle, hstroke, hcell⟩ := nextKey_printable h
  obtain ⟨tail, htaken, hgathered, rfl⟩ := (nextCell_gathers lead middle).of_ok hcell
  refine ⟨lead, middle, tail, hstroke, fun bytes => ⟨fun hbytes => hbytes.unique htaken, ?_⟩, ?_⟩
  · rintro rfl
    exact htaken
  · rcases hgathered.cell_char with ⟨c, hchar, hcanonical, hencode⟩ | ⟨hchar, hlength⟩
    · obtain ⟨hbytes, hlong⟩ := Cell.read_of_char? hchar
      rw [hencode] at hbytes hlong
      exact .inl ⟨c, hchar, hcanonical, hbytes, hlong⟩
    · exact .inr ⟨hchar, (Cell.read_of_char?_none hchar).2, hlength⟩

/-- A byte that might have begun a character takes three others with it, text as they are. -/
theorem gathers_whole_characters_of_stray_lead :
    ∃ middle tail, nextStroke (ofBytes .unix [0xC3, 0x28, 0x41, 0x42, 0x43]) = .ok (.byte 0xC3) middle ∧
      (∀ bytes, Advances middle bytes (ofBytes .unix [0x43]) ↔ bytes = tail) ∧
      (0xC3 :: tail).length = 4 := by
  have hkey : nextKey (ofBytes .unix [0xC3, 0x28, 0x41, 0x42, 0x43]) =
      .ok (.printable (Cell.ofBytes [0xC3, 0x28, 0x41, 0x42])) (ofBytes .unix [0x43]) := rfl
  have hmalformed : (Cell.ofBytes [0xC3, 0x28, 0x41, 0x42]).char? = none := by decide +kernel
  obtain ⟨lead, middle, tail, hstroke, htaken, ⟨c, hchar, -⟩ | ⟨-, -, hlength⟩⟩ :=
    gathers_whole_characters hkey
  · rw [hmalformed] at hchar
    cases hchar
  · have hlead : nextStroke (ofBytes .unix [0xC3, 0x28, 0x41, 0x42, 0x43]) =
        .ok (.byte 0xC3) (ofBytes .unix [0x28, 0x41, 0x42, 0x43]) := rfl
    obtain ⟨rfl, rfl⟩ : lead = 0xC3 ∧ middle = ofBytes .unix [0x28, 0x41, 0x42, 0x43] := by
      rw [hlead] at hstroke
      cases hstroke
      exact ⟨rfl, rfl⟩
    exact ⟨_, tail, hlead, htaken, hlength⟩

end LineEditor.Decoder
