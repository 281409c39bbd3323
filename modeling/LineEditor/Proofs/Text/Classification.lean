import LineEditor.Proofs.Text.Encoding

/-!
# The rules of UTF-8 are those of the standard

The rules are a table of byte ranges in which missing bytes count as zero; the standard is an encoder
for characters.  Both say the same of every list of bytes, whatever stands behind the first sequence
and wherever the list breaks off.

* `classify_eq_some_iff_encode` — a width is named where the encoding of a character of this width
  stands at the start.
* `encode_unique` — no two characters have encodings at the start of the same bytes.
* `Width.matches_iff` — the four rules exclude one another.
* `isValid_iff` — cutting off one sequence after the other finds every text.
* `classifies_standard` — the laws together.
-/

set_option autoImplicit false

namespace LineEditor.Utf8

variable {w : Width} {bytes : List UInt8} {c d : Char}

/-! ## One character -/

theorem Width.toNat_injective {w v : Width} (h : w.toNat = v.toNat) : w = v := by
  revert h
  cases w <;> cases v <;> decide

/-- **A width is named where an encoding of this width stands at the start.** -/
theorem classify_eq_some_iff_encode :
    classify bytes = some w ↔
      ∃ c, String.utf8EncodeChar c <+: bytes ∧ (String.utf8EncodeChar c).length = w.toNat := by
  rw [classify_eq_some_iff]
  constructor
  · rintro ⟨s, rest, hs, rfl⟩
    refine ⟨Char.ofNat (codePoint s), ?_⟩
    rw [hs.encode_codePoint]
    exact ⟨List.prefix_append s rest, hs.length_eq⟩
  · rintro ⟨c, ⟨rest, hrest⟩, hlength⟩
    obtain ⟨v, hv⟩ := sequence_encode c
    have hwidth : v = w := Width.toNat_injective (hv.length_eq.symm.trans hlength)
    exact ⟨_, rest, hwidth ▸ hv, hrest.symm⟩

/-- **No two encodings stand at the start of the same bytes.** -/
theorem encode_unique (hc : String.utf8EncodeChar c <+: bytes) (hd : String.utf8EncodeChar d <+: bytes) :
    c = d := by
  obtain ⟨behind, hbehind⟩ := hc
  obtain ⟨rest, hrest⟩ := hd
  have hfound : scalar? bytes = some c := scalar?_eq_some_iff.mpr ⟨behind, hbehind.symm⟩
  rw [scalar?_eq_some_iff.mpr ⟨rest, hrest.symm⟩] at hfound
  exact (Option.some.inj hfound).symm

/-- The rule for sequences of a width. -/
def Width.matches : Width → List UInt8 → Bool
  | .one => isOneByte
  | .two => isTwoBytes
  | .three => isThreeBytes
  | .four => isFourBytes

/-- **At most one rule matches**, and it is the one of the width that is named. -/
theorem Width.matches_iff : w.matches bytes = true ↔ classify bytes = some w := by
  constructor
  · intro h
    rw [classify_eq_some_iff]
    cases w with
    | one => exact sequence_of_isOneByte h
    | two => exact sequence_of_isTwoBytes h
    | three => exact sequence_of_isThreeBytes h
    | four => exact sequence_of_isFourBytes h
  · intro h
    unfold classify at h
    split at h
    · cases h; assumption
    split at h
    · cases h; assumption
    split at h
    · cases h; assumption
    split at h
    · cases h; assumption
    · cases h

/-! ## Texts -/

/-- A sequence in front of the encoding of a text makes the encoding of a longer one. -/
theorem encode_cons_of_classify {lead : UInt8} {more : List UInt8} (h : classify (lead :: more) = some w)
    {text : List Char} (htext : (lead :: more).drop w.toNat = encode text) :
    ∃ c, lead :: more = encode (c :: text) := by
  obtain ⟨c, ⟨rest, hrest⟩, hlength⟩ := classify_eq_some_iff_encode.mp h
  rw [← hrest, ← hlength, List.drop_left] at htext
  exact ⟨c, by rw [encode, List.flatMap_cons, ← hrest, htext]; rfl⟩

/-- **A list of bytes is well formed just if it is the encoding of a text.** -/
theorem isValid_iff : isValid bytes = true ↔ ∃ text, bytes = encode text := by
  constructor
  · intro h
    fun_induction isValid bytes with
    | case1 => exact ⟨[], rfl⟩
    | case2 => cases h
    | case3 lead more width hwidth hlength ih =>
      obtain ⟨text, htext⟩ := ih h
      obtain ⟨c, hc⟩ := encode_cons_of_classify hwidth htext
      exact ⟨c :: text, hc⟩
    | case4 => cases h
  · rintro ⟨text, rfl⟩
    exact isValid_encode text

/-- **The rules are exactly the standard's.**  A width is named if and only if the encoding of some
character stands at the start of the bytes, and it is the width of this encoding; there is at most one
such character.  The rule of a width matches just where the width is named, so at most one of the four
does, and none where no width is named.  And bytes are well formed if and only if they are the
encodings of some characters, one behind the other, with nothing left over. -/
theorem classifies_standard (bytes : List UInt8) :
    (∀ w, classify bytes = some w ↔
      ∃ c, String.utf8EncodeChar c <+: bytes ∧ (String.utf8EncodeChar c).length = w.toNat) ∧
    (∀ c d, String.utf8EncodeChar c <+: bytes → String.utf8EncodeChar d <+: bytes → c = d) ∧
    (∀ w : Width, w.matches bytes = true ↔ classify bytes = some w) ∧
    (isValid bytes = true ↔ ∃ text : List Char, bytes = text.flatMap String.utf8EncodeChar) :=
  ⟨fun _ => classify_eq_some_iff_encode, fun _ _ => encode_unique, fun _ => Width.matches_iff,
    isValid_iff⟩

/-- A surrogate is no character, and the sequence in front of it does not make the bytes well formed. -/
example : classify [0xED, 0xA0, 0x80] = none ∧ isValid [0xC3, 0xA9, 0xED, 0xA0, 0x80] = false := by
  decide +kernel

end LineEditor.Utf8
