import LineEditor.Text.Utf8

/-!
# The rules of UTF-8 and its encoder

`Utf8.classify` reads the rules off a table of byte ranges; `String.utf8EncodeChar` computes the
encoding of a character by arithmetic.  This file proves that they describe the same sequences.

* `Sequence` — the well-formed sequences, one constructor for each width.
* `classify_eq_some_iff` — `classify` names the width of the sequence that the bytes start with.
* `sequence_encode`, `Sequence.encode_codePoint` — the encodings of characters are exactly the
  well-formed sequences.
* `scalar?_eq_some_iff` — `scalar?` undoes the encoder, with anything behind the encoding.
* `isValid_encode`, `decode_encode` — the encoding of a text is well formed, and `decode` undoes it.
-/

set_option autoImplicit false

namespace LineEditor.Utf8

/-- The well-formed sequences of each width. -/
inductive Sequence : Width → List UInt8 → Prop where
  | one {a : UInt8} (lead : a ≤ 0x7F) : Sequence .one [a]
  | two {a b : UInt8} (lead : between 0xC2 0xDF a = true) (second : isContinuation b = true) :
      Sequence .two [a, b]
  | three {a b c : UInt8} (start : isSecondOfThree a b = true) (third : isContinuation c = true) :
      Sequence .three [a, b, c]
  | four {a b c d : UInt8} (start : isSecondOfFour a b = true) (third : isContinuation c = true)
      (fourth : isContinuation d = true) : Sequence .four [a, b, c, d]

variable {w : Width} {s bytes rest : List UInt8}

/-! ## The ranges as numbers -/

theorem between_iff {low high byte : UInt8} :
    between low high byte = true ↔ low.toNat ≤ byte.toNat ∧ byte.toNat ≤ high.toNat := by
  simp [between, UInt8.le_iff_toNat_le]

theorem isContinuation_iff {byte : UInt8} :
    isContinuation byte = true ↔ 0x80 ≤ byte.toNat ∧ byte.toNat ≤ 0xBF := between_iff

theorem isSecondOfThree_iff {a b : UInt8} :
    isSecondOfThree a b = true ↔
      0xE0 ≤ a.toNat ∧ a.toNat ≤ 0xEF ∧ 0x80 ≤ b.toNat ∧ b.toNat ≤ 0xBF ∧
        (a.toNat = 0xE0 → 0xA0 ≤ b.toNat) ∧ (a.toNat = 0xED → b.toNat ≤ 0x9F) := by
  unfold isSecondOfThree
  simp only [← UInt8.toNat_inj]
  split
  · simp only [between_iff, UInt8.reduceToNat] at *; omega
  · split
    · simp only [between_iff, UInt8.reduceToNat] at *; omega
    · simp only [Bool.and_eq_true, between_iff, isContinuation_iff, UInt8.reduceToNat] at *; omega

theorem isSecondOfFour_iff {a b : UInt8} :
    isSecondOfFour a b = true ↔
      0xF0 ≤ a.toNat ∧ a.toNat ≤ 0xF4 ∧ 0x80 ≤ b.toNat ∧ b.toNat ≤ 0xBF ∧
        (a.toNat = 0xF0 → 0x90 ≤ b.toNat) ∧ (a.toNat = 0xF4 → b.toNat ≤ 0x8F) := by
  unfold isSecondOfFour
  simp only [← UInt8.toNat_inj]
  split
  · simp only [between_iff, UInt8.reduceToNat] at *; omega
  · split
    · simp only [between_iff, UInt8.reduceToNat] at *; omega
    · simp only [Bool.and_eq_true, between_iff, isContinuation_iff, UInt8.reduceToNat] at *; omega

/-! ## The rules name the sequences -/

theorem Sequence.length_eq (h : Sequence w s) : s.length = w.toNat := by cases h <;> rfl

theorem Sequence.ne_nil (h : Sequence w s) : s ≠ [] := by cases h <;> simp

/-- A rule looks at no byte behind its sequence. -/
theorem Sequence.classify_append (h : Sequence w s) (rest : List UInt8) :
    classify (s ++ rest) = some w := by
  cases h with
  | one lead => simp [classify, isOneByte, lead]
  | @two a b lead second =>
    have ha := between_iff.mp lead
    have hone : ¬ a ≤ 0x7F := by
      rw [UInt8.le_iff_toNat_le]; simp only [UInt8.reduceToNat] at *; omega
    simp [classify, isOneByte, isTwoBytes, byteAt, hone, lead, second]
  | @three a b c start third =>
    have hab := isSecondOfThree_iff.mp start
    have hone : ¬ a ≤ 0x7F := by
      rw [UInt8.le_iff_toNat_le]; simp only [UInt8.reduceToNat]; omega
    have htwo : between 0xC2 0xDF a = false := by
      rw [Bool.eq_false_iff, ne_eq, between_iff]; simp only [UInt8.reduceToNat]; omega
    simp [classify, isOneByte, isTwoBytes, isThreeBytes, byteAt, hone, htwo, start, third]
  | @four a b c d start third fourth =>
    have hab := isSecondOfFour_iff.mp start
    have hone : ¬ a ≤ 0x7F := by
      rw [UInt8.le_iff_toNat_le]; simp only [UInt8.reduceToNat]; omega
    have htwo : between 0xC2 0xDF a = false := by
      rw [Bool.eq_false_iff, ne_eq, between_iff]; simp only [UInt8.reduceToNat]; omega
    have hthree : isSecondOfThree a b = false := by
      rw [Bool.eq_false_iff, ne_eq, isSecondOfThree_iff]; omega
    simp [classify, isOneByte, isTwoBytes, isThreeBytes, isFourBytes, byteAt, hone, htwo, hthree,
      start, third, fourth]

/-! A missing byte counts as zero, which goes on with no sequence. -/

theorem isContinuation_zero : isContinuation 0 = false := by decide

theorem isSecondOfThree_zero (a : UInt8) : isSecondOfThree a 0 = false := by
  rw [Bool.eq_false_iff, ne_eq, isSecondOfThree_iff]; simp

theorem isSecondOfFour_zero (a : UInt8) : isSecondOfFour a 0 = false := by
  rw [Bool.eq_false_iff, ne_eq, isSecondOfFour_iff]; simp

theorem sequence_of_isOneByte (h : isOneByte bytes = true) :
    ∃ s rest, Sequence .one s ∧ bytes = s ++ rest := by
  match bytes with
  | [] => simp [isOneByte] at h
  | a :: rest => exact ⟨[a], rest, .one (by simpa [isOneByte] using h), rfl⟩

theorem sequence_of_isTwoBytes (h : isTwoBytes bytes = true) :
    ∃ s rest, Sequence .two s ∧ bytes = s ++ rest := by
  match bytes with
  | [] | [_] => simp [isTwoBytes, byteAt, isContinuation_zero] at h
  | a :: b :: rest =>
    simp only [isTwoBytes, Bool.and_eq_true] at h
    exact ⟨[a, b], rest, .two h.1 h.2, rfl⟩

theorem sequence_of_isThreeBytes (h : isThreeBytes bytes = true) :
    ∃ s rest, Sequence .three s ∧ bytes = s ++ rest := by
  match bytes with
  | [] | [_] => simp [isThreeBytes, byteAt, isSecondOfThree_zero] at h
  | [_, _] => simp [isThreeBytes, byteAt, isContinuation_zero] at h
  | a :: b :: c :: rest =>
    simp only [isThreeBytes, Bool.and_eq_true] at h
    exact ⟨[a, b, c], rest, .three h.1 h.2, rfl⟩

theorem sequence_of_isFourBytes (h : isFourBytes bytes = true) :
    ∃ s rest, Sequence .four s ∧ bytes = s ++ rest := by
  match bytes with
  | [] | [_] => simp [isFourBytes, byteAt, isSecondOfFour_zero] at h
  | [_, _] | [_, _, _] => simp [isFourBytes, byteAt, isContinuation_zero] at h
  | a :: b :: c :: d :: rest =>
    simp only [isFourBytes, Bool.and_eq_true] at h
    exact ⟨[a, b, c, d], rest, .four h.1.1 h.1.2 h.2, rfl⟩

/-- **The width that the rules name is that of the sequence at the start of the bytes.** -/
theorem classify_eq_some_iff :
    classify bytes = some w ↔ ∃ s rest, Sequence w s ∧ bytes = s ++ rest := by
  constructor
  · intro h
    unfold classify at h
    split at h
    · cases h; exact sequence_of_isOneByte ‹_›
    split at h
    · cases h; exact sequence_of_isTwoBytes ‹_›
    split at h
    · cases h; exact sequence_of_isThreeBytes ‹_›
    split at h
    · cases h; exact sequence_of_isFourBytes ‹_›
    · cases h
  · rintro ⟨s, rest, hs, rfl⟩
    exact hs.classify_append rest

/-! ## Sequences and characters -/

/-- The number that a sequence spells: a continuation byte carries six bits, a lead byte those that
its marker leaves. -/
def codePoint : List UInt8 → Nat
  | [a] => a.toNat % 128
  | [a, b] => a.toNat % 32 * 64 + b.toNat % 64
  | [a, b, c] => (a.toNat % 16 * 64 + b.toNat % 64) * 64 + c.toNat % 64
  | [a, b, c, d] => ((a.toNat % 8 * 64 + b.toNat % 64) * 64 + c.toNat % 64) * 64 + d.toNat % 64
  | _ => 0

theorem Sequence.scalar?_append (h : Sequence w s) (rest : List UInt8) :
    scalar? (s ++ rest) = some (Char.ofNat (codePoint s)) := by
  unfold scalar?
  rw [h.classify_append rest]
  cases h <;> rfl

/-- The encoder writes well-formed sequences. -/
theorem sequence_encode (c : Char) : ∃ w, Sequence w (String.utf8EncodeChar c) := by
  have hc : c.val.toNat < 0xD800 ∨ 0xDFFF < c.val.toNat ∧ c.val.toNat < 0x110000 := c.valid
  fun_cases String.utf8EncodeChar c with
  | case1 v h =>
    refine ⟨.one, .one ?_⟩
    simp only [UInt8.le_iff_toNat_le, UInt8.toNat_ofNat', UInt8.reduceToNat]
    omega
  | case2 v h1 h2 =>
    refine ⟨.two, .two ?_ ?_⟩
    · simp only [between_iff, UInt8.toNat_ofNat', UInt8.reduceToNat]; omega
    · simp only [isContinuation_iff, UInt8.toNat_ofNat']; omega
  | case3 v h1 h2 h3 =>
    refine ⟨.three, .three ?_ ?_⟩
    · simp only [isSecondOfThree_iff, UInt8.toNat_ofNat']; omega
    · simp only [isContinuation_iff, UInt8.toNat_ofNat']; omega
  | case4 v h1 h2 h3 =>
    refine ⟨.four, .four ?_ ?_ ?_⟩
    · simp only [isSecondOfFour_iff, UInt8.toNat_ofNat']; omega
    · simp only [isContinuation_iff, UInt8.toNat_ofNat']; omega
    · simp only [isContinuation_iff, UInt8.toNat_ofNat']; omega

theorem codePoint_encode (c : Char) : codePoint (String.utf8EncodeChar c) = c.toNat := by
  have hc : c.val.toNat < 0xD800 ∨ 0xDFFF < c.val.toNat ∧ c.val.toNat < 0x110000 := c.valid
  show _ = c.val.toNat
  fun_cases String.utf8EncodeChar c with
  | case1 v h => simp only [codePoint, UInt8.toNat_ofNat']; omega
  | case2 v h1 h2 => simp only [codePoint, UInt8.toNat_ofNat']; omega
  | case3 v h1 h2 h3 => simp only [codePoint, UInt8.toNat_ofNat']; omega
  | case4 v h1 h2 h3 => simp only [codePoint, UInt8.toNat_ofNat']; omega

/-- Overlong forms, surrogates and numbers past the last code point are no sequences. -/
theorem Sequence.codePoint_valid (h : Sequence w s) : (codePoint s).isValidChar := by
  cases h with
  | one lead =>
    simp only [UInt8.le_iff_toNat_le, UInt8.reduceToNat] at lead
    simp only [codePoint, Nat.isValidChar]; omega
  | two lead second =>
    simp only [between_iff, isContinuation_iff, UInt8.reduceToNat] at lead second
    simp only [codePoint, Nat.isValidChar]; omega
  | three start third =>
    simp only [isSecondOfThree_iff, isContinuation_iff] at start third
    simp only [codePoint, Nat.isValidChar]; omega
  | four start third fourth =>
    simp only [isSecondOfFour_iff, isContinuation_iff] at start third fourth
    simp only [codePoint, Nat.isValidChar]; omega

theorem val_ofNat {n : Nat} (h : n.isValidChar) : (Char.ofNat n).val.toNat = n := by
  rw [Char.ofNat, dif_pos h]
  rfl

/-- The encoder writes every sequence. -/
theorem Sequence.encode_eq (h : Sequence w s) {c : Char} (hc : c.val.toNat = codePoint s) :
    String.utf8EncodeChar c = s := by
  unfold String.utf8EncodeChar
  cases h with
  | one lead =>
    simp only [UInt8.le_iff_toNat_le, UInt8.reduceToNat] at lead
    simp only [codePoint] at hc
    rw [if_pos (by omega)]
    simp only [List.cons.injEq, ← UInt8.toNat_inj, UInt8.toNat_ofNat', and_true]
    omega
  | two lead second =>
    simp only [between_iff, isContinuation_iff, UInt8.reduceToNat] at lead second
    simp only [codePoint] at hc
    rw [if_neg (by omega), if_pos (by omega)]
    simp only [List.cons.injEq, ← UInt8.toNat_inj, UInt8.toNat_ofNat', and_true]
    omega
  | three start third =>
    simp only [isSecondOfThree_iff, isContinuation_iff] at start third
    simp only [codePoint] at hc
    rw [if_neg (by omega), if_neg (by omega), if_pos (by omega)]
    simp only [List.cons.injEq, ← UInt8.toNat_inj, UInt8.toNat_ofNat', and_true]
    omega
  | four start third fourth =>
    simp only [isSecondOfFour_iff, isContinuation_iff] at start third fourth
    simp only [codePoint] at hc
    rw [if_neg (by omega), if_neg (by omega), if_neg (by omega)]
    simp only [List.cons.injEq, ← UInt8.toNat_inj, UInt8.toNat_ofNat', and_true]
    omega

theorem Sequence.encode_codePoint (h : Sequence w s) :
    String.utf8EncodeChar (Char.ofNat (codePoint s)) = s :=
  h.encode_eq (val_ofNat h.codePoint_valid)

/-- Among the bytes of a sequence, one below `80` is alone. -/
theorem Sequence.eq_of_ascii (h : Sequence w s) {byte : UInt8} (hbyte : byte ∈ s)
    (hascii : byte.toNat < 0x80) : s = [byte] := by
  cases h with
  | one lead => rw [List.mem_singleton.mp hbyte]
  | two lead second =>
    simp only [between_iff, isContinuation_iff, UInt8.reduceToNat] at lead second
    simp only [List.mem_cons, List.not_mem_nil, or_false] at hbyte
    rcases hbyte with rfl | rfl <;> omega
  | three start third =>
    simp only [isSecondOfThree_iff, isContinuation_iff] at start third
    simp only [List.mem_cons, List.not_mem_nil, or_false] at hbyte
    rcases hbyte with rfl | rfl | rfl <;> omega
  | four start third fourth =>
    simp only [isSecondOfFour_iff, isContinuation_iff] at start third fourth
    simp only [List.mem_cons, List.not_mem_nil, or_false] at hbyte
    rcases hbyte with rfl | rfl | rfl | rfl <;> omega

/-- **A byte below `80` is written for the character that it is**, and for no other. -/
theorem toNat_of_mem_encode {c : Char} {byte : UInt8} (h : byte ∈ String.utf8EncodeChar c)
    (hascii : byte.toNat < 0x80) : c.toNat = byte.toNat := by
  obtain ⟨w, hs⟩ := sequence_encode c
  have hvalue := codePoint_encode c
  rw [hs.eq_of_ascii h hascii, codePoint, Nat.mod_eq_of_lt hascii] at hvalue
  exact hvalue.symm

theorem ne_zero_of_mem_encode {c : Char} (hc : c ≠ '\x00') {byte : UInt8}
    (h : byte ∈ String.utf8EncodeChar c) : byte ≠ 0 := by
  rintro rfl
  exact hc (Char.toNat_inj.mp (toNat_of_mem_encode h (by decide)))

/-- **The character at the start of some bytes is the one whose encoding they start with.** -/
theorem scalar?_eq_some_iff {c : Char} :
    scalar? bytes = some c ↔ ∃ rest, bytes = String.utf8EncodeChar c ++ rest := by
  constructor
  · intro h
    cases hw : classify bytes with
    | none => simp [scalar?, hw] at h
    | some w =>
      obtain ⟨s, rest, hs, rfl⟩ := classify_eq_some_iff.mp hw
      rw [hs.scalar?_append rest] at h
      cases h
      exact ⟨rest, by rw [hs.encode_codePoint]⟩
  · rintro ⟨rest, rfl⟩
    obtain ⟨w, hs⟩ := sequence_encode c
    rw [hs.scalar?_append rest, codePoint_encode, Char.ofNat_toNat]

theorem scalar?_encode_append (c : Char) (rest : List UInt8) :
    scalar? (String.utf8EncodeChar c ++ rest) = some c :=
  scalar?_eq_some_iff.mpr ⟨rest, rfl⟩

/-! ## Texts -/

theorem isValid_encode_append (c : Char) (rest : List UInt8) :
    isValid (String.utf8EncodeChar c ++ rest) = isValid rest := by
  obtain ⟨w, hs⟩ := sequence_encode c
  have hw := hs.classify_append rest
  cases hbytes : String.utf8EncodeChar c ++ rest with
  | nil => exact absurd (List.append_eq_nil_iff.mp hbytes).1 hs.ne_nil
  | cons lead more =>
    rw [hbytes] at hw
    rw [isValid, hw, ← hbytes]
    simp only [← hs.length_eq, List.take_left, List.drop_left, if_true]

/-- **What is written is well formed.** -/
theorem isValid_encode (text : List Char) : isValid (encode text) = true := by
  induction text with
  | nil => rw [encode, List.flatMap_nil, isValid]
  | cons c text ih =>
    rw [encode, List.flatMap_cons, isValid_encode_append]
    exact ih

theorem decodeAfter_encode_append (done : List Char) (c : Char) (rest : List UInt8) :
    decodeAfter done (String.utf8EncodeChar c ++ rest) = decodeAfter (c :: done) rest := by
  obtain ⟨w, hs⟩ := sequence_encode c
  have hw := hs.classify_append rest
  have hc := scalar?_encode_append c rest
  cases hbytes : String.utf8EncodeChar c ++ rest with
  | nil => exact absurd (List.append_eq_nil_iff.mp hbytes).1 hs.ne_nil
  | cons lead more =>
    rw [hbytes] at hw hc
    rw [decodeAfter, hw, hc, ← hbytes]
    simp only [← hs.length_eq, List.take_left, List.drop_left, if_true]

theorem decodeAfter_encode (done text : List Char) :
    decodeAfter done (encode text) = some (done.reverse ++ text) := by
  induction text generalizing done with
  | nil => simp [encode, decodeAfter]
  | cons c text ih =>
    rw [encode, List.flatMap_cons, decodeAfter_encode_append]
    exact (ih (c :: done)).trans (by simp)

/-- **Reading undoes writing.** -/
theorem decode_encode (text : List Char) : decode (encode text) = some text :=
  decodeAfter_encode [] text

end LineEditor.Utf8
