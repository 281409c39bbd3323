import LineEditor.Proofs.Input.View

/-!
# No Enter is lost in an escape sequence

A byte that cannot belong to an escape sequence ends it and is the next key.  So Enter ends a sequence
that was broken off, and is Enter still.  There is one exception: behind `ESC O` whatever byte follows
is taken for the letter of the sequence, an Enter too.

* `Stroke.isEnter` — the bytes of Enter.
* `KeyLayout.swallowsEnter` — the bytes begin with a sequence of which Enter is taken for the letter.
* `KeyLayout.stroke?_enters` — **the step**: what a stroke does with the Enters in front of it.
* `Decoder.Drains` — reading strokes until the input ends.
* `Decoder.drains_enters` — **the run**: every Enter is read as Enter, or is such a letter.
-/

set_option autoImplicit false

open LineEditor.Action

namespace LineEditor

/-- The bytes of Enter. -/
def Stroke.isEnter (byte : UInt8) : Bool := byte = 10 || byte = 13

namespace KeyLayout

open Stroke (isEnter)

/-- The bytes begin with a letter sequence, and the letter is Enter. -/
def swallowsEnter : List UInt8 → Bool
  | 27 :: 0x4F :: letter :: _ => isEnter letter
  | _ => false

/-- The Enters behind what was found; where nothing was found the bytes are used up. -/
def entersBehind {α : Type} (found : Option (α × List UInt8)) : Nat :=
  found.elim 0 fun found => found.2.countP isEnter

section

variable {key : ControlKey} {stroke : Stroke} {bytes rest : List UInt8} {byte : UInt8}

theorem isEnter_eq_false (h : 0x20 ≤ byte) : isEnter byte = false := by
  unfold isEnter
  simp only [Bool.or_eq_false_iff, decide_eq_false_iff_not]
  constructor <;> rintro rfl <;> revert h <;> decide

/-- Enter ends a control sequence and stays in front of the next key. -/
theorem sequence?_enters (parameters : List UInt8) (intermediate : Bool) (room : Nat) :
    entersBehind (sequence? parameters intermediate room bytes) = bytes.countP isEnter := by
  fun_induction sequence? parameters intermediate room bytes with
  | case1 => rfl
  | case2 => rfl
  | case3 parameters intermediate room byte bytes hparameter ih =>
    simp only [Stroke.isParameter, Bool.and_eq_true, decide_eq_true_eq] at hparameter
    have hbyte : isEnter byte = false := isEnter_eq_false (UInt8.le_trans (by decide) hparameter.1.1)
    simpa [hbyte] using ih
  | case4 parameters intermediate room byte bytes hparameter hintermediate ih =>
    simp only [Stroke.isIntermediate, Bool.and_eq_true, decide_eq_true_eq] at hintermediate
    have hbyte : isEnter byte = false := isEnter_eq_false hintermediate.1
    simpa [hbyte] using ih
  | case5 parameters intermediate room byte bytes hparameter hintermediate hfinal =>
    simp only [Stroke.isFinal, Bool.and_eq_true, decide_eq_true_eq] at hfinal
    have hbyte : isEnter byte = false := isEnter_eq_false (UInt8.le_trans (by decide) hfinal.1)
    simp [entersBehind, hbyte]
  | case6 => rfl

theorem escape?_enters (bytes : List UInt8) :
    entersBehind (escape? bytes) + (swallowsEnter (27 :: bytes)).toNat = bytes.countP isEnter := by
  unfold escape?
  split
  · rfl
  · next byte bytes =>
    split
    · next hbracket =>
      subst hbracket
      simpa [swallowsEnter, isEnter] using sequence?_enters [] false Stroke.longestBody
    · next hbracket =>
      split
      · next hletter =>
        subst hletter
        split
        · rfl
        · next selector behind =>
          cases hselector : isEnter selector <;>
            simp [entersBehind, swallowsEnter, hselector, isEnter_eq_false (show 0x20 ≤ 0x4F by decide)]
      · next hletter => simp [swallowsEnter, entersBehind, hletter]

theorem escape?_ne_enter (h : escape? bytes = some (key, rest)) : key ≠ .enter := by
  rintro rfl
  exact absurd (escape?_piece h).2 (by decide)

theorem ofByte_ne_enter (byte : UInt8) : Stroke.ofByte byte ≠ .control .enter := by
  unfold Stroke.ofByte
  repeat' split
  all_goals simp

theorem swallowsEnter_eq_false (h : byte ≠ 27) : swallowsEnter (byte :: bytes) = false := by
  unfold swallowsEnter
  split
  · next heq => exact absurd (List.cons.inj heq).1 h
  · rfl

theorem prefix_of_swallowsEnter (h : swallowsEnter bytes = true) :
    [27, 0x4F, 10] <+: bytes ∨ [27, 0x4F, 13] <+: bytes := by
  unfold swallowsEnter at h
  split at h
  · next letter behind =>
    simp only [isEnter, Bool.or_eq_true, decide_eq_true_eq] at h
    rcases h with rfl | rfl
    · exact .inl ⟨behind, rfl⟩
    · exact .inr ⟨behind, rfl⟩
  · cases h

/-- A sequence that takes Enter for its letter is complete. -/
theorem not_swallowsEnter_of_none (h : escape? bytes = none) : swallowsEnter (27 :: bytes) = false := by
  unfold swallowsEnter
  split
  · next letter behind heq =>
    rw [(List.cons.inj heq).2] at h
    cases h
  · rfl

/-- **What a stroke does with the Enters in front of it**: one is read if it is Enter, one is lost if
they begin with a letter sequence that has it for its letter, and all others are behind the stroke.
Bytes that fall short of a stroke hold no Enter. -/
theorem stroke?_enters (bytes : List UInt8) :
    bytes.countP isEnter =
      match unix.stroke? bytes with
      | some (stroke, rest) =>
        (if stroke = .control .enter then 1 else 0) + (swallowsEnter bytes).toNat + rest.countP isEnter
      | none => 0 := by
  cases bytes with
  | nil => rfl
  | cons byte bytes =>
    by_cases henter : byte = 10 ∨ byte = 13
    · have hbyte : isEnter byte = true := by simpa [isEnter] using henter
      have hescape : byte ≠ 27 := by rintro rfl; revert henter; decide
      simp [stroke?, henter, hbyte, swallowsEnter_eq_false hescape, Nat.add_comm]
    · have hbyte : isEnter byte = false := by simpa [isEnter] using henter
      by_cases hrubout : byte = 127
      · subst hrubout
        simp [stroke?, hbyte, swallowsEnter_eq_false (show (127 : UInt8) ≠ 27 by decide)]
      · by_cases hescape : byte = 27
        · subst hescape
          have hbehind := escape?_enters bytes
          simp only [stroke?, if_neg henter, if_neg hrubout, Stroke.escape, if_pos]
          cases hfound : escape? bytes with
          | none =>
            rw [hfound, not_swallowsEnter_of_none hfound] at hbehind
            rw [List.countP_cons_of_neg (by simp [hbyte])]
            exact hbehind.symm
          | some found =>
            have hkey : found.1 ≠ .enter := escape?_ne_enter hfound
            rw [hfound] at hbehind
            simp [hbyte, hkey, ← hbehind, entersBehind, Nat.add_comm]
        · simp [stroke?, henter, hrubout, Stroke.escape, hescape, hbyte, ofByte_ne_enter,
            swallowsEnter_eq_false hescape]

end

end KeyLayout

/-! ## Reading until the input ends -/

namespace Decoder

variable {β : Type} [ByteSource β] {layout : KeyLayout} {view : List UInt8} {decoder : Decoder β}

/-- Strokes are read from a decoder until the input ends; with each of them it is noted what was in
front of the decoder before. -/
inductive Drains (layout : KeyLayout) : Decoder β → List (List UInt8 × Stroke) → Prop where
  | nil {decoder next : Decoder β} (hend : nextStroke decoder = .error .endOfInput next) :
    Drains layout decoder []
  | cons {decoder next : Decoder β} {view : List UInt8} {stroke : Stroke}
      {readings : List (List UInt8 × Stroke)} (hsees : Sees layout view decoder)
      (hstroke : nextStroke decoder = .ok stroke next) (hreadings : Drains layout next readings) :
    Drains layout decoder ((view, stroke) :: readings)

/-- A decoder can be read until the input ends. -/
theorem exists_drains (h : Sees layout view decoder) : ∃ readings, Drains layout decoder readings := by
  induction hlength : decoder.remaining using Nat.strongRecOn generalizing view decoder with
  | ind length ih =>
    have hread := reads_nextStroke view decoder h trivial
    cases hstroke : nextStroke decoder with
    | error failure next =>
      obtain ⟨rfl, -, -⟩ := hread.of_error hstroke
      exact ⟨[], .nil hstroke⟩
    | ok stroke next =>
      obtain ⟨rest, -, hnext⟩ := hread.of_ok hstroke
      have hshorter : next.remaining < length := by
        have := consumes_nextStroke decoder stroke next hstroke
        omega
      obtain ⟨readings, hreadings⟩ := ih next.remaining hshorter hnext rfl
      exact ⟨(view, stroke) :: readings, .cons h hstroke hreadings⟩

section

variable {readings : List (List UInt8 × Stroke)}

theorem Drains.enters (hdrains : Drains .unix decoder readings) (h : Sees .unix view decoder) :
    (readings.map Prod.snd).count (.control .enter) +
        (readings.map Prod.fst).countP KeyLayout.swallowsEnter =
      view.countP Stroke.isEnter := by
  induction hdrains generalizing view with
  | nil hend =>
    obtain ⟨-, hfound, -⟩ := (reads_nextStroke _ _ h trivial).of_error hend
    have hcount := KeyLayout.stroke?_enters view
    rw [hfound] at hcount
    exact hcount.symm
  | @cons _ _ _ stroke readings hsees hstroke _ ih =>
    obtain ⟨rest, hfound, hnext⟩ := (reads_nextStroke _ _ h trivial).of_ok hstroke
    have hcount : view.countP Stroke.isEnter =
        (if stroke = .control .enter then 1 else 0) + (KeyLayout.swallowsEnter view).toNat +
          rest.countP Stroke.isEnter := by
      simpa only [hfound] using KeyLayout.stroke?_enters view
    have hrest := ih hnext
    rw [hsees.unique h]
    have hswallowed : (if KeyLayout.swallowsEnter view = true then 1 else 0) =
        (KeyLayout.swallowsEnter view).toNat := by
      cases KeyLayout.swallowsEnter view <;> rfl
    simp only [List.map_cons, List.count_cons, List.countP_cons, beq_iff_eq, hswallowed]
    omega

/-- What is in front of the decoder is always the end of what was. -/
theorem Drains.suffix (hdrains : Drains .unix decoder readings) (h : Sees .unix view decoder) :
    ∀ seen ∈ readings.map Prod.fst, seen <:+ view := by
  induction hdrains generalizing view with
  | nil hend => simp
  | cons hsees hstroke _ ih =>
    obtain ⟨rest, hfound, hnext⟩ := (reads_nextStroke _ _ h trivial).of_ok hstroke
    obtain ⟨byte, behind, rfl, hpiece⟩ := KeyLayout.stroke?_piece hfound
    intro seen hseen
    rcases List.mem_cons.mp hseen with rfl | hlater
    · exact hsees.unique h ▸ List.suffix_rfl
    · exact (ih hnext seen hlater).trans (hpiece.suffix.trans (List.suffix_cons byte behind))

/-- **Every Enter is read as Enter, unless it is taken for the letter of a sequence.**  Reading from a
decoder of the escape layout comes to the end of the input; and the Enter keys that are read are as
many as the Enter bytes that are there, less those that stand right behind `ESC O` when a key is
read.  Where no Enter stands behind these two bytes none is lost. -/
theorem drains_enters (h : Sees .unix view decoder) :
    (∃ readings, Drains .unix decoder readings) ∧
    ∀ readings, Drains .unix decoder readings →
      (readings.map Prod.snd).count (.control .enter) +
          (readings.map Prod.fst).countP KeyLayout.swallowsEnter =
        view.countP Stroke.isEnter ∧
      (¬[27, 0x4F, 10] <:+: view → ¬[27, 0x4F, 13] <:+: view →
        (readings.map Prod.snd).count (.control .enter) = view.countP Stroke.isEnter) := by
  refine ⟨exists_drains h, fun readings hdrains => ⟨hdrains.enters h, fun hlf hcr => ?_⟩⟩
  have hnone : (readings.map Prod.fst).countP KeyLayout.swallowsEnter = 0 := by
    rw [List.countP_eq_zero]
    intro seen hseen hswallows
    have hinfix : seen <:+: view := (hdrains.suffix h seen hseen).isInfix
    rcases KeyLayout.prefix_of_swallowsEnter hswallows with hletter | hletter
    · exact hlf (hletter.isInfix.trans hinfix)
    · exact hcr (hletter.isInfix.trans hinfix)
  rw [← hdrains.enters h, hnone, Nat.add_zero]

end

theorem drains_enters_of_broken_sequences :
    Sees .unix [97, 27, 0x5B, 0x31, 10, 27, 13, 27] (ofBytes .unix [97, 27, 0x5B, 0x31, 10, 27, 13, 27]) ∧
    ∃ readings, Drains .unix (ofBytes .unix [97, 27, 0x5B, 0x31, 10, 27, 13, 27]) readings ∧
      (readings.map Prod.snd).count (.control .enter) = 2 := by
  have hsees : Sees .unix [97, 27, 0x5B, 0x31, 10, 27, 13, 27]
      (ofBytes .unix [97, 27, 0x5B, 0x31, 10, 27, 13, 27]) := sees_start (ByteSource.supplies_list _)
  obtain ⟨⟨readings, hreadings⟩, hcount⟩ := drains_enters hsees
  exact ⟨hsees, readings, hreadings, (hcount readings hreadings).2 (by decide) (by decide)⟩

/-- Behind `ESC O` an Enter is no Enter. -/
theorem letter_sequence_swallows_enter :
    ∃ readings, Drains .unix (ofBytes .unix [27, 0x4F, 10]) readings ∧
      (readings.map Prod.snd).count (.control .enter) ≠ [27, 0x4F, 10].countP Stroke.isEnter := by
  have hsees : Sees .unix [27, 0x4F, 10] (ofBytes .unix [27, 0x4F, 10]) :=
    sees_start (ByteSource.supplies_list _)
  exact ⟨[([27, 0x4F, 10], .control .escape)], .cons hsees rfl (.nil rfl), by decide⟩

end Decoder

end LineEditor
