import LineEditor.Proofs.Input.Spelling

/-!
# Control sequences

`ESC [` opens a control sequence: parameter bytes, then intermediate bytes, then a final byte.  The
decoder of the escape layout reads it as one key, whatever stands in it, so that nothing of it becomes
text.  It waits for sixteen bytes behind the bracket and gives a longer sequence up there.

* `Stroke.IsSequence` — the bytes that may stand in the parts of a sequence.
* `Stroke.sequenceKey` — the key of a sequence: an arrow, the delete key, or escape.
* `Decoder.takes_parameters`, `Decoder.takes_intermediates` — **the steps**: a part of a body is read,
  as long as there is room for it.
* `Decoder.reads_sequence_whole` — a sequence is one key.
-/

set_option autoImplicit false

namespace LineEditor

namespace Stroke

/-- A control sequence, without the two bytes that open it. -/
structure IsSequence (parameters intermediates : List UInt8) (final : UInt8) : Prop where
  parameters : ∀ byte ∈ parameters, 0x30 ≤ byte ∧ byte ≤ 0x3F
  intermediates : ∀ byte ∈ intermediates, 0x20 ≤ byte ∧ byte ≤ 0x2F
  final : 0x40 ≤ final ∧ final ≤ 0x7E

/-- The key of a control sequence. -/
def sequenceKey : List UInt8 → List UInt8 → UInt8 → ControlKey
  | [], [], 0x41 => .up
  | [], [], 0x42 => .down
  | [], [], 0x43 => .right
  | [], [], 0x44 => .left
  | [0x33], [], 0x7E => .delete
  | _, _, _ => .escape

theorem ofSequence_eq (parameters intermediates : List UInt8) (final : UInt8) :
    ofSequence parameters (!intermediates.isEmpty) final =
      sequenceKey parameters intermediates final := by
  fun_cases sequenceKey parameters intermediates final with
  | case1 => rfl
  | case2 => rfl
  | case3 => rfl
  | case4 => rfl
  | case5 => rfl
  | case6 parameters intermediates final hup hdown hright hleft hdelete =>
    cases intermediates with
    | cons byte intermediates => rfl
    | nil =>
      cases parameters with
      | nil =>
        have hnone : arrow? final = none := by
          unfold arrow?
          rw [if_neg (hup rfl rfl), if_neg (hdown rfl rfl), if_neg (hright rfl rfl),
            if_neg (hleft rfl rfl)]
        simp [ofSequence, hnone]
      | cons byte parameters =>
        have hother : ¬(byte :: parameters = [0x33] ∧ final = 0x7E) := by
          rintro ⟨hparameters, hfinal⟩
          exact hdelete hparameters rfl hfinal
        unfold ofSequence
        rw [if_neg (by simp), if_neg (by simp), if_neg hother]

theorem isParameter_iff {byte : UInt8} : isParameter byte = true ↔ 0x30 ≤ byte ∧ byte ≤ 0x3F := by
  simp [isParameter]

theorem isIntermediate_iff {byte : UInt8} :
    isIntermediate byte = true ↔ 0x20 ≤ byte ∧ byte ≤ 0x2F := by
  simp [isIntermediate]

theorem isFinal_iff {byte : UInt8} : isFinal byte = true ↔ 0x40 ≤ byte ∧ byte ≤ 0x7E := by
  simp [isFinal]

theorem not_isParameter {byte : UInt8} (h : byte ≤ 0x2F ∨ 0x40 ≤ byte) : isParameter byte = false := by
  rw [Bool.eq_false_iff, Ne, isParameter_iff]
  simp only [UInt8.le_iff_toNat_le, UInt8.reduceToNat] at h ⊢
  omega

theorem not_isIntermediate {byte : UInt8} (h : 0x40 ≤ byte) : isIntermediate byte = false := by
  rw [Bool.eq_false_iff, Ne, isIntermediate_iff]
  simp only [UInt8.le_iff_toNat_le, UInt8.reduceToNat] at h ⊢
  omega

end Stroke

namespace Decoder

variable {β : Type} [ByteSource β] {layout : KeyLayout} {bytes : List UInt8} {decoder : Decoder β}
  {control : ControlKey}

/-! ## The parts of a body -/

/-- Parameter bytes are collected. -/
theorem takes_parameters {before parameters : List UInt8} {room : Nat}
    (hparameters : ∀ byte ∈ parameters, Stroke.isParameter byte = true)
    (h : Takes layout (nextSequence (before ++ parameters) false room : Action (Decoder β) ControlKey)
      bytes control) :
    Takes layout (nextSequence before false (parameters.length + room) : Action (Decoder β) ControlKey)
      (parameters ++ bytes) control := by
  induction parameters generalizing before with
  | nil => simpa using h
  | cons byte parameters ih =>
    rw [List.length_cons, Nat.add_right_comm]
    refine takes_nextSequence_parameter (hparameters byte List.mem_cons_self) ?_
    refine ih (fun later hlater => hparameters later (List.mem_cons_of_mem _ hlater)) ?_
    simpa using h

/-- Intermediate bytes are passed over, and it is noted that there were some. -/
theorem takes_intermediates {parameters intermediates : List UInt8} {intermediate : Bool} {room : Nat}
    (hintermediates : ∀ byte ∈ intermediates, 0x20 ≤ byte ∧ byte ≤ 0x2F)
    (h : Takes layout
      (nextSequence parameters (intermediate || !intermediates.isEmpty) room :
        Action (Decoder β) ControlKey) bytes control) :
    Takes layout
      (nextSequence parameters intermediate (intermediates.length + room) :
        Action (Decoder β) ControlKey) (intermediates ++ bytes) control := by
  induction intermediates generalizing intermediate with
  | nil => simpa using h
  | cons byte intermediates ih =>
    have hbyte := hintermediates byte List.mem_cons_self
    rw [List.length_cons, Nat.add_right_comm]
    refine takes_cons ?_
    rw [Stroke.not_isParameter (.inl hbyte.2), Stroke.isIntermediate_iff.mpr hbyte]
    refine ih (fun later hlater => hintermediates later (List.mem_cons_of_mem _ hlater)) ?_
    simpa using h

/-- The final byte ends the body. -/
theorem takes_final {parameters : List UInt8} {intermediate : Bool} {room : Nat} {final : UInt8}
    (hfinal : 0x40 ≤ final ∧ final ≤ 0x7E) :
    Takes layout (nextSequence parameters intermediate (room + 1) : Action (Decoder β) ControlKey)
      [final] (Stroke.ofSequence parameters intermediate final) := by
  refine takes_cons ?_
  rw [Stroke.not_isParameter (.inr hfinal.1), Stroke.not_isIntermediate hfinal.1,
    Stroke.isFinal_iff.mpr hfinal]
  exact takes_pure _

/-! ## Whole bodies -/

section

variable {parameters intermediates : List UInt8} {final : UInt8} {room : Nat}

theorem takes_body (h : Stroke.IsSequence parameters intermediates final)
    (hroom : parameters.length + intermediates.length < room) :
    Takes layout (nextSequence [] false room : Action (Decoder β) ControlKey)
      (parameters ++ (intermediates ++ [final]))
      (Stroke.sequenceKey parameters intermediates final) := by
  obtain ⟨spare, rfl⟩ : ∃ spare, room = parameters.length + (intermediates.length + (spare + 1)) :=
    ⟨room - (parameters.length + intermediates.length + 1), by omega⟩
  rw [← Stroke.ofSequence_eq]
  refine takes_parameters (fun byte hbyte => Stroke.isParameter_iff.mpr (h.parameters byte hbyte)) ?_
  refine takes_intermediates h.intermediates ?_
  exact takes_final h.final

/-- Where there is no room for the final byte, all that there is room for is read. -/
theorem takes_body_cut (h : Stroke.IsSequence parameters intermediates final)
    (hroom : room ≤ parameters.length + intermediates.length) :
    Takes layout (nextSequence [] false room : Action (Decoder β) ControlKey)
      ((parameters ++ intermediates).take room) .escape := by
  have hlength : (parameters.take room).length +
      ((intermediates.take (room - parameters.length)).length + 0) = room := by
    simp only [List.length_take]
    omega
  have htakes : Takes layout
      (nextSequence [] false ((parameters.take room).length +
        ((intermediates.take (room - parameters.length)).length + 0)) : Action (Decoder β) ControlKey)
      (parameters.take room ++ (intermediates.take (room - parameters.length) ++ [])) .escape := by
    refine takes_parameters (fun byte hbyte => ?_) (takes_intermediates (fun byte hbyte => ?_) ?_)
    · exact Stroke.isParameter_iff.mpr (h.parameters byte (List.mem_of_mem_take hbyte))
    · exact h.intermediates byte (List.mem_of_mem_take hbyte)
    · exact takes_pure _
  rwa [hlength, List.append_nil, ← List.take_append] at htakes

end

/-! ## Whole sequences -/

section

variable {parameters intermediates behind : List UInt8} {final : UInt8}

theorem reads_body
    (hbody : Takes .unix (nextSequence [] false Stroke.longestBody : Action (Decoder β) ControlKey) bytes
      control)
    (hfaces : Faces .unix (27 :: 0x5B :: (bytes ++ behind)) decoder) :
    (∃ next, nextStroke decoder = .ok (.control control) next ∧ Faces .unix behind next) ∧
      ∃ next, nextKey decoder = .ok (.control control) next ∧ Faces .unix behind next := by
  have hstroke := takes_nextStroke_escape (takes_nextEscape_bracket hbody)
  exact ⟨hstroke behind decoder hfaces, takes_nextKey_control hstroke behind decoder hfaces⟩

/-- **A control sequence is read as one key.**  A sequence with at most fifteen bytes in front of its
final byte is read whole, and what is behind it is left: it is the key of an arrow or the delete key
if it is one of their sequences, and escape if it is any other.  A longer sequence is escape too, and
of its body exactly sixteen bytes are read. -/
theorem reads_sequence_whole (h : Stroke.IsSequence parameters intermediates final)
    (hfaces : Faces .unix (27 :: 0x5B :: (parameters ++ (intermediates ++ final :: behind))) decoder) :
    (parameters.length + intermediates.length ≤ 15 →
      (∃ next, nextStroke decoder =
          .ok (.control (Stroke.sequenceKey parameters intermediates final)) next ∧
        Faces .unix behind next) ∧
      ∃ next, nextKey decoder =
          .ok (.control (Stroke.sequenceKey parameters intermediates final)) next ∧
        Faces .unix behind next) ∧
    (16 ≤ parameters.length + intermediates.length →
      (∃ next, nextStroke decoder = .ok (.control .escape) next ∧
        Faces .unix ((parameters ++ (intermediates ++ final :: behind)).drop 16) next) ∧
      ∃ next, nextKey decoder = .ok (.control .escape) next ∧
        Faces .unix ((parameters ++ (intermediates ++ final :: behind)).drop 16) next) := by
  constructor
  · intro hshort
    refine reads_body (takes_body h (Nat.lt_succ_of_le hshort)) ?_
    simpa using hfaces
  · intro hlong
    refine reads_body (takes_body_cut h hlong) ?_
    have hlength : 16 ≤ (parameters ++ intermediates).length := by simpa using hlong
    have hbody : (parameters ++ intermediates).take 16 =
        (parameters ++ (intermediates ++ final :: behind)).take 16 := by
      rw [← List.append_assoc, List.take_append_of_le_length hlength]
    rw [Stroke.longestBody, hbody, List.take_append_drop]
    exact hfaces

end

theorem reads_sequence_whole_of_modified_arrow :
    Stroke.IsSequence [0x31, 0x3B, 0x35] [] 0x44 ∧
    Faces .unix [27, 0x5B, 0x31, 0x3B, 0x35, 0x44, 0x61]
      (ofBytes .unix [27, 0x5B, 0x31, 0x3B, 0x35, 0x44, 0x61]) ∧
    ∃ next, nextKey (ofBytes .unix [27, 0x5B, 0x31, 0x3B, 0x35, 0x44, 0x61]) =
        .ok (.control .escape) next ∧ Faces .unix [0x61] next := by
  have hsequence : Stroke.IsSequence [0x31, 0x3B, 0x35] [] 0x44 :=
    ⟨by simp, List.forall_mem_nil _, by decide⟩
  have hfaces : Faces .unix [27, 0x5B, 0x31, 0x3B, 0x35, 0x44, 0x61]
      (ofBytes .unix [27, 0x5B, 0x31, 0x3B, 0x35, 0x44, 0x61]) :=
    ⟨rfl, _, ByteSource.feeds_list _, rfl⟩
  exact ⟨hsequence, hfaces, ((reads_sequence_whole hsequence hfaces).1 (by decide)).2⟩

/-- Behind sixteen parameter bytes the final byte is left, and is the next key. -/
theorem long_sequence_becomes_text :
    Stroke.IsSequence (List.replicate 16 0x30) [] 0x41 ∧
    ∃ next last,
      nextStroke (ofBytes .unix (27 :: 0x5B :: (List.replicate 16 0x30 ++ ([] ++ [0x41])))) =
        .ok (.control .escape) next ∧
      ¬Faces .unix [] next ∧ nextKey next = .ok (Key.ofChar 'A') last := by
  have hsequence : Stroke.IsSequence (List.replicate 16 0x30) [] 0x41 :=
    ⟨by simp, List.forall_mem_nil _, by decide⟩
  have htaken : (List.replicate 16 (0x30 : UInt8) ++ []).take 16 = List.replicate 16 0x30 := by decide
  have hbody : Takes .unix (nextSequence [] false 16 : Action (Decoder (List UInt8)) ControlKey)
      (List.replicate 16 0x30) .escape := by
    rw [← htaken]
    exact takes_body_cut hsequence (by decide)
  have hfaces : Faces .unix (27 :: 0x5B :: (List.replicate 16 0x30 ++ [0x41]))
      (ofBytes .unix (27 :: 0x5B :: (List.replicate 16 0x30 ++ ([] ++ [0x41])))) :=
    ⟨rfl, _, ByteSource.feeds_list _, rfl⟩
  obtain ⟨⟨next, hrun, hnext⟩, -⟩ := reads_body hbody hfaces
  have hletter : KeyLayout.Writes .unix (Key.ofChar 'A') [0x41] :=
    .char (by decide) fun h => nomatch h
  obtain ⟨last, hkey, -⟩ := takes_nextKey hletter [] next hnext
  refine ⟨hsequence, next, last, hrun, fun hnone => ?_, hkey⟩
  obtain ⟨after, hend⟩ := nextKey_end hnone
  rw [hkey] at hend
  cases hend

end Decoder

end LineEditor
