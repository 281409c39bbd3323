import LineEditor.Proofs.Input.View

/-!
# Keys by their codes

The code of a stroke says everything about it: a byte has its value for a code, and each of the twelve
control keys with a meaning a negative number of its own.  Since no other control key is ever read, a
key can be found by way of its code.

* `Stroke.Meant` — the stroke is a byte, or a control key with a meaning.
* `Decoder.nextStroke_meant` — **the step**: every stroke that is read is one of these.
* `Decoder.nextKeyByCode` — the next key, found by its code; `Decoder.nextKeyByCode_eq` says that this
  is the key that is handed out.
-/

set_option autoImplicit false

open LineEditor.Action

namespace LineEditor

/-! ## Strokes and their codes -/

namespace Stroke

variable {key : ControlKey}

/-- The stroke is a byte, or one of the control keys with a meaning. -/
def Meant (stroke : Stroke) : Prop := ∀ key, stroke = .control key → key ∈ ControlKey.canonical

theorem meant_byte (value : UInt8) : (byte value).Meant := nofun

theorem meant_control (h : key ∈ ControlKey.canonical) : (control key).Meant := by
  rintro _ ⟨⟩
  exact h

theorem meant_ofByte (value : UInt8) : (ofByte value).Meant := by
  unfold ofByte
  repeat' split
  all_goals first
    | exact meant_byte _
    | exact meant_control (by decide)

theorem meant_ofScanCode (code : UInt8) : (ofScanCode code).Meant := by
  unfold ofScanCode
  repeat' split
  all_goals first
    | exact meant_byte _
    | exact meant_control (by decide)

end Stroke

namespace Decoder

variable {β : Type} [ByteSource β] {α γ : Type}

/-! ## What is read -/

/-- Whenever the action succeeds, its value is one of these. -/
def Gives (fits : α → Prop) (action : Action (Decoder β) α) : Prop :=
  ∀ decoder value next, action decoder = .ok value next → fits value

section

variable {fits : γ → Prop}

omit [ByteSource β] in
theorem gives_pure {value : γ} (h : fits value) : Gives fits (pure value : Action (Decoder β) γ) := by
  rintro decoder _ _ ⟨⟩
  exact h

omit [ByteSource β] in
theorem gives_bind {meets : α → Prop} {action : Action (Decoder β) α}
    {rest : α → Action (Decoder β) γ} (h : Gives meets action)
    (hrest : ∀ value, meets value → Gives fits (rest value)) : Gives fits (action >>= rest) := by
  intro decoder value next hrun
  cases hfirst : action decoder with
  | ok first middle =>
    rw [bind_of_ok hfirst] at hrun
    exact hrest first (h decoder first middle hfirst) middle value next hrun
  | error failure middle =>
    rw [bind_of_error hfirst] at hrun
    cases hrun

omit [ByteSource β] in
/-- Nothing needs to be known of what comes first. -/
theorem gives_after {action : Action (Decoder β) α} {rest : α → Action (Decoder β) γ}
    (hrest : ∀ value, Gives fits (rest value)) : Gives fits (action >>= rest) := by
  have hany : Gives (fun _ => True) action := fun _ _ _ _ => trivial
  exact gives_bind hany fun value _ => hrest value

end

theorem nextSequence_gives (parameters : List UInt8) (intermediate : Bool) (room : Nat) :
    Gives (· ∈ KeyLayout.escapeKeys)
      (nextSequence parameters intermediate room : Action (Decoder β) ControlKey) := by
  induction room generalizing parameters intermediate with
  | zero => exact gives_pure (by decide)
  | succ room ih =>
    refine gives_after fun byte => ?_
    split
    · exact ih _ _
    · split
      · exact ih _ _
      · split
        · exact gives_pure (KeyLayout.ofSequence_mem _ _ _)
        · exact gives_after fun _ => gives_pure (by decide)

theorem nextEscape_gives :
    Gives (· ∈ KeyLayout.escapeKeys) (nextEscape : Action (Decoder β) ControlKey) := by
  refine gives_after fun byte => ?_
  split
  · exact nextSequence_gives _ _ _
  · split
    · exact gives_after fun selector => gives_pure (KeyLayout.getD_arrow?_mem selector)
    · exact gives_after fun _ => gives_pure (by decide)

theorem strokeOfEscapes_gives (byte : UInt8) :
    Gives Stroke.Meant (strokeOfEscapes byte : Action (Decoder β) Stroke) := by
  unfold strokeOfEscapes
  split
  · exact gives_pure (Stroke.meant_control (by decide))
  · split
    · exact gives_pure (Stroke.meant_control (by decide))
    · split
      · exact gives_bind nextEscape_gives fun key hkey =>
          gives_pure (Stroke.meant_control (KeyLayout.escapeKeys_canonical hkey))
      · exact gives_pure (Stroke.meant_ofByte byte)

theorem strokeOfScanCodes_gives (byte : UInt8) :
    Gives Stroke.Meant (strokeOfScanCodes byte : Action (Decoder β) Stroke) := by
  unfold strokeOfScanCodes
  split
  · exact gives_after fun code => gives_pure (Stroke.meant_ofScanCode code)
  · repeat' split
    all_goals first
      | exact gives_pure (Stroke.meant_control (by decide))
      | exact gives_pure (Stroke.meant_ofByte byte)

/-- **Only control keys with a meaning are read**, in both layouts and from every source. -/
theorem nextStroke_meant : Gives Stroke.Meant (nextStroke : Action (Decoder β) Stroke) := by
  refine gives_after fun byte => gives_after fun decoder => ?_
  cases decoder.layout with
  | unix => exact strokeOfEscapes_gives byte
  | windows => exact strokeOfScanCodes_gives byte

/-! ## Keys by their codes -/

/-- The next key, found by its code.  A negative code is that of a control key; any other one is a byte
that is, or begins, a character. -/
def nextKeyByCode : Action (Decoder β) Key := do
  let code ← nextCode
  if code < 0 then
    pure (.control (ControlKey.ofCode code))
  else
    let cell ← nextCell (UInt8.ofNat code.toNat)
    pure (.printable cell)

/-- **A key is found by its code**: the control key that is handed out is the one of the code that was
read, and a character is gathered from the byte that the code is. -/
theorem nextKeyByCode_eq : nextKeyByCode = (nextKey : Action (Decoder β) Key) := by
  funext decoder
  cases hrun : nextStroke decoder with
  | error failure next =>
    have hcode : nextCode decoder = .error failure next := bind_of_error hrun
    rw [nextKeyByCode, nextKey, bind_of_error hcode, bind_of_error hrun]
  | ok stroke next =>
    have hmeant := nextStroke_meant decoder stroke next hrun
    have hcode : nextCode decoder = .ok stroke.code next := bind_of_ok hrun
    rw [nextKeyByCode, nextKey, bind_of_ok hcode, bind_of_ok hrun]
    cases stroke with
    | control key =>
      have hkey : key ∈ ControlKey.canonical := hmeant key rfl
      rw [Stroke.code, if_pos (ControlKey.code_neg hkey), ControlKey.ofCode_code hkey]
    | byte lead =>
      have hlead : ¬(lead.toNat : Int) < 0 := Int.not_lt.mpr (Int.natCast_nonneg _)
      rw [Stroke.code, if_neg hlead, Int.toNat_natCast, UInt8.ofNat_toNat]

end Decoder

end LineEditor
