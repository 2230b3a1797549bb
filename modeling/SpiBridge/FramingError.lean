import SpiBridge.Command
/-!
# Framing errors

Everything that can be wrong with the bytes of a frame, or with the room for
them, as one cause each, and the text that reports it.
-/

namespace SpiBridge

inductive FramingError where
  | danglingEscape
  | truncated (needed available : Nat)
  | payloadTooLarge (size limit : Nat)
  | unknownCommand (code : UInt8)
  | unexpectedCommand (command : Command)
  | invalidMarker (byte : UInt8)
  | overflow (requested available capacity : Nat)
  deriving DecidableEq, Repr

namespace FramingError

def message : FramingError → String
  | danglingEscape => "dangling or invalid escape sequence"
  | truncated needed available => s!"truncated frame ({available} of {needed} bytes)"
  | payloadTooLarge size limit => s!"payload too large ({size} bytes, max {limit})"
  | unknownCommand code => "unknown command code 0x" ++ hexByte code
  | unexpectedCommand command => "unexpected " ++ command.name ++ " command"
  | invalidMarker byte => "invalid synchronization marker 0x" ++ hexByte byte
  | overflow requested available capacity =>
    s!"buffer overflow ({requested} bytes requested, {available} of {capacity} free)"

/-- If there is a reason wherever there is no result, and each reason is reported, then nothing
else is reported. -/
theorem eq_error_iff_of_reasons {α : Type} {result : Except FramingError α}
    {Reason : FramingError → Prop} (hgiven : ∀ e, Reason e → result = .error e)
    (htotal : (∃ a, result = .ok a) ∨ ∃ e, Reason e) (e : FramingError) :
    result = .error e ↔ Reason e := by
  constructor
  · intro hresult
    obtain ⟨a, htaken⟩ | ⟨e', hreason⟩ := htotal
    · rw [htaken] at hresult
      cases hresult
    · rw [hgiven e' hreason] at hresult
      obtain rfl := Except.error.inj hresult
      exact hreason
  · exact hgiven e

end FramingError

end SpiBridge
