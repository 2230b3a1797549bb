import SpiBridge.Proofs.Progress
import SpiBridge.Proofs.WrittenForm
/-!
# Overflows

A buffer refuses what it has no room for.  Main statements: reading from the bus never
overflows when both buffers have room for as many bytes as the raw frame is to have; and
if the bus brings the written form of the missing bytes, reading ends exactly behind it if
both buffers have room for them, and with an overflow if one of them has not.
-/

namespace SpiBridge

def FramingError.isOverflow : FramingError → Bool
  | overflow .. => true
  | danglingEscape | truncated .. | payloadTooLarge .. | unknownCommand _ | unexpectedCommand _
  | invalidMarker _ => false

namespace Buffer

variable {b : Buffer} {bytes : Bytes} {e : FramingError}

theorem overflow_of_lend {count : Nat} (h : b.lend count = .error e) :
    e.isOverflow = true ∧ b.remaining < count := by
  unfold lend at h
  split at h <;> cases h
  exact ⟨rfl, by omega⟩

theorem overflow_of_append (h : b.append bytes = .error e) :
    e.isOverflow = true ∧ b.remaining < bytes.length := by
  unfold append at h
  split at h <;> cases h
  exact ⟨rfl, by omega⟩

end Buffer

namespace Intake

open Escape

variable {i q : Intake} {d : Decoder} {frame : Buffer} {bytes : Bytes} {target : Nat}
  {e : FramingError}

theorem absorb_eq_error (h : absorb d frame bytes = .error e) :
    (d.feedAll bytes).failure = some e ∨
      e.isOverflow = true ∧ frame.remaining < (d.feedAll bytes).raw.length := by
  induction bytes generalizing d frame with
  | nil => cases h
  | cons byte rest ih =>
    rcases hfeed : d.feed byte with ⟨e' | _ | raw, d'⟩
    · rw [Decoder.feedAll_cons_of_error hfeed]
      simp only [absorb, hfeed] at h
      cases h
      exact .inl rfl
    · rw [Decoder.feedAll_cons_of_ok hfeed]
      simp only [absorb, hfeed] at h
      exact ih h
    · rw [Decoder.feedAll_cons_of_ok hfeed]
      simp only [absorb, hfeed] at h
      have hlength : ((d'.feedAll rest).withByte (some raw)).raw.length =
          (d'.feedAll rest).raw.length + 1 := rfl
      rw [hlength]
      rcases hpush : frame.push raw with e' | pushed <;> rw [hpush] at h
      · cases h
        obtain ⟨hover, hfull⟩ := Buffer.overflow_of_append hpush
        rw [List.length_singleton] at hfull
        exact .inr ⟨hover, by omega⟩
      · have hroom := Buffer.remaining_of_append hpush
        rw [List.length_singleton] at hroom
        exact (ih h).imp_right (And.imp_right fun hfull => by omega)

theorem not_isOverflow_of_fill (hframe : target ≤ i.frame.capacity)
    (hwire : target ≤ i.wire.capacity) (h : i.fill target = (.error (.framing e), q)) :
    e.isOverflow = false := by
  fun_induction fill i target with
  | case1 i hless missing wire e' hlend =>
    obtain ⟨-, hfull⟩ := Buffer.overflow_of_lend hlend
    rw [Buffer.remaining_reset] at hfull
    omega
  | case2 | case6 => simp at h
  | case3 i hless missing wire lent hlend byte rest bus hread wire' e' habsorb =>
    obtain ⟨he, -⟩ := Prod.mk.inj h
    cases he
    rcases absorb_eq_error habsorb with hfailure | ⟨-, hfull⟩
    · rw [Decoder.eq_danglingEscape_of_feedAll hfailure]
      rfl
    · -- A piece is no longer than what is missing, and that much room there is.
      have hpiece := Channel.length_le_of_readSome hread
      have hraw := Decoder.length_raw_feedAll_le i.decoder (byte :: rest)
      have hcapacity := i.frame.length_add_remaining
      omega
  | case4 i hless missing wire lent hlend byte rest bus hread wire' decoder frame habsorb ih =>
    obtain ⟨-, -, happend⟩ := absorb_eq_ok_iff.1 habsorb
    refine ih ?_ ?_ h
    · rwa [Buffer.capacity_of_append happend]
    · simpa [wire', wire] using hwire
  | case5 i hless missing wire lent hlend got bus hgot hread =>
    obtain ⟨he, -⟩ := Prod.mk.inj h
    cases he
    unfold stall Decoder.finish
    cases i.decoder.pending <;> rfl

/-- A bus that brings the written form of the missing bytes is read up to its end, if the buffers
have room for them, and otherwise one of them overflows. -/
theorem fill_of_brings {more : Nat} {raw tail : Bytes}
    (hlength : i.frame.length + raw.length = target)
    (hbytes : i.decoder.held ++ i.bus.waiting = encode raw ++ tail)
    (hbrings : Channel.Brings IoError.isInterruption i.bus.arrivals
      ((encode raw).length - i.decoder.held.length + more)) :
    (raw.length ≤ i.frame.remaining → raw.length ≤ i.wire.capacity →
      ∃ q, i.fill target = (.ok (), q) ∧ q.frame.filled = i.frame.filled ++ raw ∧
        q.decoder.held ++ q.bus.waiting = tail ∧
        Channel.Brings IoError.isInterruption q.bus.arrivals more) ∧
    (i.frame.remaining < raw.length ∨ i.wire.capacity < raw.length →
      ∃ e q, i.fill target = (.error (.framing e), q) ∧ e.isOverflow = true) := by
  -- The room for the bus is asked for at once, that for the raw bytes as they come.
  fun_induction fill i target generalizing raw with
  | case1 i hless missing wire e =>
    rename_i hlend
    obtain ⟨hoverflow, hfull⟩ := Buffer.overflow_of_lend hlend
    rw [Buffer.remaining_reset] at hfull
    exact ⟨fun _ hwire => by omega, fun _ => ⟨e, _, rfl, hoverflow⟩⟩
  | case2 i hless missing wire lent hlend e bus =>
    rename_i hread
    obtain ⟨_, _, _, _, _, hresult, -⟩ :=
      piece_of_brings (by omega) (by omega) hbytes hbrings hread
    cases hresult
  | case3 i hless missing wire lent hlend byte rest bus hread wire' e =>
    rename_i habsorb
    obtain ⟨_, _, given, left, decoder, hresult, hfed, hraw, -⟩ :=
      piece_of_brings (by omega) (by omega) hbytes hbrings hread
    cases hresult
    rcases absorb_eq_error habsorb with hfailure | ⟨hoverflow, hfull⟩ <;> rw [hfed] at *
    · cases hfailure
    · have hlengths := congrArg List.length hraw
      rw [List.length_append] at hlengths
      have hmore : i.frame.remaining < given.length := hfull
      exact ⟨fun hframe => by omega, fun _ => ⟨e, _, rfl, hoverflow⟩⟩
  | case4 i hless missing wire lent hlend byte rest bus hread wire' decoder frame habsorb =>
    rename_i ih
    obtain ⟨_, _, given, left, decoder', hresult, hfed, hraw, hbytes', hbrings'⟩ :=
      piece_of_brings (by omega) (by omega) hbytes hbrings hread
    cases hresult
    obtain ⟨-, hdecoder, happend⟩ := absorb_eq_ok_iff.1 habsorb
    rw [hfed] at hdecoder happend
    cases hdecoder
    have hlent := Buffer.le_remaining_of_lend hlend
    rw [Buffer.remaining_reset] at hlent
    have hgrown : frame.length = i.frame.length + given.length := Buffer.length_of_append happend
    have hroom : frame.remaining + given.length = i.frame.remaining :=
      Buffer.remaining_of_append happend
    have hlengths := congrArg List.length hraw
    rw [List.length_append] at hlengths
    have hwhole : frame.length + left.length = target := by omega
    obtain ⟨hfits, hshort⟩ := ih hwhole hbytes' hbrings'
    constructor
    · intro hframe hwire
      have hwire' : left.length ≤ (wire'.advance (byte :: rest).length).capacity := by
        rw [Buffer.capacity_advance, Buffer.capacity_receive, Buffer.capacity_reset]
        omega
      have hleft : left.length ≤ frame.remaining := by omega
      obtain ⟨q, hfill, hfilled, htail, hmore⟩ := hfits hleft hwire'
      refine ⟨q, hfill, ?_, htail, hmore⟩
      rw [hfilled, Buffer.filled_of_append happend, hraw, List.append_assoc]
    · intro hnarrow
      exact hshort (.inl (show frame.remaining < left.length by omega))
  | case5 i hless missing wire lent hlend got bus hgot =>
    rename_i hread
    obtain ⟨byte, rest, _, _, _, hresult, -⟩ :=
      piece_of_brings (by omega) (by omega) hbytes hbrings hread
    exact absurd (Except.ok.inj hresult) (hgot byte rest)
  | case6 i hless =>
    obtain rfl : raw = [] := List.length_eq_zero_iff.1 (by omega)
    have hmore : Channel.Brings IoError.isInterruption i.bus.arrivals more := by
      simpa using hbrings
    exact ⟨fun _ _ => ⟨i, rfl, by simp, by simpa using hbytes, hmore⟩, by simp⟩

end Intake

end SpiBridge
