import SpiBridge.Proofs.Buffer
import SpiBridge.Proofs.Channel
import SpiBridge.Proofs.Escape
/-!
# Taking raw bytes off the bus

Reading from the bus goes on, piece by piece, until enough raw bytes are there.
Main statements: what is taken off the bus decodes to what is added to the frame,
nothing is owed once the frame is as long as was asked for, and a bus that brings
the written form of the missing bytes is read up to the end of that form.
-/

namespace SpiBridge

namespace Intake

open Escape

theorem absorb_eq_ok_iff {d d' : Decoder} {frame frame' : Buffer} {bytes : Bytes} :
    absorb d frame bytes = .ok (d', frame') ↔
      (d.feedAll bytes).failure = none ∧ (d.feedAll bytes).decoder = d' ∧
        frame.append (d.feedAll bytes).raw = .ok frame' := by
  induction bytes generalizing d frame with
  | nil => simp [absorb]
  | cons byte rest ih =>
    rcases hfeed : d.feed byte with ⟨_ | out, next⟩
    · simp [absorb, hfeed, Decoder.feedAll_cons_of_error hfeed]
    · rw [Decoder.feedAll_cons_of_ok hfeed]
      cases out with
      | none => simp [absorb, hfeed, ih, Decoder.Fed.withByte]
      | some raw =>
        have hpush : frame.push raw = frame.append [raw] := rfl
        simp only [absorb, hfeed, hpush, Decoder.Fed.withByte, Option.toList_some,
          Buffer.append_append_eq_ok_iff]
        rcases happend : frame.append [raw] with e | pushed
        · simp
        · simp [ih]

structure Took (i q : Intake) (taken : Bytes) : Prop where
  bus : i.bus.ReadsTo q.bus taken
  frame : q.frame.capacity = i.frame.capacity
  wire : q.wire.capacity = i.wire.capacity

theorem Took.of_round {i q : Intake} {bus : Channel} {frame : Buffer} {wire : Buffer}
    {decoder : Decoder} {front back : Bytes} (hread : i.bus.ReadsTo bus front)
    (hframe : frame.capacity = i.frame.capacity) (hwire : wire.capacity = i.wire.capacity)
    (hrest : Took ⟨frame, wire, decoder, bus⟩ q back) : i.Took q (front ++ back) :=
  ⟨hread.trans hrest.bus, hrest.frame.trans hframe, hrest.wire.trans hwire⟩

theorem took_fill (i : Intake) (target : Nat) :
    ∃ taken, i.Took (i.fill target).2 taken := by
  fun_induction fill i target with
  | case1 i hless missing wire e hlend =>
    exact ⟨[], .refl _, rfl, Buffer.capacity_reset _⟩
  | case2 i hless missing wire lent hlend e bus hread =>
    exact ⟨_, Channel.readsTo_of_readSome hread, rfl, Buffer.capacity_reset _⟩
  | case3 i hless missing wire lent hlend byte rest bus hread wire' e habsorb =>
    exact ⟨_, Channel.readsTo_of_readSome hread, rfl, by simp [wire', wire]⟩
  | case4 i hless missing wire lent hlend byte rest bus hread wire' decoder frame habsorb ih =>
    obtain ⟨taken, htook⟩ := ih
    obtain ⟨-, -, happend⟩ := absorb_eq_ok_iff.1 habsorb
    exact ⟨_, .of_round (Channel.readsTo_of_readSome hread)
      (Buffer.capacity_of_append happend) (by simp [wire', wire]) htook⟩
  | case5 i hless missing wire lent hlend got bus hgot hread =>
    exact ⟨_, Channel.readsTo_of_readSome hread, rfl, Buffer.capacity_reset _⟩
  | case6 i hless => exact ⟨[], .refl _, rfl, rfl⟩

theorem fill_of_le {i : Intake} {target : Nat} (h : target ≤ i.frame.length) :
    i.fill target = (.ok (), i) := by
  rw [fill, if_neg (by omega)]

/-- What a filled frame is made of: the taken bytes decode to what was appended, and a frame
that grew up to the target leaves nothing owed. -/
structure Filled (i q : Intake) (target : Nat) (taken : Bytes) : Prop where
  took : i.Took q taken
  failure : (i.decoder.feedAll taken).failure = none
  decoder : (i.decoder.feedAll taken).decoder = q.decoder
  append : i.frame.append (i.decoder.feedAll taken).raw = .ok q.frame
  length : i.frame.length ≤ target → q.frame.length = target
  rest : i.frame.length < target → q.decoder.pending = false

theorem filled_of_fill {i q : Intake} {target : Nat} (h : i.fill target = (.ok (), q)) :
    ∃ taken, i.Filled q target taken := by
  fun_induction fill i target with
  | case1 | case2 | case3 | case5 => simp at h
  | case4 i hless missing wire lent hlend byte rest bus hread wire' decoder frame habsorb ih =>
    obtain ⟨hfailure, hdecoder, happend⟩ := absorb_eq_ok_iff.1 habsorb
    obtain ⟨taken, htook, hfailure', hdecoder', happend', hlength', hrest'⟩ := ih h
    have hpiece := Channel.length_le_of_readSome hread
    have hraw := Decoder.length_raw_feedAll_le i.decoder (byte :: rest)
    have hgrown := Buffer.length_of_append happend
    have hfed := Decoder.feedAll_append taken hfailure
    rw [hdecoder] at hfed
    refine ⟨byte :: rest ++ taken, .of_round (Channel.readsTo_of_readSome hread)
      (Buffer.capacity_of_append happend) (by simp [wire', wire]) htook, ?_, ?_, ?_, ?_, ?_⟩
    · rw [hfed]
      exact hfailure'
    · rw [hfed]
      exact hdecoder'
    · rw [hfed]
      exact Buffer.append_append_eq_ok_iff.2 ⟨frame, happend, happend'⟩
    · intro _
      exact hlength' (by simp only; omega)
    · intro _
      by_cases hmore : frame.length < target
      · exact hrest' hmore
      · -- The piece was as long as what was missing, so each of its bytes gave a raw byte.
        have hq : q = ⟨frame, wire'.advance (byte :: rest).length, decoder, bus⟩ := by
          rw [fill_of_le (by simp only; omega)] at h
          exact (Prod.mk.inj h).2.symm
        rw [hq, ← hdecoder]
        exact Decoder.pending_of_length_raw_eq (by simp) hfailure (by omega)
  | case6 i hless =>
    simp only [Prod.mk.injEq, true_and] at h
    subst h
    exact ⟨[], ⟨.refl _, rfl, rfl⟩, rfl, rfl, by simp, fun hle => by omega,
      fun hlt => absurd hlt hless⟩

theorem short_of_fill {i q : Intake} {target : Nat} {e : FramingError}
    (h : i.fill target = (.error (.framing e), q)) :
    ∃ taken, i.Took q taken ∧ ((i.decoder.feedAll taken).failure = none →
      i.frame.length + (i.decoder.feedAll taken).raw.length < target ∨
        i.frame.capacity < i.frame.length + (i.decoder.feedAll taken).raw.length) := by
  fun_induction fill i target with
  | case1 i hless missing wire e' hlend =>
    obtain ⟨-, rfl⟩ := Prod.mk.inj h
    exact ⟨[], ⟨.refl _, rfl, Buffer.capacity_reset _⟩, fun _ => .inl hless⟩
  | case2 => simp at h
  | case3 i hless missing wire lent hlend byte rest bus hread wire' e' habsorb =>
    obtain ⟨-, rfl⟩ := Prod.mk.inj h
    refine ⟨byte :: rest, ⟨Channel.readsTo_of_readSome hread, rfl, by simp [wire', wire]⟩,
      fun hfailure => .inr ?_⟩
    -- The piece can be decoded, so it was refused for lack of room.
    have hfull : i.frame.remaining < (i.decoder.feedAll (byte :: rest)).raw.length := by
      refine Nat.lt_of_not_le fun hroom => ?_
      obtain ⟨frame', happend⟩ := i.frame.append_of_le _ hroom
      rw [absorb_eq_ok_iff.2 ⟨hfailure, rfl, happend⟩] at habsorb
      cases habsorb
    have hcapacity := i.frame.length_add_remaining
    omega
  | case4 i hless missing wire lent hlend byte rest bus hread wire' decoder frame habsorb ih =>
    obtain ⟨hfailure, rfl, happend⟩ := absorb_eq_ok_iff.1 habsorb
    obtain ⟨taken, htook, hshort⟩ := ih h
    have hcapacity := Buffer.capacity_of_append happend
    have hgrown := Buffer.length_of_append happend
    refine ⟨byte :: rest ++ taken, .of_round (Channel.readsTo_of_readSome hread) hcapacity
      (by simp [wire', wire]) htook, ?_⟩
    rw [Decoder.feedAll_append taken hfailure]
    intro hlater
    have hbound := hshort hlater
    simp only [hcapacity, hgrown] at hbound
    rw [List.length_append]
    omega
  | case5 i hless missing wire lent hlend got bus hgot hread =>
    obtain ⟨-, rfl⟩ := Prod.mk.inj h
    have hnothing : Channel.bytesOf (.ok got : Except TransportError _) = [] := by
      rcases got with _ | _ | ⟨byte, rest⟩
      · rfl
      · rfl
      · exact absurd rfl (hgot byte rest)
    have hread' := Channel.readsTo_of_readSome hread
    rw [hnothing] at hread'
    exact ⟨[], ⟨hread', rfl, Buffer.capacity_reset _⟩, fun _ => .inl hless⟩
  | case6 => simp at h

/-! ## All that was taken off the bus -/

/-- The frame is what some bytes off the bus decode to, and the decoder stands behind them. -/
def Decodes (i : Intake) (wire : Bytes) : Prop :=
  (Decoder.mk false).feedAll wire = { raw := i.frame.filled, decoder := i.decoder }

namespace Decodes

variable {i q : Intake} {wire taken raw : Bytes} {target : Nat}

theorem decode_eq (h : i.Decodes wire) (hrest : i.decoder.pending = false) :
    decode wire = .ok i.frame.filled := by
  rw [decode, h]
  simp [Decoder.Fed.finish, Decoder.finish, hrest, Except.map]

theorem feedAll_append (h : i.Decodes wire) (taken : Bytes) :
    (Decoder.mk false).feedAll (wire ++ taken) =
      { i.decoder.feedAll taken with raw := i.frame.filled ++ (i.decoder.feedAll taken).raw } := by
  rw [Decoder.feedAll_append taken (by rw [h]), h]

theorem of_filled (h : i.Decodes wire) (hfilled : i.Filled q target taken) :
    q.Decodes (wire ++ taken) := by
  unfold Decodes
  rw [h.feedAll_append, ← Buffer.filled_of_append hfilled.append, ← hfilled.decoder]
  simp only [hfilled.failure]

theorem eq_append (h : i.Decodes wire) (hdecode : decode (wire ++ taken) = .ok raw) :
    (i.decoder.feedAll taken).failure = none ∧
      raw = i.frame.filled ++ (i.decoder.feedAll taken).raw := by
  rw [decode, h.feedAll_append] at hdecode
  unfold Decoder.Fed.finish at hdecode
  split at hdecode
  · cases hdecode
  · rename_i hfailure
    rcases hfinish : (i.decoder.feedAll taken).decoder.finish with e | _ <;>
      simp only [hfinish, Except.map, Except.ok.injEq, reduceCtorEq] at hdecode
    exact ⟨hfailure, hdecode.symm⟩

theorem short_of_fill {e : FramingError} (h : i.Decodes wire)
    (hfill : i.fill target = (.error (.framing e), q)) :
    ∃ taken, i.Took q taken ∧ ∀ raw, decode (wire ++ taken) = .ok raw →
      i.frame.filled <+: raw ∧ (raw.length < target ∨ i.frame.capacity < raw.length) := by
  obtain ⟨taken, htook, hshort⟩ := Intake.short_of_fill hfill
  refine ⟨taken, htook, fun raw hdecode => ?_⟩
  obtain ⟨hfailure, rfl⟩ := h.eq_append hdecode
  rw [List.length_append, Buffer.length_filled]
  exact ⟨List.prefix_append _ _, hshort hfailure⟩

end Decodes

end Intake

end SpiBridge
