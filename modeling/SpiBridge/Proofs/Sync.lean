import SpiBridge.Sync.Frame
/-!
# Streams of synchronization frames

Each side counts its frames round its own range of serial numbers.  A frame tells
its raw length, so a stream of frames can be taken apart again.  Main statements:
the number that a side gives out after so many others, that a written frame is read
back from the front of any stream, and that taking a stream of frames apart gives
them in order.
-/

namespace SpiBridge

namespace Sync

namespace Origin

def serialCount : Nat := 0x7fff

/-- The number of the frame that a side sends after so many others. -/
def serialAt (origin : Origin) (earlier : Nat) : UInt16 :=
  origin.firstSerial + UInt16.ofNat (earlier % serialCount)

@[simp] theorem serialAt_zero (origin : Origin) : origin.serialAt 0 = origin.firstSerial := by
  cases origin <;> rfl

theorem toNat_serialAt (origin : Origin) (earlier : Nat) :
    (origin.serialAt earlier).toNat = origin.firstSerial.toNat + earlier % serialCount := by
  have hless : earlier % serialCount < serialCount := Nat.mod_lt _ (by decide)
  unfold serialAt
  rw [UInt16.toNat_add, UInt16.toNat_ofNat']
  unfold serialCount at *
  cases origin <;> simp only [firstSerial, UInt16.reduceToNat] <;> omega

theorem owns_serialAt (origin : Origin) (earlier : Nat) :
    origin.Owns (origin.serialAt earlier) := by
  have hless : earlier % serialCount < serialCount := Nat.mod_lt _ (by decide)
  unfold Owns
  rw [UInt16.le_iff_toNat_le, UInt16.le_iff_toNat_le, toNat_serialAt]
  unfold serialCount at *
  cases origin <;> simp only [firstSerial, lastSerial, UInt16.reduceToNat] <;> omega

end Origin

namespace Serials

theorem successor_serialAt (origin : Origin) (earlier : Nat) :
    successor origin (origin.serialAt earlier) = origin.serialAt (earlier + 1) := by
  have hless : earlier % Origin.serialCount < Origin.serialCount := Nat.mod_lt _ (by decide)
  have hnext := Origin.toNat_serialAt origin (earlier + 1)
  have hthis := Origin.toNat_serialAt origin earlier
  rw [← UInt16.toNat_inj, hnext]
  unfold successor
  simp only [UInt16.le_iff_toNat_le, hthis]
  unfold Origin.serialCount at *
  split
  · cases origin <;>
      simp only [Origin.firstSerial, Origin.lastSerial, UInt16.reduceToNat] at * <;> omega
  · rw [UInt16.toNat_add, hthis]
    cases origin <;>
      simp only [Origin.firstSerial, Origin.lastSerial, UInt16.reduceToNat] at * <;> omega

@[simp] theorem peek_advance_self (s : Serials) (origin : Origin) :
    (s.advance origin).peek origin = successor origin (s.peek origin) := by
  cases origin <;> rfl

theorem peek_advance_of_ne (s : Serials) {origin other : Origin} (hne : other ≠ origin) :
    (s.advance origin).peek other = s.peek other := by
  cases origin <;> cases other <;> first | rfl | exact absurd rfl hne

end Serials

/-! ## Reading a written frame back -/

theorem feedUpTo_encode_append (raw rest : Bytes) (more : Nat) :
    (Escape.Decoder.mk false).feedUpTo (raw.length + more) (Escape.encode raw ++ rest) =
      { (Escape.Decoder.mk false).feedUpTo more rest with
        raw := raw ++ ((Escape.Decoder.mk false).feedUpTo more rest).raw } := by
  induction raw with
  | nil => simp
  | cons byte tail ih =>
    have hlimit : (byte :: tail).length + more = tail.length + more + 1 := by
      rw [List.length_cons]
      omega
    rw [hlimit]
    by_cases hbyte : byte = Escape.mark
    · subst hbyte
      simp [Escape.encode, Escape.Decoder.feedUpTo, Escape.Decoder.feed, ih,
        Escape.Decoder.Fed.withByte]
    · simp [Escape.encode, Escape.Decoder.feedUpTo, Escape.Decoder.feed, ih,
        Escape.Decoder.Fed.withByte, hbyte]

theorem feedUpTo_encode (raw rest : Bytes) :
    (Escape.Decoder.mk false).feedUpTo raw.length (Escape.encode raw ++ rest) =
      { raw := raw, decoder := ⟨false⟩ } := by
  simpa [Escape.Decoder.feedUpTo] using feedUpTo_encode_append raw rest 0

theorem decode_encode_append {header : Header} {raw : Bytes}
    (hlength : header.length.toNat = raw.length) (rest : Bytes) :
    decode (encode header raw ++ rest) = .ok (header, raw) := by
  have hdrop : (encode header raw ++ rest).drop Header.size = Escape.encode raw ++ rest := by
    rw [encode, List.append_assoc, ← Header.length_toBytes header, List.drop_left]
  have hheader : Header.parse (encode header raw ++ rest) = .ok header := by
    rw [encode, List.append_assoc]
    exact Header.parse_toBytes_append header _
  unfold decode
  rw [hheader, hdrop]
  simp only [bind, Except.bind, hlength, feedUpTo_encode, Escape.Decoder.Fed.finish,
    Escape.Decoder.finish, Bool.false_eq_true, if_false, Except.map, Nat.lt_irrefl]

theorem size_le_length_encode (header : Header) (raw : Bytes) :
    Header.size ≤ (encode header raw).length := by
  rw [encode, List.length_append, Header.length_toBytes]
  omega

/-- Takes a stream of frames apart: reads a frame at the front, as long as bytes are left. -/
def split (wire : Bytes) : Except FramingError (List (Header × Bytes)) :=
  if wire = [] then .ok []
  else match decode wire with
    | .error e => .error e
    | .ok (header, raw) =>
      (split (wire.drop (encode header raw).length)).map ((header, raw) :: ·)
termination_by wire.length
decreasing_by
  have hsize := size_le_length_encode header raw
  have hwire : 0 < wire.length := List.length_pos_iff.2 ‹_›
  rw [List.length_drop]
  unfold Header.size at hsize
  omega

theorem split_flatMap_encode {frames : List (Header × Bytes)}
    (hlength : ∀ frame ∈ frames, frame.1.length.toNat = frame.2.length) :
    split (frames.flatMap fun frame => encode frame.1 frame.2) = .ok frames := by
  induction frames with
  | nil => simp [split]
  | cons frame rest ih =>
    have hframe := hlength frame (by simp)
    have hrest := ih fun other hother => hlength other (List.mem_cons_of_mem _ hother)
    have hsize := size_le_length_encode frame.1 frame.2
    have hne : encode frame.1 frame.2 ++ rest.flatMap (fun frame => encode frame.1 frame.2) ≠
        [] := by
      intro hnil
      rw [(List.append_eq_nil_iff.1 hnil).1] at hsize
      exact absurd hsize (by decide)
    rw [List.flatMap_cons, split, if_neg hne, decode_encode_append hframe]
    simp only [List.drop_left, hrest, Except.map]

end Sync

end SpiBridge
