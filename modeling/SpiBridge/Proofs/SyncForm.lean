import SpiBridge.Proofs.Sync
/-!
# Which byte strings are synchronization frames

A frame is read as far as its header says and not one byte further.  A byte string
that is no frame is refused, for the first reason that reading it comes upon: too few
bytes for a header, another first byte, a mark without its follower, too few raw bytes.

Main statement: what is read is exactly what has the form of a frame, and each refusal
says which of the four is the matter.
-/

namespace SpiBridge

namespace Escape

/-- What a byte string holds for a reader that wants so many raw bytes of it. -/
inductive Holds (limit : Nat) : Bytes → Prop
  | complete {raw : Bytes} (suffix : Bytes) (hlength : raw.length = limit) :
      Holds limit (encode raw ++ suffix)
  | dangling {raw rest : Bytes} (hlength : raw.length < limit)
      (hnext : rest.head? ≠ some follower) : Holds limit (encode raw ++ mark :: rest)
  | incomplete {raw : Bytes} (hlength : raw.length < limit) : Holds limit (encode raw)

variable {limit : Nat} {body : Bytes}

theorem holds_cons (byte : UInt8) (h : Holds limit body) :
    Holds (limit + 1) (encode [byte] ++ body) := by
  cases h with
  | complete suffix hlength =>
    rw [← List.append_assoc, ← encode_append]
    exact .complete suffix (by simp [hlength])
  | dangling hlength hnext =>
    rw [← List.append_assoc, ← encode_append]
    exact .dangling (by simpa using hlength) hnext
  | incomplete hlength =>
    rw [← encode_append]
    exact .incomplete (by simpa using hlength)

theorem holds (limit : Nat) (body : Bytes) : Holds limit body := by
  induction limit generalizing body with
  | zero => exact @Holds.complete 0 [] body rfl
  | succ limit ih =>
    cases body with
    | nil => exact @Holds.incomplete (limit + 1) [] (Nat.succ_pos limit)
    | cons byte rest =>
      by_cases hbyte : byte = mark
      · subst hbyte
        by_cases hnext : rest.head? = some follower
        · obtain ⟨tail, rfl⟩ := List.head?_eq_some_iff.1 hnext
          exact holds_cons mark (ih tail)
        · exact @Holds.dangling (limit + 1) [] rest (Nat.succ_pos limit) hnext
      · have hself : encode [byte] = [byte] := by simp [encode, hbyte]
        have hrest := holds_cons byte (ih rest)
        rwa [hself] at hrest

namespace Decoder

variable {raw rest : Bytes}

theorem finish_feedUpTo_of_complete (suffix : Bytes) (hlength : raw.length = limit) :
    ((mk false).feedUpTo limit (encode raw ++ suffix)).finish = .ok raw := by
  subst hlength
  rw [Sync.feedUpTo_encode]
  rfl

theorem finish_feedUpTo_of_incomplete (hlength : raw.length < limit) :
    ((mk false).feedUpTo limit (encode raw)).finish = .ok raw := by
  obtain ⟨more, rfl⟩ := Nat.exists_eq_add_of_lt hlength
  have hfed := Sync.feedUpTo_encode_append raw [] (more + 1)
  rw [List.append_nil] at hfed
  rw [Nat.add_assoc, hfed]
  simp [feedUpTo, Fed.finish, finish, Except.map]

theorem finish_feedUpTo_of_dangling (hlength : raw.length < limit)
    (hnext : rest.head? ≠ some follower) :
    ((mk false).feedUpTo limit (encode raw ++ mark :: rest)).finish =
      .error .danglingEscape := by
  obtain ⟨more, rfl⟩ := Nat.exists_eq_add_of_lt hlength
  have hmark : (mk false).feedUpTo (more + 1) (mark :: rest) =
      (mk true).feedUpTo (more + 1) rest := rfl
  rw [Nat.add_assoc, Sync.feedUpTo_encode_append, hmark]
  cases rest with
  | nil => rfl
  | cons byte tail =>
    have hbyte : byte ≠ follower := by simpa using hnext
    simp [feedUpTo, feed, hbyte, Fed.finish]

end Decoder

end Escape

namespace Sync

namespace Header

/-- The header as it may be written: its second byte has no meaning. -/
def form (h : Header) (filler : UInt8) : Bytes :=
  marker :: filler :: (Bytes.ofWord h.serial ++ Bytes.ofWord h.length)

theorem parse_form_append (h : Header) (filler : UInt8) (body : Bytes) :
    parse (h.form filler ++ body) = .ok h := by
  simp [parse, form, Bytes.ofWord, Bytes.toWord_ofWord]

theorem exists_form {wire : Bytes} (hsize : size ≤ wire.length)
    (hmarker : wire.head? = some marker) :
    ∃ (h : Header) (filler : UInt8) (body : Bytes), wire = h.form filler ++ body := by
  rcases wire with _ | ⟨first, _ | ⟨filler, _ | ⟨s₀, _ | ⟨s₁, _ | ⟨l₀, _ | ⟨l₁, body⟩⟩⟩⟩⟩⟩
  case cons.cons.cons.cons.cons.cons =>
    obtain rfl : first = marker := by simpa using hmarker
    refine ⟨⟨Bytes.toWord s₀ s₁, Bytes.toWord l₀ l₁⟩, filler, body, ?_⟩
    simp [form, Bytes.ofWord_toWord]
  all_goals simp [size] at hsize

end Header

theorem decode_form_append (h : Header) (filler : UInt8) (body : Bytes) :
    decode (h.form filler ++ body) =
      ((Escape.Decoder.mk false).feedUpTo h.length.toNat body).finish.bind fun raw =>
        if raw.length < h.length.toNat then .error (.truncated h.length.toNat raw.length)
        else .ok (h, raw) := by
  have hdrop : (h.form filler ++ body).drop Header.size = body := rfl
  unfold decode
  rw [Header.parse_form_append, hdrop]
  rfl

/-- Why a byte string is no frame: the report, and what it stands for. -/
inductive Refused : Bytes → FramingError → Prop
  | short {wire : Bytes} (hsize : wire.length < Header.size) :
      Refused wire (.truncated Header.size wire.length)
  | unmarked {first : UInt8} {rest : Bytes} (hsize : Header.size ≤ (first :: rest).length)
      (hfirst : first ≠ Header.marker) : Refused (first :: rest) (.invalidMarker first)
  | dangling {header : Header} (filler : UInt8) {raw rest : Bytes}
      (hlength : raw.length < header.length.toNat) (hnext : rest.head? ≠ some Escape.follower) :
      Refused (header.form filler ++ (Escape.encode raw ++ Escape.mark :: rest)) .danglingEscape
  | incomplete {header : Header} (filler : UInt8) {raw : Bytes}
      (hlength : raw.length < header.length.toNat) :
      Refused (header.form filler ++ Escape.encode raw)
        (.truncated header.length.toNat raw.length)

variable {wire raw : Bytes} {header : Header} {e : FramingError}

theorem decode_of_refused (h : Refused wire e) : decode wire = .error e := by
  cases h with
  | short hsize =>
    unfold decode
    have hparse : Header.parse wire = .error (.truncated Header.size wire.length) := by
      unfold Header.parse
      split
      · simp only [List.length_cons, Header.size] at hsize
        omega
      · rfl
    rw [hparse]
    rfl
  | @unmarked first rest hsize hfirst =>
    rcases rest with _ | ⟨filler, _ | ⟨s₀, _ | ⟨s₁, _ | ⟨l₀, _ | ⟨l₁, body⟩⟩⟩⟩⟩
    case cons.cons.cons.cons.cons => simp [decode, Header.parse, hfirst, bind, Except.bind]
    all_goals simp [Header.size] at hsize
  | dangling filler hlength hnext =>
    rw [decode_form_append, Escape.Decoder.finish_feedUpTo_of_dangling hlength hnext]
    rfl
  | incomplete filler hlength =>
    rw [decode_form_append, Escape.Decoder.finish_feedUpTo_of_incomplete hlength]
    exact if_pos hlength

theorem decode_form_encode (filler : UInt8) (suffix : Bytes)
    (hlength : raw.length = header.length.toNat) :
    decode (header.form filler ++ (Escape.encode raw ++ suffix)) = .ok (header, raw) := by
  rw [decode_form_append, Escape.Decoder.finish_feedUpTo_of_complete suffix hlength]
  exact if_neg (Nat.not_lt.2 (Nat.le_of_eq hlength.symm))

theorem frame_or_refused (wire : Bytes) :
    (∃ (header : Header) (raw : Bytes) (filler : UInt8) (suffix : Bytes),
      wire = header.form filler ++ (Escape.encode raw ++ suffix) ∧
        raw.length = header.length.toNat) ∨
      ∃ e, Refused wire e := by
  by_cases hsize : Header.size ≤ wire.length
  · by_cases hmarker : wire.head? = some Header.marker
    · obtain ⟨header, filler, body, rfl⟩ := Header.exists_form hsize hmarker
      cases Escape.holds header.length.toNat body with
      | complete suffix hlength => exact .inl ⟨header, _, filler, suffix, rfl, hlength⟩
      | dangling hlength hnext => exact .inr ⟨_, .dangling filler hlength hnext⟩
      | incomplete hlength => exact .inr ⟨_, .incomplete filler hlength⟩
    · cases wire with
      | nil => exact absurd hsize (by decide)
      | cons first rest => exact .inr ⟨_, .unmarked hsize (by simpa using hmarker)⟩
  · exact .inr ⟨_, .short (Nat.not_le.1 hsize)⟩

theorem decode_eq_ok_iff : decode wire = .ok (header, raw) ↔
    ∃ (filler : UInt8) (suffix : Bytes),
      wire = header.form filler ++ (Escape.encode raw ++ suffix) ∧
        raw.length = header.length.toNat := by
  constructor
  · intro h
    obtain ⟨header', raw', filler, suffix, rfl, hlength⟩ | ⟨e, hrefused⟩ := frame_or_refused wire
    · rw [decode_form_encode filler suffix hlength] at h
      obtain ⟨rfl, rfl⟩ : header' = header ∧ raw' = raw := by simpa using h
      exact ⟨filler, suffix, rfl, hlength⟩
    · rw [decode_of_refused hrefused] at h
      cases h
  · rintro ⟨filler, suffix, rfl, hlength⟩
    exact decode_form_encode filler suffix hlength

theorem decode_eq_error_iff : decode wire = .error e ↔ Refused wire e := by
  apply FramingError.eq_error_iff_of_reasons fun _ => decode_of_refused
  obtain ⟨header, raw, filler, suffix, rfl, hlength⟩ | hrefused := frame_or_refused wire
  · exact .inl ⟨_, decode_form_encode filler suffix hlength⟩
  · exact .inr hrefused

theorem decode_encode_append_iff (suffix : Bytes) :
    decode (encode header raw ++ suffix) = .ok (header, raw) ↔
      raw.length = header.length.toNat := by
  constructor
  · intro h
    obtain ⟨-, -, -, hlength⟩ := decode_eq_ok_iff.1 h
    exact hlength
  · intro hlength
    exact decode_encode_append hlength.symm suffix

/-- Reading a frame accepts exactly the byte strings that begin with one: a header with any
second byte, and the written form of as many raw bytes as the header says.  What stands behind
has no part in it.  Each refusal is reported as what is the matter, and a frame that was written
is read back. -/
theorem decode_accepts_frames (wire : Bytes) :
    (∀ header raw, decode wire = .ok (header, raw) ↔
      ∃ (filler : UInt8) (suffix : Bytes),
        wire = header.form filler ++ (Escape.encode raw ++ suffix) ∧
          raw.length = header.length.toNat) ∧
      (∀ e, decode wire = .error e ↔ Refused wire e) ∧
      ∀ header raw, decode (encode header raw ++ wire) = .ok (header, raw) ↔
        raw.length = header.length.toNat :=
  ⟨fun _ _ => decode_eq_ok_iff, fun _ => decode_eq_error_iff,
    fun _ _ => decode_encode_append_iff wire⟩

example : decode ([0x63, 0xff, 0x34, 0x12, 2, 0] ++ [0x27, 0x01, 5] ++ [0x27, 9]) =
    .ok (⟨0x1234, 2⟩, [0x27, 5]) := by rfl

end Sync

end SpiBridge
