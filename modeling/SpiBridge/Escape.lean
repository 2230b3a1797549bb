import SpiBridge.Buffer
/-!
# Escaping

On the serial bus one byte value marks an escape.  A raw byte of that value is
sent as the mark and a follower; every other byte is sent as it is.  This module
holds the written form of a byte string, a decoder that takes the written form
byte by byte, and writing into a bounded buffer.

Main statements: the length of the written form, that a decoder fed with a
written form gives the raw bytes back, and that writing into a buffer appends the
written form.
-/

namespace SpiBridge

namespace Escape

def mark : UInt8 := 0x27

def follower : UInt8 := 0x01

/-- The written form: each mark is followed by the follower. -/
def encode : Bytes → Bytes
  | [] => []
  | byte :: rest =>
    if byte = mark then mark :: follower :: encode rest else byte :: encode rest

def encodeInto (written : Bytes) : Bytes → Bytes
  | [] => written
  | byte :: rest =>
    let written := written ++ [byte]
    encodeInto (if byte = mark then written ++ [follower] else written) rest

def encodedLength (raw : Bytes) : Nat :=
  raw.length + raw.count mark

/-- A decoder between two bytes: it knows whether a mark waits for its follower. -/
structure Decoder where
  pending : Bool := false
  deriving DecidableEq, Repr

namespace Decoder

def feed (d : Decoder) (byte : UInt8) : Except FramingError (Option UInt8) × Decoder :=
  if d.pending then
    (if byte = follower then .ok (some mark) else .error .danglingEscape, ⟨false⟩)
  else if byte = mark then
    (.ok none, ⟨true⟩)
  else
    (.ok (some byte), ⟨false⟩)

def finish (d : Decoder) : Except FramingError Unit :=
  if d.pending then .error .danglingEscape else .ok ()

/-- What came of feeding bytes: the raw bytes, the failure that stopped it, the decoder. -/
structure Fed where
  raw : Bytes := []
  failure : Option FramingError := none
  decoder : Decoder
  deriving DecidableEq, Repr

def Fed.withByte (byte : Option UInt8) (f : Fed) : Fed :=
  { f with raw := byte.toList ++ f.raw }

def feedAll (d : Decoder) : Bytes → Fed
  | [] => { decoder := d }
  | byte :: rest =>
    match d.feed byte with
    | (.error e, d) => { failure := some e, decoder := d }
    | (.ok out, d) => (d.feedAll rest).withByte out

/-- Feeds bytes up to the first failure, and none once `limit` raw bytes came out. -/
def feedUpTo (d : Decoder) : Nat → Bytes → Fed
  | 0, _ | _ + 1, [] => { decoder := d }
  | limit + 1, byte :: rest =>
    match d.feed byte with
    | (.error e, d) => { failure := some e, decoder := d }
    | (.ok none, d) => d.feedUpTo (limit + 1) rest
    | (.ok (some out), d) => (d.feedUpTo limit rest).withByte (some out)

def Fed.finish (f : Fed) : Except FramingError Bytes :=
  match f.failure with
  | some e => .error e
  | none => f.decoder.finish.map fun _ => f.raw

end Decoder

def decode (wire : Bytes) : Except FramingError Bytes :=
  ((Decoder.mk false).feedAll wire).finish

@[simp] theorem encode_nil : encode [] = [] := rfl

theorem encode_cons (byte : UInt8) (rest : Bytes) :
    encode (byte :: rest) =
      (if byte = mark then [mark, follower] else [byte]) ++ encode rest := by
  simp only [encode]
  split <;> rfl

theorem encode_append (a b : Bytes) : encode (a ++ b) = encode a ++ encode b := by
  induction a with
  | nil => rfl
  | cons byte rest ih => simp [encode_cons, ih]

theorem encodedLength_cons (byte : UInt8) (rest : Bytes) :
    encodedLength (byte :: rest) = (if byte = mark then 2 else 1) + encodedLength rest := by
  simp only [encodedLength, List.length_cons, List.count_cons, beq_iff_eq]
  split <;> omega

theorem length_encode (raw : Bytes) : (encode raw).length = encodedLength raw := by
  induction raw with
  | nil => rfl
  | cons byte rest ih =>
    rw [encode_cons, encodedLength_cons, List.length_append, ih]
    split <;> rfl

theorem encodedLength_le (raw : Bytes) : encodedLength raw ≤ 2 * raw.length := by
  have hcount := List.count_le_length (a := mark) (l := raw)
  unfold encodedLength
  omega

theorem feedAll_encode (raw rest : Bytes) :
    (Decoder.mk false).feedAll (encode raw ++ rest) =
      { (Decoder.mk false).feedAll rest with
        raw := raw ++ ((Decoder.mk false).feedAll rest).raw } := by
  induction raw with
  | nil => rfl
  | cons byte tail ih =>
    by_cases h : byte = mark
    · subst h
      simp [encode, Decoder.feedAll, Decoder.feed, ih, Decoder.Fed.withByte]
    · simp [encode, Decoder.feedAll, Decoder.feed, ih, Decoder.Fed.withByte, h]

theorem decode_encode (raw : Bytes) : decode (encode raw) = .ok raw := by
  have h := feedAll_encode raw []
  rw [List.append_nil] at h
  rw [decode, h]
  simp [Decoder.feedAll, Decoder.Fed.finish, Decoder.finish, Except.map]

end Escape

namespace Buffer

def pushEscaped (b : Buffer) : Bytes → Except FramingError Buffer
  | [] => .ok b
  | byte :: rest =>
    if byte = Escape.mark then do
      let b ← b.push Escape.mark
      let b ← b.push Escape.follower
      b.pushEscaped rest
    else do
      let b ← b.push byte
      b.pushEscaped rest

/-- Writes the written form of a byte string, all of it or nothing. -/
def appendEscaped (b : Buffer) (raw : Bytes) : Except FramingError Buffer :=
  if Escape.encodedLength raw ≤ b.remaining then
    b.pushEscaped raw
  else
    .error (b.overflow (Escape.encodedLength raw))

theorem pushEscaped_eq_append {b : Buffer} {raw : Bytes}
    (h : (Escape.encode raw).length ≤ b.remaining) :
    b.pushEscaped raw = b.append (Escape.encode raw) := by
  induction raw generalizing b with
  | nil => simp [pushEscaped, append]
  | cons byte rest ih =>
    by_cases hbyte : byte = Escape.mark
    · subst hbyte
      have hform : Escape.encode (Escape.mark :: rest) =
          [Escape.mark] ++ ([Escape.follower] ++ Escape.encode rest) := rfl
      rw [hform, List.length_append, List.length_append] at h
      obtain ⟨b₁, h₁⟩ := append_of_le b [Escape.mark] (by omega)
      have hroom₁ := remaining_of_append h₁
      obtain ⟨b₂, h₂⟩ := append_of_le b₁ [Escape.follower] (by omega)
      have hroom₂ := remaining_of_append h₂
      rw [hform, append_append_of_append h₁ (by rw [List.length_append]; omega),
        append_append_of_append h₂ (by omega), ← ih (by omega)]
      simp only [pushEscaped, if_true, push, h₁, h₂, bind, Except.bind]
    · have hform : Escape.encode (byte :: rest) = [byte] ++ Escape.encode rest := by
        simp [Escape.encode_cons, hbyte]
      rw [hform, List.length_append] at h
      obtain ⟨b₁, h₁⟩ := append_of_le b [byte] (by omega)
      have hroom₁ := remaining_of_append h₁
      rw [hform, append_append_of_append h₁ (by omega), ← ih (by omega)]
      simp only [pushEscaped, hbyte, if_false, push, h₁, bind, Except.bind]

theorem appendEscaped_eq_append (b : Buffer) (raw : Bytes) :
    b.appendEscaped raw = b.append (Escape.encode raw) := by
  unfold appendEscaped
  rw [← Escape.length_encode]
  split
  · rename_i h
    exact pushEscaped_eq_append h
  · rename_i h
    rw [append_eq_error (Nat.not_le.1 h)]

end Buffer

end SpiBridge
