import SpiBridge.Proofs.Block
import SpiBridge.Proofs.WrittenForm
import SpiBridge.Sync.Frame
/-!
# Writing frames into buffers

A frame goes into a buffer in two pieces, the header and then the raw bytes in escaped form.
Each piece is asked room for before its first byte is written, so the buffer gets the whole
frame, its header alone, or nothing.

Main statement: which of the three it gets, by the room that there is.  What it gets is what is
written where there is no bound, and no byte of a piece is refused once there is room for it.
-/

namespace SpiBridge

theorem Sync.encodeInto_eq (written : Bytes) (header : Header) (raw : Bytes) :
    encodeInto written header raw = written ++ encode header raw := by
  rw [encodeInto, Escape.encodeInto_eq, List.append_assoc]
  rfl

def Block.appendSync? (k : Block) (header : Sync.Header) (raw : Bytes) :
    Option (Upshot × Block) := do
  match ← k.append? header.toBytes with
  | (.error e, k) => return (.error e, k)
  | (.ok _, k) => k.appendEscaped? raw

namespace Buffer

variable {b b' : Buffer} {raw : Bytes}

/-! ## The escaped form -/

theorem grows_of_appendEscaped (h : b.appendEscaped raw = .ok b') :
    b.Grows (Escape.encode raw) b' := by
  rw [appendEscaped_eq_append] at h
  exact grows_of_append h

theorem appendEscaped_of_le (h : Escape.encodedLength raw ≤ b.remaining) :
    ∃ b', b.appendEscaped raw = .ok b' := by
  rw [appendEscaped_eq_append]
  exact b.append_of_le _ (by rwa [Escape.length_encode])

theorem appendEscaped_eq_error (h : b.remaining < Escape.encodedLength raw) :
    b.appendEscaped raw = .error (b.overflow (Escape.encodedLength raw)) := by
  rw [appendEscaped, if_neg (Nat.not_le.2 h)]

theorem push_of_encodedLength_le {front back : Bytes} {byte : UInt8}
    (h : Escape.encodedLength (front ++ byte :: back) ≤ b.remaining) :
    ∃ b₁ b₂, b.pushEscaped front = .ok b₁ ∧ b₁.push byte = .ok b₂ ∧
      (byte = Escape.mark → ∃ b₃, b₂.push Escape.follower = .ok b₃) := by
  rw [← Escape.length_encode, Escape.encode_append, List.length_append, Escape.encode_cons,
    List.length_append] at h
  obtain ⟨b₁, hfront⟩ := b.append_of_le (Escape.encode front) (by omega)
  have hroom₁ := remaining_of_append hfront
  have hone : [byte].length ≤ b₁.remaining := by
    rw [List.length_singleton]
    split at h <;> simp only [List.length_cons, List.length_nil] at h <;> omega
  obtain ⟨b₂, hbyte⟩ := b₁.append_of_le [byte] hone
  have hroom₂ := remaining_of_append hbyte
  refine ⟨b₁, b₂, ?_, hbyte, ?_⟩
  · rw [pushEscaped_eq_append (by omega), hfront]
  · intro hmark
    rw [if_pos hmark] at h
    apply b₂.append_of_le
    simp only [List.length_cons, List.length_nil] at *
    omega

/-! ## The frame -/

theorem appendSync_of_le (header : Sync.Header)
    (hroom : Sync.Header.size + Escape.encodedLength raw ≤ b.remaining) :
    ∃ b', b.appendSync header raw = (.ok (), b') ∧ b.Grows (Sync.encode header raw) b' := by
  have hsize := Sync.Header.length_toBytes header
  obtain ⟨b₁, hfirst⟩ := b.append_of_le header.toBytes (by omega)
  have hleft := remaining_of_append hfirst
  obtain ⟨b₂, hbody⟩ := @appendEscaped_of_le b₁ raw (by omega)
  refine ⟨b₂, ?_, (grows_of_append hfirst).trans (grows_of_appendEscaped hbody)⟩
  simp only [appendSync, hfirst, hbody]

theorem appendSync_of_lt (header : Sync.Header) (raw : Bytes)
    (hroom : b.remaining < Sync.Header.size) :
    b.appendSync header raw =
      (.error (.overflow Sync.Header.size b.remaining b.capacity), b) := by
  have hsize := Sync.Header.length_toBytes header
  rw [appendSync, append_eq_error (by omega), hsize]
  rfl

theorem appendSync_of_header (header : Sync.Header) (hheader : Sync.Header.size ≤ b.remaining)
    (hroom : b.remaining < Sync.Header.size + Escape.encodedLength raw) :
    ∃ b', b.appendSync header raw = (.error (.overflow (Escape.encodedLength raw)
        (b.remaining - Sync.Header.size) b.capacity), b') ∧
      b.Grows header.toBytes b' := by
  have hsize := Sync.Header.length_toBytes header
  obtain ⟨b₁, hfirst⟩ := b.append_of_le header.toBytes (by omega)
  have hgrows := grows_of_append hfirst
  have hleft := remaining_of_append hfirst
  have hrest : b₁.remaining = b.remaining - Sync.Header.size := by omega
  have hbody := @appendEscaped_eq_error b₁ raw (by omega)
  refine ⟨b₁, ?_, hgrows⟩
  simp only [appendSync, hfirst, hbody, overflow, hrest, hgrows.capacity]

theorem appendSync?_block (b : Buffer) (header : Sync.Header) (raw : Bytes) :
    b.block.appendSync? header raw =
      some ((b.appendSync header raw).1.map fun _ => none, (b.appendSync header raw).2.block) := by
  have hfirst := append?_block b header.toBytes
  rcases happend : b.append header.toBytes with e | b₁ <;> rw [happend] at hfirst
  · simp only [Block.appendSync?, hfirst, appendSync, happend]
    rfl
  · have hbody := appendEscaped?_block b₁ raw
    rcases hescaped : b₁.appendEscaped raw with e | b₂ <;> rw [hescaped] at hbody <;>
      simp only [Block.appendSync?, hfirst, appendSync, happend, settle, bind, Option.bind, hbody,
        hescaped] <;>
      rfl

/-- A frame is written whole, or its header alone, or nothing, by the room that there is. -/
structure WritesFrame (b : Buffer) (header : Sync.Header) (raw : Bytes) : Prop where
  whole : Sync.Header.size + Escape.encodedLength raw ≤ b.remaining →
    ∃ b', b.appendSync header raw = (.ok (), b') ∧ b.Grows (Sync.encode header raw) b'
  headerOnly : Sync.Header.size ≤ b.remaining →
    b.remaining < Sync.Header.size + Escape.encodedLength raw →
    ∃ b', b.appendSync header raw = (.error (.overflow (Escape.encodedLength raw)
        (b.remaining - Sync.Header.size) b.capacity), b') ∧
      b.Grows header.toBytes b'
  nothing : b.remaining < Sync.Header.size →
    b.appendSync header raw =
      (.error (.overflow Sync.Header.size b.remaining b.capacity), b)

structure WritesForm (b : Buffer) (raw : Bytes) : Prop where
  whole : Escape.encodedLength raw ≤ b.remaining →
    ∃ b', b.appendEscaped raw = .ok b' ∧ b.Grows (Escape.encode raw) b'
  pushes : Escape.encodedLength raw ≤ b.remaining →
    ∀ front byte back, raw = front ++ byte :: back →
      ∃ b₁ b₂, b.pushEscaped front = .ok b₁ ∧ b₁.push byte = .ok b₂ ∧
        (byte = Escape.mark → ∃ b₃, b₂.push Escape.follower = .ok b₃)
  nothing : b.remaining < Escape.encodedLength raw →
    b.settle (b.appendEscaped raw) =
      (.error (.overflow (Escape.encodedLength raw) b.remaining b.capacity), b)

theorem writesFrame (b : Buffer) (header : Sync.Header) (raw : Bytes) :
    b.WritesFrame header raw :=
  ⟨appendSync_of_le header, appendSync_of_header header, appendSync_of_lt header raw⟩

theorem writesForm (b : Buffer) (raw : Bytes) : b.WritesForm raw := by
  constructor
  case whole =>
    intro hroom
    obtain ⟨b', hdone⟩ := appendEscaped_of_le hroom
    exact ⟨b', hdone, grows_of_appendEscaped hdone⟩
  case pushes =>
    rintro hroom front byte back rfl
    exact push_of_encodedLength_le hroom
  case nothing =>
    intro hroom
    rw [appendEscaped_eq_error hroom]
    rfl

/-- Into any buffer, frames and escaped forms are written by the room that there is, behind what
the buffer held; what is written is what would stand behind anything where there is no bound; and
at the positions of one block, all of them inside, the same is written. -/
theorem writes_by_room (b : Buffer) (header : Sync.Header) (raw : Bytes) :
    b.WritesFrame header raw ∧ b.WritesForm raw ∧
      (∀ written, Sync.encodeInto written header raw = written ++ Sync.encode header raw ∧
        Escape.encodeInto written raw = written ++ Escape.encode raw) ∧
      b.block.appendSync? header raw =
        some ((b.appendSync header raw).1.map fun _ => none,
          (b.appendSync header raw).2.block) ∧
      b.block.appendEscaped? raw =
        some ((b.settle (b.appendEscaped raw)).1, (b.settle (b.appendEscaped raw)).2.block) := by
  refine ⟨b.writesFrame header raw, b.writesForm raw, ?_, appendSync?_block b header raw,
    appendEscaped?_block b raw⟩
  intro written
  exact ⟨Sync.encodeInto_eq written header raw, Escape.encodeInto_eq written raw⟩

/-- Nine bytes of room are enough for a frame of a mark and another byte, eight are enough for
its header, five are not; three are enough for the escaped form, two are not. -/
theorem writes_by_room_of_mark :
    let header : Sync.Header := ⟨0x8001, 2⟩
    let raw : Bytes := [Escape.mark, 5]
    let held : Nat → Buffer := fun room => ⟨[1], [2], List.replicate room 0⟩
    (∃ b', (held 9).appendSync header raw = (.ok (), b') ∧
        b'.filled = [1, 2, 0x63, 0, 0x01, 0x80, 2, 0, 0x27, 0x01, 5] ∧ b'.cursor = 1) ∧
      (∃ b', (held 8).appendSync header raw = (.error (.overflow 3 2 10), b') ∧
        b'.filled = [1, 2, 0x63, 0, 0x01, 0x80, 2, 0] ∧ b'.cursor = 1) ∧
      (held 5).appendSync header raw = (.error (.overflow 6 5 7), held 5) ∧
      (∃ b', (held 3).appendEscaped raw = .ok b' ∧ b'.filled = [1, 2, 0x27, 0x01, 5]) ∧
      (held 2).settle ((held 2).appendEscaped raw) = (.error (.overflow 3 2 4), held 2) := by
  intro header raw held
  obtain ⟨b₉, hframe, hgrows₉⟩ := (writes_by_room (held 9) header raw).1.whole (by decide)
  obtain ⟨b₈, hheader, hgrows₈⟩ :=
    (writes_by_room (held 8) header raw).1.headerOnly (by decide) (by decide)
  have hnothing := (writes_by_room (held 5) header raw).1.nothing (by decide)
  obtain ⟨b₃, hform, hgrows₃⟩ := (writes_by_room (held 3) header raw).2.1.whole (by decide)
  have hrefused := (writes_by_room (held 2) header raw).2.1.nothing (by decide)
  refine ⟨⟨b₉, hframe, ?_, hgrows₉.cursor⟩, ⟨b₈, hheader, ?_, hgrows₈.cursor⟩, hnothing,
    ⟨b₃, hform, ?_⟩, hrefused⟩
  · exact hgrows₉.filled.trans (by decide)
  · exact hgrows₈.filled.trans (by decide)
  · exact hgrows₃.filled.trans (by decide)

end Buffer

end SpiBridge
