import SpiBridge.Escape
import SpiBridge.Proofs.Buffer
/-!
# Buffers in one block

In memory a buffer is one block of bytes with two positions in it: how far it is filled and how
far it has been read.  Every access goes by a position, so it could fall outside the block; an
operation that comes upon such an access has no result.  What was written before a refusal
stays written.

Main statement: carried out on the block of a buffer, each operation has a result, and it is
that of the operation on the buffer.
-/

namespace SpiBridge

/-- A block of bytes with the two positions of a buffer in it. -/
structure Block where
  bytes : Bytes
  length : Nat
  cursor : Nat
  deriving DecidableEq, Repr

abbrev Upshot := Except FramingError (Option UInt8)

namespace Block

def ofCapacity (capacity : Nat) : Block :=
  ⟨List.replicate capacity 0, 0, 0⟩

def capacity (k : Block) : Nat :=
  k.bytes.length

def remaining (k : Block) : Nat :=
  k.bytes.length - k.length

def slice? (k : Block) (first last : Nat) : Option Bytes :=
  if first ≤ last ∧ last ≤ k.bytes.length then some ((k.bytes.take last).drop first) else none

def overwrite? (k : Block) (first : Nat) (new : Bytes) : Option Block :=
  if first + new.length ≤ k.bytes.length then
    some { k with bytes := k.bytes.take first ++ (new ++ k.bytes.drop (first + new.length)) }
  else
    none

def filled? (k : Block) : Option Bytes :=
  k.slice? 0 k.length

def unread? (k : Block) : Option Bytes :=
  k.slice? k.cursor k.length

def ensureRoom (k : Block) (requested : Nat) : Except FramingError Unit :=
  if k.remaining < requested then .error (.overflow requested k.remaining k.capacity) else .ok ()

def append? (k : Block) (new : Bytes) : Option (Upshot × Block) :=
  match k.ensureRoom new.length with
  | .error e => some (.error e, k)
  | .ok () => do
    let k ← k.overwrite? k.length new
    return (.ok none, { k with length := k.length + new.length })

/-- Lends the next bytes of the block; the borrower puts `room` there and counts the first of
them as filled, not more than there are. -/
def fill? (k : Block) (room : Bytes) (count : Nat) : Option (Upshot × Block) :=
  match k.ensureRoom room.length with
  | .error e => some (.error e, k)
  | .ok () => do
    let _ ← k.slice? k.length (k.length + room.length)
    let k ← k.overwrite? k.length room
    if count ≤ k.remaining then
      return (.ok none, { k with length := k.length + min count k.remaining })
    else
      none

def next? (k : Block) : Option (Upshot × Block) :=
  if k.cursor < k.length then do
    let byte ← k.bytes[k.cursor]?
    return (.ok (some byte), { k with cursor := k.cursor + 1 })
  else
    some (.ok none, k)

def advance? (k : Block) (count : Nat) : Option (Upshot × Block) :=
  if k.cursor + count < UInt64.size then
    some (.ok none, { k with cursor := min (k.cursor + count) k.length })
  else
    none

def reset (k : Block) : Block :=
  { k with length := 0, cursor := 0 }

def pushEscaped? (k : Block) : Bytes → Option (Upshot × Block)
  | [] => some (.ok none, k)
  | byte :: rest => do
    match ← k.append? [byte] with
    | (.error e, k) => return (.error e, k)
    | (.ok _, k) =>
      if byte = Escape.mark then
        match ← k.append? [Escape.follower] with
        | (.error e, k) => return (.error e, k)
        | (.ok _, k) => k.pushEscaped? rest
      else
        k.pushEscaped? rest

def appendEscaped? (k : Block) (raw : Bytes) : Option (Upshot × Block) :=
  match k.ensureRoom (Escape.encodedLength raw) with
  | .error e => some (.error e, k)
  | .ok () => k.pushEscaped? raw

end Block

namespace Buffer

variable {b b' : Buffer} {bytes raw : Bytes} {count : Nat}

def block (b : Buffer) : Block :=
  ⟨b.passed ++ (b.unread ++ b.spare), b.length, b.cursor⟩

/-- What an operation in place leaves: if it was refused, the buffer as it was. -/
def settle (b : Buffer) : Except FramingError Buffer → Upshot × Buffer
  | .ok b' => (.ok none, b')
  | .error e => (.error e, b)

@[simp] theorem length_bytes_block (b : Buffer) : b.block.bytes.length = b.capacity := by
  simp only [block, capacity, length, remaining, List.length_append]
  omega

@[simp] theorem length_block (b : Buffer) : b.block.length = b.length := rfl

@[simp] theorem cursor_block (b : Buffer) : b.block.cursor = b.cursor := rfl

theorem cursor_le_length (b : Buffer) : b.cursor ≤ b.length :=
  Nat.le_add_right _ _

theorem length_le_capacity (b : Buffer) : b.length ≤ b.capacity :=
  Nat.le_add_right _ _

@[simp] theorem remaining_block (b : Buffer) : b.block.remaining = b.remaining := by
  rw [Block.remaining, length_bytes_block, length_block, capacity]
  omega

theorem block_ofCapacity (capacity : Nat) :
    (ofCapacity capacity).block = Block.ofCapacity capacity := rfl

theorem block_reset (b : Buffer) : b.reset.block = b.block.reset := by
  simp only [block, reset, Block.reset, List.nil_append, List.append_assoc]
  rfl

theorem take_length_block (b : Buffer) : b.block.bytes.take b.length = b.filled := by
  rw [block, ← List.append_assoc, ← length_filled]
  exact List.take_left

theorem drop_length_block (b : Buffer) : b.block.bytes.drop b.length = b.spare := by
  rw [block, ← List.append_assoc, ← length_filled]
  exact List.drop_left

/-! ## Reading by position -/

theorem filled?_block (b : Buffer) : b.block.filled? = some b.filled := by
  have hbounds : 0 ≤ b.length ∧ b.length ≤ b.block.bytes.length := by
    rw [length_bytes_block]
    exact ⟨Nat.zero_le _, b.length_le_capacity⟩
  rw [Block.filled?, Block.slice?, length_block, if_pos hbounds, take_length_block,
    List.drop_zero]

theorem drop_cursor_filled (b : Buffer) : b.filled.drop b.cursor = b.unread :=
  List.drop_left

theorem take_cursor_filled (b : Buffer) : b.filled.take b.cursor = b.passed :=
  List.take_left

theorem unread?_block (b : Buffer) : b.block.unread? = some b.unread := by
  have hbounds : b.cursor ≤ b.length ∧ b.length ≤ b.block.bytes.length := by
    rw [length_bytes_block]
    exact ⟨b.cursor_le_length, b.length_le_capacity⟩
  rw [Block.unread?, Block.slice?, length_block, cursor_block, if_pos hbounds,
    take_length_block, drop_cursor_filled]

/-! ## Writing by position -/

theorem ensureRoom_of_le (h : count ≤ b.remaining) : b.block.ensureRoom count = .ok () := by
  rw [Block.ensureRoom, remaining_block]
  exact if_neg (Nat.not_lt.2 h)

theorem ensureRoom_of_lt (h : b.remaining < count) :
    b.block.ensureRoom count = .error (b.overflow count) := by
  rw [Block.ensureRoom, remaining_block, if_pos h, Block.capacity, length_bytes_block]
  rfl

theorem overwrite?_block (h : bytes.length ≤ b.remaining) :
    b.block.overwrite? b.length bytes = some (b.overwrite bytes).block := by
  have hbounds : b.length + bytes.length ≤ b.block.bytes.length := by
    rw [length_bytes_block, capacity]
    omega
  rw [Block.overwrite?, if_pos hbounds, take_length_block, ← List.drop_drop, drop_length_block]
  simp only [overwrite, block, filled, List.take_of_length_le h, List.append_assoc]
  rfl

theorem append?_block (b : Buffer) (bytes : Bytes) :
    b.block.append? bytes =
      some ((b.settle (b.append bytes)).1, (b.settle (b.append bytes)).2.block) := by
  by_cases h : bytes.length ≤ b.remaining
  · rw [Block.append?, ensureRoom_of_le h, length_block, overwrite?_block h, append_eq_ok h]
    simp [settle, overwrite, block, List.take_of_length_le h, length, cursor, Nat.add_assoc]
  · rw [Block.append?, ensureRoom_of_lt (Nat.not_le.1 h), append_eq_error (Nat.not_le.1 h)]
    rfl

theorem block_commit (b : Buffer) (count : Nat) :
    (b.commit count).block = { b.block with length := b.length + min count b.remaining } := by
  simp only [commit, block, length, cursor, remaining, List.append_assoc,
    List.take_append_drop, List.length_append, List.length_take, Nat.add_assoc]

theorem fill?_block (b : Buffer) {room : Bytes} (hcount : count ≤ room.length) :
    let filled := b.settle ((b.lend room.length).map fun _ => (b.overwrite room).commit count)
    b.block.fill? room count = some (filled.1, filled.2.block) := by
  by_cases h : room.length ≤ b.remaining
  · have hslice : b.length ≤ b.length + room.length ∧
        b.length + room.length ≤ b.block.bytes.length := by
      rw [length_bytes_block, capacity]
      omega
    have hsame : (b.overwrite room).remaining = b.remaining := by
      simp only [overwrite, remaining, List.length_append, List.length_take, List.length_drop] at *
      omega
    have hassert : count ≤ (b.overwrite room).block.remaining := by
      rw [remaining_block, hsame]
      exact Nat.le_trans hcount h
    rw [Block.fill?, ensureRoom_of_le h, length_block, Block.slice?, if_pos hslice,
      overwrite?_block h, lend_of_le h]
    simp only [bind, Option.bind, if_pos hassert]
    simp only [settle, Except.map, block_commit, remaining_block, length_block]
    rfl
  · rw [Block.fill?, ensureRoom_of_lt (Nat.not_le.1 h), lend, if_neg h]
    rfl

theorem block_advance (b : Buffer) (count : Nat) :
    (b.advance count).block = { b.block with cursor := min (b.cursor + count) b.length } := by
  have hbytes : b.unread.take count ++ (b.unread.drop count ++ b.spare) = b.unread ++ b.spare := by
    rw [← List.append_assoc, List.take_append_drop]
  have hlength : b.passed.length + min count b.unread.length +
      (b.unread.length - count) = b.passed.length + b.unread.length := by
    omega
  have hcursor : b.passed.length + min count b.unread.length =
      min (b.passed.length + count) (b.passed.length + b.unread.length) := by
    omega
  simp only [block, advance, length, cursor, List.append_assoc, List.length_append,
    List.length_take, List.length_drop, hbytes, hlength]
  rw [hcursor]

theorem advance?_block (h : b.cursor + count < UInt64.size) :
    b.block.advance? count = some (.ok none, (b.advance count).block) := by
  rw [Block.advance?, cursor_block, if_pos h, length_block, block_advance]
  rfl

theorem next?_block (b : Buffer) :
    b.block.next? = some (.ok b.unread.head?, (b.advance 1).block) := by
  rw [block_advance, Block.next?, cursor_block, length_block]
  rcases hunread : b.unread with _ | ⟨byte, rest⟩
  · have hend : b.length = b.cursor := by
      rw [length, hunread]
      rfl
    rw [if_neg (by omega), hend, Nat.min_eq_right (Nat.le_succ _), ← cursor_block]
    rfl
  · have hmore : b.cursor < b.length := by
      simp only [length, cursor, hunread, List.length_cons]
      omega
    have hbyte : b.block.bytes[b.cursor]? = some byte := by
      rw [block, hunread, cursor, List.getElem?_append_right (Nat.le_refl _)]
      simp
    rw [if_pos hmore, hbyte, Nat.min_eq_left hmore]
    rfl

/-! ## Writing in escaped form -/

theorem exists_pushEscaped (h : Escape.encodedLength raw ≤ b.remaining) :
    ∃ b', b.pushEscaped raw = .ok b' ∧ b.block.pushEscaped? raw = some (.ok none, b'.block) := by
  induction raw generalizing b with
  | nil => exact ⟨b, rfl, rfl⟩
  | cons byte rest ih =>
    rw [Escape.encodedLength_cons] at h
    have hone : [byte].length ≤ b.remaining := by
      rw [List.length_singleton]
      split at h <;> omega
    obtain ⟨b₁, hfirst⟩ := b.append_of_le [byte] hone
    have hroom₁ := remaining_of_append hfirst
    have hblock₁ := append?_block b [byte]
    rw [hfirst] at hblock₁
    by_cases hbyte : byte = Escape.mark
    · rw [if_pos hbyte] at h
      subst hbyte
      obtain ⟨b₂, hsecond⟩ := b₁.append_of_le [Escape.follower]
        (by simp only [List.length_singleton] at *; omega)
      have hroom₂ := remaining_of_append hsecond
      have hblock₂ := append?_block b₁ [Escape.follower]
      rw [hsecond] at hblock₂
      obtain ⟨b', hrest, hblock⟩ := @ih b₂ (by simp only [List.length_singleton] at *; omega)
      refine ⟨b', ?_, ?_⟩
      · simp only [pushEscaped, if_true, push, hfirst, hsecond, bind, Except.bind, hrest]
      · simp only [Block.pushEscaped?, hblock₁, settle, bind, Option.bind, if_true, hblock₂,
          hblock]
    · rw [if_neg hbyte] at h
      obtain ⟨b', hrest, hblock⟩ := @ih b₁ (by simp only [List.length_singleton] at *; omega)
      refine ⟨b', ?_, ?_⟩
      · simp only [pushEscaped, if_neg hbyte, push, hfirst, bind, Except.bind, hrest]
      · simp only [Block.pushEscaped?, hblock₁, settle, bind, Option.bind, if_neg hbyte, hblock]

theorem appendEscaped?_block (b : Buffer) (raw : Bytes) :
    b.block.appendEscaped? raw =
      some ((b.settle (b.appendEscaped raw)).1, (b.settle (b.appendEscaped raw)).2.block) := by
  by_cases h : Escape.encodedLength raw ≤ b.remaining
  · obtain ⟨b', hpush, hblock⟩ := exists_pushEscaped h
    rw [Block.appendEscaped?, ensureRoom_of_le h, appendEscaped, if_pos h, hpush]
    exact hblock
  · rw [Block.appendEscaped?, ensureRoom_of_lt (Nat.not_le.1 h), appendEscaped, if_neg h]
    rfl

end Buffer

end SpiBridge
