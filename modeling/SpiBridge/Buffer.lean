import SpiBridge.FramingError
/-!
# Bounded buffers

A buffer is one block of bytes of fixed size, filled from the front and read
from the front.  It is kept as three stretches of that block: the bytes already
read, those still to be read, and the spare bytes behind them.  Emptying a
buffer leaves the block as it is, so the spare bytes show what was there before.

Main statements: what each operation does to the filled bytes, and that no
operation changes the capacity.
-/

namespace SpiBridge

/-- A block of bytes, cut where reading and where filling have arrived. -/
structure Buffer where
  passed : Bytes
  unread : Bytes
  spare : Bytes
  deriving DecidableEq, Repr

namespace Buffer

def ofCapacity (capacity : Nat) : Buffer :=
  ⟨[], [], List.replicate capacity 0⟩

def filled (b : Buffer) : Bytes :=
  b.passed ++ b.unread

def length (b : Buffer) : Nat :=
  b.passed.length + b.unread.length

def cursor (b : Buffer) : Nat :=
  b.passed.length

def remaining (b : Buffer) : Nat :=
  b.spare.length

def capacity (b : Buffer) : Nat :=
  b.length + b.remaining

def isEmpty (b : Buffer) : Bool :=
  b.length == 0

def overflow (b : Buffer) (requested : Nat) : FramingError :=
  .overflow requested b.remaining b.capacity

def append (b : Buffer) (bytes : Bytes) : Except FramingError Buffer :=
  if bytes.length ≤ b.remaining then
    .ok { b with unread := b.unread ++ bytes, spare := b.spare.drop bytes.length }
  else
    .error (b.overflow bytes.length)

def push (b : Buffer) (byte : UInt8) : Except FramingError Buffer :=
  b.append [byte]

/-- Lends the next spare bytes, with what the block holds there. -/
def lend (b : Buffer) (count : Nat) : Except FramingError Bytes :=
  if count ≤ b.remaining then .ok (b.spare.take count) else .error (b.overflow count)

def overwrite (b : Buffer) (bytes : Bytes) : Buffer :=
  { b with spare := bytes.take b.remaining ++ b.spare.drop bytes.length }

/-- Counts the next spare bytes as filled, as far as they reach. -/
def commit (b : Buffer) (count : Nat) : Buffer :=
  { b with unread := b.unread ++ b.spare.take count, spare := b.spare.drop count }

/-- Takes in bytes that were delivered into lent room. -/
def receive (b : Buffer) (bytes : Bytes) : Buffer :=
  (b.overwrite bytes).commit bytes.length

def next? (b : Buffer) : Option (UInt8 × Buffer) :=
  match b.unread with
  | [] => none
  | byte :: rest => some (byte, { b with passed := b.passed ++ [byte], unread := rest })

def advance (b : Buffer) (count : Nat) : Buffer :=
  { b with passed := b.passed ++ b.unread.take count, unread := b.unread.drop count }

/-- Forgets the filled bytes and leaves the block as it is. -/
def reset (b : Buffer) : Buffer :=
  ⟨[], [], b.passed ++ b.unread ++ b.spare⟩

@[simp] theorem length_filled (b : Buffer) : b.filled.length = b.length := by
  simp [filled, length]

theorem append_eq_ok {b : Buffer} {bytes : Bytes} (h : bytes.length ≤ b.remaining) :
    b.append bytes =
      .ok { b with unread := b.unread ++ bytes, spare := b.spare.drop bytes.length } := by
  simp [append, h]

theorem append_eq_error {b : Buffer} {bytes : Bytes} (h : b.remaining < bytes.length) :
    b.append bytes = .error (b.overflow bytes.length) := by
  simp [append, Nat.not_le.2 h]

theorem append_of_le (b : Buffer) (bytes : Bytes) (h : bytes.length ≤ b.remaining) :
    ∃ b', b.append bytes = .ok b' :=
  ⟨_, append_eq_ok h⟩

theorem append_append_of_append {b b' : Buffer} {front back : Bytes}
    (h : b.append front = .ok b') (hroom : back.length ≤ b'.remaining) :
    b.append (front ++ back) = b'.append back := by
  unfold append at h
  split at h <;> simp at h
  subst h
  simp only [remaining, List.length_drop] at *
  rw [append_eq_ok (by simp only [List.length_append, remaining]; omega),
    append_eq_ok (by simp only [remaining, List.length_drop]; omega)]
  simp

theorem filled_of_append {b b' : Buffer} {bytes : Bytes} (h : b.append bytes = .ok b') :
    b'.filled = b.filled ++ bytes := by
  unfold append at h
  split at h <;> simp at h
  subst h
  simp [filled]

theorem capacity_of_append {b b' : Buffer} {bytes : Bytes} (h : b.append bytes = .ok b') :
    b'.capacity = b.capacity := by
  unfold append at h
  split at h <;> simp at h
  subst h
  simp only [remaining, capacity, length, List.length_append, List.length_drop] at *
  omega

theorem remaining_of_append {b b' : Buffer} {bytes : Bytes} (h : b.append bytes = .ok b') :
    b'.remaining + bytes.length = b.remaining := by
  unfold append at h
  split at h <;> simp at h
  subst h
  simp only [remaining, List.length_drop] at *
  omega

@[simp] theorem filled_advance (b : Buffer) (count : Nat) :
    (b.advance count).filled = b.filled := by
  simp [filled, advance]

@[simp] theorem capacity_advance (b : Buffer) (count : Nat) :
    (b.advance count).capacity = b.capacity := by
  simp only [capacity, length, remaining, advance, List.length_append, List.length_take,
    List.length_drop]
  omega

@[simp] theorem filled_reset (b : Buffer) : b.reset.filled = [] := rfl

@[simp] theorem capacity_reset (b : Buffer) : b.reset.capacity = b.capacity := by
  simp only [capacity, length, remaining, reset, List.length_append, List.length_nil]
  omega

@[simp] theorem remaining_reset (b : Buffer) : b.reset.remaining = b.capacity := by
  simp [capacity, length, remaining, reset, Nat.add_assoc]

@[simp] theorem filled_overwrite (b : Buffer) (bytes : Bytes) :
    (b.overwrite bytes).filled = b.filled := rfl

@[simp] theorem capacity_overwrite (b : Buffer) (bytes : Bytes) :
    (b.overwrite bytes).capacity = b.capacity := by
  simp only [overwrite, capacity, length, remaining, List.length_append, List.length_take,
    List.length_drop]
  omega

theorem filled_commit (b : Buffer) (count : Nat) :
    (b.commit count).filled = b.filled ++ b.spare.take count := by
  simp [filled, commit]

@[simp] theorem capacity_commit (b : Buffer) (count : Nat) :
    (b.commit count).capacity = b.capacity := by
  simp only [commit, capacity, length, remaining, List.length_append, List.length_take,
    List.length_drop]
  omega

theorem filled_receive {b : Buffer} {bytes : Bytes} (h : bytes.length ≤ b.remaining) :
    (b.receive bytes).filled = b.filled ++ bytes := by
  simp [receive, overwrite, commit, filled, List.take_of_length_le h]

@[simp] theorem capacity_receive (b : Buffer) (bytes : Bytes) :
    (b.receive bytes).capacity = b.capacity := by
  simp [receive]

@[simp] theorem capacity_ofCapacity (capacity : Nat) :
    (ofCapacity capacity).capacity = capacity := by
  simp [ofCapacity, Buffer.capacity, length, remaining]

end Buffer

end SpiBridge
