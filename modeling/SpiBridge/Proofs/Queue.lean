import SpiBridge.Proofs.Block
/-!
# Buffers as bounded queues

A buffer is filled and read by operations in any order, some of them refused.  What it holds is
what the others have written since it was last emptied, in order, cut where reading has arrived.

Main statement: that, with the bounds and the refusals of each operation, for every sequence of
operations on a buffer of any capacity; and carried out on one block by positions, no operation
of the sequence comes upon a position outside the block.
-/

namespace SpiBridge.Buffer

/-- An operation on a buffer, with what its caller brings.  To fill is to borrow as many spare
bytes as `room` has, to leave `room` there and to count the first of them as filled. -/
inductive Op
  | push (byte : UInt8)
  | append (bytes : Bytes)
  | fill (room : Bytes) (count : Nat) (hcount : count ≤ room.length)
  | next
  | advance (count : Nat)
  | appendEscaped (raw : Bytes)
  | reset

namespace Op

def run (b : Buffer) : Op → Upshot × Buffer
  | push byte => b.settle (b.push byte)
  | append bytes => b.settle (b.append bytes)
  | fill room count _ =>
    b.settle ((b.lend room.length).map fun _ => (b.overwrite room).commit count)
  | next =>
    match b.next? with
    | some (byte, b') => (.ok (some byte), b')
    | none => (.ok none, b)
  | advance count => (.ok none, b.advance count)
  | appendEscaped raw => b.settle (b.appendEscaped raw)
  | reset => (.ok none, b.reset)

def runBlock? (k : Block) : Op → Option (Upshot × Block)
  | push byte => k.append? [byte]
  | append bytes => k.append? bytes
  | fill room count _ => k.fill? room count
  | next => k.next?
  | advance count => k.advance? count
  | appendEscaped raw => k.appendEscaped? raw
  | reset => some (.ok none, k.reset)

def InWord (b : Buffer) : Op → Prop
  | advance count => b.cursor + count < UInt64.size
  | _ => True

instance (b : Buffer) (op : Op) : Decidable (op.InWord b) :=
  match op with
  | advance _ => inferInstanceAs (Decidable (_ < _))
  | push _ | append _ | fill _ _ _ | next | appendEscaped _ | reset =>
    inferInstanceAs (Decidable True)

def asks : Op → Nat
  | push _ => 1
  | append bytes => bytes.length
  | fill room _ _ => room.length
  | appendEscaped raw => Escape.encodedLength raw
  | next | advance _ | reset => 0

def writes : Op → Bytes
  | push byte => [byte]
  | append bytes => bytes
  | fill room count _ => room.take count
  | appendEscaped raw => Escape.encode raw
  | next | advance _ | reset => []

def passes (unread : Bytes) : Op → Bytes
  | next => unread.take 1
  | advance count => unread.take count
  | push _ | append _ | fill _ _ _ | appendEscaped _ | reset => []

def keeps (bytes : Bytes) : Op → Bytes
  | reset => []
  | push _ | append _ | fill _ _ _ | next | advance _ | appendEscaped _ => bytes

variable {b b' : Buffer} {op : Op} {bytes : Bytes}

theorem run_next (b : Buffer) : next.run b = (.ok b.unread.head?, b.advance 1) := by
  rcases b with ⟨passed, _ | ⟨byte, rest⟩, spare⟩
  · simp [run, next?, Buffer.advance]
  · rfl

/-! ## One operation -/

theorem runBlock?_block (h : op.InWord b) :
    op.runBlock? b.block = some ((op.run b).1, (op.run b).2.block) := by
  cases op with
  | push byte => exact append?_block b [byte]
  | append bytes => exact append?_block b bytes
  | fill room count hcount => exact fill?_block b hcount
  | next => rw [run_next]; exact next?_block b
  | advance count => exact advance?_block h
  | appendEscaped raw => exact appendEscaped?_block b raw
  | reset => rw [runBlock?, ← block_reset]; rfl

structure Made (b : Buffer) (op : Op) (taken : Option UInt8) (b' : Buffer) : Prop where
  capacity : b'.capacity = b.capacity
  filled : b'.filled = op.keeps b.filled ++ op.writes
  passed : b'.passed = op.keeps b.passed ++ op.passes b.unread
  taken : taken.toList.Sublist (op.passes b.unread)

theorem made_of_append (h : b.append bytes = .ok b') (hkeeps : ∀ bytes, op.keeps bytes = bytes)
    (hwrites : op.writes = bytes) (hpasses : ∀ unread, op.passes unread = []) :
    Made b op none b' := by
  refine ⟨capacity_of_append h, ?_, ?_, List.nil_sublist _⟩
  · rw [hkeeps, hwrites, filled_of_append h]
  · rw [hkeeps, hpasses, List.append_nil, passed_of_append h]

theorem run_cases (op : Op) (b : Buffer) :
    b.remaining < op.asks ∧ op.run b = (.error (b.overflow op.asks), b) ∨
      op.asks ≤ b.remaining ∧ ∃ taken b', op.run b = (.ok taken, b') ∧ Made b op taken b' := by
  have happend : ∀ bytes, b.remaining < bytes.length ∧
      b.append bytes = .error (b.overflow bytes.length) ∨
      bytes.length ≤ b.remaining ∧ ∃ b', b.append bytes = .ok b' := by
    intro bytes
    by_cases h : bytes.length ≤ b.remaining
    · exact .inr ⟨h, b.append_of_le bytes h⟩
    · exact .inl ⟨Nat.not_le.1 h, append_eq_error (Nat.not_le.1 h)⟩
  cases op with
  | push byte =>
    obtain ⟨h, hrefused⟩ | ⟨h, b', hdone⟩ := happend [byte]
    · exact .inl ⟨h, by simp only [run, Buffer.push, hrefused]; rfl⟩
    · exact .inr ⟨h, none, b', by simp only [run, Buffer.push, hdone]; rfl,
        made_of_append hdone (fun _ => rfl) rfl fun _ => rfl⟩
  | append bytes =>
    obtain ⟨h, hrefused⟩ | ⟨h, b', hdone⟩ := happend bytes
    · exact .inl ⟨h, by simp only [run, hrefused]; rfl⟩
    · exact .inr ⟨h, none, b', by simp only [run, hdone]; rfl,
        made_of_append hdone (fun _ => rfl) rfl fun _ => rfl⟩
  | appendEscaped raw =>
    obtain ⟨h, hrefused⟩ | ⟨h, b', hdone⟩ := happend (Escape.encode raw)
    · rw [Escape.length_encode] at h hrefused
      exact .inl ⟨h, by simp only [run, appendEscaped_eq_append, hrefused]; rfl⟩
    · rw [Escape.length_encode] at h
      exact .inr ⟨h, none, b', by simp only [run, appendEscaped_eq_append, hdone]; rfl,
        made_of_append hdone (fun _ => rfl) rfl fun _ => rfl⟩
  | fill room count hcount =>
    by_cases h : room.length ≤ b.remaining
    · refine .inr ⟨h, none, (b.overwrite room).commit count, ?_, ?_, ?_, ?_, List.nil_sublist _⟩
      · rw [run, lend_of_le h]
        rfl
      · rw [capacity_commit, capacity_overwrite]
      · rw [filled_commit, filled_overwrite]
        simp only [overwrite, keeps, writes, List.take_of_length_le h]
        rw [List.take_append_of_le_length hcount]
      · exact (List.append_nil _).symm
    · refine .inl ⟨Nat.not_le.1 h, ?_⟩
      rw [run, lend, if_neg h]
      rfl
  | next =>
    refine .inr ⟨Nat.zero_le _, b.unread.head?, b.advance 1, run_next b, capacity_advance b 1,
      ?_, rfl, ?_⟩
    · rw [filled_advance]
      exact (List.append_nil _).symm
    · cases b.unread with
      | nil => exact List.nil_sublist _
      | cons byte rest => exact List.Sublist.refl _
  | advance count =>
    refine .inr ⟨Nat.zero_le _, none, b.advance count, rfl, capacity_advance b count, ?_, rfl,
      List.nil_sublist _⟩
    rw [filled_advance]
    exact (List.append_nil _).symm
  | reset => exact .inr ⟨Nat.zero_le _, none, b.reset, rfl, capacity_reset b, rfl, rfl,
      List.nil_sublist _⟩

theorem keeps_of_asks (h : 0 < op.asks) (bytes unread : Bytes) :
    op.keeps bytes = bytes ∧ op.passes unread = [] := by
  cases op with
  | push | append | fill | appendEscaped => exact ⟨rfl, rfl⟩
  | next | advance | reset => exact absurd h (Nat.lt_irrefl 0)

theorem error_iff (op : Op) (b : Buffer) (e : FramingError) :
    (op.run b).1 = .error e ↔ b.remaining < op.asks ∧ e = b.overflow op.asks := by
  obtain ⟨h, hrun⟩ | ⟨h, taken, b', hrun, -⟩ := run_cases op b
  · rw [hrun]
    constructor
    · intro he
      exact ⟨h, (Except.error.inj he).symm⟩
    · rintro ⟨-, rfl⟩
      rfl
  · rw [hrun]
    constructor
    · intro he
      cases he
    · intro he
      exact absurd he.1 (Nat.not_lt.2 h)

theorem eq_of_error {e : FramingError} (h : (op.run b).1 = .error e) : (op.run b).2 = b := by
  obtain ⟨-, hrun⟩ | ⟨-, taken, b', hrun, -⟩ := run_cases op b
  · rw [hrun]
  · rw [hrun] at h
    cases h

end Op

/-! ## Operations one after the other -/

structure Deed where
  op : Op
  before : Buffer

namespace Deed

def upshot (d : Deed) : Upshot :=
  (d.op.run d.before).1

def after (d : Deed) : Buffer :=
  (d.op.run d.before).2

def wrote (d : Deed) : Bytes :=
  match d.upshot with
  | .ok _ => d.op.writes
  | .error _ => []

def passed (d : Deed) : Bytes :=
  d.op.passes d.before.unread

def took (d : Deed) : Bytes :=
  match d.upshot with
  | .ok taken => taken.toList
  | .error _ => []

theorem step (d : Deed) :
    d.after.capacity = d.before.capacity ∧
      d.after.filled = d.op.keeps d.before.filled ++ d.wrote ∧
      d.after.passed = d.op.keeps d.before.passed ++ d.passed ∧
      d.took.Sublist d.passed := by
  obtain ⟨h, hrun⟩ | ⟨-, taken, b', hrun, hmade⟩ := Op.run_cases d.op d.before
  · have hasks : 0 < d.op.asks := Nat.lt_of_le_of_lt (Nat.zero_le _) h
    have hfilled := Op.keeps_of_asks hasks d.before.filled d.before.unread
    have hpassed := Op.keeps_of_asks hasks d.before.passed d.before.unread
    simp only [after, wrote, passed, took, upshot, hrun, hfilled, hpassed, List.append_nil,
      List.Sublist.refl, and_self]
  · simp only [after, wrote, passed, took, upshot, hrun]
    exact ⟨hmade.capacity, hmade.filled, hmade.passed, hmade.taken⟩

end Deed

def deeds (b : Buffer) : List Op → List Deed
  | [] => []
  | op :: rest => ⟨op, b⟩ :: deeds (op.run b).2 rest

def after (b : Buffer) : List Op → Buffer
  | [] => b
  | op :: rest => after (op.run b).2 rest

/-- The parts that operations contribute, behind what was there before and from the last emptying
on. -/
def sinceReset (part : Deed → Bytes) (before : Bytes) : List Deed → Bytes
  | [] => before
  | d :: rest => sinceReset part (d.op.keeps before ++ part d) rest

variable {b : Buffer} {ops : List Op} {done : List Deed}

theorem capacity_after (b : Buffer) (ops : List Op) : (after b ops).capacity = b.capacity := by
  induction ops generalizing b with
  | nil => rfl
  | cons op rest ih =>
    have hstep := (Deed.step ⟨op, b⟩).1
    calc (after b (op :: rest)).capacity
        = (op.run b).2.capacity := ih _
      _ = b.capacity := hstep

theorem filled_after (b : Buffer) (ops : List Op) :
    (after b ops).filled = sinceReset Deed.wrote b.filled (deeds b ops) := by
  induction ops generalizing b with
  | nil => rfl
  | cons op rest ih =>
    have hstep : (op.run b).2.filled = op.keeps b.filled ++ Deed.wrote ⟨op, b⟩ :=
      (Deed.step ⟨op, b⟩).2.1
    calc (after b (op :: rest)).filled
        = sinceReset Deed.wrote (op.run b).2.filled (deeds (op.run b).2 rest) := ih _
      _ = sinceReset Deed.wrote b.filled (deeds b (op :: rest)) := by rw [hstep]; rfl

theorem passed_after (b : Buffer) (ops : List Op) :
    (after b ops).passed = sinceReset Deed.passed b.passed (deeds b ops) := by
  induction ops generalizing b with
  | nil => rfl
  | cons op rest ih =>
    have hstep : (op.run b).2.passed = op.keeps b.passed ++ Deed.passed ⟨op, b⟩ :=
      (Deed.step ⟨op, b⟩).2.2.1
    calc (after b (op :: rest)).passed
        = sinceReset Deed.passed (op.run b).2.passed (deeds (op.run b).2 rest) := ih _
      _ = sinceReset Deed.passed b.passed (deeds b (op :: rest)) := by rw [hstep]; rfl

theorem keeps_sublist {taken passed : Bytes} (h : taken.Sublist passed) (op : Op) :
    (op.keeps taken).Sublist (op.keeps passed) := by
  cases op with
  | reset => exact List.nil_sublist _
  | push | append | fill | next | advance | appendEscaped => exact h

theorem took_sublist_passed {taken passed : Bytes} (h : taken.Sublist passed)
    (done : List Deed) :
    (sinceReset Deed.took taken done).Sublist (sinceReset Deed.passed passed done) := by
  induction done generalizing taken passed with
  | nil => exact h
  | cons d rest ih =>
    apply ih
    exact (keeps_sublist h d.op).append d.step.2.2.2

def carryOut? (k : Block) : List Op → Option (List Upshot × Block)
  | [] => some ([], k)
  | op :: rest => do
    let (upshot, k) ← op.runBlock? k
    let (upshots, k) ← carryOut? k rest
    return (upshot :: upshots, k)

theorem carryOut?_block (hword : ∀ d ∈ deeds b ops, d.op.InWord d.before) :
    carryOut? b.block ops = some ((deeds b ops).map Deed.upshot, (after b ops).block) := by
  induction ops generalizing b with
  | nil => rfl
  | cons op rest ih =>
    rw [deeds, List.forall_mem_cons] at hword
    simp only [carryOut?, Op.runBlock?_block hword.1, ih hword.2, bind, Option.bind]
    rfl

/-- What a buffer of this capacity is after these operations: a queue of what they wrote. -/
structure Queues (capacity : Nat) (done : List Deed) (b : Buffer) : Prop where
  cursor_le : b.cursor ≤ b.length
  length_le : b.length ≤ b.capacity
  capacity_eq : b.capacity = capacity
  remaining_eq : b.remaining = capacity - b.length
  filled : b.filled = sinceReset Deed.wrote [] done
  front : b.filled.take b.cursor = sinceReset Deed.passed [] done
  back : b.filled.drop b.cursor = b.unread
  took : (sinceReset Deed.took [] done).Sublist (b.filled.take b.cursor)
  next : (Op.next.run b).1 = .ok b.unread.head?
  refused : ∀ (op : Op) (e : FramingError), (op.run b).1 = .error e ↔
    b.remaining < op.asks ∧ e = .overflow op.asks b.remaining capacity
  unchanged : ∀ (op : Op) (e : FramingError), (op.run b).1 = .error e → (op.run b).2 = b

/-- For every capacity and every sequence of operations, as long as the sums that moving the
cursor forms go into a word, a buffer is the queue of what the operations that were not refused
have written; and on one block, with every access by position, the operations end as they do on
the buffer and leave the block of that buffer, all of whose positions are inside. -/
theorem queues_of_ops (capacity : Nat) (ops : List Op)
    (hword : ∀ d ∈ deeds (ofCapacity capacity) ops, d.op.InWord d.before) :
    Queues capacity (deeds (ofCapacity capacity) ops) (after (ofCapacity capacity) ops) ∧
      carryOut? (Block.ofCapacity capacity) ops =
        some ((deeds (ofCapacity capacity) ops).map Deed.upshot,
          (after (ofCapacity capacity) ops).block) ∧
      (after (ofCapacity capacity) ops).block.filled? =
        some (after (ofCapacity capacity) ops).filled ∧
      (after (ofCapacity capacity) ops).block.unread? =
        some (after (ofCapacity capacity) ops).unread := by
  have hcapacity : (after (ofCapacity capacity) ops).capacity = capacity := by
    rw [capacity_after, capacity_ofCapacity]
  have hfront : (after (ofCapacity capacity) ops).filled.take
      (after (ofCapacity capacity) ops).cursor =
        sinceReset Deed.passed [] (deeds (ofCapacity capacity) ops) := by
    rw [take_cursor_filled]
    exact passed_after _ _
  have hblock := carryOut?_block hword
  rw [block_ofCapacity] at hblock
  refine ⟨?_, hblock, filled?_block _, unread?_block _⟩
  constructor
  case cursor_le => exact cursor_le_length _
  case length_le => exact length_le_capacity _
  case capacity_eq => exact hcapacity
  case remaining_eq =>
    have hsum := length_add_remaining (after (ofCapacity capacity) ops)
    omega
  case filled => exact filled_after _ _
  case front => exact hfront
  case back => exact drop_cursor_filled _
  case took =>
    rw [hfront]
    exact took_sublist_passed (List.nil_sublist _) _
  case next => rw [Op.run_next]
  case refused =>
    intro op e
    rw [Op.error_iff, overflow, hcapacity]
  case unchanged =>
    intro op e
    exact Op.eq_of_error

/-- Refused appends, lent room of which one byte counts, a cursor moved by all that a word allows,
and an emptying in between. -/
theorem queues_of_ops_of_refusals :
    let ops : List Op := [.push 5, .append [1, 2, 3, 4], .next, .fill [7, 8] 1 (by decide),
      .advance (UInt64.size - 2), .appendEscaped [0x27, 0x27], .reset, .appendEscaped [0x27, 9],
      .next]
    (∀ d ∈ deeds (ofCapacity 4) ops, d.op.InWord d.before) ∧
      Queues 4 (deeds (ofCapacity 4) ops) (after (ofCapacity 4) ops) ∧
      carryOut? (Block.ofCapacity 4) ops =
        some ([.ok none, .error (.overflow 4 3 4), .ok (some 5), .ok none, .ok none,
          .error (.overflow 4 2 4), .ok none, .ok none, .ok (some 0x27)],
          ⟨[0x27, 1, 9, 0], 3, 1⟩) := by
  intro ops
  have hword : ∀ d ∈ deeds (ofCapacity 4) ops, d.op.InWord d.before := by decide
  obtain ⟨hqueues, hblock, -⟩ := queues_of_ops 4 ops hword
  exact ⟨hword, hqueues, hblock.trans rfl⟩

end SpiBridge.Buffer
