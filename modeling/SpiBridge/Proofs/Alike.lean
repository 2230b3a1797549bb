import SpiBridge.Proofs.Effects
/-!
# What stale bytes cannot change

Emptying a buffer leaves its block as it is, so two buffers of one size may differ in
what stands behind their filled bytes.  Main statements: no operation on a buffer, and no
reading from the bus, tells such buffers apart, and a transaction that was reset is in
this sense as good as new.
-/

namespace SpiBridge

/-- Two results that fail in the same way, or succeed with values that are related. -/
inductive Agree {ε α β : Type} (R : α → β → Prop) : Except ε α → Except ε β → Prop
  | ok {a : α} {b : β} (h : R a b) : Agree R (.ok a) (.ok b)
  | error (e : ε) : Agree R (.error e) (.error e)

namespace Agree

variable {ε α : Type}

theorem refl (x : Except ε α) : Agree Eq x x := by
  cases x with
  | ok a => exact .ok rfl
  | error e => exact .error e

end Agree

namespace Buffer

/-- Two buffers that differ at most in what their blocks hold behind the filled bytes. -/
structure Alike (a b : Buffer) : Prop where
  passed : a.passed = b.passed
  unread : a.unread = b.unread
  remaining : a.remaining = b.remaining

theorem unread_receive (b : Buffer) (bytes : Bytes) :
    (b.receive bytes).unread = b.unread ++ bytes.take b.remaining := by
  show b.unread ++ (bytes.take b.remaining ++ b.spare.drop bytes.length).take bytes.length = _
  by_cases hroom : bytes.length ≤ b.remaining
  · rw [List.take_of_length_le hroom, List.take_left]
  · have hdrop : b.spare.drop bytes.length = [] := List.drop_eq_nil_of_le (Nat.le_of_not_le hroom)
    rw [hdrop, List.append_nil, List.take_of_length_le (List.length_take_le' _ _)]

theorem remaining_receive (b : Buffer) (bytes : Bytes) :
    (b.receive bytes).remaining = b.remaining - bytes.length := by
  show ((bytes.take b.remaining ++ b.spare.drop bytes.length).drop bytes.length).length = _
  simp only [remaining, List.length_drop, List.length_append, List.length_take]
  omega

namespace Alike

variable {a b c : Buffer}

theorem symm (h : a.Alike b) : b.Alike a :=
  ⟨h.passed.symm, h.unread.symm, h.remaining.symm⟩

theorem trans (h : a.Alike b) (h' : b.Alike c) : a.Alike c :=
  ⟨h.passed.trans h'.passed, h.unread.trans h'.unread, h.remaining.trans h'.remaining⟩

theorem filled (h : a.Alike b) : a.filled = b.filled := by
  rw [Buffer.filled, Buffer.filled, h.passed, h.unread]

theorem length (h : a.Alike b) : a.length = b.length := by
  rw [Buffer.length, Buffer.length, h.passed, h.unread]

theorem isEmpty (h : a.Alike b) : a.isEmpty = b.isEmpty := by
  rw [Buffer.isEmpty, Buffer.isEmpty, h.length]

theorem capacity (h : a.Alike b) : a.capacity = b.capacity := by
  rw [Buffer.capacity, Buffer.capacity, h.length, h.remaining]

theorem overflow (h : a.Alike b) (requested : Nat) :
    a.overflow requested = b.overflow requested := by
  rw [Buffer.overflow, Buffer.overflow, h.remaining, h.capacity]

theorem reset (h : a.Alike b) : a.reset.Alike b.reset :=
  ⟨rfl, rfl, by rw [remaining_reset, remaining_reset, h.capacity]⟩

theorem advance (h : a.Alike b) (count : Nat) : (a.advance count).Alike (b.advance count) :=
  ⟨by simp only [Buffer.advance, h.passed, h.unread], by simp only [Buffer.advance, h.unread],
    h.remaining⟩

theorem append (h : a.Alike b) (bytes : Bytes) :
    Agree Alike (a.append bytes) (b.append bytes) := by
  by_cases hroom : bytes.length ≤ a.remaining
  · rw [append_eq_ok hroom, append_eq_ok (h.remaining ▸ hroom)]
    refine .ok ⟨h.passed, by rw [h.unread], ?_⟩
    have hremaining : a.spare.length = b.spare.length := h.remaining
    simp only [Buffer.remaining, List.length_drop, hremaining]
  · have hfull := Nat.lt_of_not_le hroom
    rw [append_eq_error hfull, append_eq_error (h.remaining ▸ hfull), h.overflow]
    exact .error _

theorem lend (h : a.Alike b) (count : Nat) :
    Agree (fun _ _ => True) (a.lend count) (b.lend count) := by
  rw [Buffer.lend, Buffer.lend, h.remaining, h.overflow]
  split
  · exact .ok trivial
  · exact .error _

theorem receive (h : a.Alike b) (bytes : Bytes) : (a.receive bytes).Alike (b.receive bytes) :=
  ⟨h.passed, by rw [unread_receive, unread_receive, h.unread, h.remaining],
    by rw [remaining_receive, remaining_receive, h.remaining]⟩

theorem appendSync (h : a.Alike b) (header : Sync.Header) (raw : Bytes) :
    (a.appendSync header raw).1 = (b.appendSync header raw).1 ∧
      (a.appendSync header raw).2.Alike (b.appendSync header raw).2 := by
  simp only [Buffer.appendSync, appendEscaped_eq_append]
  have hheader := h.append header.toBytes
  generalize a.append header.toBytes = r, b.append header.toBytes = q at hheader
  cases hheader with
  | error e => exact ⟨rfl, h⟩
  | @ok a' b' h' =>
    have hbody := h'.append (Escape.encode raw)
    simp only
    generalize a'.append (Escape.encode raw) = r, b'.append (Escape.encode raw) = q at hbody
    cases hbody with
    | error e => exact ⟨rfl, h'⟩
    | ok h'' => exact ⟨rfl, h''⟩

end Alike

end Buffer

namespace Intake

structure Alike (i j : Intake) : Prop where
  frame : i.frame.Alike j.frame
  wire : i.wire.Alike j.wire
  decoder : i.decoder = j.decoder
  bus : i.bus = j.bus

theorem agree_absorb {a b : Buffer} (h : a.Alike b) (decoder : Escape.Decoder) (bytes : Bytes) :
    Agree (fun p q => p.1 = q.1 ∧ p.2.Alike q.2) (absorb decoder a bytes)
      (absorb decoder b bytes) := by
  induction bytes generalizing decoder a b with
  | nil => exact .ok ⟨rfl, h⟩
  | cons byte rest ih =>
    simp only [absorb]
    rcases decoder.feed byte with ⟨e | _ | raw, next⟩
    · exact .error e
    · exact ih h next
    · have hpush : Agree Buffer.Alike (a.push raw) (b.push raw) := h.append [raw]
      simp only
      generalize a.push raw = r, b.push raw = q at hpush
      cases hpush with
      | error e => exact .error e
      | ok h' => exact ih h' next

theorem fill_eq (i : Intake) (target : Nat) :
    i.fill target =
      if i.frame.length < target then
        match i.wire.reset.lend (target - i.frame.length) with
        | .error e => (.error (.framing e), { i with wire := i.wire.reset })
        | .ok _ =>
          match i.bus.readSome (target - i.frame.length) with
          | (.error e, bus) => (.error (.transport e), { i with wire := i.wire.reset, bus })
          | (.ok (some (byte :: rest)), bus) =>
            match absorb i.decoder i.frame (byte :: rest) with
            | .error e =>
              (.error (.framing e), { i with wire := i.wire.reset.receive (byte :: rest), bus })
            | .ok (decoder, frame) =>
              fill ⟨frame, (i.wire.reset.receive (byte :: rest)).advance (byte :: rest).length,
                decoder, bus⟩ target
          | (.ok _, bus) =>
            (.error (.framing (i.stall target)), { i with wire := i.wire.reset, bus })
      else (.ok (), i) := by
  fun_cases fill i target with
  | case1 hless missing wire e hlend => rw [if_pos hless, hlend]
  | case2 hless missing wire lent hlend e bus hread => rw [if_pos hless, hlend, hread]
  | case3 hless missing wire lent hlend byte rest bus hread wire' e habsorb =>
    rw [if_pos hless, hlend, hread]
    simp only [habsorb]
    rfl
  | case4 hless missing wire lent hlend byte rest bus hread wire' decoder frame habsorb =>
    rw [if_pos hless, hlend, hread]
    simp only [habsorb]
    rfl
  | case5 hless missing wire lent hlend got bus hgot hread =>
    rw [if_pos hless, hlend, hread]
    rcases got with _ | _ | ⟨byte, rest⟩
    · rfl
    · rfl
    · exact absurd rfl (hgot byte rest)
  | case6 hless => rw [if_neg hless]

theorem Alike.stall {i j : Intake} (h : i.Alike j) (target : Nat) :
    i.stall target = j.stall target := by
  rw [Intake.stall, Intake.stall, h.decoder, h.frame.length]

theorem Alike.fill {i j : Intake} (h : i.Alike j) (target : Nat) :
    (i.fill target).1 = (j.fill target).1 ∧ (i.fill target).2.Alike (j.fill target).2 := by
  -- Each round but the last takes bytes from those that wait on the bus.
  induction hwaiting : i.bus.waiting.length using Nat.strongRecOn generalizing i j with
  | _ n ih =>
    rw [fill_eq i, fill_eq j, ← h.frame.length, ← h.bus, ← h.decoder, ← h.stall]
    by_cases hless : i.frame.length < target
    · rw [if_pos hless, if_pos hless]
      have hlend := h.wire.reset.lend (target - i.frame.length)
      generalize i.wire.reset.lend _ = r, j.wire.reset.lend _ = q at hlend
      cases hlend with
      | error e => exact ⟨rfl, h.frame, h.wire.reset, rfl, rfl⟩
      | ok =>
        simp only
        rcases hread : i.bus.readSome (target - i.frame.length) with
          ⟨e | _ | _ | ⟨byte, rest⟩, bus⟩
        · exact ⟨rfl, h.frame, h.wire.reset, rfl, rfl⟩
        · exact ⟨rfl, h.frame, h.wire.reset, rfl, rfl⟩
        · exact ⟨rfl, h.frame, h.wire.reset, rfl, rfl⟩
        have hwire := h.wire.reset.receive (byte :: rest)
        have habsorb := agree_absorb h.frame i.decoder (byte :: rest)
        simp only
        generalize absorb _ i.frame _ = r, absorb _ j.frame _ = q at habsorb
        cases habsorb with
        | error e => exact ⟨rfl, h.frame, hwire, rfl, rfl⟩
        | ok hround =>
          have hfewer : bus.waiting.length < n := by
            rw [← hwaiting, Channel.waiting_of_readSome hread, List.length_append,
              List.length_cons]
            omega
          exact ih _ hfewer ⟨hround.2, hwire.advance _, hround.1, rfl⟩ rfl
    · rw [if_neg hless, if_neg hless]
      exact ⟨rfl, h⟩

end Intake

/-! ## Transactions, bridges and scenes -/

structure Transaction.Alike (t u : Transaction) : Prop where
  frame : t.frame.Alike u.frame
  wire : t.wire.Alike u.wire
  phase : t.phase = u.phase
  initiator : t.initiator = u.initiator
  request : t.request = u.request
  decoder : t.decoder = u.decoder
  deadline : t.deadline = u.deadline

namespace Transaction

def renewed (t : Transaction) : Transaction :=
  .ofRooms t.frame.capacity t.wire.capacity

namespace Alike

variable {t u v : Transaction}

theorem symm (h : t.Alike u) : u.Alike t :=
  ⟨h.frame.symm, h.wire.symm, h.phase.symm, h.initiator.symm, h.request.symm, h.decoder.symm,
    h.deadline.symm⟩

theorem trans (h : t.Alike u) (h' : u.Alike v) : t.Alike v :=
  ⟨h.frame.trans h'.frame, h.wire.trans h'.wire, h.phase.trans h'.phase,
    h.initiator.trans h'.initiator, h.request.trans h'.request, h.decoder.trans h'.decoder,
    h.deadline.trans h'.deadline⟩

theorem reset (h : t.Alike u) : t.reset.Alike u.reset :=
  ⟨h.frame.reset, h.wire.reset, rfl, rfl, rfl, rfl, rfl⟩

theorem start (h : t.Alike u) (initiator : Sync.Origin) :
    (t.start initiator).Alike (u.start initiator) :=
  { h.reset with initiator := rfl, phase := rfl }

theorem header? (h : t.Alike u) : t.header? = u.header? := by
  rw [Transaction.header?, Transaction.header?, h.frame.length, h.frame.filled]

end Alike

theorem alike_renewed_reset (t : Transaction) : t.reset.Alike t.reset.renewed := by
  refine ⟨⟨rfl, rfl, ?_⟩, ⟨rfl, rfl, ?_⟩, rfl, rfl, rfl, rfl, rfl⟩ <;>
  · simp only [reset, renewed, ofRooms, Buffer.remaining_reset, Buffer.capacity_reset]
    exact (List.length_replicate ..).symm

end Transaction

structure Bridge.Alike (b c : Bridge) : Prop where
  transaction : b.transaction.Alike c.transaction
  serials : b.serials = c.serials
  line : b.line = c.line
  timing : b.timing = c.timing
  tally : b.tally = c.tally

structure Scene.Alike (s q : Scene) : Prop where
  bridge : s.bridge.Alike q.bridge
  wiring : s.wiring = q.wiring

theorem Scene.Alike.intake {s q : Scene} (h : s.Alike q) : s.intake.Alike q.intake :=
  ⟨h.bridge.transaction.frame, h.bridge.transaction.wire, h.bridge.transaction.decoder,
    congrArg Wiring.bus h.wiring⟩

end SpiBridge
