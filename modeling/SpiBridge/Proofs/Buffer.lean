import SpiBridge.Buffer
/-!
# Buffers seen through their filled bytes

Appending in two goes is appending at once, and room that was lent is there.
-/

namespace SpiBridge.Buffer

variable {b b' : Buffer} {bytes : Bytes}

theorem append_append_eq_ok_iff {b'' : Buffer} {front back : Bytes} :
    b.append (front ++ back) = .ok b'' ↔
      ∃ b', b.append front = .ok b' ∧ b'.append back = .ok b'' := by
  constructor
  · intro h
    have hroom := remaining_of_append h
    rw [List.length_append] at hroom
    obtain ⟨b', hfront⟩ := b.append_of_le front (by omega)
    have hroom' := remaining_of_append hfront
    exact ⟨b', hfront, by rw [← append_append_of_append hfront (by omega), h]⟩
  · rintro ⟨b', hfront, hback⟩
    have hroom := remaining_of_append hback
    rw [append_append_of_append hfront (by omega), hback]

@[simp] theorem append_nil (b : Buffer) : b.append [] = .ok b := by
  simp [append]

theorem length_of_append (h : b.append bytes = .ok b') :
    b'.length = b.length + bytes.length := by
  rw [← length_filled, filled_of_append h, List.length_append, length_filled]

theorem passed_of_append (h : b.append bytes = .ok b') : b'.passed = b.passed := by
  unfold append at h
  split at h <;> simp only [Except.ok.injEq, reduceCtorEq] at h
  rw [← h]

/-- The bytes stand behind those that the buffer held, and nothing else is changed of it. -/
structure Grows (b : Buffer) (bytes : Bytes) (b' : Buffer) : Prop where
  filled : b'.filled = b.filled ++ bytes
  cursor : b'.cursor = b.cursor
  capacity : b'.capacity = b.capacity

theorem grows_of_append (h : b.append bytes = .ok b') : b.Grows bytes b' :=
  ⟨filled_of_append h, congrArg List.length (passed_of_append h), capacity_of_append h⟩

theorem Grows.trans {b'' : Buffer} {front back : Bytes} (h : b.Grows front b')
    (h' : b'.Grows back b'') : b.Grows (front ++ back) b'' := by
  refine ⟨?_, h'.cursor.trans h.cursor, h'.capacity.trans h.capacity⟩
  rw [h'.filled, h.filled, List.append_assoc]

theorem le_remaining_of_lend {count : Nat} {lent : Bytes} (h : b.lend count = .ok lent) :
    count ≤ b.remaining := by
  unfold lend at h
  split at h
  · assumption
  · simp at h

theorem lend_of_le {count : Nat} (h : count ≤ b.remaining) :
    b.lend count = .ok (b.spare.take count) := by
  rw [lend, if_pos h]

theorem length_add_remaining (b : Buffer) : b.length + b.remaining = b.capacity := rfl

theorem filled_eq_nil_iff : b.filled = [] ↔ b.length = 0 := by
  rw [← length_filled, List.length_eq_zero_iff]

end SpiBridge.Buffer
