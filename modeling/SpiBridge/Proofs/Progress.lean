import SpiBridge.Proofs.Intake
/-!
# Channels that do not fail

A channel may be slow without failing: reads bring in few bytes, writes take few,
and calls have to be made again.  Main statements: reads of such a channel bring
in bytes until all are there, those of the bus no byte behind the written form of what
is missing, and writes succeed.
-/

namespace SpiBridge

namespace Channel

variable {allowed : IoError → Bool} {c q : Channel} {room n : Nat}

/-- The next so many bytes come in pieces, and between the pieces reads fail at most in ways
that are allowed. -/
def Brings (allowed : IoError → Bool) : List Arrival → Nat → Prop
  | _, 0 => True
  | [], _ + 1 => False
  | .data bytes :: rest, n + 1 => bytes ≠ [] ∧ Brings allowed rest (n + 1 - bytes.length)
  | .ended :: _, _ + 1 => False
  | .failed e :: rest, n + 1 => allowed e = true ∧ Brings allowed rest (n + 1)

instance decidableBrings (allowed : IoError → Bool) :
    ∀ items n, Decidable (Brings allowed items n)
  | _, 0 => .isTrue (by simp [Brings])
  | [], _ + 1 => .isFalse id
  | .data bytes :: rest, n + 1 =>
    have := decidableBrings allowed rest (n + 1 - bytes.length)
    inferInstanceAs (Decidable (bytes ≠ [] ∧ Brings allowed rest (n + 1 - bytes.length)))
  | .ended :: _, _ + 1 => .isFalse id
  | .failed e :: rest, n + 1 =>
    have := decidableBrings allowed rest (n + 1)
    inferInstanceAs (Decidable (allowed e = true ∧ Brings allowed rest (n + 1)))

theorem brings_dropWhile {items : List Arrival} (h : Brings allowed items (n + 1)) :
    Brings allowed (items.dropWhile Arrival.isInterruption) (n + 1) := by
  induction items with
  | nil => exact h
  | cons item rest ih =>
    rw [List.dropWhile_cons]
    split
    · rename_i hitem
      cases item with
      | failed e => exact ih h.2
      | data | ended => simp [Arrival.isInterruption] at hitem
    · exact h

theorem read_of_brings (h : Brings allowed c.arrivals (n + 1)) (hroom : room ≠ 0) :
    (∃ e rest q, c.arrivals = .failed e :: rest ∧ allowed e = true ∧
      c.read room = (.error e, q) ∧ q.arrivals = rest ∧ Brings allowed rest (n + 1)) ∨
    ∃ bytes q, c.read room = (.ok bytes, q) ∧ bytes ≠ [] ∧
      Brings allowed q.arrivals (n + 1 - bytes.length) ∧
      q.arrivals.length ≤ c.arrivals.length := by
  unfold read
  rw [if_neg hroom]
  rcases harrivals : c.arrivals with _ | ⟨_ | _ | e, rest⟩ <;> rw [harrivals] at h
  · exact absurd h id
  · rename_i chunk
    obtain ⟨hne, hrest⟩ := h
    refine .inr ⟨_, _, rfl, ?_, ?_, ?_⟩
    · rw [Ne, List.take_eq_nil_iff]
      exact fun hor => hor.elim hroom hne
    · show Brings allowed (if chunk.drop room = [] then rest else .data (chunk.drop room) :: rest)
        (n + 1 - (chunk.take room).length)
      split
      · rename_i hdrop
        rw [List.drop_eq_nil_iff] at hdrop
        rwa [List.take_of_length_le hdrop]
      · rename_i hdrop
        rw [List.drop_eq_nil_iff] at hdrop
        rw [List.length_take, Nat.min_eq_left (by omega)]
        rcases hleft : n + 1 - room with _ | left
        · simp [Brings]
        · refine ⟨by rw [Ne, List.drop_eq_nil_iff]; omega, ?_⟩
          rw [List.length_drop, ← hleft,
            show n + 1 - room - (chunk.length - room) = n + 1 - chunk.length by omega]
          exact hrest
    · show (if chunk.drop room = [] then rest else .data (chunk.drop room) :: rest).length ≤ _
      split <;> simp
  · exact absurd h id
  · exact .inl ⟨e, rest, _, rfl, h.1, rfl, rfl, h.2⟩

theorem readSome_of_brings (hallowed : ∀ e, allowed e = true → e.isTransient = true)
    (h : Brings allowed c.arrivals (n + 1)) (hroom : room ≠ 0) :
    (∃ e q, c.readSome room = (.ok none, q) ∧ allowed e = true ∧ e.isInterruption = false ∧
      Brings allowed q.arrivals (n + 1) ∧ q.arrivals.length < c.arrivals.length) ∨
    ∃ bytes q, c.readSome room = (.ok (some bytes), q) ∧ bytes ≠ [] ∧
      Brings allowed q.arrivals (n + 1 - bytes.length) ∧
      q.arrivals.length ≤ c.arrivals.length := by
  have hpast : (c.pastInterruptions room).arrivals =
      c.arrivals.dropWhile Arrival.isInterruption := rfl
  have hshorter := (List.dropWhile_suffix (l := c.arrivals) Arrival.isInterruption).length_le
  unfold readSome
  rw [if_neg hroom]
  rcases read_of_brings (c := c.pastInterruptions room) (by rw [hpast]; exact brings_dropWhile h)
    hroom with ⟨e, rest, q, harrivals, hallow, hread, hq, hrest⟩ | ⟨bytes, q, hread, hne, hrest, hq⟩
  · have hinterruption : e.isInterruption = false := by
      have hhead := List.head?_dropWhile_not Arrival.isInterruption c.arrivals
      rw [← hpast, harrivals] at hhead
      simpa [Arrival.isInterruption] using hhead
    have hblock : e.isBlock = true := by
      simpa [IoError.isTransient, hinterruption] using hallowed e hallow
    refine .inl ⟨e, q, ?_, hallow, hinterruption, hq ▸ hrest, ?_⟩
    · rw [hread]
      simp [hblock]
    · rw [← hpast, harrivals, List.length_cons] at hshorter
      rw [hq]
      omega
  · refine .inr ⟨bytes, q, ?_, hne, hrest, ?_⟩
    · rw [hread]
    · rw [hpast] at hq
      omega

theorem readSome_of_brings_interrupted
    (h : Brings IoError.isInterruption c.arrivals (n + 1)) (hroom : room ≠ 0) :
    ∃ bytes q, c.readSome room = (.ok (some bytes), q) ∧ bytes ≠ [] ∧
      Brings IoError.isInterruption q.arrivals (n + 1 - bytes.length) := by
  have hallowed : ∀ e : IoError, e.isInterruption = true → e.isTransient = true := by
    intro e he
    simp [IoError.isTransient, he]
  rcases readSome_of_brings hallowed h hroom with
    ⟨e, q, -, hallow, hno, -, -⟩ | ⟨bytes, q, hread, hne, hrest, -⟩
  · rw [hallow] at hno
    cases hno
  · exact ⟨bytes, q, hread, hne, hrest⟩

end Channel

/-! ## Reading from the bus -/

namespace Escape

theorem length_held_add_le {d : Decoder} {wire raw tail : Bytes} (hne : raw ≠ [])
    (h : d.held ++ wire = encode raw ++ tail) :
    d.held.length + raw.length ≤ (encode raw).length := by
  have hlength := length_encode raw
  unfold encodedLength at hlength
  -- A mark that is held stands for one raw byte, which still takes its follower.
  rcases d with ⟨_ | _⟩
  · simp only [Decoder.held_mk_false, List.length_nil]
    omega
  · cases raw with
    | nil => exact absurd rfl hne
    | cons first others =>
      have hfirst : first = mark := by
        by_cases hmark : first = mark
        · exact hmark
        · rw [encode_cons, if_neg hmark] at h
          simp only [Decoder.held_mk_true, List.cons_append, List.nil_append,
            List.cons.injEq] at h
          exact h.1.symm
      rw [hfirst, List.count_cons_self] at hlength
      rw [hfirst, hlength]
      simp only [Decoder.held_mk_true, List.length_cons, List.length_nil]
      omega

end Escape

namespace Intake

open Escape

/-- A read of a bus that brings the written form of what is missing: some of it comes, and no byte
behind it. -/
theorem piece_of_brings {i : Intake} {missing more : Nat} {raw tail : Bytes}
    {result : Except TransportError (Option Bytes)} {bus : Channel}
    (hmissing : missing = raw.length) (hpositive : 0 < missing)
    (hbytes : i.decoder.held ++ i.bus.waiting = encode raw ++ tail)
    (hbrings : Channel.Brings IoError.isInterruption i.bus.arrivals
      ((encode raw).length - i.decoder.held.length + more))
    (hread : i.bus.readSome missing = (result, bus)) :
    ∃ byte rest given left decoder, result = .ok (some (byte :: rest)) ∧
      i.decoder.feedAll (byte :: rest) = { raw := given, decoder := decoder } ∧
      raw = given ++ left ∧ decoder.held ++ bus.waiting = encode left ++ tail ∧
      Channel.Brings IoError.isInterruption bus.arrivals
        ((encode left).length - decoder.held.length + more) := by
  have hne : raw ≠ [] := List.ne_nil_of_length_pos (hmissing ▸ hpositive)
  have hform := length_held_add_le hne hbytes
  obtain ⟨n, hn⟩ : ∃ n, (encode raw).length - i.decoder.held.length + more = n + 1 :=
    ⟨_, (Nat.sub_add_cancel (by omega)).symm⟩
  rw [hn] at hbrings
  obtain ⟨piece, bus', hread', hpiece, hrest⟩ :=
    Channel.readSome_of_brings_interrupted hbrings (Nat.ne_of_gt hpositive)
  obtain ⟨rfl, rfl⟩ := Prod.mk.inj (hread.symm.trans hread')
  obtain ⟨byte, others, rfl⟩ := List.exists_cons_of_ne_nil hpiece
  have hshort := Channel.length_le_of_readSome hread'
  rw [Channel.waiting_of_readSome hread', ← List.append_assoc] at hbytes
  -- A read asks for as many bytes as raw bytes are missing, and their written form is no shorter,
  -- so the piece lies within it.
  have hpre : i.decoder.held ++ byte :: others <+: encode raw :=
    List.prefix_of_prefix_length_le ⟨_, hbytes⟩ (List.prefix_append _ _) (by
      rw [List.length_append]
      omega)
  obtain ⟨form, hsplit⟩ := hpre
  rw [← hsplit, List.append_assoc (_ ++ _)] at hbytes
  have hwaiting := List.append_cancel_left hbytes
  rw [List.append_assoc] at hsplit
  obtain ⟨given, left, decoder, hraw, hfed, hleft⟩ := Decoder.feedAll_of_encode hsplit
  refine ⟨byte, others, given, left, decoder, rfl, hfed, hraw, ?_, ?_⟩
  · rw [hwaiting, ← List.append_assoc, hleft]
  · have hlengths := congrArg List.length hsplit
    have hlefts := congrArg List.length hleft
    simp only [List.length_append] at hlengths hlefts
    rwa [show (encode left).length - decoder.held.length + more =
      n + 1 - (byte :: others).length by omega]

end Intake

/-! ## Writing -/

def Acceptance.Yields : Acceptance → Prop
  | .takes limit => 0 < limit
  | .failed e => e.isTransient = true

namespace Channel

variable {again : IoError → Bool} {c q : Channel} {bytes : Bytes}

/-- Writes and flushes on a channel do not fail for good; `again` tells which flushes are made
again. -/
structure Yields (again : IoError → Bool) (c : Channel) : Prop where
  acceptances : ∀ item ∈ c.acceptances, item.Yields
  peopled : c.deserted = false
  flushes : ∀ e ∈ c.flushes, again e = true

theorem Yields.of_readsTo (h : c.Yields again) (hreads : c.ReadsTo q bytes) :
    q.Yields again := by
  refine ⟨?_, hreads.deserted.trans h.peopled, ?_⟩
  · rw [hreads.acceptances]
    exact h.acceptances
  · rw [hreads.flushes]
    exact h.flushes

theorem afterWrite_answer {item : Acceptance} (role : ChannelRole) (h : item.Yields)
    (hne : bytes ≠ []) :
    ∃ left, afterWrite role bytes (item.answer bytes) = .ok left := by
  cases item with
  | takes limit =>
    have hlength := List.length_pos_iff.2 hne
    obtain ⟨count, hcount⟩ : ∃ count, min limit bytes.length = count + 1 :=
      ⟨_, (Nat.sub_add_cancel (by
        have hlimit : 0 < limit := h
        omega)).symm⟩
    exact ⟨_, by rw [Acceptance.answer, hcount]; rfl⟩
  | failed e =>
    have hagain : e.isTransient = true := h
    exact ⟨bytes, by rw [Acceptance.answer, afterWrite, if_pos hagain]⟩

theorem write_of_yields (role : ChannelRole) (h : c.Yields again) (hne : bytes ≠ []) :
    ∃ answer q left, c.write bytes = (answer, q) ∧ afterWrite role bytes answer = .ok left ∧
      q.Yields again ∧ q.acceptances = c.acceptances.tail := by
  obtain ⟨arrivals, drained, acceptances, deserted, flushes, calls⟩ := c
  cases acceptances with
  | nil =>
    have hpeopled : deserted = false := h.peopled
    have hlength := List.length_pos_iff.2 hne
    obtain ⟨count, hcount⟩ : ∃ count, bytes.length = count + 1 :=
      ⟨_, (Nat.sub_add_cancel hlength).symm⟩
    refine ⟨_, _, bytes.drop (count + 1), rfl, ?_, ⟨h.acceptances, h.peopled, h.flushes⟩, rfl⟩
    rw [lastAnswer, if_neg (by simp [hpeopled]), hcount]
    rfl
  | cons item rest =>
    obtain ⟨left, hleft⟩ := afterWrite_answer role (h.acceptances item (by simp)) hne
    exact ⟨_, _, left, rfl, hleft,
      ⟨fun other hother => h.acceptances other (List.mem_cons_of_mem _ hother), h.peopled,
        h.flushes⟩, rfl⟩

theorem offerTo_of_yields {items : List Acceptance} (role : ChannelRole) (bytes : Bytes)
    (h : c.Yields again) (hitems : ∀ item ∈ items, item.Yields) :
    ∃ q, c.offerTo role bytes items = (.ok (), q) ∧ ∀ e ∈ q.flushes, again e = true := by
  induction items generalizing c bytes with
  | nil =>
    simp only [offerTo]
    have hnone : { c with acceptances := [] }.Yields again := ⟨by simp, h.peopled, h.flushes⟩
    split
    · exact ⟨_, rfl, h.flushes⟩
    · rename_i hne
      obtain ⟨answer, q, left, hwrite, hleft, hq, -⟩ := write_of_yields role hnone hne
      exact ⟨q, by rw [hwrite, hleft]; rfl, hq.flushes⟩
  | cons item rest ih =>
    simp only [offerTo]
    have hsome : { c with acceptances := item :: rest }.Yields again :=
      ⟨hitems, h.peopled, h.flushes⟩
    split
    · exact ⟨_, rfl, h.flushes⟩
    · rename_i hne
      obtain ⟨answer, q, left, hwrite, hleft, hq, -⟩ := write_of_yields role hsome hne
      rw [hwrite]
      simp only [hleft]
      exact ih left hq fun other hother => hitems other (List.mem_cons_of_mem _ hother)

theorem flushWhile_of_again (h : ∀ e ∈ c.flushes, again e = true) :
    ∃ q, c.flushWhile again = (.ok (), q) := by
  have hnone : c.flushes.dropWhile again = [] := by
    rw [← List.append_nil c.flushes, List.dropWhile_append_of_pos h]
    rfl
  simp only [flushWhile, hnone, flush]
  exact ⟨_, rfl⟩

theorem writeFully_of_yields (role : ChannelRole) (bytes : Bytes)
    (h : c.Yields IoError.isTransient) :
    ∃ q, c.writeFully role bytes = (.ok (), q) := by
  obtain ⟨q, hoffer, hflushes⟩ := offerTo_of_yields role bytes h h.acceptances
  obtain ⟨q', hflush⟩ := flushWhile_of_again hflushes
  exact ⟨q', by rw [writeFully, offer, hoffer]; exact hflush⟩

end Channel

def RoomPoll.Allows (deadline : Instant) : RoomPoll → Prop
  | .ready _ => True
  | .idle clock => deadline.reachedBy clock = false
  | .failed _ => False

namespace Outlet

variable {o : Outlet} {timeout : Duration} {deadline : Instant}

/-- Bounded writes on a channel do not fail: it takes bytes in time. -/
structure Yields (o : Outlet) (timeout : Duration) : Prop where
  channel : o.channel.Yields IoError.isInterruption
  deadline : ∃ deadline, o.clock.after? timeout = some deadline ∧
    ∀ poll ∈ o.polls, poll.Allows deadline
  writable : o.writable = true

theorem offerTo_of_yields {polls : List RoomPoll} (role : ChannelRole) (timeout : Duration)
    (bytes : Bytes) (h : o.channel.Yields IoError.isInterruption) (hwritable : o.writable = true)
    (hpolls : ∀ poll ∈ polls, poll.Allows deadline) :
    ∃ q, o.offerTo role timeout deadline bytes polls = (.ok (), q) ∧
      ∀ e ∈ q.channel.flushes, e.isInterruption = true := by
  induction polls generalizing o bytes with
  | nil =>
    simp only [offerTo]
    split
    · exact ⟨_, rfl, h.flushes⟩
    · obtain ⟨q, hoffer, hflushes⟩ :=
        Channel.offerTo_of_yields role bytes h h.acceptances
      rw [Channel.offer, hoffer]
      simp only [hwritable]
      exact ⟨_, rfl, hflushes⟩
  | cons poll rest ih =>
    have hrest : ∀ other ∈ rest, other.Allows deadline :=
      fun other hother => hpolls other (List.mem_cons_of_mem _ hother)
    simp only [offerTo]
    split
    · exact ⟨_, rfl, h.flushes⟩
    · rename_i hne
      have hpoll := hpolls poll (by simp)
      cases poll with
      | failed e => exact absurd hpoll id
      | idle clock =>
        have hearly : deadline.reachedBy clock = false := hpoll
        simp only [hearly, Bool.false_eq_true, if_false]
        exact ih bytes h hwritable hrest
      | ready clock =>
        obtain ⟨answer, q, left, hwrite, hleft, hq, -⟩ :=
          Channel.write_of_yields role h hne
        rw [hwrite]
        simp only [hleft]
        exact ih left hq hwritable hrest

theorem writeWithin_of_yields (role : ChannelRole) (bytes : Bytes) (h : o.Yields timeout) :
    ∃ q, o.writeWithin role timeout bytes = (.ok (), q) := by
  obtain ⟨deadline, hdeadline, hpolls⟩ := h.deadline
  obtain ⟨q, hoffer, hflushes⟩ :=
    offerTo_of_yields role timeout bytes h.channel h.writable hpolls
  obtain ⟨channel, hflush⟩ := Channel.flushWhile_of_again hflushes
  refine ⟨{ q with channel }, ?_⟩
  rw [writeWithin, hdeadline]
  simp only [hoffer, hflush]

end Outlet

end SpiBridge
