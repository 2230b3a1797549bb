import SpiBridge.Proofs.Hearing
import SpiBridge.Proofs.Overflow
/-!
# Frames of the host

A frame of the host, be it a command or an answer, arrives in pieces of any size, and the
bridge sends it to the slave once it is whole.  Main statement: after steps in time that are
given the whole frame, the next step sends it if both buffers have room for it, whenever it
comes; otherwise the transaction is given up for lack of room, with nothing written to the bus.
-/

namespace SpiBridge

open Command (Header Frame)

theorem Line.sample_of_works {l : Line} (h : l.failure = none) :
    ∃ level line, l.sample = (.ok level, line) := by
  unfold sample
  rw [h]
  cases l.upcoming with
  | nil => exact ⟨_, _, rfl⟩
  | cons level rest => exact ⟨_, _, rfl⟩

theorem Phase.hears_or_sends {phase : Phase} {origin : Sync.Origin}
    (hside : phase.side? = some origin) (hholds : phase.holdsHost = true) :
    phase.hearsHost = true ∨ phase.sender? = some origin := by
  cases phase <;> simp_all [side?, holdsHost, hearsHost, sender?]

namespace Transaction

variable {t : Transaction} {origin : Sync.Origin} {f : Frame} {c : Channel} {more : Bytes}

/-- A transaction of a side reads a frame of the host, of which nothing has come yet. -/
structure Expects (t : Transaction) (origin : Sync.Origin) : Prop where
  coherent : t.Coherent
  side : t.phase.side? = some origin
  hears : t.phase.hearsHost = true
  empty : t.frame.filled = []

/-- A transaction of a side reads a frame of the host, of which a channel brings what is
missing, and other bytes behind it. -/
structure Collects (t : Transaction) (origin : Sync.Origin) (f : Frame) (c : Channel)
    (more : Bytes) : Prop where
  coherent : t.Coherent
  side : t.phase.side? = some origin
  hears : t.phase.hearsHost = true
  bytes : t.frame.filled ++ c.waiting = f.toBytes ++ more
  brings : Channel.Brings IoError.isTransient c.arrivals
    (f.toBytes.length - t.frame.filled.length)

structure Collected (t : Transaction) (origin : Sync.Origin) (f : Frame) (c : Channel)
    (more : Bytes) : Prop where
  coherent : t.Coherent
  sender : t.phase.sender? = some origin
  frame : t.frame.filled = f.toBytes
  waiting : c.waiting = more

def readsToGo (t : Transaction) (f : Frame) (c : Channel) : Nat :=
  c.arrivals.length + (f.toBytes.length - t.frame.filled.length)

/-- The buffers have room for a frame on its way to the slave: for its raw bytes, and for the
whole synchronization frame. -/
structure FitsBus (t : Transaction) (raw : Bytes) : Prop where
  frame : raw.length ≤ t.frame.capacity
  wire : Sync.Header.size + Escape.encodedLength raw ≤ t.wire.capacity

namespace Collects

variable (h : t.Collects origin f c more) (hf : f.Valid)
include h hf

theorem missing : t.frame.filled.length < f.toBytes.length :=
  (h.coherent.unfinished h.hears).length_lt_of_front hf h.bytes

theorem eq_header {header : Header} (hparse : Header.parse t.frame.filled = .ok header) :
    header = f.header := by
  have hfront := Frame.header_of_front hf h.bytes (Header.size_le_of_parse hparse)
  rw [hparse] at hfront
  exact Except.ok.inj hfront

theorem le_of_answerLength {target : Nat} (htarget : t.answerLength = .ok target) :
    target ≤ f.toBytes.length := by
  rcases answerLength_eq_ok htarget with ⟨-, rfl⟩ | ⟨header, hparse, rfl⟩
  · exact Frame.size_le_length_toBytes f
  · exact Nat.le_of_eq (by rw [h.eq_header hf hparse, Frame.length_toBytes_of_valid hf])

end Collects

theorem header?_ne_error {tail : Bytes} {e : FramingError} (hf : f.Valid)
    (h : t.frame.filled ++ tail = f.toBytes ++ more) : t.header? ≠ .error e := by
  intro hheader
  obtain ⟨hsize, hparse⟩ := header?_eq_error hheader
  rw [Frame.header_of_front hf h hsize] at hparse
  cases hparse

end Transaction

/-! ## Turns -/

namespace Turn

variable {readiness : Readiness} {now : Instant} {s : Scene} {r : Ending} {phase : Phase}
  {origin : Sync.Origin} {f : Frame} {more : Bytes} {target : Nat} {lent bytes : Bytes}
  {c : Channel}

/-- How a turn goes on with a frame of the host: if something was ready the reads to go became
fewer, unless the frame is complete, or the buffer has too little room for it. -/
inductive Collecting (readiness : Readiness) (origin : Sync.Origin) (f : Frame) (more : Bytes)
    (s : Scene) : Ending → Prop
  | collects {q : Scene} (h : q.bridge.transaction.Collects origin f q.wiring.inbound more)
      (hdeadline : q.bridge.transaction.deadline = s.bridge.transaction.deadline)
      (hfewer : q.bridge.transaction.readsToGo f q.wiring.inbound +
        (if readiness.inbound then 1 else 0) ≤
          s.bridge.transaction.readsToGo f s.wiring.inbound) :
      Collecting readiness origin f more s (.ok .continues q)
  | collected {q : Scene} (h : q.bridge.transaction.Collected origin f q.wiring.inbound more) :
      Collecting readiness origin f more s (.ok .continues q)
  | overflows {e : FramingError} {q : Scene} (hoverflow : e.isOverflow = true)
      (hroom : s.bridge.transaction.frame.capacity < f.toBytes.length) :
      Collecting readiness origin f more s (.error (.transaction (.framing e)) q)

variable (h : s.bridge.transaction.Collects origin f s.wiring.inbound more) (hf : f.Valid)
include h

theorem collecting_of_unready (hready : readiness.inbound = false) :
    Collecting readiness origin f more s (.ok .continues s) := by
  refine .collects h rfl ?_
  rw [hready]
  exact Nat.le_refl _

omit h in
theorem collecting_of_noRoom {e : FramingError} (hle : target ≤ f.toBytes.length)
    (hlend : s.bridge.transaction.frame.lend (s.missing target) = .error e) :
    Collecting readiness origin f more s (.error (.transaction (.framing e)) s) := by
  obtain ⟨hoverflow, hfull⟩ := Buffer.overflow_of_lend hlend
  have hcapacity := s.bridge.transaction.frame.length_add_remaining
  unfold Scene.missing at hfull
  exact .overflows hoverflow (by omega)

include hf

theorem asking_of_collects (hless : s.bridge.transaction.frame.filled.length < target) :
    (∃ c, s.asking target = (.ok none, c) ∧
      (s.listening c).bridge.transaction.Collects origin f c more ∧
      c.arrivals.length < s.wiring.inbound.arrivals.length) ∨
    ∃ bytes c, s.asking target = (.ok (some bytes), c) ∧ bytes ≠ [] ∧
      Channel.Brings IoError.isTransient c.arrivals
        (f.toBytes.length - s.bridge.transaction.frame.filled.length - bytes.length) ∧
      c.arrivals.length ≤ s.wiring.inbound.arrivals.length := by
  have hroom : s.missing target ≠ 0 := by
    rw [Buffer.length_filled] at hless
    unfold Scene.missing
    omega
  obtain ⟨n, hn⟩ : ∃ n, f.toBytes.length - s.bridge.transaction.frame.filled.length = n + 1 :=
    ⟨_, (Nat.sub_add_cancel (by have := h.missing hf; omega)).symm⟩
  have hbrings := h.brings
  rw [hn] at hbrings
  rcases Channel.readSome_of_brings (fun _ he => he) hbrings hroom with
    ⟨e, c, hread, -, -, hrest, hfewer⟩ | ⟨bytes, c, hread, hne, hrest, hfewer⟩
  · refine .inl ⟨c, hread, ⟨h.coherent, h.side, h.hears, ?_, hn ▸ hrest⟩, hfewer⟩
    have hwaiting := (Channel.readsTo_of_readSome hread).waiting
    rw [show Channel.bytesOf _ = ([] : Bytes) from rfl, List.nil_append] at hwaiting
    rw [← hwaiting]
    exact h.bytes
  · exact .inr ⟨bytes, c, hread, hne, hn ▸ hrest, hfewer⟩

theorem collecting_of_unread {e : TransportError}
    (hless : s.bridge.transaction.frame.filled.length < target)
    (hask : s.asking target = (.error e, c)) : Collecting readiness origin f more s r := by
  rcases asking_of_collects h hf hless with ⟨c, hask', -⟩ | ⟨bytes, c, hask', -⟩ <;>
    rw [hask'] at hask <;> cases hask

theorem collecting_of_closed (hless : s.bridge.transaction.frame.filled.length < target)
    (hask : s.asking target = (.ok (some []), c)) : Collecting readiness origin f more s r := by
  rcases asking_of_collects h hf hless with ⟨c, hask', -⟩ | ⟨bytes, c, hask', hne, -⟩ <;>
    rw [hask'] at hask <;> cases hask
  exact absurd rfl hne

theorem collecting_of_blocked (hready : readiness.inbound = true)
    (hless : s.bridge.transaction.frame.filled.length < target)
    (hask : s.asking target = (.ok none, c)) :
    Collecting readiness origin f more s (.ok .continues (s.listening c)) := by
  rcases asking_of_collects h hf hless with ⟨c', hask', hcollects, hfewer⟩ | ⟨bytes, c', hask', -⟩
  · obtain rfl : c' = c := (Prod.mk.inj (hask'.symm.trans hask)).2
    refine .collects hcollects rfl ?_
    rw [if_pos hready]
    show c'.arrivals.length +
        (f.toBytes.length - s.bridge.transaction.frame.filled.length) + 1 ≤
      s.wiring.inbound.arrivals.length +
        (f.toBytes.length - s.bridge.transaction.frame.filled.length)
    omega
  · rw [hask'] at hask
    cases hask

omit hf in
theorem front_of_hearing
    (hlend : s.bridge.transaction.frame.lend (s.missing target) = .ok lent)
    (hask : s.asking target = (.ok (some bytes), c)) :
    (s.hearing c bytes).bridge.transaction.frame.filled ++ c.waiting = f.toBytes ++ more := by
  rw [Scene.filled_hearing hlend hask, List.append_assoc, ← Channel.waiting_of_readSome hask]
  exact h.bytes

theorem collecting_of_heard {q : Scene} (hready : readiness.inbound = true)
    (hless : s.bridge.transaction.frame.filled.length < target)
    (hlend : s.bridge.transaction.frame.lend (s.missing target) = .ok lent)
    (hask : s.asking target = (.ok (some bytes), c))
    (hframe : q.bridge.transaction.frame = (s.hearing c bytes).bridge.transaction.frame)
    (hinbound : q.wiring.inbound = c) (hcoherent : q.bridge.transaction.Coherent)
    (hside : q.bridge.transaction.phase.side? = some origin)
    (hholds : q.bridge.transaction.phase.holdsHost = true)
    (hdeadline : q.bridge.transaction.phase.hearsHost = true →
      q.bridge.transaction.deadline = s.bridge.transaction.deadline) :
    Collecting readiness origin f more s (.ok .continues q) := by
  have hbytes := front_of_hearing h hlend hask
  rw [← hframe] at hbytes
  -- Whether the frame is whole shows in the phase, for the transaction is coherent.
  rcases Phase.hears_or_sends hside hholds with hhears | hsender
  · rcases asking_of_collects h hf hless with
      ⟨c, hask', -⟩ | ⟨got, c, hask', hne, hbrings, hfewer⟩ <;>
      rw [hask'] at hask <;> cases hask
    have hpositive := List.length_pos_iff.2 hne
    have hgrown : q.bridge.transaction.frame.filled.length =
        s.bridge.transaction.frame.filled.length + bytes.length := by
      rw [hframe, Scene.filled_hearing hlend hask', List.length_append]
    subst hinbound
    have hcollects : q.bridge.transaction.Collects origin f q.wiring.inbound more := by
      refine ⟨hcoherent, hside, hhears, hbytes, ?_⟩
      rw [hgrown, ← Nat.sub_sub]
      exact hbrings
    have hmissing := hcollects.missing hf
    refine .collects hcollects (hdeadline hhears) ?_
    unfold Transaction.readsToGo
    rw [if_pos hready]
    omega
  · obtain ⟨g, hparse⟩ := hcoherent.exists_frame hsender
    obtain ⟨hwhole, hwaiting⟩ := Frame.eq_toBytes_of_front hf hbytes hparse
    exact .collected ⟨hcoherent, hsender, hwhole, hinbound ▸ hwaiting⟩

theorem collecting_of_answer (hphase : s.bridge.transaction.phase = .slaveAwaitingHostAnswer)
    (hearly : ∀ deadline ∈ s.bridge.transaction.deadline, deadline.reachedBy now = false)
    (hend : AnswerEnding readiness now s r) : Collecting readiness origin f more s r := by
  have hless : ∀ {target}, s.bridge.transaction.answerLength = .ok target →
      s.bridge.transaction.frame.filled.length < target := fun htarget =>
    Transaction.length_lt_of_answerLength htarget (h.coherent.unfinished h.hears)
  have hcoherent : ∀ {q}, r = .ok .continues q → q.bridge.transaction.Coherent :=
    fun hr => coherent_of_answer hphase h.coherent (hr ▸ hend)
  have hlapse : ∀ {q : Scene}, q.bridge.transaction.deadline = s.bridge.transaction.deadline →
      q.lapse now = .ok .continues q := fun hsame => lapse_of_early (by rwa [hsame])
  have hside := h.side
  cases hend with
  | unready hready =>
    rw [hlapse rfl]
    exact collecting_of_unready h hready
  | malformed _ htarget =>
    exact absurd (Transaction.answerLength_eq_error htarget)
      (Transaction.header?_ne_error hf h.bytes)
  | noRoom _ htarget hlend => exact collecting_of_noRoom (h.le_of_answerLength hf htarget) hlend
  | unread _ htarget _ hask => exact collecting_of_unread h hf (hless htarget) hask
  | @blocked _ _ c hready htarget _ hask =>
    rw [hlapse (q := s.listening c) rfl]
    exact collecting_of_blocked h hf hready (hless htarget) hask
  | closed _ htarget _ hask => exact collecting_of_closed h hf (hless htarget) hask
  | broken _ _ hlend hask _ hheader =>
    exact absurd hheader (Transaction.header?_ne_error hf (front_of_hearing h hlend hask))
  | @incomplete _ _ bytes c _ hready htarget hlend hask =>
    rw [hlapse (q := s.hearing c bytes) rfl]
    exact collecting_of_heard h hf hready (hless htarget) hlend hask rfl rfl
      (hcoherent (hlapse rfl)) hside (Phase.holdsHost_of_hearsHost h.hears) fun _ => rfl
  | complete hready htarget hlend hask =>
    rw [hphase] at hside
    exact collecting_of_heard h hf hready (hless htarget) hlend hask rfl rfl (hcoherent rfl) hside
      rfl nofun

theorem collecting_of_masterHeader (hphase : s.bridge.transaction.phase = .masterHeader)
    (hwrite : f.header.command.isWrite = true) (hend : MasterHeaderEnding readiness s r) :
    Collecting readiness origin f more s r := by
  have hless := h.coherent.holds
  rw [hphase] at hless
  have hcoherent : ∀ {q}, r = .ok .continues q → q.bridge.transaction.Coherent :=
    fun hr => coherent_of_masterHeader hphase h.coherent (hr ▸ hend)
  have hside := h.side
  cases hend with
  | unready hready => exact collecting_of_unready h hready
  | noRoom _ hlend => exact collecting_of_noRoom (Frame.size_le_length_toBytes f) hlend
  | unread _ _ hask => exact collecting_of_unread h hf hless hask
  | blocked hready _ hask => exact collecting_of_blocked h hf hready hless hask
  | left _ _ hask | closed _ _ hask => exact collecting_of_closed h hf hless hask
  | malformed _ hlend hask _ hheader =>
    exact absurd hheader (Transaction.header?_ne_error hf (front_of_hearing h hlend hask))
  | incomplete hready hlend hask =>
    exact collecting_of_heard h hf hready hless hlend hask rfl rfl (hcoherent rfl) hside
      (Phase.holdsHost_of_hearsHost h.hears) fun _ => rfl
  | unexpected _ hlend hask _ hheader hread =>
    have hparse := Transaction.header?_eq_some hheader
    have hfront := Frame.header_of_front hf (front_of_hearing h hlend hask)
      (Header.size_le_of_parse hparse)
    rw [hparse] at hfront
    cases hfront
    simp [Command.isRead, hwrite] at hread
  | @accepted lent bytes c header hready hlend hask =>
    rw [hphase] at hside
    refine collecting_of_heard h hf hready hless hlend hask rfl rfl (hcoherent rfl) ?_ ?_
      fun _ => rfl
    · show Phase.side? (if 0 < header.followingLength then .masterPayload else .masterToBus) = _
      split <;> exact hside
    · show Phase.holdsHost (if 0 < header.followingLength then .masterPayload else .masterToBus) = _
      split <;> rfl

theorem collecting_of_masterPayload (hphase : s.bridge.transaction.phase = .masterPayload)
    (hend : MasterPayloadEnding readiness s r) : Collecting readiness origin f more s r := by
  have hlength : ∀ {header}, Header.parse s.bridge.transaction.frame.filled = .ok header →
      header.frameLength = f.toBytes.length := fun hparse => by
    rw [h.eq_header hf hparse, Frame.length_toBytes_of_valid hf]
  have hless : ∀ {header}, Header.parse s.bridge.transaction.frame.filled = .ok header →
      s.bridge.transaction.frame.filled.length < header.frameLength := fun hparse => by
    rw [hlength hparse]
    exact h.missing hf
  have hcoherent : ∀ {q}, r = .ok .continues q → q.bridge.transaction.Coherent :=
    fun hr => coherent_of_masterPayload hphase h.coherent (hr ▸ hend)
  have hside := h.side
  cases hend with
  | unready hready => exact collecting_of_unready h hready
  | malformed _ hparse =>
    have hparses := h.coherent.holds
    rw [hphase] at hparses
    obtain ⟨header, hparse', -⟩ := hparses
    rw [hparse'] at hparse
    cases hparse
  | noRoom _ hparse hlend => exact collecting_of_noRoom (Nat.le_of_eq (hlength hparse)) hlend
  | unread _ hparse _ hask => exact collecting_of_unread h hf (hless hparse) hask
  | blocked hready hparse _ hask => exact collecting_of_blocked h hf hready (hless hparse) hask
  | closed _ hparse _ hask => exact collecting_of_closed h hf (hless hparse) hask
  | incomplete hready hparse hlend hask =>
    exact collecting_of_heard h hf hready (hless hparse) hlend hask rfl rfl (hcoherent rfl) hside
      (Phase.holdsHost_of_hearsHost h.hears) fun _ => rfl
  | complete hready hparse hlend hask =>
    rw [hphase] at hside
    exact collecting_of_heard h hf hready (hless hparse) hlend hask rfl rfl (hcoherent rfl) hside
      rfl nofun

theorem collecting_of_ending (hphase : s.bridge.transaction.phase = phase)
    (hsuits : origin = .master → f.header.command.isWrite = true)
    (hearly : ∀ deadline ∈ s.bridge.transaction.deadline, deadline.reachedBy now = false)
    (hend : EndingOf readiness now s phase r) : Collecting readiness origin f more s r := by
  have hhears := h.hears
  have hside := h.side
  rw [hphase] at hhears hside
  cases phase with
  | slaveAwaitingHostAnswer => exact collecting_of_answer h hf hphase hearly hend
  | masterHeader =>
    exact collecting_of_masterHeader h hf hphase (hsuits (Option.some.inj hside).symm) hend
  | masterPayload => exact collecting_of_masterPayload h hf hphase hend
  | idle | slaveHeader | slavePayload | slaveAnswerToBus | masterToBus => cases hhears

end Turn

theorem Buffer.overflow_of_appendSync {b : Buffer} {header : Sync.Header} {raw : Bytes}
    (hroom : b.remaining < Sync.Header.size + Escape.encodedLength raw) :
    ∃ e b', b.appendSync header raw = (.error e, b') ∧ e.isOverflow = true := by
  by_cases hheader : Sync.Header.size ≤ b.remaining
  · obtain ⟨b', hdone, -⟩ := appendSync_of_header header hheader hroom
    exact ⟨_, b', hdone, rfl⟩
  · exact ⟨_, b, appendSync_of_lt header raw (Nat.not_le.1 hheader), rfl⟩

theorem Turn.overflow_of_send {s : Scene} {origin : Sync.Origin} {r : Turn.Ending}
    (hlength : s.bridge.transaction.frame.filled.length < 65536)
    (hroom : s.bridge.transaction.wire.capacity <
      Sync.Header.size + Escape.encodedLength s.bridge.transaction.frame.filled)
    (hend : SendEnding origin s r) :
    ∃ e q, r = .error (.transaction (.framing e)) q ∧ e.isOverflow = true ∧
      q.wiring = s.wiring := by
  have hnext := Sync.Header.next_of_lt s.bridge.serials origin hlength
  rw [← Buffer.remaining_reset] at hroom
  cases hend with
  | unnumbered hnext' =>
    rw [hnext] at hnext'
    cases hnext'
  | noRoom _ hbuild =>
    obtain ⟨e, built, hbuild', hoverflow⟩ := Buffer.overflow_of_appendSync hroom
    rw [hbuild] at hbuild'
    cases hbuild'
    exact ⟨_, _, rfl, hoverflow, rfl⟩
  | unsent _ hbuild | sent _ hbuild =>
    obtain ⟨e, built, hbuild', -⟩ := Buffer.overflow_of_appendSync hroom
    rw [hbuild] at hbuild'
    cases hbuild'

/-! ## Steps -/

/-- A step that gives up its transaction for lack of room, and leaves the bridge at rest. -/
structure Pass.Overflows (p : Pass) : Prop where
  outcome : ∃ e : FramingError, e.isOverflow = true ∧ p.outcome = .aborted (.framing e)
  phase : p.after.transaction.phase = .idle
  frame : p.after.transaction.frame.filled = []
  wire : p.after.transaction.wire.filled = []

namespace Bridge

variable {b : Bridge} {e : Encounter} {es : List Encounter} {p last : Pass} {ps : List Pass}
  {origin : Sync.Origin} {f : Frame} {c : Channel} {more : Bytes}

theorem collect_step (h : b.transaction.Collects origin f e.wiring.inbound more) (hf : f.Valid)
    (hsuits : origin = .master → f.header.command.isWrite = true)
    (hline : e.wiring.line.failure = none)
    (hearly : ∀ deadline ∈ b.transaction.deadline, deadline.reachedBy e.now = false) :
    ∃ p, b.pass? e = some p ∧
      ((p.outcome = .continues ∧
          ((p.after.transaction.Collects origin f p.left.inbound more ∧
              p.after.transaction.deadline = b.transaction.deadline ∧
              p.after.transaction.readsToGo f p.left.inbound +
                (if e.readiness.inbound then 1 else 0) ≤
                b.transaction.readsToGo f e.wiring.inbound) ∨
            p.after.transaction.Collected origin f p.left.inbound more)) ∨
        p.Overflows ∧ b.transaction.frame.capacity < f.toBytes.length) := by
  obtain ⟨level, line, hsample⟩ := Line.sample_of_works hline
  obtain ⟨r, hend, hdone, hgiven⟩ := exists_turn_of_sample hsample rfl
  have hcollecting := Turn.collecting_of_ending (s := e.scene b level line) h hf rfl hsuits hearly
    hend
  cases hcollecting with
  | collects hnext hdeadline hfewer =>
    exact ⟨_, hdone rfl, .inl ⟨rfl, .inl ⟨hnext, hdeadline, hfewer⟩⟩⟩
  | collected hnext => exact ⟨_, hdone rfl, .inl ⟨rfl, .inr hnext⟩⟩
  | overflows hoverflow hroom =>
    exact ⟨_, hgiven rfl, .inr ⟨⟨⟨_, hoverflow, rfl⟩, rfl, rfl, rfl⟩, hroom⟩⟩

theorem exists_pass?_of_sends (hsend : b.transaction.Sendable)
    (hsender : b.transaction.phase.sender? = some origin)
    (hline : e.wiring.line.failure = none) (hbus : e.wiring.bus.Yields IoError.isTransient) :
    ∃ p, b.pass? e = some p := by
  obtain ⟨level, line, hsample⟩ := Line.sample_of_works hline
  obtain ⟨r, hend, hpass⟩ := exists_ending_of_sample hsample rfl
  rcases Turn.sent_of_ending (s := e.scene b level line) hsend
    (Turn.sendEnding_of_ending hsender hend) with
    ⟨wire, error, bus, q, hfailed, -⟩ | ⟨wire, bus, hturn, -⟩
  · obtain ⟨bus', hsent⟩ := Channel.writeFully_of_yields .serialBus wire hbus
    have hfailed' : e.wiring.bus.writeFully .serialBus wire = (.error error, bus) := hfailed
    rw [hsent] at hfailed'
    cases hfailed'
  · exact ⟨_, hpass hturn⟩

/-- How steps end that are to send a frame to the slave: with the whole frame, under the next
number of its side, or for lack of room with nothing at all. -/
structure Delivers (b : Bridge) (origin : Sync.Origin) (f : Frame) (more : Bytes) (ps : List Pass)
    (last : Pass) : Prop where
  fits : b.transaction.FitsBus f.toBytes → last.outcome = .completed origin ∧
    (ps ++ [last]).flatMap Pass.toBus =
      Sync.encode (b.serials.headerFor origin f.toBytes) f.toBytes ∧
    last.left.inbound.waiting = more
  short : ¬ b.transaction.FitsBus f.toBytes → last.Overflows ∧
    (ps ++ [last]).flatMap Pass.toBus = []

theorem Delivers.ne_continues (h : b.Delivers origin f more ps last) :
    last.outcome ≠ .continues := by
  by_cases hfits : b.transaction.FitsBus f.toBytes
  · rw [(h.fits hfits).1]
    exact nofun
  · obtain ⟨e, -, houtcome⟩ := (h.short hfits).1.outcome
    rw [houtcome]
    exact nofun

theorem Delivers.cons (hsilent : b.transaction.phase.sender? = none) (hpass : b.pass? e = some p)
    (h : p.after.Delivers origin f more ps last) : b.Delivers origin f more (p :: ps) last := by
  obtain ⟨-, hnothing, hserials⟩ := silent_of_pass? hsilent hpass
  have hkeeps := keeps_of_pass? hpass
  have hsame : p.after.transaction.FitsBus f.toBytes ↔ b.transaction.FitsBus f.toBytes := by
    constructor <;> rintro ⟨hframe, hwire⟩
    · exact ⟨hkeeps.frame ▸ hframe, hkeeps.wire ▸ hwire⟩
    · exact ⟨hkeeps.frame.symm ▸ hframe, hkeeps.wire.symm ▸ hwire⟩
  have hbus : (p :: ps ++ [last]).flatMap Pass.toBus = (ps ++ [last]).flatMap Pass.toBus := by
    rw [List.cons_append, List.flatMap_cons, hnothing, List.nil_append]
  refine ⟨fun hfits => ?_, fun hshort => ?_⟩
  · rw [hbus, ← hserials]
    exact h.fits (hsame.2 hfits)
  · rw [hbus]
    exact h.short (mt hsame.1 hshort)

theorem send_step (h : b.transaction.Collected origin f e.wiring.inbound more) (hf : f.Valid)
    (hline : e.wiring.line.failure = none) (hbus : e.wiring.bus.Yields IoError.isTransient) :
    ∃ p, b.pass? e = some p ∧ b.Delivers origin f more [] p := by
  have hshort := Frame.length_le_of_parse (Frame.parse_eq_ok_iff.2 ⟨hf, rfl⟩)
  unfold Header.maxFrame Header.size Header.maxPayload at hshort
  have hlength : b.transaction.frame.filled.length < 65536 := by
    rw [h.frame]
    omega
  have hframe : f.toBytes.length ≤ b.transaction.frame.capacity := by
    rw [← h.frame, Buffer.length_filled, ← Buffer.length_add_remaining]
    omega
  by_cases hroom :
      Sync.Header.size + Escape.encodedLength f.toBytes ≤ b.transaction.wire.capacity
  · have hsend : b.transaction.Sendable := ⟨hlength, by rwa [h.frame]⟩
    obtain ⟨p, hpass⟩ := exists_pass?_of_sends hsend h.sender hline hbus
    obtain ⟨hdone, -, htoBus, -⟩ := sends_of_pass? hsend h.sender hpass
    obtain ⟨hinbound, -⟩ := deaf_of_pass? (Phase.hearsHost_of_sender? h.sender) hpass
    have hraw : p.raw = f.toBytes := by
      rw [Pass.raw, (before_of_pass? hpass).1, h.frame]
    refine ⟨p, hpass, fun _ => ⟨hdone, ?_, ?_⟩, fun hno => absurd ⟨hframe, hroom⟩ hno⟩
    · rw [List.nil_append, List.flatMap_singleton, htoBus, hraw]
    · rw [hinbound]
      exact h.waiting
  · obtain ⟨level, line, hsample⟩ := Line.sample_of_works hline
    obtain ⟨r, hend, -, hgiven⟩ := exists_turn_of_sample hsample rfl
    have hfull : b.transaction.wire.capacity <
        Sync.Header.size + Escape.encodedLength b.transaction.frame.filled := by
      rw [h.frame]
      omega
    obtain ⟨error, q, hturn, hoverflow, hwiring⟩ := Turn.overflow_of_send
      (s := e.scene b level line) hlength hfull (Turn.sendEnding_of_ending h.sender hend)
    refine ⟨_, hgiven hturn, fun hfits => absurd hfits.wire hroom, fun _ => ⟨?_, ?_⟩⟩
    · exact ⟨⟨error, hoverflow, rfl⟩, rfl, rfl, rfl⟩
    · rw [List.nil_append, List.flatMap_singleton, Pass.toBus, Pass.busCalls, hwiring]
      exact congrArg (List.flatMap Call.delivered) (Channel.callsSince_self _)

/-! ## Steps up to the end of a transaction -/

def untilDone (b : Bridge) (inbound : Channel) : List Encounter → Option (List Pass)
  | [] => none
  | e :: es =>
    match b.pass? { e with wiring.inbound := inbound } with
    | none => none
    | some p =>
      if p.outcome = .continues then (p.after.untilDone p.left.inbound es).map (p :: ·)
      else some [p]

theorem untilDone_of_continues (hpass : b.pass? { e with wiring.inbound := c } = some p)
    (hgoesOn : p.outcome = .continues) :
    b.untilDone c (e :: es) = (p.after.untilDone p.left.inbound es).map (p :: ·) := by
  rw [untilDone, hpass]
  exact if_pos hgoesOn

theorem untilDone_of_ne_continues (hpass : b.pass? { e with wiring.inbound := c } = some p)
    (hends : p.outcome ≠ .continues) : b.untilDone c (e :: es) = some [p] := by
  rw [untilDone, hpass]
  exact if_neg hends

theorem waiting_of_untilDone (h : b.untilDone c es = some ps) (hlast : ps.getLast? = some last) :
    c.waiting = ps.flatMap Pass.fromHost ++ last.left.inbound.waiting := by
  induction es generalizing b c ps with
  | nil => cases h
  | cons e es ih =>
    rcases hpass : b.pass? { e with wiring.inbound := c } with _ | p
    · rw [untilDone, hpass] at h
      cases h
    have hwaiting : c.waiting = p.fromHost ++ p.left.inbound.waiting :=
      waiting_inbound_of_pass? hpass
    have hsingle : [p].getLast? = some last →
        c.waiting = [p].flatMap Pass.fromHost ++ last.left.inbound.waiting := by
      intro hp
      obtain rfl : p = last := Option.some.inj hp
      rw [List.flatMap_singleton, hwaiting]
    by_cases hgoesOn : p.outcome = .continues
    · rw [untilDone_of_continues hpass hgoesOn] at h
      obtain ⟨qs, hqs, rfl⟩ := Option.map_eq_some_iff.1 h
      cases qs with
      | nil => exact hsingle hlast
      | cons q qs =>
        rw [List.getLast?_cons_cons] at hlast
        rw [List.flatMap_cons, List.append_assoc, ← ih hqs hlast, hwaiting]
    · rw [untilDone_of_ne_continues hpass hgoesOn] at h
      cases h
      exact hsingle hlast

def hearing (b : Bridge) (inbound : Channel) : List Encounter → Bytes
  | [] => []
  | e :: es =>
    match b.pass? { e with wiring.inbound := inbound } with
    | none => []
    | some p =>
      p.fromHost ++ if p.outcome = .continues then p.after.hearing p.left.inbound es else []

theorem hearing_of_continues (hpass : b.pass? { e with wiring.inbound := c } = some p)
    (hgoesOn : p.outcome = .continues) :
    b.hearing c (e :: es) = p.fromHost ++ p.after.hearing p.left.inbound es := by
  rw [hearing, hpass]
  exact congrArg (p.fromHost ++ ·) (if_pos hgoesOn)

/-- Such steps are given a whole frame: all its bytes are read, or the host's channel is ready
often enough for all of them. -/
def Supplied (b : Bridge) (raw : Bytes) (c : Channel) (es : List Encounter) : Prop :=
  raw <+: b.hearing c es ∨
    c.arrivals.length + raw.length ≤ es.countP fun e => e.readiness.inbound

theorem length_of_collects (hpass : b.pass? { e with wiring.inbound := c } = some p)
    (h : b.transaction.Collects origin f c more)
    (hnext : p.after.transaction.Collects origin f p.left.inbound more) :
    p.after.transaction.frame.filled.length =
      b.transaction.frame.filled.length + p.fromHost.length := by
  have hwaiting : c.waiting = p.fromHost ++ p.left.inbound.waiting :=
    waiting_inbound_of_pass? hpass
  have hbytes := h.bytes.trans hnext.bytes.symm
  rw [hwaiting, ← List.append_assoc] at hbytes
  rw [← List.append_cancel_right hbytes, List.length_append]

theorem untilDone_of_collected {e' : Encounter} {late : List Encounter} (hf : f.Valid)
    (hes : ∀ e ∈ es, e.wiring.line.failure = none ∧ e.wiring.bus.Yields IoError.isTransient)
    (hline' : e'.wiring.line.failure = none) (hbus' : e'.wiring.bus.Yields IoError.isTransient)
    (h : b.transaction.Collected origin f c more) :
    ∃ last, b.untilDone c (es ++ e' :: late) = some [last] ∧
      b.Delivers origin f more [] last := by
  obtain ⟨next, others, hcons, hline, hbus⟩ : ∃ next others, es ++ e' :: late = next :: others ∧
      next.wiring.line.failure = none ∧ next.wiring.bus.Yields IoError.isTransient := by
    cases es with
    | nil => exact ⟨e', late, rfl, hline', hbus'⟩
    | cons next es =>
      obtain ⟨hline, hbus⟩ := hes next (by simp)
      exact ⟨next, es ++ e' :: late, rfl, hline, hbus⟩
  obtain ⟨last, hpass, hdelivers⟩ :=
    send_step (e := { next with wiring.inbound := c }) h hf hline hbus
  rw [hcons]
  exact ⟨last, untilDone_of_ne_continues hpass hdelivers.ne_continues, hdelivers⟩

/-- Steps in time that are given the rest of the frame, and one more step at any time, send the
frame to the slave, or give it up for lack of room. -/
theorem untilDone_of_collects {e' : Encounter} {late : List Encounter} (hf : f.Valid)
    (hsuits : origin = .master → f.header.command.isWrite = true)
    (hes : ∀ e ∈ es, e.wiring.line.failure = none ∧ e.wiring.bus.Yields IoError.isTransient ∧
      ∀ deadline ∈ b.transaction.deadline, deadline.reachedBy e.now = false)
    (hline' : e'.wiring.line.failure = none) (hbus' : e'.wiring.bus.Yields IoError.isTransient)
    (h : b.transaction.Collects origin f c more)
    (hsupplied : f.toBytes.length ≤ b.transaction.frame.filled.length + (b.hearing c es).length ∨
      b.transaction.readsToGo f c ≤ es.countP fun e => e.readiness.inbound) :
    ∃ ps last, b.untilDone c (es ++ e' :: late) = some (ps ++ [last]) ∧
      b.Delivers origin f more ps last := by
  -- A step whose channel is ready makes the reads to go fewer, so they run out before the
  -- ready steps do; and what a step reads is no longer missing.
  induction es generalizing b c with
  | nil =>
    have hmissing := h.missing hf
    unfold Transaction.readsToGo at hsupplied
    simp only [hearing, List.length_nil, List.countP_nil] at hsupplied
    omega
  | cons e es ih =>
    obtain ⟨hline, -, hearly⟩ := hes e (by simp)
    have hsilent := Phase.sender?_of_hearsHost h.hears
    obtain ⟨p, hpass, ⟨hgoesOn, hnext⟩ | ⟨hoverflows, hroom⟩⟩ :=
      collect_step (e := { e with wiring.inbound := c }) h hf hsuits hline hearly
    · have hes' : ∀ e ∈ es, e.wiring.line.failure = none ∧
          e.wiring.bus.Yields IoError.isTransient ∧
          ∀ deadline ∈ b.transaction.deadline, deadline.reachedBy e.now = false :=
        fun e he => hes e (List.mem_cons_of_mem _ he)
      have hlater : ∃ ps last, p.after.untilDone p.left.inbound (es ++ e' :: late) =
          some (ps ++ [last]) ∧ p.after.Delivers origin f more ps last := by
        rcases hnext with ⟨hcollects, hdeadline, hfewer⟩ | hcollected
        · have hgrown := length_of_collects hpass h hcollects
          rw [hearing_of_continues hpass hgoesOn, List.length_append, List.countP_cons]
            at hsupplied
          exact ih (hdeadline ▸ hes') hcollects (hsupplied.imp (fun hread => by omega)
            fun hmany => Nat.le_of_add_le_add_right (Nat.le_trans hfewer hmany))
        · obtain ⟨last, hdone, hdelivers⟩ := untilDone_of_collected hf
            (fun e he => ⟨(hes' e he).1, (hes' e he).2.1⟩) hline' hbus' hcollected
          exact ⟨[], last, hdone, hdelivers⟩
      obtain ⟨ps, last, hdone, hdelivers⟩ := hlater
      refine ⟨p :: ps, last, ?_, hdelivers.cons hsilent hpass⟩
      rw [List.cons_append, untilDone_of_continues hpass hgoesOn, hdone]
      rfl
    · obtain ⟨error, -, houtcome⟩ := hoverflows.outcome
      refine ⟨[], p, untilDone_of_ne_continues hpass (by simp [houtcome]), fun hfits => ?_,
        fun _ => ⟨hoverflows, ?_⟩⟩
      · have hframe := hfits.frame
        omega
      · obtain ⟨-, hnothing, -⟩ := silent_of_pass? hsilent hpass
        simpa using hnothing

theorem untilDone_of_expects {e' : Encounter} {late : List Encounter}
    (h : b.transaction.Expects origin) (hf : f.Valid)
    (hsuits : origin = .master → f.header.command.isWrite = true)
    (hwaiting : c.waiting = f.toBytes ++ more)
    (hbrings : Channel.Brings IoError.isTransient c.arrivals f.toBytes.length)
    (hes : ∀ e ∈ es, e.wiring.line.failure = none ∧ e.wiring.bus.Yields IoError.isTransient ∧
      ∀ deadline ∈ b.transaction.deadline, deadline.reachedBy e.now = false)
    (hline' : e'.wiring.line.failure = none) (hbus' : e'.wiring.bus.Yields IoError.isTransient)
    (hsupplied : b.Supplied f.toBytes c es) :
    ∃ ps last, b.untilDone c (es ++ e' :: late) = some (ps ++ [last]) ∧
      b.Delivers origin f more ps last := by
  refine untilDone_of_collects hf hsuits hes hline' hbus' ⟨h.coherent, h.side, h.hears, ?_, ?_⟩
    (hsupplied.imp (fun hread => ?_) fun hmany => ?_)
  · rwa [h.empty]
  · rwa [h.empty]
  · rw [h.empty, List.length_nil, Nat.zero_add]
    exact hread.length_le
  · rwa [Transaction.readsToGo, h.empty]

end Bridge

end SpiBridge
