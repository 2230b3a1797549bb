import SpiBridge.Proofs.Coherence
import SpiBridge.Proofs.Sync
import SpiBridge.Proofs.SyncWriting
/-!
# What goes over the bus

A bridge writes to the bus only when it completes a transaction whose frame it was
to send, and then it writes one synchronization frame under the next serial number
of its side.  Main statements: the buffers that every frame fits never make such a
write fail, each step of a run writes one frame or nothing, and all that a run wrote
can be taken apart into the frames that it sent, in order.
-/

namespace SpiBridge

open Command (Frame)

def Sync.Serials.headerFor (s : Sync.Serials) (origin : Sync.Origin) (raw : Bytes) :
    Sync.Header :=
  ⟨s.peek origin, UInt16.ofNat raw.length⟩

theorem Sync.Header.next_of_lt (s : Sync.Serials) (origin : Sync.Origin) {raw : Bytes}
    (hless : raw.length < 65536) :
    next s origin raw.length = .ok (s.headerFor origin raw, s.advance origin) := by
  rw [next, if_pos hless]
  rfl

/-- The raw frame fits the buffer in which it is made ready for the bus, and its length fits
the header. -/
structure Transaction.Sendable (t : Transaction) : Prop where
  length : t.frame.filled.length < 65536
  room : Sync.Header.size + Escape.encodedLength t.frame.filled ≤ t.wire.capacity

namespace Turn

variable {s : Scene} {origin : Sync.Origin} {r : Ending}

theorem sent_of_ending (hsend : s.bridge.transaction.Sendable) (hend : SendEnding origin s r) :
    (∃ wire e bus q, s.wiring.bus.writeFully .serialBus wire = (.error e, bus) ∧
        r = .error (.fault (.transport e)) q) ∨
      ∃ wire bus, r = .ok (.completed origin)
          (((s.sending (s.bridge.serials.advance origin) wire).clocking bus).finished origin) ∧
        s.wiring.bus.WritesTo bus
          (Sync.encode (s.bridge.serials.headerFor origin s.bridge.transaction.frame.filled)
            s.bridge.transaction.frame.filled) := by
  have hnext := Sync.Header.next_of_lt s.bridge.serials origin hsend.length
  have hroom := hsend.room
  rw [← Buffer.remaining_reset] at hroom
  obtain ⟨built, hbuild, hgrows⟩ := Buffer.appendSync_of_le
    (s.bridge.serials.headerFor origin s.bridge.transaction.frame.filled) hroom
  have hfilled := hgrows.filled
  rw [Buffer.filled_reset, List.nil_append] at hfilled
  cases hend with
  | unnumbered hnext' =>
    rw [hnext] at hnext'
    cases hnext'
  | noRoom hnext' hbuild' =>
    rw [hnext] at hnext'
    cases hnext'
    rw [hbuild] at hbuild'
    cases hbuild'
  | unsent _ _ hsent => exact .inl ⟨_, _, _, _, hsent, rfl⟩
  | sent hnext' hbuild' hsent =>
    rw [hnext] at hnext'
    cases hnext'
    rw [hbuild] at hbuild'
    cases hbuild'
    rw [hfilled] at hsent
    exact .inr ⟨_, _, rfl, (Channel.offersTo_of_writeFully hsent).writesTo⟩

end Turn

/-! ## Steps -/

namespace Pass

/-- The side under whose number a step sent a frame: a step that completed the transaction
from a phase that sends. -/
def sent? (p : Pass) : Option Sync.Origin :=
  match p.before.transaction.phase, p.outcome with
  | .slaveAnswerToBus, .completed .slave => some .slave
  | .masterToBus, .completed .master => some .master
  | _, _ => none

def raw (p : Pass) : Bytes :=
  p.before.transaction.frame.filled

theorem sent?_eq_none {p : Pass} (h : p.before.transaction.phase.sender? = none) :
    p.sent? = none := by
  unfold sent?
  split <;> simp_all [Phase.sender?]

theorem sender?_of_sent? {p : Pass} {origin : Sync.Origin} (h : p.sent? = some origin) :
    p.before.transaction.phase.sender? = some origin := by
  unfold sent? at h
  split at h <;> simp_all [Phase.sender?]

theorem sent?_eq_some {p : Pass} {origin : Sync.Origin}
    (h : p.before.transaction.phase.sender? = some origin)
    (hdone : p.outcome = .completed origin) : p.sent? = some origin := by
  unfold sent?
  rcases hphase : p.before.transaction.phase <;> rw [hphase] at h <;>
    simp [Phase.sender?] at h <;> subst h <;> rw [hdone]

end Pass

namespace Bridge

variable {b b' : Bridge} {e : Encounter} {p : Pass} {ps : List Pass}

theorem silent_of_pass? (hsilent : b.transaction.phase.sender? = none)
    (hpass : b.pass? e = some p) :
    p.sent? = none ∧ p.toBus = [] ∧ p.after.serials = b.serials := by
  obtain ⟨level, line, r, hend, hbefore, hmet, -, hserials, -⟩ :=
    (steps_of_pass? hpass).exists_ending
  obtain ⟨taken, hreads⟩ := readsTo_bus_of_pass? hsilent hpass
  refine ⟨Pass.sent?_eq_none (hbefore ▸ hsilent), ?_, ?_⟩
  · unfold Pass.toBus Pass.busCalls
    rw [hmet]
    exact hreads.delivered_callsSince
  · rw [hserials, Turn.serials_of_ending hsilent hend]
    rfl

theorem sends_of_pass? {origin : Sync.Origin} (hsend : b.transaction.Sendable)
    (hsender : b.transaction.phase.sender? = some origin) (hpass : b.pass? e = some p) :
    p.outcome = .completed origin ∧ p.after.transaction.phase = .idle ∧
      p.toBus = Sync.encode (b.serials.headerFor origin p.raw) p.raw ∧
      p.after.serials = b.serials.advance origin := by
  cases steps_of_pass? hpass with
  | @done level line outcome s hend =>
    rcases Turn.sent_of_ending (s := e.scene b level line) hsend
      (Turn.sendEnding_of_ending hsender hend) with
      ⟨_, _, _, _, _, hfault⟩ | ⟨wire, bus, hsent, hwrites⟩
    · cases hfault
    · cases hsent
      exact ⟨rfl, rfl, hwrites.delivered_callsSince, rfl⟩
  | @aborted level line error s hend =>
    rcases Turn.sent_of_ending (s := e.scene b level line) hsend
      (Turn.sendEnding_of_ending hsender hend) with
      ⟨_, _, _, _, _, hfault⟩ | ⟨wire, bus, hsent, hwrites⟩
    · cases hfault
    · cases hsent

theorem sendable_of_coherent {origin : Sync.Origin} {t : Transaction} (h : t.Coherent)
    (hroom : t.wire.capacity = Transaction.wireRoom) (hsender : t.phase.sender? = some origin) :
    t.Sendable ∧ ∃ frame, Frame.parse t.frame.filled = .ok frame := by
  obtain ⟨frame, hparse⟩ := h.exists_frame hsender
  have hlength := Frame.length_le_of_parse hparse
  have hwritten := Escape.encodedLength_le t.frame.filled
  unfold Command.Header.maxFrame Command.Header.size Command.Header.maxPayload at hlength
  refine ⟨⟨by omega, ?_⟩, frame, hparse⟩
  rw [hroom]
  unfold Sync.Header.size Transaction.wireRoom
  omega

/-! ## Runs -/

structure Fresh (b : Bridge) : Prop where
  coherent : b.transaction.Coherent
  phase : b.transaction.phase = .idle
  frame : b.transaction.frame.capacity = Transaction.frameRoom
  wire : b.transaction.wire.capacity = Transaction.wireRoom
  serials : ∀ origin : Sync.Origin, b.serials.peek origin = origin.serialAt 0

theorem fresh_of_start {timing : Timing} {wiring : Wiring}
    (hstart : (start (.ofRooms Transaction.frameRoom Transaction.wireRoom) timing wiring).1 =
      .ok b) : b.Fresh := by
  obtain ⟨level, rfl⟩ := start_eq_ok hstart
  refine ⟨Transaction.coherent_reset _, rfl, ?_, ?_, ?_⟩
  · simp [Transaction.reset, Transaction.ofRooms]
  · simp [Transaction.reset, Transaction.ofRooms]
  · intro origin
    rw [Sync.Origin.serialAt_zero]
    cases origin <;> rfl

theorem Run.wireRoom (hrun : b.Run ps b') (h : b.Fresh) :
    b'.transaction.wire.capacity = Transaction.wireRoom :=
  hrun.keeps.wire.trans h.wire

theorem Run.frameRoom (hrun : b.Run ps b') (h : b.Fresh) :
    b'.transaction.frame.capacity = Transaction.frameRoom :=
  hrun.keeps.frame.trans h.frame

structure Roomy (b : Bridge) : Prop where
  coherent : b.transaction.Coherent
  frame : b.transaction.frame.capacity = Transaction.frameRoom
  wire : b.transaction.wire.capacity = Transaction.wireRoom

theorem Run.roomy (hrun : b.Run ps b') (h : b.Fresh) :
    b'.Roomy :=
  ⟨hrun.coherent h.coherent, hrun.frameRoom h, hrun.wireRoom h⟩

theorem roomy_of_pass? (h : b.Roomy) (hpass : b.pass? e = some p) :
    p.after.Roomy :=
  ⟨(coherent_of_pass? h.coherent hpass).1, (keeps_of_pass? hpass).frame.trans h.frame,
    (keeps_of_pass? hpass).wire.trans h.wire⟩

end Bridge

namespace Pass

def sentBy (origin : Sync.Origin) (ps : List Pass) : Nat :=
  ps.countP fun p => p.sent? = some origin

theorem sentBy_append_none {p : Pass} (origin : Sync.Origin) (ps : List Pass)
    (h : p.sent? = none) : sentBy origin (ps ++ [p]) = sentBy origin ps := by
  simp [sentBy, h]

theorem sentBy_append_self {p : Pass} {origin : Sync.Origin} (ps : List Pass)
    (h : p.sent? = some origin) : sentBy origin (ps ++ [p]) = sentBy origin ps + 1 := by
  simp [sentBy, h]

theorem sentBy_append_of_ne {p : Pass} {origin other : Sync.Origin} (ps : List Pass)
    (h : p.sent? = some origin) (hne : other ≠ origin) :
    sentBy other (ps ++ [p]) = sentBy other ps := by
  simp [sentBy, h, hne.symm]

/-- What a step writes to the bus, behind what the steps before it wrote. -/
inductive Writes (earlier : List Pass) (p : Pass) : Prop
  | nothing (hsent : p.sent? = none) (hbus : p.toBus = [])
  | frame {origin : Sync.Origin} {header : Sync.Header} {frame : Frame}
      (hsent : p.sent? = some origin) (hparse : Frame.parse p.raw = .ok frame)
      (hserial : header.serial = origin.serialAt (sentBy origin earlier))
      (hlength : header.length.toNat = p.raw.length)
      (hbus : p.toBus = Sync.encode header p.raw)

def sentFrames (ps : List Pass) : List (Option Sync.Origin × Bytes) :=
  (ps.filter (·.sent?.isSome)).map fun p => (p.sent?, p.raw)

end Pass

namespace Bridge

variable {b b' : Bridge} {e : Encounter} {p : Pass} {ps : List Pass}

/-- The numbers to be given out next follow from how many were given out. -/
def Counts (b : Bridge) (ps : List Pass) : Prop :=
  ∀ origin : Sync.Origin, b.serials.peek origin = origin.serialAt (Pass.sentBy origin ps)

theorem writes_of_pass? (hcoherent : b.transaction.Coherent)
    (hroom : b.transaction.wire.capacity = Transaction.wireRoom) (hcounts : b.Counts ps)
    (hpass : b.pass? e = some p) : p.Writes ps ∧ p.after.Counts (ps ++ [p]) := by
  rcases hsender : b.transaction.phase.sender? with _ | origin
  · obtain ⟨hsent, hbus, hserials⟩ := silent_of_pass? hsender hpass
    refine ⟨.nothing hsent hbus, fun origin => ?_⟩
    rw [hserials, hcounts, Pass.sentBy_append_none _ _ hsent]
  · obtain ⟨hsendable, frame, hparse⟩ := sendable_of_coherent hcoherent hroom hsender
    obtain ⟨hdone, -, hbus, hserials⟩ := sends_of_pass? hsendable hsender hpass
    obtain ⟨hbefore, -⟩ := before_of_pass? hpass
    have hsent : p.sent? = some origin := Pass.sent?_eq_some (by rw [hbefore, hsender]) hdone
    have hraw : p.raw = b.transaction.frame.filled := by
      rw [Pass.raw, hbefore]
    have hless := hsendable.length
    rw [← hraw] at hparse hless
    refine ⟨.frame hsent hparse (hcounts origin) ?_ hbus, fun other => ?_⟩
    · show (UInt16.ofNat p.raw.length).toNat = p.raw.length
      rw [UInt16.toNat_ofNat']
      omega
    · rw [hserials]
      by_cases hother : other = origin
      · subst hother
        rw [Sync.Serials.peek_advance_self, hcounts, Sync.Serials.successor_serialAt,
          Pass.sentBy_append_self _ hsent]
      · rw [Sync.Serials.peek_advance_of_ne _ hother, hcounts,
          Pass.sentBy_append_of_ne _ hsent hother]

theorem Run.counts (hrun : b.Run ps b') (h : b.Fresh) : b'.Counts ps := by
  induction hrun with
  | start => exact h.serials
  | step hrun hpass ih =>
    exact (writes_of_pass? (hrun.coherent h.coherent) (hrun.wireRoom h) ih hpass).2

theorem Run.writes {front back : List Pass} (hrun : b.Run (front ++ p :: back) b')
    (h : b.Fresh) : p.Writes front := by
  obtain ⟨hfront, hpass⟩ := hrun.of_append_cons
  exact (writes_of_pass? (hfront.coherent h.coherent) (hfront.wireRoom h) (hfront.counts h)
    hpass).1

theorem Run.exists_frames (hrun : b.Run ps b') (h : b.Fresh) :
    ∃ frames : List (Sync.Header × Bytes),
      ps.flatMap Pass.toBus = (frames.flatMap fun frame => Sync.encode frame.1 frame.2) ∧
        (∀ frame ∈ frames, frame.1.length.toNat = frame.2.length) ∧
        (frames.map fun frame => (frame.1.origin?, frame.2)) = Pass.sentFrames ps := by
  induction hrun with
  | start => exact ⟨[], rfl, by simp, rfl⟩
  | @step ps b' e p hrun hpass ih =>
    obtain ⟨frames, hbus, hlengths, hframes⟩ := ih
    cases (writes_of_pass? (hrun.coherent h.coherent) (hrun.wireRoom h) (hrun.counts h)
      hpass).1 with
    | nothing hsent hnothing =>
      refine ⟨frames, ?_, hlengths, ?_⟩
      · simp [hbus, hnothing]
      · simp [hframes, Pass.sentFrames, hsent]
    | @frame origin header frame hsent hparse hserial hlength hwrite =>
      have horigin : header.origin? = some origin := by
        rw [Sync.Header.origin?, hserial]
        exact Sync.Origin.ofSerial?_eq_some_iff.2 (Sync.Origin.owns_serialAt _ _)
      refine ⟨frames ++ [(header, p.raw)], ?_, ?_, ?_⟩
      · simp [hbus, hwrite]
      · intro other hother
        rcases List.mem_append.1 hother with hother | hother
        · exact hlengths other hother
        · rw [List.mem_singleton.1 hother]
          exact hlength
      · simp only [Pass.sentFrames] at hframes ⊢
        simp [hframes, hsent, horigin]

theorem Run.split (hrun : b.Run ps b') (h : b.Fresh) :
    ∃ frames, Sync.split (ps.flatMap Pass.toBus) = .ok frames ∧
      (frames.map fun frame => (frame.1.origin?, frame.2)) = Pass.sentFrames ps := by
  obtain ⟨frames, hbus, hlengths, hframes⟩ := hrun.exists_frames h
  exact ⟨frames, hbus ▸ Sync.split_flatMap_encode hlengths, hframes⟩

/-- The bus output of every run: each step writes nothing, or it completes a transaction from
a phase that sends and writes its frame under the next number of its side.  So all that was
written can be taken apart into the frames that were sent. -/
theorem busOutput_of_start {timing : Timing} {wiring : Wiring}
    (hstart : (start (.ofRooms Transaction.frameRoom Transaction.wireRoom) timing wiring).1 =
      .ok b) (hrun : b.Run ps b') :
    (∀ front p back, ps = front ++ p :: back → p.Writes front) ∧
      ∃ frames, Sync.split (ps.flatMap Pass.toBus) = .ok frames ∧
        (frames.map fun frame => (frame.1.origin?, frame.2)) = Pass.sentFrames ps := by
  have hfresh := fresh_of_start hstart
  refine ⟨?_, hrun.split hfresh⟩
  rintro front p back rfl
  exact hrun.writes hfresh

/-- A command whose payload is escaped on the bus, after one that was given up. -/
theorem busOutput_of_start_of_command :
    ∃ ps b', (atRest (.ofRooms Transaction.frameRoom Transaction.wireRoom)).Run ps b' ∧
      ps.flatMap Pass.toBus = [0x63, 0, 0x01, 0x80, 5, 0, 0, 5, 1, 0, 0x27, 0x01] ∧
      (∀ front p back, ps = front ++ p :: back → p.Writes front) ∧
      ∃ frames, Sync.split (ps.flatMap Pass.toBus) = .ok frames ∧
        (frames.map fun frame => (frame.1.origin?, frame.2)) = Pass.sentFrames ps := by
  have hpasses : ((atRest (.ofRooms Transaction.frameRoom Transaction.wireRoom)).passes
      [.ofHost [], .ofHost [.data [9, 9, 9, 9]], .ofHost [], .ofHost [.data [0, 5, 1, 0]],
        .ofHost [.data [0x27]], .ofHost []]).map (List.flatMap Pass.toBus) =
      some [0x63, 0, 0x01, 0x80, 5, 0, 0, 5, 1, 0, 0x27, 0x01] := by
    decide +kernel
  obtain ⟨ps, hps, hbus⟩ := Option.map_eq_some_iff.1 hpasses
  have hrun := Run.of_passes hps
  have hstart : (start (.ofRooms Transaction.frameRoom Transaction.wireRoom) {} {}).1 =
      .ok (atRest (.ofRooms Transaction.frameRoom Transaction.wireRoom)) := rfl
  exact ⟨ps, _, hrun, hbus, busOutput_of_start hstart hrun⟩

end Bridge

end SpiBridge
