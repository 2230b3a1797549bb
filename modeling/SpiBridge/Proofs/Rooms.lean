import SpiBridge.Proofs.Containment
import SpiBridge.Proofs.SlaveDelivery
/-!
# The room that frames need

The buffers of a bridge may have any size.  Main statements: a frame that is supplied
whole reaches the other side if and only if each buffer has room for what goes through
it, and otherwise the transaction is given up for lack of room, with nothing of the
frame written; and buffers of the usual sizes have room for whatever a bridge meets.
-/

namespace SpiBridge

open Command (Header Frame)

/-! ## Buffers of the usual sizes -/

theorem Command.Header.not_isOverflow_of_parse {bytes : Bytes} {e : FramingError}
    (h : Header.parse bytes = .error e) : e.isOverflow = false := by
  unfold Header.parse at h
  split at h
  · split at h
    · cases h
      rfl
    · split at h <;> cases h
      rfl
  · cases h
    rfl

/-- The buffers have room for the raw bytes of every frame. -/
structure Transaction.FitsAll (t : Transaction) : Prop where
  frame : Header.maxFrame ≤ t.frame.capacity
  wire : Header.maxFrame ≤ t.wire.capacity

namespace Turn

variable {readiness : Readiness} {now : Instant} {s q : Scene} {r : Ending} {phase : Phase}
  {target : Nat} {e : FramingError} {origin : Sync.Origin}

def HasRoom : Ending → Prop
  | .error (.transaction (.framing e)) _ => e.isOverflow = false
  | _ => True

theorem hasRoom_lapse : HasRoom (s.lapse now) := by
  rcases lapse_cases s now with hlapse | ⟨limit, hlapse⟩ <;> rw [hlapse] <;> trivial

theorem hasRoom_unforwarded (f : Outlet.Failure) : HasRoom (.error f.setback q) := by
  cases f <;> trivial

theorem hasRoom_of_lend (htarget : target ≤ s.bridge.transaction.frame.capacity)
    (hlend : s.bridge.transaction.frame.lend (s.missing target) = .error e) : HasRoom r := by
  obtain ⟨-, hfull⟩ := Buffer.overflow_of_lend hlend
  have hcapacity := s.bridge.transaction.frame.length_add_remaining
  unfold Scene.missing at hfull
  omega

section

variable (h : s.bridge.transaction.FitsAll)
include h

theorem hasRoom_of_unfilled {error : IntakeError} {i : Intake} (htarget : target ≤ Header.maxFrame)
    (hfill : s.intake.fill target = (.error error, i)) : HasRoom (.error error.setback q) := by
  cases error with
  | framing e =>
    exact Intake.not_isOverflow_of_fill (i := s.intake) (Nat.le_trans htarget h.frame)
      (Nat.le_trans htarget h.wire) hfill
  | transport e => trivial

theorem hasRoom_of_slaveHeader (hend : SlaveHeaderEnding now s r) : HasRoom r := by
  cases hend with
  | unfilled hfill => exact hasRoom_of_unfilled h (by decide) hfill
  | malformed hfill hparse => exact Header.not_isOverflow_of_parse hparse
  | unforwarded => exact hasRoom_unforwarded _
  | _ => trivial

theorem hasRoom_of_slavePayload (hend : SlavePayloadEnding s r) : HasRoom r := by
  cases hend with
  | malformed hparse => exact Header.not_isOverflow_of_parse hparse
  | unfilled hparse hfill =>
    exact hasRoom_of_unfilled h (Header.frameLength_le_of_parse hparse) hfill
  | unforwarded => exact hasRoom_unforwarded _
  | delivered => trivial

theorem hasRoom_of_answer (hend : AnswerEnding readiness now s r) : HasRoom r := by
  cases hend with
  | unready | blocked | incomplete => exact hasRoom_lapse
  | malformed hready htarget =>
    have hheader := Transaction.header?_eq_error (Transaction.answerLength_eq_error htarget)
    exact Header.not_isOverflow_of_parse hheader.2
  | noRoom hready htarget hlend =>
    exact hasRoom_of_lend (Nat.le_trans (Transaction.answerLength_le htarget) h.frame) hlend
  | broken _ _ _ _ _ hheader =>
    exact Header.not_isOverflow_of_parse (Transaction.header?_eq_error hheader).2
  | _ => trivial

theorem hasRoom_of_masterHeader (hend : MasterHeaderEnding readiness s r) : HasRoom r := by
  cases hend with
  | noRoom hready hlend => exact hasRoom_of_lend (Nat.le_trans (by decide) h.frame) hlend
  | malformed _ _ _ _ hheader =>
    exact Header.not_isOverflow_of_parse (Transaction.header?_eq_error hheader).2
  | unexpected => rfl
  | _ => trivial

theorem hasRoom_of_masterPayload (hend : MasterPayloadEnding readiness s r) : HasRoom r := by
  cases hend with
  | malformed hready hparse => exact Header.not_isOverflow_of_parse hparse
  | noRoom hready hparse hlend =>
    exact hasRoom_of_lend (Nat.le_trans (Header.frameLength_le_of_parse hparse) h.frame) hlend
  | _ => trivial

end

theorem hasRoom_of_send (h : s.bridge.transaction.Sendable) (hend : SendEnding origin s r) :
    HasRoom r := by
  rcases sent_of_ending h hend with ⟨wire, error, bus, q, -, rfl⟩ | ⟨wire, bus, rfl, -⟩ <;> trivial

end Turn

/-- A step that did not end for lack of room, and for which a frame that it was to send could be
numbered. -/
structure Move.HasRoom (m : Move) : Prop where
  outcome : ∀ e, m.outcome = .ok (.aborted (.framing e)) → e.isOverflow = false
  numbered : ∀ origin, m.before.transaction.phase.sender? = some origin →
    ∃ header serials, Sync.Header.next m.before.serials origin
      m.before.transaction.frame.filled.length = .ok (header, serials)

namespace Bridge

variable {b : Bridge} {e : Encounter} {origin : Sync.Origin}

structure Ample (b : Bridge) : Prop where
  lasting : b.transaction.Lasting
  frame : b.transaction.frame.capacity = Transaction.frameRoom
  wire : b.transaction.wire.capacity = Transaction.wireRoom

theorem ample_of_start {timing : Timing} {wiring : Wiring}
    (hstart : (start (.ofRooms Transaction.frameRoom Transaction.wireRoom) timing wiring).1 =
      .ok b) : b.Ample := by
  have hfresh := fresh_of_start hstart
  exact ⟨hfresh.coherent.lasting, hfresh.frame, hfresh.wire⟩

theorem ample_of_move (h : b.Ample) (e : Encounter) : (b.move e).after.Ample := by
  have hkeeps := keeps_of_move b e
  exact ⟨lasting_of_move e h.lasting, hkeeps.frame.trans h.frame, hkeeps.wire.trans h.wire⟩

theorem Ample.sendable (h : b.Ample) (hsender : b.transaction.phase.sender? = some origin) :
    b.transaction.Sendable := by
  have hdeaf : b.transaction.phase.hearsSlave = false := by
    cases hphase : b.transaction.phase <;> rw [hphase] at hsender <;>
      simp_all [Phase.sender?, Phase.hearsSlave]
  exact (sendable_of_coherent (h.lasting.coherent hdeaf) h.wire hsender).1

theorem Ample.hasRoom_of_ending {level : Bool} {line : Line} {r : Turn.Ending} (h : b.Ample)
    (hend : Turn.EndingOf e.readiness e.now (e.scene b level line) b.transaction.phase r) :
    Turn.HasRoom r := by
  have hfits : b.transaction.FitsAll := ⟨by rw [h.frame]; decide, by rw [h.wire]; decide⟩
  have hsends : ∀ origin, b.transaction.phase.sender? = some origin → Turn.HasRoom r :=
    fun origin hsender => Turn.hasRoom_of_send (s := e.scene b level line) (h.sendable hsender)
      (Turn.sendEnding_of_ending hsender hend)
  cases hphase : b.transaction.phase <;> rw [hphase] at hend hsends
  case idle => cases hend <;> trivial
  case slaveHeader => exact Turn.hasRoom_of_slaveHeader hfits hend
  case slavePayload => exact Turn.hasRoom_of_slavePayload hfits hend
  case slaveAwaitingHostAnswer => exact Turn.hasRoom_of_answer hfits hend
  case masterHeader => exact Turn.hasRoom_of_masterHeader hfits hend
  case masterPayload => exact Turn.hasRoom_of_masterPayload hfits hend
  case slaveAnswerToBus | masterToBus => exact hsends _ rfl

theorem Ample.hasRoom (h : b.Ample) (e : Encounter) : (b.move e).HasRoom := by
  constructor
  · intro error houtcome
    have hmoves := moves_move b e
    generalize b.move e = m at hmoves houtcome
    cases hmoves with
    | unsampled | failed => cases houtcome
    | done hsample hend =>
      cases houtcome
      exact absurd hend ne_aborted_of_ending
    | aborted hsample hend =>
      cases houtcome
      exact h.hasRoom_of_ending hend
  · intro origin hsender
    exact ⟨_, _, Sync.Header.next_of_lt _ origin (h.sendable hsender).length⟩

/-! ## Buffers of any sizes -/

theorem transaction_of_begins (h : (b.move e).begins? = some origin) :
    (b.move e).after.transaction = b.transaction.start origin := by
  have hphase := phase_of_begins h
  rcases hsample : e.wiring.line.sample with ⟨error | level, line⟩
  · rw [(begins_of_unsampled hsample).1] at h
    cases h
  obtain ⟨r, hend, hmove⟩ := exists_turn_of_move hsample hphase
  rw [hmove] at h ⊢
  unfold Move.begins? at h
  simp only [hphase] at h
  cases hend with
  | answersRequest =>
    obtain rfl : Sync.Origin.slave = origin := Option.some.inj h
    rfl
  | hearsHost =>
    obtain rfl : Sync.Origin.master = origin := Option.some.inj h
    rfl
  | rests =>
    have hrests : Phase.idle.begins? b.transaction.phase = some origin := h
    rw [hphase] at hrests
    cases hrests

/-- A frame that the host supplies whole over steps in time is sent to the slave, by one of them or
by the step behind them at any time, or it is given up for lack of room. -/
def SendsHost (b : Bridge) (origin : Sync.Origin) : Prop :=
  ∀ (f : Frame) (c : Channel) (more : Bytes) (es late : List Encounter) (e' : Encounter),
    f.Valid → (origin = .master → f.header.command.isWrite = true) →
    c.waiting = f.toBytes ++ more →
    Channel.Brings IoError.isTransient c.arrivals f.toBytes.length →
    (∀ e ∈ es, e.wiring.line.failure = none ∧ e.wiring.bus.Yields IoError.isTransient ∧
      ∀ deadline ∈ b.transaction.deadline, deadline.reachedBy e.now = false) →
    e'.wiring.line.failure = none → e'.wiring.bus.Yields IoError.isTransient →
    b.Supplied f.toBytes c es →
    ∃ ps last, b.untilDone c (es ++ e' :: late) = some (ps ++ [last]) ∧
      b.Delivers origin f more ps last

/-- What the slave asks of a bridge: a write that the bus brings whole goes to the host, and a
read goes there and is answered, or they are given up for lack of room. -/
structure HandsOver (b : Bridge) : Prop where
  write : ∀ (f : Frame) (e : Encounter) (rest : Bytes), f.Valid →
    f.header.command.isWrite = true → e.Benign b.timing → e.BringsFrame f.toBytes rest →
    ∃ p, b.pass? e = some p ∧
      (b.Relays f rest p ∨
        p.outcome = .continues ∧ p.toHost = [] ∧
          ∀ e' : Encounter, e'.Benign b.timing → e'.wiring.bus = p.left.bus →
            ∃ p', p.after.pass? e' = some p' ∧ b.Relays f rest p')
  read : ∀ (f : Frame) (e : Encounter) (rest : Bytes) (deadline : Instant), f.Valid →
    f.header.command.isRead = true → e.Benign b.timing → e.BringsFrame f.toBytes rest →
    e.now.after? b.timing.answer = some deadline →
    ∃ p, b.pass? e = some p ∧ b.Keeps p.after ∧
      (b.transaction.FitsHeader → p.outcome = .continues ∧ p.toHost = f.toBytes ∧
        p.left.bus.waiting = rest ∧ p.after.transaction.deadline = some deadline ∧
        p.after.SendsHost .slave) ∧
      (¬ b.transaction.FitsHeader → p.Overflows ∧ p.toHost = [])

theorem sendsHost_of_expects (h : b.transaction.Expects origin) : b.SendsHost origin :=
  fun _ _ _ _ _ _ hf hsuits hwaiting hbrings hes hline hbus hsupplied =>
    untilDone_of_expects h hf hsuits hwaiting hbrings hes hline hbus hsupplied

theorem handsOver_of_coherent (h : b.transaction.Coherent)
    (hphase : b.transaction.phase = .slaveHeader) : b.HandsOver := by
  constructor
  · intro f e rest hf hwrite hbenign hbus
    exact relay_write h hphase hf hwrite hbenign hbus
  · intro f e rest deadline hf hread hbenign hbus hdeadline
    have hnotWrite : f.header.command.isWrite = false := by
      simpa [Command.isRead] using hread
    by_cases hroom : b.transaction.FitsHeader
    · obtain ⟨p, hpass, houtcome, htoHost, -, hleft, hawaiting, hempty, hset⟩ :=
        relay_read h hroom hphase hf hnotWrite hbenign hbus hdeadline
      have hexpects :=
        Transaction.expects_of_awaiting (coherent_of_pass? h hpass).1 hawaiting hempty
      refine ⟨p, hpass, keeps_of_pass? hpass, fun _ => ?_, fun hshort => absurd hroom hshort⟩
      exact ⟨houtcome, htoHost, hleft, hset, sendsHost_of_expects hexpects⟩
    · obtain ⟨p, hpass, hgiven⟩ := refuse_header h hroom hphase hbenign.line hbus
      exact ⟨p, hpass, keeps_of_pass? hpass, fun hfits => absurd hfits hroom, fun _ => hgiven⟩

/-- What a bridge needs its buffers for, and no more: whatever it met before, the frames of each
transaction that it begins come to the other side if its buffers have room for them, and the
transaction is given up for lack of room if one of them has not.  With buffers of the usual sizes
nothing is ever given up for lack of room, whatever is read, and every frame can be numbered. -/
theorem rooms_exact {frameRoom wireRoom : Nat} {timing : Timing} {wiring : Wiring}
    (hstart : (start (.ofRooms frameRoom wireRoom) timing wiring).1 = .ok b)
    (es : List Encounter) :
    (∀ m ∈ b.course es,
      m.after.transaction.frame.capacity = frameRoom ∧
      m.after.transaction.wire.capacity = wireRoom ∧
      (m.begins? = some .master → m.after.SendsHost .master) ∧
      (m.begins? = some .slave → m.after.HandsOver)) ∧
    (frameRoom = Transaction.frameRoom → wireRoom = Transaction.wireRoom →
      ∀ m ∈ b.course es, m.HasRoom) := by
  constructor
  · intro m hm
    have hrooms : b.transaction.frame.capacity = frameRoom ∧
        b.transaction.wire.capacity = wireRoom := by
      obtain ⟨level, rfl⟩ := start_eq_ok hstart
      simp [Transaction.reset, Transaction.ofRooms]
    obtain ⟨c, e, ⟨hframe, hwire⟩, rfl⟩ := exists_move_of_invariant
      (I := fun c => c.transaction.frame.capacity = frameRoom ∧
        c.transaction.wire.capacity = wireRoom)
      (fun c e hc => ⟨(keeps_of_move c e).frame.trans hc.1, (keeps_of_move c e).wire.trans hc.2⟩)
      hrooms hm
    have hkeeps := keeps_of_move c e
    refine ⟨hkeeps.frame.trans hframe, hkeeps.wire.trans hwire, fun hbegins => ?_,
      fun hbegins => ?_⟩
    · have hexpects : (c.move e).after.transaction.Expects .master := by
        rw [transaction_of_begins hbegins]
        exact ⟨Transaction.coherent_start _ _, rfl, rfl, Buffer.filled_reset _⟩
      exact sendsHost_of_expects hexpects
    · have hstarted := transaction_of_begins hbegins
      refine handsOver_of_coherent ?_ ?_ <;> rw [hstarted]
      · exact Transaction.coherent_start _ _
      · rfl
  · rintro rfl rfl m hm
    obtain ⟨c, e, hample, rfl⟩ := exists_move_of_invariant (I := Ample)
      (fun c e hc => ample_of_move hc e) (ample_of_start hstart) hm
    exact hample.hasRoom e

/-- A buffer of eleven bytes for the bus holds a frame of five, unless one of them is escaped. -/
theorem rooms_exact_of_small_buffers :
    ∃ m ∈ (atRest (.ofRooms 5 11)).course [.ofHost []],
      (∃ ps last, m.after.untilDone { arrivals := [.data [0, 5, 1], .failed .blocked,
          .data [0, 9, 0xBB]] } (List.replicate 8 (.ofHost []) ++ [{ wiring := {} }]) =
          some (ps ++ [last]) ∧
        last.outcome = .completed .master ∧ last.left.inbound.waiting = [0xBB] ∧
        (ps ++ [last]).flatMap Pass.toBus = [0x63, 0, 0x01, 0x80, 5, 0, 0, 5, 1, 0, 9]) ∧
      ∃ ps last, m.after.untilDone { arrivals := [.data [0, 5, 1, 0, 0x27]] }
          (List.replicate 8 (.ofHost []) ++ [{ wiring := {} }]) = some (ps ++ [last]) ∧
        last.Overflows ∧ (ps ++ [last]).flatMap Pass.toBus = [] := by
  have hstart : (start (.ofRooms 5 11) {} {}).1 = .ok (atRest (.ofRooms 5 11)) := rfl
  let m := (atRest (.ofRooms 5 11)).move (.ofHost [])
  have hm : m ∈ (atRest (.ofRooms 5 11)).course [.ofHost []] := List.mem_singleton.2 rfl
  obtain ⟨-, -, hsends, -⟩ := (rooms_exact hstart [.ofHost []]).1 m hm
  have hyields : Channel.Yields IoError.isTransient {} := ⟨by simp, rfl, by simp⟩
  have hready : ∀ e ∈ List.replicate 8 (Encounter.ofHost []), e.wiring.line.failure = none ∧
      e.wiring.bus.Yields IoError.isTransient ∧
      ∀ deadline ∈ m.after.transaction.deadline, deadline.reachedBy e.now = false := by
    intro e he
    rw [(List.mem_replicate.1 he).2]
    exact ⟨rfl, hyields, nofun⟩
  refine ⟨m, hm, ?_, ?_⟩
  · obtain ⟨ps, last, hdone, hdelivers⟩ := hsends (by decide) ⟨⟨.writeRegister, 5, 1⟩, [9]⟩
      { arrivals := [.data [0, 5, 1], .failed .blocked, .data [0, 9, 0xBB]] } [0xBB] _ []
      { wiring := {} } ⟨by decide, rfl⟩ (fun _ => rfl) rfl (by decide) hready rfl hyields
      (.inr (by decide))
    obtain ⟨hcompleted, htoBus, hleft⟩ := hdelivers.fits ⟨by decide, by decide⟩
    exact ⟨ps, last, hdone, hcompleted, hleft, htoBus.trans (by decide)⟩
  · obtain ⟨ps, last, hdone, hdelivers⟩ := hsends (by decide) ⟨⟨.writeRegister, 5, 1⟩, [0x27]⟩
      { arrivals := [.data [0, 5, 1, 0, 0x27]] } [] _ [] { wiring := {} }
      ⟨by decide, rfl⟩ (fun _ => rfl) rfl (by decide) hready rfl hyields (.inr (by decide))
    obtain ⟨hoverflows, hsilent⟩ := hdelivers.short fun hfits => absurd hfits.wire (by decide)
    exact ⟨ps, last, hdone, hoverflows, hsilent⟩

end Bridge

end SpiBridge
