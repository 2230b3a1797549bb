import SpiBridge.Bridge.Turn
/-!
# What a turn comes to

Each phase has a turn of its own.  This module lists, for every phase, the ways
in which its turn may end: what was asked of the channels, what they answered, and
the bridge and wiring that are left.  Main statements: each turn ends in one of
the ways listed for it.
-/

namespace SpiBridge

def IntakeError.setback : IntakeError → Setback
  | .framing e => .transaction (.framing e)
  | .transport e => .fault (.transport e)

def Outlet.Failure.setback : Outlet.Failure → Setback
  | .transport e => .fault (.transport e)
  | .clockRange => .fault .clockRange

namespace Transaction

/-- How long the raw frame is to become: up to its header, and then to its end. -/
def answerLength (t : Transaction) : Except FramingError Nat :=
  t.header?.map fun
    | some header => header.frameLength
    | none => Command.Header.size

end Transaction

namespace Scene

def intake (s : Scene) : Intake :=
  ⟨s.bridge.transaction.frame, s.bridge.transaction.wire, s.bridge.transaction.decoder,
    s.wiring.bus⟩

def running (s : Scene) (t : Transaction) : Scene :=
  { s with bridge.transaction := t }

def taking (s : Scene) (i : Intake) : Scene :=
  { s with
    bridge.transaction := { s.bridge.transaction with
      frame := i.frame, wire := i.wire, decoder := i.decoder }
    wiring.bus := i.bus }

def handing (s : Scene) (o : Outlet) : Scene :=
  { s with wiring.outbound := o }

def hearing (s : Scene) (c : Channel) (bytes : Bytes) : Scene :=
  { s with
    bridge.transaction := { s.bridge.transaction with
      frame := s.bridge.transaction.frame.receive bytes }
    wiring.inbound := c }

def listening (s : Scene) (c : Channel) : Scene :=
  { s with wiring.inbound := c }

def sending (s : Scene) (serials : Sync.Serials) (wire : Buffer) : Scene :=
  { s with
    bridge.serials := serials
    bridge.transaction := { s.bridge.transaction with wire } }

def clocking (s : Scene) (bus : Channel) : Scene :=
  { s with wiring.bus := bus }

def finished (s : Scene) (origin : Sync.Origin) : Scene :=
  { s with
    bridge.tally := s.bridge.tally.completed origin
    bridge.transaction := s.bridge.transaction.reset }

def forwarding (s : Scene) : Except Outlet.Failure Unit × Outlet :=
  s.wiring.outbound.writeWithin .outbound s.bridge.timing.write
    s.bridge.transaction.frame.filled

def missing (s : Scene) (target : Nat) : Nat :=
  target - s.bridge.transaction.frame.length

def asking (s : Scene) (target : Nat) : Except TransportError (Option Bytes) × Channel :=
  s.wiring.inbound.readSome (s.missing target)

/-- The end of a turn that has nothing more to do than to look at the deadline. -/
def lapse (s : Scene) (now : Instant) : EStateM.Result Setback Scene Outcome :=
  match s.bridge.transaction.deadline with
  | none => .ok .continues s
  | some deadline =>
    if deadline.reachedBy now then
      .error (.transaction (.timeout s.bridge.timing.answer)) s
    else
      .ok .continues s

end Scene

namespace Turn

open Command (Header)

variable {α β : Type}

/-! ## Running an action -/

theorem bind_apply (x : Turn α) (f : α → Turn β) (s : Scene) :
    (x >>= f) s = match x s with
      | .ok a s => f a s
      | .error e s => .error e s := by
  simp only [bind, EStateM.bind]
  cases x s <;> rfl

theorem pure_apply (a : α) (s : Scene) : (pure a : Turn α) s = .ok a s := rfl

theorem get_apply (s : Scene) : (get : Turn Scene) s = .ok s s := rfl

theorem set_apply (s s' : Scene) : (set s' : Turn Unit) s = .ok () s' := rfl

theorem modify_apply (f : Scene → Scene) (s : Scene) :
    (modify f : Turn Unit) s = .ok () (f s) := rfl

theorem throw_apply (e : Setback) (s : Scene) : (throw e : Turn α) s = .error e s := rfl

theorem alter_apply (f : Transaction → Transaction) (s : Scene) :
    alter f s = .ok () (s.running (f s.bridge.transaction)) := rfl

theorem transaction_apply (s : Scene) : transaction s = .ok s.bridge.transaction s := rfl

theorem ofFraming_ok (a : α) (s : Scene) : ofFraming (.ok a) s = .ok a s := rfl

theorem ofFraming_error (e : FramingError) (s : Scene) :
    (ofFraming (.error e) : Turn α) s = .error (.transaction (.framing e)) s := rfl

theorem finish_apply (origin : Sync.Origin) (s : Scene) :
    finish origin s = .ok (.completed origin) (s.finished origin) := rfl

theorem fillFromBus_apply (target : Nat) (s : Scene) :
    fillFromBus target s = match s.intake.fill target with
      | (.ok (), i) => .ok () (s.taking i)
      | (.error e, i) => .error e.setback (s.taking i) := by
  rcases hfill : s.intake.fill target with ⟨(e | e) | _, i⟩ <;>
  · have hrun : (Intake.mk s.bridge.transaction.frame s.bridge.transaction.wire
        s.bridge.transaction.decoder s.wiring.bus).fill target = _ := hfill
    simp only [fillFromBus, bind_apply, get_apply, hrun]
    rfl

theorem forwardToHost_apply (s : Scene) :
    forwardToHost s = match s.forwarding with
      | (.ok (), o) => .ok () (s.handing o)
      | (.error e, o) => .error e.setback (s.handing o) := by
  rcases hforward : s.forwarding with ⟨(e | _) | _, o⟩ <;>
  · have hrun : s.wiring.outbound.writeWithin .outbound s.bridge.timing.write
        s.bridge.transaction.frame.filled = _ := hforward
    simp only [forwardToHost, bind_apply, get_apply, hrun]
    rfl

theorem readInbound_of_lend_error {s : Scene} {target : Nat} {e : FramingError}
    (hlend : s.bridge.transaction.frame.lend (s.missing target) = .error e) :
    readInbound target s = .error (.transaction (.framing e)) s := by
  have h : readInbound target s =
      ((ofFraming (s.bridge.transaction.frame.lend (s.missing target))) >>= fun _ => _) s := rfl
  rw [h, bind_apply, hlend, ofFraming_error]

theorem readInbound_of_lend {s : Scene} {target : Nat} {lent : Bytes}
    (hlend : s.bridge.transaction.frame.lend (s.missing target) = .ok lent) :
    readInbound target s = match s.asking target with
      | (.ok none, c) => .ok none (s.listening c)
      | (.ok (some bytes), c) => .ok (some bytes.length) (s.hearing c bytes)
      | (.error e, c) => .error (.fault (.transport e)) (s.listening c) := by
  have hlend' : s.bridge.transaction.frame.lend (target - s.bridge.transaction.frame.length) =
      .ok lent := hlend
  rcases hask : s.asking target with ⟨e | _ | bytes, c⟩ <;>
  · have hrun : s.wiring.inbound.readSome (target - s.bridge.transaction.frame.length) = _ := hask
    simp only [readInbound, bind_apply, get_apply, hlend', ofFraming_ok, hrun]
    rfl

/-! ## The ways in which turns end -/

/-- How a turn ends: its outcome or its setback, and the scene that is left. -/
abbrev Ending := EStateM.Result Setback Scene Outcome

inductive IdleEnding (readiness : Readiness) (s : Scene) : Ending → Prop
  | answersRequest (hpending : s.bridge.line.pending = true) :
      IdleEnding readiness s (.ok .continues
        ({ s with bridge.line.pending := false : Scene }.running
          (s.bridge.transaction.start .slave)))
  | hearsHost (hpending : s.bridge.line.pending = false) (hready : readiness.inbound = true) :
      IdleEnding readiness s (.ok .continues (s.running (s.bridge.transaction.start .master)))
  | rests (hpending : s.bridge.line.pending = false) (hready : readiness.inbound = false) :
      IdleEnding readiness s (.ok .continues s)

inductive SlaveHeaderEnding (now : Instant) (s : Scene) : Ending → Prop
  | unfilled {e : IntakeError} {i : Intake}
      (hfill : s.intake.fill Header.size = (.error e, i)) :
      SlaveHeaderEnding now s (.error e.setback (s.taking i))
  | malformed {e : FramingError} {i : Intake}
      (hfill : s.intake.fill Header.size = (.ok (), i))
      (hparse : Header.parse i.frame.filled = .error e) :
      SlaveHeaderEnding now s (.error (.transaction (.framing e)) (s.taking i))
  | payloadFollows {header : Header} {i : Intake}
      (hfill : s.intake.fill Header.size = (.ok (), i))
      (hparse : Header.parse i.frame.filled = .ok header)
      (hwrite : header.command.isWrite = true) (hfollows : 0 < header.followingLength) :
      SlaveHeaderEnding now s (.ok .continues ((s.taking i).running
        { (s.taking i).bridge.transaction with phase := .slavePayload }))
  | unforwarded {header : Header} {i : Intake} {f : Outlet.Failure} {o : Outlet}
      (hfill : s.intake.fill Header.size = (.ok (), i))
      (hparse : Header.parse i.frame.filled = .ok header)
      (hwhole : header.command.isWrite = true → header.followingLength = 0)
      (hforward : (s.taking i).forwarding = (.error f, o)) :
      SlaveHeaderEnding now s (.error f.setback ((s.taking i).handing o))
  | delivered {header : Header} {i : Intake} {o : Outlet}
      (hfill : s.intake.fill Header.size = (.ok (), i))
      (hparse : Header.parse i.frame.filled = .ok header)
      (hwrite : header.command.isWrite = true) (hwhole : header.followingLength = 0)
      (hforward : (s.taking i).forwarding = (.ok (), o)) :
      SlaveHeaderEnding now s
        (.ok (.completed .slave) (((s.taking i).handing o).finished .slave))
  | endless {header : Header} {i : Intake} {o : Outlet}
      (hfill : s.intake.fill Header.size = (.ok (), i))
      (hparse : Header.parse i.frame.filled = .ok header)
      (hread : header.command.isWrite = false)
      (hforward : (s.taking i).forwarding = (.ok (), o))
      (hdeadline : now.after? s.bridge.timing.answer = none) :
      SlaveHeaderEnding now s (.error (.fault .clockRange) (((s.taking i).handing o).running
        { (s.taking i).bridge.transaction with
          request := some header, frame := i.frame.reset }))
  | requested {header : Header} {i : Intake} {o : Outlet} {deadline : Instant}
      (hfill : s.intake.fill Header.size = (.ok (), i))
      (hparse : Header.parse i.frame.filled = .ok header)
      (hread : header.command.isWrite = false)
      (hforward : (s.taking i).forwarding = (.ok (), o))
      (hdeadline : now.after? s.bridge.timing.answer = some deadline) :
      SlaveHeaderEnding now s (.ok .continues (((s.taking i).handing o).running
        { (s.taking i).bridge.transaction with
          request := some header, frame := i.frame.reset, deadline := some deadline
          phase := .slaveAwaitingHostAnswer }))

inductive SlavePayloadEnding (s : Scene) : Ending → Prop
  | malformed {e : FramingError}
      (hparse : Header.parse s.bridge.transaction.frame.filled = .error e) :
      SlavePayloadEnding s (.error (.transaction (.framing e)) s)
  | unfilled {header : Header} {e : IntakeError} {i : Intake}
      (hparse : Header.parse s.bridge.transaction.frame.filled = .ok header)
      (hfill : s.intake.fill header.frameLength = (.error e, i)) :
      SlavePayloadEnding s (.error e.setback (s.taking i))
  | unforwarded {header : Header} {i : Intake} {f : Outlet.Failure} {o : Outlet}
      (hparse : Header.parse s.bridge.transaction.frame.filled = .ok header)
      (hfill : s.intake.fill header.frameLength = (.ok (), i))
      (hforward : (s.taking i).forwarding = (.error f, o)) :
      SlavePayloadEnding s (.error f.setback ((s.taking i).handing o))
  | delivered {header : Header} {i : Intake} {o : Outlet}
      (hparse : Header.parse s.bridge.transaction.frame.filled = .ok header)
      (hfill : s.intake.fill header.frameLength = (.ok (), i))
      (hforward : (s.taking i).forwarding = (.ok (), o)) :
      SlavePayloadEnding s
        (.ok (.completed .slave) (((s.taking i).handing o).finished .slave))

inductive AnswerEnding (readiness : Readiness) (now : Instant) (s : Scene) : Ending → Prop
  | unready (hready : readiness.inbound = false) : AnswerEnding readiness now s (s.lapse now)
  | malformed {e : FramingError} (hready : readiness.inbound = true)
      (htarget : s.bridge.transaction.answerLength = .error e) :
      AnswerEnding readiness now s (.error (.transaction (.framing e)) s)
  | noRoom {target : Nat} {e : FramingError} (hready : readiness.inbound = true)
      (htarget : s.bridge.transaction.answerLength = .ok target)
      (hlend : s.bridge.transaction.frame.lend (s.missing target) = .error e) :
      AnswerEnding readiness now s (.error (.transaction (.framing e)) s)
  | unread {target : Nat} {lent : Bytes} {e : TransportError} {c : Channel}
      (hready : readiness.inbound = true)
      (htarget : s.bridge.transaction.answerLength = .ok target)
      (hlend : s.bridge.transaction.frame.lend (s.missing target) = .ok lent)
      (hask : s.asking target = (.error e, c)) :
      AnswerEnding readiness now s (.error (.fault (.transport e)) (s.listening c))
  | blocked {target : Nat} {lent : Bytes} {c : Channel} (hready : readiness.inbound = true)
      (htarget : s.bridge.transaction.answerLength = .ok target)
      (hlend : s.bridge.transaction.frame.lend (s.missing target) = .ok lent)
      (hask : s.asking target = (.ok none, c)) :
      AnswerEnding readiness now s ((s.listening c).lapse now)
  | closed {target : Nat} {lent : Bytes} {c : Channel} (hready : readiness.inbound = true)
      (htarget : s.bridge.transaction.answerLength = .ok target)
      (hlend : s.bridge.transaction.frame.lend (s.missing target) = .ok lent)
      (hask : s.asking target = (.ok (some []), c)) :
      AnswerEnding readiness now s (.error (.fault (.transport (.closed .inbound)))
        (s.hearing c []))
  | broken {target : Nat} {lent bytes : Bytes} {c : Channel} {e : FramingError}
      (hready : readiness.inbound = true)
      (htarget : s.bridge.transaction.answerLength = .ok target)
      (hlend : s.bridge.transaction.frame.lend (s.missing target) = .ok lent)
      (hask : s.asking target = (.ok (some bytes), c)) (hne : bytes ≠ [])
      (hheader : (s.hearing c bytes).bridge.transaction.header? = .error e) :
      AnswerEnding readiness now s
        (.error (.transaction (.framing e)) (s.hearing c bytes))
  | incomplete {target : Nat} {lent bytes : Bytes} {c : Channel} {found : Option Header}
      (hready : readiness.inbound = true)
      (htarget : s.bridge.transaction.answerLength = .ok target)
      (hlend : s.bridge.transaction.frame.lend (s.missing target) = .ok lent)
      (hask : s.asking target = (.ok (some bytes), c)) (hne : bytes ≠ [])
      (hheader : (s.hearing c bytes).bridge.transaction.header? = .ok found)
      (hmore : ∀ header ∈ found,
        (s.hearing c bytes).bridge.transaction.frame.length ≠ header.frameLength) :
      AnswerEnding readiness now s ((s.hearing c bytes).lapse now)
  | complete {target : Nat} {lent bytes : Bytes} {c : Channel} {header : Header}
      (hready : readiness.inbound = true)
      (htarget : s.bridge.transaction.answerLength = .ok target)
      (hlend : s.bridge.transaction.frame.lend (s.missing target) = .ok lent)
      (hask : s.asking target = (.ok (some bytes), c)) (hne : bytes ≠ [])
      (hheader : (s.hearing c bytes).bridge.transaction.header? = .ok (some header))
      (hwhole : (s.hearing c bytes).bridge.transaction.frame.length = header.frameLength) :
      AnswerEnding readiness now s (.ok .continues ((s.hearing c bytes).running
        { (s.hearing c bytes).bridge.transaction with
          deadline := none, phase := .slaveAnswerToBus }))

inductive MasterHeaderEnding (readiness : Readiness) (s : Scene) : Ending → Prop
  | unready (hready : readiness.inbound = false) :
      MasterHeaderEnding readiness s (.ok .continues s)
  | noRoom {e : FramingError} (hready : readiness.inbound = true)
      (hlend : s.bridge.transaction.frame.lend (s.missing Header.size) = .error e) :
      MasterHeaderEnding readiness s (.error (.transaction (.framing e)) s)
  | unread {lent : Bytes} {e : TransportError} {c : Channel} (hready : readiness.inbound = true)
      (hlend : s.bridge.transaction.frame.lend (s.missing Header.size) = .ok lent)
      (hask : s.asking Header.size = (.error e, c)) :
      MasterHeaderEnding readiness s (.error (.fault (.transport e)) (s.listening c))
  | blocked {lent : Bytes} {c : Channel} (hready : readiness.inbound = true)
      (hlend : s.bridge.transaction.frame.lend (s.missing Header.size) = .ok lent)
      (hask : s.asking Header.size = (.ok none, c)) :
      MasterHeaderEnding readiness s (.ok .continues (s.listening c))
  | left {lent : Bytes} {c : Channel} (hready : readiness.inbound = true)
      (hlend : s.bridge.transaction.frame.lend (s.missing Header.size) = .ok lent)
      (hask : s.asking Header.size = (.ok (some []), c))
      (hempty : (s.hearing c []).bridge.transaction.frame.isEmpty = true) :
      MasterHeaderEnding readiness s (.ok .stop ((s.hearing c []).running
        (s.hearing c []).bridge.transaction.reset))
  | closed {lent : Bytes} {c : Channel} (hready : readiness.inbound = true)
      (hlend : s.bridge.transaction.frame.lend (s.missing Header.size) = .ok lent)
      (hask : s.asking Header.size = (.ok (some []), c))
      (hempty : (s.hearing c []).bridge.transaction.frame.isEmpty = false) :
      MasterHeaderEnding readiness s (.error (.fault (.transport (.closed .inbound)))
        (s.hearing c []))
  | malformed {lent bytes : Bytes} {c : Channel} {e : FramingError}
      (hready : readiness.inbound = true)
      (hlend : s.bridge.transaction.frame.lend (s.missing Header.size) = .ok lent)
      (hask : s.asking Header.size = (.ok (some bytes), c)) (hne : bytes ≠ [])
      (hheader : (s.hearing c bytes).bridge.transaction.header? = .error e) :
      MasterHeaderEnding readiness s
        (.error (.transaction (.framing e)) (s.hearing c bytes))
  | incomplete {lent bytes : Bytes} {c : Channel} (hready : readiness.inbound = true)
      (hlend : s.bridge.transaction.frame.lend (s.missing Header.size) = .ok lent)
      (hask : s.asking Header.size = (.ok (some bytes), c)) (hne : bytes ≠ [])
      (hheader : (s.hearing c bytes).bridge.transaction.header? = .ok none) :
      MasterHeaderEnding readiness s (.ok .continues (s.hearing c bytes))
  | unexpected {lent bytes : Bytes} {c : Channel} {header : Header}
      (hready : readiness.inbound = true)
      (hlend : s.bridge.transaction.frame.lend (s.missing Header.size) = .ok lent)
      (hask : s.asking Header.size = (.ok (some bytes), c)) (hne : bytes ≠ [])
      (hheader : (s.hearing c bytes).bridge.transaction.header? = .ok (some header))
      (hread : header.command.isRead = true) :
      MasterHeaderEnding readiness s
        (.error (.transaction (.framing (.unexpectedCommand header.command)))
          (s.hearing c bytes))
  | accepted {lent bytes : Bytes} {c : Channel} {header : Header}
      (hready : readiness.inbound = true)
      (hlend : s.bridge.transaction.frame.lend (s.missing Header.size) = .ok lent)
      (hask : s.asking Header.size = (.ok (some bytes), c)) (hne : bytes ≠ [])
      (hheader : (s.hearing c bytes).bridge.transaction.header? = .ok (some header))
      (hwrite : header.command.isRead = false) :
      MasterHeaderEnding readiness s (.ok .continues ((s.hearing c bytes).running
        { (s.hearing c bytes).bridge.transaction with
          phase := if 0 < header.followingLength then .masterPayload else .masterToBus }))

inductive MasterPayloadEnding (readiness : Readiness) (s : Scene) : Ending → Prop
  | unready (hready : readiness.inbound = false) :
      MasterPayloadEnding readiness s (.ok .continues s)
  | malformed {e : FramingError} (hready : readiness.inbound = true)
      (hparse : Header.parse s.bridge.transaction.frame.filled = .error e) :
      MasterPayloadEnding readiness s (.error (.transaction (.framing e)) s)
  | noRoom {header : Header} {e : FramingError} (hready : readiness.inbound = true)
      (hparse : Header.parse s.bridge.transaction.frame.filled = .ok header)
      (hlend : s.bridge.transaction.frame.lend (s.missing header.frameLength) = .error e) :
      MasterPayloadEnding readiness s (.error (.transaction (.framing e)) s)
  | unread {header : Header} {lent : Bytes} {e : TransportError} {c : Channel}
      (hready : readiness.inbound = true)
      (hparse : Header.parse s.bridge.transaction.frame.filled = .ok header)
      (hlend : s.bridge.transaction.frame.lend (s.missing header.frameLength) = .ok lent)
      (hask : s.asking header.frameLength = (.error e, c)) :
      MasterPayloadEnding readiness s (.error (.fault (.transport e)) (s.listening c))
  | blocked {header : Header} {lent : Bytes} {c : Channel} (hready : readiness.inbound = true)
      (hparse : Header.parse s.bridge.transaction.frame.filled = .ok header)
      (hlend : s.bridge.transaction.frame.lend (s.missing header.frameLength) = .ok lent)
      (hask : s.asking header.frameLength = (.ok none, c)) :
      MasterPayloadEnding readiness s (.ok .continues (s.listening c))
  | closed {header : Header} {lent : Bytes} {c : Channel} (hready : readiness.inbound = true)
      (hparse : Header.parse s.bridge.transaction.frame.filled = .ok header)
      (hlend : s.bridge.transaction.frame.lend (s.missing header.frameLength) = .ok lent)
      (hask : s.asking header.frameLength = (.ok (some []), c)) :
      MasterPayloadEnding readiness s (.error (.fault (.transport (.closed .inbound)))
        (s.hearing c []))
  | incomplete {header : Header} {lent bytes : Bytes} {c : Channel}
      (hready : readiness.inbound = true)
      (hparse : Header.parse s.bridge.transaction.frame.filled = .ok header)
      (hlend : s.bridge.transaction.frame.lend (s.missing header.frameLength) = .ok lent)
      (hask : s.asking header.frameLength = (.ok (some bytes), c)) (hne : bytes ≠ [])
      (hmore : (s.hearing c bytes).bridge.transaction.frame.length ≠ header.frameLength) :
      MasterPayloadEnding readiness s (.ok .continues (s.hearing c bytes))
  | complete {header : Header} {lent bytes : Bytes} {c : Channel}
      (hready : readiness.inbound = true)
      (hparse : Header.parse s.bridge.transaction.frame.filled = .ok header)
      (hlend : s.bridge.transaction.frame.lend (s.missing header.frameLength) = .ok lent)
      (hask : s.asking header.frameLength = (.ok (some bytes), c)) (hne : bytes ≠ [])
      (hwhole : (s.hearing c bytes).bridge.transaction.frame.length = header.frameLength) :
      MasterPayloadEnding readiness s (.ok .continues ((s.hearing c bytes).running
        { (s.hearing c bytes).bridge.transaction with phase := .masterToBus }))

inductive SendEnding (origin : Sync.Origin) (s : Scene) : Ending → Prop
  | unnumbered {e : FramingError}
      (hnext : Sync.Header.next s.bridge.serials origin
        s.bridge.transaction.frame.filled.length = .error e) :
      SendEnding origin s (.error (.transaction (.framing e)) s)
  | noRoom {header : Sync.Header} {serials : Sync.Serials} {e : FramingError} {wire : Buffer}
      (hnext : Sync.Header.next s.bridge.serials origin
        s.bridge.transaction.frame.filled.length = .ok (header, serials))
      (hbuild : s.bridge.transaction.wire.reset.appendSync header
        s.bridge.transaction.frame.filled = (.error e, wire)) :
      SendEnding origin s (.error (.transaction (.framing e)) (s.sending serials wire))
  | unsent {header : Sync.Header} {serials : Sync.Serials} {wire : Buffer}
      {e : TransportError} {bus : Channel}
      (hnext : Sync.Header.next s.bridge.serials origin
        s.bridge.transaction.frame.filled.length = .ok (header, serials))
      (hbuild : s.bridge.transaction.wire.reset.appendSync header
        s.bridge.transaction.frame.filled = (.ok (), wire))
      (hsend : s.wiring.bus.writeFully .serialBus wire.filled = (.error e, bus)) :
      SendEnding origin s
        (.error (.fault (.transport e)) ((s.sending serials wire).clocking bus))
  | sent {header : Sync.Header} {serials : Sync.Serials} {wire : Buffer} {bus : Channel}
      (hnext : Sync.Header.next s.bridge.serials origin
        s.bridge.transaction.frame.filled.length = .ok (header, serials))
      (hbuild : s.bridge.transaction.wire.reset.appendSync header
        s.bridge.transaction.frame.filled = (.ok (), wire))
      (hsend : s.wiring.bus.writeFully .serialBus wire.filled = (.ok (), bus)) :
      SendEnding origin s (.ok (.completed origin)
        (((s.sending serials wire).clocking bus).finished origin))

/-! ## Every turn ends in one of its ways -/

theorem startTransaction_ending (readiness : Readiness) (s : Scene) :
    IdleEnding readiness s (startTransaction readiness s) := by
  cases hpending : s.bridge.line.pending with
  | true =>
    have h : startTransaction readiness s = .ok .continues
        ({ s with bridge.line.pending := false : Scene }.running
          (s.bridge.transaction.start .slave)) := by
      simp only [startTransaction, bind_apply, get_apply, hpending, if_true, modify_apply,
        alter_apply, pure_apply]
    exact h ▸ .answersRequest hpending
  | false =>
    cases hready : readiness.inbound with
    | true =>
      have h : startTransaction readiness s =
          .ok .continues (s.running (s.bridge.transaction.start .master)) := by
        simp only [startTransaction, bind_apply, get_apply, hpending, hready, Bool.false_eq_true,
          if_false, if_true, alter_apply, pure_apply]
      exact h ▸ .hearsHost hpending hready
    | false =>
      have h : startTransaction readiness s = .ok .continues s := by
        simp [startTransaction, bind_apply, get_apply, hpending, hready, pure_apply]
      exact h ▸ .rests hpending hready

theorem readSlaveHeader_ending (now : Instant) (s : Scene) :
    SlaveHeaderEnding now s (readSlaveHeader now s) := by
  simp only [readSlaveHeader, bind_apply, fillFromBus_apply]
  rcases hfill : s.intake.fill Header.size with ⟨e | _, i⟩
  · exact .unfilled hfill
  simp only [transaction_apply]
  have hframe : (s.taking i).bridge.transaction.frame = i.frame := rfl
  rw [hframe]
  rcases hparse : Header.parse i.frame.filled with e | header
  · exact .malformed hfill hparse
  simp only [ofFraming_ok]
  cases hwrite : header.command.isWrite with
  | true =>
    by_cases hfollows : 0 < header.followingLength
    · simp only [if_true, if_pos hfollows, bind_apply, alter_apply, pure_apply]
      exact .payloadFollows hfill hparse hwrite hfollows
    · simp only [if_true, if_neg hfollows, bind_apply, forwardToHost_apply, finish_apply]
      rcases hforward : (s.taking i).forwarding with ⟨f | _, o⟩
      · exact .unforwarded hfill hparse (fun _ => by omega) hforward
      · exact .delivered hfill hparse hwrite (by omega) hforward
  | false =>
    simp only [Bool.false_eq_true, if_false, bind_apply, forwardToHost_apply]
    rcases hforward : (s.taking i).forwarding with ⟨f | _, o⟩
    · exact .unforwarded hfill hparse (by simp [hwrite]) hforward
    have htiming (t : Transaction) :
        (((s.taking i).handing o).running t).bridge.timing = s.bridge.timing := rfl
    simp only [alter_apply, get_apply, htiming]
    rcases hdeadline : now.after? s.bridge.timing.answer with _ | deadline
    · exact .endless hfill hparse hwrite hforward hdeadline
    · exact .requested hfill hparse hwrite hforward hdeadline

theorem readSlavePayload_ending (s : Scene) : SlavePayloadEnding s (readSlavePayload s) := by
  simp only [readSlavePayload, bind_apply, transaction_apply]
  rcases hparse : Header.parse s.bridge.transaction.frame.filled with e | header
  · exact .malformed hparse
  simp only [ofFraming_ok, fillFromBus_apply]
  rcases hfill : s.intake.fill header.frameLength with ⟨e | _, i⟩
  · exact .unfilled hparse hfill
  simp only [forwardToHost_apply, finish_apply]
  rcases hforward : (s.taking i).forwarding with ⟨f | _, o⟩
  · exact .unforwarded hparse hfill hforward
  · exact .delivered hparse hfill hforward

theorem readMasterHeader_ending (readiness : Readiness) (s : Scene) :
    MasterHeaderEnding readiness s (readMasterHeader readiness s) := by
  cases hready : readiness.inbound with
  | false =>
    have h : readMasterHeader readiness s = .ok .continues s := by
      simp [readMasterHeader, hready, pure_apply]
    exact h ▸ .unready hready
  | true =>
    simp only [readMasterHeader, hready, Bool.not_true, Bool.false_eq_true, if_false, bind_apply]
    rcases hlend : s.bridge.transaction.frame.lend (s.missing Header.size) with e | lent
    · rw [readInbound_of_lend_error hlend]
      exact .noRoom hready hlend
    rw [readInbound_of_lend hlend]
    rcases hask : s.asking Header.size with ⟨e | _ | bytes, c⟩
    · exact .unread hready hlend hask
    · exact .blocked hready hlend hask
    cases bytes with
    | nil =>
      simp only [List.length_nil, bind_apply, transaction_apply]
      cases hempty : (s.hearing c []).bridge.transaction.frame.isEmpty with
      | true => exact .left hready hlend hask hempty
      | false => exact .closed hready hlend hask hempty
    | cons byte rest =>
      simp only [List.length_cons, bind_apply, transaction_apply]
      rcases hheader : (s.hearing c (byte :: rest)).bridge.transaction.header? with
        e | _ | header
      · exact .malformed hready hlend hask (by simp) hheader
      · exact .incomplete hready hlend hask (by simp) hheader
      simp only [ofFraming_ok]
      cases hread : header.command.isRead with
      | true => exact .unexpected hready hlend hask (by simp) hheader hread
      | false => exact .accepted hready hlend hask (by simp) hheader hread

theorem readMasterPayload_ending (readiness : Readiness) (s : Scene) :
    MasterPayloadEnding readiness s (readMasterPayload readiness s) := by
  cases hready : readiness.inbound with
  | false =>
    have h : readMasterPayload readiness s = .ok .continues s := by
      simp [readMasterPayload, hready, pure_apply]
    exact h ▸ .unready hready
  | true =>
    simp only [readMasterPayload, hready, Bool.not_true, Bool.false_eq_true, if_false, bind_apply,
      transaction_apply]
    rcases hparse : Header.parse s.bridge.transaction.frame.filled with e | header
    · exact .malformed hready hparse
    simp only [ofFraming_ok]
    rcases hlend : s.bridge.transaction.frame.lend (s.missing header.frameLength) with e | lent
    · rw [readInbound_of_lend_error hlend]
      exact .noRoom hready hparse hlend
    rw [readInbound_of_lend hlend]
    rcases hask : s.asking header.frameLength with ⟨e | _ | bytes, c⟩
    · exact .unread hready hparse hlend hask
    · exact .blocked hready hparse hlend hask
    cases bytes with
    | nil => exact .closed hready hparse hlend hask
    | cons byte rest =>
      simp only [List.length_cons, bind_apply, transaction_apply]
      by_cases hwhole :
          (s.hearing c (byte :: rest)).bridge.transaction.frame.length = header.frameLength
      · simp only [if_pos hwhole]
        exact .complete hready hparse hlend hask (by simp) hwhole
      · simp only [if_neg hwhole]
        exact .incomplete hready hparse hlend hask (by simp) hwhole

theorem sendToBus_ending (origin : Sync.Origin) (s : Scene) :
    SendEnding origin s (sendToBus origin s) := by
  simp only [sendToBus, bind_apply, get_apply]
  rcases hnext : Sync.Header.next s.bridge.serials origin
    s.bridge.transaction.frame.filled.length with e | ⟨header, serials⟩
  · exact .unnumbered hnext
  simp only [ofFraming_ok]
  rcases hbuild : s.bridge.transaction.wire.reset.appendSync header
    s.bridge.transaction.frame.filled with ⟨e | _, wire⟩
  · exact .noRoom hnext hbuild
  rcases hsend : s.wiring.bus.writeFully .serialBus wire.filled with ⟨e | _, bus⟩
  · simp only [set_apply, ofFraming_ok]
    exact .unsent hnext hbuild hsend
  · simp only [set_apply, ofFraming_ok]
    exact .sent hnext hbuild hsend

private theorem readAnswer_apply {s : Scene} {target : Nat}
    (htarget : s.bridge.transaction.answerLength = .ok target) :
    readAnswer s = match readInbound target s with
      | .error e s => .error e s
      | .ok none s => .ok false s
      | .ok (some 0) s => .error (.fault (.transport (.closed .inbound))) s
      | .ok (some (_ + 1)) s =>
        match s.bridge.transaction.header? with
        | .error e => .error (.transaction (.framing e)) s
        | .ok none => .ok false s
        | .ok (some header) =>
          .ok (s.bridge.transaction.frame.length == header.frameLength) s := by
  unfold Transaction.answerLength at htarget
  rcases hheader : s.bridge.transaction.header? with e | _ | header <;>
    rw [hheader] at htarget <;>
    simp only [Except.map, Except.ok.injEq, reduceCtorEq] at htarget <;> subst htarget <;>
    simp only [readAnswer, bind_apply, transaction_apply, hheader, ofFraming_ok]
  all_goals
    generalize readInbound _ s = read
    rcases read with ⟨_ | _ | n, s'⟩ | ⟨e, s'⟩ <;> try rfl
    simp only [bind_apply, transaction_apply]
    rcases s'.bridge.transaction.header? with e | _ | header <;> rfl

private theorem awaitHostAnswer_apply (readiness : Readiness) (now : Instant) (s : Scene) :
    awaitHostAnswer readiness now s =
      match (if readiness.inbound then readAnswer s else .ok false s) with
      | .error e s => .error e s
      | .ok false s => s.lapse now
      | .ok true s => .ok .continues (s.running
          { s.bridge.transaction with deadline := none, phase := .slaveAnswerToBus }) := by
  have hlapse (s : Scene) :
      ((get : Turn Scene) >>= fun s =>
        match s.bridge.transaction.deadline with
        | none => pure .continues
        | some deadline =>
          if deadline.reachedBy now then
            throw (.transaction (.timeout s.bridge.timing.answer))
          else
            pure .continues) s = s.lapse now := by
    simp only [bind_apply, get_apply, Scene.lapse]
    rcases s.bridge.transaction.deadline with _ | deadline
    · rfl
    · simp only
      by_cases hreached : deadline.reachedBy now = true
      · rw [if_pos hreached, if_pos hreached, throw_apply]
      · rw [if_neg hreached, if_neg hreached, pure_apply]
  cases hready : readiness.inbound with
  | false =>
    simp only [awaitHostAnswer, hready, Bool.false_eq_true, if_false, bind_apply, pure_apply]
    exact hlapse s
  | true =>
    simp only [awaitHostAnswer, hready, if_true, bind_apply]
    rcases hread : readAnswer s with ⟨_ | _, s'⟩ | ⟨e, s'⟩
    · exact hlapse s'
    · rfl
    · rfl

theorem awaitHostAnswer_ending (readiness : Readiness) (now : Instant) (s : Scene) :
    AnswerEnding readiness now s (awaitHostAnswer readiness now s) := by
  rw [awaitHostAnswer_apply]
  cases hready : readiness.inbound with
  | false => exact .unready hready
  | true =>
    rw [if_pos rfl]
    rcases htarget : s.bridge.transaction.answerLength with e | target
    · have hread : readAnswer s = .error (.transaction (.framing e)) s := by
        unfold Transaction.answerLength at htarget
        rcases hheader : s.bridge.transaction.header? with e' | found <;>
          rw [hheader] at htarget <;>
          simp only [Except.map, Except.error.injEq, reduceCtorEq] at htarget
        simp only [readAnswer, bind_apply, transaction_apply, hheader, ofFraming_error, htarget]
      rw [hread]
      exact .malformed hready htarget
    rw [readAnswer_apply htarget]
    rcases hlend : s.bridge.transaction.frame.lend (s.missing target) with e | lent
    · rw [readInbound_of_lend_error hlend]
      exact .noRoom hready htarget hlend
    rw [readInbound_of_lend hlend]
    rcases hask : s.asking target with ⟨e | _ | bytes, c⟩
    · exact .unread hready htarget hlend hask
    · exact .blocked hready htarget hlend hask
    cases bytes with
    | nil => exact .closed hready htarget hlend hask
    | cons byte rest =>
      simp only [List.length_cons]
      rcases hheader : (s.hearing c (byte :: rest)).bridge.transaction.header? with
        e | _ | header
      · exact .broken hready htarget hlend hask (by simp) hheader
      · exact .incomplete hready htarget hlend hask (by simp) hheader (by simp)
      simp only
      by_cases hwhole :
          (s.hearing c (byte :: rest)).bridge.transaction.frame.length = header.frameLength
      · rw [beq_iff_eq.2 hwhole]
        exact .complete hready htarget hlend hask (by simp) hheader hwhole
      · rw [beq_eq_false_iff_ne.2 hwhole]
        exact .incomplete hready htarget hlend hask (by simp) hheader (by simpa using hwhole)

def EndingOf (readiness : Readiness) (now : Instant) (s : Scene) : Phase → Ending → Prop
  | .idle => IdleEnding readiness s
  | .slaveHeader => SlaveHeaderEnding now s
  | .slavePayload => SlavePayloadEnding s
  | .slaveAwaitingHostAnswer => AnswerEnding readiness now s
  | .slaveAnswerToBus => SendEnding .slave s
  | .masterHeader => MasterHeaderEnding readiness s
  | .masterPayload => MasterPayloadEnding readiness s
  | .masterToBus => SendEnding .master s

theorem ofPhase_ending (readiness : Readiness) (now : Instant) (phase : Phase) (s : Scene) :
    EndingOf readiness now s phase (ofPhase readiness now phase s) := by
  cases phase with
  | idle => exact startTransaction_ending readiness s
  | slaveHeader => exact readSlaveHeader_ending now s
  | slavePayload => exact readSlavePayload_ending s
  | slaveAwaitingHostAnswer => exact awaitHostAnswer_ending readiness now s
  | slaveAnswerToBus => exact sendToBus_ending .slave s
  | masterHeader => exact readMasterHeader_ending readiness s
  | masterPayload => exact readMasterPayload_ending readiness s
  | masterToBus => exact sendToBus_ending .master s

end Turn

end SpiBridge
