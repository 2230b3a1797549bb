import SpiBridge.Proofs.Intake
import SpiBridge.Proofs.Run
/-!
# What turns leave alone

A turn works on buffers whose size it cannot change, under a timing that it only
reads, and most turns have nothing to say to the bus.  Main statements: every turn
keeps the sizes of the buffers and the timing, and a turn that does not send only
reads from the bus.
-/

namespace SpiBridge

open Command (Header)

/-- What no turn changes: the sizes of the buffers, and the timing. -/
structure Bridge.Keeps (b b' : Bridge) : Prop where
  frame : b'.transaction.frame.capacity = b.transaction.frame.capacity
  wire : b'.transaction.wire.capacity = b.transaction.wire.capacity
  timing : b'.timing = b.timing

namespace Bridge.Keeps

variable {b b' b'' : Bridge}

theorem refl (b : Bridge) : b.Keeps b :=
  ⟨rfl, rfl, rfl⟩

theorem trans (h : b.Keeps b') (h' : b'.Keeps b'') : b.Keeps b'' :=
  ⟨h'.frame.trans h.frame, h'.wire.trans h.wire, h'.timing.trans h.timing⟩

end Bridge.Keeps

theorem Buffer.capacity_appendSync (b : Buffer) (header : Sync.Header) (raw : Bytes) :
    (b.appendSync header raw).2.capacity = b.capacity := by
  unfold appendSync
  rcases happend : b.append header.toBytes with e | b'
  · rfl
  · have hheader := capacity_of_append happend
    simp only [appendEscaped_eq_append]
    rcases hbody : b'.append (Escape.encode raw) with e | b''
    · exact hheader
    · exact (capacity_of_append hbody).trans hheader

namespace Scene

variable {s : Scene}

theorem keeps_taking {i : Intake} {taken : Bytes} (h : s.intake.Took i taken) :
    s.bridge.Keeps (s.taking i).bridge :=
  ⟨h.frame, h.wire, rfl⟩

theorem keeps_hearing (c : Channel) (bytes : Bytes) :
    s.bridge.Keeps (s.hearing c bytes).bridge :=
  ⟨Buffer.capacity_receive _ _, rfl, rfl⟩

theorem keeps_finished (origin : Sync.Origin) : s.bridge.Keeps (s.finished origin).bridge :=
  ⟨Buffer.capacity_reset _, Buffer.capacity_reset _, rfl⟩

theorem keeps_sending {header : Sync.Header} {serials : Sync.Serials} {raw : Bytes}
    {result : Except FramingError Unit} {wire : Buffer}
    (hbuild : s.bridge.transaction.wire.reset.appendSync header raw = (result, wire)) :
    s.bridge.Keeps (s.sending serials wire).bridge := by
  have hwire := Buffer.capacity_appendSync s.bridge.transaction.wire.reset header raw
  rw [hbuild, Buffer.capacity_reset] at hwire
  exact ⟨rfl, hwire, rfl⟩

end Scene

namespace Phase

/-- The side under whose number the frame is sent, in a phase that sends it. -/
def sender? : Phase → Option Sync.Origin
  | slaveAnswerToBus => some .slave
  | masterToBus => some .master
  | _ => none

/-- The phases that read the slave's frame from the bus and forward it to the host. -/
def hearsSlave : Phase → Bool
  | slaveHeader | slavePayload => true
  | _ => false

/-- The phases that read what the host has written. -/
def hearsHost : Phase → Bool
  | slaveAwaitingHostAnswer | masterHeader | masterPayload => true
  | _ => false

end Phase

namespace Turn

variable {readiness : Readiness} {now : Instant} {s : Scene} {phase : Phase} {r : Ending}

def sceneOf : Ending → Scene
  | .ok _ s | .error _ s => s

theorem sceneOf_lapse (s : Scene) (now : Instant) : sceneOf (s.lapse now) = s := by
  unfold Scene.lapse
  split
  · rfl
  · split <;> rfl

theorem lapse_of_early
    (hearly : ∀ deadline ∈ s.bridge.transaction.deadline, deadline.reachedBy now = false) :
    s.lapse now = .ok .continues s := by
  unfold Scene.lapse
  rcases hdeadline : s.bridge.transaction.deadline with _ | deadline
  · rfl
  · simp [hearly deadline hdeadline]

theorem lapse_of_late {deadline : Instant}
    (hdeadline : s.bridge.transaction.deadline = some deadline)
    (hlate : deadline.reachedBy now = true) :
    s.lapse now = .error (.transaction (.timeout s.bridge.timing.answer)) s := by
  simp [Scene.lapse, hdeadline, hlate]

theorem keeps_of_ending (hend : EndingOf readiness now s phase r) :
    s.bridge.Keeps (sceneOf r).bridge := by
  cases phase with
  | idle =>
    cases hend with
    | answersRequest | hearsHost =>
      exact ⟨Buffer.capacity_reset _, Buffer.capacity_reset _, rfl⟩
    | rests => exact .refl _
  | slaveHeader =>
    obtain ⟨taken, htook⟩ := Intake.took_fill s.intake Header.size
    cases hend with
    | endless hfill | requested hfill =>
      rw [hfill] at htook
      exact ⟨(Buffer.capacity_reset _).trans htook.frame, htook.wire, rfl⟩
    | delivered hfill =>
      rw [hfill] at htook
      exact (Scene.keeps_taking htook).trans (Scene.keeps_finished _)
    | payloadFollows hfill =>
      rw [hfill] at htook
      exact ⟨htook.frame, htook.wire, rfl⟩
    | unfilled hfill | malformed hfill | unforwarded hfill =>
      rw [hfill] at htook
      exact Scene.keeps_taking htook
  | slavePayload =>
    cases hend with
    | malformed => exact .refl _
    | @unfilled header _ _ _ hfill | @unforwarded header _ _ _ _ hfill =>
      obtain ⟨taken, htook⟩ := Intake.took_fill s.intake header.frameLength
      rw [hfill] at htook
      exact Scene.keeps_taking htook
    | @delivered header _ _ _ hfill =>
      obtain ⟨taken, htook⟩ := Intake.took_fill s.intake header.frameLength
      rw [hfill] at htook
      exact (Scene.keeps_taking htook).trans (Scene.keeps_finished _)
  | slaveAwaitingHostAnswer =>
    cases hend with
    | unready | blocked =>
      rw [sceneOf_lapse]
      exact .refl _
    | incomplete =>
      rw [sceneOf_lapse]
      exact Scene.keeps_hearing _ _
    | malformed | noRoom | unread => exact .refl _
    | closed | broken => exact Scene.keeps_hearing _ _
    | complete => exact ⟨Buffer.capacity_receive _ _, rfl, rfl⟩
  | slaveAnswerToBus | masterToBus =>
    cases hend with
    | unnumbered => exact .refl _
    | noRoom _ hbuild | unsent _ hbuild => exact Scene.keeps_sending hbuild
    | sent _ hbuild => exact (Scene.keeps_sending hbuild).trans (Scene.keeps_finished _)
  | masterHeader =>
    cases hend with
    | unready | noRoom | unread | blocked => exact .refl _
    | left =>
      exact (Scene.keeps_hearing _ _).trans
        ⟨Buffer.capacity_reset _, Buffer.capacity_reset _, rfl⟩
    | accepted => exact ⟨Buffer.capacity_receive _ _, rfl, rfl⟩
    | closed | malformed | incomplete | unexpected => exact Scene.keeps_hearing _ _
  | masterPayload =>
    cases hend with
    | unready | malformed | noRoom | unread | blocked => exact .refl _
    | complete => exact ⟨Buffer.capacity_receive _ _, rfl, rfl⟩
    | closed | incomplete => exact Scene.keeps_hearing _ _

theorem sendEnding_of_ending {origin : Sync.Origin} (hsender : phase.sender? = some origin)
    (hend : EndingOf readiness now s phase r) : SendEnding origin s r := by
  cases phase with
  | slaveAnswerToBus | masterToBus =>
    obtain rfl := Option.some.inj hsender
    exact hend
  | _ => simp [Phase.sender?] at hsender

theorem fills_of_ending (hsilent : phase.sender? = none)
    (hend : EndingOf readiness now s phase r) :
    (sceneOf r).wiring.bus = s.wiring.bus ∨ phase.hearsSlave = true ∧
      ∃ target, (sceneOf r).wiring.bus = (s.intake.fill target).2.bus := by
  cases phase with
  | slaveAnswerToBus | masterToBus => simp [Phase.sender?] at hsilent
  | slaveHeader =>
    refine .inr ⟨rfl, Header.size, ?_⟩
    cases hend with
    | _ hfill =>
      rw [hfill]
      rfl
  | slavePayload =>
    cases hend with
    | malformed => exact .inl rfl
    | @unfilled header _ _ _ hfill | @unforwarded header _ _ _ _ hfill
    | @delivered header _ _ _ hfill =>
      refine .inr ⟨rfl, header.frameLength, ?_⟩
      rw [hfill]
      rfl
  | slaveAwaitingHostAnswer =>
    left
    cases hend with
    | unready | blocked | incomplete => exact congrArg (·.wiring.bus) (sceneOf_lapse _ _)
    | _ => rfl
  | idle | masterHeader | masterPayload => cases hend <;> exact .inl rfl

theorem readsTo_bus_of_ending (hsilent : phase.sender? = none)
    (hend : EndingOf readiness now s phase r) :
    ∃ taken, s.wiring.bus.ReadsTo (sceneOf r).wiring.bus taken := by
  rcases fills_of_ending hsilent hend with hsame | ⟨-, target, hfill⟩
  · rw [hsame]
    exact ⟨[], .refl _⟩
  · obtain ⟨taken, htook⟩ := Intake.took_fill s.intake target
    rw [hfill]
    exact ⟨taken, htook.bus⟩

theorem serials_of_ending (hsilent : phase.sender? = none)
    (hend : EndingOf readiness now s phase r) :
    (sceneOf r).bridge.serials = s.bridge.serials := by
  cases phase with
  | slaveAnswerToBus | masterToBus => simp [Phase.sender?] at hsilent
  | slaveAwaitingHostAnswer =>
    cases hend with
    | unready | blocked | incomplete =>
      exact congrArg (·.bridge.serials) (sceneOf_lapse _ _)
    | _ => rfl
  | _ => cases hend <;> rfl

theorem writesTo_bus_of_send {origin : Sync.Origin} (hend : SendEnding origin s r) :
    ∃ sent, s.wiring.bus.WritesTo (sceneOf r).wiring.bus sent := by
  cases hend with
  | unnumbered | noRoom => exact ⟨[], .refl _⟩
  | unsent _ _ hsend | sent _ _ hsend =>
    obtain ⟨sent, hwrites, -⟩ := Channel.offersTo_of_writeFully hsend
    exact ⟨sent, hwrites⟩

theorem asks_of_ending (hend : EndingOf readiness now s phase r) :
    (sceneOf r).wiring.inbound = s.wiring.inbound ∨
      phase.hearsHost = true ∧ readiness.inbound = true ∧
        ∃ target result, s.asking target = (result, (sceneOf r).wiring.inbound) := by
  cases phase with
  | slaveAwaitingHostAnswer =>
    cases hend with
    | unready =>
      rw [sceneOf_lapse]
      exact .inl rfl
    | blocked hready _ _ hask | incomplete hready _ _ hask =>
      rw [sceneOf_lapse]
      exact .inr ⟨rfl, hready, _, _, hask⟩
    | malformed | noRoom => exact .inl rfl
    | unread hready _ _ hask | closed hready _ _ hask | broken hready _ _ hask
    | complete hready _ _ hask => exact .inr ⟨rfl, hready, _, _, hask⟩
  | masterHeader =>
    cases hend with
    | unready | noRoom => exact .inl rfl
    | unread hready _ hask | blocked hready _ hask | left hready _ hask | closed hready _ hask
    | malformed hready _ hask | incomplete hready _ hask | unexpected hready _ hask
    | accepted hready _ hask => exact .inr ⟨rfl, hready, _, _, hask⟩
  | masterPayload =>
    cases hend with
    | unready | malformed | noRoom => exact .inl rfl
    | unread hready _ _ hask | blocked hready _ _ hask | closed hready _ _ hask
    | incomplete hready _ _ hask | complete hready _ _ hask =>
      exact .inr ⟨rfl, hready, _, _, hask⟩
  | idle | slaveHeader | slavePayload | slaveAnswerToBus | masterToBus =>
    cases hend <;> exact .inl rfl

theorem readsTo_inbound_of_ending (hend : EndingOf readiness now s phase r) :
    ∃ taken, s.wiring.inbound.ReadsTo (sceneOf r).wiring.inbound taken := by
  rcases asks_of_ending hend with hsame | ⟨-, -, target, result, hask⟩
  · rw [hsame]
    exact ⟨[], .refl _⟩
  · exact ⟨_, Channel.readsTo_of_readSome hask⟩

theorem inbound_of_ending (hdeaf : phase.hearsHost = false)
    (hend : EndingOf readiness now s phase r) :
    (sceneOf r).wiring.inbound = s.wiring.inbound := by
  rcases asks_of_ending hend with hsame | ⟨hhears, -⟩
  · exact hsame
  · rw [hdeaf] at hhears
    cases hhears

theorem forwards_of_ending (hend : EndingOf readiness now s phase r) :
    (sceneOf r).wiring.outbound = s.wiring.outbound ∨
      phase.hearsSlave = true ∧ ∃ raw result, s.wiring.outbound.writeWithin .outbound
        s.bridge.timing.write raw = (result, (sceneOf r).wiring.outbound) := by
  cases phase with
  | slaveHeader =>
    cases hend with
    | unfilled | malformed | payloadFollows => exact .inl rfl
    | unforwarded _ _ _ hforward | delivered _ _ _ _ hforward | endless _ _ _ hforward
    | requested _ _ _ hforward => exact .inr ⟨rfl, _, _, hforward⟩
  | slavePayload =>
    cases hend with
    | malformed | unfilled => exact .inl rfl
    | unforwarded _ _ hforward | delivered _ _ hforward => exact .inr ⟨rfl, _, _, hforward⟩
  | slaveAwaitingHostAnswer =>
    left
    cases hend with
    | unready | blocked | incomplete => exact congrArg (·.wiring.outbound) (sceneOf_lapse _ _)
    | _ => rfl
  | idle | slaveAnswerToBus | masterHeader | masterPayload | masterToBus =>
    cases hend <;> exact .inl rfl

theorem line_of_ending (hphase : phase ≠ .idle) (hend : EndingOf readiness now s phase r) :
    (sceneOf r).bridge.line = s.bridge.line := by
  cases phase with
  | idle => exact absurd rfl hphase
  | slaveAwaitingHostAnswer =>
    cases hend with
    | unready | blocked | incomplete => exact congrArg (·.bridge.line) (sceneOf_lapse _ _)
    | _ => rfl
  | _ => cases hend <;> rfl

theorem phase_of_error {e : Setback} {s' : Scene}
    (hend : EndingOf readiness now s phase (.error e s')) :
    s'.bridge.transaction.phase = s.bridge.transaction.phase := by
  generalize hr : (EStateM.Result.error e s' : Ending) = r at hend
  have hleft : s' = sceneOf r := by
    rw [← hr]
    rfl
  rw [hleft]
  cases phase with
  | slaveAwaitingHostAnswer =>
    cases hend with
    | unready | blocked | incomplete =>
      exact congrArg (·.bridge.transaction.phase) (sceneOf_lapse _ _)
    | complete => cases hr
    | _ => rfl
  | idle | slaveHeader | slavePayload | slaveAnswerToBus | masterHeader | masterPayload
  | masterToBus =>
    cases hend <;> first | rfl | cases hr

end Turn

namespace Bridge

variable {b : Bridge} {e : Encounter} {p : Pass}

theorem Steps.exists_ending (h : b.Steps e p) :
    ∃ level line r, Turn.EndingOf e.readiness e.now (e.scene b level line) b.transaction.phase r ∧
      p.before = b ∧ p.met = e ∧ p.left = (Turn.sceneOf r).wiring ∧
      p.after.serials = (Turn.sceneOf r).bridge.serials ∧
      (Turn.sceneOf r).bridge.Keeps p.after := by
  cases h with
  | @done level line outcome s hend => exact ⟨level, line, _, hend, rfl, rfl, rfl, rfl, .refl _⟩
  | @aborted level line error s hend =>
    exact ⟨level, line, _, hend, rfl, rfl, rfl, rfl, Buffer.capacity_reset _,
      Buffer.capacity_reset _, rfl⟩

theorem keeps_of_pass? (h : b.pass? e = some p) : b.Keeps p.after := by
  obtain ⟨level, line, r, hend, -, -, -, -, hkeeps⟩ := (steps_of_pass? h).exists_ending
  have hturn := (Turn.keeps_of_ending hend).trans hkeeps
  exact ⟨hturn.frame, hturn.wire, hturn.timing⟩

theorem readsTo_bus_of_pass? (hsilent : b.transaction.phase.sender? = none)
    (h : b.pass? e = some p) : ∃ taken, e.wiring.bus.ReadsTo p.left.bus taken := by
  obtain ⟨level, line, r, hend, -, -, hleft, -, -⟩ := (steps_of_pass? h).exists_ending
  rw [hleft]
  exact Turn.readsTo_bus_of_ending hsilent hend

theorem waiting_inbound_of_pass? (h : b.pass? e = some p) :
    e.wiring.inbound.waiting = p.fromHost ++ p.left.inbound.waiting := by
  obtain ⟨level, line, r, hend, -, hmet, hleft, -, -⟩ := (steps_of_pass? h).exists_ending
  obtain ⟨taken, hreads⟩ := Turn.readsTo_inbound_of_ending hend
  have hheard : p.fromHost = taken := by
    unfold Pass.fromHost Pass.inboundCalls
    rw [hleft, hmet]
    exact hreads.received_callsSince
  rw [hheard, hleft]
  exact hreads.waiting

theorem deaf_of_pass? (hdeaf : b.transaction.phase.hearsHost = false)
    (h : b.pass? e = some p) : p.left.inbound = e.wiring.inbound ∧ p.fromHost = [] := by
  obtain ⟨level, line, r, hend, -, hmet, hleft, -, -⟩ := (steps_of_pass? h).exists_ending
  have hsame : p.left.inbound = e.wiring.inbound := by
    rw [hleft, Turn.inbound_of_ending hdeaf hend]
    rfl
  refine ⟨hsame, ?_⟩
  rw [Pass.fromHost, Pass.inboundCalls, hsame, hmet, Channel.callsSince_self, List.flatMap_nil]

theorem Run.keeps {b' : Bridge} {ps : List Pass} (hrun : b.Run ps b') : b.Keeps b' :=
  hrun.invariant (fun hpass hkeeps => hkeeps.trans (keeps_of_pass? hpass)) (.refl b)

end Bridge

end SpiBridge
