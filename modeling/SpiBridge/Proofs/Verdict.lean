import SpiBridge.Proofs.Coherence
import SpiBridge.Proofs.Faults
/-!
# Faults of a turn

A turn fails as a whole when a channel cannot be used any more.  Main statements: what
holds of a transaction through all faults, that every read from the host has room for
bytes, and that the end of each turn says what happened on the channels: a fault if and
only if a call or a poll was fatal or the host's stream ended within a frame, and a stop
if and only if that stream ended between two frames.
-/

namespace SpiBridge

open Command (Header Frame)

/-- What happens on the channels in a step. -/
structure Traffic where
  bus : List Call := []
  inbound : List Call := []
  outbound : List Call := []
  refusals : List RoomPoll := []

def Wiring.trafficSince (q p : Wiring) : Traffic :=
  ⟨q.bus.callsSince p.bus, q.inbound.callsSince p.inbound,
    q.outbound.channel.callsSince p.outbound.channel, q.outbound.refusalsSince p.outbound⟩

def Transaction.AwaitsHost (t : Transaction) : Prop :=
  t.phase = .slaveAwaitingHostAnswer ∨ t.phase = .masterPayload ∨
    (t.phase = .masterHeader ∧ t.frame.isEmpty = false)

namespace Traffic

def FindsEnd (k : Traffic) : Prop :=
  ∃ call ∈ k.inbound, call.findsEnd = true

/-- A channel cannot be used any more.  The deadline is that of a write to the host. -/
inductive Fails (t : Transaction) (deadline : Option Instant) (k : Traffic) : Prop
  | bus {call : Call} (hmem : call ∈ k.bus)
      (hfatal : call.isFatal IoKind.isTransient = true)
  | inbound {call : Call} (hmem : call ∈ k.inbound)
      (hfatal : call.isFatal IoKind.isTransient = true)
  | outbound {call : Call} (hmem : call ∈ k.outbound)
      (hfatal : call.isFatal (· == .interrupted) = true)
  | unpolled {error : IoError} (hmem : .failed error ∈ k.refusals)
  | late {limit clock : Instant} (hdeadline : deadline = some limit)
      (hmem : .idle clock ∈ k.refusals) (hreached : limit.reachedBy clock = true)
  | ended (hend : k.FindsEnd) (hawaits : t.AwaitsHost)

structure HostLeaves (t : Transaction) (k : Traffic) : Prop where
  ended : k.FindsEnd
  phase : t.phase = .masterHeader
  empty : t.frame.isEmpty = true

variable {t : Transaction} {deadline : Option Instant} {k : Traffic}

theorem fails_iff :
    k.Fails t deadline ↔
      (∃ call ∈ k.bus, call.isFatal IoKind.isTransient = true) ∨
      (∃ call ∈ k.inbound, call.isFatal IoKind.isTransient = true) ∨
      ((∃ call ∈ k.outbound, call.isFatal (· == .interrupted) = true) ∨
        ∃ poll ∈ k.refusals, (∃ error, poll = .failed error) ∨
          ∃ limit clock, deadline = some limit ∧ poll = .idle clock ∧
            limit.reachedBy clock = true) ∨
      (k.FindsEnd ∧ t.AwaitsHost) := by
  constructor
  · rintro (⟨hmem, hfatal⟩ | ⟨hmem, hfatal⟩ | ⟨hmem, hfatal⟩ | ⟨hmem⟩ |
      ⟨hdeadline, hmem, hreached⟩ | ⟨hend, hawaits⟩)
    · exact .inl ⟨_, hmem, hfatal⟩
    · exact .inr (.inl ⟨_, hmem, hfatal⟩)
    · exact .inr (.inr (.inl (.inl ⟨_, hmem, hfatal⟩)))
    · exact .inr (.inr (.inl (.inr ⟨_, hmem, .inl ⟨_, rfl⟩⟩)))
    · exact .inr (.inr (.inl (.inr ⟨_, hmem, .inr ⟨_, _, hdeadline, rfl, hreached⟩⟩)))
    · exact .inr (.inr (.inr ⟨hend, hawaits⟩))
  · rintro (⟨call, hmem, hfatal⟩ | ⟨call, hmem, hfatal⟩ | (⟨call, hmem, hfatal⟩ |
      ⟨poll, hmem, ⟨error, rfl⟩ | ⟨limit, clock, hdeadline, rfl, hreached⟩⟩) | ⟨hend, hawaits⟩)
    · exact .bus hmem hfatal
    · exact .inbound hmem hfatal
    · exact .outbound hmem hfatal
    · exact .unpolled hmem
    · exact .late hdeadline hmem hreached
    · exact .ended hend hawaits

end Traffic

theorem RoomPoll.not_allows_iff {poll : RoomPoll} {deadline : Instant} :
    ¬ poll.Allows deadline ↔ (∃ error, poll = .failed error) ∨
      ∃ limit clock, some deadline = some limit ∧ poll = .idle clock ∧
        limit.reachedBy clock = true := by
  cases poll <;> simp [Allows]

namespace Scene

variable {s q : Scene} {target : Nat}

/-- A channel cannot be used any more after a turn that led from one scene to another. -/
def Fails (s q : Scene) : Prop :=
  (q.wiring.trafficSince s.wiring).Fails s.bridge.transaction
    (s.wiring.outbound.clock.after? s.bridge.timing.write)

def HostLeaves (s q : Scene) : Prop :=
  (q.wiring.trafficSince s.wiring).HostLeaves s.bridge.transaction

theorem trafficSince_self (s : Scene) : s.wiring.trafficSince s.wiring = {} := by
  simp [Wiring.trafficSince, Outlet.refusalsSince]

theorem not_fails_self (h : q.wiring = s.wiring) : ¬ s.Fails q := by
  rw [Fails, h, trafficSince_self, Traffic.fails_iff]
  simp [Traffic.FindsEnd]

theorem not_hostLeaves_of_deaf (h : q.wiring.inbound = s.wiring.inbound) : ¬ s.HostLeaves q := by
  rintro ⟨⟨call, hmem, -⟩, -, -⟩
  rw [Wiring.trafficSince, h, Channel.callsSince_self] at hmem
  cases hmem

theorem fails_iff_of_asking {result : Except TransportError (Option Bytes)} {c : Channel}
    (hask : s.asking target = (result, c)) (hmissing : 0 < s.missing target)
    (hq : q.wiring = (s.listening c).wiring) :
    (s.Fails q ↔ (∃ e, result = .error e) ∨
        result = .ok (some []) ∧ s.bridge.transaction.AwaitsHost) ∧
      (s.HostLeaves q ↔ result = .ok (some []) ∧ s.bridge.transaction.phase = .masterHeader ∧
        s.bridge.transaction.frame.isEmpty = true) := by
  have htraffic : q.wiring.trafficSince s.wiring =
      { inbound := c.callsSince s.wiring.inbound } := by
    rw [hq]
    simp [Wiring.trafficSince, listening, Outlet.refusalsSince]
  have hfatal : (∃ call ∈ c.callsSince s.wiring.inbound, call.isFatal IoKind.isTransient = true) ↔
      ∃ e, result = .error e := (Channel.shows_readSome hask).iff
  have hend : (∃ call ∈ c.callsSince s.wiring.inbound, call.findsEnd = true) ↔
      result = .ok (some []) := Channel.findsEnd_iff_of_readSome hask hmissing
  constructor
  · rw [Fails, htraffic, Traffic.fails_iff, Traffic.FindsEnd, hfatal, hend]
    simp
  · rw [HostLeaves, htraffic]
    constructor
    · rintro ⟨hended, hphase, hempty⟩
      exact ⟨hend.1 hended, hphase, hempty⟩
    · rintro ⟨hresult, hphase, hempty⟩
      exact ⟨hend.2 hresult, hphase, hempty⟩

theorem fails_iff_of_fill {result : Except IntakeError Unit} {i : Intake}
    (hfill : s.intake.fill target = (result, i)) (hq : q.wiring = (s.taking i).wiring) :
    s.Fails q ↔ ∃ e, result = .error (.transport e) := by
  have htraffic : q.wiring.trafficSince s.wiring = { bus := i.bus.callsSince s.wiring.bus } := by
    rw [hq]
    simp [Wiring.trafficSince, taking, Outlet.refusalsSince]
  have hfatal := (Intake.shows_fill IoKind.isTransient s.intake target).iff
  rw [hfill] at hfatal
  have hbus : s.intake.bus = s.wiring.bus := rfl
  rw [Fails, htraffic, Traffic.fails_iff, Traffic.FindsEnd, ← hbus, hfatal]
  simp

theorem fails_iff_of_forwarding {i : Intake} {result : Except Outlet.Failure Unit} {o : Outlet}
    (hfill : s.intake.fill target = (.ok (), i))
    (hforward : (s.taking i).forwarding = (result, o))
    (hq : q.wiring = ((s.taking i).handing o).wiring) :
    s.Fails q ↔ ∃ e, result = .error (.transport e) := by
  have htraffic : q.wiring.trafficSince s.wiring =
      { bus := i.bus.callsSince s.wiring.bus
        outbound := o.channel.callsSince s.wiring.outbound.channel
        refusals := o.refusalsSince s.wiring.outbound } := by
    rw [hq]
    simp [Wiring.trafficSince, taking, handing]
  have hbus := (Intake.shows_fill IoKind.isTransient s.intake target).iff
  rw [hfill] at hbus
  have hsame : s.intake.bus = s.wiring.bus := rfl
  rw [Fails, htraffic, Traffic.fails_iff, Traffic.FindsEnd, ← hsame, hbus]
  rcases Outlet.shows_writeWithin hforward with ⟨-, rfl, rfl⟩ | ⟨deadline, hdeadline, -, hshows⟩
  · simp [taking, Outlet.refusalsSince]
  · have hclock : s.wiring.outbound.clock.after? s.bridge.timing.write = some deadline := hdeadline
    have hiff := hshows.iff
    simp only [RoomPoll.not_allows_iff] at hiff
    rw [hclock]
    have houtbound : (s.taking i).wiring.outbound = s.wiring.outbound := rfl
    rw [houtbound] at hiff
    rw [hiff]
    simp

theorem clock_of_forwarding {i : Intake} {o : Outlet}
    (hforward : (s.taking i).forwarding = (.error .clockRange, o)) :
    s.wiring.outbound.clock.after? s.bridge.timing.write = none := by
  rcases Outlet.shows_writeWithin hforward with ⟨hnone, -⟩ | ⟨deadline, -, hne, -⟩
  · exact hnone
  · exact absurd rfl hne

theorem fails_iff_of_send {bytes : Bytes} {result : Except TransportError Unit} {bus : Channel}
    (hsend : s.wiring.bus.writeFully .serialBus bytes = (result, bus))
    (hq : q.wiring = (s.clocking bus).wiring) :
    s.Fails q ↔ ∃ e, result = .error e := by
  have htraffic : q.wiring.trafficSince s.wiring = { bus := bus.callsSince s.wiring.bus } := by
    rw [hq]
    simp [Wiring.trafficSince, clocking, Outlet.refusalsSince]
  rw [Fails, htraffic, Traffic.fails_iff, Traffic.FindsEnd, (Channel.shows_writeFully hsend).iff]
  simp

end Scene

/-! ## What lasts through faults -/

namespace Transaction

variable {t t' : Transaction} {phase : Phase}

/-- What holds of a transaction whatever was met, faults included: only of the slave's frame there
may be more than its phase says, after a fault that came while it was read or forwarded. -/
structure Lasting (t : Transaction) : Prop where
  initiator : t.initiator = t.phase.side?
  deadline : t.deadline.isSome = true ↔ t.phase = .slaveAwaitingHostAnswer
  holds : t.phase.hearsSlave = false → t.Holds t.phase

theorem Coherent.lasting (h : t.Coherent) : t.Lasting :=
  ⟨h.initiator, h.deadline, fun _ => h.holds⟩

namespace Lasting

theorem coherent (h : t.Lasting) (hdeaf : t.phase.hearsSlave = false) : t.Coherent :=
  ⟨h.initiator, h.deadline, h.holds hdeaf⟩

theorem moves (h : t.Lasting) (hphase : t.phase = phase) (hside : t'.phase.side? = phase.side?)
    (hinitiator : t'.initiator = t.initiator)
    (hdeadline : t'.deadline.isSome = true ↔ t'.phase = .slaveAwaitingHostAnswer)
    (hholds : t'.phase.hearsSlave = false → t'.Holds t'.phase) : t'.Lasting :=
  ⟨by rw [hinitiator, h.initiator, hphase, hside], hdeadline, hholds⟩

theorem kept (h : t.Lasting) (hphase : t'.phase = t.phase) (hinitiator : t'.initiator = t.initiator)
    (hdeadline : t'.deadline = t.deadline)
    (hholds : t.phase.hearsSlave = false → t.Holds t.phase → t'.Holds t.phase) : t'.Lasting := by
  refine ⟨?_, ?_, fun hdeaf => ?_⟩
  · rw [hinitiator, hphase, h.initiator]
  · rw [hdeadline, hphase, h.deadline]
  · rw [hphase] at hdeaf ⊢
    exact hholds hdeaf (h.holds hdeaf)

end Lasting

theorem Holds.congr (h : t.Holds phase) (hne : phase ≠ .idle)
    (hframe : t'.frame.filled = t.frame.filled) (hrequest : t'.request = t.request)
    (hdecoder : t'.decoder = t.decoder) : t'.Holds phase := by
  cases phase <;> simp_all [Holds]

end Transaction

namespace Turn

variable {readiness : Readiness} {now : Instant} {s s' : Scene} {outcome : Outcome}
  {phase : Phase} {r : Ending}

theorem lasting_of_ending (h : s.bridge.transaction.Lasting)
    (hend : EndingOf readiness now s s.bridge.transaction.phase (.ok outcome s')) :
    s'.bridge.transaction.Lasting := by
  cases hhears : s.bridge.transaction.phase.hearsSlave with
  | false => exact (coherent_of_ending (h.coherent hhears) hend).lasting
  | true =>
    rcases hphase : s.bridge.transaction.phase <;> rw [hphase] at hend hhears <;> try cases hhears
    · have hnone : s.bridge.transaction.deadline = none := by
        simpa [hphase] using h.deadline
      cases hend with
      | payloadFollows =>
        exact h.moves hphase rfl rfl (by simp [Scene.running, Scene.taking, hnone])
          fun hdeaf => by cases hdeaf
      | delivered => exact (Transaction.coherent_reset _).lasting
      | @requested header i o deadline hfill hparse hread =>
        have hmissing : Frame.Unfinished i.frame.reset.filled := .inl (by simp [Header.size])
        have hisRead : header.command.isRead = true := by simp [Command.isRead, hread]
        exact h.moves hphase rfl rfl (by simp [Scene.running])
          fun _ => ⟨hmissing, header, rfl, hisRead⟩
    · cases hend with
      | delivered => exact (Transaction.coherent_reset _).lasting

theorem lapse_ne_fault {q : Scene} {fault : Fault} :
    q.lapse now ≠ .error (.fault fault) s' := by
  unfold Scene.lapse
  split
  · exact nofun
  · split <;> exact nofun

theorem filled_hearing_nil {target : Nat} {lent : Bytes} {c : Channel}
    (hlend : s.bridge.transaction.frame.lend (s.missing target) = .ok lent)
    (hask : s.asking target = (.ok (some []), c)) :
    (s.hearing c []).bridge.transaction.frame.filled = s.bridge.transaction.frame.filled := by
  rw [Scene.filled_hearing hlend hask, List.append_nil]

theorem kept_of_fault {fault : Fault}
    (hend : EndingOf readiness now s phase (.error (.fault fault) s')) :
    phase ≠ .idle ∧
      s'.bridge.transaction.initiator = s.bridge.transaction.initiator ∧
      s'.bridge.transaction.deadline = s.bridge.transaction.deadline ∧
      (phase.hearsSlave = false →
        s'.bridge.transaction.frame.filled = s.bridge.transaction.frame.filled ∧
        s'.bridge.transaction.request = s.bridge.transaction.request ∧
        s'.bridge.transaction.decoder = s.bridge.transaction.decoder) := by
  generalize hr : (EStateM.Result.error (.fault fault) s' : Ending) = r at hend
  cases phase with
  | idle => cases hend <;> cases hr
  | slaveHeader =>
    cases hend with
    | unfilled | malformed | unforwarded | endless =>
      obtain ⟨-, rfl⟩ := EStateM.Result.error.inj hr
      exact ⟨by decide, rfl, rfl, fun hdeaf => by cases hdeaf⟩
    | _ => cases hr
  | slavePayload =>
    cases hend with
    | malformed | unfilled | unforwarded =>
      obtain ⟨-, rfl⟩ := EStateM.Result.error.inj hr
      exact ⟨by decide, rfl, rfl, fun hdeaf => by cases hdeaf⟩
    | _ => cases hr
  | slaveAwaitingHostAnswer =>
    cases hend with
    | unready | blocked | incomplete => exact absurd hr.symm lapse_ne_fault
    | unread =>
      cases hr
      exact ⟨by decide, rfl, rfl, fun _ => ⟨rfl, rfl, rfl⟩⟩
    | closed _ _ hlend hask =>
      cases hr
      exact ⟨by decide, rfl, rfl, fun _ => ⟨filled_hearing_nil hlend hask, rfl, rfl⟩⟩
    | _ => cases hr
  | slaveAnswerToBus | masterToBus =>
    cases hend with
    | unsent =>
      cases hr
      exact ⟨by decide, rfl, rfl, fun _ => ⟨rfl, rfl, rfl⟩⟩
    | _ => cases hr
  | masterHeader =>
    cases hend with
    | unread =>
      cases hr
      exact ⟨by decide, rfl, rfl, fun _ => ⟨rfl, rfl, rfl⟩⟩
    | closed _ hlend hask =>
      cases hr
      exact ⟨by decide, rfl, rfl, fun _ => ⟨filled_hearing_nil hlend hask, rfl, rfl⟩⟩
    | _ => cases hr
  | masterPayload =>
    cases hend with
    | unread =>
      cases hr
      exact ⟨by decide, rfl, rfl, fun _ => ⟨rfl, rfl, rfl⟩⟩
    | closed _ _ hlend hask =>
      cases hr
      exact ⟨by decide, rfl, rfl, fun _ => ⟨filled_hearing_nil hlend hask, rfl, rfl⟩⟩
    | _ => cases hr

theorem lasting_of_fault {fault : Fault} (h : s.bridge.transaction.Lasting)
    (hend : EndingOf readiness now s s.bridge.transaction.phase (.error (.fault fault) s')) :
    s'.bridge.transaction.Lasting := by
  obtain ⟨hne, hinitiator, hdeadline, hrest⟩ := kept_of_fault hend
  refine h.kept (phase_of_error hend) hinitiator hdeadline fun hdeaf hholds => ?_
  obtain ⟨hframe, hrequest, hdecoder⟩ := hrest hdeaf
  exact hholds.congr hne hframe hrequest hdecoder

/-! ## No read without room -/

theorem missing_of_answer {target : Nat}
    (hmissing : Frame.Unfinished s.bridge.transaction.frame.filled)
    (htarget : s.bridge.transaction.answerLength = .ok target) : 0 < s.missing target := by
  have hless := Transaction.length_lt_of_answerLength htarget hmissing
  rw [Buffer.length_filled] at hless
  exact Nat.sub_pos_of_lt hless

theorem missing_of_header (hshort : s.bridge.transaction.frame.filled.length < Header.size) :
    0 < s.missing Header.size := by
  rw [Buffer.length_filled] at hshort
  exact Nat.sub_pos_of_lt hshort

theorem missing_of_payload {header : Header} (hholds : s.bridge.transaction.Holds .masterPayload)
    (hparse : Header.parse s.bridge.transaction.frame.filled = .ok header) :
    0 < s.missing header.frameLength := by
  obtain ⟨header', hparse', -, -, hless⟩ := hholds
  obtain rfl : header = header' := Except.ok.inj (hparse.symm.trans hparse')
  rw [Buffer.length_filled] at hless
  exact Nat.sub_pos_of_lt hless

theorem asks_with_room (hphase : s.bridge.transaction.phase = phase)
    (h : s.bridge.transaction.Lasting) (hend : EndingOf readiness now s phase r) :
    (sceneOf r).wiring.inbound = s.wiring.inbound ∨
      ∃ target result, 0 < s.missing target ∧
        s.asking target = (result, (sceneOf r).wiring.inbound) := by
  have hholds := h.holds
  rw [hphase] at hholds
  cases phase with
  | slaveAwaitingHostAnswer =>
    obtain ⟨hmissing, -⟩ := hholds rfl
    cases hend with
    | unready =>
      rw [sceneOf_lapse]
      exact .inl rfl
    | blocked _ htarget _ hask | incomplete _ htarget _ hask =>
      rw [sceneOf_lapse]
      exact .inr ⟨_, _, missing_of_answer hmissing htarget, hask⟩
    | malformed | noRoom => exact .inl rfl
    | unread _ htarget _ hask | closed _ htarget _ hask | broken _ htarget _ hask
    | complete _ htarget _ hask => exact .inr ⟨_, _, missing_of_answer hmissing htarget, hask⟩
  | masterHeader =>
    have hmissing := missing_of_header (hholds rfl)
    cases hend with
    | unready | noRoom => exact .inl rfl
    | unread _ _ hask | blocked _ _ hask | left _ _ hask | closed _ _ hask | malformed _ _ hask
    | incomplete _ _ hask | unexpected _ _ hask | accepted _ _ hask =>
      exact .inr ⟨_, _, hmissing, hask⟩
  | masterPayload =>
    cases hend with
    | unready | malformed | noRoom => exact .inl rfl
    | unread _ hparse _ hask | blocked _ hparse _ hask | closed _ hparse _ hask
    | incomplete _ hparse _ hask | complete _ hparse _ hask =>
      exact .inr ⟨_, _, missing_of_payload (hholds rfl) hparse, hask⟩
  | idle | slaveHeader | slavePayload | slaveAnswerToBus | masterToBus =>
    exact .inl (inbound_of_ending rfl hend)

/-! ## Faults and stops -/

def GoesOn : Ending → Prop
  | .ok outcome _ => outcome ≠ .stop
  | .error (.transaction _) _ => True
  | .error (.fault _) _ => False

def outcomeOf : Ending → Except Fault Outcome
  | .ok outcome _ => .ok outcome
  | .error (.transaction error) _ => .ok (.aborted error)
  | .error (.fault fault) _ => .error fault

theorem exists_outcomeOf_of_goesOn (h : GoesOn r) :
    ∃ outcome, outcomeOf r = .ok outcome ∧ outcome ≠ .stop := by
  rcases r with ⟨outcome, q⟩ | ⟨error | fault, q⟩
  · exact ⟨outcome, rfl, h⟩
  · exact ⟨.aborted error, rfl, by simp⟩
  · exact absurd h id

/-- What the end of a turn says about the channels. -/
inductive Verdict (now : Instant) (s : Scene) : Ending → Prop
  | fails {e : TransportError} {q : Scene} (hfails : s.Fails q) (hstays : ¬ s.HostLeaves q) :
      Verdict now s (.error (.fault (.transport e)) q)
  | beyondClock {q : Scene} (hcalm : ¬ s.Fails q) (hstays : ¬ s.HostLeaves q)
      (hclock : s.wiring.outbound.clock.after? s.bridge.timing.write = none ∨
        now.after? s.bridge.timing.answer = none) :
      Verdict now s (.error (.fault .clockRange) q)
  | leaves {q : Scene} (hcalm : ¬ s.Fails q) (hleaves : s.HostLeaves q) :
      Verdict now s (.ok .stop q)
  | goesOn {r : Ending} (hplain : GoesOn r) (hcalm : ¬ s.Fails (sceneOf r))
      (hstays : ¬ s.HostLeaves (sceneOf r)) : Verdict now s r

theorem goesOn_continues (s : Scene) : GoesOn (.ok .continues s) :=
  Outcome.noConfusion

theorem goesOn_completed (origin : Sync.Origin) (s : Scene) : GoesOn (.ok (.completed origin) s) :=
  Outcome.noConfusion

theorem goesOn_lapse (s : Scene) (now : Instant) : GoesOn (s.lapse now) := by
  unfold Scene.lapse
  split
  · exact nofun
  · split
    · trivial
    · exact nofun

theorem Verdict.quiet (hplain : GoesOn r) (hsame : (sceneOf r).wiring = s.wiring) :
    Verdict now s r :=
  .goesOn hplain (Scene.not_fails_self hsame)
    (Scene.not_hostLeaves_of_deaf (congrArg Wiring.inbound hsame))

theorem Verdict.heard {target : Nat} {got : Option Bytes} {c : Channel} (hplain : GoesOn r)
    (hask : s.asking target = (.ok got, c)) (hmissing : 0 < s.missing target)
    (hne : got ≠ some []) (hq : (sceneOf r).wiring = (s.listening c).wiring) :
    Verdict now s r := by
  obtain ⟨hfails, hleaves⟩ := Scene.fails_iff_of_asking hask hmissing hq
  exact .goesOn hplain (by simp [hfails, hne]) (by simp [hleaves, hne])

theorem Verdict.unread {target : Nat} {e : TransportError} {c : Channel}
    (hask : s.asking target = (.error e, c)) (hmissing : 0 < s.missing target) :
    Verdict now s (.error (.fault (.transport e)) (s.listening c)) := by
  obtain ⟨hfails, hleaves⟩ := Scene.fails_iff_of_asking hask hmissing (q := s.listening c) rfl
  exact .fails (by simp [hfails]) (by simp [hleaves])

theorem Verdict.closed {target : Nat} {c : Channel}
    (hask : s.asking target = (.ok (some []), c)) (hmissing : 0 < s.missing target)
    (hawaits : s.bridge.transaction.AwaitsHost) :
    Verdict now s (.error (.fault (.transport (.closed .inbound))) (s.hearing c [])) := by
  obtain ⟨hfails, hleaves⟩ := Scene.fails_iff_of_asking hask hmissing (q := s.hearing c []) rfl
  refine .fails (by simp [hfails, hawaits]) ?_
  rw [hleaves]
  rintro ⟨-, hphase, hempty⟩
  rcases hawaits with hother | hother | ⟨-, hfull⟩
  · rw [hphase] at hother
    cases hother
  · rw [hphase] at hother
    cases hother
  · rw [hempty] at hfull
    cases hfull

theorem Verdict.left {target : Nat} {c : Channel}
    (hask : s.asking target = (.ok (some []), c)) (hmissing : 0 < s.missing target)
    (hphase : s.bridge.transaction.phase = .masterHeader)
    (hempty : s.bridge.transaction.frame.isEmpty = true) :
    Verdict now s (.ok .stop ((s.hearing c []).running
      (s.hearing c []).bridge.transaction.reset)) := by
  obtain ⟨hfails, hleaves⟩ := Scene.fails_iff_of_asking hask hmissing
    (q := (s.hearing c []).running (s.hearing c []).bridge.transaction.reset) rfl
  refine .leaves ?_ (hleaves.2 ⟨rfl, hphase, hempty⟩)
  rw [hfails]
  simp [Transaction.AwaitsHost, hphase, hempty]

theorem Verdict.filled {target : Nat} {result : Except IntakeError Unit} {i : Intake}
    (hplain : GoesOn r) (hfill : s.intake.fill target = (result, i))
    (hok : ∀ e, result ≠ .error (.transport e)) (hq : (sceneOf r).wiring = (s.taking i).wiring) :
    Verdict now s r := by
  refine .goesOn hplain ?_ (Scene.not_hostLeaves_of_deaf (by rw [hq]; rfl))
  rw [Scene.fails_iff_of_fill hfill hq]
  exact fun ⟨e, he⟩ => hok e he

theorem Verdict.unfilled {target : Nat} {e : IntakeError} {i : Intake}
    (hfill : s.intake.fill target = (.error e, i)) :
    Verdict now s (.error e.setback (s.taking i)) := by
  cases e with
  | framing e => exact .filled trivial hfill (by simp) rfl
  | transport e =>
    refine .fails ?_ (Scene.not_hostLeaves_of_deaf rfl)
    exact (Scene.fails_iff_of_fill hfill (q := s.taking i) rfl).2 ⟨e, rfl⟩

theorem Verdict.forwarded {target : Nat} {i : Intake} {o : Outlet} (hplain : GoesOn r)
    (hfill : s.intake.fill target = (.ok (), i))
    (hforward : (s.taking i).forwarding = (.ok (), o))
    (hq : (sceneOf r).wiring = ((s.taking i).handing o).wiring) : Verdict now s r := by
  refine .goesOn hplain ?_ (Scene.not_hostLeaves_of_deaf (by rw [hq]; rfl))
  rw [Scene.fails_iff_of_forwarding hfill hforward hq]
  simp

theorem Verdict.unforwarded {target : Nat} {i : Intake} {f : Outlet.Failure} {o : Outlet}
    (hfill : s.intake.fill target = (.ok (), i))
    (hforward : (s.taking i).forwarding = (.error f, o)) :
    Verdict now s (.error f.setback ((s.taking i).handing o)) := by
  have hfails := Scene.fails_iff_of_forwarding hfill hforward
    (q := (s.taking i).handing o) rfl
  have hstays : ¬ s.HostLeaves ((s.taking i).handing o) := Scene.not_hostLeaves_of_deaf rfl
  cases f with
  | transport e => exact .fails (hfails.2 ⟨e, rfl⟩) hstays
  | clockRange =>
    refine .beyondClock ?_ hstays (.inl (Scene.clock_of_forwarding hforward))
    rw [hfails]
    simp

theorem verdict_of_send {origin : Sync.Origin} (hend : SendEnding origin s r) :
    Verdict now s r := by
  cases hend with
  | unnumbered | noRoom => exact .quiet trivial rfl
  | @unsent header serials wire e bus _ _ hsend =>
    refine .fails ?_ (Scene.not_hostLeaves_of_deaf rfl)
    exact (Scene.fails_iff_of_send hsend rfl).2 ⟨e, rfl⟩
  | sent _ _ hsend =>
    refine .goesOn (goesOn_completed _ _) (fun hfails => ?_) (Scene.not_hostLeaves_of_deaf rfl)
    obtain ⟨e, he⟩ := (Scene.fails_iff_of_send hsend rfl).1 hfails
    cases he

theorem verdict_of_ending (hphase : s.bridge.transaction.phase = phase)
    (h : s.bridge.transaction.Lasting) (hend : EndingOf readiness now s phase r) :
    Verdict now s r := by
  have hholds := h.holds
  rw [hphase] at hholds
  cases phase with
  | idle => cases hend <;> exact .quiet (goesOn_continues _) rfl
  | slaveHeader =>
    cases hend with
    | unfilled hfill => exact .unfilled hfill
    | malformed hfill => exact .filled trivial hfill (by simp) rfl
    | payloadFollows hfill => exact .filled (goesOn_continues _) hfill (by simp) rfl
    | unforwarded hfill _ _ hforward => exact .unforwarded hfill hforward
    | delivered hfill _ _ _ hforward =>
      exact .forwarded (goesOn_completed _ _) hfill hforward rfl
    | requested hfill _ _ hforward =>
      exact .forwarded (goesOn_continues _) hfill hforward rfl
    | endless hfill _ _ hforward hdeadline =>
      refine .beyondClock (fun hfails => ?_) (Scene.not_hostLeaves_of_deaf rfl) (.inr hdeadline)
      obtain ⟨e, he⟩ := (Scene.fails_iff_of_forwarding hfill hforward rfl).1 hfails
      cases he
  | slavePayload =>
    cases hend with
    | malformed => exact .quiet trivial rfl
    | unfilled _ hfill => exact .unfilled hfill
    | unforwarded _ hfill hforward => exact .unforwarded hfill hforward
    | delivered _ hfill hforward =>
      exact .forwarded (goesOn_completed _ _) hfill hforward rfl
  | slaveAwaitingHostAnswer =>
    obtain ⟨hmissing, -⟩ := hholds rfl
    cases hend with
    | unready => exact .quiet (goesOn_lapse _ _) (by rw [sceneOf_lapse])
    | malformed | noRoom => exact .quiet trivial rfl
    | unread _ htarget _ hask => exact .unread hask (missing_of_answer hmissing htarget)
    | blocked _ htarget _ hask =>
      exact .heard (goesOn_lapse _ _) hask (missing_of_answer hmissing htarget) (by simp)
        (by rw [sceneOf_lapse])
    | closed _ htarget _ hask =>
      exact .closed hask (missing_of_answer hmissing htarget) (.inl hphase)
    | broken _ htarget _ hask hne =>
      exact .heard trivial hask (missing_of_answer hmissing htarget) (by simpa using hne) rfl
    | incomplete _ htarget _ hask hne =>
      exact .heard (goesOn_lapse _ _) hask (missing_of_answer hmissing htarget)
        (by simpa using hne) (by rw [sceneOf_lapse]; rfl)
    | complete _ htarget _ hask hne =>
      exact .heard (goesOn_continues _) hask (missing_of_answer hmissing htarget)
        (by simpa using hne) rfl
  | masterHeader =>
    have hmissing := missing_of_header (hholds rfl)
    have hkept {lent : Bytes} {c : Channel}
        (hlend : s.bridge.transaction.frame.lend (s.missing Header.size) = .ok lent)
        (hask : s.asking Header.size = (.ok (some []), c)) :
        (s.hearing c []).bridge.transaction.frame.isEmpty = s.bridge.transaction.frame.isEmpty := by
      rw [Buffer.isEmpty, Buffer.isEmpty, ← Buffer.length_filled, filled_hearing_nil hlend hask,
        Buffer.length_filled]
    cases hend with
    | unready => exact .quiet (goesOn_continues _) rfl
    | noRoom => exact .quiet trivial rfl
    | unread _ _ hask => exact .unread hask hmissing
    | blocked _ _ hask => exact .heard (goesOn_continues _) hask hmissing (by simp) rfl
    | left _ hlend hask hempty =>
      rw [hkept hlend hask] at hempty
      exact .left hask hmissing hphase hempty
    | closed _ hlend hask hempty =>
      rw [hkept hlend hask] at hempty
      exact .closed hask hmissing (.inr (.inr ⟨hphase, hempty⟩))
    | malformed _ _ hask hne | unexpected _ _ hask hne =>
      exact .heard trivial hask hmissing (by simpa using hne) rfl
    | incomplete _ _ hask hne | accepted _ _ hask hne =>
      exact .heard (goesOn_continues _) hask hmissing (by simpa using hne) rfl
  | masterPayload =>
    cases hend with
    | unready => exact .quiet (goesOn_continues _) rfl
    | malformed | noRoom => exact .quiet trivial rfl
    | unread _ hparse _ hask => exact .unread hask (missing_of_payload (hholds rfl) hparse)
    | blocked _ hparse _ hask =>
      exact .heard (goesOn_continues _) hask (missing_of_payload (hholds rfl) hparse) (by simp) rfl
    | closed _ hparse _ hask =>
      exact .closed hask (missing_of_payload (hholds rfl) hparse) (.inr (.inl hphase))
    | incomplete _ hparse _ hask hne | complete _ hparse _ hask hne =>
      exact .heard (goesOn_continues _) hask (missing_of_payload (hholds rfl) hparse)
        (by simpa using hne) rfl
  | slaveAnswerToBus | masterToBus => exact verdict_of_send hend

end Turn

end SpiBridge
