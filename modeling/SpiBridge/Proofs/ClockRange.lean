import SpiBridge.Program
import SpiBridge.Proofs.Containment
import SpiBridge.Proofs.Settings
/-!
# The range of the clock

When a command of the slave is handed on to the host, a deadline is set for the write, and another
one for the answer if the command is a read.  A deadline that the clock does not reach cuts the
bridge short.  Main statement: this happens in just those steps, whatever is set on the command
line, and every text that is read as a duration can be set there, however long the duration is.
-/

namespace SpiBridge

def Instant.horizon : Nat :=
  0x8000_0000_0000_0000 * 1_000_000_000

theorem Instant.after?_eq_none_iff {t : Instant} {d : Duration} :
    t.after? d = none ↔ horizon ≤ t.nanos + d.nanos := by
  unfold after?
  split
  case isTrue hwithin => simpa [horizon] using hwithin
  case isFalse hbeyond => simpa [horizon] using hbeyond

namespace Scene

open Command (Header)

inductive HandsOn (s : Scene) : Phase → Intake → Header → Prop
  | header {i : Intake} {header : Header} (hfill : s.intake.fill Header.size = (.ok (), i))
      (hparse : Header.parse i.frame.filled = .ok header)
      (hwhole : header.command.isWrite = true → header.followingLength = 0) :
      HandsOn s .slaveHeader i header
  | payload {i : Intake} {header : Header}
      (hparse : Header.parse s.bridge.transaction.frame.filled = .ok header)
      (hfill : s.intake.fill header.frameLength = (.ok (), i)) :
      HandsOn s .slavePayload i header

inductive Overruns (now : Instant) (s : Scene) : Phase → Prop
  | write {phase : Phase} {i : Intake} {header : Header} (hhands : s.HandsOn phase i header)
      (hlate : Instant.horizon ≤ s.wiring.outbound.clock.nanos + s.bridge.timing.write.nanos) :
      Overruns now s phase
  | answer {i : Intake} {header : Header} {o : Outlet} (hhands : s.HandsOn .slaveHeader i header)
      (hread : header.command.isWrite = false)
      (hforward : (s.taking i).forwarding = (.ok (), o))
      (hlate : Instant.horizon ≤ now.nanos + s.bridge.timing.answer.nanos) :
      Overruns now s .slaveHeader

variable {now : Instant} {s : Scene} {phase : Phase} {i : Intake}

theorem forwarding_of_late
    (hlate : Instant.horizon ≤ s.wiring.outbound.clock.nanos + s.bridge.timing.write.nanos) :
    (s.taking i).forwarding = (.error .clockRange, s.wiring.outbound) := by
  have hnone := Instant.after?_eq_none_iff.2 hlate
  show s.wiring.outbound.writeWithin .outbound s.bridge.timing.write _ = _
  unfold Outlet.writeWithin
  rw [hnone]

theorem not_overruns (hanswer : now.nanos + s.bridge.timing.answer.nanos < Instant.horizon)
    (hwrite : s.wiring.outbound.clock.nanos + s.bridge.timing.write.nanos < Instant.horizon) :
    ¬ s.Overruns now phase := by
  rintro (⟨-, hlate⟩ | ⟨-, -, -, hlate⟩)
  · omega
  · omega

end Scene

namespace Turn

open Command (Header)

variable {readiness : Readiness} {now : Instant} {s : Scene} {phase : Phase} {r : Ending}

theorem outcomeOf_setback_ne (e : IntakeError) (q : Scene) :
    outcomeOf (.error e.setback q) ≠ .error .clockRange := by
  cases e <;> simp [IntakeError.setback, outcomeOf]

theorem outcomeOf_lapse_ne (q : Scene) : outcomeOf (q.lapse now) ≠ .error .clockRange := by
  unfold Scene.lapse
  split
  · simp [outcomeOf]
  · split <;> simp [outcomeOf]

theorem overruns_of_forwarding {i : Intake} {header : Header} {f : Outlet.Failure} {o : Outlet}
    {q : Scene} (hhands : s.HandsOn phase i header)
    (hforward : (s.taking i).forwarding = (.error f, o))
    (h : outcomeOf (.error f.setback q) = .error .clockRange) : s.Overruns now phase := by
  cases f with
  | transport => cases h
  | clockRange =>
    exact .write hhands (Instant.after?_eq_none_iff.1 (Scene.clock_of_forwarding hforward))

theorem overruns_of_clockRange (hend : EndingOf readiness now s phase r)
    (h : outcomeOf r = .error .clockRange) : s.Overruns now phase := by
  cases phase with
  | slaveHeader =>
    cases hend with
    | unfilled => exact absurd h (outcomeOf_setback_ne _ _)
    | malformed | payloadFollows | delivered | requested => cases h
    | unforwarded hfill hparse hwhole hforward =>
      exact overruns_of_forwarding (.header hfill hparse hwhole) hforward h
    | endless hfill hparse hread hforward hdeadline =>
      exact .answer (.header hfill hparse (by simp [hread])) hread hforward
        (Instant.after?_eq_none_iff.1 hdeadline)
  | slavePayload =>
    cases hend with
    | unfilled => exact absurd h (outcomeOf_setback_ne _ _)
    | malformed | delivered => cases h
    | unforwarded hparse hfill hforward =>
      exact overruns_of_forwarding (.payload hparse hfill) hforward h
  | slaveAwaitingHostAnswer =>
    cases hend with
    | unready | blocked | incomplete => exact absurd h (outcomeOf_lapse_ne _)
    | _ => cases h
  | idle | slaveAnswerToBus | masterHeader | masterPayload | masterToBus =>
    cases hend <;> cases h

theorem handed_of_ending {i : Intake} {header : Header} (hend : EndingOf readiness now s phase r)
    (hhands : s.HandsOn phase i header) :
    (∃ f o, (s.taking i).forwarding = (.error f, o) ∧
      outcomeOf r = outcomeOf (.error f.setback s)) ∨
      (∃ o, (s.taking i).forwarding = (.ok (), o)) ∧
        (phase = .slaveHeader → header.command.isWrite = false →
          now.after? s.bridge.timing.answer = none → outcomeOf r = .error .clockRange) := by
  -- What was read decides the intake and the header, so those of the ending are the given ones.
  cases hhands with
  | header hfill hparse hwhole =>
    cases hend with
    | unfilled hfill' => cases hfill.symm.trans hfill'
    | malformed hfill' hparse' =>
      cases hfill.symm.trans hfill'
      cases hparse.symm.trans hparse'
    | payloadFollows hfill' hparse' hwrite hfollows =>
      cases hfill.symm.trans hfill'
      cases hparse.symm.trans hparse'
      have hnone := hwhole hwrite
      omega
    | @unforwarded _ _ f _ hfill' _ _ hforward =>
      cases hfill.symm.trans hfill'
      exact .inl ⟨f, _, hforward, by cases f <;> rfl⟩
    | delivered hfill' hparse' hwrite _ hforward =>
      cases hfill.symm.trans hfill'
      cases hparse.symm.trans hparse'
      exact .inr ⟨⟨_, hforward⟩, fun _ hread => by simp [hwrite] at hread⟩
    | endless hfill' _ _ hforward =>
      cases hfill.symm.trans hfill'
      exact .inr ⟨⟨_, hforward⟩, fun _ _ _ => rfl⟩
    | requested hfill' _ _ hforward hdeadline =>
      cases hfill.symm.trans hfill'
      exact .inr ⟨⟨_, hforward⟩, fun _ _ hnone => by simp [hdeadline] at hnone⟩
  | payload hparse hfill =>
    cases hend with
    | malformed hparse' => cases hparse.symm.trans hparse'
    | unfilled hparse' hfill' =>
      cases hparse.symm.trans hparse'
      cases hfill.symm.trans hfill'
    | @unforwarded _ _ f _ hparse' hfill' hforward =>
      cases hparse.symm.trans hparse'
      cases hfill.symm.trans hfill'
      exact .inl ⟨f, _, hforward, by cases f <;> rfl⟩
    | delivered hparse' hfill' hforward =>
      cases hparse.symm.trans hparse'
      cases hfill.symm.trans hfill'
      exact .inr ⟨⟨_, hforward⟩, nofun⟩

theorem clockRange_of_overruns (hend : EndingOf readiness now s phase r)
    (h : s.Overruns now phase) : outcomeOf r = .error .clockRange := by
  cases h with
  | write hhands hlate =>
    rcases handed_of_ending hend hhands with ⟨f, o, hforward, houtcome⟩ | ⟨⟨o, hforward⟩, -⟩
    · rw [Scene.forwarding_of_late hlate] at hforward
      cases hforward
      exact houtcome
    · rw [Scene.forwarding_of_late hlate] at hforward
      cases hforward
  | answer hhands hread hforward hlate =>
    rcases handed_of_ending hend hhands with ⟨f, o, hfailed, -⟩ | ⟨-, hends⟩
    · rw [hforward] at hfailed
      cases hfailed
    · exact hends rfl hread (Instant.after?_eq_none_iff.2 hlate)

end Turn

def Move.fault? (m : Move) : Option Fault :=
  match m.outcome with
  | .ok _ => none
  | .error f => some f

theorem Move.fault?_eq_some_iff {m : Move} {f : Fault} :
    m.fault? = some f ↔ m.outcome = .error f := by
  unfold fault?
  cases m.outcome <;> simp

/-- A deadline that the step sets lies behind the end of the clock. -/
def Move.Overruns (m : Move) : Prop :=
  ∃ level line, m.met.wiring.line.sample = (.ok level, line) ∧
    (m.met.scene m.before level line).Overruns m.met.now m.before.transaction.phase

namespace Bridge

variable {b : Bridge} {es : List Encounter} {m : Move}

theorem clockRange_iff_of_move (b : Bridge) (e : Encounter) :
    (b.move e).outcome = .error .clockRange ↔ (b.move e).Overruns := by
  rcases hsample : e.wiring.line.sample with ⟨error | level, line⟩
  · rw [move_of_unsampled hsample]
    constructor
    · nofun
    · rintro ⟨level, line', hsample', -⟩
      cases hsample.symm.trans hsample'
  · obtain ⟨r, hend, hmove⟩ := exists_turn_of_move hsample rfl
    rw [hmove]
    constructor
    · exact fun h => ⟨level, line, hsample, Turn.overruns_of_clockRange hend h⟩
    · rintro ⟨level', line', hsample', hoverruns⟩
      cases hsample.symm.trans hsample'
      exact Turn.clockRange_of_overruns hend hoverruns

/-- A bridge at work is cut short by the clock in the first pass that sets a deadline behind its
end. -/
theorem run_eq_clockRange_iff (s : Service) (around : Surroundings) (passes : Nat) :
    (s.run around passes).1 = some (.error .clockRange) ↔
      ∃ n < passes, s.opened.GoesOn around n ∧ (s.opened.meets around n).shutdown = false ∧
        ∃ m, s.opened.Steps around n m ∧ m.Overruns := by
  have hstep {n : Nat} {m : Move} (h : s.opened.Steps around n m) :
      m.outcome = .error .clockRange ↔ m.Overruns := by
    obtain ⟨found, -, rfl⟩ := h
    exact clockRange_iff_of_move _ _
  rw [Service.run_eq_some_iff]
  constructor
  · rintro ⟨n, hn, hgoes, hends⟩
    cases hends with
    | fault hquiet hsteps hfault => exact ⟨n, hn, hgoes, hquiet, _, hsteps, (hstep hsteps).1 hfault⟩
  · rintro ⟨n, hn, hgoes, hquiet, m, hsteps, hoverruns⟩
    exact ⟨n, hn, hgoes, .fault hquiet hsteps ((hstep hsteps).2 hoverruns)⟩

theorem timing_of_start {transaction : Transaction} {timing : Timing} {wiring : Wiring}
    (hstart : (start transaction timing wiring).1 = .ok b) (hm : m ∈ b.course es) :
    m.before.timing = timing := by
  have htimed : b.timing = timing := by
    obtain ⟨level, rfl⟩ := start_eq_ok hstart
    rfl
  obtain ⟨c, e, hc, rfl⟩ := exists_move_of_invariant (I := fun c => c.timing = timing)
    (fun c e h => (keeps_of_move c e).timing.trans h) htimed hm
  exact hc

theorem not_overruns_of_within
    (hanswer : m.met.now.nanos + m.before.timing.answer.nanos < Instant.horizon)
    (hwrite : m.met.wiring.outbound.clock.nanos + m.before.timing.write.nanos < Instant.horizon) :
    ¬ m.Overruns := by
  rintro ⟨level, line, -, hoverruns⟩
  exact Scene.not_overruns (s := m.met.scene m.before level line) hanswer hwrite hoverruns

end Bridge

namespace Program

open Bridge CommandLine

/-- The settings of the answer's timeout and of the timeout for writing are durations that were
read from texts.  Under these settings, a step is cut short if and only if it hands a command of the
slave on and sets a deadline behind the end of the clock, and so is a bridge at work, whatever its
surroundings are; that needs a timeout that reaches from the present to the end of the clock.  There
is no other limit to what is accepted: whatever text is read as a duration can be set on the command
line. -/
theorem clockRange_iff_of_settings {args : List String} {environment : List (String × String)}
    {o : Options} {transaction : Transaction} {wiring : Wiring} {b : Bridge}
    (hparse : parse args environment = .ok o)
    (hstart : (start transaction (timing o) wiring).1 = .ok b) :
    (∃ text, Duration.parse text = .ok o.answerTimeout) ∧
      (∃ text, Duration.parse text = .ok o.writeTimeout) ∧
      (∀ es, ∀ m ∈ b.course es, m.before.timing = timing o ∧
        (m.outcome = .error .clockRange ↔ m.Overruns) ∧
        (m.met.now.nanos + o.answerTimeout.nanos < Instant.horizon →
          m.met.wiring.outbound.clock.nanos + o.writeTimeout.nanos < Instant.horizon →
          m.outcome ≠ .error .clockRange)) ∧
      (∀ s : Service, s.bridge = b → ∀ around passes,
        (s.run around passes).1 = some (.error .clockRange) ↔
          ∃ n < passes, s.opened.GoesOn around n ∧ (s.opened.meets around n).shutdown = false ∧
            ∃ m, s.opened.Steps around n m ∧ m.Overruns) ∧
      ∀ text d, Duration.parse text = .ok d →
        parse [s!"--answer-timeout={text}"] [] = .ok { answerTimeout := d } ∧
          parse [s!"--write-timeout={text}"] [] = .ok { writeTimeout := d } := by
  have htimed := isTimed_of_parse hparse
  refine ⟨htimed.answer, htimed.write, fun es m hm => ?_,
    fun s _ around passes => run_eq_clockRange_iff s around passes, fun text d hread => ?_⟩
  · have htiming := timing_of_start hstart hm
    obtain ⟨c, e, -, rfl⟩ :=
      exists_move_of_invariant (I := fun _ => True) (fun _ _ h => h) trivial hm
    have hiff := clockRange_iff_of_move c e
    refine ⟨htiming, hiff, fun hanswer hwrite houtcome => ?_⟩
    refine not_overruns_of_within ?_ ?_ (hiff.1 houtcome)
    · rwa [htiming]
    · rwa [htiming]
  · have hsettles (a : Argument) : a.readDuration text = .ok d := readDuration_eq_ok_iff.2 hread
    constructor
    · refine (parse_singleton (a := .answerTimeout) rfl text).trans ?_
      rw [Argument.settle, hsettles]
      rfl
    · refine (parse_singleton (a := .writeTimeout) rfl text).trans ?_
      rw [Argument.settle, hsettles]
      rfl

def enquiry : List Encounter :=
  [{ wiring := { line := { level := true } } },
    { wiring := { bus := { arrivals := [.data [1, 5, 4, 0]] } } }]

def launched (o : Options) : Bridge :=
  atRest (.ofRooms Transaction.frameRoom Transaction.wireRoom) (timing o)

/-- The least timeout that the clock never reaches. -/
def endless : Duration :=
  .ofSeconds 9223372036854775808

theorem exists_fault_of_enquiry (o : Options)
    (ho : o ∈ [{ answerTimeout := endless }, { writeTimeout := endless : Options }]) :
    ∃ m ∈ (launched o).course enquiry, m.outcome = .error .clockRange := by
  have hfaults : ((launched o).course enquiry).map Move.fault? = [none, some .clockRange] := by
    simp only [List.mem_cons, List.not_mem_nil, or_false] at ho
    rcases ho with rfl | rfl
    · decide +kernel
    · decide +kernel
  have hmem : some Fault.clockRange ∈ ((launched o).course enquiry).map Move.fault? := by
    simp [hfaults]
  obtain ⟨m, hm, hfault⟩ := List.mem_map.1 hmem
  exact ⟨m, hm, Move.fault?_eq_some_iff.1 hfault⟩

/-- The timeout is accepted, and what cuts the bridge short is a deadline behind the end of the
clock. -/
theorem clockRange_iff_of_settings_of_enquiry :
    ∃ o m, parse ["--answer-timeout", "9223372036854775808"] [] = .ok o ∧
      (start (.ofRooms Transaction.frameRoom Transaction.wireRoom) (timing o) {}).1 =
        .ok (launched o) ∧
      m ∈ (launched o).course enquiry ∧ m.outcome = .error .clockRange ∧ m.Overruns := by
  have hparse : parse ["--answer-timeout", "9223372036854775808"] [] =
      .ok { answerTimeout := endless } := by rfl
  have hstart : (start (.ofRooms Transaction.frameRoom Transaction.wireRoom)
      (timing { answerTimeout := endless }) {}).1 =
        .ok (launched { answerTimeout := endless }) := rfl
  obtain ⟨-, -, hsteps, -⟩ := clockRange_iff_of_settings hparse hstart
  obtain ⟨m, hm, houtcome⟩ := exists_fault_of_enquiry { answerTimeout := endless } (by simp)
  exact ⟨_, m, hparse, hstart, hm, houtcome, ((hsteps enquiry m hm).2.1).1 houtcome⟩

/-- So not every accepted timeout can be added to every reading of the clock, and accepted settings
cut a bridge short at the first read of the slave. -/
theorem not_within_of_accepted :
    ¬ (∀ text d, Duration.parse text = .ok d → ∀ now : Instant, now.after? d ≠ none) ∧
      (∃ o m, parse ["--answer-timeout", "9223372036854775808"] [] = .ok o ∧
        m ∈ (launched o).course enquiry ∧ m.outcome = .error .clockRange) ∧
      ∃ o m, parse ["--write-timeout", "9223372036854775808"] [] = .ok o ∧
        m ∈ (launched o).course enquiry ∧ m.outcome = .error .clockRange := by
  refine ⟨fun h => h "9223372036854775808" endless rfl .start rfl, ?_, ?_⟩
  · obtain ⟨m, hm, hfault⟩ := exists_fault_of_enquiry { answerTimeout := endless } (by simp)
    exact ⟨_, m, rfl, hm, hfault⟩
  · obtain ⟨m, hm, hfault⟩ := exists_fault_of_enquiry { writeTimeout := endless } (by simp)
    exact ⟨_, m, rfl, hm, hfault⟩

end Program

end SpiBridge
