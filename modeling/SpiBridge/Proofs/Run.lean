import SpiBridge.Bridge.Step
import SpiBridge.Proofs.Channel
import SpiBridge.Proofs.Turn
/-!
# Runs

A run is a sequence of steps, none of which ends in a fault.  Nothing is assumed of
what a step meets: its surroundings may have changed in any way since the step
before.  Main statements: how a step follows from the turn that it takes, whether or
not it ends in a fault, and that what every step keeps is kept by a run.
-/

namespace SpiBridge

/-- What one step meets: the wiring, what the wait before it found, and the clock. -/
structure Encounter where
  wiring : Wiring
  readiness : Readiness := {}
  now : Instant := .start

def Encounter.ofHost (items : List Arrival) : Encounter :=
  { wiring := { inbound := { arrivals := items } }, readiness := { inbound := true } }

def Encounter.ofBus (items : List Arrival) : Encounter :=
  { wiring := { bus := { arrivals := items } } }

/-- One step, whether or not it ends in a fault. -/
structure Move where
  before : Bridge
  met : Encounter
  outcome : Except Fault Outcome
  after : Bridge
  left : Wiring

/-- One step that did not end in a fault. -/
structure Pass where
  before : Bridge
  met : Encounter
  outcome : Outcome
  after : Bridge
  left : Wiring

namespace Pass

def busCalls (p : Pass) : List Call :=
  p.left.bus.callsSince p.met.wiring.bus

def inboundCalls (p : Pass) : List Call :=
  p.left.inbound.callsSince p.met.wiring.inbound

def outboundCalls (p : Pass) : List Call :=
  p.left.outbound.channel.callsSince p.met.wiring.outbound.channel

def toBus (p : Pass) : Bytes :=
  p.busCalls.flatMap Call.delivered

def toHost (p : Pass) : Bytes :=
  p.outboundCalls.flatMap Call.delivered

def fromBus (p : Pass) : Bytes :=
  p.busCalls.flatMap Call.received

def fromHost (p : Pass) : Bytes :=
  p.inboundCalls.flatMap Call.received

end Pass

def Encounter.scene (e : Encounter) (b : Bridge) (level : Bool) (line : Line) : Scene :=
  ⟨{ b with line := b.line.observe level }, { e.wiring with line }⟩

namespace Bridge

/-- A bridge that was started while the request line was low. -/
def atRest (transaction : Transaction) (timing : Timing := {}) : Bridge :=
  { transaction := transaction.reset, timing }

def move (b : Bridge) (e : Encounter) : Move :=
  let report := b.step e.wiring e.readiness e.now
  ⟨b, e, report.outcome, report.bridge, report.wiring⟩

def pass? (b : Bridge) (e : Encounter) : Option Pass :=
  let report := b.step e.wiring e.readiness e.now
  match report.outcome with
  | .ok outcome => some ⟨b, e, outcome, report.bridge, report.wiring⟩
  | .error _ => none

def passes (b : Bridge) : List Encounter → Option (List Pass)
  | [] => some []
  | e :: es => (b.pass? e).bind fun p => (p.after.passes es).map (p :: ·)

/-- Steps taken one after the other from a bridge, and the bridge that is left. -/
inductive Run (b : Bridge) : List Pass → Bridge → Prop
  | start : b.Run [] b
  | step {ps : List Pass} {b' : Bridge} {e : Encounter} {p : Pass} (hrun : b.Run ps b')
      (hpass : b'.pass? e = some p) : b.Run (ps ++ [p]) p.after

inductive Moves (b : Bridge) (e : Encounter) : Move → Prop
  | unsampled {error : IoError} {line : Line}
      (hsample : e.wiring.line.sample = (.error error, line)) :
      b.Moves e ⟨b, e, .error (.transport (.io error)), b, { e.wiring with line }⟩
  | done {level : Bool} {line : Line} {outcome : Outcome} {s : Scene}
      (hsample : e.wiring.line.sample = (.ok level, line))
      (hend : Turn.EndingOf e.readiness e.now (e.scene b level line) b.transaction.phase
        (.ok outcome s)) :
      b.Moves e ⟨b, e, .ok outcome, s.bridge, s.wiring⟩
  | aborted {level : Bool} {line : Line} {error : TransactionError} {s : Scene}
      (hsample : e.wiring.line.sample = (.ok level, line))
      (hend : Turn.EndingOf e.readiness e.now (e.scene b level line) b.transaction.phase
        (.error (.transaction error) s)) :
      b.Moves e ⟨b, e, .ok (.aborted error),
        { s.bridge with
          tally := s.bridge.tally.aborted error
          transaction := s.bridge.transaction.reset }, s.wiring⟩
  | failed {level : Bool} {line : Line} {fault : Fault} {s : Scene}
      (hsample : e.wiring.line.sample = (.ok level, line))
      (hend : Turn.EndingOf e.readiness e.now (e.scene b level line) b.transaction.phase
        (.error (.fault fault) s)) :
      b.Moves e ⟨b, e, .error fault, s.bridge, s.wiring⟩

theorem moves_move (b : Bridge) (e : Encounter) : b.Moves e (b.move e) := by
  unfold move step
  rcases hsample : e.wiring.line.sample with ⟨error | level, line⟩
  · exact .unsampled hsample
  have hscene : (⟨{ b with line := b.line.observe level }, { e.wiring with line }⟩ : Scene) =
      e.scene b level line := rfl
  have hend := Turn.ofPhase_ending e.readiness e.now b.transaction.phase (e.scene b level line)
  simp only [hscene]
  rcases hturn : Turn.ofPhase e.readiness e.now b.transaction.phase
    (e.scene b level line) with ⟨outcome, s⟩ | ⟨error | (error | _), s⟩ <;> rw [hturn] at hend
  · exact .done hsample hend
  · exact .aborted hsample hend
  · exact .failed hsample hend
  · exact .failed hsample hend

inductive Steps (b : Bridge) (e : Encounter) : Pass → Prop
  | done {level : Bool} {line : Line} {outcome : Outcome} {s : Scene}
      (hend : Turn.EndingOf e.readiness e.now (e.scene b level line) b.transaction.phase
        (.ok outcome s)) :
      b.Steps e ⟨b, e, outcome, s.bridge, s.wiring⟩
  | aborted {level : Bool} {line : Line} {error : TransactionError} {s : Scene}
      (hend : Turn.EndingOf e.readiness e.now (e.scene b level line) b.transaction.phase
        (.error (.transaction error) s)) :
      b.Steps e ⟨b, e, .aborted error,
        { s.bridge with
          tally := s.bridge.tally.aborted error
          transaction := s.bridge.transaction.reset }, s.wiring⟩

theorem move_of_pass? {b : Bridge} {e : Encounter} {p : Pass} (h : b.pass? e = some p) :
    b.move e = ⟨p.before, p.met, .ok p.outcome, p.after, p.left⟩ := by
  unfold pass? at h
  rcases houtcome : (b.step e.wiring e.readiness e.now).outcome with fault | outcome <;>
    simp only [houtcome, Option.some.injEq, reduceCtorEq] at h
  subst h
  rw [← houtcome]
  rfl

theorem steps_of_pass? {b : Bridge} {e : Encounter} {p : Pass} (h : b.pass? e = some p) :
    b.Steps e p := by
  have hmoves := moves_move b e
  rw [move_of_pass? h] at hmoves
  obtain ⟨before, met, outcome, after, left⟩ := p
  cases hmoves with
  | done hsample hend => exact .done hend
  | aborted hsample hend => exact .aborted hend

theorem pass?_of_turn {b : Bridge} {e : Encounter} {level : Bool} {line : Line}
    {outcome : Outcome} {s : Scene} (hsample : e.wiring.line.sample = (.ok level, line))
    (hturn : Turn.ofPhase e.readiness e.now b.transaction.phase (e.scene b level line) =
      .ok outcome s) :
    b.pass? e = some ⟨b, e, outcome, s.bridge, s.wiring⟩ := by
  have hscene : (⟨{ b with line := b.line.observe level }, { e.wiring with line }⟩ : Scene) =
      e.scene b level line := rfl
  simp only [pass?, step, hsample, hscene, hturn, reportOf]

theorem pass?_of_setback {b : Bridge} {e : Encounter} {level : Bool} {line : Line}
    {error : TransactionError} {s : Scene} (hsample : e.wiring.line.sample = (.ok level, line))
    (hturn : Turn.ofPhase e.readiness e.now b.transaction.phase (e.scene b level line) =
      .error (.transaction error) s) :
    b.pass? e = some ⟨b, e, .aborted error,
      { s.bridge with
        tally := s.bridge.tally.aborted error
        transaction := s.bridge.transaction.reset }, s.wiring⟩ := by
  have hscene : (⟨{ b with line := b.line.observe level }, { e.wiring with line }⟩ : Scene) =
      e.scene b level line := rfl
  simp only [pass?, step, hsample, hscene, hturn, reportOf]

theorem exists_turn_of_sample {b : Bridge} {e : Encounter} {level : Bool} {line : Line}
    {phase : Phase} (hsample : e.wiring.line.sample = (.ok level, line))
    (hphase : b.transaction.phase = phase) :
    ∃ r, Turn.EndingOf e.readiness e.now (e.scene b level line) phase r ∧
      (∀ {outcome s}, r = .ok outcome s →
        b.pass? e = some ⟨b, e, outcome, s.bridge, s.wiring⟩) ∧
      ∀ {error s}, r = .error (.transaction error) s →
        b.pass? e = some ⟨b, e, .aborted error,
          { s.bridge with
            tally := s.bridge.tally.aborted error
            transaction := s.bridge.transaction.reset }, s.wiring⟩ := by
  subst hphase
  exact ⟨_, Turn.ofPhase_ending e.readiness e.now _ _, pass?_of_turn hsample,
    pass?_of_setback hsample⟩

theorem exists_ending_of_sample {b : Bridge} {e : Encounter} {level : Bool} {line : Line}
    {phase : Phase} (hsample : e.wiring.line.sample = (.ok level, line))
    (hphase : b.transaction.phase = phase) :
    ∃ r, Turn.EndingOf e.readiness e.now (e.scene b level line) phase r ∧
      ∀ {outcome s}, r = .ok outcome s →
        b.pass? e = some ⟨b, e, outcome, s.bridge, s.wiring⟩ := by
  obtain ⟨r, hend, hdone, -⟩ := exists_turn_of_sample hsample hphase
  exact ⟨r, hend, hdone⟩

theorem before_of_pass? {b : Bridge} {e : Encounter} {p : Pass} (h : b.pass? e = some p) :
    p.before = b ∧ p.met = e := by
  cases steps_of_pass? h <;> exact ⟨rfl, rfl⟩

namespace Run

variable {b b' : Bridge} {ps : List Pass}

theorem invariant {I : Bridge → Prop} (hrun : b.Run ps b')
    (hstep : ∀ {c e p}, Bridge.pass? c e = some p → I c → I p.after) (h : I b) : I b' := by
  induction hrun with
  | start => exact h
  | step _ hpass ih => exact hstep hpass ih

theorem of_append_cons {front back : List Pass} {p : Pass}
    (hrun : b.Run (front ++ p :: back) b') :
    b.Run front p.before ∧ p.before.pass? p.met = some p := by
  generalize hps : front ++ p :: back = ps at hrun
  induction hrun generalizing back with
  | start => simp at hps
  | @step ps b' e q hrun hpass ih =>
    rcases List.eq_nil_or_concat back with rfl | ⟨back, last, rfl⟩
    · obtain ⟨rfl, hlast⟩ := List.append_inj' hps rfl
      obtain rfl : p = q := by simpa using hlast
      obtain ⟨rfl, rfl⟩ := before_of_pass? hpass
      exact ⟨hrun, hpass⟩
    · rw [List.concat_eq_append, ← List.cons_append, ← List.append_assoc] at hps
      exact ih (List.append_inj' hps rfl).1

theorem of_append {front back : List Pass} (hrun : b.Run (front ++ back) b') :
    ∃ c, b.Run front c := by
  cases back with
  | nil => exact ⟨b', by rwa [List.append_nil] at hrun⟩
  | cons p back => exact ⟨p.before, hrun.of_append_cons.1⟩

theorem of_mem (hrun : b.Run ps b') {p : Pass} (hp : p ∈ ps) :
    ∃ front, b.Run front p.before ∧ p.before.pass? p.met = some p := by
  obtain ⟨front, back, rfl⟩ := List.append_of_mem hp
  exact ⟨front, hrun.of_append_cons⟩

theorem append (hrun : b.Run ps b') {qs : List Pass} {b'' : Bridge} (hmore : b'.Run qs b'') :
    b.Run (ps ++ qs) b'' := by
  induction hmore with
  | start => simpa using hrun
  | step _ hpass ih => simpa using ih.step hpass

theorem of_passes {es : List Encounter} (h : b.passes es = some ps) :
    b.Run ps ((ps.map Pass.after).getLastD b) := by
  induction es generalizing b ps with
  | nil =>
    obtain rfl : [] = ps := Option.some.inj h
    exact .start
  | cons e es ih =>
    obtain ⟨p, hpass, hrest⟩ := Option.bind_eq_some_iff.1 h
    obtain ⟨qs, hqs, rfl⟩ := Option.map_eq_some_iff.1 hrest
    have hrun := (Run.start.step hpass).append (ih hqs)
    rwa [List.map_cons, List.getLastD_cons]

end Run

theorem phase_getLastD {b : Bridge} {ps : List Pass} :
    ((ps.map Pass.after).getLastD b).transaction.phase =
      (ps.map fun p => p.after.transaction.phase).getLastD b.transaction.phase := by
  rw [List.getLastD_eq_getLast?, List.getLastD_eq_getLast?, List.getLast?_map, List.getLast?_map]
  cases ps.getLast? <;> rfl

end Bridge

end SpiBridge
