import SpiBridge.Bridge.Turn
/-!
# Steps

One step of the bridge samples the request line and takes the turn of the
present phase.  A transaction that must be given up leaves the bridge idle; a
channel that cannot be used any more ends the bridge.
-/

namespace SpiBridge

structure Report where
  outcome : Except Fault Outcome
  records : List Log.Record
  bridge : Bridge
  wiring : Wiring

namespace Bridge

def abortRecord (phase : Phase) (error : TransactionError) : Log.Record :=
  ⟨.warn, "transaction aborted", [("state", .text phase.name), ("error", .text error.message)]⟩

def failureRecord (phase : Phase) (error : TransportError) : Log.Record :=
  ⟨.error, "transport failure", [("state", .text phase.name), ("error", .text error.message)]⟩

def hostClosedRecord : Log.Record :=
  ⟨.info, "inbound host channel closed", []⟩

def reportOf (phase : Phase) : EStateM.Result Setback Scene Outcome → Report
  | .ok outcome s =>
    ⟨.ok outcome, if outcome = .stop then [hostClosedRecord] else [], s.bridge, s.wiring⟩
  | .error (.transaction e) s =>
    let bridge := { s.bridge with
      tally := s.bridge.tally.aborted e
      transaction := s.bridge.transaction.reset }
    ⟨.ok (.aborted e), [abortRecord phase e], bridge, s.wiring⟩
  | .error (.fault (.transport e)) s =>
    ⟨.error (.transport e), [failureRecord phase e], s.bridge, s.wiring⟩
  | .error (.fault .clockRange) s =>
    ⟨.error .clockRange, [], s.bridge, s.wiring⟩

def step (b : Bridge) (wiring : Wiring) (readiness : Readiness) (now : Instant) : Report :=
  match wiring.line.sample with
  | (.error e, line) => ⟨.error (.transport (.io e)), [], b, { wiring with line }⟩
  | (.ok level, line) =>
    let phase := b.transaction.phase
    reportOf phase
      (Turn.ofPhase readiness now phase
        ⟨{ b with line := b.line.observe level }, { wiring with line }⟩)

end Bridge

end SpiBridge
