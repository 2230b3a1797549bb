import SpiBridge.Bridge.Step
import SpiBridge.Bridge.Wait
/-!
# Service

A bridge at work waits, steps, and waits again, until it is asked to shut down,
the host leaves, or a channel or a wait fails.  Its surroundings have a free hand:
from one pass to the next they may change the wiring in any way, the clock may show
anything, and a wait may be over at any time and find any of the watched ends ready.
-/

namespace SpiBridge

inductive StopReason where
  | shutdown
  | hostClosed
  deriving DecidableEq, Repr

def StopReason.name : StopReason → String
  | shutdown => "Shutdown"
  | hostClosed => "HostClosed"

/-- What a bridge at work meets in one pass: a wait, if it has to wait, and a step. -/
structure Occasion where
  shutdown : Bool := false
  wiring : Wiring
  planned : Instant := .start
  polled : Except IoError Readiness := .ok {}
  now : Instant := .start

/-- What the step is told: nothing without a wait, and nothing of an end that is not watched. -/
def Occasion.found (o : Occasion) (b : Bridge) : Except IoError Readiness :=
  match b.wait o.wiring.line o.planned with
  | .immediate => .ok {}
  | .poll watched _ =>
    o.polled.map fun found => { found with requestLine := watched && found.requestLine }

/-- A bridge at work, with the wiring and the clock of its last step and the records logged. -/
structure Service where
  bridge : Bridge
  wiring : Wiring
  now : Instant := .start
  journal : List Log.Record := []

/-- What each pass of a bridge at work meets, given its number and what was left before it. -/
abbrev Surroundings := Nat → Service → Occasion

namespace Service

def acceptingRecord : Log.Record :=
  ⟨.info, "Accepting traffic", []⟩

def stoppedRecord (reason : StopReason) (tally : Tally) : Log.Record :=
  ⟨.info, "event loop stopped",
    [("reason", .text reason.name), ("slave", .number tally.slave),
     ("master", .number tally.master), ("framing_errors", .number tally.framingErrors),
     ("timeouts", .number tally.timeouts)]⟩

def noted (s : Service) (record : Log.Record) : Service :=
  { s with journal := s.journal ++ [record] }

def pass (s : Service) (o : Occasion) : Except Fault Outcome × Service :=
  match o.found s.bridge with
  | .error e => (.error (.transport (.io e)), { s with wiring := o.wiring, now := o.planned })
  | .ok found =>
    let report := s.bridge.step o.wiring found o.now
    (report.outcome,
      { bridge := report.bridge, wiring := report.wiring, now := o.now,
        journal := s.journal ++ report.records })

/-- Passes up to the end of the work, from the `n`-th on and `passes` of them at most. -/
def serve (s : Service) (around : Surroundings) (n : Nat) :
    Nat → Option (Except Fault StopReason) × Service
  | 0 => (none, s)
  | passes + 1 =>
    if (around n s).shutdown then
      (some (.ok .shutdown), s.noted (stoppedRecord .shutdown s.bridge.tally))
    else
      match s.pass (around n s) with
      | (.error f, s) => (some (.error f), s)
      | (.ok .stop, s) =>
        (some (.ok .hostClosed), s.noted (stoppedRecord .hostClosed s.bridge.tally))
      | (.ok _, s) => s.serve around (n + 1) passes

def run (s : Service) (around : Surroundings) (passes : Nat) :
    Option (Except Fault StopReason) × Service :=
  (s.noted acceptingRecord).serve around 0 passes

end Service

end SpiBridge
