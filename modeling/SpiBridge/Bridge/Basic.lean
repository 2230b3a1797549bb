import SpiBridge.Bridge.Transaction
import SpiBridge.Line
import SpiBridge.Channel.Transfer
/-!
# The bridge

The bridge's own state: the running transaction, the serial numbers, what it
knows of the request line, its timing and its counts.  The channels belong to its
surroundings and are kept apart, as its wiring.
-/

namespace SpiBridge

structure Timing where
  answer : Duration := .ofMillis 1000
  poll : Duration := .ofMillis 100
  write : Duration := .ofMillis 1000
  deriving DecidableEq

structure Tally where
  slave : Nat := 0
  master : Nat := 0
  framingErrors : Nat := 0
  timeouts : Nat := 0
  deriving DecidableEq, Repr

namespace Tally

def completed (t : Tally) : Sync.Origin → Tally
  | .slave => { t with slave := t.slave + 1 }
  | .master => { t with master := t.master + 1 }

def aborted (t : Tally) : TransactionError → Tally
  | .framing _ => { t with framingErrors := t.framingErrors + 1 }
  | .timeout _ => { t with timeouts := t.timeouts + 1 }

end Tally

/-- What the bridge knows of the request line. -/
structure LineMemory where
  previous : Bool := false
  pending : Bool := false
  deriving DecidableEq, Repr

/-- A level that rose since the last sample makes a request pending. -/
def LineMemory.observe (m : LineMemory) (level : Bool) : LineMemory :=
  ⟨level, m.pending || (level && !m.previous)⟩

structure Bridge where
  transaction : Transaction
  serials : Sync.Serials := {}
  line : LineMemory := {}
  timing : Timing := {}
  tally : Tally := {}
  deriving DecidableEq

/-- What the bridge is connected to: the request line and three channels. -/
structure Wiring where
  line : Line := {}
  bus : Channel := {}
  inbound : Channel := {}
  outbound : Outlet := {}

def Wiring.unlogged (p : Wiring) : Wiring :=
  { p with
    bus := p.bus.unlogged
    inbound := p.inbound.unlogged
    outbound.channel := p.outbound.channel.unlogged }

structure Readiness where
  /-- The request line; a step samples the line whatever the wait found. -/
  requestLine : Bool := false
  inbound : Bool := false
  deriving DecidableEq, Repr

inductive Outcome where
  | continues
  | completed (origin : Sync.Origin)
  | aborted (error : TransactionError)
  | stop
  deriving DecidableEq

inductive Fault where
  | transport (error : TransportError)
  | clockRange
  deriving DecidableEq

def Fault.message : Fault → String
  | transport error => s!"transport error: {error.message}"
  | clockRange => "overflow when adding duration to instant"

structure Scene where
  bridge : Bridge
  wiring : Wiring

namespace Bridge

/-- A bridge at rest: it samples the request line once, so that a level that is high
from the start is no request. -/
def start (transaction : Transaction) (timing : Timing) (wiring : Wiring) :
    Except Fault Bridge × Wiring :=
  match wiring.line.sample with
  | (.error e, line) => (.error (.transport (.io e)), { wiring with line })
  | (.ok level, line) =>
    (.ok { transaction := transaction.reset, line := ⟨level, false⟩, timing },
      { wiring with line })

end Bridge

end SpiBridge
