import SpiBridge.Bridge.Basic
/-!
# Waits

Between two steps the bridge waits for the request line and the host, unless the
next step has something to do in any case.  A wait ends at the deadline of the
transaction and at the interval between two looks at the shutdown request.
-/

namespace SpiBridge

inductive Wait where
  | immediate
  | poll (line : Bool) (timeout : Duration)
  deriving DecidableEq

namespace Bridge

/-- The next step has something to do, whatever a wait would find. -/
def isBusy (b : Bridge) : Bool :=
  b.transaction.phase.isBusDriven || (b.transaction.phase == .idle && b.line.pending)

def waitTime (b : Bridge) (now : Instant) : Duration :=
  match b.transaction.deadline with
  | none => b.timing.poll
  | some deadline => b.timing.poll.shorter (now.untilTime deadline)

def wait (b : Bridge) (line : Line) (now : Instant) : Wait :=
  if b.isBusy then .immediate else .poll line.hasHandle (b.waitTime now)

end Bridge

end SpiBridge
