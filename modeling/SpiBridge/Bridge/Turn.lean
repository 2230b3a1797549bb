import SpiBridge.Bridge.Intake
import SpiBridge.Log.Record
import SpiBridge.Sync.Frame
/-!
# Turns

What the bridge does in each phase.  A turn changes the bridge and its wiring; it
gives an outcome, or it fails, either because the transaction must be given up
or because a channel cannot be used any more.
-/

namespace SpiBridge

inductive Setback where
  | transaction (error : TransactionError)
  | fault (fault : Fault)
  deriving DecidableEq

/-- An action on a bridge and its wiring; what was done before a failure stays done. -/
abbrev Turn := EStateM Setback Scene

namespace Turn

def ofFraming {α : Type} : Except FramingError α → Turn α
  | .ok a => pure a
  | .error e => throw (.transaction (.framing e))

def ofTransport {α : Type} : Except TransportError α → Turn α
  | .ok a => pure a
  | .error e => throw (.fault (.transport e))

def alter (f : Transaction → Transaction) : Turn Unit :=
  modify fun s => { s with bridge.transaction := f s.bridge.transaction }

def transaction : Turn Transaction := do
  return (← get).bridge.transaction

def finish (origin : Sync.Origin) : Turn Outcome := do
  modify fun s =>
    { s with
      bridge.tally := s.bridge.tally.completed origin
      bridge.transaction := s.bridge.transaction.reset }
  return .completed origin

def fillFromBus (target : Nat) : Turn Unit := do
  let s ← get
  let t := s.bridge.transaction
  match (Intake.mk t.frame t.wire t.decoder s.wiring.bus).fill target with
  | (result, i) =>
    set { s with
      bridge.transaction := { t with frame := i.frame, wire := i.wire, decoder := i.decoder }
      wiring.bus := i.bus : Scene }
    match result with
    | .ok () => return ()
    | .error (.framing e) => throw (.transaction (.framing e))
    | .error (.transport e) => throw (.fault (.transport e))

def readInbound (target : Nat) : Turn (Option Nat) := do
  let s ← get
  let frame := s.bridge.transaction.frame
  let missing := target - frame.length
  let _ ← ofFraming (frame.lend missing)
  match s.wiring.inbound.readSome missing with
  | (result, inbound) =>
    set { s with wiring.inbound := inbound : Scene }
    match ← ofTransport result with
    | none => return none
    | some bytes =>
      alter fun t => { t with frame := t.frame.receive bytes }
      return some bytes.length

def forwardToHost : Turn Unit := do
  let s ← get
  match s.wiring.outbound.writeWithin .outbound s.bridge.timing.write
      s.bridge.transaction.frame.filled with
  | (result, outbound) =>
    set { s with wiring.outbound := outbound : Scene }
    match result with
    | .ok () => return ()
    | .error (.transport e) => throw (.fault (.transport e))
    | .error .clockRange => throw (.fault .clockRange)

def sendToBus (origin : Sync.Origin) : Turn Outcome := do
  let s ← get
  let t := s.bridge.transaction
  let raw := t.frame.filled
  let (header, serials) ← ofFraming (Sync.Header.next s.bridge.serials origin raw.length)
  match t.wire.reset.appendSync header raw with
  | (built, wire) =>
    set { s with bridge.serials := serials, bridge.transaction := { t with wire } : Scene }
    ofFraming built
    match s.wiring.bus.writeFully .serialBus wire.filled with
    | (sent, bus) =>
      modify fun s => { s with wiring.bus := bus }
      ofTransport sent
      finish origin

/-- Idle: a pending request of the slave goes before a command of the host. -/
def startTransaction (readiness : Readiness) : Turn Outcome := do
  if (← get).bridge.line.pending then
    modify fun s => { s with bridge.line.pending := false }
    alter (·.start .slave)
  else if readiness.inbound then
    alter (·.start .master)
  return .continues

def readSlaveHeader (now : Instant) : Turn Outcome := do
  fillFromBus Command.Header.size
  let header ← ofFraming (Command.Header.parse (← transaction).frame.filled)
  if header.command.isWrite then
    if 0 < header.followingLength then
      alter fun t => { t with phase := .slavePayload }
      return .continues
    else
      forwardToHost
      finish .slave
  else
    forwardToHost
    alter fun t => { t with request := some header, frame := t.frame.reset }
    match now.after? (← get).bridge.timing.answer with
    | none => throw (.fault .clockRange)
    | some deadline =>
      alter fun t =>
        { t with deadline := some deadline, phase := .slaveAwaitingHostAnswer }
      return .continues

def readSlavePayload : Turn Outcome := do
  let header ← ofFraming (Command.Header.parse (← transaction).frame.filled)
  fillFromBus header.frameLength
  forwardToHost
  finish .slave

def readAnswer : Turn Bool := do
  let target := match ← ofFraming (← transaction).header? with
    | some header => header.frameLength
    | none => Command.Header.size
  match ← readInbound target with
  | none => return false
  | some 0 => throw (.fault (.transport (.closed .inbound)))
  | some _ =>
    match ← ofFraming (← transaction).header? with
    | none => return false
    | some header => return (← transaction).frame.length == header.frameLength

/-- The host's answer; a complete answer counts even at the deadline. -/
def awaitHostAnswer (readiness : Readiness) (now : Instant) : Turn Outcome := do
  let complete ← if readiness.inbound then readAnswer else pure false
  if complete then
    alter fun t => { t with deadline := none, phase := .slaveAnswerToBus }
    return .continues
  else
    let s ← get
    match s.bridge.transaction.deadline with
    | none => return .continues
    | some deadline =>
      if deadline.reachedBy now then
        throw (.transaction (.timeout s.bridge.timing.answer))
      else
        return .continues

def readMasterHeader (readiness : Readiness) : Turn Outcome := do
  if !readiness.inbound then
    return .continues
  else
    match ← readInbound Command.Header.size with
    | none => return .continues
    | some 0 =>
      if (← transaction).frame.isEmpty then
        alter (·.reset)
        return .stop
      else
        throw (.fault (.transport (.closed .inbound)))
    | some _ =>
      match ← ofFraming (← transaction).header? with
      | none => return .continues
      | some header =>
        if header.command.isRead then
          throw (.transaction (.framing (.unexpectedCommand header.command)))
        else
          alter fun t =>
            { t with phase := if 0 < header.followingLength then .masterPayload else .masterToBus }
          return .continues

def readMasterPayload (readiness : Readiness) : Turn Outcome := do
  if !readiness.inbound then
    return .continues
  else
    let header ← ofFraming (Command.Header.parse (← transaction).frame.filled)
    match ← readInbound header.frameLength with
    | none => return .continues
    | some 0 => throw (.fault (.transport (.closed .inbound)))
    | some _ =>
      if (← transaction).frame.length = header.frameLength then
        alter fun t => { t with phase := .masterToBus }
      return .continues

def ofPhase (readiness : Readiness) (now : Instant) : Phase → Turn Outcome
  | .idle => startTransaction readiness
  | .slaveHeader => readSlaveHeader now
  | .slavePayload => readSlavePayload
  | .slaveAwaitingHostAnswer => awaitHostAnswer readiness now
  | .slaveAnswerToBus => sendToBus .slave
  | .masterHeader => readMasterHeader readiness
  | .masterPayload => readMasterPayload readiness
  | .masterToBus => sendToBus .master

end Turn

end SpiBridge
