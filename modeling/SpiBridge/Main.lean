import SpiBridge.Program
/-!
# The command line

The outer layer of the program: it hands over arguments, environment and bytes,
and writes what comes back.  The system calls at hand open and read files, but
they neither make a pipe nor steer a device.  So the two pipes must be there
already, and the slave's end can only be left out.
-/

namespace SpiBridge.Program

open CommandLine (Argument Options)

def notImplemented : IoError :=
  .ofSystem .other 38 "Function not implemented"

def ioErrorOf : IO.Error → IoError
  | .noFileOrDirectory _ number details => .ofSystem .notFound number.toNat details
  | .permissionDenied _ number details => .ofSystem .permissionDenied number.toNat details
  | .otherError number details | .inappropriateType _ number details
  | .resourceExhausted _ number details | .invalidArgument _ number details =>
    .ofSystem .other number.toNat details
  | e => ⟨.other, toString e⟩

def environment : IO (List (String × String)) :=
  (plainName :: styledName :: Argument.all.filterMap Argument.environmentName?).filterMapM
    fun name => do
      return (← IO.getEnv name).map (name, ·)

def openHandle (path : String) : IO (Except TransportError IO.FS.Handle) := do
  let place := (← IO.currentDir) / path
  match ← place.symlinkMetadata.toBaseIO with
  | .error (.noFileOrDirectory _ _ _) => return .error (.createPipe path notImplemented)
  | .error e => return .error (.createPipe path (ioErrorOf e))
  | .ok info =>
    unless info.type matches .other do return .error (.notAPipe path)
    match ← (IO.FS.Handle.mk place .readWrite).toBaseIO with
    | .ok handle => return .ok handle
    | .error e => return .error (.openFile path (ioErrorOf e))

def report (lines : List String) : IO Unit := do
  for line in lines do
    IO.eprintln line

def fail (o : Options) (exit : Exit) : IO UInt32 := do
  report (errorLines o [] (some exit.message))
  return exit.code.toUInt32

/-- One more byte for the bridge, once the host has written it. -/
def awaitByte (s : Service) (input : IO.FS.Handle) : IO Service := do
  if s.bridge.isBusy || s.wiring.inbound.readable then
    return s
  else
    let bytes ← input.read 1
    let inbound :=
      if bytes.isEmpty then { s.wiring.inbound with drained := .ended }
      else s.wiring.inbound.stream bytes.toList
    return { s with wiring.inbound := inbound }

def clock : IO Instant := do
  return (Instant.start.after? (.ofNanos (← IO.monoNanosNow))).getD .start

partial def work (o : Options) (s : Service) (input output : IO.FS.Handle) : IO UInt32 := do
  let planned ← clock
  let s ← awaitByte { s with wiring := s.wiring.unlogged, journal := [] } input
  let found : Readiness := { inbound := s.wiring.inbound.readable }
  let (outcome, s) := s.pass
    { wiring := s.wiring, planned, polled := .ok found, now := ← clock }
  report (errorLines o s.journal none)
  output.write ⟨s.wiring.outbound.channel.delivered.toArray⟩
  output.flush
  match outcome with
  | .error f => fail o (.ofFault "event loop failed" f)
  | .ok .stop =>
    report (errorLines o [Service.stoppedRecord .hostClosed s.bridge.tally, terminatedRecord] none)
    return 0
  | .ok _ => work o s input output

def launch (o : Options) : IO UInt32 := do
  report (errorLines o [startingRecord] none)
  let directory := toString (← IO.currentDir)
  let inboundPath := FileSystem.absolutePath directory o.inboundPath
  let outboundPath := FileSystem.absolutePath directory o.outboundPath
  match ← openHandle inboundPath with
  | .error e => fail o (.ofTransport "cannot open inbound pipe" e)
  | .ok input =>
    match ← openHandle outboundPath with
    | .error e => fail o (.ofTransport "cannot open outbound pipe" e)
    | .ok output =>
      unless o.isDummy do
        return ← fail o
          (.ofTransport "cannot open SPI device" (.openFile o.device notImplemented))
      report (errorLines o
        [pipeRecord inboundPath, pipeRecord outboundPath, dummyRecord,
          Service.acceptingRecord] none)
      let wiring : Wiring := { inbound := { drained := .blocks } }
      let transaction := Transaction.ofRooms Transaction.frameRoom Transaction.wireRoom
      match Bridge.start transaction (timing o) wiring with
      | (.error f, _) => fail o (.ofFault "cannot start transaction engine" f)
      | (.ok bridge, wiring) => work o { bridge, wiring } input output

end SpiBridge.Program

def main (args : List String) : IO UInt32 := do
  let environment ← SpiBridge.Program.environment
  match SpiBridge.CommandLine.parse args environment with
  | .error r =>
    let (answers, errors) := SpiBridge.Program.refusalLines environment r
    for line in answers do
      IO.println line
    SpiBridge.Program.report errors
    return r.code.toUInt32
  | .ok o => SpiBridge.Program.launch o
