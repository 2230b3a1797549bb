import SpiBridge.Bridge.Service
import SpiBridge.CommandLine.Parse
import SpiBridge.Device.NamedPipe
import SpiBridge.Device.Pin
import SpiBridge.Device.SpiDevice
import SpiBridge.Exit
import SpiBridge.Log.Json
import SpiBridge.Text.Quoted
/-!
# The program

The program opens the host's two pipes and its devices, serves until it is asked
to stop or something fails, and gives everything back.  Whatever fails on the
way, the pipes that were opened are closed again.
-/

namespace SpiBridge

inductive Equipment where
  | dummy
  | spi (device : SpiDevice) (pin : Pin)
  deriving DecidableEq, Repr

def Equipment.label : Equipment → String
  | dummy => "dummy"
  | spi _ _ => SpiDevice.label

structure Setup where
  inbound : NamedPipe
  outbound : NamedPipe
  equipment : Equipment
  deriving DecidableEq, Repr

structure Opening (α : Type) where
  result : Except Exit α
  files : FileSystem
  records : List Log.Record := []

structure Ending where
  code : Nat
  failure : Option String := none
  records : List Log.Record := []
  files : FileSystem

namespace Program

open CommandLine (Options Refusal)

def umask : Nat := 0o022

def startingRecord : Log.Record :=
  ⟨.info, CommandLine.programName ++ " starting",
    [("version", .text (Text.quote CommandLine.version)), ("os", .text (Text.quote "linux")),
     ("arch", .text (Text.quote "x86_64"))]⟩

def pipeRecord (path : String) : Log.Record :=
  ⟨.info, "opened named pipe", [("path", .text (Text.quote path))]⟩

def dummyRecord : Log.Record :=
  ⟨.info, "no SPI device, running in dummy mode", []⟩

def deviceRecord (path : String) : Log.Record :=
  ⟨.info, "opened SPI device", [("path", .text (Text.quote path))]⟩

def clockRecord (path : String) (hertz : UInt32) : Log.Record :=
  ⟨.info, "set SPI clock", [("path", .text (Text.quote path)), ("hz", .number hertz.toNat)]⟩

def lineRecord (number : UInt32) : Log.Record :=
  ⟨.info, "opened request line", [("gpio", .number number.toNat)]⟩

def terminatedRecord : Log.Record :=
  ⟨.info, "Terminated, shutting down", []⟩

def openPipe (fs : FileSystem) (path context : String) : Opening NamedPipe :=
  match NamedPipe.openAt fs path NamedPipe.defaultMode umask {} with
  | (.ok pipe, fs) => ⟨.ok pipe, fs, [pipeRecord path]⟩
  | (.error e, fs) => ⟨.error (.ofTransport context e), fs, []⟩

def openLine (o : Options) (fs : FileSystem) (device : SpiDevice) : Opening Equipment :=
  match Pin.openIn fs Pin.systemRoot o.line with
  | (.error e, fs) =>
    ⟨.error (.ofTransport "cannot set up request line" e), device.close fs, []⟩
  | (.ok pin, fs) =>
    ⟨.ok (.spi device { pin with debounce := o.debounce }), fs, [lineRecord o.line]⟩

def openEquipment (o : Options) (fs : FileSystem) : Opening Equipment :=
  if o.isDummy then ⟨.ok .dummy, fs, [dummyRecord]⟩
  else match SpiDevice.openAt fs o.device with
    | (.error e, fs) => ⟨.error (.ofTransport "cannot open SPI device" e), fs, []⟩
    | (.ok device, fs) =>
      match device.setClock o.clock with
      | .error e =>
        ⟨.error (.ofTransport "cannot set SPI clock" e), device.close fs,
          [deviceRecord o.device]⟩
      | .ok () =>
        let opening := openLine o fs device
        let clocked := if o.clock = 0 then [] else [clockRecord o.device o.clock]
        { opening with records := [deviceRecord o.device] ++ clocked ++ opening.records }

/-- Opens everything; `directory` is where relative pipe paths start. -/
def setUp (o : Options) (directory : String) (fs : FileSystem) : Opening Setup :=
  let first := openPipe fs (FileSystem.absolutePath directory o.inboundPath)
    "cannot open inbound pipe"
  match first.result with
  | .error exit => ⟨.error exit, first.files, startingRecord :: first.records⟩
  | .ok inbound =>
    let second := openPipe first.files (FileSystem.absolutePath directory o.outboundPath)
      "cannot open outbound pipe"
    let records := startingRecord :: (first.records ++ second.records)
    match second.result with
    | .error exit => ⟨.error exit, inbound.close second.files, records⟩
    | .ok outbound =>
      let third := openEquipment o second.files
      let records := records ++ third.records
      match third.result with
      | .error exit => ⟨.error exit, inbound.close (outbound.close third.files), records⟩
      | .ok equipment => ⟨.ok ⟨inbound, outbound, equipment⟩, third.files, records⟩

def takeDown (s : Setup) (fs : FileSystem) : FileSystem :=
  let fs := match s.equipment with
    | .dummy => fs
    | .spi device pin => pin.close (device.close fs)
  s.outbound.close (s.inbound.close fs)

def timing (o : Options) : Timing :=
  ⟨o.answerTimeout, o.pollInterval, o.writeTimeout⟩

def dummyWiring (s : Setup) (fs : FileSystem) : Wiring :=
  { inbound := Channel.stream { drained := .blocks } ((fs.pipe? s.inbound.file).getD {}).waiting
    outbound := s.outbound.outlet fs }

/-- Serves until the end of the work, `passes` passes at most, and gives everything back. -/
def serve (o : Options) (s : Setup) (fs : FileSystem) (wiring : Wiring)
    (around : Surroundings) (passes : Nat) : Ending :=
  let files := takeDown s fs
  let transaction := Transaction.ofRooms Transaction.frameRoom Transaction.wireRoom
  match Bridge.start transaction (timing o) wiring with
  | (.error f, _) =>
    let exit := Exit.ofFault "cannot start transaction engine" f
    { code := exit.code, failure := some exit.message, files }
  | (.ok bridge, wiring) =>
    let (ending, service) := Service.run { bridge, wiring } around passes
    let records := service.journal ++ [terminatedRecord]
    match ending with
    | some (.error f) =>
      let exit := Exit.ofFault "event loop failed" f
      { code := exit.code, failure := some exit.message, records, files }
    | _ => { code := 0, records, files }

def logLines (o : Options) (records : List Log.Record) : List String :=
  (records.filter fun r => o.logLevel.admits r.level).map fun r =>
    match o.logFormat with
    | .text => r.line
    | .json => r.json

def failureLines (message : String) : List String :=
  Text.linesOf (CommandLine.Refusal.errorWord ++ " " ++ message ++ "\n")

def errorLines (o : Options) (records : List Log.Record) (failure : Option String) :
    List String :=
  (if o.foreground then logLines o records else []) ++ (failure.map failureLines).getD []

def plainName : String := "NO_COLOR"

def styledName : String := "CLICOLOR_FORCE"

/-- A stream that is no terminal takes styles only on demand; a variable without a text asks
for nothing. -/
def wantsStyles (environment : List (String × String)) : Bool :=
  let asks (name : String) := (List.lookup name environment).getD "" ≠ ""
  asks styledName && !asks plainName

def refusalLines (environment : List (String × String)) (r : Refusal) :
    List String × List String :=
  if r.isAnswer then ([r.message], []) else ([], r.lines (wantsStyles environment))

end Program

end SpiBridge
