import SpiBridge.Log.Record
import SpiBridge.Time
/-!
# Options

What the command line decides, and what holds where it says nothing.
-/

namespace SpiBridge.CommandLine

inductive LogFormat where
  | text
  | json
  deriving DecidableEq, Repr

def LogFormat.name : LogFormat → String
  | text => "text"
  | json => "json"

def LogFormat.ofName? (name : String) : Option LogFormat :=
  [LogFormat.text, .json].find? (·.name == name)

def logLevels : List Log.Level := [.error, .warn, .info, .debug, .trace]

def levelName : Log.Level → String
  | .error => "error"
  | .warn => "warn"
  | .info => "info"
  | .debug => "debug"
  | .trace => "trace"

def foldCase (name : String) : String :=
  String.ofList (name.toList.map Char.toLower)

def levelOfName? (name : String) (ignoreCase : Bool) : Option Log.Level :=
  logLevels.find? fun level =>
    levelName level == if ignoreCase then foldCase name else name

def programName : String := "dcpspi"

def version : String := "0.3.0"

def about : String := "Bridge DCP command frames between named pipes and an SPI slave"

/-- The name in the place of a device that asks for none. -/
def noDevice : String := "-"

structure Options where
  inboundPath : String := "/tmp/dcp_to_spi"
  outboundPath : String := "/tmp/spi_to_dcp"
  device : String := "/dev/spidev0.0"
  clock : UInt32 := 0
  line : UInt32 := 4
  debounce : Bool := false
  foreground : Bool := false
  answerTimeout : Duration := .ofMillis 1000
  pollInterval : Duration := .ofMillis 100
  writeTimeout : Duration := .ofMillis 1000
  logFormat : LogFormat := .text
  logLevel : Log.Level := .info
  deriving DecidableEq

def Options.isDummy (o : Options) : Bool :=
  o.device == noDevice

end SpiBridge.CommandLine
