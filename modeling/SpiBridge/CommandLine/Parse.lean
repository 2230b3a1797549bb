import SpiBridge.CommandLine.Number
import SpiBridge.CommandLine.Options
import SpiBridge.Text.Lines
import SpiBridge.Text.Plain
import SpiBridge.Time.Text
/-!
# Reading the command line

Arguments are handled from left to right, and the first that fails, or asks for
help or the version, decides.  A value in an argument of its own is looked at
when the next argument is handled.  Settings that the command line leaves open
may come from the environment.
-/

namespace SpiBridge.CommandLine

inductive Argument where
  | inboundPath
  | outboundPath
  | device
  | clock
  | line
  | debounce
  | foreground
  | answerTimeout
  | pollInterval
  | writeTimeout
  | logFormat
  | logLevel
  | help
  | version
  deriving DecidableEq, Repr

namespace Argument

def all : List Argument :=
  [inboundPath, outboundPath, device, clock, line, debounce, foreground, answerTimeout,
    pollInterval, writeTimeout, logFormat, logLevel, help, version]

def long : Argument → String
  | inboundPath => "ififo"
  | outboundPath => "ofifo"
  | device => "spidev"
  | clock => "spiclk"
  | line => "gpio"
  | debounce => "debounce"
  | foreground => "fg"
  | answerTimeout => "answer-timeout"
  | pollInterval => "poll-interval"
  | writeTimeout => "write-timeout"
  | logFormat => "log-format"
  | logLevel => "log-level"
  | help => "help"
  | version => "version"

def short? : Argument → Option Char
  | help => some 'h'
  | version => some 'V'
  | _ => none

def valueName? : Argument → Option String
  | inboundPath | outboundPath | device => some "PATH"
  | clock => some "HZ"
  | line => some "NUM"
  | answerTimeout | pollInterval | writeTimeout => some "DUR"
  | logFormat => some "FORMAT"
  | logLevel => some "LEVEL"
  | debounce | foreground | help | version => none

def environmentName? : Argument → Option String
  | inboundPath => some "DCPSPI_IFIFO"
  | outboundPath => some "DCPSPI_OFIFO"
  | device => some "DCPSPI_SPIDEV"
  | line => some "DCPSPI_GPIO"
  | _ => none

def shown (a : Argument) : String :=
  match a.valueName? with
  | some name => s!"--{a.long} <{name}>"
  | none => s!"--{a.long}"

end Argument

/-- Why reading the command line ended without settings. -/
inductive Refusal where
  | help
  | version
  | unknownArgument (text : String)
  | repeated (argument : Argument)
  | unwantedValue (argument : Argument) (value : String)
  | missingValue (argument : Argument)
  | unknownName (argument : Argument) (value : String)
  | badDuration (argument : Argument) (value : String) (error : DurationError)
  | badNumber (argument : Argument) (value : String) (error : NumberError)
  deriving DecidableEq, Repr

namespace Refusal

def isAnswer : Refusal → Bool
  | help | version => true
  | _ => false

def code (r : Refusal) : Nat :=
  if r.isAnswer then 0 else 1

def errorWord : String := "error:"

def helpOption : String := "--" ++ Argument.help.long

def failing (text : String) : String :=
  Text.styled ["1", "31"] text

def refused (text : String) : String :=
  Text.styled ["33"] text

def literal (text : String) : String :=
  Text.styled ["1"] text

def reason : Refusal → String
  | help | version => ""
  | unknownArgument arg => s!"unexpected argument '{refused arg}' found"
  | repeated a => s!"the argument '{refused a.shown}' cannot be used multiple times"
  | unwantedValue a value =>
    s!"unexpected value '{refused value}' for '{literal a.shown}' found; no more were expected"
  | missingValue a => s!"a value is required for '{refused a.shown}' but none was supplied"
  | unknownName a value => s!"invalid value '{refused value}' for '{literal a.shown}'"
  | badDuration a value e =>
    s!"invalid value '{refused value}' for '{literal a.shown}': {e.message}"
  | badNumber a value e =>
    s!"invalid value '{refused value}' for '{literal a.shown}': {e.message}"

def text : Refusal → String
  | help => about
  | version => s!"{programName} {CommandLine.version}"
  | r =>
    s!"{failing errorWord} {r.reason}\n\nFor more information, try '{literal helpOption}'.\n"

/-- The lines that the program prints, in styles or without.  A control sequence that a value
leaves open goes on until the next style. -/
def lines (r : Refusal) (inStyles : Bool) : List String :=
  Text.linesOf (if inStyles then r.text else Text.written r.text)

def message (r : Refusal) : String :=
  (Text.linesOf (Text.plain r.text)).headD ""

end Refusal

namespace Argument

def readPath (a : Argument) (value : String) : Except Refusal String :=
  if value = "" then .error (.missingValue a) else .ok value

def readDuration (a : Argument) (value : String) : Except Refusal Duration :=
  (Duration.parse value).mapError (.badDuration a value)

def readNumber (a : Argument) (value : String) : Except Refusal UInt32 :=
  (readWord32 value).mapError (.badNumber a value)

def readName {α : Type} (a : Argument) (value : String) (found : Option α) : Except Refusal α :=
  match found with
  | some choice => .ok choice
  | none => .error (if value = "" then .missingValue a else .unknownName a value)

def settle (a : Argument) (value : String) (o : Options) : Except Refusal Options :=
  match a with
  | inboundPath => do return { o with inboundPath := ← a.readPath value }
  | outboundPath => do return { o with outboundPath := ← a.readPath value }
  | device => .ok { o with device := value }
  | clock => do return { o with clock := ← a.readNumber value }
  | line => do return { o with line := ← a.readNumber value }
  | debounce => .ok { o with debounce := true }
  | foreground => .ok { o with foreground := true }
  | answerTimeout => do return { o with answerTimeout := ← a.readDuration value }
  | pollInterval => do return { o with pollInterval := ← a.readDuration value }
  | writeTimeout => do return { o with writeTimeout := ← a.readDuration value }
  | logFormat => do return { o with logFormat := ← a.readName value (LogFormat.ofName? value) }
  | logLevel => do return { o with logLevel := ← a.readName value (levelOfName? value false) }
  | help => .error .help
  | version => .error .version

end Argument

structure Reading where
  options : Options := {}
  given : List Argument := []
  waiting : Option (Argument × Option String) := none
  onlyOperands : Bool := false
  deriving DecidableEq

namespace Reading

def accept (r : Reading) (a : Argument) (value : String) : Except Refusal Reading :=
  if r.given.contains a then
    .error (.repeated a)
  else do
    return { r with options := ← a.settle value r.options, given := a :: r.given }

def settleWaiting (r : Reading) : Except Refusal Reading :=
  match r.waiting with
  | none => .ok r
  | some (a, none) => .error (.missingValue a)
  | some (a, some value) => { r with waiting := none }.accept a value

def cutAtEquals (text : List Char) : String × Option String :=
  match text.dropWhile (· ≠ '=') with
  | [] => (String.ofList text, none)
  | _ :: value => (String.ofList (text.takeWhile (· ≠ '=')), some (String.ofList value))

def readLong (r : Reading) (text : List Char) : Except Refusal Reading :=
  let (name, value?) := cutAtEquals text
  match Argument.all.find? (·.long == name) with
  | none => .error (.unknownArgument s!"--{name}")
  | some a =>
    if a.valueName?.isSome then do
      let r ← r.settleWaiting
      match value? with
      | some value => r.accept a value
      | none => return { r with waiting := some (a, none) }
    else match value? with
      | some value => .error (.unwantedValue a value)
      | none => do (← r.settleWaiting).accept a ""

def readShort (r : Reading) (first : Char) : Except Refusal Reading :=
  match Argument.all.find? (·.short? == some first) with
  | none => .error (.unknownArgument (String.ofList ['-', first]))
  | some a => do (← r.settleWaiting).accept a ""

/-- Reads an argument that is no option: the value of the one before, if that waits for it. -/
def readOperand (r : Reading) (arg : String) : Except Refusal Reading :=
  match r.waiting with
  | some (a, none) => .ok { r with waiting := some (a, some arg) }
  | _ => .error (.unknownArgument arg)

def read (r : Reading) (arg : String) : Except Refusal Reading :=
  if r.onlyOperands then
    .error (.unknownArgument arg)
  else match arg.toList with
    | ['-', '-'] => .ok { r with onlyOperands := true }
    | '-' :: '-' :: text => r.readLong text
    | '-' :: first :: _ => r.readShort first
    | _ => r.readOperand arg

def readVariable (environment : List (String × String)) (r : Reading) (a : Argument) :
    Except Refusal Reading :=
  match a.environmentName?.bind (List.lookup · environment) with
  | some value => if r.given.contains a then .ok r else r.accept a value
  | none => .ok r

end Reading

def parse (args : List String) (environment : List (String × String)) :
    Except Refusal Options := do
  let r ← args.foldlM Reading.read {}
  let r ← r.settleWaiting
  let r ← Argument.all.foldlM (Reading.readVariable environment) r
  return r.options

end SpiBridge.CommandLine
