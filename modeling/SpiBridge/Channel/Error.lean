import SpiBridge.Time
/-!
# Input and output errors

What the system reports when a call fails, and what the bridge makes of it: an
error names the file or the channel that it concerns.
-/

namespace SpiBridge

inductive IoKind where
  | interrupted
  | wouldBlock
  | brokenPipe
  | connectionReset
  | notConnected
  | permissionDenied
  | invalidInput
  | invalidData
  | timedOut
  | writeZero
  | unexpectedEof
  | notFound
  | notADirectory
  | isADirectory
  | alreadyExists
  | invalidFilename
  | other
  deriving DecidableEq, Repr

structure IoError where
  kind : IoKind
  text : String
  deriving DecidableEq, Repr

namespace IoError

def ofSystem (kind : IoKind) (number : Nat) (description : String) : IoError :=
  ⟨kind, s!"{description} (os error {number})"⟩

def noEntry : IoError :=
  ofSystem .notFound 2 "No such file or directory"

def permissionDenied : IoError :=
  ofSystem .permissionDenied 13 "Permission denied"

def busy : IoError :=
  ofSystem .other 16 "Device or resource busy"

def alreadyExists : IoError :=
  ofSystem .alreadyExists 17 "File exists"

def notADirectory : IoError :=
  ofSystem .notADirectory 20 "Not a directory"

def isADirectory : IoError :=
  ofSystem .isADirectory 21 "Is a directory"

def invalidArgument : IoError :=
  ofSystem .invalidInput 22 "Invalid argument"

def notADevice : IoError :=
  ofSystem .other 25 "Inappropriate ioctl for device"

def brokenPipe : IoError :=
  ofSystem .brokenPipe 32 "Broken pipe"

def nameTooLong : IoError :=
  ofSystem .invalidFilename 36 "File name too long"

def directoryNotEmpty : IoError :=
  ofSystem .other 39 "Directory not empty"

def tooManyLinks : IoError :=
  ofSystem .other 40 "Too many levels of symbolic links"

def nulInPath : IoError :=
  ⟨.invalidInput, "file name contained an unexpected NUL byte"⟩

def blocked : IoError :=
  ofSystem .wouldBlock 11 "Resource temporarily unavailable"

def emptyLevel : IoError :=
  ⟨.unexpectedEof, "empty GPIO value"⟩

end IoError

inductive ChannelRole where
  | serialBus
  | inbound
  | outbound
  deriving DecidableEq, Repr

def ChannelRole.name : ChannelRole → String
  | .serialBus => "serial bus"
  | .inbound => "inbound host channel"
  | .outbound => "outbound host channel"

/-- Why a device or a channel cannot be used any more. -/
inductive TransportError where
  | createPipe (path : String) (source : IoError)
  | notAPipe (path : String)
  | openFile (path : String) (source : IoError)
  | configure (path : String) (source : IoError)
  | io (source : IoError)
  | writeTimeout (role : ChannelRole) (timeout : Duration)
  | closed (role : ChannelRole)
  deriving DecidableEq

namespace TransportError

def message : TransportError → String
  | createPipe path source => s!"failed to create named pipe {path}: {source.text}"
  | notAPipe path => s!"{path} exists and is not a named pipe"
  | openFile path source => s!"failed to open {path}: {source.text}"
  | configure path source => s!"failed to configure {path}: {source.text}"
  | io source => s!"transport I/O error: {source.text}"
  | writeTimeout role timeout => s!"{role.name} not writable within {timeout.text}"
  | closed role => s!"{role.name} closed"

end TransportError

end SpiBridge
