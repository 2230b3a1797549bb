import SpiBridge.FileSystem.Calls
import SpiBridge.Channel.Transfer
/-!
# Named pipes

The host's two channels are named pipes.  The bridge makes a pipe that is
missing and takes one that is there; when it ends it removes a pipe whose name
still stands for the file that it opened.
-/

namespace SpiBridge

/-- Failures that the calls on the way to an open pipe meet for reasons of their own. -/
structure Mishaps where
  status : Option IoError := none
  makePipe : Option IoError := none
  setMode : Option IoError := none
  openFile : Option IoError := none
  identify : Option IoError := none
  deriving DecidableEq, Repr

structure NamedPipe where
  path : String
  file : FileId
  deriving DecidableEq, Repr

namespace NamedPipe

def defaultMode : Nat := 0o660

/-- A call that fails if its mishap comes, and then changes nothing. -/
def attempt {α : Type} (mishap : Option IoError) (fs : FileSystem)
    (call : Except IoError α × FileSystem) : Except IoError α × FileSystem :=
  match mishap with
  | some e => (.error e, fs)
  | none => call

/-- Makes a pipe with exactly the given mode, or leaves nothing behind. -/
def make (fs : FileSystem) (path : String) (mode umask : Nat) (m : Mishaps) :
    Except TransportError Unit × FileSystem :=
  match attempt m.makePipe fs (fs.makePipe path mode umask) with
  | (.error e, fs) => (.error (.createPipe path e), fs)
  | (.ok (), fs) =>
    match attempt m.setMode fs (fs.setMode path mode) with
    | (.ok (), fs) => (.ok (), fs)
    | (.error e, fs) => (.error (.createPipe path e), (fs.removeFile path).2)

def provide (fs : FileSystem) (path : String) (mode umask : Nat) (m : Mishaps) :
    Except TransportError Unit × FileSystem :=
  match (attempt m.status fs (fs.status path, fs)).1 with
  | .ok (_, .pipe _) => (.ok (), fs)
  | .ok _ => (.error (.notAPipe path), fs)
  | .error e =>
    if e.kind = .notFound then make fs path mode umask m
    else (.error (.createPipe path e), fs)

def openAt (fs : FileSystem) (path : String) (mode umask : Nat) (m : Mishaps) :
    Except TransportError NamedPipe × FileSystem :=
  match provide fs path mode umask m with
  | (.error e, fs) => (.error e, fs)
  | (.ok (), fs) =>
    match attempt m.openFile fs (fs.openFile path) with
    | (.error e, fs) => (.error (.openFile path e), fs)
    | (.ok file, fs) =>
      match m.identify with
      | some e => (.error (.openFile path e), fs.closeFile file)
      | none => (.ok ⟨path, file⟩, fs)

def isNamed (p : NamedPipe) (fs : FileSystem) : Bool :=
  match fs.status p.path with
  | .ok (id, .pipe _) => id == p.file
  | _ => false

/-- Closes the pipe, and removes it if its name still stands for it. -/
def close (p : NamedPipe) (fs : FileSystem) : FileSystem :=
  (if p.isNamed fs then (fs.removeFile p.path).2 else fs).closeFile p.file

def read (p : NamedPipe) (fs : FileSystem) (count : Nat) : Option Bytes × FileSystem :=
  fs.readPipe p.file count

def outlet (p : NamedPipe) (fs : FileSystem) : Outlet :=
  { writable := !((fs.pipe? p.file).getD {}).isFull }

def writeWithin (p : NamedPipe) (fs : FileSystem) (role : ChannelRole) (timeout : Duration)
    (bytes : Bytes) : Except Outlet.Failure Unit × FileSystem :=
  match (p.outlet fs).writeWithin role timeout bytes with
  | (result, outlet) =>
    let buffer := (fs.pipe? p.file).getD {}
    (result, fs.setPipe p.file (buffer.write outlet.channel.delivered))

/-- Another program opens the pipe's path, writes and closes; whether it could. -/
def hostWrite (fs : FileSystem) (path : String) (bytes : Bytes) : Bool × FileSystem :=
  match fs.find path true with
  | .ok (id, .file _) => (true, fs.writeAt id 0 bytes)
  | .ok (id, .pipe mode buffer holders) =>
    if holders = 0 || !FileSystem.permits (.pipe mode buffer holders) FileSystem.writeBit then
      (false, fs)
    else
      (true, fs.writeAt id 0 bytes)
  | _ => (false, fs)

end NamedPipe

end SpiBridge
