import SpiBridge.FileSystem.Basic
/-!
# System calls on files

Making, naming, reading and writing files.  A call that fails changes nothing.
The caller owns all files, and only the mode of a pipe may keep it out.
-/

namespace SpiBridge.FileSystem

def modeBits : Nat := 4096

def readBit : Nat := 0o400

def writeBit : Nat := 0o200

def permits (node : Node) (bits : Nat) : Bool :=
  match node with
  | .pipe mode _ _ => mode &&& bits == bits
  | _ => true

def makeEntry (fs : FileSystem) (path : String) (node : FileId → Node) :
    Except IoError Unit × FileSystem :=
  match fs.locate path .entry with
  | .error e => (.error e, fs)
  | .ok (.existing _ _ _) => (.error .alreadyExists, fs)
  | .ok (.absent dir name slash) =>
    if slash && !(node dir).isDirectory then (.error .noEntry, fs)
    else (.ok (), (fs.create dir name (node dir)).2)

/-- The kind of file that a mode asks for is a named pipe, or left open. -/
def asksForPipe (mode : Nat) : Bool :=
  mode / modeBits % 16 ≤ 1

/-- Makes a named pipe; the mask takes permissions away. -/
def makePipe (fs : FileSystem) (path : String) (mode umask : Nat) :
    Except IoError Unit × FileSystem :=
  if asksForPipe mode then
    let mode := mode % modeBits
    fs.makeEntry path fun _ => .pipe (mode - (mode &&& umask)) {} 0
  else
    (.error .invalidArgument, fs)

def makeLink (fs : FileSystem) (path target : String) : Except IoError Unit × FileSystem :=
  if target.toList.contains '\x00' then (.error .nulInPath, fs)
  else if target = "" then (.error .noEntry, fs)
  else if maxPath ≤ target.utf8ByteSize then (.error .nameTooLong, fs)
  else fs.makeEntry path fun _ => .link target

def makeDirectory (fs : FileSystem) (path : String) : Except IoError Unit × FileSystem :=
  fs.makeEntry path (.directory · [])

def isDirectory (fs : FileSystem) (path : String) : Bool :=
  match fs.find path true with
  | .ok (_, node) => node.isDirectory
  | .error _ => false

def provideDirectory (fs : FileSystem) (path : String) : Except IoError Unit × FileSystem :=
  match fs.makeDirectory path with
  | (.ok (), fs) => (.ok (), fs)
  | (.error e, fs) =>
    if e = .alreadyExists && fs.isDirectory path then (.ok (), fs) else (.error e, fs)

/-- Makes the first directory of some, after the others, which are around it. -/
def provideDirectories (fs : FileSystem) : List String → Except IoError Unit × FileSystem
  | [] => (.ok (), fs)
  | path :: around =>
    match fs.provideDirectory path with
    | (.ok (), fs) => (.ok (), fs)
    | (.error e, fs) =>
      if e.kind = .notFound then
        match fs.provideDirectories around with
        | (.error e, fs) => (.error e, fs)
        | (.ok (), fs) => fs.provideDirectory path
      else (.error e, fs)

def makeDirectories (fs : FileSystem) (path : String) : Except IoError Unit × FileSystem :=
  fs.provideDirectories (pathsAround path)

def setMode (fs : FileSystem) (path : String) (mode : Nat) : Except IoError Unit × FileSystem :=
  match fs.find path true with
  | .error e => (.error e, fs)
  | .ok (id, .pipe _ buffer holders) =>
    (.ok (), fs.setNode id (.pipe (mode % modeBits) buffer holders))
  | .ok _ => (.ok (), fs)

def openFile (fs : FileSystem) (path : String) : Except IoError FileId × FileSystem :=
  match fs.find path true with
  | .error e => (.error e, fs)
  | .ok (id, node) =>
    if node.isDirectory then (.error .isADirectory, fs)
    else if permits node (readBit + writeBit) then
      match node with
      | .pipe mode buffer holders => (.ok id, fs.setNode id (.pipe mode buffer (holders + 1)))
      | _ => (.ok id, fs)
    else (.error .permissionDenied, fs)

def closeFile (fs : FileSystem) (id : FileId) : FileSystem :=
  match fs.node? id with
  | some (.pipe mode buffer holders) =>
    fs.setNode id (.pipe mode (if holders ≤ 1 then {} else buffer) (holders - 1))
  | _ => fs

def openRead (fs : FileSystem) (path : String) : Except IoError FileId :=
  match fs.find path true with
  | .error e => .error e
  | .ok (id, node) => if permits node readBit then .ok id else .error .permissionDenied

def pipe? (fs : FileSystem) (id : FileId) : Option PipeBuffer :=
  match fs.node? id with
  | some (.pipe _ buffer _) => some buffer
  | _ => none

def setPipe (fs : FileSystem) (id : FileId) (buffer : PipeBuffer) : FileSystem :=
  match fs.node? id with
  | some (.pipe mode _ holders) => fs.setNode id (.pipe mode buffer holders)
  | _ => fs

def readPipe (fs : FileSystem) (id : FileId) (count : Nat) : Option Bytes × FileSystem :=
  match fs.pipe? id with
  | none => (none, fs)
  | some buffer =>
    if buffer.waiting = [] then (none, fs)
    else
      let (bytes, buffer) := buffer.read count
      (some bytes, fs.setPipe id buffer)

def readAt (fs : FileSystem) (id : FileId) (position count : Nat) : Except IoError Bytes :=
  match fs.node? id with
  | some (.file content) => .ok ((content.drop position).take count)
  | some (.directory _ _) => .error .isADirectory
  | _ => .ok []

def read (fs : FileSystem) (id : FileId) (position count : Nat) :
    Except IoError Bytes × FileSystem :=
  if (fs.pipe? id).isSome && count != 0 then
    match fs.readPipe id count with
    | (some bytes, fs) => (.ok bytes, fs)
    | (none, fs) => (.error .blocked, fs)
  else (fs.readAt id position count, fs)

def writeAt (fs : FileSystem) (id : FileId) (position : Nat) (bytes : Bytes) : FileSystem :=
  if bytes = [] then fs
  else match fs.node? id with
    | some (.file content) =>
      let front := content.take position ++ List.replicate (position - content.length) 0
      fs.setNode id (.file (front ++ bytes ++ content.drop (position + bytes.length)))
    | some (.pipe mode buffer holders) => fs.setNode id (.pipe mode (buffer.write bytes) holders)
    | _ => fs

/-- Makes a file hold just these bytes; there may be none of that name yet.  To a pipe that
somebody holds they are written. -/
def writeFile (fs : FileSystem) (path : String) (bytes : Bytes) :
    Except IoError Unit × FileSystem :=
  match fs.locate path .creation with
  | .error e => (.error e, fs)
  | .ok (.absent dir name _) => (.ok (), (fs.create dir name (.file bytes)).2)
  | .ok (.existing id _ _) =>
    match fs.node? id with
    | some (.file _) => (.ok (), fs.setNode id (.file bytes))
    | some (.directory _ _) => (.error .isADirectory, fs)
    | some (.pipe mode buffer holders) =>
      if permits (.pipe mode buffer holders) writeBit then
        (.ok (), if holders = 0 then fs else fs.writeAt id 0 bytes)
      else (.error .permissionDenied, fs)
    | _ => (.ok (), fs)

def contents (fs : FileSystem) (path : String) : Except IoError Bytes :=
  match fs.find path true with
  | .error e => .error e
  | .ok (_, .file content) => .ok content
  | .ok (_, .directory _ _) => .error .isADirectory
  | .ok (_, node) => if permits node readBit then .ok [] else .error .permissionDenied

def removeFile (fs : FileSystem) (path : String) : Except IoError Unit × FileSystem :=
  match fs.locate path .entry with
  | .error e => (.error e, fs)
  | .ok (.absent _ _ _) => (.error .noEntry, fs)
  | .ok (.existing _ none _) => (.error .isADirectory, fs)
  | .ok (.existing id (some (dir, name)) slash) =>
    if (fs.directory? id).isSome then (.error .isADirectory, fs)
    else if slash then (.error .notADirectory, fs)
    else (.ok (), fs.unbindName dir name)

def moveEntry (fs : FileSystem) (id : FileId) (source target : FileId × String) : FileSystem :=
  let moved := (fs.unbindName source.1 source.2).bindName target.1 target.2 id
  match moved.directory? id with
  | some (_, entries) => moved.setNode id (.directory target.1 entries)
  | none => moved

def replaceError? (fs : FileSystem) (id other : FileId) : Option IoError :=
  match fs.directory? id, fs.directory? other with
  | none, none => none
  | none, some _ => some .isADirectory
  | some _, none => some .notADirectory
  | some _, some (_, entries) => if entries = [] then none else some .directoryNotEmpty

/-- Gives a file another name, whose file loses it.  A directory cannot go into itself. -/
def rename (fs : FileSystem) (path target : String) : Except IoError Unit × FileSystem :=
  match fs.locate path .entry, fs.locate target .entry with
  | .error e, _ | _, .error e => (.error e, fs)
  | .ok (.existing _ none _), .ok _ | .ok _, .ok (.existing _ none _) => (.error .busy, fs)
  | .ok (.absent _ _ _), .ok _ => (.error .noEntry, fs)
  | .ok (.existing id (some source) slash), .ok (.absent dir name newSlash) =>
    if (slash || newSlash) && (fs.directory? id).isNone then (.error .notADirectory, fs)
    else if fs.isWithin dir id then (.error .invalidArgument, fs)
    else (.ok (), fs.moveEntry id source (dir, name))
  | .ok (.existing id (some source) slash), .ok (.existing other (some (dir, name)) newSlash) =>
    if (slash || newSlash) && (fs.directory? id).isNone then (.error .notADirectory, fs)
    else if fs.isWithin dir id then (.error .invalidArgument, fs)
    else if fs.isWithin source.1 other then (.error .directoryNotEmpty, fs)
    else if other = id then (.ok (), fs)
    else match fs.replaceError? id other with
      | some e => (.error e, fs)
      | none => (.ok (), fs.moveEntry id source (dir, name))

def listDirectory (fs : FileSystem) (path : String) : List String :=
  match fs.find path true with
  | .ok (_, .directory _ entries) => (entries.map (·.1)).mergeSort (· ≤ ·)
  | _ => []

end SpiBridge.FileSystem
