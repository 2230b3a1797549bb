import SpiBridge.FileSystem.PipeBuffer
import SpiBridge.Channel.Error
/-!
# File systems

A file system is a numbered collection of directories, files, links and named
pipes.  A name in a directory only points to a number, so a file that lost its
name lives on for those who opened it, and a new file of that name is another.
Numbers are never used again.
-/

namespace SpiBridge

abbrev FileId := Nat

inductive Node where
  | directory (parent : FileId) (entries : List (String × FileId))
  | file (content : Bytes)
  | link (target : String)
  | pipe (mode : Nat) (buffer : PipeBuffer) (holders : Nat)
  deriving DecidableEq, Repr

/-- All nodes by number, the root first, and the directory where relative paths start. -/
structure FileSystem where
  nodes : List Node := [.directory 0 []]
  directory : FileId := 0
  deriving DecidableEq, Repr

def Node.isDirectory : Node → Bool
  | directory _ _ => true
  | file _ | link _ | pipe _ _ _ => false

/-- What a path is for. -/
inductive Manner where
  | entry
  | node
  /-- A file behind all links, which is made if it is missing: no slash may follow its name. -/
  | creation
  deriving DecidableEq, Repr

/-- Where a path leads, and whether a slash follows the last name, which asks for a
directory. -/
inductive Place where
  | existing (id : FileId) (entry : Option (FileId × String)) (slash : Bool)
  | absent (directory : FileId) (name : String) (slash : Bool)
  deriving DecidableEq, Repr

inductive Status where
  | file
  | directory
  | link
  | pipe (mode : Nat)
  deriving DecidableEq, Repr

namespace FileSystem

def root : FileId := 0

def maxName : Nat := 255

def maxPath : Nat := 4096

def maxLinks : Nat := 40

def node? (fs : FileSystem) (id : FileId) : Option Node :=
  fs.nodes[id]?

def directory? (fs : FileSystem) (id : FileId) : Option (FileId × List (String × FileId)) :=
  match fs.node? id with
  | some (.directory parent entries) => some (parent, entries)
  | _ => none

def setNode (fs : FileSystem) (id : FileId) (node : Node) : FileSystem :=
  { fs with nodes := fs.nodes.set id node }

def bindName (fs : FileSystem) (dir : FileId) (name : String) (id : FileId) : FileSystem :=
  match fs.directory? dir with
  | none => fs
  | some (parent, entries) =>
    fs.setNode dir (.directory parent (entries.filter (·.1 ≠ name) ++ [(name, id)]))

def unbindName (fs : FileSystem) (dir : FileId) (name : String) : FileSystem :=
  match fs.directory? dir with
  | none => fs
  | some (parent, entries) => fs.setNode dir (.directory parent (entries.filter (·.1 ≠ name)))

def create (fs : FileSystem) (dir : FileId) (name : String) (node : Node) :
    FileId × FileSystem :=
  let id := fs.nodes.length
  (id, ({ fs with nodes := fs.nodes ++ [node] }).bindName dir name id)

def pathNames (path : String) : List String :=
  (path.splitOn "/").filter (· ≠ "")

def endsInSlash (path : String) : Bool :=
  path.toList.getLast? == some '/'

def startOf (dir : FileId) (path : String) : FileId :=
  if path.toList.head? = some '/' then root else dir

/-- Follows names from a directory, and links on the way. -/
def walk (fs : FileSystem) (manner : Manner) (slash : Bool) (links : Nat) (dir : FileId)
    (names : List String) : Except IoError Place :=
  match names with
  | [] => .ok (.existing dir none slash)
  | name :: rest =>
    match fs.directory? dir with
    | none => .error .notADirectory
    | some (parent, entries) =>
      if name = "." then fs.walk manner slash links dir rest
      else if name = ".." then fs.walk manner slash links parent rest
      else if rest = [] ∧ slash ∧ manner = .creation then .error .isADirectory
      else if maxName < name.utf8ByteSize then .error .nameTooLong
      else match entries.lookup name with
        | none => if rest = [] then .ok (.absent dir name slash) else .error .noEntry
        | some id =>
          match fs.node? id with
          | some (.link target) =>
            if rest = [] ∧ manner = .entry then .ok (.existing id (some (dir, name)) slash)
            else match links with
              | 0 => .error .tooManyLinks
              | links + 1 =>
                fs.walk manner (slash || (rest = [] && endsInSlash target)) links
                  (startOf dir target) (pathNames target ++ rest)
          | _ =>
            if rest = [] then .ok (.existing id (some (dir, name)) slash)
            else fs.walk manner slash links id rest
termination_by (links, names.length)

def locate (fs : FileSystem) (path : String) (manner : Manner) : Except IoError Place :=
  if path.toList.contains '\x00' then .error .nulInPath
  else if path = "" then .error .noEntry
  else if maxPath ≤ path.utf8ByteSize then .error .nameTooLong
  else
    fs.walk manner (endsInSlash path) maxLinks (startOf fs.directory path) (pathNames path)

/-- The node that a path leads to; a link at the end is followed if asked, or if a slash
asks for the directory behind it. -/
def find (fs : FileSystem) (path : String) (follow : Bool) : Except IoError (FileId × Node) := do
  match ← fs.locate path (if follow || endsInSlash path then .node else .entry) with
  | .absent _ _ _ => .error .noEntry
  | .existing id _ slash =>
    match fs.node? id with
    | none => .error .noEntry
    | some node =>
      if slash && !node.isDirectory then .error .notADirectory else .ok (id, node)

def pathExists (fs : FileSystem) (path : String) : Bool :=
  match fs.find path true with
  | .ok _ => true
  | .error _ => false

def statusOf : Node → Status
  | .directory _ _ => .directory
  | .file _ => .file
  | .link _ => .link
  | .pipe mode _ _ => .pipe mode

def status (fs : FileSystem) (path : String) : Except IoError (FileId × Status) :=
  (fs.find path false).map fun (id, node) => (id, statusOf node)

def liesIn (fs : FileSystem) (other : FileId) : Nat → FileId → Bool
  | 0, _ => false
  | steps + 1, dir =>
    dir == other ||
      match fs.directory? dir with
      | some (parent, _) => dir != root && fs.liesIn other steps parent
      | none => false

def isWithin (fs : FileSystem) (dir other : FileId) : Bool :=
  fs.liesIn other fs.nodes.length dir

def joinPath (directory name : String) : String :=
  if directory = "" then name
  else if endsInSlash directory then directory ++ name
  else directory ++ "/" ++ name

def properNames (path : String) : List String :=
  (pathNames path).filter (· ≠ ".")

def pathsAround (path : String) : List String :=
  let names := properNames path
  let start := if path.toList.head? = some '/' then "/" else ""
  match names.length with
  | 0 => []
  | outer + 1 =>
    path :: (List.range outer).reverse.map fun last =>
      start ++ "/".intercalate (names.take (last + 1))

/-- A path from the root on, for a path seen from a directory: without empty names and
without dots that stand for the directory they are in. -/
def absolutePath (directory path : String) : String :=
  let start :=
    if path.toList.head? ≠ some '/' then directory
    else if path.toList.take 2 = ['/', '/'] ∧ path.toList.take 3 ≠ ['/', '/', '/'] then "//"
    else "/"
  let whole := (properNames path).foldl joinPath start
  if endsInSlash path ∧ endsInSlash whole = false then whole ++ "/" else whole

end FileSystem

end SpiBridge
