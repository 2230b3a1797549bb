import SpiBridge.FileSystem.Calls
import SpiBridge.Poll
/-!
# Request pins

The request line is a pin that the system shows as a directory with a file for
each of its settings.  A pin that is not shown yet is exported first, and hidden
again when the bridge gives it back.  Its level may be debounced: it is sampled
until three samples in a row agree.
-/

namespace SpiBridge

structure Sampling (σ : Type) where
  result : Except IoError Bool
  /-- All samples were taken, and the level had not settled before the last. -/
  unsettled : Bool
  state : σ

namespace Debounce

def stableSamples : Nat := 3

def maxSamples : Nat := 64

def sampleOn {σ : Type} (sample : σ → Except IoError Bool × σ) :
    Nat → Nat → Bool → σ → Sampling σ
  | 0, _, level, s => ⟨.ok level, true, s⟩
  | left + 1, run, level, s =>
    if stableSamples ≤ run then ⟨.ok level, false, s⟩
    else match sample s with
      | (.error e, s) => ⟨.error e, false, s⟩
      | (.ok next, s) => sampleOn sample left (if next = level then run + 1 else 1) next s

/-- Samples until the level settles, at most `maxSamples` times. -/
def sampled {σ : Type} (sample : σ → Except IoError Bool × σ) (s : σ) : Sampling σ :=
  match sample s with
  | (.error e, s) => ⟨.error e, false, s⟩
  | (.ok level, s) => sampleOn sample (maxSamples - 1) 1 level s

end Debounce

structure Pin where
  number : UInt32
  root : String
  value : FileId
  exportedHere : Bool
  debounce : Bool := false
  deriving DecidableEq, Repr

namespace Pin

def systemRoot : String := "/sys/class/gpio"

def interest : Poll.Interest := .priority

def configure (fs : FileSystem) (path text : String) : Except TransportError Unit × FileSystem :=
  match fs.writeFile path (.ofText text) with
  | (.ok (), fs) => (.ok (), fs)
  | (.error e, fs) => (.error (.configure path e), fs)

def openInput (fs : FileSystem) (directory : String) :
    Except TransportError FileId × FileSystem :=
  match configure fs (FileSystem.joinPath directory "direction") "in" with
  | (.error e, fs) => (.error e, fs)
  | (.ok (), fs) =>
    match configure fs (FileSystem.joinPath directory "edge") "both" with
    | (.error e, fs) => (.error e, fs)
    | (.ok (), fs) =>
      let path := FileSystem.joinPath directory "value"
      ((fs.openRead path).mapError (.openFile path), fs)

def unexport (fs : FileSystem) (root : String) (number : UInt32) : FileSystem :=
  (fs.writeFile (FileSystem.joinPath root "unexport") (.ofText (toString number))).2

def openIn (fs : FileSystem) (root : String) (number : UInt32) :
    Except TransportError Pin × FileSystem :=
  let directory := FileSystem.joinPath root s!"gpio{number}"
  let shown := fs.pathExists directory
  match
    if shown then (.ok (), fs)
    else configure fs (FileSystem.joinPath root "export") (toString number) with
  | (.error e, fs) => (.error e, fs)
  | (.ok (), fs) =>
    match openInput fs directory with
    | (.ok value, fs) => (.ok { number, root, value, exportedHere := !shown }, fs)
    | (.error e, fs) => (.error e, if shown then fs else unexport fs root number)

def close (p : Pin) (fs : FileSystem) : FileSystem :=
  if p.exportedHere then unexport fs p.root p.number else fs

/-- One sample: the level is high if its file starts with the digit one. -/
def sample (p : Pin) (fs : FileSystem) : Except IoError Bool := do
  match ← fs.readAt p.value 0 2 with
  | [] => .error .emptyLevel
  | first :: _ => .ok (first == 0x31)

def level (p : Pin) (fs : FileSystem) : Except IoError Bool :=
  if p.debounce then
    (Debounce.sampled (fun fs => (p.sample fs, fs)) fs).result
  else
    p.sample fs

end Pin

end SpiBridge
