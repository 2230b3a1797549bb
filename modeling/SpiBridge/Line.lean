import SpiBridge.Channel.Error
/-!
# The request line

The slave asks for a transaction by raising a line.  The bridge samples its
level; a sample may fail.  A wait finds a line ready once it was raised, and
nothing takes that back.
-/

namespace SpiBridge

/-- A request line: the levels that the next samples find, and the level after that. -/
structure Line where
  level : Bool := false
  upcoming : List Bool := []
  failure : Option IoError := none
  hasHandle : Bool := false
  /-- The line was raised since it is watched. -/
  wasRaised : Bool := false
  deriving DecidableEq, Repr

namespace Line

def inactive : Line := {}

def setLevel (l : Line) (level : Bool) : Line :=
  { l with level, wasRaised := l.wasRaised || level }

def isReady (l : Line) : Bool :=
  l.hasHandle && l.wasRaised

def sample (l : Line) : Except IoError Bool × Line :=
  match l.failure with
  | some e => (.error e, { l with failure := none })
  | none =>
    match l.upcoming with
    | [] => (.ok l.level, l)
    | level :: rest => (.ok level, { l with level, upcoming := rest })

end Line

end SpiBridge
