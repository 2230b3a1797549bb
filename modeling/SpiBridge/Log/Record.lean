/-!
# Log records

A record has a level, a message and named fields.  It is written as one line:
the level, the message, and a name and a value for each field.
-/

namespace SpiBridge.Log

inductive Level where
  | error
  | warn
  | info
  | debug
  | trace
  deriving DecidableEq, Repr

namespace Level

def label : Level → String
  | error => "ERROR"
  | warn => "WARN"
  | info => "INFO"
  | debug => "DEBUG"
  | trace => "TRACE"

def rank : Level → Nat
  | error => 0
  | warn => 1
  | info => 2
  | debug => 3
  | trace => 4

/-- A record is kept if it is at least as serious as the level asked for. -/
def admits (threshold level : Level) : Bool :=
  level.rank ≤ threshold.rank

/-- The priority of a level in the system log; the two least serious share one. -/
def priority : Level → Nat
  | error => 3
  | warn => 4
  | info => 6
  | debug | trace => 7

end Level

inductive Value where
  | text (shown : String)
  | number (n : Nat)
  deriving DecidableEq, Repr

def Value.shown : Value → String
  | text shown => shown
  | number n => toString n

structure Record where
  level : Level
  message : String
  fields : List (String × Value) := []
  deriving DecidableEq, Repr

namespace Record

def body (r : Record) : String :=
  r.fields.foldl (fun line field => line ++ " " ++ field.1 ++ "=" ++ field.2.shown) r.message

def line (r : Record) : String :=
  r.level.label ++ " " ++ r.body

def alignedLine (r : Record) : String :=
  "".pushn ' ' (5 - r.level.label.length) ++ r.line

end Record

end SpiBridge.Log
