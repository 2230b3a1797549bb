import SpiBridge.Command.Frame
import SpiBridge.Escape
import SpiBridge.Sync.Serial
import SpiBridge.Time
/-!
# Transactions

A transaction moves one command frame between the host and the slave, and the
answer back if the slave asked for one.  The slave starts one by its request
line, the host by writing a command.  Each goes through phases of its own; the
bridge is idle between two transactions.
-/

namespace SpiBridge

/-- Where a transaction stands. -/
inductive Phase where
  | idle
  | slaveHeader
  | slavePayload
  | slaveAwaitingHostAnswer
  | slaveAnswerToBus
  | masterHeader
  | masterPayload
  | masterToBus
  deriving DecidableEq, Repr

namespace Phase

/-- The next thing to do concerns the bus alone, so nothing needs to be waited for. -/
def isBusDriven : Phase → Bool
  | slaveHeader | slavePayload | slaveAnswerToBus | masterToBus => true
  | idle | slaveAwaitingHostAnswer | masterHeader | masterPayload => false

def name : Phase → String
  | idle => "idle"
  | slaveHeader => "slave-header"
  | slavePayload => "slave-payload"
  | slaveAwaitingHostAnswer => "slave-awaiting-host-answer"
  | slaveAnswerToBus => "slave-answer-to-bus"
  | masterHeader => "master-header"
  | masterPayload => "master-payload"
  | masterToBus => "master-to-bus"

end Phase

inductive TransactionError where
  | framing (error : FramingError)
  | timeout (limit : Duration)
  deriving DecidableEq

def TransactionError.message : TransactionError → String
  | framing error => s!"framing error: {error.message}"
  | timeout limit => s!"no answer from host within {limit.text}"

structure Transaction where
  frame : Buffer
  wire : Buffer
  phase : Phase := .idle
  initiator : Option Sync.Origin := none
  request : Option Command.Header := none
  decoder : Escape.Decoder := {}
  deadline : Option Instant := none
  deriving DecidableEq

namespace Transaction

/-- The room for a raw frame that every frame fits. -/
def frameRoom : Nat := 266

/-- The room for a synchronization frame that every frame fits, all bytes escaped. -/
def wireRoom : Nat := 526

def ofRooms (frameRoom wireRoom : Nat) : Transaction :=
  { frame := .ofCapacity frameRoom, wire := .ofCapacity wireRoom }

/-- Ends the transaction; its buffers stay. -/
def reset (t : Transaction) : Transaction :=
  { frame := t.frame.reset, wire := t.wire.reset }

def start (t : Transaction) (initiator : Sync.Origin) : Transaction :=
  { t.reset with
    initiator := some initiator
    phase := match initiator with
      | .slave => .slaveHeader
      | .master => .masterHeader }

/-- The header at the front of the raw frame, once all its bytes are there. -/
def header? (t : Transaction) : Except FramingError (Option Command.Header) :=
  if t.frame.length < Command.Header.size then .ok none
  else (Command.Header.parse t.frame.filled).map some

end Transaction

end SpiBridge
