import SpiBridge.Channel.Error
/-!
# Waiting on descriptors

A wait watches descriptors, each for one sort of event, and finds which of them
are ready.  It takes its timeout in whole milliseconds.
Main statement: the number of milliseconds is the least that is not below the
timeout, unless the largest number that a wait takes cuts it off.
-/

namespace SpiBridge.Poll

inductive Interest where
  | readable
  | priority
  | writable
  deriving DecidableEq, Repr

def Interest.name : Interest → String
  | readable => "readable"
  | priority => "priority"
  | writable => "writable"

structure Socket where
  hasData : Bool := false
  hasRoom : Bool := true
  peerClosed : Bool := false
  deriving DecidableEq, Repr

def Socket.drained (s : Socket) : Socket :=
  { s with hasData := false }

def Socket.fed (s : Socket) : Socket :=
  { s with hasData := s.hasData || !s.peerClosed }

inductive Descriptor where
  | socket (s : Socket)
  | ignored
  | invalid
  deriving DecidableEq, Repr

/-- A wait reports an event: a closed peer and an invalid number are reported to everyone. -/
def Descriptor.isReady (interest : Interest) : Descriptor → Bool
  | ignored => false
  | invalid => true
  | socket s =>
    s.peerClosed ||
      match interest with
      | .readable => s.hasData
      | .writable => s.hasRoom
      | .priority => false

structure Watched where
  descriptor : Descriptor
  interest : Interest
  deriving DecidableEq, Repr

def changeAt (places : List Nat) (change : Socket → Socket) (watched : List Watched) :
    List Watched :=
  watched.mapIdx fun place w =>
    match w.descriptor with
    | .socket s => if place ∈ places then { w with descriptor := .socket (change s) } else w
    | _ => w

def found (watched : List Watched) : List Bool :=
  watched.map fun w => w.descriptor.isReady w.interest

def maxMillis : Nat := 0x7fff_ffff

def timeoutMillis (timeout : Duration) : Nat :=
  min timeout.ceilMillis maxMillis

theorem ceilMillis_le_iff (timeout : Duration) (millis : Nat) :
    timeout.ceilMillis ≤ millis ↔ timeout.nanos ≤ millis * 1_000_000 := by
  unfold Duration.ceilMillis
  omega

end SpiBridge.Poll
