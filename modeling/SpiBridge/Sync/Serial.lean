import SpiBridge.Bytes
/-!
# Serial numbers

Each synchronization frame carries a serial number whose upper bit tells which
side started the transaction.  Each side has a range of its own; the number
just below the range is never given out.  Main statement: the side can be read
off exactly the numbers in its range.
-/

namespace SpiBridge.Sync

/-- The side that started a transaction. -/
inductive Origin where
  | slave
  | master
  deriving DecidableEq, Repr

namespace Origin

/-- The number that stands for no frame of this side. -/
def invalidSerial : Origin → UInt16
  | slave => 0x0000
  | master => 0x8000

def firstSerial : Origin → UInt16
  | slave => 0x0001
  | master => 0x8001

def lastSerial : Origin → UInt16
  | slave => 0x7fff
  | master => 0xffff

def ofSerial? (serial : UInt16) : Option Origin :=
  if serial = slave.invalidSerial ∨ serial = master.invalidSerial then none
  else if serial ≤ slave.lastSerial then some slave
  else some master

def Owns (origin : Origin) (serial : UInt16) : Prop :=
  origin.firstSerial ≤ serial ∧ serial ≤ origin.lastSerial

instance (origin : Origin) (serial : UInt16) : Decidable (origin.Owns serial) :=
  inferInstanceAs (Decidable (_ ∧ _))

def name : Origin → String
  | slave => "slave"
  | master => "master"

theorem ofSerial?_eq_some_iff {serial : UInt16} {origin : Origin} :
    ofSerial? serial = some origin ↔ origin.Owns serial := by
  have hserial := serial.toNat_lt
  unfold ofSerial? Owns
  cases origin <;>
    simp only [invalidSerial, firstSerial, lastSerial, ← UInt16.toNat_inj, UInt16.le_iff_toNat_le,
      UInt16.reduceToNat] <;>
    grind

end Origin

structure Serials where
  slave : UInt16 := Origin.slave.firstSerial
  master : UInt16 := Origin.master.firstSerial
  deriving DecidableEq, Repr

namespace Serials

/-- The number behind a given one: the first again behind the last. -/
def successor (origin : Origin) (serial : UInt16) : UInt16 :=
  if origin.lastSerial ≤ serial then origin.firstSerial else serial + 1

def peek (s : Serials) : Origin → UInt16
  | .slave => s.slave
  | .master => s.master

def advance (s : Serials) : Origin → Serials
  | .slave => { s with slave := successor .slave s.slave }
  | .master => { s with master := successor .master s.master }

def next (s : Serials) (origin : Origin) : UInt16 × Serials :=
  (s.peek origin, s.advance origin)

end Serials

end SpiBridge.Sync
