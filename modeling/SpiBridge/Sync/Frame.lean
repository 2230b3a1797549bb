import SpiBridge.Escape
import SpiBridge.Sync.Serial
/-!
# Synchronization frames

What travels to the slave is a synchronization frame: six header bytes (the
marker, a byte without meaning, the serial number and the raw length as
little-endian words) sent as they are, then the raw bytes in escaped form.
-/

namespace SpiBridge

namespace Sync

structure Header where
  serial : UInt16
  length : UInt16
  deriving DecidableEq, Repr

namespace Header

def size : Nat := 6

def marker : UInt8 := 0x63

/-- The header of the next frame of a side; a length beyond a word takes no number. -/
def next (serials : Serials) (origin : Origin) (rawLength : Nat) :
    Except FramingError (Header × Serials) :=
  if rawLength < 65536 then
    .ok (⟨serials.peek origin, UInt16.ofNat rawLength⟩, serials.advance origin)
  else
    .error (.payloadTooLarge rawLength 65535)

def toBytes (h : Header) : Bytes :=
  marker :: 0 :: (Bytes.ofWord h.serial ++ Bytes.ofWord h.length)

/-- Reads a header from the front of a byte string; the second byte may be any. -/
def parse (bytes : Bytes) : Except FramingError Header :=
  match bytes with
  | first :: _ :: s₀ :: s₁ :: l₀ :: l₁ :: _ =>
    if first = marker then
      .ok ⟨Bytes.toWord s₀ s₁, Bytes.toWord l₀ l₁⟩
    else
      .error (.invalidMarker first)
  | _ => .error (.truncated size bytes.length)

def origin? (h : Header) : Option Origin :=
  Origin.ofSerial? h.serial

@[simp] theorem length_toBytes (h : Header) : h.toBytes.length = size := rfl

theorem parse_toBytes_append (h : Header) (rest : Bytes) :
    parse (h.toBytes ++ rest) = .ok h := by
  simp [parse, toBytes, Bytes.ofWord, Bytes.toWord_ofWord]

end Header

def encode (header : Header) (raw : Bytes) : Bytes :=
  header.toBytes ++ Escape.encode raw

def encodeInto (written : Bytes) (header : Header) (raw : Bytes) : Bytes :=
  Escape.encodeInto (written ++ header.toBytes) raw

/-- Reads a frame from the front of a byte string, as many raw bytes as its header says. -/
def decode (wire : Bytes) : Except FramingError (Header × Bytes) := do
  let header ← Header.parse wire
  let fed := (Escape.Decoder.mk false).feedUpTo header.length.toNat (wire.drop Header.size)
  let raw ← fed.finish
  if raw.length < header.length.toNat then
    .error (.truncated header.length.toNat raw.length)
  else
    .ok (header, raw)

end Sync

namespace Buffer

/-- Writes a synchronization frame.  The header goes first, and stays when the rest has no room. -/
def appendSync (b : Buffer) (header : Sync.Header) (raw : Bytes) :
    Except FramingError Unit × Buffer :=
  match b.append header.toBytes with
  | .error e => (.error e, b)
  | .ok b =>
    match b.appendEscaped raw with
    | .error e => (.error e, b)
    | .ok b => (.ok (), b)

end Buffer

end SpiBridge
