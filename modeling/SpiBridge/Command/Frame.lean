import SpiBridge.Command.Header
/-!
# Command frames

A command frame is a header and the payload that the header announces.  It can
be built from its parts, written, and read back from exactly its bytes.
-/

namespace SpiBridge.Command

structure Frame where
  header : Header
  payload : Bytes
  deriving DecidableEq, Repr

namespace Frame

def write (command : Command) (register : UInt8) (payload : Bytes) : Except FramingError Frame :=
  if command.isRead then
    .error (.unexpectedCommand command)
  else
    (Header.ofLength command register payload.length).map (⟨·, payload⟩)

def read (command : Command) (register : UInt8) (answerLength : Nat) :
    Except FramingError Frame :=
  if command.isWrite then
    .error (.unexpectedCommand command)
  else
    (Header.ofLength command register answerLength).map (⟨·, []⟩)

def toBytes (f : Frame) : Bytes :=
  f.header.toBytes ++ f.payload

/-- Reads a frame from exactly its bytes. -/
def parse (raw : Bytes) : Except FramingError Frame := do
  let header ← Header.parse raw
  if raw.length < header.frameLength then
    .error (.truncated header.frameLength raw.length)
  else if header.frameLength < raw.length then
    .error (.payloadTooLarge (raw.length - Header.size) header.followingLength)
  else
    .ok ⟨header, raw.drop Header.size⟩

end Frame

end SpiBridge.Command
