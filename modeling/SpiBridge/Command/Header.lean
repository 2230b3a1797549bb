import SpiBridge.FramingError
/-!
# Command headers

Every command frame starts with four bytes: the command's code, the register,
and the payload length as a little-endian word.  A read carries no payload: its
length is that of the answer it asks for.  Main statement: reading a written
header gives the header back.
-/

namespace SpiBridge.Command

structure Header where
  command : Command
  register : UInt8
  payloadLength : UInt16
  deriving DecidableEq, Repr

namespace Header

def size : Nat := 4

def maxPayload : Nat := 256

def maxFrame : Nat := size + maxPayload

def ofLength (command : Command) (register : UInt8) (payloadLength : Nat) :
    Except FramingError Header :=
  if payloadLength ≤ maxPayload then
    .ok ⟨command, register, UInt16.ofNat payloadLength⟩
  else
    .error (.payloadTooLarge payloadLength maxPayload)

def toBytes (h : Header) : Bytes :=
  h.command.code :: h.register :: Bytes.ofWord h.payloadLength

def build (command : Command) (register : UInt8) (payloadLength : Nat) :
    Except FramingError Bytes :=
  (ofLength command register payloadLength).map toBytes

def parse (bytes : Bytes) : Except FramingError Header :=
  match bytes with
  | code :: register :: low :: high :: _ =>
    match Command.ofCode? code with
    | none => .error (.unknownCommand code)
    | some command =>
      if (Bytes.toWord low high).toNat ≤ maxPayload then
        .ok ⟨command, register, Bytes.toWord low high⟩
      else
        .error (.payloadTooLarge (Bytes.toWord low high).toNat maxPayload)
  | _ => .error (.truncated size bytes.length)

/-- The number of payload bytes that follow the header in its frame. -/
def followingLength (h : Header) : Nat :=
  if h.command.isWrite then h.payloadLength.toNat else 0

def frameLength (h : Header) : Nat :=
  size + h.followingLength

@[simp] theorem length_toBytes (h : Header) : h.toBytes.length = size := rfl

theorem parse_toBytes_append (h : Header) (rest : Bytes)
    (hlen : h.payloadLength.toNat ≤ maxPayload) : parse (h.toBytes ++ rest) = .ok h := by
  simp [parse, toBytes, Bytes.ofWord, ofCode?_code, Bytes.toWord_ofWord, hlen]

end Header

end SpiBridge.Command
