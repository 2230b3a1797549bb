import SpiBridge.Bridge.Basic
/-!
# Reading from the bus

Raw bytes of the slave's frame are collected from the bus, which carries them in
escaped form.  A read never asks for more bytes than raw bytes are missing, so
the bytes behind the frame stay on the bus.
-/

namespace SpiBridge

/-- What takes part in reading from the bus. -/
structure Intake where
  frame : Buffer
  wire : Buffer
  decoder : Escape.Decoder
  bus : Channel

inductive IntakeError where
  | framing (error : FramingError)
  | transport (error : TransportError)
  deriving DecidableEq

namespace Intake

/-- Decodes bytes from the bus into the raw frame. -/
def absorb (decoder : Escape.Decoder) (frame : Buffer) :
    Bytes → Except FramingError (Escape.Decoder × Buffer)
  | [] => .ok (decoder, frame)
  | byte :: rest =>
    match decoder.feed byte with
    | (.error e, _) => .error e
    | (.ok none, decoder) => absorb decoder frame rest
    | (.ok (some raw), decoder) =>
      match frame.push raw with
      | .error e => .error e
      | .ok frame => absorb decoder frame rest

def stall (i : Intake) (target : Nat) : FramingError :=
  match i.decoder.finish with
  | .error e => e
  | .ok () => .truncated target i.frame.length

def fill (i : Intake) (target : Nat) : Except IntakeError Unit × Intake :=
  if i.frame.length < target then
    let missing := target - i.frame.length
    let wire := i.wire.reset
    match wire.lend missing with
    | .error e => (.error (.framing e), { i with wire })
    | .ok _ =>
      match _hread : i.bus.readSome missing with
      | (.error e, bus) => (.error (.transport e), { i with wire, bus })
      | (.ok (some (byte :: rest)), bus) =>
        let wire := wire.receive (byte :: rest)
        match absorb i.decoder i.frame (byte :: rest) with
        | .error e => (.error (.framing e), { i with wire, bus })
        | .ok (decoder, frame) =>
          fill { frame, decoder, bus, wire := wire.advance (byte :: rest).length } target
      | (.ok _, bus) => (.error (.framing (i.stall target)), { i with wire, bus })
  else
    (.ok (), i)
termination_by i.bus.waiting.length
decreasing_by
  have hwaiting := Channel.waiting_of_readSome _hread
  simp only [hwaiting, List.length_append, List.length_cons]
  omega

end Intake

end SpiBridge
