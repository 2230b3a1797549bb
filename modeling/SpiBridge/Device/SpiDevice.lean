import SpiBridge.FileSystem.Calls
import SpiBridge.Channel.Error
/-!
# Bus devices

The serial bus is a device file, read and written like any other at one common
position.  Its clock is a setting of the device, which a plain file does not have.
-/

namespace SpiBridge

structure SpiDevice where
  path : String
  file : FileId
  position : Nat := 0
  deriving DecidableEq, Repr

namespace SpiDevice

def label : String := "spidev"

def openAt (fs : FileSystem) (path : String) : Except TransportError SpiDevice × FileSystem :=
  match fs.openFile path with
  | (.error e, fs) => (.error (.openFile path e), fs)
  | (.ok file, fs) => (.ok { path, file }, fs)

def setClock (d : SpiDevice) (hertz : UInt32) : Except TransportError Unit :=
  if hertz = 0 then .ok () else .error (.configure d.path .notADevice)

def read (d : SpiDevice) (fs : FileSystem) (count : Nat) :
    Except TransportError Bytes × SpiDevice × FileSystem :=
  match fs.read d.file d.position count with
  | (.error e, fs) => (.error (.io e), d, fs)
  | (.ok bytes, fs) => (.ok bytes, { d with position := d.position + bytes.length }, fs)

def write (d : SpiDevice) (fs : FileSystem) (bytes : Bytes) : SpiDevice × FileSystem :=
  ({ d with position := d.position + bytes.length }, fs.writeAt d.file d.position bytes)

def close (d : SpiDevice) (fs : FileSystem) : FileSystem :=
  fs.closeFile d.file

end SpiDevice

end SpiBridge
