import SpiBridge.Bytes
/-!
# Register commands

The four commands that travel between the host and the serial slave: single
and multiple register writes, which carry a payload, and single and multiple
register reads, which are answered.
-/

namespace SpiBridge

inductive Command where
  | writeRegister
  | readRegister
  | multiWriteRegister
  | multiReadRegister
  deriving DecidableEq, Repr

namespace Command

def code : Command → UInt8
  | writeRegister => 0
  | readRegister => 1
  | multiWriteRegister => 2
  | multiReadRegister => 3

def ofCode? (code : UInt8) : Option Command :=
  if code = 0 then some writeRegister
  else if code = 1 then some readRegister
  else if code = 2 then some multiWriteRegister
  else if code = 3 then some multiReadRegister
  else none

def isWrite : Command → Bool
  | writeRegister | multiWriteRegister => true
  | readRegister | multiReadRegister => false

def isRead (command : Command) : Bool :=
  !command.isWrite

def name : Command → String
  | writeRegister => "write-register"
  | readRegister => "read-register"
  | multiWriteRegister => "multi-write-register"
  | multiReadRegister => "multi-read-register"

theorem ofCode?_code (command : Command) : ofCode? command.code = some command := by
  cases command <;> rfl

theorem code_of_ofCode? {code : UInt8} {command : Command}
    (h : ofCode? code = some command) : command.code = code := by
  unfold ofCode? at h
  grind [Command.code]

end Command

end SpiBridge
