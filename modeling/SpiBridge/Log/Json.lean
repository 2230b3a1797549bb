import SpiBridge.Log.Record
/-!
# Records as objects

A record as one line of JSON without blanks, its keys in order.
-/

namespace SpiBridge.Log

def fourDigits (n : Nat) : List Char :=
  let digits := Nat.toDigits 16 n
  List.replicate (4 - digits.length) '0' ++ digits

def jsonChar (c : Char) : List Char :=
  if c = '"' then ['\\', '"']
  else if c = '\\' then ['\\', '\\']
  else if c = '\n' then ['\\', 'n']
  else if c = '\r' then ['\\', 'r']
  else if c = '\t' then ['\\', 't']
  else if c = '\x08' then ['\\', 'b']
  else if c = '\x0c' then ['\\', 'f']
  else if c.toNat < 0x20 then ['\\', 'u'] ++ fourDigits c.toNat
  else [c]

def jsonString (text : String) : String :=
  String.ofList (['"'] ++ text.toList.flatMap jsonChar ++ ['"'])

def jsonObject (fields : List (String × String)) : String :=
  let sorted := fields.mergeSort fun a b => a.1 ≤ b.1
  let members := sorted.map fun field => jsonString field.1 ++ ":" ++ field.2
  "\x7b" ++ ",".intercalate members ++ "\x7d"

def Value.json : Value → String
  | text shown => jsonString shown
  | number n => toString n

def Record.json (r : Record) : String :=
  let fields := ("message", jsonString r.message) :: r.fields.map fun field =>
    (field.1, field.2.json)
  jsonObject [("fields", jsonObject fields), ("level", jsonString r.level.label)]

end SpiBridge.Log
