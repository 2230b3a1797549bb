import SpiBridge.Text.Blank
import SpiBridge.Time
/-!
# Reading durations

A duration is written as an amount and a unit: seconds when the unit is missing
or `s`, milliseconds for `ms`, minutes for `m`.  Blanks at the two ends do not
count, and the amount must be positive.
-/

namespace SpiBridge

inductive DurationError where
  | noAmount (text : String)
  | unknownUnit (unit text : String)
  | notPositive (text : String)
  deriving DecidableEq, Repr

namespace DurationError

def message : DurationError → String
  | noAmount text => s!"'{text}' is not a duration"
  | unknownUnit unit text => s!"unknown duration unit '{unit}' in '{text}'"
  | notPositive text => s!"'{text}' is not a positive duration"

end DurationError

namespace Duration

def decimalValue (digits : List Char) : Nat :=
  digits.foldl (fun value digit => 10 * value + (digit.toNat - '0'.toNat)) 0

/-- An amount below 2^64, in one of the units. -/
def ofAmount? (amount : UInt64) (unit : List Char) : Option Duration :=
  match unit with
  | [] | ['s'] => some (ofSeconds amount)
  | ['m', 's'] => some (ofMillis amount)
  | ['m'] => some (ofMinutes amount)
  | _ => none

def parseTrimmed (text : List Char) : Except DurationError Duration :=
  let digits := text.takeWhile Char.isDigit
  let unit := text.dropWhile Char.isDigit
  if digits = [] ∨ 0x1_0000_0000_0000_0000 ≤ decimalValue digits then
    .error (.noAmount (String.ofList text))
  else
    match ofAmount? (UInt64.ofNat (decimalValue digits)) unit with
    | none => .error (.unknownUnit (String.ofList unit) (String.ofList text))
    | some d =>
      if d.nanos = 0 then .error (.notPositive (String.ofList text)) else .ok d

def parse (input : String) : Except DurationError Duration :=
  parseTrimmed (Text.trim input.toList)

end Duration

end SpiBridge
