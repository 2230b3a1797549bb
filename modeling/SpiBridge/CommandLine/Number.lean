/-!
# Reading whole numbers

A whole number is written in decimal digits behind an optional sign, and must fit
64 bits with a sign.  The first character that is no digit, or at which the
number leaves that range, decides how a text is refused.
-/

namespace SpiBridge.CommandLine

inductive NumberError where
  | empty
  | badDigit
  | tooLarge
  | tooSmall
  | outOfRange (n : Int) (bound : Nat)
  deriving DecidableEq, Repr

namespace NumberError

def message : NumberError → String
  | empty => "cannot parse integer from empty string"
  | badDigit => "invalid digit found in string"
  | tooLarge => "number too large to fit in target type"
  | tooSmall => "number too small to fit in target type"
  | outOfRange n bound => s!"{n} is not in 0..={bound}"

end NumberError

def readDigits (negative : Bool) (value : Int) : List Char → Except NumberError Int
  | [] => .ok value
  | c :: rest =>
    if c.isDigit then
      let digit : Int := c.toNat - '0'.toNat
      let value := 10 * value + (if negative then -digit else digit)
      if 0x8000_0000_0000_0000 ≤ value then .error .tooLarge
      else if value < -0x8000_0000_0000_0000 then .error .tooSmall
      else readDigits negative value rest
    else
      .error .badDigit

def readInteger (text : List Char) : Except NumberError Int :=
  match text with
  | [] => .error .empty
  | '-' :: [] | '+' :: [] => .error .badDigit
  | '-' :: digits => readDigits true 0 digits
  | '+' :: digits => readDigits false 0 digits
  | digits => readDigits false 0 digits

def readWord32 (text : String) : Except NumberError UInt32 := do
  let n ← readInteger text.toList
  if 0 ≤ n ∧ n < 0x1_0000_0000 then
    .ok (UInt32.ofNat n.toNat)
  else
    .error (.outOfRange n (0xffff_ffff))

end SpiBridge.CommandLine
