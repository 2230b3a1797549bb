/-!
# Byte strings

Byte strings are lists of bytes.  This module holds the encoding of texts, the
little-endian form of sixteen-bit words and the hexadecimal form of bytes.
Main statement: the two directions of the little-endian form undo each other.
-/

namespace SpiBridge

abbrev Bytes := List UInt8

namespace Bytes

def ofText (text : String) : Bytes :=
  text.toList.flatMap String.utf8EncodeChar

/-- The two bytes of a word, the low byte first. -/
def ofWord (word : UInt16) : Bytes :=
  [word.toUInt8, UInt8.ofNat (word.toNat / 256)]

def toWord (low high : UInt8) : UInt16 :=
  UInt16.ofNat (low.toNat + 256 * high.toNat)

theorem toNat_toWord (low high : UInt8) :
    (toWord low high).toNat = low.toNat + 256 * high.toNat := by
  have hlow := low.toNat_lt
  have hhigh := high.toNat_lt
  simp only [toWord, UInt16.toNat_ofNat']
  omega

theorem toWord_ofWord (word : UInt16) :
    toWord word.toUInt8 (UInt8.ofNat (word.toNat / 256)) = word := by
  apply UInt16.toNat_inj.1
  have hword := word.toNat_lt
  simp only [toNat_toWord, UInt16.toNat_toUInt8, UInt8.toNat_ofNat']
  omega

theorem ofWord_toWord (low high : UInt8) : ofWord (toWord low high) = [low, high] := by
  have hlow := low.toNat_lt
  have hhigh := high.toNat_lt
  simp only [ofWord, toNat_toWord, List.cons.injEq, and_true]
  refine ⟨UInt8.toNat_inj.1 ?_, UInt8.toNat_inj.1 ?_⟩ <;>
    simp only [UInt16.toNat_toUInt8, UInt8.toNat_ofNat', toNat_toWord] <;> omega

end Bytes

def hexDigit (n : Nat) : Char :=
  if n < 10 then Char.ofNat ('0'.toNat + n) else Char.ofNat ('a'.toNat + (n - 10))

def hexDigits (byte : UInt8) : List Char :=
  [hexDigit (byte.toNat / 16), hexDigit (byte.toNat % 16)]

def hexByte (byte : UInt8) : String :=
  String.ofList (hexDigits byte)

end SpiBridge
