/-!
# Plain texts

A message goes to a terminal, and a text that came from outside must not steer
the terminal.  This module takes control characters and whole control sequences
out of a text; blanks stay, and so does everything that can be seen.  A blank
may stand inside of a sequence: in a text that is kept it ends the sequence, and
in a text that is written it only interrupts it.
-/

namespace SpiBridge.Text

def isBlankControl (c : Char) : Bool :=
  c = '\t' || c = '\n' || c = '\x0c' || c = '\r'

def isHarmless (c : Char) : Bool :=
  isBlankControl c || (0x20 ≤ c.toNat && c ≠ '\x7f')

/-- Where a text stands between two characters. -/
inductive Steering where
  | none
  | started
  | short
  | parameters
  | title
  | device
  | deviceParameters
  | deviceClass
  | message
  deriving DecidableEq, Repr

namespace Steering

def escape : Char := '\x1b'

def terminator : UInt8 := 0x9c

def isCancel (c : Char) : Bool :=
  c = '\x18' || c = '\x1a'

def isDeaf : Steering → Bool
  | none | started | short | parameters => false
  | title | device | deviceParameters | deviceClass | message => true

def ofFirst (c : Char) : Steering :=
  if c = '[' then parameters
  else if c = ']' then title
  else if c = 'P' then device
  else if c = 'X' ∨ c = '^' ∨ c = '_' then message
  else if 0x20 ≤ c.toNat ∧ c.toNat ≤ 0x2f then short
  else if c.toNat < 0x20 ∨ c = '\x7f' then started
  else none

/-- Where the text stands behind one more character in front of a device command's text.  What
is not well formed is text as well. -/
def afterDevice (s : Steering) (c : Char) : Steering :=
  if c.toNat < 0x20 ∨ c = '\x7f' then s
  else if 0x40 ≤ c.toNat then message
  else if c.toNat < 0x30 then deviceClass
  else if s = device ∨ (s = deviceParameters ∧ c.toNat < 0x3c) then deviceParameters
  else message

def afterByte (s : Steering) (c : Char) : Steering :=
  if c = escape then started
  else if isCancel c then none
  else match s with
    | none => none
    | started => ofFirst c
    | short => if 0x30 ≤ c.toNat ∧ c ≠ '\x7f' then none else short
    | parameters => if 0x40 ≤ c.toNat ∧ c ≠ '\x7f' then none else parameters
    | title => if c = '\x07' then none else title
    | device | deviceParameters | deviceClass => s.afterDevice c
    | message => message

/-- Where the text stands behind one more character.  A longer character means nothing to a
sequence, unless one of its bytes happens to be the terminator. -/
def after (s : Steering) (c : Char) : Steering :=
  if c.toNat < 0x80 then s.afterByte c
  else if s = message ∧ terminator ∈ String.utf8EncodeChar c then none
  else s

def keeps (s : Steering) (c : Char) : Bool :=
  isHarmless c && (s = none || (isBlankControl c && !s.isDeaf))

/-- Where a written text stands behind a character that is shown.  The sequence in front of it
goes on later, unless the character is a longer one. -/
def interrupted (s : Steering) (c : Char) : Steering :=
  if c.toNat < 0x80 then s else none

/-- What is left of a text.  Behind a character that stays all stay that are harmless, up to
the first that is not; `behind` says where the text stands meanwhile. -/
def strip (behind : Steering → Char → Steering) (s : Steering) (shown : Bool) :
    List Char → List Char
  | [] => []
  | c :: rest =>
    if (shown && isHarmless c) || s.keeps c then
      c :: strip behind (behind s c) true rest
    else
      strip behind (s.after c) false rest

end Steering

/-- A text that is kept, without what would steer a terminal. -/
def plain (text : String) : String :=
  String.ofList (Steering.strip (fun _ _ => .none) .none false text.toList)

/-- A text as it is written, without what would steer a terminal. -/
def written (text : String) : String :=
  String.ofList (Steering.strip Steering.interrupted .none false text.toList)

def styleOn (style : String) : String :=
  s!"\x1b[{style}m"

def styled (styles : List String) (text : String) : String :=
  String.join (styles.map styleOn) ++ text ++ styleOn "0"

end SpiBridge.Text
