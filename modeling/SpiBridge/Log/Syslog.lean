import SpiBridge.Bytes
import SpiBridge.Log.Record
/-!
# The system log

The system log takes one message at a time, without line ends and without NULs.
A record that was written in pieces is submitted as one message for each of its
lines that is not empty.
-/

namespace SpiBridge.Log.Syslog

def lineFeed : UInt8 := 0x0a

def carriageReturn : UInt8 := 0x0d

def splitLines : Bytes → List Bytes
  | [] => [[]]
  | byte :: rest =>
    if byte = lineFeed then [] :: splitLines rest
    else match splitLines rest with
      | [] => [[byte]]
      | line :: lines => (byte :: line) :: lines

/-- A line without the one carriage return at its end. -/
def stripReturn (line : Bytes) : Bytes :=
  if line.getLast? = some carriageReturn then line.dropLast else line

/-- The messages of a record: its lines that are not empty, without their NULs. -/
def messages (record : Bytes) : List Bytes :=
  (((splitLines record).map stripReturn).filter (· ≠ [])).map (·.filter (· ≠ 0))

def priorityOf (level : Option Level) : Nat :=
  (level.getD .info).priority

/-- What a record written in pieces submits: messages with their priority. -/
def submit (level : Option Level) (pieces : List Bytes) : List (Nat × Bytes) :=
  (messages pieces.flatten).map (priorityOf level, ·)

def submitRecord (r : Record) : List (Nat × Bytes) :=
  submit (some r.level) [.ofText r.alignedLine, [lineFeed]]

theorem splitLines_ne_nil (text : Bytes) : splitLines text ≠ [] := by
  cases text with
  | nil => simp [splitLines]
  | cons byte rest =>
    simp only [splitLines]
    split
    · simp
    · split <;> simp

theorem intercalate_splitLines (text : Bytes) :
    [lineFeed].intercalate (splitLines text) = text := by
  induction text with
  | nil => rfl
  | cons byte rest ih =>
    simp only [splitLines]
    split
    · rename_i h
      subst h
      cases hrest : splitLines rest with
      | nil => exact absurd hrest (splitLines_ne_nil rest)
      | cons line lines => simpa [List.intercalate, hrest] using ih
    · cases hrest : splitLines rest with
      | nil => exact absurd hrest (splitLines_ne_nil rest)
      | cons line lines =>
        rw [hrest] at ih
        cases lines <;> simpa [List.intercalate] using ih

end SpiBridge.Log.Syslog
