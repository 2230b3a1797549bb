/-!
# Durations and instants

A duration counts nanoseconds and stays below 2^64 seconds; an instant counts
nanoseconds since the clock's start and stays below 2^63 seconds.  So adding a
duration to an instant may leave the clock's range, and the sum is partial.
-/

namespace SpiBridge

structure Duration where
  nanos : Nat
  nanos_lt : nanos < 0x1_0000_0000_0000_0000 * 1_000_000_000
  deriving DecidableEq

namespace Duration

def zero : Duration := ⟨0, by decide⟩

instance : Inhabited Duration := ⟨zero⟩

def ofSeconds (seconds : UInt64) : Duration :=
  ⟨seconds.toNat * 1_000_000_000, by have := seconds.toNat_lt; omega⟩

def ofMillis (millis : UInt64) : Duration :=
  ⟨millis.toNat * 1_000_000, by have := millis.toNat_lt; omega⟩

def ofNanos (nanos : Nat) : Duration :=
  ⟨min nanos (0x1_0000_0000_0000_0000 * 1_000_000_000 - 1), by omega⟩

/-- A number of minutes, cut off at the largest whole number of seconds. -/
def ofMinutes (minutes : UInt64) : Duration :=
  ⟨min (60 * minutes.toNat) (0x1_0000_0000_0000_0000 - 1) * 1_000_000_000, by omega⟩

def seconds (d : Duration) : Nat :=
  d.nanos / 1_000_000_000

def subsecondNanos (d : Duration) : Nat :=
  d.nanos % 1_000_000_000

def shorter (a b : Duration) : Duration :=
  if a.nanos ≤ b.nanos then a else b

def ceilMillis (d : Duration) : Nat :=
  (d.nanos + (1_000_000 - 1)) / 1_000_000

/-- The digits behind the point, of a fraction with `width` places: no trailing zeros. -/
def fractionDigits (width fraction : Nat) : List Char :=
  let digits := Nat.toDigits 10 fraction
  let padded := List.replicate (width - digits.length) '0' ++ digits
  (padded.reverse.dropWhile (· == '0')).reverse

def amountText (amount width : Nat) : String :=
  let whole := toString (amount / Nat.pow 10 width)
  match fractionDigits width (amount % Nat.pow 10 width) with
  | [] => whole
  | digits => whole ++ "." ++ String.ofList digits

def text (d : Duration) : String :=
  if 1_000_000_000 ≤ d.nanos then amountText d.nanos 9 ++ "s"
  else if 1_000_000 ≤ d.nanos then amountText d.nanos 6 ++ "ms"
  else if 1_000 ≤ d.nanos then amountText d.nanos 3 ++ "µs"
  else toString d.nanos ++ "ns"

end Duration

/-- A reading of the clock, in nanoseconds since its start. -/
structure Instant where
  nanos : Nat
  nanos_lt : nanos < 0x8000_0000_0000_0000 * 1_000_000_000
  deriving DecidableEq

namespace Instant

def start : Instant := ⟨0, by decide⟩

instance : Inhabited Instant := ⟨start⟩

/-- The instant a duration later, if the clock reaches it. -/
def after? (t : Instant) (d : Duration) : Option Instant :=
  if h : t.nanos + d.nanos < 0x8000_0000_0000_0000 * 1_000_000_000 then
    some ⟨t.nanos + d.nanos, h⟩
  else none

theorem nanos_of_after? {t u : Instant} {d : Duration} (h : t.after? d = some u) :
    u.nanos = t.nanos + d.nanos := by
  unfold after? at h
  split at h <;> cases h
  rfl

def untilTime (t later : Instant) : Duration :=
  ⟨later.nanos - t.nanos, by have := later.nanos_lt; omega⟩

def sinceStart (t : Instant) : Duration :=
  ⟨t.nanos, by have := t.nanos_lt; omega⟩

def reachedBy (deadline now : Instant) : Bool :=
  decide (deadline.nanos ≤ now.nanos)

theorem reachedBy_iff {deadline now : Instant} :
    deadline.reachedBy now = true ↔ deadline.nanos ≤ now.nanos := by
  simp [reachedBy]

end Instant

end SpiBridge
