import Mathlib.Order.Bounds.Defs
import SpiBridge.Poll
import SpiBridge.Proofs.Deadline
/-!
# How long a wait lasts

A bridge waits for the poll interval, but not past its deadline.  The system takes the time in whole
milliseconds, as a word of 32 bits with a sign, and waits without end if the sign is negative.
Main statement: that word is computed without overflow from every duration, it is the least number
of milliseconds that is not below the duration unless the largest word cuts it off, and so a wait
ends neither early of its own accord nor a millisecond late.
-/

namespace SpiBridge

namespace Duration

/-! A duration consists of two words: its seconds, and what is left in nanoseconds. -/

def secondsWord (d : Duration) : UInt64 :=
  .ofNat d.seconds

def subsecondWord (d : Duration) : UInt32 :=
  .ofNat d.subsecondNanos

theorem toNat_secondsWord (d : Duration) : d.secondsWord.toNat = d.seconds := by
  have hnanos := d.nanos_lt
  refine UInt64.toNat_ofNat_of_lt' (show d.nanos / 1_000_000_000 < 2 ^ 64 from ?_)
  omega

theorem toNat_subsecondWord (d : Duration) : d.subsecondWord.toNat = d.subsecondNanos := by
  refine UInt32.toNat_ofNat_of_lt' (show d.nanos % 1_000_000_000 < 2 ^ 32 from ?_)
  omega

theorem nanos_eq (d : Duration) : d.nanos = d.seconds * 1_000_000_000 + d.subsecondNanos := by
  unfold seconds subsecondNanos
  omega

theorem nanos_shorter (a b : Duration) : (a.shorter b).nanos = min a.nanos b.nanos := by
  unfold shorter
  split
  case isTrue hle => exact (Nat.min_eq_left hle).symm
  case isFalse hle => exact (Nat.min_eq_right (Nat.le_of_not_le hle)).symm

end Duration

namespace Poll

def wide? (n : Nat) : Option (BitVec 128) :=
  if n < 0x1_0000_0000_0000_0000_0000_0000_0000_0000 then some (.ofNat 128 n) else none

/-- The lower 32 bits of a number that is cut off first. -/
def narrow (millis : BitVec 128) : Int32 :=
  .ofBitVec ((if millis.toNat ≤ maxMillis then millis else .ofNat 128 maxMillis).setWidth 32)

/-- The timeout that the system is given, computed word by word. -/
def timeoutWord? (timeout : Duration) : Option Int32 := do
  let thousands ← wide? (timeout.secondsWord.toNat * 1000)
  let whole ← wide? (thousands.toNat + (timeout.subsecondWord / 1_000_000).toNat)
  let millis ←
    if timeout.subsecondWord % 1_000_000 = 0 then some whole else wide? (whole.toNat + 1)
  return narrow millis

inductive Cause where
  | time
  | event
  | signal
  deriving DecidableEq

/-- How many nanoseconds a wait of so many milliseconds may last: all of them, or fewer if something
happens before.  The time does not end a wait whose number is negative. -/
inductive Lasts (millis : Int32) : Cause → Nat → Prop
  | time (hlimit : 0 ≤ millis.toInt) : Lasts millis .time (millis.toInt.toNat * 1_000_000)
  | event {nanos : Nat} (hlimit : 0 ≤ millis.toInt → nanos ≤ millis.toInt.toNat * 1_000_000) :
      Lasts millis .event nanos
  | signal {nanos : Nat} (hlimit : 0 ≤ millis.toInt → nanos ≤ millis.toInt.toNat * 1_000_000) :
      Lasts millis .signal nanos

/-- The least number of milliseconds that is not below a timeout, but for the cut. -/
def Rounds (timeout : Duration) (millis : Int) : Prop :=
  ∃ least, IsLeast {n : Int | (timeout.nanos : Int) ≤ n * 1_000_000} least ∧
    millis = min least 0x7fff_ffff

variable {timeout : Duration} {millis : Int32} {n nanos : Nat} {cause : Cause}

/-! ## Words -/

theorem exists_wide (h : n < 0x1_0000_0000_0000_0000_0000_0000_0000_0000) :
    ∃ word, wide? n = some word ∧ word.toNat = n := by
  refine ⟨.ofNat 128 n, if_pos h, ?_⟩
  rw [BitVec.toNat_ofNat, Nat.mod_eq_of_lt h]

theorem toInt_narrow (millis : BitVec 128) :
    (narrow millis).toInt = (min millis.toNat maxMillis : Nat) := by
  have hcut : (if millis.toNat ≤ maxMillis then millis else .ofNat 128 maxMillis).toNat =
      min millis.toNat maxMillis := by
    split
    · rw [Nat.min_eq_left ‹_›]
    · rw [Nat.min_eq_right (by omega)]
      rfl
  have hsmall : min millis.toNat maxMillis < 2 ^ 31 :=
    Nat.lt_of_le_of_lt (Nat.min_le_right _ _) (by decide)
  rw [narrow, Int32.toInt_ofBitVec, BitVec.toInt_eq_toNat_of_lt]
  · rw [BitVec.toNat_setWidth, hcut, Nat.mod_eq_of_lt (by omega)]
  · rw [BitVec.toNat_setWidth, hcut, Nat.mod_eq_of_lt (by omega)]
    omega

theorem exists_timeoutWord (timeout : Duration) :
    ∃ millis, timeoutWord? timeout = some millis ∧ millis.toInt = timeoutMillis timeout := by
  have hseconds := timeout.secondsWord.toNat_lt
  have hsub := timeout.subsecondWord.toNat_lt
  have hquotient : (timeout.subsecondWord / 1_000_000).toNat =
      timeout.subsecondWord.toNat / 1_000_000 := UInt32.toNat_div _ _
  have hrest : timeout.subsecondWord % 1_000_000 = 0 ↔
      timeout.subsecondWord.toNat % 1_000_000 = 0 := by
    rw [← UInt32.toNat_inj, UInt32.toNat_mod]
    rfl
  have hparts := timeout.nanos_eq
  rw [← Duration.toNat_secondsWord, ← Duration.toNat_subsecondWord] at hparts
  obtain ⟨thousands, hthousands, hthousands'⟩ :=
    exists_wide (n := timeout.secondsWord.toNat * 1000) (by omega)
  obtain ⟨whole, hwhole, hwhole'⟩ :=
    exists_wide (n := thousands.toNat + (timeout.subsecondWord / 1_000_000).toNat) (by omega)
  obtain ⟨above, habove, habove'⟩ := exists_wide (n := whole.toNat + 1) (by omega)
  simp only [timeoutWord?, hthousands, hwhole, habove, Option.bind_eq_bind, Option.bind_some]
  split
  case isTrue hzero =>
    rw [hrest] at hzero
    have hceil : timeout.ceilMillis = whole.toNat := by
      unfold Duration.ceilMillis
      omega
    exact ⟨_, rfl, by rw [toInt_narrow, timeoutMillis, hceil]⟩
  case isFalse hzero =>
    rw [hrest] at hzero
    have hceil : timeout.ceilMillis = above.toNat := by
      unfold Duration.ceilMillis
      omega
    exact ⟨_, rfl, by rw [toInt_narrow, timeoutMillis, hceil]⟩

/-! ## Milliseconds -/

theorem rounds_timeoutMillis (timeout : Duration) : Rounds timeout (timeoutMillis timeout) := by
  refine ⟨timeout.ceilMillis, ⟨?_, fun n hn => ?_⟩, ?_⟩
  · have hleast := (ceilMillis_le_iff timeout timeout.ceilMillis).1 (Nat.le_refl _)
    show (timeout.nanos : Int) ≤ timeout.ceilMillis * 1_000_000
    omega
  · have habove : (timeout.nanos : Int) ≤ n * 1_000_000 := hn
    have hleast := (ceilMillis_le_iff timeout n.toNat).2 (by omega)
    omega
  · unfold timeoutMillis maxMillis
    omega

theorem timeoutMillis_mul_lt (timeout : Duration) :
    timeoutMillis timeout * 1_000_000 < timeout.nanos + 1_000_000 := by
  unfold timeoutMillis Duration.ceilMillis
  omega

theorem timeoutMillis_eq_of_lt (h : timeoutMillis timeout * 1_000_000 < timeout.nanos) :
    timeoutMillis timeout = maxMillis := by
  unfold timeoutMillis Duration.ceilMillis at *
  omega

theorem timeoutMillis_eq_zero_iff : timeoutMillis timeout = 0 ↔ timeout.nanos = 0 := by
  unfold timeoutMillis Duration.ceilMillis maxMillis
  omega

theorem Lasts.le (h : Lasts millis cause nanos) (hsign : 0 ≤ millis.toInt) :
    nanos ≤ millis.toInt.toNat * 1_000_000 := by
  cases h with
  | time => exact Nat.le_refl _
  | event hlimit => exact hlimit hsign
  | signal hlimit => exact hlimit hsign

theorem Lasts.within (h : Lasts millis cause nanos)
    (hmillis : millis.toInt = timeoutMillis timeout) :
    nanos < timeout.nanos + 1_000_000 ∧
      (nanos < timeout.nanos → cause = .event ∨ cause = .signal ∨ millis.toInt = maxMillis) := by
  have hword : millis.toInt.toNat = timeoutMillis timeout := by rw [hmillis, Int.toNat_natCast]
  have hle := h.le (by omega)
  have hless := timeoutMillis_mul_lt timeout
  rw [hword] at hle
  refine ⟨by omega, fun hearly => ?_⟩
  cases h with
  | time =>
    rw [hword] at hearly
    rw [hmillis, timeoutMillis_eq_of_lt hearly]
    exact .inr (.inr rfl)
  | event => exact .inl rfl
  | signal => exact .inr (.inl rfl)

end Poll

namespace Bridge

variable {b : Bridge} {line : Line} {now deadline : Instant} {watched : Bool} {timeout : Duration}

theorem waitTime_of_wait (h : b.wait line now = .poll watched timeout) :
    timeout = b.waitTime now := by
  unfold wait at h
  split at h <;> cases h
  rfl

theorem waitTime_of_none (h : b.transaction.deadline = none) (now : Instant) :
    b.waitTime now = b.timing.poll := by
  unfold waitTime
  rw [h]

theorem waitTime_of_deadline (h : deadline ∈ b.transaction.deadline) (now : Instant) :
    (b.waitTime now).nanos = min b.timing.poll.nanos (deadline.nanos - now.nanos) := by
  unfold waitTime
  rw [Option.mem_def.1 h]
  exact Duration.nanos_shorter _ _

theorem waitTime_le_poll (b : Bridge) (now : Instant) :
    (b.waitTime now).nanos ≤ b.timing.poll.nanos := by
  cases hdeadline : b.transaction.deadline with
  | none => exact Nat.le_of_eq (congrArg Duration.nanos (waitTime_of_none hdeadline now))
  | some deadline =>
    rw [waitTime_of_deadline hdeadline]
    exact Nat.min_le_left _ _

theorem nanos_of_wait (h : b.wait line now = .poll watched timeout)
    (hdeadline : deadline ∈ b.transaction.deadline) :
    (timeout.nanos : Int) =
      min (b.timing.poll.nanos : Int) (max 0 ((deadline.nanos : Int) - now.nanos)) := by
  rw [waitTime_of_wait h, waitTime_of_deadline hdeadline]
  omega

/-- A wait keeps within both bounds.  Its timeout is the poll interval, or the time to the deadline
if that is less and not negative.  The number of milliseconds is computed from every duration
without overflow, is not negative, and is the least that is not below the duration, cut off at
2^31 - 1; it is zero only for a timeout of zero.  So a wait is over early only if something happened
or the number was cut off, and neither the poll interval nor the deadline passes by a whole
millisecond before it is over. -/
theorem wait_within_bounds (h : b.wait line now = .poll watched timeout) :
    ((b.transaction.deadline = none → timeout = b.timing.poll) ∧
      ∀ deadline ∈ b.transaction.deadline, (timeout.nanos : Int) =
        min (b.timing.poll.nanos : Int) (max 0 ((deadline.nanos : Int) - now.nanos))) ∧
      (∀ d : Duration, ∃ millis, Poll.timeoutWord? d = some millis ∧ 0 ≤ millis.toInt ∧
        millis.toInt = Poll.timeoutMillis d ∧ Poll.Rounds d millis.toInt) ∧
      (∀ millis, Poll.timeoutWord? timeout = some millis →
        (millis.toInt = 0 ↔ timeout.nanos = 0) ∧
          ∀ cause nanos, Poll.Lasts millis cause nanos →
            (nanos < timeout.nanos →
              cause = .event ∨ cause = .signal ∨ millis.toInt = 0x7fff_ffff) ∧
              nanos < timeout.nanos + 1_000_000 ∧
              nanos < b.timing.poll.nanos + 1_000_000 ∧
              ∀ deadline ∈ b.transaction.deadline,
                now.nanos + nanos < max now.nanos deadline.nanos + 1_000_000) := by
  have hplan := waitTime_of_wait h
  refine ⟨⟨fun hnone => ?_, fun deadline => nanos_of_wait h⟩, fun d => ?_, fun millis hmillis => ?_⟩
  · rw [hplan, waitTime_of_none hnone]
  · obtain ⟨millis, hword, hint⟩ := Poll.exists_timeoutWord d
    exact ⟨millis, hword, by omega, hint, hint ▸ Poll.rounds_timeoutMillis d⟩
  · obtain ⟨_, hword, hint⟩ := Poll.exists_timeoutWord timeout
    obtain rfl := Option.some.inj (hmillis.symm.trans hword)
    have hzero : Poll.timeoutMillis timeout = 0 ↔ timeout.nanos = 0 :=
      Poll.timeoutMillis_eq_zero_iff
    refine ⟨by omega, fun cause nanos hlasts => ?_⟩
    obtain ⟨hlate, hearly⟩ := hlasts.within hint
    have hpoll := waitTime_le_poll b now
    rw [← hplan] at hpoll
    refine ⟨hearly, hlate, by omega, fun deadline hdeadline => ?_⟩
    have hnanos := nanos_of_wait h hdeadline
    omega

/-- An answer is due half a millisecond from now, and the wait for it takes a whole one. -/
theorem wait_within_bounds_of_overdue :
    ∃ b millis, b = (atRest (.ofRooms 64 64)).after ((overdue [0]).take 2) ∧
      b.wait {} ⟨1_999_500_000, by decide⟩ = .poll false (.ofNanos 500_000) ∧
      Poll.timeoutWord? (.ofNanos 500_000) = some millis ∧ millis.toInt = 1 ∧
      ∀ nanos, Poll.Lasts millis .time nanos →
        500_000 ≤ nanos ∧ nanos < b.timing.poll.nanos + 1_000_000 := by
  have hwait : ((atRest (.ofRooms 64 64)).after ((overdue [0]).take 2)).wait {}
      ⟨1_999_500_000, by decide⟩ = .poll false (.ofNanos 500_000) := by
    decide +kernel
  obtain ⟨-, hwords, htime⟩ := wait_within_bounds hwait
  obtain ⟨millis, hword, -, hint, -⟩ := hwords (.ofNanos 500_000)
  have hone : Poll.timeoutMillis (.ofNanos 500_000) = 1 := by decide +kernel
  rw [hone] at hint
  refine ⟨_, millis, rfl, hwait, hword, hint, fun nanos hlasts => ?_⟩
  obtain ⟨hearly, -, hpoll, -⟩ := (htime millis hword).2 .time nanos hlasts
  refine ⟨Nat.le_of_not_lt fun hless => ?_, hpoll⟩
  rcases hearly hless with hcause | hcause | hcut
  · cases hcause
  · cases hcause
  · rw [hint] at hcut
    cases hcut

end Bridge

end SpiBridge
