import SpiBridge.Proofs.Isolation
/-!
# The counts and what they count

A bridge counts the transactions that it completed and those that it gave up, and every
transaction that it begins ends in one of few ways.  Main statements: each count is the
number of the outcomes that it is for, what was begun is what has ended and what still runs,
each transaction ends once, and its end leaves nothing of it behind.
-/

namespace SpiBridge

def Tally.counting (t : Tally) : Except Fault Outcome → Tally
  | .ok (.completed origin) => t.completed origin
  | .ok (.aborted error) => t.aborted error
  | .ok .continues | .ok .stop | .error _ => t

def Tally.total (t : Tally) : Nat :=
  t.slave + t.master + t.framingErrors + t.timeouts

namespace Move

def isCompletion (origin : Sync.Origin) (m : Move) : Bool :=
  match m.outcome with
  | .ok (.completed side) => side == origin
  | _ => false

def isBreach (m : Move) : Bool :=
  match m.outcome with
  | .ok (.aborted (.framing _)) => true
  | _ => false

def isLapse (m : Move) : Bool :=
  match m.outcome with
  | .ok (.aborted (.timeout _)) => true
  | _ => false

def isDeparture (m : Move) : Bool :=
  match m.outcome with
  | .ok .stop => true
  | _ => false

/-- The step ended its transaction, in whatever way. -/
def isEnd (m : Move) : Bool :=
  match m.outcome with
  | .ok .continues | .error _ => false
  | .ok _ => true

end Move

/-- Nothing of a transaction is there: no byte, no request and no deadline. -/
structure Transaction.Vacant (t : Transaction) : Prop where
  phase : t.phase = .idle
  initiator : t.initiator = none
  request : t.request = none
  deadline : t.deadline = none
  decoder : t.decoder.pending = false
  frame : t.frame.filled = [] ∧ t.frame.cursor = 0
  wire : t.wire.filled = [] ∧ t.wire.cursor = 0

theorem Transaction.vacant_reset (t : Transaction) : t.reset.Vacant :=
  ⟨rfl, rfl, rfl, rfl, rfl, ⟨rfl, rfl⟩, rfl, rfl⟩

def Bridge.running (b : Bridge) : Nat :=
  if b.transaction.phase = .idle then 0 else 1

/-- The counts of a bridge say what its steps came to, and what they began has ended, or is the
one that runs. -/
structure Bridge.Accounts (moves : List Move) (b : Bridge) : Prop where
  slave : b.tally.slave = moves.countP (Move.isCompletion .slave)
  master : b.tally.master = moves.countP (Move.isCompletion .master)
  framingErrors : b.tally.framingErrors = moves.countP Move.isBreach
  timeouts : b.tally.timeouts = moves.countP Move.isLapse
  total_le : b.tally.total ≤ moves.length
  begun : moves.countP (·.begins?.isSome) =
    moves.countP (Move.isCompletion .slave) + moves.countP (Move.isCompletion .master) +
      (moves.countP Move.isBreach + moves.countP Move.isLapse) +
      moves.countP Move.isDeparture + b.running

namespace Turn

variable {readiness : Readiness} {now : Instant} {s s' : Scene} {phase : Phase}

theorem tally_of_ok {outcome : Outcome} (hend : EndingOf readiness now s phase (.ok outcome s')) :
    s'.bridge.tally = s.bridge.tally.counting (.ok outcome) := by
  cases phase with
  | slaveAwaitingHostAnswer =>
    generalize hr : (EStateM.Result.ok outcome s' : Ending) = r at hend
    cases hend with
    | unready | blocked | incomplete =>
      obtain ⟨rfl, rfl⟩ := eq_of_lapse hr.symm
      rfl
    | complete =>
      cases hr
      rfl
    | _ => cases hr
  | _ => cases hend <;> rfl

theorem tally_of_error {e : Setback} (hend : EndingOf readiness now s phase (.error e s')) :
    s'.bridge.tally = s.bridge.tally := by
  generalize hr : (EStateM.Result.error e s' : Ending) = r at hend
  have hleft : s' = sceneOf r := by
    rw [← hr]
    rfl
  rw [hleft]
  cases phase with
  | slaveAwaitingHostAnswer =>
    cases hend with
    | unready | blocked | incomplete => exact congrArg (·.bridge.tally) (sceneOf_lapse _ _)
    | _ => rfl
  | _ => cases hend <;> first | rfl | cases hr

end Turn

namespace Bridge

variable {b : Bridge} {e : Encounter} {es : List Encounter} {m : Move}

theorem tally_of_move (b : Bridge) (e : Encounter) :
    (b.move e).after.tally = b.tally.counting (b.move e).outcome := by
  have hmoves := moves_move b e
  generalize b.move e = m at hmoves ⊢
  cases hmoves with
  | unsampled => rfl
  | done hsample hend => exact Turn.tally_of_ok hend
  | @aborted level line error s hsample hend =>
    exact congrArg (·.aborted error) (Turn.tally_of_error hend)
  | failed hsample hend => exact Turn.tally_of_error hend

theorem isEnd_of_idle (hphase : b.transaction.phase = .idle) : (b.move e).isEnd = false := by
  rcases hsample : e.wiring.line.sample with ⟨error | level, line⟩
  · rw [move_of_unsampled hsample]
    rfl
  · rw [Move.isEnd, (move_of_idle hphase hsample).1]

theorem phase_ne_of_not_isEnd (hphase : b.transaction.phase ≠ .idle)
    (hend : (b.move e).isEnd = false) : (b.move e).after.transaction.phase ≠ .idle := by
  have hmoves := moves_move b e
  generalize b.move e = m at hmoves hend ⊢
  cases hmoves with
  | unsampled => exact hphase
  | @done level line outcome s hsample hturn =>
    have hleads := Turn.leads_of_ending (s := e.scene b level line) rfl hturn
    cases outcome with
    | continues =>
      intro hidle
      have hnext : s.bridge.transaction.phase ∈ b.transaction.phase.continuations := hleads
      rw [show s.bridge.transaction.phase = .idle from hidle] at hnext
      revert hphase hnext
      cases b.transaction.phase <;> simp [Phase.continuations]
    | _ => cases hend
  | aborted => cases hend
  | failed hsample hturn =>
    have hsame := Turn.phase_of_error hturn
    rw [hsame]
    exact hphase

theorem idle_of_isEnd (h : (b.move e).isEnd = true) :
    (b.move e).after.transaction.phase = .idle := by
  rcases houtcome : (b.move e).outcome with fault | outcome <;> rw [Move.isEnd, houtcome] at h
  · cases h
  · refine idle_of_move houtcome ?_
    rintro rfl
    cases h

theorem begins_iff_of_idle (hphase : b.transaction.phase = .idle) :
    (b.move e).begins?.isSome = true ↔ (b.move e).after.transaction.phase ≠ .idle := by
  have hfollows := follows_of_move b e
  have hbegins : (b.move e).begins? =
      Phase.begins? .idle (b.move e).after.transaction.phase := congrArg (Phase.begins? · _) hphase
  rw [hbegins]
  rw [hphase] at hfollows
  cases hafter : (b.move e).after.transaction.phase <;> rw [hafter] at hfollows <;>
    simp_all [Phase.begins?, Phase.Follows, Phase.continuations]

theorem running_of_move (b : Bridge) (e : Encounter) :
    b.running + (b.move e).begins?.isSome.toNat =
      (b.move e).isEnd.toNat + (b.move e).after.running := by
  unfold running
  by_cases hphase : b.transaction.phase = .idle
  · have hbegins := begins_iff_of_idle (e := e) hphase
    rw [if_pos hphase, isEnd_of_idle hphase]
    by_cases hafter : (b.move e).after.transaction.phase = .idle
    · have hnone : (b.move e).begins?.isSome = false :=
        Bool.eq_false_iff.2 fun hsome => hbegins.1 hsome hafter
      simp [hafter, hnone]
    · simp [hafter, hbegins.2 hafter]
  · rw [if_neg hphase, begins_of_running hphase]
    cases hend : (b.move e).isEnd with
    | true => simp [idle_of_isEnd hend]
    | false => simp [phase_ne_of_not_isEnd hphase hend]

theorem vacant_of_isEnd (h : (b.move e).isEnd = true) : (b.move e).after.transaction.Vacant := by
  have hidle := idle_of_isEnd h
  have hphase : b.transaction.phase ≠ .idle := by
    intro hphase
    rw [isEnd_of_idle hphase] at h
    cases h
  have hmoves := moves_move b e
  generalize b.move e = m at hmoves h hidle ⊢
  cases hmoves with
  | unsampled | failed => cases h
  | @done level line outcome s hsample hend =>
    rcases Turn.reset_of_ending (s := e.scene b level line) rfl hend hidle with hsame | ⟨t, hreset⟩
    · have hstill : s.bridge.transaction.phase = b.transaction.phase :=
        congrArg Transaction.phase hsame
      exact absurd (hstill.symm.trans hidle) hphase
    · have hvacant : s.bridge.transaction = t.reset := hreset
      exact hvacant ▸ t.vacant_reset
  | aborted => exact Transaction.vacant_reset _

end Bridge

/-! ## Courses -/

namespace Move

theorem isEnd_eq (m : Move) :
    m.isEnd.toNat = (m.isCompletion .slave).toNat + (m.isCompletion .master).toNat +
      (m.isBreach.toNat + m.isLapse.toNat) + m.isDeparture.toNat := by
  unfold isEnd isCompletion isBreach isLapse isDeparture
  rcases m.outcome with _ | _ | (_ | _) | (_ | _) | _ <;> rfl

theorem countP_cons (p : Move → Bool) (m : Move) (moves : List Move) :
    (m :: moves).countP p = moves.countP p + (p m).toNat := by
  rw [List.countP_cons]
  cases p m <;> rfl

theorem countP_isEnd (moves : List Move) :
    moves.countP isEnd =
      moves.countP (isCompletion .slave) + moves.countP (isCompletion .master) +
        (moves.countP isBreach + moves.countP isLapse) + moves.countP isDeparture := by
  induction moves with
  | nil => rfl
  | cons m moves ih =>
    have hm := m.isEnd_eq
    simp only [countP_cons]
    omega

def GoesOn (m : Move) : Prop :=
  m.begins? = none ∧ m.isEnd = false

end Move

theorem Tally.counting_eq (t : Tally) (m : Move) :
    t.counting m.outcome =
      ⟨t.slave + (m.isCompletion .slave).toNat, t.master + (m.isCompletion .master).toNat,
        t.framingErrors + m.isBreach.toNat, t.timeouts + m.isLapse.toNat⟩ := by
  unfold Move.isCompletion Move.isBreach Move.isLapse
  rcases m.outcome with _ | _ | (_ | _) | (_ | _) | _ <;> rfl

namespace Bridge

variable {b : Bridge} {es : List Encounter} {m : Move}

/-- The transaction that runs before some steps ends with one of them, or still runs after them. -/
def EndsOnce (moves : List Move) (b : Bridge) : Prop :=
  ((∀ m ∈ moves, m.GoesOn) ∧ b.running = 1) ∨
    ∃ middle last rest, moves = middle ++ last :: rest ∧ (∀ m ∈ middle, m.GoesOn) ∧
      last.begins? = none ∧ last.isEnd = true

theorem tally_after (b : Bridge) (es : List Encounter) :
    (b.after es).tally =
      ⟨b.tally.slave + (b.course es).countP (Move.isCompletion .slave),
        b.tally.master + (b.course es).countP (Move.isCompletion .master),
        b.tally.framingErrors + (b.course es).countP Move.isBreach,
        b.tally.timeouts + (b.course es).countP Move.isLapse⟩ := by
  induction es generalizing b with
  | nil => rfl
  | cons e es ih =>
    have hafter : b.after (e :: es) = ((b.move e).after).after es := rfl
    rw [hafter, ih, tally_of_move, Tally.counting_eq, course]
    simp only [Move.countP_cons, Tally.mk.injEq]
    omega

theorem running_after (b : Bridge) (es : List Encounter) :
    b.running + (b.course es).countP (·.begins?.isSome) =
      (b.course es).countP Move.isEnd + (b.after es).running := by
  induction es generalizing b with
  | nil => simp [course, after]
  | cons e es ih =>
    have hstep := running_of_move b e
    have hrest := ih (b.move e).after
    have hafter : b.after (e :: es) = ((b.move e).after).after es := rfl
    rw [hafter, course]
    simp only [Move.countP_cons]
    omega

theorem length_course (b : Bridge) (es : List Encounter) : (b.course es).length = es.length := by
  induction es generalizing b with
  | nil => rfl
  | cons e es ih => rw [course, List.length_cons, List.length_cons, ih]

theorem after_append (b : Bridge) (es₁ es₂ : List Encounter) :
    b.after (es₁ ++ es₂) = (b.after es₁).after es₂ :=
  List.foldl_append

theorem accounts_after (hphase : b.transaction.phase = .idle) (htally : b.tally = {})
    (es : List Encounter) : (b.after es).Accounts (b.course es) := by
  have hcounts := tally_after b es
  have hbalance := running_after b es
  have hends := Move.countP_isEnd (b.course es)
  have hlimit := List.countP_le_length (p := Move.isEnd) (l := b.course es)
  rw [running, if_pos hphase] at hbalance
  simp only [htally, Nat.zero_add] at hcounts
  refine ⟨by rw [hcounts], by rw [hcounts], by rw [hcounts], by rw [hcounts], ?_, by omega⟩
  rw [hcounts, Tally.total]
  simp only
  omega

theorem endsOnce_of_running (hphase : b.transaction.phase ≠ .idle) (es : List Encounter) :
    (b.after es).EndsOnce (b.course es) := by
  induction es generalizing b with
  | nil => exact .inl ⟨by simp [course], if_neg hphase⟩
  | cons e es ih =>
    have hnone := begins_of_running (e := e) hphase
    cases hend : (b.move e).isEnd with
    | true => exact .inr ⟨[], _, _, rfl, by simp, hnone, hend⟩
    | false =>
      have hfirst : ∀ moves : List Move, (∀ m ∈ moves, m.GoesOn) →
          ∀ m ∈ b.move e :: moves, m.GoesOn :=
        fun moves hmoves => List.forall_mem_cons.2 ⟨⟨hnone, hend⟩, hmoves⟩
      rcases ih (phase_ne_of_not_isEnd hphase hend) with ⟨hcalm, hruns⟩ |
        ⟨middle, last, rest, hcourse, hcalm, hlast⟩
      · exact .inl ⟨hfirst _ hcalm, hruns⟩
      · exact .inr ⟨b.move e :: middle, last, rest, by rw [course, hcourse]; rfl,
          hfirst _ hcalm, hlast⟩

/-- Whatever a bridge meets after its start, in fewer than 2^64 steps: its counts say how many
transactions came to which end and stay within 64 bits, what it began is what has ended and what
runs, each transaction ends once unless it is the one that runs, and its end leaves an empty
transaction. -/
theorem accounts_of_start {transaction : Transaction} {timing : Timing} {wiring : Wiring}
    (hstart : (start transaction timing wiring).1 = .ok b) (es : List Encounter)
    (hshort : es.length < 0x1_0000_0000_0000_0000) :
    (b.after es).Accounts (b.course es) ∧ (b.after es).tally.total < 0x1_0000_0000_0000_0000 ∧
    (∀ front m back, b.course es = front ++ m :: back → m.begins?.isSome = true →
      (b.after es).EndsOnce back) ∧
    ∀ m ∈ b.course es, m.isEnd = true → m.after.transaction.Vacant := by
  obtain ⟨level, rfl⟩ := start_eq_ok hstart
  have haccounts := accounts_after (b := ⟨transaction.reset, {}, ⟨level, false⟩, timing, {}⟩)
    rfl rfl es
  have htotal := haccounts.total_le
  rw [length_course] at htotal
  refine ⟨haccounts, Nat.lt_of_le_of_lt htotal hshort, ?_, ?_⟩
  · intro front m back hcourse hbegins
    obtain ⟨es₁, es₂, rfl, -, hback⟩ := exists_of_course_eq_append hcourse
    cases es₂ with
    | nil => cases hback
    | cons e es₂ =>
      obtain ⟨rfl, rfl⟩ := List.cons.inj hback
      obtain ⟨origin, horigin⟩ := Option.isSome_iff_exists.1 hbegins
      have hruns := (begins_iff_of_idle (phase_of_begins horigin)).1 hbegins
      rw [after_append]
      exact endsOnce_of_running hruns es₂
  · intro m hm hend
    obtain ⟨c, e, rfl⟩ := exists_move_of_mem hm
    exact vacant_of_isEnd hend

/-- A write of the slave, a command that is none, and a host that leaves and comes back. -/
theorem accounts_of_start_of_four :
    ∃ es b', (atRest (.ofRooms 64 64)).after es = b' ∧
      b'.Accounts ((atRest (.ofRooms 64 64)).course es) ∧
      b'.tally.total < 0x1_0000_0000_0000_0000 ∧
      (∀ front m back, (atRest (.ofRooms 64 64)).course es = front ++ m :: back →
        m.begins?.isSome = true → b'.EndsOnce back) ∧
      (∀ m ∈ (atRest (.ofRooms 64 64)).course es, m.isEnd = true →
        m.after.transaction.Vacant) ∧
      b'.tally = ⟨1, 0, 1, 0⟩ ∧
      ((atRest (.ofRooms 64 64)).course es).countP (·.begins?.isSome) = 4 ∧
      ((atRest (.ofRooms 64 64)).course es).countP Move.isDeparture = 1 ∧ b'.running = 1 := by
  have hstart : (start (.ofRooms 64 64) {} {}).1 = .ok (atRest (.ofRooms 64 64)) := rfl
  have haccounts := accounts_of_start hstart [{ wiring.line.level := true },
    .ofBus [.data [2, 5, 0, 0]], .ofHost [], .ofHost [.data [9, 0, 0, 0]], .ofHost [],
    .ofHost [.ended], .ofHost []] (by decide)
  exact ⟨_, _, rfl, haccounts.1, haccounts.2.1, haccounts.2.2.1, haccounts.2.2.2,
    by decide +kernel, by decide +kernel, by decide +kernel, by decide +kernel⟩

end Bridge

end SpiBridge
