import SpiBridge.Proofs.Course
/-!
# Requests of the slave

The slave requests a transaction by raising its line, and the bridge remembers of all
levels that it sampled only the last one and whether a request is pending.  Main
statement: that is enough, for a transaction of the slave is begun by exactly those
idle steps before which the line rose and no transaction of the slave was begun since.
-/

namespace SpiBridge

namespace Move

def sampled (moves : List Move) : List Move :=
  moves.filter fun m => m.level?.isSome

def levelAt (level : Bool) (steps : List Move) : Nat → Option Bool
  | 0 => some level
  | i + 1 => steps[i]?.bind Move.level?

/-- The line is low before a step and high at it. -/
def RisesAt (level : Bool) (steps : List Move) (i : Nat) : Prop :=
  levelAt level steps i = some false ∧ levelAt level steps (i + 1) = some true

def BeginsSlaveAt (steps : List Move) (i : Nat) : Prop :=
  ∃ m, steps[i]? = some m ∧ m.begins? = some .slave

/-- The line rose at a step or before it, and since then no step before it began a transaction
of the slave. -/
def WaitsAt (level : Bool) (steps : List Move) (i : Nat) : Prop :=
  ∃ j ≤ i, RisesAt level steps j ∧ ∀ k, j ≤ k → k < i → ¬ BeginsSlaveAt steps k

/-- A step that does nothing but to fail. -/
structure Vain (m : Move) : Prop where
  after : m.after = m.before
  left : m.left = { m.met.wiring with line := m.met.wiring.line.sample.2 }
  outcome : ∃ error, m.outcome = .error (.transport (.io error))

variable {level : Bool} {steps : List Move} {m : Move} {i : Nat}

theorem level?_eq_some_iff :
    m.level? = some level ↔ ∃ line, m.met.wiring.line.sample = (.ok level, line) := by
  unfold level?
  rcases m.met.wiring.line.sample with ⟨error | found, line⟩ <;> simp

theorem sampled_cons_of_none {moves : List Move} (h : m.level? = none) :
    sampled (m :: moves) = sampled moves := by
  simp [sampled, h]

theorem sampled_cons_of_some {moves : List Move} (h : m.level? = some level) :
    sampled (m :: moves) = m :: sampled moves := by
  simp [sampled, h]

theorem beginsSlaveAt_iff (hi : steps[i]? = some m) :
    BeginsSlaveAt steps i ↔ m.begins? = some .slave := by
  simp [BeginsSlaveAt, hi]

theorem waitsAt_iff :
    WaitsAt level steps i ↔
      (∃ j < i, RisesAt level steps j ∧ ∀ k, j ≤ k → k < i → ¬ BeginsSlaveAt steps k) ∨
        RisesAt level steps i := by
  constructor
  · rintro ⟨j, hj, hrise, hnone⟩
    rcases Nat.lt_or_eq_of_le hj with hless | rfl
    · exact .inl ⟨j, hless, hrise, hnone⟩
    · exact .inr hrise
  · rintro (⟨j, hj, hrise, hnone⟩ | hrise)
    · exact ⟨j, Nat.le_of_lt hj, hrise, hnone⟩
    · exact ⟨i, Nat.le_refl i, hrise, fun k hk hless => by omega⟩

end Move

/-- What the line's memory holds of the first so many steps: the last level, and whether the line
rose without a transaction of the slave begun since. -/
structure LineMemory.Recalls (memory : LineMemory) (level : Bool) (steps : List Move) (n : Nat) :
    Prop where
  previous : Move.levelAt level steps n = some memory.previous
  pending : memory.pending = true ↔
    ∃ j < n, Move.RisesAt level steps j ∧ ∀ k, j ≤ k → k < n → ¬ Move.BeginsSlaveAt steps k

namespace LineMemory.Recalls

variable {memory : LineMemory} {level found : Bool} {steps : List Move} {n : Nat} {m : Move}

theorem start (level : Bool) (steps : List Move) : Recalls ⟨level, false⟩ level steps 0 :=
  ⟨rfl, by simp⟩

theorem pending_observe (h : memory.Recalls level steps n) (hn : steps[n]? = some m)
    (hlevel : m.level? = some found) :
    (memory.observe found).pending = true ↔ Move.WaitsAt level steps n := by
  have hfound : Move.levelAt level steps (n + 1) = some found := by
    simp [Move.levelAt, hn, hlevel]
  have hrise : Move.RisesAt level steps n ↔ found = true ∧ memory.previous = false := by
    rw [Move.RisesAt, h.previous, hfound]
    simp only [Option.some.injEq]
    exact and_comm
  rw [Move.waitsAt_iff, ← h.pending, hrise]
  simp [observe]

theorem next {memory' : LineMemory} (h : memory.Recalls level steps n) (hn : steps[n]? = some m)
    (hlevel : m.level? = some found) (hprevious : memory'.previous = found)
    (hpending : memory'.pending = true ↔
      (memory.observe found).pending = true ∧ m.begins? ≠ some .slave) :
    memory'.Recalls level steps (n + 1) := by
  refine ⟨?_, ?_⟩
  · simp [Move.levelAt, hn, hlevel, hprevious]
  rw [hpending, h.pending_observe hn hlevel, Ne, ← Move.beginsSlaveAt_iff hn]
  constructor
  · rintro ⟨⟨j, hj, hrise, hnone⟩, hlast⟩
    refine ⟨j, by omega, hrise, fun k hjk hk => ?_⟩
    rcases Nat.lt_or_eq_of_le (Nat.le_of_lt_succ hk) with hless | rfl
    · exact hnone k hjk hless
    · exact hlast
  · rintro ⟨j, hj, hrise, hnone⟩
    exact ⟨⟨j, by omega, hrise, fun k hjk hk => hnone k hjk (by omega)⟩,
      hnone n (by omega) (by omega)⟩

end LineMemory.Recalls

namespace Bridge

variable {b : Bridge} {e : Encounter} {m : Move} {level : Bool} {steps : List Move} {n : Nat}

theorem vain_of_move (h : (b.move e).level? = none) : (b.move e).Vain := by
  rcases ending_of_move b e with ⟨error, line, hsample, hmove⟩ | ⟨found, line, r, hsample, -⟩
  · rw [hmove]
    refine ⟨rfl, ?_, error, rfl⟩
    show { e.wiring with line } = _
    rw [hsample]
  · have hsome : (b.move e).level? = some found := Move.level?_eq_some_iff.2 ⟨line, hsample⟩
    rw [hsome] at h
    cases h

theorem sample_of_level? (h : (b.move e).level? = some level) :
    ∃ line, e.wiring.line.sample = (.ok level, line) :=
  Move.level?_eq_some_iff.1 h

theorem begins_slave_iff {found : Bool} (h : (b.move e).level? = some found) :
    (b.move e).begins? = some .slave ↔
      b.transaction.phase = .idle ∧ (b.line.observe found).pending = true := by
  obtain ⟨line, hsample⟩ := sample_of_level? h
  constructor
  · intro hbegins
    have hphase := phase_of_begins hbegins
    rw [(move_of_idle hphase hsample).2.2] at hbegins
    by_cases hpending : (b.line.observe found).pending = true
    · exact ⟨hphase, hpending⟩
    · rw [if_neg hpending] at hbegins
      split at hbegins <;> cases hbegins
  · rintro ⟨hphase, hpending⟩
    rw [(move_of_idle hphase hsample).2.2]
    exact if_pos hpending

theorem line_of_move {found : Bool} (h : (b.move e).level? = some found) :
    (b.move e).after.line.previous = found ∧
      ((b.move e).after.line.pending = true ↔
        (b.line.observe found).pending = true ∧ (b.move e).begins? ≠ some .slave) := by
  obtain ⟨line, hsample⟩ := sample_of_level? h
  rcases ending_of_move b e with ⟨error, line', hsample', -⟩ |
    ⟨found', line', r, hsample', hend, -, hline⟩ <;> have hsame := hsample'.symm.trans hsample
  · cases hsame
  cases hsame
  rw [hline, Ne, begins_slave_iff h]
  by_cases hphase : b.transaction.phase = .idle
  · rw [hphase] at hend
    have hscene : (e.scene b found line).bridge.line = b.line.observe found := rfl
    cases hend with
    | answersRequest hpending => exact ⟨rfl, by simp [Turn.sceneOf, Scene.running, hphase]⟩
    | hearsHost hpending | rests hpending =>
      rw [hscene] at hpending
      exact ⟨rfl, by simp [Turn.sceneOf, Scene.running, Encounter.scene, hpending]⟩
  · rw [Turn.line_of_ending hphase hend]
    exact ⟨rfl, by simp [Encounter.scene, hphase]⟩

theorem begins_iff_of_recalls (h : b.line.Recalls level steps n) (es : List Encounter)
    (hsteps : steps.drop n = Move.sampled (b.course es)) {i : Nat} (hn : n ≤ i)
    (hi : steps[i]? = some m) :
    m.begins? = some .slave ↔
      m.before.transaction.phase = .idle ∧ Move.WaitsAt level steps i := by
  induction es generalizing b n with
  | nil =>
    have hshort : steps.length ≤ n := List.drop_eq_nil_iff.1 hsteps
    rw [List.getElem?_eq_none (by omega)] at hi
    cases hi
  | cons e es ih =>
    rw [course] at hsteps
    rcases hlevel : (b.move e).level? with _ | found
    · rw [Move.sampled_cons_of_none hlevel] at hsteps
      have hsame : (b.move e).after = b := (vain_of_move hlevel).after
      rw [hsame] at hsteps
      exact ih h hsteps hn
    · rw [Move.sampled_cons_of_some hlevel] at hsteps
      have hfirst : steps[n]? = some (b.move e) := by
        rw [← Nat.add_zero n, ← List.getElem?_drop, hsteps]
        rfl
      have hrest : steps.drop (n + 1) = Move.sampled ((b.move e).after.course es) := by
        rw [← List.tail_drop, hsteps]
        rfl
      obtain ⟨hprevious, hpending⟩ := line_of_move hlevel
      rcases Nat.lt_or_eq_of_le hn with hless | rfl
      · exact ih (h.next hfirst hlevel hprevious hpending) hrest hless
      · obtain rfl := Option.some.inj (hfirst.symm.trans hi)
        rw [begins_slave_iff hlevel, h.pending_observe hfirst hlevel]
        rfl

/-- Whatever a bridge meets after its start: a step whose sample fails does nothing else, and
of the others a step begins a transaction of the slave if and only if it is idle and the line
rose without such a transaction begun since.  So between two of these transactions the line
rises again, and no rise is passed over by an idle step. -/
theorem requests_of_start {transaction : Transaction} {timing : Timing} {wiring : Wiring}
    (hstart : (start transaction timing wiring).1 = .ok b) (es : List Encounter) :
    ∃ level line, wiring.line.sample = (.ok level, line) ∧
      (∀ m ∈ b.course es, m.level? = none → m.Vain) ∧
      (∀ i m, (Move.sampled (b.course es))[i]? = some m →
        (m.begins? = some .slave ↔ m.before.transaction.phase = .idle ∧
          Move.WaitsAt level (Move.sampled (b.course es)) i)) ∧
      (∀ i i', i < i' → Move.BeginsSlaveAt (Move.sampled (b.course es)) i →
        Move.BeginsSlaveAt (Move.sampled (b.course es)) i' →
        ∃ j, i < j ∧ j ≤ i' ∧ Move.RisesAt level (Move.sampled (b.course es)) j) ∧
      ∀ j i m, j ≤ i → Move.RisesAt level (Move.sampled (b.course es)) j →
        (Move.sampled (b.course es))[i]? = some m → m.before.transaction.phase = .idle →
        ∃ k, j ≤ k ∧ k ≤ i ∧ Move.BeginsSlaveAt (Move.sampled (b.course es)) k := by
  unfold start at hstart
  rcases hsample : wiring.line.sample with ⟨error | level, line⟩ <;>
    simp only [hsample, reduceCtorEq, Except.ok.injEq] at hstart
  have hrecalls (steps : List Move) : b.line.Recalls level steps 0 := by
    rw [← hstart]
    exact .start level steps
  have hiff : ∀ i m, (Move.sampled (b.course es))[i]? = some m →
      (m.begins? = some .slave ↔ m.before.transaction.phase = .idle ∧
        Move.WaitsAt level (Move.sampled (b.course es)) i) := fun i m hi =>
    begins_iff_of_recalls (hrecalls _) es rfl (Nat.zero_le i) hi
  refine ⟨level, line, rfl, fun m hm hnone => ?_, hiff, ?_, ?_⟩
  · obtain ⟨c, e, rfl⟩ := exists_move_of_mem hm
    exact vain_of_move hnone
  · rintro i i' hless hbegins ⟨m, hm, hslave⟩
    obtain ⟨-, j, hj, hrise, hnone⟩ := (hiff i' m hm).1 hslave
    refine ⟨j, ?_, hj, hrise⟩
    refine Nat.lt_of_not_le fun hbefore => ?_
    exact hnone i hbefore hless hbegins
  · intro j i m hj hrise hm hphase
    refine Classical.byContradiction fun hlost => ?_
    have hnone : ∀ k, j ≤ k → k < i → ¬ Move.BeginsSlaveAt (Move.sampled (b.course es)) k :=
      fun k hjk hk hbegins => hlost ⟨k, hjk, Nat.le_of_lt hk, hbegins⟩
    have hslave := (hiff i m hm).2 ⟨hphase, j, hj, hrise, hnone⟩
    exact hlost ⟨i, hj, Nat.le_refl i, m, hm, hslave⟩

/-- The line rises and falls again while the bridge reads a command, and a sample fails. -/
def shortRise : List Encounter :=
  [.ofHost [], { wiring.line.level := true }, { wiring.line.failure := some .emptyLevel },
    .ofHost [.data [2, 7, 0, 0]], { wiring := {} }, { wiring := {} }]

/-- The slave is answered once the command is sent, although its line is low by then. -/
theorem requests_of_start_of_short_rise :
    ∃ fails m, (start (.ofRooms 64 64) {} {}).1 = .ok (atRest (.ofRooms 64 64)) ∧
      fails ∈ (atRest (.ofRooms 64 64)).course shortRise ∧ fails.Vain ∧
      (Move.sampled ((atRest (.ofRooms 64 64)).course shortRise))[4]? = some m ∧
      m.level? = some false ∧ m.before.transaction.phase = .idle ∧ m.begins? = some .slave ∧
      Move.RisesAt false (Move.sampled ((atRest (.ofRooms 64 64)).course shortRise)) 1 ∧
      Move.WaitsAt false (Move.sampled ((atRest (.ofRooms 64 64)).course shortRise)) 4 := by
  have hstart : (start (.ofRooms 64 64) {} {}).1 = .ok (atRest (.ofRooms 64 64)) := rfl
  obtain ⟨level, line, hsample, hvain, hiff, -⟩ := requests_of_start hstart shortRise
  have hlevel : (Except.ok false : Except IoError Bool) = .ok level := congrArg Prod.fst hsample
  cases hlevel
  have hfails := hvain _ (List.mem_cons_of_mem _ (List.mem_cons_of_mem _ List.mem_cons_self)) rfl
  have hbegins := hiff 4 _ rfl
  refine ⟨_, _, hstart, List.mem_cons_of_mem _ (List.mem_cons_of_mem _ List.mem_cons_self),
    hfails, rfl, rfl, by decide +kernel, by decide +kernel, ⟨rfl, rfl⟩, ?_⟩
  exact (hbegins.1 (by decide +kernel)).2

end Bridge

end SpiBridge
