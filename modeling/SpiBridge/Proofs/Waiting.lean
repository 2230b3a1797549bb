import SpiBridge.Bridge.Wait
import SpiBridge.Proofs.Requests
/-!
# Waiting

Before each step the bridge decides whether to wait.  It does not wait when the next
step has something to do in any case, and what it waits for otherwise is all that can
give the next step something to do.

Main statement: a step that is taken without a wait goes on to another phase and does
not look at what a wait would have found, at most four such steps follow each other
unless the slave asks again, and a step behind a wait that found nothing leaves the
bridge as it is.
-/

namespace SpiBridge

namespace Phase

variable {phase next : Phase} {outcome : Outcome} {origin : Sync.Origin}

theorem ne_of_begins (h : phase.begins? next = some origin) : next ≠ phase := by
  rintro rfl
  simp [begins?] at h

theorem eq_slaveHeader_of_begins (h : phase.begins? next = some .slave) :
    next = slaveHeader := by
  cases next <;> simp_all [begins?]

theorem Leads.ne_of_isBusDriven (h : phase.Leads outcome next)
    (hbus : phase.isBusDriven = true) : next ≠ phase := by
  rcases outcome with _ | _ | (_ | _) | _
  · cases phase <;> simp_all [Leads, continuations, isBusDriven]
    grind
  all_goals cases phase <;> simp_all [Leads, isBusDriven]

/-- How many steps without a wait may follow, unless the slave asks again. -/
def rush (phase : Phase) (pending : Bool) : Nat :=
  match phase with
  | idle => if pending then 3 else 0
  | slaveHeader => 2
  | slavePayload | slaveAnswerToBus | masterToBus => if pending then 4 else 1
  | slaveAwaitingHostAnswer | masterHeader | masterPayload => 0

theorem rush_le_four (phase : Phase) (pending : Bool) : phase.rush pending ≤ 4 := by
  cases phase <;> cases pending <;> decide

theorem Leads.rush_lt {pending pending' : Bool} (h : phase.Leads outcome next)
    (hbus : phase.isBusDriven = true) (hheeds : phase = slaveHeader → pending = false)
    (hpending : pending' = true → pending = true) : next.rush pending' < phase.rush pending := by
  have hidle : next = idle → next.rush pending' < phase.rush pending := by
    rintro rfl
    cases phase <;> cases pending <;> cases pending' <;> simp_all [rush, isBusDriven]
  rcases outcome with _ | _ | (_ | _) | _
  · have hnext : next ∈ phase.continuations := h
    cases phase with
    | slaveHeader =>
      obtain rfl := hheeds rfl
      obtain rfl : pending' = false := Bool.eq_false_iff.2 fun h => Bool.noConfusion (hpending h)
      obtain rfl | rfl : next = slavePayload ∨ next = slaveAwaitingHostAnswer := by
        simpa [continuations] using hnext
      · decide
      · decide
    | slavePayload | slaveAnswerToBus | masterToBus => cases hnext
    | idle | slaveAwaitingHostAnswer | masterHeader | masterPayload => cases hbus
  · exact hidle h.2.2
  · exact hidle h.2
  · exact hidle h.2
  · exact hidle h.2

end Phase

def Encounter.Raises (e : Encounter) (b : Bridge) : Prop :=
  b.line.previous = false ∧ ∃ line, e.wiring.line.sample = (.ok true, line)

theorem LineMemory.observe_of_calm {b : Bridge} {e : Encounter} {level : Bool} {line : Line}
    (hsample : e.wiring.line.sample = (.ok level, line)) (hcalm : ¬ e.Raises b) :
    b.line.observe level = ⟨level, b.line.pending⟩ := by
  have hrise : (level && !b.line.previous) = false := by
    refine Bool.eq_false_iff.2 fun hrise => hcalm ?_
    rw [Bool.and_eq_true, Bool.not_eq_true'] at hrise
    exact ⟨hrise.2, line, hrise.1 ▸ hsample⟩
  rw [observe, hrise, Bool.or_false]

structure Pass.Rushes (p : Pass) : Prop where
  planned : p.before.wait p.met.wiring.line p.met.now = .immediate
  calm : ¬ p.met.Raises p.before

namespace Bridge

variable {b b' c : Bridge} {e : Encounter} {p : Pass} {ps : List Pass}

theorem wait_eq_immediate_iff {line : Line} {now : Instant} :
    b.wait line now = .immediate ↔ b.isBusy = true := by
  unfold wait
  split <;> simp_all

theorem isBusy_iff : b.isBusy = true ↔ b.transaction.phase.isBusDriven = true ∨
    b.transaction.phase = .idle ∧ b.line.pending = true := by
  simp [isBusy]

/-! ## Steps without a wait -/

theorem step_of_isBusy (h : b.isBusy = true) (wiring : Wiring) (found found' : Readiness)
    (now : Instant) : b.step wiring found now = b.step wiring found' now := by
  unfold step
  rcases wiring.line.sample with ⟨error | level, line⟩
  · rfl
  simp only
  congr 1
  rcases isBusy_iff.1 h with hbus | ⟨hidle, hpending⟩
  · cases hphase : b.transaction.phase <;> rw [hphase] at hbus <;> first | rfl | cases hbus
  · rw [hidle]
    have hrequest : (b.line.observe level).pending = true := by simp [LineMemory.observe, hpending]
    simp only [Turn.ofPhase, Turn.startTransaction, Turn.bind_apply, Turn.get_apply, hrequest,
      if_true]

theorem exists_level_of_move {outcome : Outcome} (h : (b.move e).outcome = .ok outcome) :
    ∃ level line, e.wiring.line.sample = (.ok level, line) := by
  rcases ending_of_move b e with ⟨error, line, -, hmove⟩ | ⟨level, line, -, hsample, -⟩
  · rw [hmove] at h
    cases h
  · exact ⟨level, line, hsample⟩

theorem begins_slave_of_pending {outcome : Outcome} (hidle : b.transaction.phase = .idle)
    (hpending : b.line.pending = true) (h : (b.move e).outcome = .ok outcome) :
    (b.move e).begins? = some .slave := by
  obtain ⟨level, line, hsample⟩ := exists_level_of_move h
  rw [(move_of_idle hidle hsample).2.2, if_pos]
  simp [LineMemory.observe, hpending]

theorem phase_ne_of_isBusy {outcome : Outcome} (hbusy : b.isBusy = true)
    (h : (b.move e).outcome = .ok outcome) :
    (b.move e).after.transaction.phase ≠ b.transaction.phase := by
  rcases isBusy_iff.1 hbusy with hbus | ⟨hidle, hpending⟩
  · exact (leads_of_move h).ne_of_isBusDriven hbus
  · exact Phase.ne_of_begins (begins_slave_of_pending hidle hpending h)

/-! ## How many of them follow each other -/

/-- How many steps without a wait may follow, unless the slave asks again. -/
def rush (b : Bridge) : Nat :=
  b.transaction.phase.rush b.line.pending

theorem rush_pos_of_isBusy (h : b.isBusy = true) : 0 < b.rush := by
  unfold rush
  rcases isBusy_iff.1 h with hbus | ⟨hidle, hpending⟩
  · cases hphase : b.transaction.phase <;> rw [hphase] at hbus <;>
      cases b.line.pending <;> first | decide | cases hbus
  · rw [hidle, hpending]
    decide

/-- A request whose header is being read is no longer pending. -/
def Heeds (b : Bridge) : Prop :=
  b.transaction.phase = .slaveHeader → b.line.pending = false

theorem pending_of_pass? (hpass : b.pass? e = some p) :
    p.after.Heeds ∧
      (¬ e.Raises b → p.after.line.pending = true → b.line.pending = true) := by
  have hmove := move_of_pass? hpass
  have hok : (b.move e).outcome = .ok p.outcome := by rw [hmove]
  have hafter : (b.move e).after = p.after := by rw [hmove]
  obtain ⟨level, line, hsample⟩ := exists_level_of_move hok
  obtain ⟨-, hpending⟩ := line_of_move (Move.level?_eq_some_iff.2 ⟨line, hsample⟩)
  rw [hafter] at hpending
  constructor
  · intro hheader
    have hbegins : (b.move e).begins? = some .slave := by
      have hleads := leads_of_move hok
      rw [hafter, hheader] at hleads
      have hne : b.transaction.phase ≠ .slaveHeader := by
        intro hphase
        rw [hphase] at hleads
        exact hleads.ne_of_isBusDriven rfl rfl
      show b.transaction.phase.begins? (b.move e).after.transaction.phase = _
      rw [hafter, hheader]
      exact if_neg hne.symm
    refine Bool.eq_false_iff.2 fun hstill => ?_
    exact (hpending.1 hstill).2 hbegins
  · intro hcalm hstill
    have hbefore := (hpending.1 hstill).1
    rwa [LineMemory.observe_of_calm hsample hcalm] at hbefore

theorem rush_lt_of_pass? (hheeds : b.Heeds) (hbusy : b.isBusy = true) (hcalm : ¬ e.Raises b)
    (hpass : b.pass? e = some p) : p.after.rush < b.rush := by
  have hmove := move_of_pass? hpass
  have hok : (b.move e).outcome = .ok p.outcome := by rw [hmove]
  have hafter : (b.move e).after = p.after := by rw [hmove]
  rcases isBusy_iff.1 hbusy with hbus | ⟨hidle, hrequest⟩
  · have hleads := leads_of_move hok
    rw [hafter] at hleads
    exact hleads.rush_lt hbus hheeds ((pending_of_pass? hpass).2 hcalm)
  · have hheader : p.after.transaction.phase = .slaveHeader := by
      rw [← hafter]
      exact Phase.eq_slaveHeader_of_begins (begins_slave_of_pending hidle hrequest hok)
    unfold rush
    rw [hheader, hidle, hrequest]
    cases p.after.line.pending <;> decide

/-- The steps without a wait of a run, and those that may still follow. -/
theorem Run.length_add_rush_le {qs : List Pass} (hrun : b.Run qs c) (hheeds : b.Heeds)
    (hrush : ∀ q ∈ qs, q.Rushes) : qs.length + c.rush ≤ b.rush ∧ c.Heeds := by
  induction hrun with
  | start => exact ⟨by simp, hheeds⟩
  | @step qs b' e q hrun hpass ih =>
    obtain ⟨hlength, hheeds'⟩ := ih fun q hq => hrush q (List.mem_append_left _ hq)
    have hlast := hrush q (by simp)
    obtain ⟨rfl, rfl⟩ := before_of_pass? hpass
    have hbusy := wait_eq_immediate_iff.1 hlast.planned
    have hless := rush_lt_of_pass? hheeds' hbusy hlast.calm hpass
    refine ⟨?_, (pending_of_pass? hpass).1⟩
    rw [List.length_append, List.length_singleton]
    omega

theorem Run.heeds (hrun : b.Run ps b') (h : b.Heeds) : b'.Heeds :=
  hrun.invariant (fun hpass _ => (pending_of_pass? hpass).1) h

/-! ## Steps behind a wait -/

theorem ofPhase_of_unready {readiness : Readiness} {now : Instant} {s : Scene}
    (hbus : s.bridge.transaction.phase.isBusDriven = false)
    (hrequest : s.bridge.transaction.phase = .idle → s.bridge.line.pending = false)
    (hready : readiness.inbound = false)
    (hearly : ∀ deadline ∈ s.bridge.transaction.deadline, deadline.reachedBy now = false) :
    Turn.ofPhase readiness now s.bridge.transaction.phase s = .ok .continues s := by
  have hend := Turn.ofPhase_ending readiness now s.bridge.transaction.phase s
  generalize Turn.ofPhase readiness now s.bridge.transaction.phase s = r at hend ⊢
  cases hphase : s.bridge.transaction.phase <;> rw [hphase] at hend hbus hrequest
  case slaveHeader | slavePayload | slaveAnswerToBus | masterToBus => cases hbus
  case idle =>
    cases hend with
    | answersRequest hpending => simp [hrequest rfl] at hpending
    | hearsHost _ hready' => simp [hready] at hready'
    | rests => rfl
  case slaveAwaitingHostAnswer =>
    cases hend with
    | unready => exact Turn.lapse_of_early hearly
    | _ hready' => simp [hready] at hready'
  case masterHeader | masterPayload =>
    cases hend with
    | unready => rfl
    | _ hready' => simp [hready] at hready'

theorem step_of_unready {wiring : Wiring} {readiness : Readiness} {now : Instant} {level : Bool}
    {line : Line} (hrests : b.isBusy = false) (hready : readiness.inbound = false)
    (hsample : wiring.line.sample = (.ok level, line))
    (hobserve : b.line.observe level = ⟨level, b.line.pending⟩)
    (hearly : ∀ deadline ∈ b.transaction.deadline, deadline.reachedBy now = false) :
    b.step wiring readiness now =
      ⟨.ok .continues, [], { b with line.previous := level }, { wiring with line }⟩ := by
  have hnot : ¬ (b.transaction.phase.isBusDriven = true ∨
      b.transaction.phase = .idle ∧ b.line.pending = true) := by
    rw [← isBusy_iff, hrests]
    exact Bool.false_ne_true
  have hbus : b.transaction.phase.isBusDriven = false :=
    Bool.eq_false_iff.2 fun hbus => hnot (.inl hbus)
  have hrequest : b.transaction.phase = .idle → b.line.pending = false := fun hidle =>
    Bool.eq_false_iff.2 fun hpending => hnot (.inr ⟨hidle, hpending⟩)
  have hturn := ofPhase_of_unready (s := ⟨{ b with line := ⟨level, b.line.pending⟩ },
    { wiring with line }⟩) hbus hrequest hready hearly
  unfold step
  simp only [hsample, hobserve]
  rw [hturn]
  rfl

/-- The decision to wait is exact.  Without a wait, a step that is not cut short by a fault goes
on to another phase, and neither it nor what it leaves depends on what a wait would have found.
Of such steps no more than four follow each other after a start, unless the line rises, and then
the bridge waits.  With a wait, a step that finds neither something from the host nor a rise of
the line, and that comes before the deadline, does nothing but to remember the level of the
line. -/
theorem wait_exact (b : Bridge) :
    (∀ line now, b.wait line now = .immediate →
      (∀ wiring found found' time, b.step wiring found time = b.step wiring found' time) ∧
        ∀ e outcome, (b.move e).outcome = .ok outcome →
          (b.move e).after.transaction.phase ≠ b.transaction.phase) ∧
      (∀ transaction timing wiring a ps qs c, (start transaction timing wiring).1 = .ok a →
        a.Run ps b → b.Run qs c → (∀ q ∈ qs, q.Rushes) →
          qs.length ≤ 4 ∧ (qs.length = 4 → c.isBusy = false)) ∧
      ∀ line now watched timeout, b.wait line now = .poll watched timeout →
        ∀ (e : Encounter) (level : Bool) (line' : Line), e.readiness.inbound = false →
          e.wiring.line.sample = (.ok level, line') → ¬ e.Raises b →
          (∀ deadline ∈ b.transaction.deadline, e.now.nanos < deadline.nanos) →
          b.step e.wiring e.readiness e.now =
            ⟨.ok .continues, [], { b with line.previous := level },
              { e.wiring with line := line' }⟩ := by
  refine ⟨fun line now hwait => ?_, ?_, ?_⟩
  · have hbusy := wait_eq_immediate_iff.1 hwait
    exact ⟨step_of_isBusy hbusy, fun e outcome => phase_ne_of_isBusy hbusy⟩
  · intro transaction timing wiring a ps qs c hstart hrun hmore hrush
    obtain ⟨level, rfl⟩ := start_eq_ok hstart
    have hheeds : b.Heeds := hrun.heeds fun _ => rfl
    obtain ⟨hlength, -⟩ := hmore.length_add_rush_le hheeds hrush
    have hfour : b.rush ≤ 4 := Phase.rush_le_four _ _
    refine ⟨by omega, fun hall => Bool.eq_false_iff.2 fun hbusy => ?_⟩
    have hpositive := rush_pos_of_isBusy hbusy
    omega
  · intro line now watched timeout hwait e level line' hready hsample hcalm hbefore
    have hrests : b.isBusy = false := by
      refine Bool.eq_false_iff.2 fun hbusy => ?_
      rw [wait_eq_immediate_iff.2 hbusy] at hwait
      cases hwait
    have hearly : ∀ deadline ∈ b.transaction.deadline, deadline.reachedBy e.now = false := by
      intro deadline hdeadline
      have hless := hbefore deadline hdeadline
      refine Bool.eq_false_iff.2 fun hreached => ?_
      rw [Instant.reachedBy_iff] at hreached
      omega
    exact step_of_unready hrests hready hsample (LineMemory.observe_of_calm hsample hcalm) hearly

/-- The host writes a command, and the line rises as the bridge reads it. -/
def interruption : List Encounter :=
  [.ofHost [], { wiring := { line := { level := true }, inbound := { arrivals :=
    [.data [2, 7, 0, 0]] } }, readiness := { inbound := true } }]

def interrupter : List Encounter :=
  [[], [], [.data [0, 5, 1, 0]], [.data [9]]].map fun items =>
    { wiring := { line := { level := true }, bus := { arrivals := items } } }

/-- Four steps follow without a wait: the command is sent, the slave is answered, and its write is
read in two steps. -/
theorem wait_exact_of_interruption :
    ∃ ps qs b c, (start (.ofRooms 16 32) {} {}).1 = .ok (atRest (.ofRooms 16 32)) ∧
      (atRest (.ofRooms 16 32)).Run ps b ∧ b.Run qs c ∧ (∀ q ∈ qs, q.Rushes) ∧
      qs.map (·.before.transaction.phase) = [.masterToBus, .idle, .slaveHeader, .slavePayload] ∧
      c.isBusy = false := by
  have hstart : (start (.ofRooms 16 32) {} {}).1 = .ok (atRest (.ofRooms 16 32)) := rfl
  have hfirst : ((atRest (.ofRooms 16 32)).passes interruption).map
      (fun ps => (ps.map Pass.after).getLastD (atRest (.ofRooms 16 32))) =
      some ((atRest (.ofRooms 16 32)).after interruption) := by
    decide +kernel
  have hlast : (((atRest (.ofRooms 16 32)).after interruption).passes interrupter).map
      (List.map fun q => (q.before.transaction.phase, q.before.isBusy, q.before.line.previous)) =
      some [(.masterToBus, true, true), (.idle, true, true), (.slaveHeader, true, true),
        (.slavePayload, true, true)] := by
    decide +kernel
  obtain ⟨ps, hps, hend⟩ := Option.map_eq_some_iff.1 hfirst
  obtain ⟨qs, hqs, hfound⟩ := Option.map_eq_some_iff.1 hlast
  have hrun := Run.of_passes hps
  rw [hend] at hrun
  have hrush : ∀ q ∈ qs, q.Rushes := by
    intro q hq
    have hmem := List.mem_map_of_mem (f := fun q : Pass =>
      (q.before.transaction.phase, q.before.isBusy, q.before.line.previous)) hq
    rw [hfound] at hmem
    have hbusy : q.before.isBusy = true ∧ q.before.line.previous = true := by
      simp only [List.mem_cons, Prod.mk.injEq, List.not_mem_nil, or_false] at hmem
      rcases hmem with ⟨-, h⟩ | ⟨-, h⟩ | ⟨-, h⟩ | ⟨-, h⟩ <;> exact h
    refine ⟨wait_eq_immediate_iff.2 hbusy.1, fun hraises => ?_⟩
    exact absurd (hraises.1.symm.trans hbusy.2) Bool.false_ne_true
  have hphases := congrArg (List.map Prod.fst) hfound
  rw [List.map_map] at hphases
  have hlength : qs.length = 4 := by simpa using congrArg List.length hfound
  have hexact := (wait_exact _).2.1 _ _ _ _ ps qs _ hstart hrun (Run.of_passes hqs) hrush
  exact ⟨ps, qs, _, _, hstart, hrun, Run.of_passes hqs, hrush, hphases, hexact.2 hlength⟩

end Bridge

end SpiBridge
