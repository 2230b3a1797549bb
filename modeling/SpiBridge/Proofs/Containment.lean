import SpiBridge.Bridge.Service
import SpiBridge.Proofs.Course
import SpiBridge.Proofs.Verdict
/-!
# Containment of faults

A bridge goes on through whatever bytes it is given, and ends its work when a channel
cannot be used any more or the host has left.  Main statements: a step fails if and only
if the line could not be sampled, one of its calls or polls was fatal, or the host's
stream ended within a frame; and a bridge at work goes on until a shutdown is requested,
the host leaves, or a step fails.
-/

namespace SpiBridge

namespace Move

def traffic (m : Move) : Traffic :=
  m.left.trafficSince m.met.wiring

def Fails (m : Move) : Prop :=
  (∃ error line, m.met.wiring.line.sample = (.error error, line)) ∨
    m.traffic.Fails m.before.transaction
      (m.met.wiring.outbound.clock.after? m.before.timing.write)

def HostLeaves (m : Move) : Prop :=
  m.traffic.HostLeaves m.before.transaction

/-- A deadline that a step may have to set lies beyond the clock's range. -/
def BeyondClock (m : Move) : Prop :=
  m.met.wiring.outbound.clock.after? m.before.timing.write = none ∨
    m.met.now.after? m.before.timing.answer = none

/-- How a step ends, and what happened on the line and the channels. -/
structure Contained (m : Move) : Prop where
  fails : (∃ e, m.outcome = .error (.transport e)) ↔ m.Fails
  leaves : m.outcome = .ok .stop ↔ m.HostLeaves
  idle : m.outcome = .ok .stop → m.after.transaction.phase = .idle
  rooms : ∀ call ∈ m.inboundCalls, ∃ room got, call = .read room got ∧ 0 < room
  otherwise : ¬ m.Fails → ¬ m.HostLeaves → ¬ m.BeyondClock →
    m.outcome = .ok .continues ∨ (∃ origin, m.outcome = .ok (.completed origin)) ∨
      ∃ error, m.outcome = .ok (.aborted error)

end Move

def Turn.bridgeOf : Turn.Ending → Bridge
  | .ok _ s | .error (.fault _) s => s.bridge
  | .error (.transaction error) s =>
    { s.bridge with
      tally := s.bridge.tally.aborted error
      transaction := s.bridge.transaction.reset }

namespace Bridge

variable {b : Bridge}

theorem exists_turn_of_move {e : Encounter} {level : Bool} {line : Line} {phase : Phase}
    (hsample : e.wiring.line.sample = (.ok level, line)) (hphase : b.transaction.phase = phase) :
    ∃ r, Turn.EndingOf e.readiness e.now (e.scene b level line) phase r ∧
      b.move e = ⟨b, e, Turn.outcomeOf r, Turn.bridgeOf r, (Turn.sceneOf r).wiring⟩ := by
  subst hphase
  have hmoves := moves_move b e
  generalize b.move e = m at hmoves ⊢
  cases hmoves with
  | unsampled hsample' =>
    rw [hsample] at hsample'
    cases hsample'
  | done hsample' hend | aborted hsample' hend | failed hsample' hend =>
    obtain ⟨hlevel, rfl⟩ := Prod.mk.inj (hsample.symm.trans hsample')
    obtain rfl := Except.ok.inj hlevel
    exact ⟨_, hend, rfl⟩

theorem lasting_of_move (e : Encounter) (h : b.transaction.Lasting) :
    (b.move e).after.transaction.Lasting := by
  have hmoves := moves_move b e
  generalize b.move e = m at hmoves ⊢
  cases hmoves with
  | unsampled => exact h
  | @done level line _ _ _ hend =>
    exact Turn.lasting_of_ending (s := e.scene b level line) h hend
  | aborted => exact (Transaction.coherent_reset _).lasting
  | @failed level line _ _ _ hend =>
    exact Turn.lasting_of_fault (s := e.scene b level line) h hend

theorem fails_iff_of_sample {m : Move} {level : Bool} {line : Line} {q : Scene}
    (hsample : m.met.wiring.line.sample = (.ok level, line)) (hleft : m.left = q.wiring) :
    m.Fails ↔ (m.met.scene m.before level line).Fails q := by
  have htraffic : m.traffic = q.wiring.trafficSince (m.met.scene m.before level line).wiring := by
    rw [Move.traffic, hleft]
    rfl
  unfold Move.Fails
  rw [htraffic, hsample]
  constructor
  · rintro (⟨error, line', hfailed⟩ | hfails)
    · cases hfailed
    · exact hfails
  · exact .inr

theorem hostLeaves_iff_of_left {m : Move} {level : Bool} {line : Line} {q : Scene}
    (hleft : m.left = q.wiring) :
    m.HostLeaves ↔ (m.met.scene m.before level line).HostLeaves q := by
  have htraffic : m.traffic = q.wiring.trafficSince (m.met.scene m.before level line).wiring := by
    rw [Move.traffic, hleft]
    rfl
  rw [Move.HostLeaves, htraffic]
  rfl

theorem contained_of_verdict {m : Move} {level : Bool} {line : Line} {r : Turn.Ending}
    (hsample : m.met.wiring.line.sample = (.ok level, line))
    (hleft : m.left = (Turn.sceneOf r).wiring) (houtcome : m.outcome = Turn.outcomeOf r)
    (hverdict : Turn.Verdict m.met.now (m.met.scene m.before level line) r) :
    ((∃ e, m.outcome = .error (.transport e)) ↔ m.Fails) ∧
      (m.outcome = .ok .stop ↔ m.HostLeaves) ∧
      (m.outcome = .error .clockRange → m.BeyondClock) := by
  have hfails := fails_iff_of_sample hsample hleft
  have hleaves : m.HostLeaves ↔ (m.met.scene m.before level line).HostLeaves (Turn.sceneOf r) :=
    hostLeaves_iff_of_left hleft
  rw [hfails, hleaves, houtcome]
  cases hverdict with
  | fails hfailed hstays => simp [Turn.outcomeOf, Turn.sceneOf, hfailed, hstays]
  | beyondClock hcalm hstays hclock =>
    have hbeyond : m.BeyondClock := hclock
    simp [Turn.outcomeOf, Turn.sceneOf, hcalm, hstays, hbeyond]
  | leaves hcalm hgone => simp [Turn.outcomeOf, Turn.sceneOf, hcalm, hgone]
  | goesOn hplain hcalm hstays =>
    obtain ⟨outcome, hok, hne⟩ := Turn.exists_outcomeOf_of_goesOn hplain
    simp [hok, hne, hcalm, hstays]

theorem contained_of_unsampled {e : Encounter} {error : IoError} {line : Line}
    (hsample : e.wiring.line.sample = (.error error, line)) :
    ((∃ e', (b.move e).outcome = .error (.transport e')) ↔ (b.move e).Fails) ∧
      ((b.move e).outcome = .ok .stop ↔ (b.move e).HostLeaves) ∧
      ((b.move e).outcome = .error .clockRange → (b.move e).BeyondClock) := by
  have hfails : (b.move e).Fails := .inl ⟨error, line, hsample⟩
  rw [move_of_unsampled hsample] at hfails ⊢
  refine ⟨⟨fun _ => hfails, fun _ => ⟨_, rfl⟩⟩, ⟨by simp, ?_⟩, by simp⟩
  rintro ⟨⟨call, hmem, -⟩, -, -⟩
  have hmem' : call ∈ e.wiring.inbound.callsSince e.wiring.inbound := hmem
  rw [Channel.callsSince_self] at hmem'
  cases hmem'

theorem rooms_of_move (e : Encounter) (h : b.transaction.Lasting) :
    ∀ call ∈ (b.move e).inboundCalls, ∃ room got, call = .read room got ∧ 0 < room := by
  intro call hmem
  rcases ending_of_move b e with ⟨error, line, -, hmove⟩ | ⟨level, line, r, -, hend, hleft, -⟩
  · have hnone : (b.move e).inboundCalls = [] := by
      rw [hmove]
      exact Channel.callsSince_self _
    rw [hnone] at hmem
    cases hmem
  · have hcalls : (b.move e).inboundCalls =
        (Turn.sceneOf r).wiring.inbound.callsSince e.wiring.inbound := by
      rw [← hleft]
      rfl
    rw [hcalls] at hmem
    rcases Turn.asks_with_room (s := e.scene b level line) rfl h hend with
      hsame | ⟨target, result, hmissing, hask⟩
    · have hsame' : (Turn.sceneOf r).wiring.inbound = e.wiring.inbound := hsame
      rw [hsame', Channel.callsSince_self] at hmem
      cases hmem
    · obtain ⟨got, hread⟩ := Channel.room_of_readSome hask call hmem
      exact ⟨_, got, hread, hmissing⟩

theorem contained_of_move (e : Encounter) (h : b.transaction.Lasting) : (b.move e).Contained := by
  have hends : ((∃ e', (b.move e).outcome = .error (.transport e')) ↔ (b.move e).Fails) ∧
      ((b.move e).outcome = .ok .stop ↔ (b.move e).HostLeaves) ∧
      ((b.move e).outcome = .error .clockRange → (b.move e).BeyondClock) := by
    rcases hsample : e.wiring.line.sample with ⟨error | level, line⟩
    · exact contained_of_unsampled hsample
    · obtain ⟨r, hend, hmove⟩ := exists_turn_of_move hsample rfl
      exact contained_of_verdict (r := r) hsample (congrArg Move.left hmove)
        (congrArg Move.outcome hmove)
        (Turn.verdict_of_ending (s := e.scene b level line) rfl h hend)
  obtain ⟨hfails, hleaves, hclock⟩ := hends
  refine ⟨hfails, hleaves, fun houtcome => idle_of_move houtcome nofun, rooms_of_move e h,
    fun hcalm hstays hwithin => ?_⟩
  rcases houtcome : (b.move e).outcome with (e | _) | (_ | origin | error | _)
  · exact absurd (hfails.1 ⟨e, houtcome⟩) hcalm
  · exact absurd (hclock houtcome) hwithin
  · exact .inl rfl
  · exact .inr (.inl ⟨origin, rfl⟩)
  · exact .inr (.inr ⟨error, rfl⟩)
  · exact absurd (hleaves.1 houtcome) hstays

end Bridge

/-! ## A bridge at work -/

namespace Service

variable {s : Service} {around : Surroundings} {n passes : Nat}
  {ending : Except Fault StopReason}

/-- The bridge at work after so many passes, if it goes on so long. -/
def after (s : Service) (around : Surroundings) : Nat → Service
  | 0 => s
  | n + 1 => ((s.after around n).pass (around n (s.after around n))).2

def meets (s : Service) (around : Surroundings) (n : Nat) : Occasion :=
  around n (s.after around n)

def WaitFails (s : Service) (around : Surroundings) (n : Nat) (error : IoError) : Prop :=
  (s.meets around n).found (s.after around n).bridge = .error error

def Steps (s : Service) (around : Surroundings) (n : Nat) (m : Move) : Prop :=
  ∃ found, (s.meets around n).found (s.after around n).bridge = .ok found ∧
    m = (s.after around n).bridge.move ⟨(s.meets around n).wiring, found, (s.meets around n).now⟩

def Continues (s : Service) (around : Surroundings) (n : Nat) : Prop :=
  (s.meets around n).shutdown = false ∧
    ∃ m outcome, s.Steps around n m ∧ m.outcome = .ok outcome ∧ outcome ≠ .stop

def GoesOn (s : Service) (around : Surroundings) (n : Nat) : Prop :=
  ∀ k < n, s.Continues around k

/-- How a bridge at work ends before its `n`-th pass or with it. -/
inductive EndsWith (s : Service) (around : Surroundings) (n : Nat) :
    Except Fault StopReason → Prop
  | shutdown (h : (s.meets around n).shutdown = true) : EndsWith s around n (.ok .shutdown)
  | unwaited {error : IoError} (hquiet : (s.meets around n).shutdown = false)
      (h : s.WaitFails around n error) : EndsWith s around n (.error (.transport (.io error)))
  | fault {m : Move} {f : Fault} (hquiet : (s.meets around n).shutdown = false)
      (hstep : s.Steps around n m) (h : m.outcome = .error f) : EndsWith s around n (.error f)
  | hostClosed {m : Move} (hquiet : (s.meets around n).shutdown = false)
      (hstep : s.Steps around n m) (h : m.outcome = .ok .stop) :
      EndsWith s around n (.ok .hostClosed)

theorem pass_of_waitFails {error : IoError} (h : s.WaitFails around n error) :
    ((s.after around n).pass (s.meets around n)).1 = .error (.transport (.io error)) ∧
      ((s.after around n).pass (s.meets around n)).2.bridge = (s.after around n).bridge := by
  rw [pass, h]
  exact ⟨rfl, rfl⟩

theorem pass_of_steps {m : Move} (h : s.Steps around n m) :
    ((s.after around n).pass (s.meets around n)).1 = m.outcome ∧
      ((s.after around n).pass (s.meets around n)).2.bridge = m.after := by
  obtain ⟨found, hfound, rfl⟩ := h
  rw [pass, hfound]
  exact ⟨rfl, rfl⟩

theorem waitFails_or_steps (s : Service) (around : Surroundings) (n : Nat) :
    (∃ error, s.WaitFails around n error) ∨ ∃ m, s.Steps around n m := by
  cases hfound : (s.meets around n).found (s.after around n).bridge with
  | error error => exact .inl ⟨error, hfound⟩
  | ok found => exact .inr ⟨_, found, hfound, rfl⟩

theorem endsWith_or_continues (s : Service) (around : Surroundings) (n : Nat) :
    (∃ ending, s.EndsWith around n ending) ∨ s.Continues around n := by
  cases hshutdown : (s.meets around n).shutdown with
  | true => exact .inl ⟨_, .shutdown hshutdown⟩
  | false =>
    rcases waitFails_or_steps s around n with ⟨error, hfails⟩ | ⟨m, hstep⟩
    · exact .inl ⟨_, .unwaited hshutdown hfails⟩
    · cases houtcome : m.outcome with
      | error f => exact .inl ⟨_, .fault hshutdown hstep houtcome⟩
      | ok outcome =>
        by_cases hstop : outcome = .stop
        · subst hstop
          exact .inl ⟨_, .hostClosed hshutdown hstep houtcome⟩
        · exact .inr ⟨hshutdown, m, outcome, hstep, houtcome, hstop⟩

theorem serve_of_quiet (h : (s.meets around n).shutdown = false) :
    (s.after around n).serve around n (passes + 1) =
      match (s.after around n).pass (s.meets around n) with
      | (.error f, s) => (some (.error f), s)
      | (.ok .stop, s) =>
        (some (.ok .hostClosed), s.noted (stoppedRecord .hostClosed s.bridge.tally))
      | (.ok _, s) => s.serve around (n + 1) passes := by
  have hquiet : ¬ (around n (s.after around n)).shutdown = true := by
    rw [show (around n (s.after around n)).shutdown = false from h]
    exact Bool.false_ne_true
  rw [serve, if_neg hquiet]
  rfl

theorem serve_of_last (hquiet : (s.meets around n).shutdown = false)
    (hlast : (∃ f, ((s.after around n).pass (s.meets around n)).1 = .error f ∧
        ending = .error f) ∨
      ((s.after around n).pass (s.meets around n)).1 = .ok .stop ∧ ending = .ok .hostClosed) :
    ((s.after around n).serve around n (passes + 1)).1 = some ending := by
  rw [serve_of_quiet hquiet]
  rcases hmet : (s.after around n).pass (s.meets around n) with ⟨outcome, s'⟩
  rw [hmet] at hlast
  rcases hlast with ⟨f, hfault, rfl⟩ | ⟨hstop, rfl⟩
  · cases hfault
    rfl
  · cases hstop
    rfl

theorem serve_of_endsWith (h : s.EndsWith around n ending) :
    ((s.after around n).serve around n (passes + 1)).1 = some ending := by
  cases h with
  | shutdown hshutdown =>
    rw [serve, if_pos (show (around n (s.after around n)).shutdown = true from hshutdown)]
  | unwaited hquiet hfails =>
    exact serve_of_last hquiet (.inl ⟨_, (pass_of_waitFails hfails).1, rfl⟩)
  | fault hquiet hstep houtcome =>
    exact serve_of_last hquiet (.inl ⟨_, (pass_of_steps hstep).1.trans houtcome, rfl⟩)
  | hostClosed hquiet hstep houtcome =>
    exact serve_of_last hquiet (.inr ⟨(pass_of_steps hstep).1.trans houtcome, rfl⟩)

theorem serve_of_continues (h : s.Continues around n) :
    (s.after around n).serve around n (passes + 1) =
      (s.after around (n + 1)).serve around (n + 1) passes := by
  obtain ⟨hquiet, m, outcome, hstep, houtcome, hstop⟩ := h
  have hpass := (pass_of_steps hstep).1
  have hafter : s.after around (n + 1) = ((s.after around n).pass (s.meets around n)).2 := rfl
  rw [serve_of_quiet hquiet, hafter]
  rw [houtcome] at hpass
  rcases hmet : (s.after around n).pass (s.meets around n) with ⟨outcome', s'⟩
  rw [hmet] at hpass
  cases hpass
  cases outcome with
  | stop => exact absurd rfl hstop
  | continues | completed | aborted => rfl

theorem not_continues_of_endsWith (h : s.EndsWith around n ending) :
    ¬ s.Continues around n := by
  intro hgoes
  have hserve : ((s.after around n).serve around n 1).1 = some ending := serve_of_endsWith h
  rw [serve_of_continues hgoes] at hserve
  cases hserve

/-- A bridge at work ends in the first pass in which it has a reason to. -/
theorem serve_eq_some_iff :
    ((s.after around n).serve around n passes).1 = some ending ↔
      ∃ k, n ≤ k ∧ k < n + passes ∧ (∀ j, n ≤ j → j < k → s.Continues around j) ∧
        s.EndsWith around k ending := by
  induction passes generalizing n with
  | zero =>
    refine ⟨nofun, fun ⟨k, hle, hlt, _⟩ => ?_⟩
    exact absurd hlt (Nat.not_lt_of_le hle)
  | succ passes ih =>
    rcases endsWith_or_continues s around n with ⟨first, hfirst⟩ | hgoes
    · have hserve : ((s.after around n).serve around n (passes + 1)).1 = some first :=
        serve_of_endsWith hfirst
      constructor
      · intro h
        obtain rfl := Option.some.inj (hserve.symm.trans h)
        exact ⟨n, Nat.le_refl n, by omega, fun j _ _ => by omega, hfirst⟩
      · rintro ⟨k, hle, -, hgoes, hends⟩
        rcases Nat.eq_or_lt_of_le hle with rfl | hlater
        · exact serve_of_endsWith hends
        · exact absurd (hgoes n (Nat.le_refl n) hlater) (not_continues_of_endsWith hfirst)
    · rw [serve_of_continues hgoes, ih]
      constructor
      · rintro ⟨k, hle, hlt, hrest, hends⟩
        refine ⟨k, by omega, by omega, fun j hj hjk => ?_, hends⟩
        rcases Nat.eq_or_lt_of_le hj with rfl | hlater
        · exact hgoes
        · exact hrest j hlater hjk
      · rintro ⟨k, hle, hlt, hrest, hends⟩
        rcases Nat.eq_or_lt_of_le hle with rfl | hlater
        · exact absurd hgoes (not_continues_of_endsWith hends)
        · exact ⟨k, hlater, by omega, fun j hj => hrest j (by omega), hends⟩

def opened (s : Service) : Service :=
  s.noted acceptingRecord

theorem run_eq_some_iff :
    (s.run around passes).1 = some ending ↔
      ∃ n < passes, s.opened.GoesOn around n ∧ s.opened.EndsWith around n ending := by
  refine (serve_eq_some_iff (s := s.opened) (n := 0)).trans ?_
  constructor
  · rintro ⟨n, -, hlt, hgoes, hends⟩
    exact ⟨n, by omega, fun k => hgoes k (Nat.zero_le k), hends⟩
  · rintro ⟨n, hlt, hgoes, hends⟩
    exact ⟨n, Nat.zero_le n, by omega, fun k _ => hgoes k, hends⟩

/-- When a bridge at work ends, and how. -/
structure Contained (s : Service) (around : Surroundings) (passes : Nat) : Prop where
  fails : (∃ e, (s.run around passes).1 = some (.error (.transport e))) ↔
    ∃ n < passes, s.opened.GoesOn around n ∧ (s.opened.meets around n).shutdown = false ∧
      ((∃ error, s.opened.WaitFails around n error) ∨
        ∃ m, s.opened.Steps around n m ∧ m.Fails)
  leaves : (s.run around passes).1 = some (.ok .hostClosed) ↔
    ∃ n < passes, s.opened.GoesOn around n ∧ (s.opened.meets around n).shutdown = false ∧
      ∃ m, s.opened.Steps around n m ∧ m.HostLeaves
  shutdown : (s.run around passes).1 = some (.ok .shutdown) ↔
    ∃ n < passes, s.opened.GoesOn around n ∧ (s.opened.meets around n).shutdown = true
  goesOn : (s.run around passes).1 = none ↔ s.opened.GoesOn around passes
  otherwise : (∀ n < passes, (s.opened.meets around n).shutdown = false ∧
    ∃ m, s.opened.Steps around n m ∧ ¬ m.Fails ∧ ¬ m.HostLeaves ∧ ¬ m.BeyondClock) →
      (s.run around passes).1 = none

end Service

namespace Bridge

variable {b : Bridge}

end Bridge

end SpiBridge
