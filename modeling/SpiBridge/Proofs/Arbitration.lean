import SpiBridge.Proofs.Coherence
/-!
# Who uses which channel when

The request line, the bus and the two channels of the host serve one transaction at a
time.  Main statements: what a step may do with each channel depends on its phase, a
transaction is begun by an idle step only and the slave goes first, all that happens
on the bus splits into blocks of which each belongs to one transaction, and a request
that comes while the host's transaction runs is answered by the first idle step after
it.
-/

namespace SpiBridge

namespace Phase

variable {phase next : Phase} {origin : Sync.Origin}

/-- The side whose transaction begins as the phase changes to that of its header. -/
def begins? (phase next : Phase) : Option Sync.Origin :=
  if next = phase then none
  else match next with
    | .slaveHeader => some .slave
    | .masterHeader => some .master
    | _ => none

theorem side?_of_begins (h : phase.begins? next = some origin) :
    next.side? = some origin ∧ (origin = .master → next.hearsSlave = false) := by
  unfold begins? at h
  split at h
  · cases h
  · cases next <;> cases h <;> exact ⟨rfl, by simp [hearsSlave]⟩

namespace Follows

theorem eq_idle (h : phase.Follows next) (hbegins : phase.begins? next = some origin) :
    phase = idle := by
  cases phase <;> cases next <;> simp_all [Follows, continuations, begins?]

theorem side? (h : phase.Follows next) (hnone : phase.begins? next = none) :
    next.side? = phase.side? ∨ next = idle := by
  cases phase <;> cases next <;> simp_all [Follows, continuations, begins?, Phase.side?]

theorem hearsSlave_of_begins_none (h : phase.Follows next) (hnone : phase.begins? next = none)
    (hdeaf : phase.hearsSlave = false) : next.hearsSlave = false := by
  cases phase <;> cases next <;> simp_all [Follows, continuations, begins?, hearsSlave]

end Follows

theorem eq_idle_of_side? (h : phase.side? = none) : phase = idle := by
  cases phase <;> first | rfl | cases h

end Phase

namespace Move

def busCalls (m : Move) : List Call :=
  m.left.bus.callsSince m.met.wiring.bus

def inboundCalls (m : Move) : List Call :=
  m.left.inbound.callsSince m.met.wiring.inbound

def outboundCalls (m : Move) : List Call :=
  m.left.outbound.channel.callsSince m.met.wiring.outbound.channel

/-- The side whose transaction a step begins. -/
def begins? (m : Move) : Option Sync.Origin :=
  m.before.transaction.phase.begins? m.after.transaction.phase

/-- What a step does with the channels: each is used in the phases that it serves and in one
direction, the host is asked once at most, and an idle bridge uses none. -/
structure Footprint (m : Move) : Prop where
  inbound : m.inboundCalls = [] ∨
    m.before.transaction.phase.hearsHost = true ∧ m.met.readiness.inbound = true ∧
      (∀ call ∈ m.inboundCalls, call.isRead = true) ∧
      m.inboundCalls.countP Call.isFruitful ≤ 1
  bus : m.busCalls = [] ∨
    (m.before.transaction.phase.hearsSlave = true ∧ ∀ call ∈ m.busCalls, call.isRead = true) ∨
    ((∃ origin, m.before.transaction.phase.sender? = some origin) ∧
      ∀ call ∈ m.busCalls, call.isRead = false)
  outbound : m.outboundCalls = [] ∨
    m.before.transaction.phase.hearsSlave = true ∧
      ∀ call ∈ m.outboundCalls, call.isRead = false
  idle : m.before.transaction.phase = .idle →
    m.left = { m.met.wiring with line := m.met.wiring.line.sample.2 }

/-- Which transaction a step begins is decided by what is pending once the line was sampled, and
only then by whether the host has written. -/
structure Arbitration (m : Move) : Prop where
  slave_first : ∀ level line, m.before.transaction.phase = .idle →
    m.met.wiring.line.sample = (.ok level, line) →
    (m.before.line.observe level).pending = true → m.begins? = some .slave
  begins : ∀ origin, m.begins? = some origin →
    m.before.transaction.phase = .idle ∧
      ∃ level line, m.met.wiring.line.sample = (.ok level, line) ∧
        (m.before.line.observe level).pending = (origin == .slave) ∧
        (origin = .master → m.met.readiness.inbound = true)

/-- The request line rises while the host's transaction runs. -/
def Interrupts (m : Move) : Prop :=
  m.before.transaction.phase.side? = some .master ∧ m.before.line.previous = false ∧
    ∃ line, m.met.wiring.line.sample = (.ok true, line)

def Decides (m : Move) : Prop :=
  m.before.transaction.phase = .idle ∧ ∃ level line, m.met.wiring.line.sample = (.ok level, line)

end Move

/-- Calls of which all reads come before the writes, and none reads unless the slave is heard. -/
def ReadsFirst (hears : Bool) (calls : List Call) : Prop :=
  ∃ reads writes, calls = reads ++ writes ∧ (∀ call ∈ reads, call.isRead = true) ∧
    (∀ call ∈ writes, call.isRead = false) ∧ (hears = false → reads = [])

namespace ReadsFirst

variable {hears : Bool} {front calls : List Call}

theorem nil (hears : Bool) : ReadsFirst hears [] :=
  ⟨[], [], rfl, by simp, by simp, fun _ => rfl⟩

theorem cons_reads (hreads : ∀ call ∈ front, call.isRead = true) (h : ReadsFirst hears calls) :
    ReadsFirst true (front ++ calls) := by
  obtain ⟨reads, writes, rfl, hreads', hwrites, -⟩ := h
  refine ⟨front ++ reads, writes, (List.append_assoc ..).symm, fun call hcall => ?_, hwrites,
    by simp⟩
  exact (List.mem_append.1 hcall).elim (hreads call) (hreads' call)

theorem cons_writes (hwrites : ∀ call ∈ front, call.isRead = false) (h : ReadsFirst false calls) :
    ReadsFirst hears (front ++ calls) := by
  obtain ⟨reads, writes, rfl, -, hwrites', hdeaf⟩ := h
  refine ⟨[], front ++ writes, by rw [hdeaf rfl]; rfl, by simp, fun call hcall => ?_,
    fun _ => rfl⟩
  exact (List.mem_append.1 hcall).elim (hwrites call) (hwrites' call)

theorem weaken {hears' : Bool} (h : ReadsFirst hears calls) (hle : hears' = false → hears = false) :
    ReadsFirst hears' calls := by
  obtain ⟨reads, writes, hcalls, hreads, hwrites, hdeaf⟩ := h
  exact ⟨reads, writes, hcalls, hreads, hwrites, fun hears => hdeaf (hle hears)⟩

end ReadsFirst

/-- The steps of a part of what happens: one that rests, or all those of one transaction, with
what they do on the bus. -/
inductive Segment : List Move → Prop
  | rest {m : Move} (hidle : m.before.transaction.phase = .idle) (hbegins : m.begins? = none)
      (hsilent : m.busCalls = []) : Segment [m]
  | transaction {origin : Sync.Origin} {first : Move} {others : List Move}
      (hidle : first.before.transaction.phase = .idle) (hbegins : first.begins? = some origin)
      (hothers : ∀ m ∈ others,
        m.before.transaction.phase.side? = some origin ∧ m.begins? = none)
      (hcalls : ReadsFirst (origin == .slave) ((first :: others).flatMap Move.busCalls)) :
      Segment (first :: others)

namespace Bridge

def course (b : Bridge) : List Encounter → List Move
  | [] => []
  | e :: es => b.move e :: (b.move e).after.course es

variable {b : Bridge} {e : Encounter} {m : Move}

theorem ending_of_move (b : Bridge) (e : Encounter) :
    (∃ error line, e.wiring.line.sample = (.error error, line) ∧
      b.move e = ⟨b, e, .error (.transport (.io error)), b, { e.wiring with line }⟩) ∨
    ∃ level line r, e.wiring.line.sample = (.ok level, line) ∧
      Turn.EndingOf e.readiness e.now (e.scene b level line) b.transaction.phase r ∧
      (b.move e).left = (Turn.sceneOf r).wiring ∧
      (b.move e).after.line = (Turn.sceneOf r).bridge.line := by
  have hmoves := moves_move b e
  generalize b.move e = m at hmoves ⊢
  cases hmoves with
  | unsampled hsample => exact .inl ⟨_, _, hsample, rfl⟩
  | done hsample hend | aborted hsample hend | failed hsample hend =>
    exact .inr ⟨_, _, _, hsample, hend, rfl, rfl⟩

theorem move_of_unsampled {error : IoError} {line : Line}
    (hsample : e.wiring.line.sample = (.error error, line)) :
    b.move e = ⟨b, e, .error (.transport (.io error)), b, { e.wiring with line }⟩ := by
  rcases ending_of_move b e with ⟨error', line', hsample', hmove⟩ | ⟨level, line', r, hsample', -⟩
  · obtain ⟨herror, rfl⟩ := Prod.mk.inj (hsample.symm.trans hsample')
    obtain rfl := Except.error.inj herror
    exact hmove
  · rw [hsample] at hsample'
    cases hsample'

theorem follows_of_move (b : Bridge) (e : Encounter) :
    b.transaction.phase.Follows (b.move e).after.transaction.phase := by
  have hmoves := moves_move b e
  generalize b.move e = m at hmoves ⊢
  cases hmoves with
  | unsampled => exact .inl rfl
  | @done level line outcome s hsample hend =>
    exact (Turn.leads_of_ending (s := e.scene b level line) rfl hend).follows
  | aborted => exact .inr (.inl rfl)
  | failed hsample hend => exact .inl (Turn.phase_of_error hend)

theorem inboundCalls_of_move (b : Bridge) (e : Encounter) :
    (b.move e).inboundCalls = [] ∨
      b.transaction.phase.hearsHost = true ∧ e.readiness.inbound = true ∧
        (∀ call ∈ (b.move e).inboundCalls, call.isRead = true) ∧
        (b.move e).inboundCalls.countP Call.isFruitful ≤ 1 := by
  rcases ending_of_move b e with ⟨error, line, -, hmove⟩ |
    ⟨level, line, r, -, hend, hleft, -⟩
  · rw [hmove]
    exact .inl (Channel.callsSince_self _)
  have hcalls : (b.move e).inboundCalls =
      (Turn.sceneOf r).wiring.inbound.callsSince e.wiring.inbound := by
    rw [← hleft]
    rfl
  rw [hcalls]
  rcases Turn.asks_of_ending hend with hsame | ⟨hhears, hready, target, result, hask⟩
  · rw [hsame]
    exact .inl (Channel.callsSince_self _)
  · have hread : e.wiring.inbound.readSome ((e.scene b level line).missing target) =
        (result, (Turn.sceneOf r).wiring.inbound) := hask
    exact .inr ⟨hhears, hready, (Channel.readsTo_of_readSome hread).isRead_callsSince,
      Channel.countP_isFruitful_of_readSome hread⟩

theorem busCalls_of_move (b : Bridge) (e : Encounter) :
    (b.move e).busCalls = [] ∨
      (b.transaction.phase.hearsSlave = true ∧
        ∀ call ∈ (b.move e).busCalls, call.isRead = true) ∨
      ((∃ origin, b.transaction.phase.sender? = some origin) ∧
        ∀ call ∈ (b.move e).busCalls, call.isRead = false) := by
  rcases ending_of_move b e with ⟨error, line, -, hmove⟩ |
    ⟨level, line, r, -, hend, hleft, -⟩
  · rw [hmove]
    exact .inl (Channel.callsSince_self _)
  have hcalls : (b.move e).busCalls =
      (Turn.sceneOf r).wiring.bus.callsSince (e.scene b level line).wiring.bus := by
    rw [← hleft]
    rfl
  rw [hcalls]
  rcases hsender : b.transaction.phase.sender? with _ | origin
  · rcases Turn.fills_of_ending hsender hend with hsame | ⟨hhears, target, hfill⟩
    · rw [hsame]
      exact .inl (Channel.callsSince_self _)
    · obtain ⟨taken, htook⟩ := Intake.took_fill (e.scene b level line).intake target
      have hreads := htook.bus
      rw [← hfill] at hreads
      exact .inr (.inl ⟨hhears, hreads.isRead_callsSince⟩)
  · obtain ⟨sent, hwrites⟩ := Turn.writesTo_bus_of_send (Turn.sendEnding_of_ending hsender hend)
    exact .inr (.inr ⟨⟨origin, rfl⟩, hwrites.not_isRead_callsSince⟩)

theorem outboundCalls_of_move (b : Bridge) (e : Encounter) :
    (b.move e).outboundCalls = [] ∨
      b.transaction.phase.hearsSlave = true ∧
        ∀ call ∈ (b.move e).outboundCalls, call.isRead = false := by
  rcases ending_of_move b e with ⟨error, line, -, hmove⟩ |
    ⟨level, line, r, -, hend, hleft, -⟩
  · rw [hmove]
    exact .inl (Channel.callsSince_self _)
  have hcalls : (b.move e).outboundCalls =
      (Turn.sceneOf r).wiring.outbound.channel.callsSince
        (e.scene b level line).wiring.outbound.channel := by
    rw [← hleft]
    rfl
  rw [hcalls]
  rcases Turn.forwards_of_ending hend with hsame | ⟨hhears, raw, result, hforward⟩
  · rw [hsame]
    exact .inl (Channel.callsSince_self _)
  · obtain ⟨sent, hwrites, -⟩ := Outlet.offersTo_of_writeWithin hforward
    exact .inr ⟨hhears, hwrites.not_isRead_callsSince⟩

theorem move_of_idle {level : Bool} {line : Line} (hphase : b.transaction.phase = .idle)
    (hsample : e.wiring.line.sample = (.ok level, line)) :
    (b.move e).outcome = .ok .continues ∧ (b.move e).left = { e.wiring with line } ∧
      (b.move e).begins? =
        if (b.line.observe level).pending then some .slave
        else if e.readiness.inbound then some .master
        else none := by
  have hmoves := moves_move b e
  have hbefore : (b.move e).before.transaction.phase = .idle := hphase
  generalize b.move e = m at hmoves hbefore ⊢
  cases hmoves with
  | unsampled hsample' =>
    rw [hsample] at hsample'
    cases hsample'
  | done hsample' hend =>
    rw [hsample] at hsample'
    cases hsample'
    rw [hphase] at hend
    have hline : (e.scene b level line).bridge.line = b.line.observe level := rfl
    cases hend with
    | answersRequest hpending =>
      rw [hline] at hpending
      refine ⟨rfl, rfl, ?_⟩
      rw [if_pos hpending, Move.begins?, hbefore]
      rfl
    | hearsHost hpending hready =>
      rw [hline] at hpending
      refine ⟨rfl, rfl, ?_⟩
      rw [hpending, if_neg (by simp), if_pos hready, Move.begins?, hbefore]
      rfl
    | rests hpending hready =>
      rw [hline] at hpending
      refine ⟨rfl, rfl, ?_⟩
      rw [hpending, if_neg (by simp), hready, if_neg (by simp)]
      exact if_pos rfl
  | aborted _ hend | failed _ hend =>
    rw [hphase] at hend
    cases hend

theorem footprint_of_move (b : Bridge) (e : Encounter) : (b.move e).Footprint := by
  refine ⟨inboundCalls_of_move b e, busCalls_of_move b e, outboundCalls_of_move b e, ?_⟩
  intro hidle
  have hphase : b.transaction.phase = .idle := hidle
  show (b.move e).left = { e.wiring with line := e.wiring.line.sample.2 }
  rcases ending_of_move b e with ⟨error, line, hsample, hmove⟩ | ⟨level, line, r, hsample, -⟩
  · rw [hmove, hsample]
  · rw [hsample, (move_of_idle hphase hsample).2.1]

/-! ## Where transactions begin -/

theorem phase_of_begins {origin : Sync.Origin} (h : (b.move e).begins? = some origin) :
    b.transaction.phase = .idle :=
  (follows_of_move b e).eq_idle h

theorem begins_of_running (hphase : b.transaction.phase ≠ .idle) : (b.move e).begins? = none :=
  Option.eq_none_iff_forall_ne_some.2 fun _ hbegins => hphase (phase_of_begins hbegins)

theorem begins_of_unsampled {error : IoError} {line : Line}
    (hsample : e.wiring.line.sample = (.error error, line)) :
    (b.move e).begins? = none ∧ (b.move e).after = b := by
  rw [move_of_unsampled hsample]
  exact ⟨if_pos rfl, rfl⟩

theorem arbitration_of_move (b : Bridge) (e : Encounter) : (b.move e).Arbitration := by
  refine ⟨fun level line hidle hsample hpending => ?_, fun origin hbegins => ?_⟩
  · have hphase : b.transaction.phase = .idle := hidle
    have hsample' : e.wiring.line.sample = (.ok level, line) := hsample
    rw [(move_of_idle hphase hsample').2.2]
    exact if_pos hpending
  · have hphase := phase_of_begins hbegins
    refine ⟨hphase, ?_⟩
    rcases hsample : e.wiring.line.sample with ⟨error | level, line⟩
    · rw [(begins_of_unsampled hsample).1] at hbegins
      cases hbegins
    refine ⟨level, line, hsample, ?_⟩
    show (b.line.observe level).pending = (origin == .slave) ∧ _
    rw [(move_of_idle hphase hsample).2.2] at hbegins
    cases hpending : (b.line.observe level).pending with
    | true =>
      rw [hpending, if_pos rfl] at hbegins
      cases hbegins
      exact ⟨rfl, by simp⟩
    | false =>
      rw [hpending, if_neg (by simp)] at hbegins
      split at hbegins <;> cases hbegins
      exact ⟨rfl, fun _ => ‹_›⟩

theorem isRead_of_hearsSlave (hhears : b.transaction.phase.hearsSlave = true) :
    ∀ call ∈ (b.move e).busCalls, call.isRead = true := by
  rcases busCalls_of_move b e with hsilent | ⟨-, hreads⟩ | ⟨⟨origin, hsender⟩, -⟩
  · simp [hsilent]
  · exact hreads
  · rcases hphase : b.transaction.phase <;> rw [hphase] at hhears hsender <;>
      simp_all [Phase.hearsSlave, Phase.sender?]

theorem not_isRead_of_deaf (hdeaf : b.transaction.phase.hearsSlave = false) :
    ∀ call ∈ (b.move e).busCalls, call.isRead = false := by
  rcases busCalls_of_move b e with hsilent | ⟨hhears, -⟩ | ⟨-, hwrites⟩
  · simp [hsilent]
  · rw [hdeaf] at hhears
    cases hhears
  · exact hwrites

theorem busCalls_of_idle (hphase : b.transaction.phase = .idle) : (b.move e).busCalls = [] := by
  rcases busCalls_of_move b e with hsilent | ⟨hhears, -⟩ | ⟨⟨origin, hsender⟩, -⟩
  · exact hsilent
  · rw [hphase] at hhears
    cases hhears
  · rw [hphase] at hsender
    cases hsender

/-! ## The segments of what happens -/

/-- What is left to do of the transaction in which a bridge is. -/
structure Finishes (b : Bridge) (moves : List Move) : Prop where
  side : ∀ m ∈ moves, ∃ origin, b.transaction.phase.side? = some origin ∧
    m.before.transaction.phase.side? = some origin ∧ m.begins? = none
  calls : ReadsFirst b.transaction.phase.hearsSlave (moves.flatMap Move.busCalls)

namespace Finishes

variable {moves : List Move} {origin : Sync.Origin}

theorem nil (b : Bridge) : b.Finishes [] :=
  ⟨by simp, .nil _⟩

theorem cons (hside : b.transaction.phase.side? = some origin)
    (hnone : (b.move e).begins? = none) (h : (b.move e).after.Finishes moves) :
    b.Finishes (b.move e :: moves) := by
  constructor
  · intro m hm
    rcases List.mem_cons.1 hm with rfl | hm
    · exact ⟨origin, hside, hside, hnone⟩
    obtain ⟨origin', hafter, hm, hbegins⟩ := h.side m hm
    rcases (follows_of_move b e).side? hnone with hsame | hidle
    · exact ⟨origin', hsame.symm.trans hafter, hm, hbegins⟩
    · rw [hidle] at hafter
      cases hafter
  · rw [List.flatMap_cons]
    cases hhears : b.transaction.phase.hearsSlave with
    | true => exact h.calls.cons_reads (isRead_of_hearsSlave hhears)
    | false =>
      have hdeaf := (follows_of_move b e).hearsSlave_of_begins_none hnone hhears
      exact (hdeaf ▸ h.calls).cons_writes (not_isRead_of_deaf hhears)

theorem nil_of_idle (h : b.Finishes moves) (hphase : b.transaction.phase = .idle) :
    moves = [] := by
  refine List.eq_nil_iff_forall_not_mem.2 fun m hm => ?_
  obtain ⟨origin, hside, -⟩ := h.side m hm
  rw [hphase] at hside
  cases hside

theorem segment (hbegins : (b.move e).begins? = some origin)
    (h : (b.move e).after.Finishes moves) : Segment (b.move e :: moves) := by
  have hphase := phase_of_begins hbegins
  obtain ⟨hside, hdeaf⟩ := Phase.side?_of_begins hbegins
  refine .transaction hphase hbegins (fun m hm => ?_) ?_
  · obtain ⟨origin', hafter, hm, hnone⟩ := h.side m hm
    rw [hside] at hafter
    cases hafter
    exact ⟨hm, hnone⟩
  · rw [List.flatMap_cons, busCalls_of_idle hphase, List.nil_append]
    refine h.calls.weaken fun horigin => hdeaf ?_
    cases origin with
    | master => rfl
    | slave => cases horigin

end Finishes

theorem exists_segments (b : Bridge) (es : List Encounter) :
    ∃ moves, ∃ segments : List (List Move), b.course es = moves ++ segments.flatten ∧
      b.Finishes moves ∧ ∀ segment ∈ segments, Segment segment := by
  induction es generalizing b with
  | nil => exact ⟨[], [], rfl, .nil b, by simp⟩
  | cons e es ih =>
    obtain ⟨moves, segments, hcourse, hmoves, hsegments⟩ := ih (b.move e).after
    cases hbegins : (b.move e).begins? with
    | some origin =>
      refine ⟨[], (b.move e :: moves) :: segments, ?_, .nil b, ?_⟩
      · rw [course, hcourse]
        simp
      · intro segment hsegment
        rcases List.mem_cons.1 hsegment with rfl | hsegment
        · exact hmoves.segment hbegins
        · exact hsegments segment hsegment
    | none =>
      cases hside : b.transaction.phase.side? with
      | some origin =>
        refine ⟨b.move e :: moves, segments, ?_, hmoves.cons hside hbegins, hsegments⟩
        rw [course, hcourse]
        rfl
      | none =>
        have hphase := Phase.eq_idle_of_side? hside
        have hafter : (b.move e).after.transaction.phase = .idle := by
          rcases (follows_of_move b e).side? hbegins with hsame | hidle
          · exact Phase.eq_idle_of_side? (hsame.trans hside)
          · exact hidle
        obtain rfl := hmoves.nil_of_idle hafter
        refine ⟨[], [b.move e] :: segments, ?_, .nil b, ?_⟩
        · rw [course, hcourse]
          rfl
        · intro segment hsegment
          rcases List.mem_cons.1 hsegment with rfl | hsegment
          · exact .rest hphase hbegins (busCalls_of_idle hphase)
          · exact hsegments segment hsegment

/-! ## Requests that wait -/

theorem pending_of_move (hpending : b.line.pending = true) (hundecided : ¬ (b.move e).Decides) :
    (b.move e).begins? = none ∧ (b.move e).after.line.pending = true := by
  rcases ending_of_move b e with ⟨error, line, hsample, -⟩ |
    ⟨level, line, r, hsample, hend, -, hline⟩
  · obtain ⟨hnone, hafter⟩ := begins_of_unsampled (b := b) hsample
    exact ⟨hnone, by rw [hafter]; exact hpending⟩
  have hphase : b.transaction.phase ≠ .idle := fun hphase =>
    hundecided ⟨hphase, level, line, hsample⟩
  refine ⟨Option.eq_none_iff_forall_ne_some.2 fun origin hbegins =>
    hphase (phase_of_begins hbegins), ?_⟩
  rw [hline, Turn.line_of_ending hphase hend]
  show (b.line.pending || _) = true
  rw [hpending, Bool.true_or]

theorem pending_of_interrupts (h : (b.move e).Interrupts) :
    (b.move e).after.line.pending = true := by
  obtain ⟨hside, hlow, line, hsample⟩ := h
  have hphase : b.transaction.phase ≠ .idle := by
    intro hphase
    have hside' : b.transaction.phase.side? = some .master := hside
    rw [hphase] at hside'
    cases hside'
  rcases ending_of_move b e with ⟨error, line', hsample', -⟩ |
    ⟨level, line', r, hsample', hend, -, hline⟩ <;>
    have hsame := hsample'.symm.trans hsample
  · cases hsame
  · cases hsame
    have hlow' : b.line.previous = false := hlow
    rw [hline, Turn.line_of_ending hphase hend]
    show (b.line.pending || (true && !b.line.previous)) = true
    rw [hlow']
    exact Bool.or_true _

/-- The first decision after a request became pending goes to the slave. -/
theorem begins_of_pending {middle back : List Move} (es : List Encounter)
    (hpending : b.line.pending = true) (hcourse : b.course es = middle ++ m :: back)
    (hundecided : ∀ q ∈ middle, ¬ q.Decides) (hdecides : m.Decides) :
    (∀ q ∈ middle, q.begins? = none) ∧ m.begins? = some .slave := by
  induction middle generalizing b es with
  | nil =>
    cases es with
    | nil => cases hcourse
    | cons e es =>
      obtain ⟨rfl, -⟩ := List.cons.inj hcourse
      obtain ⟨hidle, level, line, hsample⟩ := hdecides
      refine ⟨by simp, (arbitration_of_move b e).slave_first level line hidle hsample ?_⟩
      show (b.line.pending || _) = true
      rw [hpending, Bool.true_or]
  | cons first middle ih =>
    cases es with
    | nil => cases hcourse
    | cons e es =>
      obtain ⟨rfl, hrest⟩ := List.cons.inj hcourse
      obtain ⟨hnone, hstill⟩ := pending_of_move hpending (hundecided _ List.mem_cons_self)
      obtain ⟨hmiddle, hm⟩ := ih es hstill hrest fun q hq => hundecided q (by simp [hq])
      refine ⟨fun q hq => ?_, hm⟩
      rcases List.mem_cons.1 hq with rfl | hq
      · exact hnone
      · exact hmiddle q hq

theorem exists_course_of_append {front back : List Move} {es : List Encounter}
    (h : b.course es = front ++ back) : ∃ c es', back = course c es' := by
  induction front generalizing b es with
  | nil => exact ⟨b, es, h.symm⟩
  | cons first front ih =>
    cases es with
    | nil => cases h
    | cons e es => exact ih (List.cons.inj h).2

theorem exists_move_of_mem {es : List Encounter} (hm : m ∈ b.course es) :
    ∃ c e, m = move c e := by
  obtain ⟨front, back, hcourse⟩ := List.append_of_mem hm
  obtain ⟨c, es', hback⟩ := exists_course_of_append hcourse
  cases es' with
  | nil => cases hback
  | cons e es' => exact ⟨c, e, (List.cons.inj hback).1⟩

theorem begins_of_interrupts {front middle back : List Move} {m' : Move} {es : List Encounter}
    (hcourse : b.course es = front ++ m :: (middle ++ m' :: back)) (hm : m.Interrupts)
    (hundecided : ∀ q ∈ middle, ¬ q.Decides) (hdecides : m'.Decides) :
    m.begins? = none ∧ (∀ q ∈ middle, q.begins? = none) ∧ m'.begins? = some .slave := by
  obtain ⟨c, es', hback⟩ := exists_course_of_append hcourse
  cases es' with
  | nil => cases hback
  | cons e es' =>
    obtain ⟨rfl, hrest⟩ := List.cons.inj hback
    refine ⟨Option.eq_none_iff_forall_ne_some.2 fun origin hbegins => ?_,
      begins_of_pending es' (pending_of_interrupts hm) hrest.symm hundecided hdecides⟩
    have hside : c.transaction.phase.side? = some .master := hm.1
    rw [phase_of_begins hbegins] at hside
    cases hside

/-- Whatever a bridge meets after its start: each step uses the channels that its phase serves,
and an idle one none; transactions are begun by idle steps, for the host only if nothing is
pending and it has written; what happens splits into segments of one transaction each; and a
request during the host's transaction is answered by the first decision after it. -/
theorem arbitration_of_start {transaction : Transaction} {timing : Timing} {wiring : Wiring}
    (hstart : (start transaction timing wiring).1 = .ok b) (es : List Encounter) :
    (∀ m ∈ b.course es, m.Footprint ∧ m.Arbitration) ∧
    (∃ segments : List (List Move), b.course es = segments.flatten ∧
      ∀ segment ∈ segments, Segment segment) ∧
    ∀ front m middle m' back, b.course es = front ++ m :: (middle ++ m' :: back) →
      m.Interrupts → (∀ q ∈ middle, ¬ q.Decides) → m'.Decides →
      m.begins? = none ∧ (∀ q ∈ middle, q.begins? = none) ∧ m'.begins? = some .slave := by
  refine ⟨fun m hm => ?_, ?_, fun front m middle m' back => begins_of_interrupts⟩
  · obtain ⟨c, e, rfl⟩ := exists_move_of_mem hm
    exact ⟨footprint_of_move c e, arbitration_of_move c e⟩
  · obtain ⟨moves, segments, hcourse, hmoves, hsegments⟩ := exists_segments b es
    have hphase : b.transaction.phase = .idle := by
      obtain ⟨level, rfl⟩ := start_eq_ok hstart
      rfl
    obtain rfl := hmoves.nil_of_idle hphase
    exact ⟨segments, hcourse, hsegments⟩

/-- The line rises while the bridge reads the header of a command: the command is sent, and then
the slave's frame is read. -/
theorem arbitration_of_start_of_interruption :
    ∃ es opens m sends m' reads,
      (atRest (.ofRooms 64 64)).course es = [opens] ++ m :: ([sends] ++ m' :: [reads]) ∧
      (∀ q ∈ (atRest (.ofRooms 64 64)).course es, q.Footprint ∧ q.Arbitration) ∧
      (∃ segments : List (List Move), (atRest (.ofRooms 64 64)).course es = segments.flatten ∧
        ∀ segment ∈ segments, Segment segment) ∧
      opens.begins? = some .master ∧ m.after.line = ⟨true, true⟩ ∧
      (sends.busCalls.map Call.isRead, reads.busCalls.map Call.isRead) = ([false, false], [true]) ∧
      m.begins? = none ∧ m'.begins? = some .slave := by
  have hstart : (start (.ofRooms 64 64) {} {}).1 = .ok (atRest (.ofRooms 64 64)) := rfl
  obtain ⟨hsteps, hsegments, hdefers⟩ := arbitration_of_start hstart [.ofHost [],
    { Encounter.ofHost [.data [2, 7, 0, 0]] with wiring.line.level := true },
    { wiring.line.level := true }, { wiring.line.level := true },
    { Encounter.ofBus [.data [2, 5, 0, 0]] with wiring.line.level := true }]
  refine ⟨_, _, _, _, _, _, rfl, hsteps, hsegments, by decide +kernel, by decide +kernel,
    by decide +kernel, ?_⟩
  have hmiddle := hdefers [_] _ [_] _ [_] rfl ⟨by decide +kernel, by decide +kernel, _, rfl⟩
  obtain ⟨hbegins, -, hslave⟩ := hmiddle
    (fun q hq hdecides => absurd hdecides.1 (by rw [List.mem_singleton.1 hq]; decide +kernel))
    ⟨by decide +kernel, _, _, rfl⟩
  exact ⟨hbegins, hslave⟩

end Bridge

end SpiBridge
