import SpiBridge.Proofs.Containment
import SpiBridge.Proofs.Hearing
/-!
# The deadline of an answer

A bridge that forwarded a read of the slave waits for the host's answer until a
deadline.  The deadline is set once, and the bridge looks at it only when its reading
left the answer open.

Main statement: whatever the bridge meets, faults and clocks that go back included, a
step gives up the answer if and only if the deadline is reached by then and the step's
reading neither completed the answer nor broke off; and only such steps run out of time.
-/

namespace SpiBridge

open Command (Header Frame)

namespace Command.Frame

/-- What the front of a frame calls for: its header, or all bytes that the header announces. -/
def CallsFor (raw : Bytes) (length : Nat) : Prop :=
  raw.length < Header.size ∧ length = Header.size ∨
    ∃ header, Header.parse raw = .ok header ∧ length = header.frameLength

theorem Unfinished.legible {raw : Bytes} (h : Unfinished raw) : Legible raw := by
  intro hsize
  rcases h with hshort | ⟨header, hparse, -⟩
  · omega
  · exact ⟨header, hparse⟩

theorem CallsFor.unique {raw : Bytes} {m n : Nat} (hm : CallsFor raw m) (hn : CallsFor raw n) :
    m = n := by
  rcases hm with ⟨hshort, rfl⟩ | ⟨header, hparse, rfl⟩ <;>
    rcases hn with ⟨hshort', rfl⟩ | ⟨header', hparse', rfl⟩
  · rfl
  · have hsize := Header.size_le_of_parse hparse'
    omega
  · have hsize := Header.size_le_of_parse hparse
    omega
  · rw [hparse] at hparse'
    cases hparse'
    rfl

end Command.Frame

/-- What is wrong with an answer of which bytes were read before and more bytes now: its header is
none, or its buffer has no room for what the bytes before call for. -/
inductive Buffer.Faulty (frame : Buffer) (asked : Prop) (more : Bytes) : FramingError → Prop
  | header {e : FramingError} (hsize : Header.size ≤ (frame.filled ++ more).length)
      (hparse : Header.parse (frame.filled ++ more) = .error e) : frame.Faulty asked more e
  | room {target : Nat} (hasked : asked) (hcalls : Frame.CallsFor frame.filled target)
      (hroom : frame.capacity < target) :
      frame.Faulty asked more (frame.overflow (target - frame.length))

namespace Buffer

variable {frame : Buffer} {asked : Prop} {more : Bytes} {target : Nat} {e : FramingError}

theorem capacity_lt_iff : frame.capacity < target ↔ frame.remaining < target - frame.length := by
  rw [← length_add_remaining]
  omega

theorem faulty_iff_of_lent {lent : Bytes} (hcalls : Frame.CallsFor frame.filled target)
    (hlend : frame.lend (target - frame.length) = .ok lent) :
    frame.Faulty asked more e ↔ Header.size ≤ (frame.filled ++ more).length ∧
      Header.parse (frame.filled ++ more) = .error e := by
  constructor
  · intro h
    cases h with
    | header hsize hparse => exact ⟨hsize, hparse⟩
    | room hasked hcalls' hroom =>
      obtain rfl := hcalls.unique hcalls'
      rw [lend, if_neg (Nat.not_le.2 (capacity_lt_iff.1 hroom))] at hlend
      cases hlend
  · rintro ⟨hsize, hparse⟩
    exact .header hsize hparse

theorem faulty_iff_of_full (hmissing : Frame.Unfinished frame.filled) (hasked : asked)
    (hcalls : Frame.CallsFor frame.filled target)
    (hlend : frame.lend (target - frame.length) = .error e) (e' : FramingError) :
    frame.Faulty asked [] e' ↔ e' = e := by
  have hfull : frame.remaining < target - frame.length ∧
      e = frame.overflow (target - frame.length) := by
    unfold lend at hlend
    split at hlend
    · cases hlend
    · exact ⟨by omega, (Except.error.inj hlend).symm⟩
  constructor
  · intro h
    cases h with
    | header hsize hparse =>
      rw [List.append_nil] at hsize hparse
      exact absurd hparse (hmissing.legible.ne_error hsize)
    | room _ hcalls' _ =>
      obtain rfl := hcalls.unique hcalls'
      exact hfull.2.symm
  · rintro rfl
    rw [hfull.2]
    exact .room hasked hcalls (capacity_lt_iff.2 hfull.1)

theorem not_faulty_of_unasked (hmissing : Frame.Unfinished frame.filled) (hasked : ¬ asked) :
    ¬ frame.Faulty asked [] e := by
  intro h
  cases h with
  | header hsize hparse =>
    rw [List.append_nil] at hsize hparse
    exact hmissing.legible.ne_error hsize hparse
  | room hasked' => exact hasked hasked'

end Buffer

namespace Move

def fromHost (m : Move) : Bytes :=
  m.inboundCalls.flatMap Call.received

def Completes (m : Move) : Prop :=
  ∃ f, Frame.parse (m.before.transaction.frame.filled ++ m.fromHost) = .ok f

def Listens (m : Move) : Prop :=
  m.met.readiness.inbound = true ∧ ∃ level line, m.met.wiring.line.sample = (.ok level, line)

/-- The bytes of the answer, those before a step and those that it read, cannot be gone on with. -/
def Breaks (m : Move) (e : FramingError) : Prop :=
  m.before.transaction.frame.Faulty m.Listens m.fromHost e

def Requests (m : Move) : Prop :=
  m.before.transaction.phase = .slaveHeader ∧
    m.after.transaction.phase = .slaveAwaitingHostAnswer

/-- How a step goes on with an answer that is due at a number of nanoseconds, after a limit. -/
structure Reckons (m : Move) (limit : Duration) (due : Nat) : Prop where
  timeout_iff : m.outcome = .ok (.aborted (.timeout limit)) ↔
    due ≤ m.met.now.nanos ∧ ¬ m.Completes ∧ (∀ e, ¬ m.Breaks e) ∧ ¬ m.Fails
  framing_iff : ∀ e, m.outcome = .ok (.aborted (.framing e)) ↔ m.Breaks e
  completes : m.Completes →
    m.outcome = .ok .continues ∧ m.after.transaction.phase = .slaveAnswerToBus
  unready : m.met.readiness.inbound = false → ¬ m.Completes ∧ ∀ e, ¬ m.Breaks e
  given_up : m.outcome = .ok (.aborted (.timeout limit)) →
    m.after.transaction.phase = .idle ∧ m.after.transaction.frame.filled = [] ∧
      m.after.transaction.wire.filled = []

theorem reckons_of_open {m : Move} {limit : Duration} {due : Nat} (hopen : ¬ m.Completes)
    (hfails : (∃ e, m.outcome = .error (.transport e)) ↔ m.Fails)
    (hunready : m.met.readiness.inbound = false → ∀ e, ¬ m.Breaks e)
    (hgiven : m.outcome = .ok (.aborted (.timeout limit)) →
      m.after.transaction.phase = .idle ∧ m.after.transaction.frame.filled = [] ∧
        m.after.transaction.wire.filled = [])
    (hends : (∃ e, m.outcome = .ok (.aborted (.framing e)) ∧ ∀ e', m.Breaks e' ↔ e' = e) ∨
      (∀ e, ¬ m.Breaks e) ∧ (m.Fails ∨ m.outcome = .ok
        (if due ≤ m.met.now.nanos then .aborted (.timeout limit) else .continues))) :
    m.Reckons limit due := by
  refine ⟨?_, fun e => ?_, fun hdone => absurd hdone hopen,
    fun hready => ⟨hopen, hunready hready⟩, hgiven⟩
  · rw [← hfails]
    rcases hends with ⟨e, hframing, hbreaks⟩ | ⟨hsound, hfails' | hclock⟩
    · simp [hframing, hbreaks]
    · obtain ⟨e, hfault⟩ := hfails.2 hfails'
      simp [hfault]
    · by_cases hlate : due ≤ m.met.now.nanos
      · rw [if_pos hlate] at hclock
        simp [hsound, hclock, hlate, hopen]
      · rw [if_neg hlate] at hclock
        simp [hclock, hlate]
  · rcases hends with ⟨e', hframing, hbreaks⟩ | ⟨hsound, hfails' | hclock⟩
    · rw [hbreaks, hframing]
      simp [eq_comm]
    · obtain ⟨e', hfault⟩ := hfails.2 hfails'
      simp [hfault, hsound]
    · rw [hclock]
      split <;> simp [hsound]

end Move

/-! ## A turn that awaits an answer -/

namespace Turn

variable {readiness : Readiness} {now : Instant} {s q : Scene} {r : Ending} {limit : Duration}

theorem limit_of_lapse (h : s.lapse now = .error (.transaction (.timeout limit)) q) :
    limit = s.bridge.timing.answer := by
  unfold Scene.lapse at h
  split at h
  · cases h
  · split at h <;> cases h
    rfl

theorem limit_of_ending {phase : Phase}
    (hend : EndingOf readiness now s phase (.error (.transaction (.timeout limit)) q)) :
    limit = s.bridge.timing.answer := by
  obtain ⟨rfl, -⟩ := leads_of_setback hend
  generalize hr : (EStateM.Result.error (.transaction (.timeout limit)) q : Ending) = r at hend
  cases hend with
  | unready | blocked | incomplete =>
    have hlimit := limit_of_lapse hr.symm
    exact hlimit
  | _ => cases hr

def Spoils (readiness : Readiness) (s : Scene) (r : Ending) (e : FramingError) : Prop :=
  s.bridge.transaction.frame.Faulty (readiness.inbound = true) (heard s r) e

inductive Reading (readiness : Readiness) (now : Instant) (s : Scene) : Ending → Prop
  | undecided {q : Scene}
      (hdeadline : q.bridge.transaction.deadline = s.bridge.transaction.deadline)
      (htiming : q.bridge.timing = s.bridge.timing)
      (hopen : ∀ f, Frame.parse (s.bridge.transaction.frame.filled ++ heard s (q.lapse now)) ≠
        .ok f)
      (hsound : ∀ e, ¬ Spoils readiness s (q.lapse now) e) : Reading readiness now s (q.lapse now)
  | breaks {e : FramingError} {q : Scene} {r : Ending}
      (hr : r = .error (.transaction (.framing e)) q) (hready : readiness.inbound = true)
      (hopen : ∀ f, Frame.parse (s.bridge.transaction.frame.filled ++ heard s r) ≠ .ok f)
      (hspoils : ∀ e', Spoils readiness s r e' ↔ e' = e) : Reading readiness now s r
  | fails {e : TransportError} {q : Scene} {r : Ending}
      (hr : r = .error (.fault (.transport e)) q)
      (hopen : ∀ f, Frame.parse (s.bridge.transaction.frame.filled ++ heard s r) ≠ .ok f)
      (hsound : ∀ e, ¬ Spoils readiness s r e) : Reading readiness now s r
  | completes {q : Scene} {r : Ending} (hr : r = .ok .continues q)
      (hready : readiness.inbound = true)
      (hphase : q.bridge.transaction.phase = .slaveAnswerToBus)
      (hwhole : ∃ f, Frame.parse (s.bridge.transaction.frame.filled ++ heard s r) = .ok f)
      (hsound : ∀ e, ¬ Spoils readiness s r e) : Reading readiness now s r

theorem not_spoils_of_lent {target : Nat} {lent bytes : Bytes}
    (htarget : s.bridge.transaction.answerLength = .ok target)
    (hlend : s.bridge.transaction.frame.lend (s.missing target) = .ok lent)
    (hheard : heard s r = bytes)
    (hlegible : Frame.Legible (s.bridge.transaction.frame.filled ++ bytes)) (e : FramingError) :
    ¬ Spoils readiness s r e := by
  rw [Spoils, Buffer.faulty_iff_of_lent (Transaction.answerLength_eq_ok htarget) hlend, hheard]
  exact fun ⟨hsize, hparse⟩ => hlegible.ne_error hsize hparse

theorem reading_of_answer (hmissing : Frame.Unfinished s.bridge.transaction.frame.filled)
    (hend : AnswerEnding readiness now s r) : Reading readiness now s r := by
  have hopen : ∀ {r : Ending}, heard s r = [] →
      ∀ f, Frame.parse (s.bridge.transaction.frame.filled ++ heard s r) ≠ .ok f := by
    intro r hnone f
    rw [hnone, List.append_nil]
    exact hmissing.parse_ne_ok f
  have hlegible : Frame.Legible (s.bridge.transaction.frame.filled ++ []) := by
    rw [List.append_nil]
    exact hmissing.legible
  cases hend with
  | unready hready =>
    have hnone : heard s (s.lapse now) = [] := heard_of_same (by rw [sceneOf_lapse])
    refine .undecided rfl rfl (hopen hnone) fun e => ?_
    rw [Spoils, hnone]
    exact Buffer.not_faulty_of_unasked hmissing (by simp [hready])
  | malformed hready htarget =>
    obtain ⟨hsize, hparse⟩ :=
      Transaction.header?_eq_error (Transaction.answerLength_eq_error htarget)
    exact absurd hparse (hmissing.legible.ne_error hsize)
  | @noRoom target e hready htarget hlend =>
    have hnone : heard s (.error (.transaction (.framing e)) s) = [] := heard_of_same rfl
    refine .breaks rfl hready (hopen hnone) fun e' => ?_
    rw [Spoils, hnone]
    exact Buffer.faulty_iff_of_full hmissing hready (Transaction.answerLength_eq_ok htarget)
      hlend e'
  | @unread _ _ error c hready htarget hlend hask =>
    have hnone : heard s (.error (.fault (.transport error)) (s.listening c)) = [] :=
      heard_of_error hask rfl
    exact .fails rfl (hopen hnone) (not_spoils_of_lent htarget hlend hnone hlegible)
  | @blocked _ _ c hready htarget hlend hask =>
    have hnone : heard s ((s.listening c).lapse now) = [] :=
      heard_of_none hask (by rw [sceneOf_lapse]; rfl)
    exact .undecided rfl rfl (hopen hnone) (not_spoils_of_lent htarget hlend hnone hlegible)
  | @closed _ _ c hready htarget hlend hask =>
    have hnone : heard s (.error (.fault (.transport (.closed .inbound))) (s.hearing c [])) = [] :=
      heard_of_some hask rfl
    exact .fails rfl (hopen hnone) (not_spoils_of_lent htarget hlend hnone hlegible)
  | @broken _ _ bytes c e hready htarget hlend hask hne hheader =>
    have hheard : heard s (.error (.transaction (.framing e)) (s.hearing c bytes)) = bytes :=
      heard_of_some hask rfl
    obtain ⟨hsize, hparse⟩ := Transaction.header?_eq_error hheader
    rw [Scene.filled_hearing hlend hask] at hsize hparse
    refine .breaks rfl hready (fun f hframe => ?_) fun e' => ?_
    · rw [hheard] at hframe
      rw [(Frame.header_of_parse hframe).1] at hparse
      cases hparse
    · rw [Spoils, hheard, Buffer.faulty_iff_of_lent (Transaction.answerLength_eq_ok htarget) hlend,
        hparse, Except.error.injEq, eq_comm]
      exact and_iff_right hsize
  | @incomplete _ _ bytes c found hready htarget hlend hask hne hheader hmore =>
    have hstill := unfinished_hearing hmissing htarget hlend hask hheader hmore
    have hheard : heard s ((s.hearing c bytes).lapse now) = bytes :=
      heard_of_some hask (by rw [sceneOf_lapse]; rfl)
    rw [Scene.filled_hearing hlend hask] at hstill
    refine .undecided rfl rfl (fun f => ?_)
      (not_spoils_of_lent htarget hlend hheard hstill.legible)
    rw [hheard]
    exact hstill.parse_ne_ok f
  | @complete _ _ bytes c header hready htarget hlend hask hne hheader hwhole =>
    rw [← Buffer.length_filled] at hwhole
    have hread := Transaction.header?_eq_some hheader
    obtain ⟨f, hparse⟩ : ∃ f, Frame.parse _ = .ok f := ⟨_, Frame.parse_of_length hread hwhole⟩
    rw [Scene.filled_hearing hlend hask] at hparse hread
    have hheard {q : Scene} (hinbound : q.wiring.inbound = c) :
        heard s (.ok .continues q) = bytes := heard_of_some hask hinbound
    refine .completes rfl hready rfl ⟨f, ?_⟩
      (not_spoils_of_lent htarget hlend (hheard rfl) fun _ => ⟨header, hread⟩)
    rw [hheard rfl]
    exact hparse

theorem outcomeOf_lapse {deadline : Instant}
    (hdeadline : q.bridge.transaction.deadline = some deadline) :
    outcomeOf (q.lapse now) = .ok (if deadline.nanos ≤ now.nanos then
      .aborted (.timeout q.bridge.timing.answer) else .continues) := by
  by_cases hlate : deadline.reachedBy now = true
  · rw [lapse_of_late hdeadline hlate, if_pos (Instant.reachedBy_iff.1 hlate)]
    rfl
  · have hearly : ∀ d ∈ q.bridge.transaction.deadline, d.reachedBy now = false := by
      simpa [hdeadline] using hlate
    rw [lapse_of_early hearly, if_neg (mt Instant.reachedBy_iff.2 hlate)]
    rfl

end Turn

/-! ## Steps that await an answer -/

structure Bridge.Due (b : Bridge) (limit : Duration) (deadline : Instant) : Prop where
  phase : b.transaction.phase = .slaveAwaitingHostAnswer
  deadline : b.transaction.deadline = some deadline
  limit : b.timing.answer = limit
  lasting : b.transaction.Lasting

namespace Bridge

variable {b : Bridge} {e : Encounter} {es : List Encounter} {m p : Move} {limit : Duration}
  {deadline : Instant}

namespace Due

theorem unfinished (h : b.Due limit deadline) : Frame.Unfinished b.transaction.frame.filled := by
  have hholds := h.lasting.holds
  rw [h.phase] at hholds
  exact (hholds rfl).1

theorem next (h : b.Due limit deadline) (e : Encounter)
    (hstays : (b.move e).after.transaction.phase = .slaveAwaitingHostAnswer) :
    (b.move e).after.Due limit deadline := by
  refine ⟨hstays, ?_, (keeps_of_move b e).timing.symm ▸ h.limit, lasting_of_move e h.lasting⟩
  have hmoves := moves_move b e
  generalize b.move e = m at hmoves hstays ⊢
  cases hmoves with
  | unsampled => exact h.deadline
  | @done level line outcome s hsample hend =>
    rw [h.phase] at hend
    generalize hr : (EStateM.Result.ok outcome s : Turn.Ending) = r at hend
    cases hend with
    | unready | blocked | incomplete =>
      obtain ⟨-, rfl⟩ := Turn.eq_of_lapse hr.symm
      exact h.deadline
    | complete =>
      cases hr
      cases hstays
    | _ => cases hr
  | aborted => cases hstays
  | @failed level line fault s hsample hend =>
    exact (Turn.kept_of_fault hend).2.2.1.trans h.deadline

end Due

theorem rests_of_aborted {error : TransactionError}
    (h : (b.move e).outcome = .ok (.aborted error)) :
    (b.move e).after.transaction.phase = .idle ∧ (b.move e).after.transaction.frame.filled = [] ∧
      (b.move e).after.transaction.wire.filled = [] := by
  obtain ⟨t, hreset⟩ := reset_of_aborted h
  rw [hreset]
  exact ⟨rfl, rfl, rfl⟩

theorem reckons_of_unsampled {error : IoError} {line : Line} (h : b.Due limit deadline)
    (hsample : e.wiring.line.sample = (.error error, line)) :
    (b.move e).Reckons limit deadline.nanos := by
  have hfails := (contained_of_move e h.lasting).fails
  have hfailed : (b.move e).Fails := .inl ⟨error, line, hsample⟩
  have hnone : (b.move e).fromHost = [] := by
    rw [move_of_unsampled hsample, Move.fromHost, Move.inboundCalls, Channel.callsSince_self]
    rfl
  have hdeaf : ¬ (b.move e).Listens := by
    rintro ⟨-, level, line', hsample'⟩
    cases hsample.symm.trans hsample'
  have hsound : ∀ e', ¬ (b.move e).Breaks e' := by
    intro e'
    rw [Move.Breaks, hnone]
    exact Buffer.not_faulty_of_unasked h.unfinished hdeaf
  refine Move.reckons_of_open ?_ hfails (fun _ => hsound) rests_of_aborted
    (.inr ⟨hsound, .inl hfailed⟩)
  rintro ⟨f, hparse⟩
  rw [hnone, List.append_nil] at hparse
  exact h.unfinished.parse_ne_ok f hparse

/-- How a step goes on with the answer, whatever it meets. -/
theorem reckons_of_move (h : b.Due limit deadline) (e : Encounter) :
    (b.move e).Reckons limit deadline.nanos := by
  have hfails := (contained_of_move e h.lasting).fails
  rcases hsample : e.wiring.line.sample with ⟨error | level, line⟩
  · exact reckons_of_unsampled h hsample
  obtain ⟨r, hend, hmove⟩ := exists_turn_of_move hsample h.phase
  have hunfinished : Frame.Unfinished (e.scene b level line).bridge.transaction.frame.filled :=
    h.unfinished
  have houtcome : (b.move e).outcome = Turn.outcomeOf r := by rw [hmove]
  have hcompletes : (b.move e).Completes ↔ ∃ f, Frame.parse
      ((e.scene b level line).bridge.transaction.frame.filled ++
        Turn.heard (e.scene b level line) r) = .ok f := by
    rw [hmove]
    rfl
  have hunwhole (hopen : ∀ f, Frame.parse
      ((e.scene b level line).bridge.transaction.frame.filled ++
        Turn.heard (e.scene b level line) r) ≠ .ok f) : ¬ (b.move e).Completes := by
    rw [hcompletes]
    exact fun ⟨f, hparse⟩ => hopen f hparse
  have hmet : (b.move e).met = e := rfl
  have hlistens : (b.move e).Listens ↔ e.readiness.inbound = true :=
    ⟨fun hready => hready.1, fun hready => ⟨hready, level, line, hsample⟩⟩
  have hbreaks (e' : FramingError) :
      (b.move e).Breaks e' ↔ Turn.Spoils e.readiness (e.scene b level line) r e' := by
    rw [Move.Breaks, propext hlistens, hmove]
    rfl
  have hreading := Turn.reading_of_answer hunfinished hend
  cases hreading with
  | @undecided q hdeadline htiming hopen hsound =>
    have hdue : q.bridge.transaction.deadline = some deadline := hdeadline.trans h.deadline
    have hlimit : q.bridge.timing.answer = limit := (congrArg Timing.answer htiming).trans h.limit
    have hclock : (b.move e).outcome = .ok (if deadline.nanos ≤ (b.move e).met.now.nanos then
        .aborted (.timeout limit) else .continues) := by
      rw [houtcome, hmet, Turn.outcomeOf_lapse hdue, hlimit]
    simp only [← hbreaks] at hsound
    exact Move.reckons_of_open (hunwhole hopen) hfails (fun _ => hsound) rests_of_aborted
      (.inr ⟨hsound, .inr hclock⟩)
  | breaks hr hready hopen hspoils =>
    subst hr
    simp only [← hbreaks] at hspoils
    refine Move.reckons_of_open (hunwhole hopen) hfails (fun hunready => ?_) rests_of_aborted
      (.inl ⟨_, houtcome, hspoils⟩)
    rw [hmet, hready] at hunready
    cases hunready
  | fails hr hopen hsound =>
    subst hr
    simp only [← hbreaks] at hsound
    exact Move.reckons_of_open (hunwhole hopen) hfails (fun _ => hsound) rests_of_aborted
      (.inr ⟨hsound, .inl (hfails.1 ⟨_, houtcome⟩)⟩)
  | @completes q _ hr hready hphase hwhole hsound =>
    subst hr
    simp only [← hbreaks] at hsound
    have hdone := hcompletes.2 hwhole
    have hafter : (b.move e).after.transaction.phase = .slaveAnswerToBus := by
      rw [hmove]
      exact hphase
    refine ⟨?_, fun e' => ?_, fun _ => ⟨houtcome, hafter⟩, fun hunready => ?_, rests_of_aborted⟩
    · rw [houtcome]
      simp [Turn.outcomeOf, hdone]
    · rw [houtcome]
      simp [Turn.outcomeOf, hsound]
    · rw [hmet, hready] at hunready
      cases hunready

/-! ## Courses -/

theorem due_of_requests (hlasting : b.transaction.Lasting) (h : (b.move e).Requests) :
    ∃ deadline, (b.move e).after.Due b.timing.answer deadline ∧
      deadline.nanos = e.now.nanos + b.timing.answer.nanos := by
  obtain ⟨hheader, hawaits⟩ := h
  have hphase : b.transaction.phase = .slaveHeader := hheader
  have hlasts := lasting_of_move e hlasting
  have htiming := (keeps_of_move b e).timing
  have hmoves := moves_move b e
  generalize b.move e = m at hmoves hawaits hlasts htiming ⊢
  cases hmoves with
  | unsampled =>
    rw [hphase] at hawaits
    cases hawaits
  | done hsample hend =>
    rw [hphase] at hend
    cases hend with
    | payloadFollows | delivered => cases hawaits
    | @requested header i o deadline hfill hparse hread hforward hdeadline =>
      exact ⟨deadline, ⟨rfl, rfl, htiming ▸ rfl, hlasts⟩, Instant.nanos_of_after? hdeadline⟩
  | aborted => cases hawaits
  | failed hsample hend =>
    have hsame := Turn.phase_of_error hend
    rw [hsame] at hawaits
    have hstill : b.transaction.phase = .slaveAwaitingHostAnswer := hawaits
    rw [hphase] at hstill
    cases hstill

/-- Every step that awaits the answer finds it due at the same instant, whatever the steps before
it read. -/
theorem due_of_course {middle back : List Move} (h : b.Due limit deadline)
    (hcourse : b.course es = middle ++ m :: back)
    (hmiddle : ∀ q ∈ middle, q.before.transaction.phase = .slaveAwaitingHostAnswer)
    (hm : m.before.transaction.phase = .slaveAwaitingHostAnswer) :
    ∃ (c : Bridge) (e : Encounter), c.Due limit deadline ∧ m = c.move e := by
  induction middle generalizing b es with
  | nil =>
    obtain ⟨e, -, rfl, -⟩ := exists_of_course_eq_cons hcourse
    exact ⟨b, e, h, rfl⟩
  | cons q middle ih =>
    obtain ⟨e, es', rfl, hrest⟩ := exists_of_course_eq_cons hcourse
    have hstays : (b.move e).after.transaction.phase = .slaveAwaitingHostAnswer := by
      cases middle with
      | nil =>
        have hbefore := before_of_course hcourse
        rwa [hbefore] at hm
      | cons q' middle =>
        have hbefore := before_of_course hcourse
        rw [← hbefore]
        exact hmiddle q' (by simp)
    exact ih (h.next e hstays) hrest.symm fun q hq => hmiddle q (List.mem_cons_of_mem _ hq)

theorem begun_of_course {front back : List Move} (hcourse : b.course es = front ++ m :: back)
    (hm : m.before.transaction.phase = .slaveHeader) :
    (b.transaction.phase = .slaveHeader ∧
        ∀ q ∈ front, q.before.transaction.phase = .slaveHeader) ∨
      ∃ early first late, front = early ++ first :: late ∧ first.begins? = some .slave ∧
        ∀ q ∈ late, q.before.transaction.phase = .slaveHeader := by
  induction front generalizing b es with
  | nil =>
    obtain ⟨e, -, rfl, -⟩ := exists_of_course_eq_cons hcourse
    exact .inl ⟨hm, by simp⟩
  | cons q front ih =>
    obtain ⟨e, es', rfl, hrest⟩ := exists_of_course_eq_cons hcourse
    rcases ih hrest.symm with ⟨hafter, hfront⟩ | ⟨early, first, late, rfl, hbegins, hlate⟩
    · by_cases hphase : b.transaction.phase = .slaveHeader
      · refine .inl ⟨hphase, fun q hq => ?_⟩
        rcases List.mem_cons.1 hq with rfl | hq
        · exact hphase
        · exact hfront q hq
      · refine .inr ⟨[], b.move e, front, rfl, ?_, hfront⟩
        rw [Move.begins?, hafter]
        exact if_neg (Ne.symm hphase)
    · exact .inr ⟨b.move e :: early, first, late, rfl, hbegins, hlate⟩

theorem isRead_of_silent (hsilent : b.transaction.phase.sender? = none) :
    ∀ call ∈ (b.move e).busCalls, call.isRead = true := by
  rcases busCalls_of_move b e with hnone | ⟨-, hreads⟩ | ⟨⟨origin, hsender⟩, -⟩
  · simp [hnone]
  · exact hreads
  · rw [hsilent] at hsender
    cases hsender

theorem silent_of_course {front middle back : List Move} (hidle : b.transaction.phase = .idle)
    (hcourse : b.course es = front ++ p :: (middle ++ m :: back))
    (hp : p.before.transaction.phase = .slaveHeader)
    (hmiddle : ∀ q ∈ middle, q.before.transaction.phase = .slaveAwaitingHostAnswer)
    (hm : m.before.transaction.phase = .slaveAwaitingHostAnswer) :
    ∃ early first late, front = early ++ first :: late ∧ first.begins? = some .slave ∧
      (∀ q ∈ late ++ p :: (middle ++ [m]), q.begins? = none) ∧
      ∀ q ∈ first :: (late ++ p :: (middle ++ [m])), ∀ call ∈ q.busCalls, call.isRead = true := by
  rcases begun_of_course hcourse hp with ⟨hheader, -⟩ | ⟨early, first, late, rfl, hbegins, hlate⟩
  · rw [hidle] at hheader
    cases hheader
  have hmoves : ∀ q ∈ first :: (late ++ p :: (middle ++ [m])),
      ∃ (c : Bridge) (e : Encounter), q = c.move e := by
    intro q hq
    have hwhole : b.course es =
        early ++ ((first :: (late ++ p :: (middle ++ [m]))) ++ back) := by
      rw [hcourse]
      simp
    have hmem : q ∈ b.course es := by
      rw [hwhole]
      exact List.mem_append_right _ (List.mem_append_left _ hq)
    exact exists_move_of_mem hmem
  have hphases : ∀ q ∈ late ++ p :: (middle ++ [m]),
      q.before.transaction.phase = .slaveHeader ∨
        q.before.transaction.phase = .slaveAwaitingHostAnswer := by
    intro q hq
    simp only [List.mem_append, List.mem_cons, List.not_mem_nil, or_false] at hq
    rcases hq with hq | rfl | hq | rfl
    · exact .inl (hlate q hq)
    · exact .inl hp
    · exact .inr (hmiddle q hq)
    · exact .inr hm
  refine ⟨early, first, late, rfl, hbegins, fun q hq => ?_, fun q hq => ?_⟩
  · obtain ⟨c, e, rfl⟩ := hmoves q (List.mem_cons_of_mem _ hq)
    refine begins_of_running fun hrests => ?_
    rcases hphases _ hq with hphase | hphase <;> cases hrests.symm.trans hphase
  · obtain ⟨c, e, rfl⟩ := hmoves q hq
    refine isRead_of_silent ?_
    rcases List.mem_cons.1 hq with rfl | hq
    · rw [phase_of_begins hbegins]
      rfl
    · have hphase : c.transaction.phase = .slaveHeader ∨
          c.transaction.phase = .slaveAwaitingHostAnswer := hphases _ hq
      rcases hphase with hphase | hphase <;> rw [hphase] <;> rfl

theorem timeout_of_move (h : (b.move e).outcome = .ok (.aborted (.timeout limit))) :
    b.transaction.phase = .slaveAwaitingHostAnswer ∧ limit = b.timing.answer := by
  refine ⟨(leads_of_move h).1, ?_⟩
  have hmoves := moves_move b e
  generalize b.move e = m at hmoves h
  cases hmoves with
  | unsampled | failed => cases h
  | done hsample hend =>
    cases h
    exact absurd hend ne_aborted_of_ending
  | @aborted level line error s hsample hend =>
    cases h
    exact Turn.limit_of_ending (s := e.scene b level line) hend

/-- Whatever a bridge meets after its start, only its steps that await an answer run out of time.
The answer to a read that a step forwards is due a limit after that step's clock: a later step
that still awaits it gives it up if and only if its own clock has come so far and its reading
left the answer open, it breaks off if and only if the bytes read hold no header where one must be
or call for more room than there is, and a step that completes the answer goes on to send it
whatever the clock says.  Until then nothing of the transaction is written to the bus. -/
theorem deadline_of_start {transaction : Transaction} {timing : Timing} {wiring : Wiring}
    (hstart : (start transaction timing wiring).1 = .ok b) (es : List Encounter) :
    (∀ m ∈ b.course es, ∀ limit, m.outcome = .ok (.aborted (.timeout limit)) →
      m.before.transaction.phase = .slaveAwaitingHostAnswer ∧ limit = timing.answer) ∧
    ∀ front p middle m back, b.course es = front ++ p :: (middle ++ m :: back) → p.Requests →
      (∀ q ∈ middle, q.before.transaction.phase = .slaveAwaitingHostAnswer) →
      m.before.transaction.phase = .slaveAwaitingHostAnswer →
      m.Reckons timing.answer (p.met.now.nanos + timing.answer.nanos) ∧
      ∃ early first late, front = early ++ first :: late ∧ first.begins? = some .slave ∧
        (∀ q ∈ late ++ p :: (middle ++ [m]), q.begins? = none) ∧
        ∀ q ∈ first :: (late ++ p :: (middle ++ [m])), ∀ call ∈ q.busCalls, call.isRead = true := by
  have hfresh : b.transaction.phase = .idle ∧ b.transaction.Lasting ∧ b.timing = timing := by
    obtain ⟨level, rfl⟩ := start_eq_ok hstart
    exact ⟨rfl, (Transaction.coherent_reset transaction).lasting, rfl⟩
  obtain ⟨hidle, hlasting, htimed⟩ := hfresh
  have hkept : ∀ (c : Bridge) (e : Encounter),
      c.transaction.Lasting ∧ c.timing = timing →
        (c.move e).after.transaction.Lasting ∧ (c.move e).after.timing = timing :=
    fun c e h => ⟨lasting_of_move e h.1, (keeps_of_move c e).timing.trans h.2⟩
  constructor
  · intro m hm limit htimeout
    obtain ⟨c, e, ⟨-, hc⟩, rfl⟩ := exists_move_of_invariant
      (I := fun c => c.transaction.Lasting ∧ c.timing = timing) hkept ⟨hlasting, htimed⟩ hm
    obtain ⟨hphase, hlimit⟩ := timeout_of_move htimeout
    exact ⟨hphase, hlimit.trans (congrArg Timing.answer hc)⟩
  · intro front p middle m back hcourse hrequests hmiddle hm
    refine ⟨?_, silent_of_course hidle hcourse hrequests.1 hmiddle hm⟩
    obtain ⟨es₁, es₂, -, -, hback⟩ := exists_of_course_eq_append hcourse
    obtain ⟨e, es', rfl, hrest⟩ := exists_of_course_eq_cons hback.symm
    obtain ⟨hlasts, htiming⟩ := after_invariant
      (I := fun c => c.transaction.Lasting ∧ c.timing = timing) hkept ⟨hlasting, htimed⟩ es₁
    obtain ⟨deadline, hdue, hnanos⟩ := due_of_requests hlasts hrequests
    obtain ⟨c, e', hawaits, rfl⟩ := due_of_course hdue hrest.symm hmiddle hm
    have hreckons := reckons_of_move hawaits e'
    rw [hnanos, htiming] at hreckons
    exact hreckons

/-- A read is forwarded after one second, two bytes of its answer come half a second later, the
clock goes back, and then the last bytes come with the deadline. -/
def overdue (last : Bytes) : List Encounter :=
  [{ wiring := { line := { level := true } } },
    { wiring := { bus := { arrivals := [.data [1, 5, 4, 0]] } },
      now := ⟨1_000_000_000, by decide⟩ },
    { Encounter.ofHost [.data [0, 5]] with now := ⟨1_500_000_000, by decide⟩ },
    { wiring := {} },
    { Encounter.ofHost [.data last] with now := ⟨2_000_000_000, by decide⟩ }]

/-- With the deadline, an answer that lacks a byte is given up, and a whole one is not. -/
theorem deadline_of_start_of_overdue :
    ∃ m m', (start (.ofRooms 64 64) {} {}).1 = .ok (atRest (.ofRooms 64 64)) ∧
      m ∈ (atRest (.ofRooms 64 64)).course (overdue [0]) ∧
      m' ∈ (atRest (.ofRooms 64 64)).course (overdue [0, 0]) ∧
      m.outcome = .ok (.aborted (.timeout (.ofMillis 1000))) ∧ ¬ m.Fails ∧
      m'.outcome = .ok .continues ∧ m'.after.transaction.phase = .slaveAnswerToBus := by
  have hstart : (start (.ofRooms 64 64) {} {}).1 = .ok (atRest (.ofRooms 64 64)) := rfl
  obtain ⟨hshort, -⟩ := (deadline_of_start hstart (overdue [0])).2 [_] _ [_, _] _ [] rfl
    ⟨by decide +kernel, by decide +kernel⟩ (by decide +kernel) (by decide +kernel)
  obtain ⟨hwhole, -⟩ := (deadline_of_start hstart (overdue [0, 0])).2 [_] _ [_, _] _ [] rfl
    ⟨by decide +kernel, by decide +kernel⟩ (by decide +kernel) (by decide +kernel)
  have hok : ∀ {ε α : Type} {r : Except ε α} {a : α}, r.toOption = some a → r = .ok a := by
    rintro ε α (e | a') a h <;> cases h
    rfl
  have htimeout := hshort.timeout_iff.1 (hok (by decide +kernel))
  have hcompletes := hwhole.completes ⟨⟨⟨.writeRegister, 5, 0⟩, []⟩, hok (by decide +kernel)⟩
  have hlast : ∀ {a b c d : Move} {x : Move}, x ∈ [a, b, c, d, x] := by simp
  exact ⟨_, _, hstart, hlast, hlast, hshort.timeout_iff.2 htimeout, htimeout.2.2.2, hcompletes⟩

end Bridge

end SpiBridge
