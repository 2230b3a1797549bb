import SpiBridge.Proofs.Effects
import SpiBridge.Proofs.Frame
/-!
# Coherence of the running transaction

Every phase has its own idea of what the buffers, the decoder, the request and the
deadline of its transaction hold, and each turn reads the raw frame again relying
on it.  Main statements: a bridge that is started is coherent and stays so in every
run, with buffers of any size, and its steps move along the edges of one graph of
phases.
-/

namespace SpiBridge

open Command (Header Frame)

namespace Phase

def side? : Phase → Option Sync.Origin
  | idle => none
  | slaveHeader | slavePayload | slaveAwaitingHostAnswer | slaveAnswerToBus => some .slave
  | masterHeader | masterPayload | masterToBus => some .master

def continuations : Phase → List Phase
  | idle => [idle, slaveHeader, masterHeader]
  | slaveHeader => [slavePayload, slaveAwaitingHostAnswer]
  | slavePayload => []
  | slaveAwaitingHostAnswer => [slaveAwaitingHostAnswer, slaveAnswerToBus]
  | slaveAnswerToBus => []
  | masterHeader => [masterHeader, masterPayload, masterToBus]
  | masterPayload => [masterPayload, masterToBus]
  | masterToBus => []

def completing : List Phase :=
  [slaveHeader, slavePayload, slaveAnswerToBus, masterToBus]

/-- The graph of phases: where a step that starts in a phase may end with an outcome. -/
def Leads (phase : Phase) : Outcome → Phase → Prop
  | .continues, next => next ∈ phase.continuations
  | .completed origin, next => phase ∈ completing ∧ phase.side? = some origin ∧ next = idle
  | .aborted (.framing _), next => phase ≠ idle ∧ next = idle
  | .aborted (.timeout _), next => phase = slaveAwaitingHostAnswer ∧ next = idle
  | .stop, next => phase = masterHeader ∧ next = idle

theorem Leads.side? {phase next : Phase} {outcome : Outcome} (h : phase.Leads outcome next) :
    next.side? = phase.side? ∨ phase = idle ∨ next = idle := by
  rcases outcome with _ | _ | (_ | _) | _
  · cases phase <;> simp_all [Leads, continuations] <;> grind [Phase.side?]
  · exact .inr (.inr h.2.2)
  · exact .inr (.inr h.2)
  · exact .inr (.inr h.2)
  · exact .inr (.inr h.2)

def Follows (phase next : Phase) : Prop :=
  next = phase ∨ next = idle ∨ next ∈ phase.continuations

theorem Leads.follows {phase next : Phase} {outcome : Outcome} (h : phase.Leads outcome next) :
    phase.Follows next := by
  rcases outcome with _ | _ | (_ | _) | _
  · exact .inr (.inr h)
  · exact .inr (.inl h.2.2)
  · exact .inr (.inl h.2)
  · exact .inr (.inl h.2)
  · exact .inr (.inl h.2)

namespace Follows

variable {phase next : Phase}

theorem eq_slaveHeader (h : idle.Follows next) (hhears : next.hearsSlave = true) :
    next = slaveHeader := by
  cases next <;> simp_all [Follows, continuations, hearsSlave]

theorem hearsSlave_eq_false (h : phase.Follows next) (hphase : phase ≠ idle)
    (hdeaf : phase.hearsSlave = false) : next.hearsSlave = false := by
  cases phase <;> cases next <;> simp_all [Follows, continuations, hearsSlave]

end Follows

end Phase

/-- A raw frame of which bytes are still missing: its header, or bytes behind its header. -/
def Command.Frame.Unfinished (raw : Bytes) : Prop :=
  raw.length < Header.size ∨ ∃ header, Header.parse raw = .ok header ∧
    raw.length < header.frameLength

theorem Command.Frame.Unfinished.parse_ne_ok {raw : Bytes} (h : Unfinished raw) (f : Frame) :
    Frame.parse raw ≠ .ok f := by
  intro hparse
  obtain ⟨hheader, hlength⟩ := Frame.header_of_parse hparse
  rcases h with hshort | ⟨header, hheader', hless⟩
  · have hsize := Header.size_le_of_parse hheader
    omega
  · rw [hheader] at hheader'
    cases hheader'
    omega

theorem Command.Frame.Unfinished.length_lt_of_front {raw tail more : Bytes} {f : Frame}
    (h : Unfinished raw) (hf : f.Valid) (hbytes : raw ++ tail = f.toBytes ++ more) :
    raw.length < f.toBytes.length := by
  rcases h with hshort | ⟨header, hheader, hless⟩
  · exact Nat.lt_of_lt_of_le hshort (Frame.size_le_length_toBytes f)
  · have hsame := Frame.header_of_front hf hbytes (Header.size_le_of_parse hheader)
    rw [hheader] at hsame
    rwa [Except.ok.inj hsame, ← Frame.length_toBytes_of_valid hf] at hless

namespace Transaction

/-- What a transaction holds in a phase. -/
def Holds (t : Transaction) : Phase → Prop
  | .idle =>
    t.frame.filled = [] ∧ t.frame.cursor = 0 ∧ t.wire.filled = [] ∧ t.wire.cursor = 0 ∧
      t.request = none ∧ t.decoder.pending = false
  | .slaveHeader => t.frame.filled = [] ∧ t.decoder.pending = false
  | .slavePayload =>
    t.frame.filled.length = Header.size ∧ t.decoder.pending = false ∧
      ∃ header, Header.parse t.frame.filled = .ok header ∧ header.command.isWrite = true ∧
        0 < header.payloadLength.toNat
  | .slaveAwaitingHostAnswer =>
    Frame.Unfinished t.frame.filled ∧
      ∃ header, t.request = some header ∧ header.command.isRead = true
  | .slaveAnswerToBus => ∃ frame, Frame.parse t.frame.filled = .ok frame
  | .masterHeader => t.frame.filled.length < Header.size
  | .masterPayload =>
    ∃ header, Header.parse t.frame.filled = .ok header ∧ header.command.isWrite = true ∧
      Header.size ≤ t.frame.filled.length ∧ t.frame.filled.length < header.frameLength
  | .masterToBus =>
    ∃ frame, Frame.parse t.frame.filled = .ok frame ∧ frame.header.command.isWrite = true

/-- Phase, initiator, deadline and contents of a transaction fit together. -/
structure Coherent (t : Transaction) : Prop where
  initiator : t.initiator = t.phase.side?
  deadline : t.deadline.isSome = true ↔ t.phase = .slaveAwaitingHostAnswer
  holds : t.Holds t.phase

theorem coherent_reset (t : Transaction) : t.reset.Coherent :=
  ⟨rfl, by simp [reset], by simp [reset, Holds, Buffer.cursor, Buffer.reset, Buffer.filled]⟩

theorem coherent_start (t : Transaction) (origin : Sync.Origin) : (t.start origin).Coherent := by
  cases origin <;> refine ⟨rfl, by simp [start, reset], ?_⟩
  · exact ⟨rfl, rfl⟩
  · show (t.frame.reset.filled).length < Header.size
    simp [Header.size]

namespace Coherent

variable {t t' : Transaction} {phase : Phase}

theorem stays (h : t.Coherent) (hphase : t.phase = phase) (hsame : t'.phase = t.phase)
    (hinitiator : t'.initiator = t.initiator) (hdeadline : t'.deadline = t.deadline)
    (hholds : t'.Holds phase) : t'.Coherent := by
  refine ⟨?_, ?_, ?_⟩
  · rw [hinitiator, hsame, h.initiator]
  · rw [hdeadline, hsame, h.deadline]
  · rw [hsame, hphase]
    exact hholds

theorem moves (h : t.Coherent) (hphase : t.phase = phase)
    (hside : t'.phase.side? = phase.side?) (hinitiator : t'.initiator = t.initiator)
    (hdeadline : t'.deadline.isSome = true ↔ t'.phase = .slaveAwaitingHostAnswer)
    (hholds : t'.Holds t'.phase) : t'.Coherent :=
  ⟨by rw [hinitiator, h.initiator, hphase, hside], hdeadline, hholds⟩

theorem unfinished (h : t.Coherent) (hhears : t.phase.hearsHost = true) :
    Frame.Unfinished t.frame.filled := by
  have hholds := h.holds
  rcases hphase : t.phase <;> rw [hphase] at hholds hhears <;> try cases hhears
  · exact hholds.1
  · exact .inl hholds
  · obtain ⟨header, hparse, -, -, hless⟩ := hholds
    exact .inr ⟨header, hparse, hless⟩

theorem exists_frame {origin : Sync.Origin} (h : t.Coherent)
    (hsender : t.phase.sender? = some origin) :
    ∃ frame, Frame.parse t.frame.filled = .ok frame := by
  have hholds := h.holds
  rcases hphase : t.phase <;> rw [hphase] at hholds hsender <;> simp [Phase.sender?] at hsender
  · exact hholds
  · exact ⟨hholds.choose, hholds.choose_spec.1⟩

theorem deadline_eq_none (h : t.Coherent) (hphase : t.phase = phase)
    (hne : phase ≠ .slaveAwaitingHostAnswer) : t.deadline = none := by
  have hdeadline := h.deadline
  rw [hphase] at hdeadline
  simpa [hne] using hdeadline

theorem moves_on (h : t.Coherent) (hphase : t.phase = phase)
    (hside : t'.phase.side? = phase.side?) (hinitiator : t'.initiator = t.initiator)
    (hdeadline : t'.deadline = t.deadline) (hne : phase ≠ .slaveAwaitingHostAnswer)
    (hne' : t'.phase ≠ .slaveAwaitingHostAnswer) (hholds : t'.Holds t'.phase) :
    t'.Coherent := by
  refine h.moves hphase hside hinitiator ?_ hholds
  rw [hdeadline, h.deadline_eq_none hphase hne]
  simp [hne']

end Coherent

end Transaction

/-! ## The raw frame as bytes from the host arrive -/

namespace Transaction

variable {t : Transaction} {bytes lent : Bytes} {header : Header} {found : Option Header}

theorem header?_eq_some (h : t.header? = .ok (some header)) :
    Header.parse t.frame.filled = .ok header := by
  unfold header? at h
  split at h
  · simp at h
  · rcases hparse : Header.parse t.frame.filled with e | got
    · simp [hparse, Except.map] at h
    · simpa [hparse, Except.map] using h

theorem header?_eq_none (h : t.header? = .ok none) : t.frame.filled.length < Header.size := by
  unfold header? at h
  split at h
  · simpa using ‹t.frame.length < Header.size›
  · rcases hparse : Header.parse t.frame.filled with e | got <;> simp [hparse, Except.map] at h

theorem answerLength_eq_ok {target : Nat} (h : t.answerLength = .ok target) :
    (t.frame.filled.length < Header.size ∧ target = Header.size) ∨
      ∃ header, Header.parse t.frame.filled = .ok header ∧ target = header.frameLength := by
  unfold answerLength at h
  rcases hheader : t.header? with e | _ | header <;> rw [hheader] at h <;>
    simp only [Except.map, Except.ok.injEq, reduceCtorEq] at h
  · exact .inl ⟨header?_eq_none hheader, h.symm⟩
  · exact .inr ⟨header, header?_eq_some hheader, h.symm⟩

theorem length_lt_of_answerLength {target : Nat} (h : t.answerLength = .ok target)
    (hmissing : Frame.Unfinished t.frame.filled) : t.frame.filled.length < target := by
  rcases answerLength_eq_ok h with ⟨hshort, rfl⟩ | ⟨header, hparse, rfl⟩
  · exact hshort
  · rcases hmissing with hshort | ⟨header', hparse', hless⟩
    · have hsize := Header.size_le_of_parse hparse
      omega
    · rw [hparse] at hparse'
      cases hparse'
      exact hless

theorem lend_missing {t : Transaction} {target : Nat}
    (hroom : t.frame.capacity = Transaction.frameRoom) (htarget : target ≤ Header.maxFrame)
    (hless : t.frame.filled.length ≤ target) :
    ∃ lent, t.frame.lend (target - t.frame.length) = .ok lent := by
  rw [Buffer.length_filled] at hless
  rw [← Buffer.length_add_remaining] at hroom
  unfold frameRoom at hroom
  unfold Header.maxFrame Header.size Header.maxPayload at htarget
  exact ⟨_, Buffer.lend_of_le (by omega)⟩

end Transaction

namespace Scene

variable {s : Scene} {target : Nat} {lent bytes : Bytes} {c : Channel}

theorem filled_hearing (hlend : s.bridge.transaction.frame.lend (s.missing target) = .ok lent)
    (hask : s.asking target = (.ok (some bytes), c)) :
    (s.hearing c bytes).bridge.transaction.frame.filled =
      s.bridge.transaction.frame.filled ++ bytes := by
  have hlength := Channel.length_le_of_readSome hask
  have hroom := Buffer.le_remaining_of_lend hlend
  exact Buffer.filled_receive (by omega)

theorem length_hearing_le (hlend : s.bridge.transaction.frame.lend (s.missing target) = .ok lent)
    (hask : s.asking target = (.ok (some bytes), c))
    (htarget : s.bridge.transaction.frame.filled.length ≤ target) :
    (s.hearing c bytes).bridge.transaction.frame.filled.length ≤ target := by
  have hlength := Channel.length_le_of_readSome hask
  rw [filled_hearing hlend hask, List.length_append]
  unfold missing at hlength
  rw [Buffer.length_filled] at htarget ⊢
  omega

end Scene

/-! ## The phases that a turn leads to -/

namespace Turn

variable {readiness : Readiness} {now : Instant} {s s' : Scene} {outcome : Outcome} {phase : Phase}

theorem eq_of_lapse {q : Scene} (h : q.lapse now = .ok outcome s') :
    outcome = .continues ∧ s' = q := by
  unfold Scene.lapse at h
  split at h
  · cases h
    exact ⟨rfl, rfl⟩
  · split at h <;> cases h
    exact ⟨rfl, rfl⟩

theorem leads_of_ending (hphase : s.bridge.transaction.phase = phase)
    (hend : EndingOf readiness now s phase (.ok outcome s')) :
    phase.Leads outcome s'.bridge.transaction.phase := by
  have hstays (next : Phase) (hnext : next ∈ phase.continuations) :
      phase.Leads .continues next := hnext
  cases phase with
  | idle =>
    cases hend with
    | answersRequest => exact hstays .slaveHeader (by decide)
    | hearsHost => exact hstays .masterHeader (by decide)
    | rests => exact hstays _ (by rw [hphase]; decide)
  | slaveHeader =>
    cases hend with
    | payloadFollows => exact hstays .slavePayload (by decide)
    | delivered => exact ⟨by decide, rfl, rfl⟩
    | requested => exact hstays .slaveAwaitingHostAnswer (by decide)
  | slavePayload =>
    cases hend with
    | delivered => exact ⟨by decide, rfl, rfl⟩
  | slaveAwaitingHostAnswer =>
    generalize hr : (EStateM.Result.ok outcome s' : Ending) = r at hend
    cases hend with
    | unready | blocked | incomplete =>
      obtain ⟨rfl, rfl⟩ := eq_of_lapse hr.symm
      exact hstays _ (by simp [Scene.listening, Scene.hearing, hphase, Phase.continuations])
    | complete =>
      cases hr
      exact hstays .slaveAnswerToBus (by decide)
    | _ => cases hr
  | slaveAnswerToBus | masterToBus =>
    cases hend with
    | sent => exact ⟨by decide, rfl, rfl⟩
  | masterHeader =>
    cases hend with
    | unready | blocked | incomplete =>
      exact hstays _ (by simp [Scene.listening, Scene.hearing, hphase, Phase.continuations])
    | left => exact ⟨rfl, rfl⟩
    | @accepted lent bytes c header =>
      refine hstays (if 0 < header.followingLength then .masterPayload else .masterToBus) ?_
      split <;> decide
  | masterPayload =>
    cases hend with
    | unready | blocked | incomplete =>
      exact hstays _ (by simp [Scene.listening, Scene.hearing, hphase, Phase.continuations])
    | complete => exact hstays .masterToBus (by decide)

theorem setback_ne_timeout (e : IntakeError) (limit : Duration) :
    e.setback ≠ .transaction (.timeout limit) := by
  cases e <;> simp [IntakeError.setback]

theorem setback_ne_transaction (f : Outlet.Failure) (error : TransactionError) :
    f.setback ≠ .transaction error := by
  cases f <;> simp [Outlet.Failure.setback]

theorem leads_of_setback {phase : Phase} {error : TransactionError}
    (hend : EndingOf readiness now s phase (.error (.transaction error) s')) :
    phase.Leads (.aborted error) .idle := by
  cases error with
  | framing e =>
    refine ⟨?_, rfl⟩
    rintro rfl
    cases hend
  | timeout limit =>
    refine ⟨?_, rfl⟩
    cases phase with
    | slaveAwaitingHostAnswer => rfl
    | idle => cases hend
    | slaveHeader | slavePayload =>
      generalize hr : (EStateM.Result.error _ s' : Ending) = r at hend
      cases hend with
      | unfilled => exact absurd (EStateM.Result.error.inj hr).1.symm (setback_ne_timeout _ _)
      | unforwarded =>
        exact absurd (EStateM.Result.error.inj hr).1.symm (setback_ne_transaction _ _)
      | _ => cases hr
    | slaveAnswerToBus | masterHeader | masterPayload | masterToBus => cases hend

end Turn

/-! ## One turn of each phase -/

namespace Turn

variable {readiness : Readiness} {now : Instant} {s s' : Scene} {outcome : Outcome}

theorem coherent_of_idle (h : s.bridge.transaction.Coherent)
    (hend : IdleEnding readiness s (.ok outcome s')) : s'.bridge.transaction.Coherent := by
  cases hend with
  | answersRequest => exact Transaction.coherent_start _ .slave
  | hearsHost => exact Transaction.coherent_start _ .master
  | rests => exact h

theorem coherent_of_slaveHeader (hphase : s.bridge.transaction.phase = .slaveHeader)
    (h : s.bridge.transaction.Coherent) (hend : SlaveHeaderEnding now s (.ok outcome s')) :
    s'.bridge.transaction.Coherent := by
  have hholds := h.holds
  rw [hphase] at hholds
  have hempty : s.intake.frame.length = 0 := by
    rw [← Buffer.length_filled]
    exact congrArg List.length hholds.1
  cases hend with
  | @payloadFollows header i hfill hparse hwrite hfollows =>
    obtain ⟨taken, hfilled⟩ := Intake.filled_of_fill hfill
    have hlength : i.frame.filled.length = Header.size := by
      rw [Buffer.length_filled]
      exact hfilled.length (by omega)
    have hrest : i.decoder.pending = false := hfilled.rest (by simp [hempty, Header.size])
    have hpayload : 0 < header.payloadLength.toNat := by
      rwa [← Header.followingLength_of_isWrite hwrite]
    exact h.moves_on hphase rfl rfl rfl (by simp) (by simp [Scene.running])
      ⟨hlength, hrest, header, hparse, hwrite, hpayload⟩
  | delivered => exact Transaction.coherent_reset _
  | @requested header i o deadline hfill hparse hread hforward hreach =>
    have hmissing : Frame.Unfinished i.frame.reset.filled := .inl (by simp [Header.size])
    have hisRead : header.command.isRead = true := by simp [Command.isRead, hread]
    exact h.moves hphase rfl rfl (by simp [Scene.running]) ⟨hmissing, header, rfl, hisRead⟩

theorem unfinished_hearing {target : Nat} {lent bytes : Bytes} {c : Channel}
    {found : Option Header} (hmissing : Frame.Unfinished s.bridge.transaction.frame.filled)
    (htarget : s.bridge.transaction.answerLength = .ok target)
    (hlend : s.bridge.transaction.frame.lend (s.missing target) = .ok lent)
    (hask : s.asking target = (.ok (some bytes), c))
    (hheader : (s.hearing c bytes).bridge.transaction.header? = .ok found)
    (hmore : ∀ header ∈ found,
      (s.hearing c bytes).bridge.transaction.frame.length ≠ header.frameLength) :
    Frame.Unfinished (s.hearing c bytes).bridge.transaction.frame.filled := by
  have hless := Transaction.length_lt_of_answerLength htarget hmissing
  have hlength := Scene.length_hearing_le hlend hask (Nat.le_of_lt hless)
  cases found with
  | none => exact .inl (Transaction.header?_eq_none hheader)
  | some header =>
    have hparse := Transaction.header?_eq_some hheader
    have hne := hmore header rfl
    rw [← Buffer.length_filled] at hne
    refine .inr ⟨header, hparse, Nat.lt_of_le_of_ne (Nat.le_trans hlength ?_) hne⟩
    rcases Transaction.answerLength_eq_ok htarget with ⟨-, rfl⟩ | ⟨header', hparse', rfl⟩
    · exact header.size_le_frameLength
    · rw [Scene.filled_hearing hlend hask, Header.parse_append hparse'] at hparse
      cases hparse
      exact Nat.le_refl _

theorem coherent_of_answer (hphase : s.bridge.transaction.phase = .slaveAwaitingHostAnswer)
    (h : s.bridge.transaction.Coherent) (hend : AnswerEnding readiness now s (.ok outcome s')) :
    s'.bridge.transaction.Coherent := by
  have hholds := h.holds
  rw [hphase] at hholds
  obtain ⟨hmissing, hrequest⟩ := hholds
  generalize hr : (EStateM.Result.ok outcome s' : Ending) = r at hend
  cases hend with
  | unready hready =>
    obtain ⟨rfl, rfl⟩ := eq_of_lapse hr.symm
    exact h
  | blocked hready htarget hlend hask =>
    obtain ⟨rfl, rfl⟩ := eq_of_lapse hr.symm
    exact h.stays hphase rfl rfl rfl ⟨hmissing, hrequest⟩
  | incomplete hready htarget hlend hask hne hheader hmore =>
    obtain ⟨rfl, rfl⟩ := eq_of_lapse hr.symm
    have hstill := unfinished_hearing hmissing htarget hlend hask hheader hmore
    exact h.stays hphase rfl rfl rfl ⟨hstill, hrequest⟩
  | @complete target lent bytes c header hready htarget hlend hask hne hheader hwhole =>
    cases hr
    rw [← Buffer.length_filled] at hwhole
    have hframe := Frame.parse_of_length (Transaction.header?_eq_some hheader) hwhole
    exact h.moves hphase rfl rfl (by simp [Scene.running]) ⟨_, hframe⟩
  | _ => cases hr

theorem coherent_of_masterHeader (hphase : s.bridge.transaction.phase = .masterHeader)
    (h : s.bridge.transaction.Coherent)
    (hend : MasterHeaderEnding readiness s (.ok outcome s')) :
    s'.bridge.transaction.Coherent := by
  have hshort := h.holds
  rw [hphase] at hshort
  cases hend with
  | unready => exact h
  | blocked => exact h.stays hphase rfl rfl rfl hshort
  | left => exact Transaction.coherent_reset _
  | incomplete hready hlend hask hne hheader =>
    exact h.stays hphase rfl rfl rfl (Transaction.header?_eq_none hheader)
  | @accepted lent bytes c header hready hlend hask hne hheader hwrite =>
    have hparse := Transaction.header?_eq_some hheader
    have hle := Scene.length_hearing_le hlend hask (Nat.le_of_lt hshort)
    have hge := Header.size_le_of_parse hparse
    have hlength : header.frameLength = Header.size + header.followingLength := rfl
    have hisWrite : header.command.isWrite = true := by
      simpa [Command.isRead] using hwrite
    by_cases hfollows : 0 < header.followingLength
    · rw [if_pos hfollows]
      refine h.moves_on hphase rfl rfl rfl (by simp) (by simp [Scene.running])
        ⟨header, hparse, hisWrite, hge, ?_⟩
      show (s.hearing c bytes).bridge.transaction.frame.filled.length < _
      omega
    · rw [if_neg hfollows]
      have hframe := Frame.parse_of_length hparse (by omega)
      exact h.moves_on hphase rfl rfl rfl (by simp) (by simp [Scene.running])
        ⟨_, hframe, hisWrite⟩

theorem coherent_of_masterPayload (hphase : s.bridge.transaction.phase = .masterPayload)
    (h : s.bridge.transaction.Coherent)
    (hend : MasterPayloadEnding readiness s (.ok outcome s')) :
    s'.bridge.transaction.Coherent := by
  have hholds := h.holds
  rw [hphase] at hholds
  obtain ⟨header', hparse', hwrite, hge, hless⟩ := hholds
  cases hend with
  | unready => exact h
  | blocked => exact h.stays hphase rfl rfl rfl ⟨header', hparse', hwrite, hge, hless⟩
  | @incomplete header lent bytes c hready hparse hlend hask hne hmore =>
    obtain rfl : header = header' := Except.ok.inj (hparse.symm.trans hparse')
    have hle := Scene.length_hearing_le hlend hask (Nat.le_of_lt hless)
    rw [← Buffer.length_filled] at hmore
    have hgrown := Header.parse_append hparse bytes
    rw [← Scene.filled_hearing hlend hask] at hgrown
    exact h.stays hphase rfl rfl rfl ⟨header, hgrown, hwrite, Header.size_le_of_parse hgrown,
      Nat.lt_of_le_of_ne hle hmore⟩
  | @complete header lent bytes c hready hparse hlend hask hne hwhole =>
    obtain rfl : header = header' := Except.ok.inj (hparse.symm.trans hparse')
    have hgrown := Header.parse_append hparse bytes
    rw [← Scene.filled_hearing hlend hask] at hgrown
    rw [← Buffer.length_filled] at hwhole
    have hframe := Frame.parse_of_length hgrown hwhole
    exact h.moves_on hphase rfl rfl rfl (by simp) (by simp [Scene.running])
      ⟨_, hframe, hwrite⟩

theorem coherent_of_ending (h : s.bridge.transaction.Coherent)
    (hend : EndingOf readiness now s s.bridge.transaction.phase (.ok outcome s')) :
    s'.bridge.transaction.Coherent := by
  rcases hphase : s.bridge.transaction.phase <;> rw [hphase] at hend
  · exact coherent_of_idle h hend
  · exact coherent_of_slaveHeader hphase h hend
  · cases hend with
    | delivered => exact Transaction.coherent_reset _
  · exact coherent_of_answer hphase h hend
  · cases hend with
    | sent => exact Transaction.coherent_reset _
  · exact coherent_of_masterHeader hphase h hend
  · exact coherent_of_masterPayload hphase h hend
  · cases hend with
    | sent => exact Transaction.coherent_reset _

end Turn

/-! ## Runs -/

namespace Bridge

variable {b b' : Bridge} {e : Encounter} {p : Pass} {ps : List Pass}

/-- What each step of a bridge does: it leaves the transaction coherent, in a phase that the
graph of phases allows. -/
theorem coherent_of_pass? (h : b.transaction.Coherent) (hpass : b.pass? e = some p) :
    p.after.transaction.Coherent ∧
      p.before.transaction.phase.Leads p.outcome p.after.transaction.phase := by
  cases steps_of_pass? hpass with
  | @done level line outcome s hend =>
    exact ⟨Turn.coherent_of_ending (s := e.scene b level line) h hend,
      Turn.leads_of_ending (s := e.scene b level line) rfl hend⟩
  | aborted hend => exact ⟨Transaction.coherent_reset _, Turn.leads_of_setback hend⟩

theorem Run.coherent (hrun : b.Run ps b') (h : b.transaction.Coherent) :
    b'.transaction.Coherent :=
  hrun.invariant (I := fun b => b.transaction.Coherent)
    (fun hpass hcoherent => (coherent_of_pass? hcoherent hpass).1) h

theorem start_eq_ok {t : Transaction} {timing : Timing} {wiring : Wiring}
    (h : (start t timing wiring).1 = .ok b) :
    ∃ level, b = { transaction := t.reset, line := ⟨level, false⟩, timing } := by
  unfold start at h
  split at h
  · simp at h
  · rename_i level line hsample
    simp only [Except.ok.injEq] at h
    exact ⟨level, h.symm⟩

/-- Whatever a bridge meets after its start, and whatever the room in its buffers: its
transaction is coherent, its buffers keep their size, and each step went along an edge of the
graph of phases. -/
theorem coherent_of_start {frameRoom wireRoom : Nat} {timing : Timing} {wiring : Wiring}
    (hstart : (start (.ofRooms frameRoom wireRoom) timing wiring).1 = .ok b)
    (hrun : b.Run ps b') :
    b'.transaction.Coherent ∧
      b'.transaction.frame.capacity = frameRoom ∧ b'.transaction.wire.capacity = wireRoom ∧
      ∀ p ∈ ps, p.after.transaction.Coherent ∧
        p.before.transaction.phase.Leads p.outcome p.after.transaction.phase := by
  obtain ⟨level, rfl⟩ := start_eq_ok hstart
  have hfresh := Transaction.coherent_reset (.ofRooms frameRoom wireRoom)
  have hkeeps := hrun.keeps
  refine ⟨hrun.coherent hfresh, ?_, ?_, ?_⟩
  · rw [hkeeps.frame]
    simp [Transaction.reset, Transaction.ofRooms]
  · rw [hkeeps.wire]
    simp [Transaction.reset, Transaction.ofRooms]
  · intro p hp
    obtain ⟨front, hfront, hpass⟩ := hrun.of_mem hp
    exact coherent_of_pass? (hfront.coherent hfresh) hpass

/-- A command of five bytes is given up when the buffer has room for four. -/
theorem coherent_of_start_of_small_buffer :
    ∃ ps b', (atRest (.ofRooms 4 16)).Run ps b' ∧
      ps.map Pass.outcome =
        [.continues, .continues, .aborted (.framing (.overflow 1 0 4)), .continues] ∧
      b'.transaction.Coherent ∧
      b'.transaction.frame.capacity = 4 ∧ b'.transaction.wire.capacity = 16 ∧
      ∀ p ∈ ps, p.after.transaction.Coherent ∧
        p.before.transaction.phase.Leads p.outcome p.after.transaction.phase := by
  have hpasses : ((atRest (.ofRooms 4 16)).passes [.ofHost [], .ofHost [.data [0, 5, 1, 0]],
      .ofHost [.data [0x27]], .ofHost [.data [0x27]]]).map (List.map Pass.outcome) =
      some [.continues, .continues, .aborted (.framing (.overflow 1 0 4)), .continues] := by
    decide +kernel
  obtain ⟨ps, hps, houtcomes⟩ := Option.map_eq_some_iff.1 hpasses
  have hrun := Run.of_passes hps
  have hstart : (start (.ofRooms 4 16) {} {}).1 = .ok (atRest (.ofRooms 4 16)) := rfl
  exact ⟨ps, _, hrun, houtcomes, coherent_of_start hstart hrun⟩

end Bridge

end SpiBridge
