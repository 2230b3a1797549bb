import SpiBridge.Proofs.BusOutput
/-!
# Bytes from the host

The host writes its commands and its answers into one channel, and the bridge reads
no further than to the end of the frame that it is reading.  Main statements: as long
as the host writes valid frames, a step puts the bytes that it reads behind those that
are held, except that it may refuse a whole read or give up an answer for lack of time.
-/

namespace SpiBridge

open Command (Header Frame)

/-- Bytes that are no reason to give up: once there is a header, it can be read. -/
def Command.Frame.Legible (raw : Bytes) : Prop :=
  Header.size ≤ raw.length → ∃ header, Header.parse raw = .ok header

namespace Command.Frame

variable {raw more : Bytes} {frames : List Frame}

theorem legible_of_stream (hvalid : ∀ f ∈ frames, f.Valid)
    (hpre : raw <+: frames.flatMap toBytes) : Legible raw := by
  intro hsize
  obtain ⟨f, rest, -, hparse⟩ := header_of_stream hvalid hpre hsize
  exact ⟨f.header, hparse⟩

theorem Legible.of_append (h : Legible (raw ++ more)) : Legible raw := by
  intro hsize
  obtain ⟨header, hparse⟩ := h (by rw [List.length_append]; omega)
  rw [Header.parse_append_of_size hsize] at hparse
  exact ⟨header, hparse⟩

theorem Legible.ne_error {e : FramingError} (h : Legible raw) (hsize : Header.size ≤ raw.length) :
    Header.parse raw ≠ .error e := by
  obtain ⟨header, hparse⟩ := h hsize
  rw [hparse]
  simp

theorem take_succ_of_stream {f : Frame} {k : Nat} (hvalid : ∀ f ∈ frames, f.Valid)
    (hpre : raw <+: (frames.drop k).flatMap toBytes) (hparse : parse raw = .ok f) :
    frames[k]? = some f ∧
      (frames.take (k + 1)).flatMap toBytes = (frames.take k).flatMap toBytes ++ raw := by
  obtain ⟨rest, hdrop⟩ :=
    eq_cons_of_stream (fun f hf => hvalid f (List.mem_of_mem_drop hf)) hpre hparse
  have hat : frames[k]? = some f := by
    have hhead := congrArg (·[0]?) hdrop
    simpa using hhead
  refine ⟨hat, ?_⟩
  rw [List.take_add_one, hat, List.flatMap_append, Option.toList_some, List.flatMap_singleton,
    (parse_eq_ok_iff.1 hparse).2]

theorem prefix_drop_of_stream {k : Nat}
    (hpre : (frames.take k).flatMap toBytes ++ raw <+: frames.flatMap toBytes) :
    raw <+: (frames.drop k).flatMap toBytes := by
  have hsplit := List.take_append_drop k frames
  rw [← hsplit, List.flatMap_append, hsplit] at hpre
  exact (List.prefix_append_right_inj _).1 hpre

end Command.Frame

namespace Phase

def holdsHost : Phase → Bool
  | slaveAwaitingHostAnswer | slaveAnswerToBus | masterHeader | masterPayload | masterToBus => true
  | idle | slaveHeader | slavePayload => false

theorem holdsHost_of_master {phase : Phase} (h : phase.side? = some .master) :
    phase.holdsHost = true := by
  cases phase <;> simp_all [side?, holdsHost]

theorem holdsHost_of_hearsHost {phase : Phase} (h : phase.hearsHost = true) :
    phase.holdsHost = true := by
  cases phase <;> simp_all [hearsHost, holdsHost]

theorem holdsHost_of_sender? {phase : Phase} {origin : Sync.Origin}
    (h : phase.sender? = some origin) : phase.holdsHost = true := by
  cases phase <;> simp_all [sender?, holdsHost]

theorem holdsHost_eq_false {phase : Phase} (hdeaf : phase.hearsHost = false)
    (hsilent : phase.sender? = none) : phase.holdsHost = false := by
  cases phase <;> simp_all [hearsHost, sender?, holdsHost]

theorem sender?_of_hearsHost {phase : Phase} (h : phase.hearsHost = true) :
    phase.sender? = none := by
  cases phase <;> simp_all [hearsHost, sender?]

theorem hearsHost_of_sender? {phase : Phase} {origin : Sync.Origin}
    (h : phase.sender? = some origin) : phase.hearsHost = false := by
  cases phase <;> simp_all [hearsHost, sender?]

end Phase

namespace Transaction

variable {t : Transaction}

/-- What was read of the host's next frame and is not yet on its way to the slave. -/
def taken (t : Transaction) : Bytes :=
  if t.phase.holdsHost then t.frame.filled else []

theorem taken_of_holdsHost (h : t.phase.holdsHost = true) : t.taken = t.frame.filled :=
  if_pos h

theorem taken_of_not_holdsHost (h : t.phase.holdsHost = false) : t.taken = [] := by
  simp [taken, h]

theorem taken_of_idle (h : t.phase = .idle) : t.taken = [] :=
  taken_of_not_holdsHost (by rw [h]; rfl)

theorem header?_eq_error {e : FramingError} (h : t.header? = .error e) :
    Header.size ≤ t.frame.filled.length ∧ Header.parse t.frame.filled = .error e := by
  unfold header? at h
  split at h
  · simp at h
  · rename_i hsize
    rcases hparse : Header.parse t.frame.filled with e' | header
    · rw [hparse] at h
      exact ⟨by rw [Buffer.length_filled]; omega, by simpa [Except.map] using h⟩
    · simp [hparse, Except.map] at h

theorem answerLength_eq_error {e : FramingError} (h : t.answerLength = .error e) :
    t.header? = .error e := by
  unfold answerLength at h
  rcases hheader : t.header? with e' | found <;> rw [hheader] at h <;>
    simp only [Except.map, Except.error.injEq, reduceCtorEq] at h
  rw [h]

theorem answerLength_le {target : Nat} (h : t.answerLength = .ok target) :
    target ≤ Header.maxFrame := by
  rcases answerLength_eq_ok h with ⟨-, rfl⟩ | ⟨header, hparse, rfl⟩
  · decide
  · exact Header.frameLength_le_of_parse hparse

end Transaction

/-! ## Turns -/

namespace Turn

variable {readiness : Readiness} {now : Instant} {s : Scene} {r : Ending}

def heard (s : Scene) (r : Ending) : Bytes :=
  ((sceneOf r).wiring.inbound.callsSince s.wiring.inbound).flatMap Call.received

theorem heard_of_same (h : (sceneOf r).wiring.inbound = s.wiring.inbound) : heard s r = [] := by
  rw [heard, h, Channel.callsSince_self, List.flatMap_nil]

variable {target : Nat} {bytes : Bytes} {c : Channel}

theorem heard_of_some (hask : s.asking target = (.ok (some bytes), c))
    (hinbound : (sceneOf r).wiring.inbound = c) : heard s r = bytes := by
  rw [heard, hinbound]
  exact (Channel.readsTo_of_readSome hask).received_callsSince

theorem heard_of_none (hask : s.asking target = (.ok none, c))
    (hinbound : (sceneOf r).wiring.inbound = c) : heard s r = [] := by
  rw [heard, hinbound]
  exact (Channel.readsTo_of_readSome hask).received_callsSince

theorem heard_of_error {e : TransportError} (hask : s.asking target = (.error e, c))
    (hinbound : (sceneOf r).wiring.inbound = c) : heard s r = [] := by
  rw [heard, hinbound]
  exact (Channel.readsTo_of_readSome hask).received_callsSince

inductive Gathers (s : Scene) : Ending → Prop
  | goesOn {s' : Scene} {r : Ending} (hr : r = .ok .continues s')
      (hside : s'.bridge.transaction.phase.side? = s.bridge.transaction.phase.side?)
      (hholds : s'.bridge.transaction.phase.holdsHost = true)
      (hfilled : s'.bridge.transaction.frame.filled =
        s.bridge.transaction.frame.filled ++ heard s r) : Gathers s r
  | stops {s' : Scene} {r : Ending} (hr : r = .ok .stop s')
      (hfilled : s.bridge.transaction.frame.filled = []) (hheard : heard s r = [])
      (hphase : s'.bridge.transaction.phase = .idle) : Gathers s r
  | refuses {e : FramingError} {s' : Scene} {r : Ending} {frame : Frame}
      (hr : r = .error (.transaction (.framing e)) s')
      (hphase : s.bridge.transaction.phase = .masterHeader)
      (hparse : Frame.parse (s.bridge.transaction.frame.filled ++ heard s r) = .ok frame)
      (hread : frame.header.command.isRead = true) : Gathers s r
  | lapses {limit : Duration} {s' : Scene} {r : Ending}
      (hr : r = .error (.transaction (.timeout limit)) s')
      (hphase : s.bridge.transaction.phase = .slaveAwaitingHostAnswer) : Gathers s r
  | fails {f : Fault} {s' : Scene} {r : Ending} (hr : r = .error (.fault f) s') : Gathers s r

theorem lapse_cases (s : Scene) (now : Instant) :
    s.lapse now = .ok .continues s ∨
      ∃ limit, s.lapse now = .error (.transaction (.timeout limit)) s := by
  unfold Scene.lapse
  split
  · exact .inl rfl
  · split
    · exact .inr ⟨_, rfl⟩
    · exact .inl rfl

theorem gathers_of_lapse {q : Scene}
    (hphase : s.bridge.transaction.phase = .slaveAwaitingHostAnswer)
    (hsame : q.bridge.transaction.phase = s.bridge.transaction.phase)
    (hfilled : q.bridge.transaction.frame.filled =
      s.bridge.transaction.frame.filled ++ heard s (q.lapse now)) :
    Gathers s (q.lapse now) := by
  rcases lapse_cases q now with hlapse | ⟨limit, hlapse⟩
  · exact .goesOn hlapse (by rw [hsame]) (by rw [hsame, hphase]; rfl) hfilled
  · exact .lapses hlapse hphase

theorem gathers_of_answer (hphase : s.bridge.transaction.phase = .slaveAwaitingHostAnswer)
    (h : s.bridge.transaction.Coherent)
    (hroom : s.bridge.transaction.frame.capacity = Transaction.frameRoom)
    (hlegible : Frame.Legible (s.bridge.transaction.frame.filled ++ heard s r))
    (hend : AnswerEnding readiness now s r) : Gathers s r := by
  have hholds := h.holds
  rw [hphase] at hholds
  obtain ⟨hmissing, -⟩ := hholds
  cases hend with
  | unready =>
    refine gathers_of_lapse hphase rfl ?_
    rw [heard_of_same (by rw [sceneOf_lapse]), List.append_nil]
  | malformed hready htarget =>
    obtain ⟨hsize, hparse⟩ :=
      Transaction.header?_eq_error (Transaction.answerLength_eq_error htarget)
    exact absurd hparse (hlegible.of_append.ne_error hsize)
  | noRoom hready htarget hlend =>
    obtain ⟨lent, hlend'⟩ := Transaction.lend_missing hroom (Transaction.answerLength_le htarget)
      (Nat.le_of_lt (Transaction.length_lt_of_answerLength htarget hmissing))
    rw [Scene.missing, hlend'] at hlend
    cases hlend
  | unread | closed => exact .fails rfl
  | blocked hready htarget hlend hask =>
    refine gathers_of_lapse hphase rfl ?_
    rw [heard_of_none hask (by rw [sceneOf_lapse]; rfl), List.append_nil]
    rfl
  | broken hready htarget hlend hask hne hheader =>
    rw [heard_of_some hask rfl] at hlegible
    obtain ⟨hsize, hparse⟩ := Transaction.header?_eq_error hheader
    rw [Scene.filled_hearing hlend hask] at hsize hparse
    exact absurd hparse (hlegible.ne_error hsize)
  | incomplete hready htarget hlend hask =>
    refine gathers_of_lapse hphase rfl ?_
    rw [heard_of_some hask (by rw [sceneOf_lapse]; rfl)]
    exact Scene.filled_hearing hlend hask
  | complete hready htarget hlend hask =>
    refine .goesOn rfl ?_ rfl ?_
    · rw [hphase]
      rfl
    · rw [heard_of_some hask rfl]
      exact Scene.filled_hearing hlend hask

theorem gathers_of_masterHeader (hphase : s.bridge.transaction.phase = .masterHeader)
    (h : s.bridge.transaction.Coherent)
    (hroom : s.bridge.transaction.frame.capacity = Transaction.frameRoom)
    (hlegible : Frame.Legible (s.bridge.transaction.frame.filled ++ heard s r))
    (hend : MasterHeaderEnding readiness s r) : Gathers s r := by
  have hholds : s.bridge.transaction.phase.holdsHost = true := by
    rw [hphase]
    rfl
  have hshort := h.holds
  rw [hphase] at hshort
  cases hend with
  | unready =>
    exact .goesOn rfl rfl hholds (by rw [heard_of_same (s := s) rfl, List.append_nil])
  | noRoom hready hlend =>
    obtain ⟨lent, hlend'⟩ := Transaction.lend_missing hroom (by decide) (Nat.le_of_lt hshort)
    rw [Scene.missing, hlend'] at hlend
    cases hlend
  | unread | closed => exact .fails rfl
  | blocked hready hlend hask =>
    exact .goesOn rfl rfl hholds (by rw [heard_of_none hask rfl, List.append_nil]; rfl)
  | @left lent c hready hlend hask hempty =>
    have hfilled := Scene.filled_hearing hlend hask
    have hnil : (s.hearing c []).bridge.transaction.frame.filled = [] := by
      rw [Buffer.filled_eq_nil_iff]
      simpa [Buffer.isEmpty] using hempty
    rw [hnil, List.append_nil] at hfilled
    exact .stops rfl hfilled.symm (heard_of_some hask rfl) rfl
  | malformed hready hlend hask hne hheader =>
    rw [heard_of_some hask rfl] at hlegible
    obtain ⟨hsize, hparse⟩ := Transaction.header?_eq_error hheader
    rw [Scene.filled_hearing hlend hask] at hsize hparse
    exact absurd hparse (hlegible.ne_error hsize)
  | incomplete hready hlend hask =>
    refine .goesOn rfl rfl hholds ?_
    rw [heard_of_some hask rfl]
    exact Scene.filled_hearing hlend hask
  | @unexpected lent bytes c header hready hlend hask hne hheader hread =>
    -- A read is no longer than its header, which is as far as the turn reads.
    have hparse := Transaction.header?_eq_some hheader
    have hge := Header.size_le_of_parse hparse
    have hle := Scene.length_hearing_le hlend hask (Nat.le_of_lt hshort)
    have hnotWrite : header.command.isWrite = false := by
      simpa [Command.isRead] using hread
    have hlength : (s.hearing c bytes).bridge.transaction.frame.filled.length =
        header.frameLength := by
      rw [Header.frameLength, Header.followingLength_of_not_isWrite hnotWrite]
      omega
    obtain ⟨frame, hframe, rfl⟩ : ∃ frame,
        Frame.parse (s.hearing c bytes).bridge.transaction.frame.filled = .ok frame ∧
          frame.header = header := ⟨_, Frame.parse_of_length hparse hlength, rfl⟩
    rw [Scene.filled_hearing hlend hask] at hframe
    refine .refuses rfl hphase ?_ hread
    rw [heard_of_some hask rfl]
    exact hframe
  | @accepted lent bytes c header hready hlend hask =>
    refine .goesOn rfl ?_ ?_ ?_
    · show Phase.side? (if 0 < header.followingLength then .masterPayload else .masterToBus) = _
      rw [hphase]
      split <;> rfl
    · show Phase.holdsHost (if 0 < header.followingLength then .masterPayload else .masterToBus) = _
      split <;> rfl
    · rw [heard_of_some hask rfl]
      exact Scene.filled_hearing hlend hask

theorem gathers_of_masterPayload (hphase : s.bridge.transaction.phase = .masterPayload)
    (h : s.bridge.transaction.Coherent)
    (hroom : s.bridge.transaction.frame.capacity = Transaction.frameRoom)
    (hend : MasterPayloadEnding readiness s r) : Gathers s r := by
  have hkeeps : s.bridge.transaction.phase.holdsHost = true := by
    rw [hphase]
    rfl
  have hholds := h.holds
  rw [hphase] at hholds
  obtain ⟨header, hparse, hwrite, hge, hless⟩ := hholds
  cases hend with
  | unready =>
    exact .goesOn rfl rfl hkeeps (by rw [heard_of_same (s := s) rfl, List.append_nil])
  | malformed hready hparse' =>
    rw [hparse] at hparse'
    cases hparse'
  | @noRoom header' e hready hparse' hlend =>
    obtain rfl : header = header' := Except.ok.inj (hparse.symm.trans hparse')
    obtain ⟨lent, hlend'⟩ := Transaction.lend_missing hroom
      (Header.frameLength_le_of_parse hparse) (Nat.le_of_lt hless)
    rw [Scene.missing, hlend'] at hlend
    cases hlend
  | unread | closed => exact .fails rfl
  | blocked hready hparse' hlend hask =>
    exact .goesOn rfl rfl hkeeps (by rw [heard_of_none hask rfl, List.append_nil]; rfl)
  | incomplete hready hparse' hlend hask =>
    refine .goesOn rfl rfl hkeeps ?_
    rw [heard_of_some hask rfl]
    exact Scene.filled_hearing hlend hask
  | complete hready hparse' hlend hask =>
    refine .goesOn rfl (by rw [hphase]; rfl) rfl ?_
    rw [heard_of_some hask rfl]
    exact Scene.filled_hearing hlend hask

theorem taken_of_ending {phase : Phase} {outcome : Outcome} {s' : Scene}
    (hphase : s.bridge.transaction.phase = phase) (hholds : phase.holdsHost = false)
    (hend : EndingOf readiness now s phase (.ok outcome s')) :
    s'.bridge.transaction.taken = [] := by
  cases phase with
  | idle =>
    cases hend with
    | answersRequest | hearsHost => rfl
    | rests => exact Transaction.taken_of_idle hphase
  | slaveHeader | slavePayload => cases hend <;> rfl
  | slaveAwaitingHostAnswer | slaveAnswerToBus | masterHeader | masterPayload | masterToBus =>
    cases hholds

end Turn

/-! ## Steps -/

/-- What a step makes of the bytes from the host: it sends those that are taken, or those that
it reads go behind them, or it refuses them as a whole read, or they are lost with an answer
that did not come in time. -/
inductive Pass.Takes (p : Pass) : Prop
  | sends {origin : Sync.Origin}
      (hsender : p.before.transaction.phase.sender? = some origin)
      (houtcome : p.outcome = .completed origin) (hheard : p.fromHost = [])
      (hidle : p.after.transaction.phase = .idle)
  | gathers (hsilent : p.before.transaction.phase.sender? = none)
      (hkept : p.before.transaction.phase.holdsHost = true → ∀ e, p.outcome ≠ .aborted e)
      (htaken : p.after.transaction.taken = p.before.transaction.taken ++ p.fromHost)
  | refuses {e : FramingError} {frame : Frame}
      (hphase : p.before.transaction.phase = .masterHeader)
      (houtcome : p.outcome = .aborted (.framing e))
      (hparse : Frame.parse (p.before.transaction.taken ++ p.fromHost) = .ok frame)
      (hread : frame.header.command.isRead = true)
      (hidle : p.after.transaction.phase = .idle)
  | lapses {limit : Duration} (hphase : p.before.transaction.phase = .slaveAwaitingHostAnswer)
      (houtcome : p.outcome = .aborted (.timeout limit))
      (hidle : p.after.transaction.phase = .idle)

namespace Bridge

variable {b : Bridge} {e : Encounter} {p : Pass}

theorem takes_of_sender {origin : Sync.Origin}
    (hsender : b.transaction.phase.sender? = some origin) (h : b.Roomy)
    (hpass : b.pass? e = some p) : p.Takes := by
  obtain ⟨hsendable, -⟩ := sendable_of_coherent h.coherent h.wire hsender
  obtain ⟨hdone, hidle, -⟩ := sends_of_pass? hsendable hsender hpass
  obtain ⟨-, hheard⟩ := deaf_of_pass? (Phase.hearsHost_of_sender? hsender) hpass
  obtain ⟨rfl, -⟩ := before_of_pass? hpass
  exact .sends hsender hdone hheard hidle

theorem takes_of_deaf (hdeaf : b.transaction.phase.hearsHost = false)
    (hsilent : b.transaction.phase.sender? = none) (hpass : b.pass? e = some p) : p.Takes := by
  have hholds := Phase.holdsHost_eq_false hdeaf hsilent
  have htaken : p.after.transaction.taken = [] := by
    cases steps_of_pass? hpass with
    | @done level line outcome s hend =>
      exact Turn.taken_of_ending (s := e.scene b level line) rfl hholds hend
    | aborted => rfl
  obtain ⟨-, hheard⟩ := deaf_of_pass? hdeaf hpass
  obtain ⟨rfl, -⟩ := before_of_pass? hpass
  refine .gathers hsilent ?_ ?_
  · rw [hholds]
    simp
  · rw [htaken, hheard, Transaction.taken_of_not_holdsHost hholds, List.append_nil]

theorem takes_of_gathers (hhears : b.transaction.phase.hearsHost = true)
    (hgathers : ∀ level line r, Turn.EndingOf e.readiness e.now (e.scene b level line)
      b.transaction.phase r → Turn.heard (e.scene b level line) r = p.fromHost →
      Turn.Gathers (e.scene b level line) r)
    (hpass : b.pass? e = some p) : p.Takes := by
  have hsilent := Phase.sender?_of_hearsHost hhears
  have hbefore := Transaction.taken_of_holdsHost (Phase.holdsHost_of_hearsHost hhears)
  cases steps_of_pass? hpass with
  | @done level line outcome s hend =>
    cases hgathers _ _ _ hend rfl with
    | goesOn hr hside hafter hfilled =>
      cases hr
      refine .gathers hsilent (by simp) ?_
      rw [Transaction.taken_of_holdsHost hafter, hbefore]
      exact hfilled
    | stops hr hfilled hheard hidle =>
      cases hr
      refine .gathers hsilent (by simp) ?_
      have hnone : b.transaction.frame.filled = [] := hfilled
      rw [Transaction.taken_of_idle hidle, hbefore, hnone, List.nil_append]
      exact hheard.symm
    | refuses hr | lapses hr | fails hr => cases hr
  | @aborted level line error s hend =>
    cases hgathers _ _ _ hend rfl with
    | refuses hr hphase hparse hread =>
      cases hr
      have hparse' := hparse
      refine .refuses hphase rfl ?_ hread rfl
      rw [hbefore]
      exact hparse
    | lapses hr hphase =>
      cases hr
      exact .lapses hphase rfl rfl
    | goesOn hr | stops hr | fails hr => cases hr

/-- What each step makes of the bytes from the host, as long as they are fronts of valid
frames. -/
theorem takes_of_pass? (h : b.Roomy)
    (hlegible : b.transaction.phase.hearsHost = true →
      Frame.Legible (b.transaction.taken ++ p.fromHost))
    (hpass : b.pass? e = some p) : p.Takes := by
  rcases hsender : b.transaction.phase.sender? with _ | origin
  · cases hhears : b.transaction.phase.hearsHost with
    | false => exact takes_of_deaf hhears hsender hpass
    | true =>
      refine takes_of_gathers hhears (fun level line r hend hheard => ?_) hpass
      have hfront := hlegible hhears
      rw [← hheard] at hfront
      rcases hphase : b.transaction.phase <;> rw [hphase] at hend hhears <;>
        simp [Phase.hearsHost] at hhears
      all_goals rw [Transaction.taken_of_holdsHost (by rw [hphase]; rfl)] at hfront
      · exact Turn.gathers_of_answer (s := e.scene b level line) hphase h.coherent h.frame hfront
          hend
      · exact Turn.gathers_of_masterHeader (s := e.scene b level line) hphase h.coherent h.frame
          hfront hend
      · exact Turn.gathers_of_masterPayload (s := e.scene b level line) hphase h.coherent h.frame
          hend
  · exact takes_of_sender hsender h hpass

end Bridge

end SpiBridge
