import SpiBridge.Proofs.Hearing
/-!
# Commands of the host

The host writes its commands one behind the other, and the bridge finds out where
each of them ends, however the bytes arrive and whatever the slave does in between.
Main statements: a turn that reads a command loses no byte and gives up no
transaction, and the frames that a run sends for the host are the commands that the
host wrote, in order.
-/

namespace SpiBridge

open Command (Header Frame)

def Command.Frame.Acceptable (raw : Bytes) : Prop :=
  Header.size ≤ raw.length → ∃ header, Header.parse raw = .ok header ∧
    header.command.isWrite = true

theorem Command.Frame.Acceptable.legible {raw : Bytes} (h : Frame.Acceptable raw) :
    Frame.Legible raw := by
  intro hsize
  obtain ⟨header, hparse, -⟩ := h hsize
  exact ⟨header, hparse⟩

theorem Command.Frame.acceptable_of_stream {raw : Bytes} {frames : List Frame}
    (hwrites : ∀ f ∈ frames, f.Valid ∧ f.header.command.isWrite = true)
    (hpre : raw <+: frames.flatMap Frame.toBytes) : Frame.Acceptable raw := by
  intro hsize
  obtain ⟨f, rest, rfl, hparse⟩ :=
    Frame.header_of_stream (fun f hf => (hwrites f hf).1) hpre hsize
  exact ⟨f.header, hparse, (hwrites f (by simp)).2⟩

namespace Transaction

def held (t : Transaction) : Bytes :=
  if t.phase.side? = some .master then t.frame.filled else []

theorem held_of_master {t : Transaction} (h : t.phase.side? = some .master) :
    t.held = t.frame.filled :=
  if_pos h

theorem held_of_not_master {t : Transaction} (h : t.phase.side? ≠ some .master) :
    t.held = [] :=
  if_neg h

theorem held_eq_taken {t : Transaction} (h : t.phase.side? ≠ some .slave) : t.held = t.taken := by
  unfold held taken
  rcases hphase : t.phase <;> rw [hphase] at h <;> simp_all [Phase.side?, Phase.holdsHost]

theorem held_of_taken_nil {t : Transaction} (h : t.taken = []) : t.held = [] := by
  by_cases hside : t.phase.side? = some .slave
  · exact held_of_not_master (by simp [hside])
  · rw [held_eq_taken hside, h]

end Transaction

/-! ## Steps -/

/-- What a step makes of the command of the host: it sends it, or the bytes that it reads go
behind those that are held. -/
inductive Pass.Carries (p : Pass) : Prop
  | sends (hphase : p.before.transaction.phase = .masterToBus)
      (houtcome : p.outcome = .completed .master) (hheard : p.fromHost = [])
      (hheld : p.after.transaction.held = [])
  | gathers (houtcome : p.outcome ≠ .completed .master)
      (hkept : p.before.transaction.phase.side? = some .master → ∀ e, p.outcome ≠ .aborted e)
      (hheld : p.after.transaction.held = p.before.transaction.held ++ p.fromHost)

namespace Bridge

variable {b b' : Bridge} {e : Encounter} {p : Pass} {ps : List Pass}

theorem carries_of_pass? (h : b.Roomy)
    (hanswer : b.transaction.phase ≠ .slaveAwaitingHostAnswer)
    (haccept : Frame.Acceptable (b.transaction.held ++ p.fromHost))
    (hpass : b.pass? e = some p) : p.Carries := by
  have hmaster : b.transaction.phase.hearsHost = true →
      b.transaction.phase.side? = some .master := by
    intro hhears
    rcases hphase : b.transaction.phase <;> rw [hphase] at hhears hanswer <;>
      simp_all [Phase.hearsHost, Phase.side?]
  have hlegible : b.transaction.phase.hearsHost = true →
      Frame.Legible (b.transaction.taken ++ p.fromHost) := by
    intro hhears
    rw [← Transaction.held_eq_taken (by simp [hmaster hhears])]
    exact haccept.legible
  have hleads := (coherent_of_pass? h.coherent hpass).2
  have htakes := takes_of_pass? h hlegible hpass
  obtain ⟨rfl, -⟩ := before_of_pass? hpass
  cases htakes with
  | sends hsender houtcome hheard hidle =>
    have hafter : p.after.transaction.held = [] :=
      Transaction.held_of_taken_nil (Transaction.taken_of_idle hidle)
    rcases hphase : p.before.transaction.phase <;> rw [hphase] at hsender <;>
      simp [Phase.sender?] at hsender <;> subst hsender
    · refine .gathers (by simp [houtcome]) (by simp [hphase, Phase.side?]) ?_
      rw [hafter, hheard, Transaction.held_of_not_master (by simp [hphase, Phase.side?])]
      rfl
    · exact .sends hphase houtcome hheard hafter
  | gathers hsilent hkept htaken =>
    have hdone : p.outcome ≠ .completed .master := by
      intro hdone
      rw [hdone] at hleads
      rcases hphase : p.before.transaction.phase <;> rw [hphase] at hleads hsilent <;>
        simp_all [Phase.Leads, Phase.completing, Phase.side?, Phase.sender?]
    refine .gathers hdone (fun hside => hkept (Phase.holdsHost_of_master hside)) ?_
    cases hhears : p.before.transaction.phase.hearsHost with
    | true =>
      -- The step stays on the host's side or ends there, where the two notions agree.
      have hside := hmaster hhears
      have hafter : p.after.transaction.phase.side? ≠ some .slave := by
        rcases hleads.side? with hsame | hidle | hidle
        · rw [hsame, hside]
          simp
        · simp [hidle, Phase.side?] at hside
        · simp [hidle, Phase.side?]
      rw [Transaction.held_eq_taken hafter, Transaction.held_eq_taken (by simp [hside]), htaken]
    | false =>
      obtain ⟨-, hheard⟩ := deaf_of_pass? hhears hpass
      have hnone := Transaction.taken_of_not_holdsHost
        (Phase.holdsHost_eq_false hhears hsilent)
      rw [hnone, hheard] at htaken
      rw [Transaction.held_of_taken_nil htaken, Transaction.held_of_taken_nil hnone, hheard]
      rfl
  | refuses hphase houtcome hparse hread =>
    obtain ⟨hframe, hbytes⟩ := Frame.parse_eq_ok_iff.1 hparse
    rw [← Transaction.held_eq_taken (by simp [hphase, Phase.side?])] at hbytes
    rw [← hbytes] at haccept
    obtain ⟨header, hheader, hwrite⟩ := haccept (Frame.size_le_length_toBytes _)
    rw [Frame.header_of_toBytes hframe] at hheader
    obtain rfl := Except.ok.inj hheader
    simp [Command.isRead, hwrite] at hread
  | lapses hphase => exact absurd hphase hanswer

end Bridge

/-! ## Runs -/

namespace Pass

def commandsDone (ps : List Pass) : Nat :=
  ps.countP fun p => p.outcome = .completed .master

def commandsOnBus (ps : List Pass) : Except FramingError (List Bytes) :=
  (Sync.split (ps.flatMap toBus)).map fun frames =>
    (frames.filter fun frame => frame.1.origin? = some .master).map Prod.snd

/-- What became of the commands that the host wrote: those that were completed are on the bus,
and what else was read of them is held. -/
structure Carried (frames : List Frame) (ps : List Pass) (b : Bridge) : Prop where
  done : commandsDone ps ≤ frames.length
  heard : ps.flatMap fromHost =
    (frames.take (commandsDone ps)).flatMap Frame.toBytes ++ b.transaction.held
  sent : ((ps.filter fun p => p.sent? = some .master).map raw) =
    (frames.take (commandsDone ps)).map Frame.toBytes
  kept : ∀ p ∈ ps, p.before.transaction.phase.side? = some .master →
    ∀ e, p.outcome ≠ .aborted e

theorem sent?_ne_master {p : Pass} (h : p.outcome ≠ .completed .master) :
    p.sent? ≠ some .master := by
  unfold sent?
  split
  · simp
  · exact absurd ‹_› h
  · simp

variable {frames : List Frame} {ps : List Pass} {p : Pass} {b : Bridge}

namespace Carried

theorem prefix_of_stream (h : Carried frames ps b)
    (hstream : (ps ++ [p]).flatMap fromHost <+: frames.flatMap Frame.toBytes) :
    b.transaction.held ++ p.fromHost <+:
      (frames.drop (commandsDone ps)).flatMap Frame.toBytes := by
  rw [List.flatMap_append, List.flatMap_singleton, h.heard, List.append_assoc] at hstream
  exact Frame.prefix_drop_of_stream hstream

theorem sends {f : Frame} (h : Carried frames ps p.before)
    (hdrop : ∃ rest, frames.drop (commandsDone ps) = f :: rest)
    (hf : f.toBytes = p.raw) (hphase : p.before.transaction.phase = .masterToBus)
    (houtcome : p.outcome = .completed .master) (hheard : p.fromHost = [])
    (hheld : p.after.transaction.held = []) : Carried frames (ps ++ [p]) p.after := by
  obtain ⟨rest, hdrop⟩ := hdrop
  have hdone : commandsDone (ps ++ [p]) = commandsDone ps + 1 := by
    simp [commandsDone, houtcome]
  have hlength := congrArg List.length hdrop
  rw [List.length_drop, List.length_cons] at hlength
  have htake : frames.take (commandsDone ps + 1) = frames.take (commandsDone ps) ++ [f] := by
    rw [List.take_add, hdrop]
    rfl
  have hsent : p.sent? = some .master :=
    sent?_eq_some (by rw [hphase]; rfl) houtcome
  refine ⟨by omega, ?_, ?_, ?_⟩
  · rw [List.flatMap_append, List.flatMap_singleton, h.heard, hheard, hheld, hdone, htake,
      List.flatMap_append, List.flatMap_singleton, hf, List.append_nil, List.append_nil,
      Transaction.held_of_master (by rw [hphase]; rfl)]
    rfl
  · rw [List.filter_append, List.map_append, h.sent, hdone, htake, List.map_append]
    simp [hsent, hf]
  · intro q hq hside e
    rcases List.mem_append.1 hq with hq | hq
    · exact h.kept q hq hside e
    · rw [List.mem_singleton.1 hq, houtcome]
      simp

theorem gathers (h : Carried frames ps p.before) (houtcome : p.outcome ≠ .completed .master)
    (hkept : p.before.transaction.phase.side? = some .master → ∀ e, p.outcome ≠ .aborted e)
    (hheld : p.after.transaction.held = p.before.transaction.held ++ p.fromHost) :
    Carried frames (ps ++ [p]) p.after := by
  have hdone : commandsDone (ps ++ [p]) = commandsDone ps := by
    simp [commandsDone, houtcome]
  refine ⟨hdone ▸ h.done, ?_, ?_, ?_⟩
  · rw [List.flatMap_append, List.flatMap_singleton, h.heard, hheld, hdone, List.append_assoc]
  · rw [List.filter_append, List.map_append, h.sent, hdone]
    simp [sent?_ne_master houtcome]
  · intro q hq hside e
    rcases List.mem_append.1 hq with hq | hq
    · exact h.kept q hq hside e
    · rw [List.mem_singleton.1 hq] at hside ⊢
      exact hkept hside e

end Carried

end Pass

namespace Bridge

variable {b b' : Bridge} {ps : List Pass} {frames : List Frame}

theorem Run.phase_ne {phase : Phase} (hrun : b.Run ps b') (h : b.transaction.phase ≠ phase)
    (hafter : ∀ p ∈ ps, p.after.transaction.phase ≠ phase) : b'.transaction.phase ≠ phase := by
  cases hrun with
  | start => exact h
  | @step ps c e p hrun hpass => exact hafter p (by simp)

theorem Run.carried (hrun : b.Run ps b') (h : b.Fresh)
    (hwrites : ∀ f ∈ frames, f.Valid ∧ f.header.command.isWrite = true)
    (hstream : ps.flatMap Pass.fromHost <+: frames.flatMap Frame.toBytes)
    (hasks : ∀ p ∈ ps, p.after.transaction.phase ≠ .slaveAwaitingHostAnswer) :
    Pass.Carried frames ps b' := by
  have hidle : b.transaction.phase ≠ .slaveAwaitingHostAnswer := by simp [h.phase]
  induction hrun with
  | start =>
    refine ⟨by simp [Pass.commandsDone], ?_, rfl, by simp⟩
    rw [Transaction.held_of_not_master (by simp [h.phase, Phase.side?])]
    rfl
  | @step ps c e p hrun hpass ih =>
    -- What was carried so far tells which bytes of the stream this step can have read.
    have hfront : ps.flatMap Pass.fromHost <+: frames.flatMap Frame.toBytes := by
      rw [List.flatMap_append] at hstream
      exact (List.prefix_append _ _).trans hstream
    have hasks' : ∀ q ∈ ps, q.after.transaction.phase ≠ .slaveAwaitingHostAnswer :=
      fun q hq => hasks q (List.mem_append_left _ hq)
    have hcarried := ih hfront hasks'
    obtain ⟨rfl, rfl⟩ := before_of_pass? hpass
    have hcoherent := hrun.coherent h.coherent
    have hpre := hcarried.prefix_of_stream hstream
    have hrest : ∀ f ∈ frames.drop (Pass.commandsDone ps),
        f.Valid ∧ f.header.command.isWrite = true :=
      fun f hf => hwrites f (List.mem_of_mem_drop hf)
    have hcarries := carries_of_pass? (hrun.roomy h)
      (hrun.phase_ne hidle hasks') (Frame.acceptable_of_stream hrest hpre) hpass
    cases hcarries with
    | gathers houtcome hkept hheld => exact hcarried.gathers houtcome hkept hheld
    | sends hphase houtcome hheard hheld =>
      have hside : p.before.transaction.phase.side? = some .master := by rw [hphase]; rfl
      have hholds := hcoherent.holds
      rw [hphase] at hholds
      obtain ⟨f, hparse, -⟩ := hholds
      rw [hheard, List.append_nil, Transaction.held_of_master hside] at hpre
      have hdrop := Frame.eq_cons_of_stream (fun f hf => (hrest f hf).1) hpre hparse
      exact hcarried.sends hdrop (Frame.parse_eq_ok_iff.1 hparse).2 hphase houtcome hheard hheld

theorem Run.commandsOnBus (hrun : b.Run ps b') (h : b.Fresh) :
    Pass.commandsOnBus ps =
      .ok ((ps.filter fun p => p.sent? = some .master).map Pass.raw) := by
  obtain ⟨onBus, hsplit, hframes⟩ := hrun.split h
  have hbus : (onBus.filter fun frame => frame.1.origin? = some .master).map Prod.snd =
      ((onBus.map fun frame => (frame.1.origin?, frame.2)).filter fun sent =>
        sent.1 = some .master).map Prod.snd := by
    rw [List.filter_map, List.map_map]
    rfl
  have hsteps : ((Pass.sentFrames ps).filter fun sent => sent.1 = some .master).map Prod.snd =
      (ps.filter fun p => p.sent? = some .master).map Pass.raw := by
    rw [Pass.sentFrames, List.filter_map, List.map_map, List.filter_filter]
    congr 1
    refine List.filter_congr fun p _ => ?_
    cases hsent : p.sent? <;> simp [hsent]
  rw [Pass.commandsOnBus, hsplit]
  simp only [Except.map]
  rw [hbus, hframes, hsteps]

end Bridge

/-- The command of the host that is complete and not yet sent. -/
def Transaction.unsent (t : Transaction) : List Bytes :=
  if t.phase = .masterToBus then [t.frame.filled] else []

/-- Once all that the host writes was read, its commands were sent, but for one that is
ready to be sent. -/
theorem Pass.Carried.sent_append_unsent {frames : List Frame} {ps : List Pass} {b : Bridge}
    (h : Pass.Carried frames ps b) (hcoherent : b.transaction.Coherent)
    (hvalid : ∀ f ∈ frames, f.Valid)
    (hwhole : ps.flatMap Pass.fromHost = frames.flatMap Frame.toBytes) :
    (frames.take (Pass.commandsDone ps)).map Frame.toBytes ++ b.transaction.unsent =
      frames.map Frame.toBytes := by
  have hsplit := List.take_append_drop (Pass.commandsDone ps) frames
  have hheld : b.transaction.held =
      (frames.drop (Pass.commandsDone ps)).flatMap Frame.toBytes := by
    have hheard := h.heard
    rw [hwhole] at hheard
    conv at hheard => lhs; rw [← hsplit, List.flatMap_append]
    exact (List.append_cancel_left hheard).symm
  have hrest : ∀ f ∈ frames.drop (Pass.commandsDone ps), f.Valid :=
    fun f hf => hvalid f (List.mem_of_mem_drop hf)
  have hholds := hcoherent.holds
  suffices hunsent : b.transaction.unsent =
      (frames.drop (Pass.commandsDone ps)).map Frame.toBytes by
    rw [hunsent, ← List.map_append, hsplit]
  generalize frames.drop (Pass.commandsDone ps) = rest at hheld hrest
  by_cases hphase : b.transaction.phase = .masterToBus
  · -- The frame that is held is the first of the rest, and nothing of another is held.
    have hfilled := Transaction.held_of_master (t := b.transaction) (by rw [hphase]; rfl)
    rw [hphase] at hholds
    obtain ⟨f, hparse, -⟩ := hholds
    rw [← hfilled, hheld] at hparse
    obtain ⟨others, rfl⟩ := Frame.eq_cons_of_stream hrest List.prefix_rfl hparse
    have hbytes := (Frame.parse_eq_ok_iff.1 hparse).2
    rw [List.flatMap_cons, List.self_eq_append_right, Frame.flatMap_toBytes_eq_nil_iff] at hbytes
    subst hbytes
    rw [Transaction.unsent, if_pos hphase, ← hfilled, hheld]
    simp
  · -- Nothing is held, or less than a frame.
    rw [Transaction.unsent, if_neg hphase]
    cases rest with
    | nil => rfl
    | cons f others =>
      exfalso
      have hsize := Frame.size_le_length_toBytes f
      have hlength := congrArg List.length hheld
      rw [List.flatMap_cons, List.length_append] at hlength
      have hmaster : b.transaction.phase.side? = some .master := by
        by_cases hside : b.transaction.phase.side? = some .master
        · exact hside
        · rw [Transaction.held_of_not_master hside, List.length_nil] at hlength
          unfold Header.size at hsize
          omega
      rw [Transaction.held_of_master hmaster] at hheld hlength
      rcases hat : b.transaction.phase with _ | _ | _ | _ | _ | _ | _ | _ <;>
        rw [hat] at hmaster hholds hphase <;> simp [Phase.side?] at hmaster hphase
      · have hshort : b.transaction.frame.filled.length < Header.size := hholds
        omega
      · obtain ⟨header, hparse, -, -, hless⟩ := hholds
        have hf := hrest f (by simp)
        have hparse' := Frame.parse_header_toBytes hf (others.flatMap Frame.toBytes)
        rw [← List.flatMap_cons, ← hheld, hparse] at hparse'
        rw [Except.ok.inj hparse', ← Frame.length_toBytes_of_valid hf] at hless
        omega

namespace Bridge

variable {b' b'' : Bridge} {ps qs : List Pass} {frames : List Frame}

/-- A run that awaits no answer, in which the host writes a stream of bytes. -/
structure Schedule (stream : Bytes) (ps : List Pass) (b' : Bridge) : Prop where
  run : ∃ b timing wiring,
    (start (.ofRooms Transaction.frameRoom Transaction.wireRoom) timing wiring).1 = .ok b ∧
      b.Run ps b'
  stream : ps.flatMap Pass.fromHost <+: stream
  asksNothing : ∀ p ∈ ps, p.after.transaction.phase ≠ .slaveAwaitingHostAnswer

namespace Schedule

theorem carried (h : Schedule (frames.flatMap Frame.toBytes) ps b')
    (hwrites : ∀ f ∈ frames, f.Valid ∧ f.header.command.isWrite = true) :
    Pass.Carried frames ps b' := by
  obtain ⟨b, timing, wiring, hstart, hrun⟩ := h.run
  exact hrun.carried (fresh_of_start hstart) hwrites h.stream h.asksNothing

theorem commandsOnBus (h : Schedule (frames.flatMap Frame.toBytes) ps b')
    (hwrites : ∀ f ∈ frames, f.Valid ∧ f.header.command.isWrite = true) :
    Pass.commandsOnBus ps = .ok ((frames.take (Pass.commandsDone ps)).map Frame.toBytes) := by
  obtain ⟨b, timing, wiring, hstart, hrun⟩ := h.run
  rw [hrun.commandsOnBus (fresh_of_start hstart), (h.carried hwrites).sent]

theorem sent_append_unsent (h : Schedule (frames.flatMap Frame.toBytes) ps b')
    (hwrites : ∀ f ∈ frames, f.Valid ∧ f.header.command.isWrite = true)
    (hwhole : ps.flatMap Pass.fromHost = frames.flatMap Frame.toBytes) :
    (frames.take (Pass.commandsDone ps)).map Frame.toBytes ++ b'.transaction.unsent =
      frames.map Frame.toBytes := by
  obtain ⟨b, timing, wiring, hstart, hrun⟩ := h.run
  exact (h.carried hwrites).sent_append_unsent (hrun.coherent (fresh_of_start hstart).coherent)
    (fun f hf => (hwrites f hf).1) hwhole

end Schedule

theorem schedule_of_passes (es : List Encounter) (bytes : Bytes) (phases : List Phase)
    (done : Nat)
    (h : ((atRest (.ofRooms Transaction.frameRoom Transaction.wireRoom)).passes es).map (fun ps =>
      (ps.flatMap Pass.fromHost, ps.map (fun p => p.after.transaction.phase),
        Pass.commandsDone ps)) = some (bytes, phases, done))
    (hasks : .slaveAwaitingHostAnswer ∉ phases) :
    ∃ ps b', Schedule bytes ps b' ∧ ps.flatMap Pass.fromHost = bytes ∧
      b'.transaction.phase = phases.getLastD .idle ∧ Pass.commandsDone ps = done := by
  obtain ⟨ps, hps, hfound⟩ := Option.map_eq_some_iff.1 h
  obtain ⟨hbytes, hrest⟩ := Prod.mk.inj hfound
  obtain ⟨hphases, hdone⟩ := Prod.mk.inj hrest
  refine ⟨ps, _, ⟨⟨_, {}, {}, rfl, Run.of_passes hps⟩, hbytes ▸ List.prefix_rfl, ?_⟩, hbytes, ?_,
    hdone⟩
  · intro p hp hphase
    have hmem := List.mem_map_of_mem (f := fun p : Pass => p.after.transaction.phase) hp
    rw [hphases] at hmem
    exact hasks (hphase ▸ hmem)
  · rw [phase_getLastD, hphases]
    rfl

/-- The host's commands under any schedule: those that were completed so far are on the bus, in
order and each once, no transaction of the host was given up, and what was read beyond the
completed commands is held.  So two schedules that read the whole stream send the same
commands, up to one that is ready to be sent. -/
theorem masterDelivery_of_schedule
    (hwrites : ∀ f ∈ frames, f.Valid ∧ f.header.command.isWrite = true)
    (h : Schedule (frames.flatMap Frame.toBytes) ps b') :
    Pass.commandsOnBus ps = .ok ((frames.take (Pass.commandsDone ps)).map Frame.toBytes) ∧
      Pass.commandsDone ps ≤ frames.length ∧
      (∀ p ∈ ps, p.before.transaction.phase.side? = some .master →
        ∀ e, p.outcome ≠ .aborted e) ∧
      ps.flatMap Pass.fromHost =
        (frames.take (Pass.commandsDone ps)).flatMap Frame.toBytes ++ b'.transaction.held ∧
      ∀ {qs b''}, Schedule (frames.flatMap Frame.toBytes) qs b'' →
        ps.flatMap Pass.fromHost = frames.flatMap Frame.toBytes →
        qs.flatMap Pass.fromHost = frames.flatMap Frame.toBytes →
        (∃ sent sent', Pass.commandsOnBus ps = .ok sent ∧ Pass.commandsOnBus qs = .ok sent' ∧
          sent ++ b'.transaction.unsent = sent' ++ b''.transaction.unsent) ∧
        (b'.transaction.phase ≠ .masterToBus → b''.transaction.phase ≠ .masterToBus →
          Pass.commandsOnBus ps = Pass.commandsOnBus qs) := by
  have hcarried := h.carried hwrites
  have hbus := h.commandsOnBus hwrites
  refine ⟨hbus, hcarried.done, hcarried.kept, hcarried.heard, ?_⟩
  intro qs b'' h' hwhole hwhole'
  have hbus' := h'.commandsOnBus hwrites
  have hall := h.sent_append_unsent hwrites hwhole
  have hall' := h'.sent_append_unsent hwrites hwhole'
  refine ⟨⟨_, _, hbus, hbus', hall.trans hall'.symm⟩, ?_⟩
  intro hphase hphase'
  rw [Transaction.unsent, if_neg hphase, List.append_nil] at hall
  rw [Transaction.unsent, if_neg hphase', List.append_nil] at hall'
  rw [hbus, hbus', hall, hall']

/-- A schedule may end with its last command read and not yet sent, and then it has sent one command
less than a schedule that reads no more but goes on by one step. -/
theorem not_commandsOnBus_eq_of_unsent :
    ¬ ∀ (frames : List Frame) (ps qs : List Pass) (b' b'' : Bridge),
      (∀ f ∈ frames, f.Valid ∧ f.header.command.isWrite = true) →
      Schedule (frames.flatMap Frame.toBytes) ps b' →
      Schedule (frames.flatMap Frame.toBytes) qs b'' →
      ps.flatMap Pass.fromHost = frames.flatMap Frame.toBytes →
      qs.flatMap Pass.fromHost = frames.flatMap Frame.toBytes →
      Pass.commandsOnBus ps = Pass.commandsOnBus qs := by
  intro hsame
  obtain ⟨ps, b', hps, hbytes, -, hdone⟩ := schedule_of_passes
    [.ofHost [], .ofHost [.data [2, 7, 0, 0]]] [2, 7, 0, 0] [.masterHeader, .masterToBus] 0
    (by decide +kernel) (by decide)
  obtain ⟨qs, b'', hqs, hbytes', -, hdone'⟩ := schedule_of_passes
    [.ofHost [], .ofHost [.data [2, 7, 0, 0]], .ofHost []] [2, 7, 0, 0]
    [.masterHeader, .masterToBus, .idle] 1 (by decide +kernel) (by decide)
  have hwrites : ∀ f ∈ [⟨⟨.multiWriteRegister, 7, 0⟩, []⟩],
      Frame.Valid f ∧ f.header.command.isWrite = true := by
    intro f hf
    rw [List.mem_singleton.1 hf]
    exact ⟨⟨by decide, rfl⟩, rfl⟩
  have hstream : [⟨⟨.multiWriteRegister, 7, 0⟩, []⟩].flatMap Frame.toBytes = [2, 7, 0, 0] := rfl
  rw [← hstream] at hps hqs hbytes hbytes'
  have hboth := hsame _ ps qs b' b'' hwrites hps hqs hbytes hbytes'
  rw [hps.commandsOnBus hwrites, hqs.commandsOnBus hwrites, hdone, hdone'] at hboth
  cases hboth

/-- Two commands in different pieces, once with a read that would block between the pieces. -/
theorem masterDelivery_of_schedule_of_pieces :
    ∃ ps qs b' b'', Schedule [0, 5, 1, 0, 0x27, 2, 7, 0, 0] ps b' ∧
      Schedule [0, 5, 1, 0, 0x27, 2, 7, 0, 0] qs b'' ∧
      Pass.commandsOnBus ps = .ok [[0, 5, 1, 0, 0x27], [2, 7, 0, 0]] ∧
      Pass.commandsOnBus ps = Pass.commandsOnBus qs := by
  have hfirst := schedule_of_passes [.ofHost [], .ofHost [.data [0, 5]],
    .ofHost [.failed .blocked], .ofHost [.data [1, 0]], .ofHost [.data [0x27]], .ofHost [],
    .ofHost [], .ofHost [.data [2, 7, 0, 0]], .ofHost []]
    [0, 5, 1, 0, 0x27, 2, 7, 0, 0]
    [.masterHeader, .masterHeader, .masterHeader, .masterPayload, .masterToBus, .idle,
      .masterHeader, .masterToBus, .idle] 2 (by decide +kernel) (by decide)
  have hsecond := schedule_of_passes [.ofHost [], .ofHost [.data [0, 5, 1, 0]],
    .ofHost [.data [0x27]], .ofHost [], .ofHost [], .ofHost [.data [2]],
    .ofHost [.data [7, 0, 0]], .ofHost []]
    [0, 5, 1, 0, 0x27, 2, 7, 0, 0]
    [.masterHeader, .masterPayload, .masterToBus, .idle, .masterHeader, .masterHeader,
      .masterToBus, .idle] 2 (by decide +kernel) (by decide)
  obtain ⟨ps, b', hps, hbytes, hphase, hdone⟩ := hfirst
  obtain ⟨qs, b'', hqs, hbytes', hphase', -⟩ := hsecond
  have hwrites : ∀ f ∈ [⟨⟨.writeRegister, 5, 1⟩, [0x27]⟩, ⟨⟨.multiWriteRegister, 7, 0⟩, []⟩],
      Frame.Valid f ∧ f.header.command.isWrite = true := by
    intro f hf
    rcases List.mem_cons.1 hf with rfl | hf
    · exact ⟨⟨by decide, rfl⟩, rfl⟩
    · rw [List.mem_singleton.1 hf]
      exact ⟨⟨by decide, rfl⟩, rfl⟩
  have hdelivery := masterDelivery_of_schedule hwrites hps
  refine ⟨ps, qs, b', b'', hps, hqs, ?_, ?_⟩
  · have hbus := hdelivery.1
    rw [hdone] at hbus
    exact hbus
  · exact (hdelivery.2.2.2.2 hqs hbytes hbytes').2 (by rw [hphase]; decide)
      (by rw [hphase']; decide)

end Bridge

end SpiBridge
