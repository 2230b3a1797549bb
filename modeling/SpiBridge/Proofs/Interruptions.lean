import Mathlib.Data.List.Forall2
import SpiBridge.Proofs.Isolation
import SpiBridge.Proofs.Strewn
/-!
# Interruptions

A signal may interrupt any call, and a channel may refuse for a moment what it takes in the next.
Main statements: no turn and no step comes to anything else because calls were made again, and a run
in surroundings that react gives the same outcomes, the same bytes and the same bridge.
-/

namespace SpiBridge

/-- Surroundings, and the same ones with failures strewn in after which calls are made again.  A
flush of the bus is made again after any transient failure, one to the host after an
interruption. -/
structure Wiring.Strewn (w v : Wiring) : Prop where
  line : w.line = v.line
  bus : w.bus.Strewn IoKind.isTransient v.bus
  inbound : w.inbound.Strewn IoKind.isTransient v.inbound
  outbound : w.outbound.Strewn v.outbound

structure Scene.Strewn (s q : Scene) : Prop where
  bridge : s.bridge = q.bridge
  wiring : s.wiring.Strewn q.wiring

namespace Turn

variable {α β : Type}

inductive StrewnEnds : EStateM.Result Setback Scene α → EStateM.Result Setback Scene α → Prop
  | ok (a : α) {s q : Scene} (hs : s.Strewn q) : StrewnEnds (.ok a s) (.ok a q)
  | error (e : Setback) {s q : Scene} (hs : s.Strewn q) : StrewnEnds (.error e s) (.error e q)

/-- An action that comes to the same when calls have to be made again. -/
def Steady (x : Turn α) : Prop :=
  ∀ s q : Scene, s.Strewn q → StrewnEnds (x s) (x q)

/-! ## Rules for actions -/

theorem Steady.bind {x : Turn α} {f : α → Turn β} (h : Steady x) (hnext : ∀ a, Steady (f a)) :
    Steady (x >>= f) := by
  intro s q hs
  rw [bind_apply, bind_apply]
  have hends := h s q hs
  generalize x s = r, x q = r' at hends
  cases hends with
  | ok a hs' => exact hnext a _ _ hs'
  | error e hs' => exact .error e hs'

theorem steady_pure (a : α) : Steady (pure a : Turn α) :=
  fun _ _ hs => .ok a hs

theorem steady_throw (e : Setback) : Steady (throw e : Turn α) :=
  fun _ _ hs => .error e hs

theorem steady_get {f : Scene → Turn α} (hsame : ∀ s q : Scene, s.bridge = q.bridge → f s = f q)
    (h : ∀ s, Steady (f s)) : Steady (get >>= f) := by
  intro s q hs
  rw [bind_apply, bind_apply, get_apply, get_apply]
  simp only [hsame s q hs.bridge]
  exact h q s q hs

theorem steady_modify {f : Scene → Scene} (h : ∀ s q, s.Strewn q → (f s).Strewn (f q)) :
    Steady (modify f : Turn Unit) :=
  fun s q hs => .ok () (h s q hs)

theorem steady_alter (f : Transaction → Transaction) : Steady (alter f) :=
  steady_modify fun _ _ hs => ⟨by rw [hs.bridge], hs.wiring⟩

theorem steady_transaction : Steady transaction := by
  intro s q hs
  rw [transaction_apply, transaction_apply, hs.bridge]
  exact .ok _ hs

theorem steady_ofFraming (x : Except FramingError α) : Steady (ofFraming x) := by
  cases x with
  | ok a => exact steady_pure a
  | error e => exact steady_throw _

theorem steady_finish (origin : Sync.Origin) : Steady (finish origin) := by
  intro s q hs
  rw [finish_apply, finish_apply]
  exact .ok _ ⟨by simp only [Scene.finished, hs.bridge], hs.wiring⟩

/-! ## The transfers of a turn -/

theorem steady_fillFromBus (target : Nat) : Steady (fillFromBus target) := by
  intro s q hs
  have hintake : s.intake.Strewn IoKind.isTransient q.intake := by
    refine ⟨?_, ?_, ?_, hs.wiring.bus⟩ <;> simp only [Scene.intake, hs.bridge]
  obtain ⟨hresult, hleft⟩ := hintake.fill target
  rw [fillFromBus_apply, fillFromBus_apply]
  rcases hfill : s.intake.fill target with ⟨r, i⟩
  rcases hfill' : q.intake.fill target with ⟨r', j⟩
  rw [hfill, hfill'] at hresult hleft
  have htaking : (s.taking i).Strewn (q.taking j) := by
    refine ⟨?_, { hs.wiring with bus := hleft.bus }⟩
    have hframe : i.frame = j.frame := hleft.frame
    have hwire : i.wire = j.wire := hleft.wire
    have hdecoder : i.decoder = j.decoder := hleft.decoder
    simp only [Scene.taking, hs.bridge, hframe, hwire, hdecoder]
  cases hresult
  cases r with
  | error e => exact .error _ htaking
  | ok => exact .ok () htaking

theorem steady_readInbound (target : Nat) : Steady (readInbound target) := by
  intro s q hs
  have hmissing : s.missing target = q.missing target := by
    rw [Scene.missing, Scene.missing, hs.bridge]
  rcases hlend : s.bridge.transaction.frame.lend (s.missing target) with e | lent
  · have hlend' := hlend
    rw [hs.bridge, hmissing] at hlend'
    rw [readInbound_of_lend_error hlend, readInbound_of_lend_error hlend']
    exact .error _ hs
  · have hlend' := hlend
    rw [hs.bridge, hmissing] at hlend'
    have hask : Channel.StrewnEnds IoKind.isTransient (s.asking target) (q.asking target) := by
      rw [Scene.asking, Scene.asking, hmissing]
      exact hs.wiring.inbound.readSome _
    rw [readInbound_of_lend hlend, readInbound_of_lend hlend']
    rcases hc : s.asking target with ⟨e | _ | bytes, c⟩ <;> rw [hc] at hask <;>
      obtain ⟨d, hd, hleft⟩ := hask.exists_eq <;> rw [hd]
    · exact .error _ ⟨hs.bridge, { hs.wiring with inbound := hleft }⟩
    · exact .ok none ⟨hs.bridge, { hs.wiring with inbound := hleft }⟩
    · exact .ok _ ⟨by simp only [Scene.hearing, hs.bridge], { hs.wiring with inbound := hleft }⟩

theorem steady_forwardToHost : Steady forwardToHost := by
  intro s q hs
  obtain ⟨hresult, hleft⟩ := hs.wiring.outbound.writeWithin .outbound s.bridge.timing.write
    s.bridge.transaction.frame.filled
  have hforward : q.forwarding = q.wiring.outbound.writeWithin .outbound s.bridge.timing.write
      s.bridge.transaction.frame.filled := by rw [Scene.forwarding, hs.bridge]
  rw [← hforward] at hresult hleft
  rw [forwardToHost_apply, forwardToHost_apply]
  rcases hc : s.forwarding with ⟨r, o⟩
  rcases hd : q.forwarding with ⟨r', p⟩
  have hc' : s.wiring.outbound.writeWithin .outbound s.bridge.timing.write
      s.bridge.transaction.frame.filled = (r, o) := hc
  rw [hc', hd] at hresult hleft
  have hhanding : (s.handing o).Strewn (q.handing p) :=
    ⟨hs.bridge, { hs.wiring with outbound := hleft }⟩
  cases hresult
  cases r with
  | error e => exact .error _ hhanding
  | ok => exact .ok () hhanding

theorem steady_sendToBus (origin : Sync.Origin) : Steady (sendToBus origin) := by
  rintro ⟨b, w⟩ ⟨c, v⟩ hs
  obtain rfl : b = c := hs.bridge
  have hwiring : w.Strewn v := hs.wiring
  simp only [sendToBus, bind_apply, get_apply]
  rcases Sync.Header.next b.serials origin b.transaction.frame.filled.length with
    e | ⟨header, serials⟩
  · exact .error _ hs
  simp only [ofFraming_ok]
  rcases b.transaction.wire.reset.appendSync header b.transaction.frame.filled with
    ⟨e | _, wire⟩
  · exact .error _ ⟨rfl, hwiring⟩
  simp only [set_apply, ofFraming_ok]
  have hsend := hwiring.bus.writeFully .serialBus wire.filled
  rcases hc : w.bus.writeFully .serialBus wire.filled with ⟨sent, bus⟩
  rw [hc] at hsend
  obtain ⟨bus', hd, hleft⟩ := hsend.exists_eq
  rw [hd]
  simp only [modify_apply]
  cases sent with
  | error e => exact .error _ ⟨rfl, { hwiring with bus := hleft }⟩
  | ok => exact .ok _ ⟨rfl, { hwiring with bus := hleft }⟩

/-! ## The turns of the phases -/

theorem steady_startTransaction (readiness : Readiness) : Steady (startTransaction readiness) := by
  refine steady_get (fun s q h => by rw [h]) fun s => ?_
  split
  · refine (steady_modify fun s q hs => ?_).bind fun _ => ?_
    · exact ⟨by rw [hs.bridge], hs.wiring⟩
    · exact (steady_alter _).bind fun _ => steady_pure _
  split
  · exact (steady_alter _).bind fun _ => steady_pure _
  · exact steady_pure _

theorem steady_readSlaveHeader (now : Instant) : Steady (readSlaveHeader now) := by
  refine (steady_fillFromBus _).bind fun _ => steady_transaction.bind fun t => ?_
  refine (steady_ofFraming _).bind fun header => ?_
  split
  · split
    · exact (steady_alter _).bind fun _ => steady_pure _
    · exact steady_forwardToHost.bind fun _ => steady_finish _
  refine steady_forwardToHost.bind fun _ => (steady_alter _).bind fun _ => ?_
  refine steady_get (fun s q h => by rw [h]) fun s => ?_
  split
  · exact steady_throw _
  · exact (steady_alter _).bind fun _ => steady_pure _

theorem steady_readSlavePayload : Steady readSlavePayload := by
  refine steady_transaction.bind fun t => (steady_ofFraming _).bind fun header => ?_
  exact (steady_fillFromBus _).bind fun _ => steady_forwardToHost.bind fun _ => steady_finish _

theorem steady_readAnswer : Steady readAnswer := by
  refine steady_transaction.bind fun t => (steady_ofFraming _).bind fun found => ?_
  refine (steady_readInbound _).bind fun read => ?_
  split
  · exact steady_pure _
  · exact steady_throw _
  refine steady_transaction.bind fun t => (steady_ofFraming _).bind fun found => ?_
  split
  · exact steady_pure _
  · exact steady_transaction.bind fun t => steady_pure _

theorem steady_awaitHostAnswer (readiness : Readiness) (now : Instant) :
    Steady (awaitHostAnswer readiness now) := by
  unfold awaitHostAnswer
  split
  case' isTrue => refine steady_readAnswer.bind fun complete => ?_
  case' isFalse => refine (steady_pure false).bind fun complete => ?_
  all_goals
    dsimp only
    split
    · exact (steady_alter _).bind fun _ => steady_pure _
    refine steady_get (fun s q h => by rw [h]) fun s => ?_
    split
    · exact steady_pure _
    split
    · exact steady_throw _
    · exact steady_pure _

theorem steady_readMasterHeader (readiness : Readiness) :
    Steady (readMasterHeader readiness) := by
  unfold readMasterHeader
  split
  · exact steady_pure _
  refine (steady_readInbound _).bind fun read => ?_
  split
  · exact steady_pure _
  · refine steady_transaction.bind fun t => ?_
    split
    · exact (steady_alter _).bind fun _ => steady_pure _
    · exact steady_throw _
  refine steady_transaction.bind fun t => (steady_ofFraming _).bind fun found => ?_
  split
  · exact steady_pure _
  split
  · exact steady_throw _
  · exact (steady_alter _).bind fun _ => steady_pure _

theorem steady_readMasterPayload (readiness : Readiness) :
    Steady (readMasterPayload readiness) := by
  unfold readMasterPayload
  split
  · exact steady_pure _
  refine steady_transaction.bind fun t => (steady_ofFraming _).bind fun header => ?_
  refine (steady_readInbound _).bind fun read => ?_
  split
  · exact steady_pure _
  · exact steady_throw _
  refine steady_transaction.bind fun t => ?_
  split
  · exact (steady_alter _).bind fun _ => steady_pure _
  · exact steady_pure _

theorem steady_ofPhase (readiness : Readiness) (now : Instant) (phase : Phase) :
    Steady (ofPhase readiness now phase) := by
  cases phase with
  | idle => exact steady_startTransaction readiness
  | slaveHeader => exact steady_readSlaveHeader now
  | slavePayload => exact steady_readSlavePayload
  | slaveAwaitingHostAnswer => exact steady_awaitHostAnswer readiness now
  | slaveAnswerToBus => exact steady_sendToBus .slave
  | masterHeader => exact steady_readMasterHeader readiness
  | masterPayload => exact steady_readMasterPayload readiness
  | masterToBus => exact steady_sendToBus .master

end Turn

/-! ## Steps -/

structure Encounter.Strewn (e f : Encounter) : Prop where
  wiring : e.wiring.Strewn f.wiring
  readiness : e.readiness = f.readiness
  now : e.now = f.now

/-- Two steps that differ in nothing but calls that one of them made again: the outcome, the bridge
that is left with its serials and counts, and the bytes that went each way are the same. -/
structure Move.Undisturbed (m q : Move) : Prop where
  outcome : q.outcome = m.outcome
  after : q.after = m.after
  fromBus : q.busCalls.flatMap Call.received = m.busCalls.flatMap Call.received
  toBus : q.busCalls.flatMap Call.delivered = m.busCalls.flatMap Call.delivered
  fromHost : q.inboundCalls.flatMap Call.received = m.inboundCalls.flatMap Call.received
  toHost : q.outboundCalls.flatMap Call.delivered = m.outboundCalls.flatMap Call.delivered
  left : m.left.Strewn q.left

structure Wiring.Extends (w v : Wiring) : Prop where
  bus : w.bus.calls <+: v.bus.calls
  inbound : w.inbound.calls <+: v.inbound.calls
  outbound : w.outbound.channel.calls <+: v.outbound.channel.calls

namespace Channel

variable {c d c' d' : Channel} {again : IoKind → Bool}

theorem ReadsTo.isPrefix {bytes : Bytes} (h : c.ReadsTo d bytes) : c.calls <+: d.calls := by
  obtain ⟨new, hnew, -⟩ := h.calls
  exact ⟨new, hnew.symm⟩

theorem WritesTo.isPrefix {bytes : Bytes} (h : c.WritesTo d bytes) : c.calls <+: d.calls := by
  obtain ⟨new, hnew, -⟩ := h.calls
  exact ⟨new, hnew.symm⟩

theorem Strewn.flatMap_callsSince {β : Type} {f : Call → List β} (h : c.Strewn again d)
    (h' : c'.Strewn again d') (hc : c.calls <+: c'.calls) (hd : d.calls <+: d'.calls)
    (hvain : ∀ call : Call, call.isVain again = true → f call = []) :
    (d'.callsSince d).flatMap f = (c'.callsSince c).flatMap f := by
  obtain ⟨new, hnew⟩ := hc
  obtain ⟨more, hmore⟩ := hd
  have hall := h'.calls.flatMap_eq hvain
  rw [← hnew, ← hmore, List.flatMap_append, List.flatMap_append, h.calls.flatMap_eq hvain] at hall
  rw [callsSince_of_append hnew.symm, callsSince_of_append hmore.symm]
  exact List.append_cancel_left hall

end Channel

namespace Bridge

variable {b : Bridge} {e f : Encounter} {w v : Wiring}

theorem extends_of_move (b : Bridge) (e : Encounter) : e.wiring.Extends (b.move e).left := by
  rcases ending_of_move b e with ⟨error, line, -, hmove⟩ |
    ⟨level, line, r, -, hend, hleft, -⟩
  · rw [hmove]
    exact ⟨List.prefix_rfl, List.prefix_rfl, List.prefix_rfl⟩
  rw [hleft]
  refine ⟨?_, ?_, ?_⟩
  · rcases hsender : b.transaction.phase.sender? with _ | origin
    · obtain ⟨taken, hreads⟩ := Turn.readsTo_bus_of_ending hsender hend
      exact hreads.isPrefix
    · obtain ⟨sent, hwrites⟩ :=
        Turn.writesTo_bus_of_send (Turn.sendEnding_of_ending hsender hend)
      exact hwrites.isPrefix
  · obtain ⟨taken, hreads⟩ := Turn.readsTo_inbound_of_ending hend
    exact hreads.isPrefix
  · rcases Turn.forwards_of_ending hend with hsame | ⟨-, raw, result, hforward⟩
    · rw [hsame]
      exact List.prefix_rfl
    · obtain ⟨sent, hwrites, -⟩ := Outlet.offersTo_of_writeWithin hforward
      exact hwrites.isPrefix

theorem strewn_reportOf (phase : Phase) {r r' : Turn.Ending} (h : Turn.StrewnEnds r r') :
    (reportOf phase r).outcome = (reportOf phase r').outcome ∧
      (reportOf phase r).bridge = (reportOf phase r').bridge ∧
      (reportOf phase r).wiring.Strewn (reportOf phase r').wiring := by
  cases h with
  | ok outcome hs => exact ⟨rfl, hs.bridge, hs.wiring⟩
  | error e hs =>
    rcases e with error | (error | _)
    · exact ⟨rfl, by simp only [reportOf, hs.bridge], hs.wiring⟩
    · exact ⟨rfl, hs.bridge, hs.wiring⟩
    · exact ⟨rfl, hs.bridge, hs.wiring⟩

theorem strewn_step (h : e.Strewn f) :
    (b.move e).outcome = (b.move f).outcome ∧ (b.move e).after = (b.move f).after ∧
      (b.move e).left.Strewn (b.move f).left := by
  simp only [move, step, h.wiring.line, h.readiness, h.now]
  rcases f.wiring.line.sample with ⟨error | level, line⟩
  · exact ⟨rfl, rfl, { h.wiring with line := rfl }⟩
  · exact strewn_reportOf _ (Turn.steady_ofPhase _ _ _ _ _ ⟨rfl, { h.wiring with line := rfl }⟩)

theorem undisturbed_move (b : Bridge) (h : e.Strewn f) :
    (b.move e).Undisturbed (b.move f) := by
  obtain ⟨houtcome, hafter, hleft⟩ := strewn_step (b := b) h
  have hcalls := extends_of_move b e
  have hcalls' := extends_of_move b f
  exact
    { outcome := houtcome.symm
      after := hafter.symm
      fromBus := h.wiring.bus.flatMap_callsSince hleft.bus hcalls.bus hcalls'.bus
        fun _ => Call.received_of_isVain
      toBus := h.wiring.bus.flatMap_callsSince hleft.bus hcalls.bus hcalls'.bus
        fun _ => Call.delivered_of_isVain
      fromHost := h.wiring.inbound.flatMap_callsSince hleft.inbound hcalls.inbound hcalls'.inbound
        fun _ => Call.received_of_isVain
      toHost := h.wiring.outbound.channel.flatMap_callsSince hleft.outbound.channel
        hcalls.outbound hcalls'.outbound fun _ => Call.delivered_of_isVain
      left := hleft }

/-- Calls that have to be made again are seen by nobody.  Whatever the surroundings do, also in
answer to what a step left of them: if they do the same with failures strewn in after which calls
are made again, every step has the same outcome, moves the same bytes and leaves the same bridge.
What waits to be read may be cut into pieces, one for each read, so the failures may stand between
any two calls. -/
theorem undisturbed_of_strewn {script script' : List (Wiring → Encounter)} (b : Bridge)
    (hwiring : w.Strewn v)
    (hscript : List.Forall₂ (fun meets meets' => ∀ w v, Wiring.Strewn w v →
      (meets w).Strewn (meets' v)) script script') :
    List.Forall₂ Move.Undisturbed (b.driven w script) (b.driven v script') := by
  induction hscript generalizing b w v with
  | nil => exact .nil
  | cons hmeets hrest ih =>
    have hfirst := undisturbed_move b (hmeets w v hwiring)
    refine .cons hfirst ?_
    rw [hfirst.after]
    exact ih _ hfirst.left

def headerComes (bus : List Arrival) (acceptances : List Acceptance) (flushes : List IoError) :
    List (Wiring → Encounter) :=
  [fun w => { wiring := { w with line.level := true } },
    fun w =>
      { wiring :=
          { w with
            bus := w.bus.arrive bus
            outbound.channel :=
              (w.outbound.channel.willTake acceptances).willFailToFlush flushes } }]

theorem strewn_headerComes {bus bus' : List Arrival} {acceptances acceptances' : List Acceptance}
    {flushes flushes' : List IoError} (hbus : SpiBridge.Strewn Arrival.isInterruption bus bus')
    (hacceptances : SpiBridge.Strewn Acceptance.isTransient acceptances acceptances')
    (hflushes : SpiBridge.Strewn (fun e => e.kind == .interrupted) flushes flushes') :
    List.Forall₂ (fun meets meets' => ∀ w v, Wiring.Strewn w v → (meets w).Strewn (meets' v))
      (headerComes bus acceptances flushes) (headerComes bus' acceptances' flushes') := by
  refine .cons (fun w v h => ?_) (.cons (fun w v h => ?_) .nil)
  · exact ⟨{ h with line := by rw [h.line] }, rfl, rfl⟩
  · have houtbound := (h.outbound.channel.willTake hacceptances).willFailToFlush hflushes
    exact ⟨{ h with bus := h.bus.arrive hbus, outbound := h.outbound.onto houtbound }, rfl, rfl⟩

def signal : IoError :=
  ⟨.interrupted, "signal"⟩

/-- The header comes in two pieces and goes to the host in two, without signals and with some. -/
theorem undisturbed_of_strewn_of_signals :
    ∃ script script',
      script = headerComes [.data [2, 5], .data [0, 0]] [.takes 3] [] ∧
      script' = headerComes
        [.failed signal, .data [2, 5], .failed signal, .failed signal, .data [0, 0]]
        [.failed .blocked, .takes 3, .failed signal] [signal] ∧
      List.Forall₂ Move.Undisturbed ((atRest (.ofRooms 64 64)).driven {} script)
        ((atRest (.ofRooms 64 64)).driven {} script') ∧
      ((atRest (.ofRooms 64 64)).driven {} script').map (·.outcome.toOption) =
        [some .continues, some (.completed .slave)] ∧
      ((atRest (.ofRooms 64 64)).driven {} script).map (·.busCalls.length) = [0, 2] ∧
      ((atRest (.ofRooms 64 64)).driven {} script').map (·.busCalls.length) = [0, 5] := by
  have hwiring : Wiring.Strewn {} {} :=
    ⟨rfl, .refl _ _, .refl _ _, .refl _ _, rfl, rfl, ⟨rfl, by simp⟩, ⟨rfl, by simp⟩⟩
  have hbus : SpiBridge.Strewn Arrival.isInterruption [.data [2, 5], .data [0, 0]]
      [.failed signal, .data [2, 5], .failed signal, .failed signal, .data [0, 0]] :=
    .insert rfl (.keep _ (.insert rfl (.insert rfl (.keep _ .nil))))
  have hacceptances : SpiBridge.Strewn Acceptance.isTransient [.takes 3]
      [.failed .blocked, .takes 3, .failed signal] :=
    .insert rfl (.keep _ (.insert rfl .nil))
  have hflushes : SpiBridge.Strewn (fun e => e.kind == .interrupted) [] [signal] :=
    .insert rfl .nil
  have hsteps := undisturbed_of_strewn (atRest (.ofRooms 64 64)) hwiring
    (strewn_headerComes hbus hacceptances hflushes)
  exact ⟨_, _, rfl, rfl, hsteps, by decide +kernel, by decide +kernel, by decide +kernel⟩

end Bridge

end SpiBridge
