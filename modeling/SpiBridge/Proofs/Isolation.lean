import SpiBridge.Proofs.Alike
import SpiBridge.Proofs.Course
/-!
# No byte outlives its transaction

A transaction works in blocks that still hold the bytes of those before it.  Main
statements: no turn and no step tells apart two bridges that differ in stale bytes only,
and so a bridge that is idle goes on as if its buffers had never been used, whatever
happened before.
-/

namespace SpiBridge

namespace Turn

variable {α β γ δ : Type} {R : α → β → Prop} {S : γ → δ → Prop}

inductive AlikeEnds (R : α → β → Prop) :
    EStateM.Result Setback Scene α → EStateM.Result Setback Scene β → Prop
  | ok {a : α} {b : β} {s q : Scene} (h : R a b) (hs : s.Alike q) :
      AlikeEnds R (.ok a s) (.ok b q)
  | error (e : Setback) {s q : Scene} (hs : s.Alike q) : AlikeEnds R (.error e s) (.error e q)

/-- Two actions that do the same in alike scenes, and give values that are related. -/
def Agrees (R : α → β → Prop) (x : Turn α) (y : Turn β) : Prop :=
  ∀ s q : Scene, s.Alike q → AlikeEnds R (x s) (y q)

abbrev Blind (x : Turn α) : Prop :=
  Agrees Eq x x

/-! ## Rules for actions -/

theorem Agrees.bind {x : Turn α} {y : Turn β} {f : α → Turn γ} {g : β → Turn δ}
    (h : Agrees R x y) (hnext : ∀ a b, R a b → Agrees S (f a) (g b)) :
    Agrees S (x >>= f) (y >>= g) := by
  intro s q hs
  rw [bind_apply, bind_apply]
  have hends := h s q hs
  generalize x s = r, y q = r' at hends
  cases hends with
  | ok hab hs' => exact hnext _ _ hab _ _ hs'
  | error e hs' => exact .error e hs'

theorem Blind.bind {x : Turn α} {f : α → Turn γ} {g : α → Turn δ} (h : Blind x)
    (hnext : ∀ a, Agrees S (f a) (g a)) : Agrees S (x >>= f) (x >>= g) :=
  Agrees.bind h fun a _ hab => hab ▸ hnext a

theorem blind_pure (a : α) : Blind (pure a : Turn α) :=
  fun _ _ hs => .ok rfl hs

theorem blind_throw (e : Setback) : Blind (throw e : Turn α) :=
  fun _ _ hs => .error e hs

theorem agrees_get : Agrees Scene.Alike (get : Turn Scene) get :=
  fun _ _ hs => .ok hs hs

theorem agrees_set {s q : Scene} (h : s.Alike q) : Agrees Eq (set s : Turn Unit) (set q) :=
  fun _ _ _ => .ok rfl h

theorem blind_modify {f : Scene → Scene} (h : ∀ s q, s.Alike q → (f s).Alike (f q)) :
    Blind (modify f : Turn Unit) :=
  fun s q hs => .ok rfl (h s q hs)

theorem agrees_transaction : Agrees Transaction.Alike transaction transaction :=
  fun _ _ hs => .ok hs.bridge.transaction hs

theorem blind_alter {f : Transaction → Transaction} (h : ∀ t u, t.Alike u → (f t).Alike (f u)) :
    Blind (alter f) :=
  blind_modify fun _ _ hs =>
    ⟨{ hs.bridge with transaction := h _ _ hs.bridge.transaction }, hs.wiring⟩

theorem agrees_ofFraming {x : Except FramingError α} {y : Except FramingError β}
    (h : Agree R x y) : Agrees R (ofFraming x) (ofFraming y) := by
  cases h with
  | ok hab => exact fun _ _ hs => .ok hab hs
  | error e => exact fun _ _ hs => .error _ hs

theorem blind_ofFraming (x : Except FramingError α) : Blind (ofFraming x) :=
  agrees_ofFraming (.refl x)

theorem blind_ofTransport (x : Except TransportError α) : Blind (ofTransport x) := by
  cases x with
  | ok a => exact blind_pure a
  | error e => exact blind_throw _

/-! ## The turns of the phases -/

theorem blind_finish (origin : Sync.Origin) : Blind (finish origin) := by
  intro s q hs
  rw [finish_apply, finish_apply]
  exact .ok rfl ⟨{ hs.bridge with
    tally := congrArg (·.completed origin) hs.bridge.tally
    transaction := hs.bridge.transaction.reset }, hs.wiring⟩

theorem blind_fillFromBus (target : Nat) : Blind (fillFromBus target) := by
  intro s q hs
  obtain ⟨hresult, hintake⟩ := hs.intake.fill target
  rw [fillFromBus_apply, fillFromBus_apply]
  rcases hfill : s.intake.fill target with ⟨r, i⟩
  rcases hfill' : q.intake.fill target with ⟨r', j⟩
  rw [hfill, hfill'] at hresult hintake
  have hbus : i.bus = j.bus := hintake.bus
  have htaking : (s.taking i).Alike (q.taking j) :=
    ⟨{ hs.bridge with
        transaction := { hs.bridge.transaction with
          frame := hintake.frame, wire := hintake.wire, decoder := hintake.decoder } },
      by simp only [Scene.taking, hs.wiring, hbus]⟩
  cases hresult
  cases r with
  | error e => exact .error _ htaking
  | ok => exact .ok rfl htaking

theorem blind_readInbound (target : Nat) : Blind (readInbound target) := by
  unfold readInbound
  refine agrees_get.bind fun s q hs => ?_
  have hframe := hs.bridge.transaction.frame
  simp only [hframe.length, hs.wiring]
  refine (agrees_ofFraming (hframe.lend _)).bind fun _ _ _ => ?_
  refine (agrees_set ?_).bind fun _ _ _ => ?_
  · exact ⟨hs.bridge, rfl⟩
  refine (blind_ofTransport _).bind fun read => ?_
  cases read with
  | none => exact blind_pure none
  | some bytes =>
    refine (blind_alter fun t u h => ?_).bind fun _ => blind_pure _
    exact { h with frame := h.frame.receive bytes }

theorem blind_forwardToHost : Blind forwardToHost := by
  intro s q hs
  have hforward : s.forwarding = q.forwarding := by
    rw [Scene.forwarding, Scene.forwarding, hs.wiring, hs.bridge.timing,
      hs.bridge.transaction.frame.filled]
  rw [forwardToHost_apply, forwardToHost_apply, hforward]
  rcases q.forwarding with ⟨e | _, o⟩
  · exact .error _ ⟨hs.bridge, by simp only [Scene.handing, hs.wiring]⟩
  · exact .ok rfl ⟨hs.bridge, by simp only [Scene.handing, hs.wiring]⟩

theorem blind_sendToBus (origin : Sync.Origin) : Blind (sendToBus origin) := by
  unfold sendToBus
  refine agrees_get.bind fun s q hs => ?_
  have htransaction := hs.bridge.transaction
  simp only [htransaction.frame.filled, hs.bridge.serials]
  refine (blind_ofFraming _).bind fun next => ?_
  obtain ⟨hbuilt, hwire⟩ :=
    htransaction.wire.reset.appendSync next.1 q.bridge.transaction.frame.filled
  rw [hbuilt, hwire.filled, hs.wiring]
  refine (agrees_set ?_).bind fun _ _ _ => ?_
  · exact ⟨{ hs.bridge with
      serials := rfl, transaction := { htransaction with wire := hwire } }, rfl⟩
  refine (blind_ofFraming _).bind fun _ => ?_
  refine (blind_modify fun s q hs => ?_).bind fun _ => ?_
  · exact ⟨hs.bridge, by simp only [hs.wiring]⟩
  · exact (blind_ofTransport _).bind fun _ => blind_finish origin

theorem blind_startTransaction (readiness : Readiness) : Blind (startTransaction readiness) := by
  unfold startTransaction
  refine agrees_get.bind fun s q hs => ?_
  rw [hs.bridge.line]
  split
  · refine (blind_modify fun s q hs => ?_).bind fun _ => ?_
    · exact ⟨{ hs.bridge with line := by simp only [hs.bridge.line] }, hs.wiring⟩
    · exact (blind_alter fun t u h => h.start .slave).bind fun _ => blind_pure _
  split
  · exact (blind_alter fun t u h => h.start .master).bind fun _ => blind_pure _
  · exact blind_pure _

theorem blind_readSlaveHeader (now : Instant) : Blind (readSlaveHeader now) := by
  refine (blind_fillFromBus _).bind fun _ => ?_
  refine agrees_transaction.bind fun t u h => ?_
  rw [h.frame.filled]
  refine (blind_ofFraming _).bind fun header => ?_
  split
  · split
    · refine (blind_alter fun t u h => ?_).bind fun _ => blind_pure _
      exact { h with phase := rfl }
    · exact blind_forwardToHost.bind fun _ => blind_finish _
  refine blind_forwardToHost.bind fun _ => ?_
  refine (blind_alter fun t u h => ?_).bind fun _ => ?_
  · exact { h with request := rfl, frame := h.frame.reset }
  refine agrees_get.bind fun s q hs => ?_
  rw [hs.bridge.timing]
  split
  · exact blind_throw _
  · refine (blind_alter fun t u h => ?_).bind fun _ => blind_pure _
    exact { h with deadline := rfl, phase := rfl }

theorem blind_readSlavePayload : Blind readSlavePayload := by
  refine agrees_transaction.bind fun t u h => ?_
  rw [h.frame.filled]
  refine (blind_ofFraming _).bind fun header => ?_
  exact (blind_fillFromBus _).bind fun _ => blind_forwardToHost.bind fun _ => blind_finish _

theorem blind_readAnswer : Blind readAnswer := by
  refine agrees_transaction.bind fun t u h => ?_
  rw [h.header?]
  refine (blind_ofFraming _).bind fun found => ?_
  refine (blind_readInbound _).bind fun read => ?_
  split
  · exact blind_pure _
  · exact blind_throw _
  refine agrees_transaction.bind fun t u h => ?_
  rw [h.header?]
  refine (blind_ofFraming _).bind fun found => ?_
  split
  · exact blind_pure _
  · refine agrees_transaction.bind fun t u h => ?_
    rw [h.frame.length]
    exact blind_pure _

theorem blind_awaitHostAnswer (readiness : Readiness) (now : Instant) :
    Blind (awaitHostAnswer readiness now) := by
  unfold awaitHostAnswer
  split
  case' isTrue => refine blind_readAnswer.bind fun complete => ?_
  case' isFalse => refine (blind_pure false).bind fun complete => ?_
  all_goals
    dsimp only
    split
    · refine (blind_alter fun t u h => ?_).bind fun _ => blind_pure _
      exact { h with deadline := rfl, phase := rfl }
    refine agrees_get.bind fun s q hs => ?_
    rw [hs.bridge.transaction.deadline, hs.bridge.timing]
    split
    · exact blind_pure _
    split
    · exact blind_throw _
    · exact blind_pure _

theorem blind_readMasterHeader (readiness : Readiness) : Blind (readMasterHeader readiness) := by
  unfold readMasterHeader
  split
  · exact blind_pure _
  refine (blind_readInbound _).bind fun read => ?_
  split
  · exact blind_pure _
  · refine agrees_transaction.bind fun t u h => ?_
    rw [h.frame.isEmpty]
    split
    · exact (blind_alter fun t u h => h.reset).bind fun _ => blind_pure _
    · exact blind_throw _
  refine agrees_transaction.bind fun t u h => ?_
  rw [h.header?]
  refine (blind_ofFraming _).bind fun found => ?_
  split
  · exact blind_pure _
  split
  · exact blind_throw _
  · refine (blind_alter fun t u h => ?_).bind fun _ => blind_pure _
    exact { h with phase := rfl }

theorem blind_readMasterPayload (readiness : Readiness) : Blind (readMasterPayload readiness) := by
  unfold readMasterPayload
  split
  · exact blind_pure _
  refine agrees_transaction.bind fun t u h => ?_
  rw [h.frame.filled]
  refine (blind_ofFraming _).bind fun header => ?_
  refine (blind_readInbound _).bind fun read => ?_
  split
  · exact blind_pure _
  · exact blind_throw _
  refine agrees_transaction.bind fun t u h => ?_
  rw [h.frame.length]
  split
  · refine (blind_alter fun t u h => ?_).bind fun _ => blind_pure _
    exact { h with phase := rfl }
  · exact blind_pure _

theorem blind_ofPhase (readiness : Readiness) (now : Instant) (phase : Phase) :
    Blind (ofPhase readiness now phase) := by
  cases phase with
  | idle => exact blind_startTransaction readiness
  | slaveHeader => exact blind_readSlaveHeader now
  | slavePayload => exact blind_readSlavePayload
  | slaveAwaitingHostAnswer => exact blind_awaitHostAnswer readiness now
  | slaveAnswerToBus => exact blind_sendToBus .slave
  | masterHeader => exact blind_readMasterHeader readiness
  | masterPayload => exact blind_readMasterPayload readiness
  | masterToBus => exact blind_sendToBus .master

theorem reset_of_ending {readiness : Readiness} {now : Instant} {phase : Phase} {s : Scene}
    {r : Ending} (hphase : s.bridge.transaction.phase = phase)
    (hend : EndingOf readiness now s phase r)
    (hidle : (sceneOf r).bridge.transaction.phase = .idle) :
    (sceneOf r).bridge.transaction = s.bridge.transaction ∨
      ∃ t : Transaction, (sceneOf r).bridge.transaction = t.reset := by
  rcases r with ⟨outcome, s'⟩ | ⟨e, s'⟩
  · have hruns (next : Phase) (hne : next ≠ .idle) (hsame : s'.bridge.transaction.phase = next) :
        False := hne (hsame.symm.trans hidle)
    cases phase with
    | idle =>
      cases hend with
      | rests => exact .inl rfl
      | answersRequest | hearsHost => cases hidle
    | slaveHeader =>
      cases hend with
      | delivered => exact .inr ⟨_, rfl⟩
      | payloadFollows | requested => cases hidle
    | slavePayload =>
      cases hend with
      | delivered => exact .inr ⟨_, rfl⟩
    | slaveAwaitingHostAnswer =>
      generalize hr : (EStateM.Result.ok outcome s' : Ending) = r at hend
      cases hend with
      | unready | blocked | incomplete =>
        obtain ⟨-, rfl⟩ := eq_of_lapse hr.symm
        exact (hruns _ (by decide) hphase).elim
      | complete =>
        cases hr
        cases hidle
      | _ => cases hr
    | slaveAnswerToBus | masterToBus =>
      cases hend with
      | sent => exact .inr ⟨_, rfl⟩
    | masterHeader =>
      cases hend with
      | left => exact .inr ⟨_, rfl⟩
      | unready | blocked | incomplete => exact (hruns _ (by decide) hphase).elim
      | @accepted lent bytes c header =>
        refine (hruns (if 0 < header.followingLength then .masterPayload else .masterToBus) ?_
          rfl).elim
        split <;> decide
    | masterPayload =>
      cases hend with
      | unready | blocked | incomplete => exact (hruns _ (by decide) hphase).elim
      | complete => cases hidle
  · have hsame : s'.bridge.transaction.phase = phase := (phase_of_error hend).trans hphase
    obtain rfl : phase = .idle := hsame.symm.trans hidle
    cases hend

end Turn

/-! ## Steps -/

structure Report.Alike (r q : Report) : Prop where
  outcome : r.outcome = q.outcome
  records : r.records = q.records
  bridge : r.bridge.Alike q.bridge
  wiring : r.wiring = q.wiring

/-- What can be seen of a step from outside: what it met, its outcome, what it left of the
channels, with all the calls made on them, and the counts. -/
structure Sight where
  met : Encounter
  outcome : Except Fault Outcome
  left : Wiring
  tally : Tally

def Move.sight (m : Move) : Sight :=
  ⟨m.met, m.outcome, m.left, m.after.tally⟩

namespace Bridge

variable {b c : Bridge}

theorem alike_reportOf (phase : Phase) {r r' : Turn.Ending} (h : Turn.AlikeEnds Eq r r') :
    (reportOf phase r).Alike (reportOf phase r') := by
  cases h with
  | ok houtcome hs =>
    cases houtcome
    exact ⟨rfl, rfl, hs.bridge, hs.wiring⟩
  | error e hs =>
    rcases e with error | (error | _)
    · exact ⟨rfl, rfl, { hs.bridge with
        tally := congrArg (·.aborted error) hs.bridge.tally
        transaction := hs.bridge.transaction.reset }, hs.wiring⟩
    · exact ⟨rfl, rfl, hs.bridge, hs.wiring⟩
    · exact ⟨rfl, rfl, hs.bridge, hs.wiring⟩

theorem Alike.step (h : b.Alike c) (wiring : Wiring) (readiness : Readiness) (now : Instant) :
    (b.step wiring readiness now).Alike (c.step wiring readiness now) := by
  unfold Bridge.step
  rcases wiring.line.sample with ⟨error | level, line⟩
  · exact ⟨rfl, rfl, h, rfl⟩
  · simp only [h.transaction.phase]
    refine alike_reportOf _ (Turn.blind_ofPhase readiness now _ _ _ ?_)
    exact ⟨{ h with line := by rw [h.line] }, rfl⟩

/-! ## Steps in surroundings that react -/

/-- Steps in surroundings that react: what a step meets may depend in any way on what the step
before it left of the channels, and so on all calls made so far. -/
def driven (b : Bridge) (wiring : Wiring) : List (Wiring → Encounter) → List Move
  | [] => []
  | meets :: script =>
    let m := b.move (meets wiring)
    m :: m.after.driven m.left script

theorem Alike.driven (h : b.Alike c) (wiring : Wiring) (script : List (Wiring → Encounter)) :
    (b.driven wiring script).map Move.sight = (c.driven wiring script).map Move.sight := by
  induction script generalizing b c wiring with
  | nil => rfl
  | cons meets script ih =>
    have hstep := h.step (meets wiring).wiring (meets wiring).readiness (meets wiring).now
    have hsight : (b.move (meets wiring)).sight = (c.move (meets wiring)).sight := by
      simp only [Move.sight, move, hstep.outcome, hstep.wiring, hstep.bridge.tally]
    have hleft : (b.move (meets wiring)).left = (c.move (meets wiring)).left := hstep.wiring
    have hafter : (b.move (meets wiring)).after.Alike (c.move (meets wiring)).after := hstep.bridge
    simp only [Bridge.driven, List.map_cons, hsight, hleft, ih hafter]

/-! ## Histories -/

def Reached (b : Bridge) : Prop :=
  ∃ (transaction : Transaction) (timing : Timing) (wiring : Wiring) (a : Bridge)
    (es : List Encounter), (start transaction timing wiring).1 = .ok a ∧ b = a.after es

/-- Two bridges that agree in all but their transactions, and in the sizes of the buffers that
these work in. -/
structure Peers (b c : Bridge) : Prop where
  frame : b.transaction.frame.capacity = c.transaction.frame.capacity
  wire : b.transaction.wire.capacity = c.transaction.wire.capacity
  serials : b.serials = c.serials
  line : b.line = c.line
  timing : b.timing = c.timing
  tally : b.tally = c.tally

def renewed (b : Bridge) : Bridge :=
  { b with transaction := b.transaction.renewed }

def Cleared (b : Bridge) : Prop :=
  b.transaction.phase = .idle → b.transaction.Alike b.transaction.renewed

theorem cleared_move (e : Encounter) (h : b.Cleared) : (b.move e).after.Cleared := by
  have hmoves := moves_move b e
  generalize b.move e = m at hmoves ⊢
  cases hmoves with
  | unsampled => exact h
  | aborted => exact fun _ => Transaction.alike_renewed_reset _
  | @done level line _ s hsample hend | @failed level line _ s hsample hend =>
    intro hidle
    rcases Turn.reset_of_ending (s := e.scene b level line) rfl hend hidle with
      hsame | ⟨t, hreset⟩
    · have hkept : s.bridge.transaction = b.transaction := hsame
      rw [hkept] at hidle ⊢
      exact h hidle
    · have hkept : s.bridge.transaction = t.reset := hreset
      rw [hkept]
      exact Transaction.alike_renewed_reset t

theorem Reached.cleared (h : b.Reached) : b.Cleared := by
  obtain ⟨transaction, timing, wiring, a, es, hstart, rfl⟩ := h
  obtain ⟨level, rfl⟩ := start_eq_ok hstart
  exact after_invariant (fun c e => cleared_move e)
    (fun _ => Transaction.alike_renewed_reset transaction) es

theorem Peers.alike (h : b.Peers c) (hb : b.transaction.Alike b.transaction.renewed)
    (hc : c.transaction.Alike c.transaction.renewed) : b.Alike c := by
  refine ⟨?_, h.serials, h.line, h.timing, h.tally⟩
  have hrenewed : b.transaction.renewed = c.transaction.renewed := by
    rw [Transaction.renewed, Transaction.renewed, h.frame, h.wire]
  exact hb.trans (hrenewed ▸ hc.symm)

/-- Whatever happened before: two idle bridges that agree in their timing, the sizes of their
buffers, their serial numbers, what they know of the line, and their counts cannot be told
apart by what they do from there on; and a bridge that gives up a transaction goes on as if its
buffers had never been used. -/
theorem isolated_of_reached (hb : b.Reached) :
    (∀ c : Bridge, c.Reached → b.Peers c → b.transaction.phase = .idle →
      c.transaction.phase = .idle → ∀ wiring script,
        (b.driven wiring script).map Move.sight = (c.driven wiring script).map Move.sight) ∧
    ∀ e error, (b.move e).outcome = .ok (.aborted error) →
      (b.move e).after.transaction.phase = .idle ∧ ∀ wiring script,
        ((b.move e).after.driven wiring script).map Move.sight =
          ((b.move e).after.renewed.driven wiring script).map Move.sight := by
  refine ⟨fun c hc hpeers hbidle hcidle => ?_, fun e error houtcome => ?_⟩
  · exact (hpeers.alike (hb.cleared hbidle) (hc.cleared hcidle)).driven
  · have hidle := idle_of_move houtcome nofun
    have hclear := cleared_move e hb.cleared hidle
    have halike : (b.move e).after.Alike (b.move e).after.renewed :=
      ⟨hclear, rfl, rfl, rfl, rfl⟩
    exact ⟨hidle, halike.driven⟩

/-- A bridge that gave up what the host wrote, because it was no write command. -/
def afterRefusing (bytes : Bytes) : Bridge :=
  (atRest (.ofRooms 16 32)).after [.ofHost [], .ofHost [.data bytes]]

/-- Two bridges that gave up different bytes, and still hold them, send the next command alike. -/
theorem isolated_of_reached_of_refusing :
    (afterRefusing [1, 5, 1, 0]).Reached ∧ (afterRefusing [9, 9, 9, 9]).Reached ∧
      (afterRefusing [1, 5, 1, 0]).Peers (afterRefusing [9, 9, 9, 9]) ∧
      (afterRefusing [1, 5, 1, 0]).transaction.frame.spare.take 4 = [1, 5, 1, 0] ∧
      (afterRefusing [9, 9, 9, 9]).transaction.frame.spare.take 4 = [9, 9, 9, 9] ∧
      ∃ script, ((afterRefusing [1, 5, 1, 0]).driven {} script).map (·.outcome.toOption) =
          [some .continues, some .continues, some (.completed .master)] ∧
        ((afterRefusing [1, 5, 1, 0]).driven {} script).map Move.sight =
          ((afterRefusing [9, 9, 9, 9]).driven {} script).map Move.sight := by
  have hreached (bytes : Bytes) : (afterRefusing bytes).Reached :=
    ⟨.ofRooms 16 32, {}, {}, atRest (.ofRooms 16 32), _, rfl, rfl⟩
  have hpeers : (afterRefusing [1, 5, 1, 0]).Peers (afterRefusing [9, 9, 9, 9]) := by
    constructor <;> decide +kernel
  have hsame := (isolated_of_reached (hreached [1, 5, 1, 0])).1 _ (hreached [9, 9, 9, 9]) hpeers
    (by decide +kernel) (by decide +kernel)
  refine ⟨hreached _, hreached _, hpeers, by decide +kernel, by decide +kernel,
    [fun _ => .ofHost [], fun _ => .ofHost [.data [2, 7, 0, 0]], fun wiring => { wiring }], ?_,
    hsame _ _⟩
  decide +kernel

end Bridge

end SpiBridge
