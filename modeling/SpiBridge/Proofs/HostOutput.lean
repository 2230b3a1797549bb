import SpiBridge.Proofs.BusOutput
/-!
# What the host is handed

The slave's frame comes off the bus in escaped form, over two steps if it has a
payload, and goes to the host in one piece.  Main statements: while a transaction runs,
the host was handed the frame that the bytes off the bus stand for if they stand for a
whole one, and nothing else; so each step writes one whole frame to the host or nothing,
and a transaction that is given up writes nothing more.
-/

namespace SpiBridge

open Command (Frame Header)

namespace Command.Frame

variable {room : Nat} {wire raw : Bytes}

/-- The raw frame that bytes off the bus stand for, if it is whole and fits a buffer. -/
def ofWire? (room : Nat) (wire : Bytes) : Option Bytes :=
  match Escape.decode wire with
  | .error _ => none
  | .ok raw =>
    match parse raw with
    | .error _ => none
    | .ok _ => if raw.length ≤ room then some raw else none

theorem ofWire?_eq_some_iff :
    ofWire? room wire = some raw ↔
      Escape.decode wire = .ok raw ∧ raw.length ≤ room ∧ ∃ f, parse raw = .ok f := by
  unfold ofWire?
  rcases hdecode : Escape.decode wire with e | got
  · simp
  constructor
  · intro h
    rcases hparse : parse got with e | f <;> simp only [hparse, reduceCtorEq] at h
    split at h <;> simp only [Option.some.injEq, reduceCtorEq] at h
    subst h
    exact ⟨rfl, ‹_›, f, hparse⟩
  · rintro ⟨hgot, hroom, f, hparse⟩
    obtain rfl := Except.ok.inj hgot
    simp only [hparse, if_pos hroom]

theorem ofWire?_eq_none (h : ∀ raw f, Escape.decode wire = .ok raw → raw.length ≤ room →
    parse raw ≠ .ok f) : ofWire? room wire = none := by
  refine Option.eq_none_iff_forall_ne_some.2 fun raw hsome => ?_
  obtain ⟨hdecode, hroom, f, hparse⟩ := ofWire?_eq_some_iff.1 hsome
  exact h raw f hdecode hroom hparse

theorem ofWire?_nil (room : Nat) : ofWire? room [] = none := rfl

end Command.Frame

namespace Transaction

/-- The raw frame is what some bytes off the bus decode to, and the decoder stands behind them. -/
def Decodes (t : Transaction) (wire : Bytes) : Prop :=
  (Escape.Decoder.mk false).feedAll wire = { raw := t.frame.filled, decoder := t.decoder }

theorem decodes_nil {t : Transaction} (hframe : t.frame.filled = [])
    (hrest : t.decoder.pending = false) : t.Decodes [] := by
  unfold Decodes
  rw [hframe, Escape.Decoder.feedAll_nil]
  exact congrArg _ (congrArg _ hrest.symm)

end Transaction

namespace Turn

variable {readiness : Readiness} {now : Instant} {s : Scene} {r : Ending} {room : Nat}
  {wire : Bytes}

/-- How a turn that hears the slave ends, unless in a fault: with the frame handed to the host if
the bytes off the bus now stand for one, and with nothing handed if they do not. -/
inductive Hands (room : Nat) (wire : Bytes) (s : Scene) : Ending → Prop
  | fault (fault : Fault) (q : Scene) : Hands room wire s (.error (.fault fault) q)
  | spoiled {taken : Bytes} {error : TransactionError} {q : Scene}
      (hreads : s.wiring.bus.ReadsTo q.wiring.bus taken)
      (hquiet : q.wiring.outbound = s.wiring.outbound)
      (hnone : Frame.ofWire? room (wire ++ taken) = none) :
      Hands room wire s (.error (.transaction error) q)
  | follows {taken : Bytes} {q : Scene} (hreads : s.wiring.bus.ReadsTo q.wiring.bus taken)
      (hquiet : q.wiring.outbound = s.wiring.outbound)
      (hnone : Frame.ofWire? room (wire ++ taken) = none)
      (hdecodes : q.bridge.transaction.Decodes (wire ++ taken)) :
      Hands room wire s (.ok .continues q)
  | handed {taken raw : Bytes} {outcome : Outcome} {q : Scene}
      (hreads : s.wiring.bus.ReadsTo q.wiring.bus taken)
      (hwrites : s.wiring.outbound.channel.WritesTo q.wiring.outbound.channel raw)
      (hsome : Frame.ofWire? room (wire ++ taken) = some raw)
      (hdeaf : q.bridge.transaction.phase.hearsSlave = false)
      (hkept : ∀ error, outcome ≠ .aborted error) : Hands room wire s (.ok outcome q)

theorem hands_of_unfilled {target : Nat} {e : IntakeError} {i : Intake}
    (hdecodes : s.bridge.transaction.Decodes wire)
    (hroom : s.bridge.transaction.frame.capacity = room)
    (hlength : ∀ raw f, s.bridge.transaction.frame.filled <+: raw → Frame.parse raw = .ok f →
      target ≤ raw.length)
    (hfill : s.intake.fill target = (.error e, i)) :
    Hands room wire s (.error e.setback (s.taking i)) := by
  cases e with
  | transport e => exact .fault _ _
  | framing e =>
    have hdecodes' : s.intake.Decodes wire := hdecodes
    obtain ⟨taken, htook, hshort⟩ := hdecodes'.short_of_fill hfill
    refine .spoiled htook.bus rfl (Frame.ofWire?_eq_none fun raw f hdecode hfits hparse => ?_)
    obtain ⟨hfront, hless | hmore⟩ := hshort raw hdecode
    · have := hlength raw f hfront hparse
      omega
    · have hcapacity : s.intake.frame.capacity = room := hroom
      omega

structure Filling (room : Nat) (wire : Bytes) (s : Scene) (target : Nat) (i : Intake)
    (taken : Bytes) : Prop where
  reads : s.wiring.bus.ReadsTo i.bus taken
  decodes : i.Decodes (wire ++ taken)
  decode : Escape.decode (wire ++ taken) = .ok i.frame.filled
  length : i.frame.filled.length = target
  fits : i.frame.filled.length ≤ room
  grown : s.bridge.transaction.frame.filled <+: i.frame.filled

theorem filling_of_fill {target : Nat} {i : Intake}
    (hdecodes : s.bridge.transaction.Decodes wire)
    (hroom : s.bridge.transaction.frame.capacity = room)
    (hless : s.bridge.transaction.frame.filled.length < target)
    (hfill : s.intake.fill target = (.ok (), i)) : ∃ taken, Filling room wire s target i taken := by
  obtain ⟨taken, hfilled⟩ := Intake.filled_of_fill hfill
  have hdecodes' : s.intake.Decodes wire := hdecodes
  have hshort : s.intake.frame.length < target := by
    rw [← Buffer.length_filled]
    exact hless
  have hnext := hdecodes'.of_filled hfilled
  have hcapacity : i.frame.capacity = room := hfilled.took.frame.trans hroom
  have hbound := i.frame.length_add_remaining
  refine ⟨taken, hfilled.took.bus, hnext, hnext.decode_eq (hfilled.rest hshort), ?_, ?_, ?_⟩
  · rw [Buffer.length_filled]
    exact hfilled.length (Nat.le_of_lt hshort)
  · rw [Buffer.length_filled]
    omega
  · rw [Buffer.filled_of_append hfilled.append]
    exact List.prefix_append _ _

namespace Filling

variable {target : Nat} {i : Intake} {taken : Bytes} {header : Header} {o : Outlet}

theorem ofWire?_eq_none (h : Filling room wire s target i taken)
    (hparse : ∀ f, Frame.parse i.frame.filled ≠ .ok f) :
    Frame.ofWire? room (wire ++ taken) = none := by
  refine Frame.ofWire?_eq_none fun raw f hdecode _ => ?_
  obtain rfl := Except.ok.inj (h.decode.symm.trans hdecode)
  exact hparse f

theorem handed (h : Filling room wire s target i taken)
    (hparse : Header.parse i.frame.filled = .ok header) (htarget : target = header.frameLength)
    (hforward : (s.taking i).forwarding = (.ok (), o)) :
    Frame.ofWire? room (wire ++ taken) = some i.frame.filled ∧
      s.wiring.outbound.channel.WritesTo o.channel i.frame.filled :=
  ⟨Frame.ofWire?_eq_some_iff.2
      ⟨h.decode, h.fits, _, Frame.parse_of_length hparse (h.length.trans htarget)⟩,
    (Outlet.offersTo_of_writeWithin hforward).writesTo⟩

end Filling

theorem hands_of_slaveHeader (hempty : s.bridge.transaction.frame.filled = [])
    (hdecodes : s.bridge.transaction.Decodes wire)
    (hroom : s.bridge.transaction.frame.capacity = room) (hend : SlaveHeaderEnding now s r) :
    Hands room wire s r := by
  have hless : s.bridge.transaction.frame.filled.length < Header.size := by
    rw [hempty]
    decide
  cases hend with
  | unfilled hfill =>
    refine hands_of_unfilled hdecodes hroom (fun raw f _ hparse => ?_) hfill
    exact Header.size_le_of_parse (Frame.header_of_parse hparse).1
  | malformed hfill hparse =>
    obtain ⟨taken, h⟩ := filling_of_fill hdecodes hroom hless hfill
    refine .spoiled h.reads rfl (h.ofWire?_eq_none fun f hframe => ?_)
    rw [(Frame.header_of_parse hframe).1] at hparse
    cases hparse
  | @payloadFollows header i hfill hparse hwrite hfollows =>
    obtain ⟨taken, h⟩ := filling_of_fill hdecodes hroom hless hfill
    refine .follows h.reads rfl (h.ofWire?_eq_none fun f hframe => ?_) h.decodes
    obtain ⟨hheader, hlength⟩ := Frame.header_of_parse hframe
    rw [hparse] at hheader
    rw [← Except.ok.inj hheader, h.length, Header.frameLength] at hlength
    omega
  | @unforwarded header i f =>
    cases f with
    | transport | clockRange => exact .fault _ _
  | @delivered header i o hfill hparse hwrite hwhole hforward =>
    obtain ⟨taken, h⟩ := filling_of_fill hdecodes hroom hless hfill
    have htarget : Header.size = header.frameLength := by
      rw [Header.frameLength, hwhole, Nat.add_zero]
    obtain ⟨hsome, hwrites⟩ := h.handed hparse htarget hforward
    exact .handed h.reads hwrites hsome rfl (by simp)
  | endless => exact .fault _ _
  | @requested header i o deadline hfill hparse hread hforward =>
    obtain ⟨taken, h⟩ := filling_of_fill hdecodes hroom hless hfill
    have htarget : Header.size = header.frameLength := by
      rw [Header.frameLength, Header.followingLength_of_not_isWrite hread, Nat.add_zero]
    obtain ⟨hsome, hwrites⟩ := h.handed hparse htarget hforward
    exact .handed h.reads hwrites hsome rfl (by simp)

theorem hands_of_slavePayload {header : Header}
    (hheader : Header.parse s.bridge.transaction.frame.filled = .ok header)
    (hless : s.bridge.transaction.frame.filled.length < header.frameLength)
    (hdecodes : s.bridge.transaction.Decodes wire)
    (hroom : s.bridge.transaction.frame.capacity = room) (hend : SlavePayloadEnding s r) :
    Hands room wire s r := by
  have hgrown {raw : Bytes} (hpre : s.bridge.transaction.frame.filled <+: raw) :
      Header.parse raw = .ok header := by
    obtain ⟨more, rfl⟩ := hpre
    exact Header.parse_append hheader more
  cases hend with
  | malformed hparse =>
    rw [hheader] at hparse
    cases hparse
  | unfilled hparse hfill =>
    rw [hheader] at hparse
    cases hparse
    refine hands_of_unfilled hdecodes hroom (fun raw f hpre hframe => ?_) hfill
    obtain ⟨hfront, hlength⟩ := Frame.header_of_parse hframe
    have hsame := Except.ok.inj ((hgrown hpre).symm.trans hfront)
    exact Nat.le_of_eq (by rw [hlength, hsame])
  | @unforwarded header' i f =>
    cases f with
    | transport | clockRange => exact .fault _ _
  | delivered hparse hfill hforward =>
    rw [hheader] at hparse
    cases hparse
    obtain ⟨taken, h⟩ := filling_of_fill hdecodes hroom hless hfill
    obtain ⟨hsome, hwrites⟩ := h.handed (hgrown h.grown) rfl hforward
    exact .handed h.reads hwrites hsome rfl (by simp)

theorem hands_of_ending {phase : Phase} (hphase : s.bridge.transaction.phase = phase)
    (hhears : phase.hearsSlave = true) (hcoherent : s.bridge.transaction.Coherent)
    (hdecodes : s.bridge.transaction.Decodes wire)
    (hroom : s.bridge.transaction.frame.capacity = room)
    (hend : EndingOf readiness now s phase r) : Hands room wire s r := by
  have hholds := hcoherent.holds
  rw [hphase] at hholds
  cases phase with
  | slaveHeader => exact hands_of_slaveHeader hholds.1 hdecodes hroom hend
  | slavePayload =>
    obtain ⟨hlength, -, header, hheader, hwrite, hpayload⟩ := hholds
    refine hands_of_slavePayload hheader ?_ hdecodes hroom hend
    rw [hlength, Header.frameLength, Header.followingLength_of_isWrite hwrite]
    omega
  | _ => cases hhears

end Turn

namespace Pass

def handed? (p : Pass) : Option Bytes :=
  if p.toHost = [] then none else some p.toHost

def ofTransaction (ps : List Pass) : List Pass :=
  ps.foldl (fun steps p => if p.before.transaction.phase = .idle then [] else steps ++ [p]) []

/-- The bytes that were read from the bus since the transaction began. -/
def clockedIn (ps : List Pass) : Bytes :=
  (ofTransaction ps).flatMap fromBus

def handed (ps : List Pass) : List Bytes :=
  (ofTransaction ps).filterMap handed?

variable {p : Pass}

theorem ofTransaction_append_idle (ps : List Pass) (h : p.before.transaction.phase = .idle) :
    ofTransaction (ps ++ [p]) = [] := by
  simp [ofTransaction, List.foldl_append, h]

theorem ofTransaction_append (ps : List Pass) (h : p.before.transaction.phase ≠ .idle) :
    ofTransaction (ps ++ [p]) = ofTransaction ps ++ [p] := by
  simp [ofTransaction, List.foldl_append, h]

theorem clockedIn_append (ps : List Pass) (h : p.before.transaction.phase ≠ .idle) :
    clockedIn (ps ++ [p]) = clockedIn ps ++ p.fromBus := by
  simp [clockedIn, ofTransaction_append ps h]

theorem handed_append (ps : List Pass) (h : p.before.transaction.phase ≠ .idle) :
    handed (ps ++ [p]) = handed ps ++ p.handed?.toList := by
  rw [handed, ofTransaction_append ps h, List.filterMap_append]
  cases hhanded : p.handed? <;> simp [handed, hhanded]

theorem handed?_eq_none (h : p.toHost = []) : p.handed? = none :=
  if_pos h

theorem fromBus_of_readsTo {taken : Bytes} (h : p.met.wiring.bus.ReadsTo p.left.bus taken) :
    p.fromBus = taken :=
  h.received_callsSince

theorem toHost_of_unused (h : p.left.outbound = p.met.wiring.outbound) : p.toHost = [] := by
  rw [toHost, outboundCalls, h, Channel.callsSince_self, List.flatMap_nil]

/-- What a step of a bridge that hears the slave hands to the host, given the bytes that came off
the bus before it. -/
inductive Hands (room : Nat) (wire : Bytes) (p : Pass) : Prop
  | nothing (hquiet : p.toHost = []) (hnone : Frame.ofWire? room (wire ++ p.fromBus) = none)
      (hdecodes : p.after.transaction.phase.hearsSlave = true →
        p.after.transaction.Decodes (wire ++ p.fromBus))
  | frame (hsome : Frame.ofWire? room (wire ++ p.fromBus) = some p.toHost)
      (hdeaf : p.after.transaction.phase.hearsSlave = false)
      (hkept : ∀ error, p.outcome ≠ .aborted error)

theorem Hands.toList_handed? {room : Nat} {wire : Bytes} (h : p.Hands room wire) :
    p.handed?.toList = (Frame.ofWire? room (wire ++ p.fromBus)).toList := by
  cases h with
  | nothing hquiet hnone => rw [handed?_eq_none hquiet, hnone]
  | frame hsome =>
    obtain ⟨-, -, f, hparse⟩ := Frame.ofWire?_eq_some_iff.1 hsome
    have hne : p.toHost ≠ [] := by
      intro hnil
      rw [hnil] at hparse
      cases hparse
    rw [hsome, handed?, if_neg hne]

/-- What a step writes, after the steps before it: a whole frame for the host or nothing, and
nothing at all if it gives its transaction up. -/
structure Output (earlier : List Pass) (p : Pass) : Prop where
  frame : p.toHost = [] ∨ p.before.transaction.phase.hearsSlave = true ∧
    (∃ f, Frame.parse p.toHost = .ok f) ∧
      Escape.decode (clockedIn (earlier ++ [p])) = .ok p.toHost
  aborted : ∀ error, p.outcome = .aborted error → p.toBus = [] ∧ p.toHost = []

end Pass

namespace Bridge

variable {b b' : Bridge} {e : Encounter} {p : Pass} {ps : List Pass} {room : Nat} {wire : Bytes}

theorem hands_of_pass? (hcoherent : b.transaction.Coherent)
    (hhears : b.transaction.phase.hearsSlave = true) (hdecodes : b.transaction.Decodes wire)
    (hroom : b.transaction.frame.capacity = room) (hpass : b.pass? e = some p) :
    p.Hands room wire := by
  cases steps_of_pass? hpass with
  | @done level line outcome s hend =>
    have hhands := Turn.hands_of_ending (s := e.scene b level line) rfl hhears hcoherent hdecodes
      hroom hend
    cases hhands with
    | follows hreads hquiet hnone hnext =>
      obtain rfl := Pass.fromBus_of_readsTo (p := ⟨b, e, .continues, s.bridge, s.wiring⟩) hreads
      exact .nothing (Pass.toHost_of_unused hquiet) hnone fun _ => hnext
    | handed hreads hwrites hsome hdeaf hkept =>
      obtain rfl := Pass.fromBus_of_readsTo (p := ⟨b, e, outcome, s.bridge, s.wiring⟩) hreads
      obtain rfl := hwrites.delivered_callsSince
      exact .frame hsome hdeaf hkept
  | @aborted level line error s hend =>
    have hhands := Turn.hands_of_ending (s := e.scene b level line) rfl hhears hcoherent hdecodes
      hroom hend
    cases hhands with
    | spoiled hreads hquiet hnone =>
      obtain rfl := hreads.received_callsSince
      exact .nothing (Pass.toHost_of_unused hquiet) hnone nofun

theorem mute_of_pass? (hdeaf : b.transaction.phase.hearsSlave = false)
    (hpass : b.pass? e = some p) : p.toHost = [] ∧ p.fromBus = [] := by
  obtain ⟨level, line, r, hend, -, hmet, hleft, -⟩ := (steps_of_pass? hpass).exists_ending
  constructor
  · refine Pass.toHost_of_unused ?_
    rcases Turn.forwards_of_ending hend with hsame | ⟨hhears, -⟩
    · rw [hleft, hmet, hsame]
      rfl
    · rw [hdeaf] at hhears
      cases hhears
  · unfold Pass.fromBus Pass.busCalls
    rw [hleft, hmet]
    rcases hsender : b.transaction.phase.sender? with _ | origin
    · rcases Turn.fills_of_ending hsender hend with hsame | ⟨hhears, -⟩
      · rw [hsame]
        exact congrArg _ (Channel.callsSince_self _)
      · rw [hdeaf] at hhears
        cases hhears
    · obtain ⟨sent, hwrites⟩ := Turn.writesTo_bus_of_send (Turn.sendEnding_of_ending hsender hend)
      exact hwrites.received_callsSince

theorem toBus_of_aborted {error : TransactionError} (habort : p.outcome = .aborted error)
    (hpass : b.pass? e = some p) : p.toBus = [] := by
  rcases hsender : b.transaction.phase.sender? with _ | origin
  · exact (silent_of_pass? hsender hpass).2.1
  cases steps_of_pass? hpass with
  | done hend =>
    cases Turn.sendEnding_of_ending hsender hend
    cases habort
  | aborted hend =>
    cases Turn.sendEnding_of_ending hsender hend with
    | unnumbered | noRoom => exact congrArg _ (Channel.callsSince_self _)

structure Forwards (room : Nat) (b : Bridge) (ps : List Pass) : Prop where
  handed : Pass.handed ps = (Frame.ofWire? room (Pass.clockedIn ps)).toList
  hearing : b.transaction.phase.hearsSlave = true →
    Pass.handed ps = [] ∧ b.transaction.Decodes (Pass.clockedIn ps)

theorem forwards_of_idle (hcoherent : b.transaction.Coherent)
    (hphase : b.transaction.phase = .idle) (hpass : b.pass? e = some p) :
    p.after.Forwards room (ps ++ [p]) := by
  obtain ⟨hnext, hleads⟩ := coherent_of_pass? hcoherent hpass
  obtain ⟨rfl, rfl⟩ := before_of_pass? hpass
  have hnothing := Pass.ofTransaction_append_idle ps hphase
  have hhanded : Pass.handed (ps ++ [p]) = [] := by rw [Pass.handed, hnothing, List.filterMap_nil]
  have hclocked : Pass.clockedIn (ps ++ [p]) = [] := by
    rw [Pass.clockedIn, hnothing, List.flatMap_nil]
  refine ⟨by rw [hhanded, hclocked, Frame.ofWire?_nil, Option.toList_none],
    fun hhears => ⟨hhanded, ?_⟩⟩
  rw [hclocked]
  have hafter := (hphase ▸ hleads.follows).eq_slaveHeader hhears
  have hholds := hnext.holds
  rw [hafter] at hholds
  exact Transaction.decodes_nil hholds.1 hholds.2

theorem forwards_of_pass? (h : b.Forwards room ps) (hcoherent : b.transaction.Coherent)
    (hroom : b.transaction.frame.capacity = room) (hpass : b.pass? e = some p) :
    p.after.Forwards room (ps ++ [p]) := by
  by_cases hphase : b.transaction.phase = .idle
  · exact forwards_of_idle hcoherent hphase hpass
  obtain ⟨-, hleads⟩ := coherent_of_pass? hcoherent hpass
  obtain ⟨rfl, rfl⟩ := before_of_pass? hpass
  have hclocked := Pass.clockedIn_append ps hphase
  have hhanded := Pass.handed_append ps hphase
  cases hhears : p.before.transaction.phase.hearsSlave with
  | true =>
    obtain ⟨hnone, hdecodes⟩ := h.hearing hhears
    have hhands := hands_of_pass? hcoherent hhears hdecodes hroom hpass
    refine ⟨?_, fun hhears' => ?_⟩
    · rw [hhanded, hnone, hclocked, hhands.toList_handed?, List.nil_append]
    · cases hhands with
      | nothing hquiet _ hnext =>
        rw [hhanded, hnone, hclocked, Pass.handed?_eq_none hquiet]
        exact ⟨rfl, hnext hhears'⟩
      | frame _ hdeaf =>
        rw [hdeaf] at hhears'
        cases hhears'
  | false =>
    obtain ⟨hquiet, hsilent⟩ := mute_of_pass? hhears hpass
    rw [hsilent, List.append_nil] at hclocked
    rw [Pass.handed?_eq_none hquiet, Option.toList_none, List.append_nil] at hhanded
    refine ⟨by rw [hhanded, hclocked, h.handed], fun hhears' => ?_⟩
    rw [hleads.follows.hearsSlave_eq_false hphase hhears] at hhears'
    cases hhears'

theorem Run.forwards (hrun : b.Run ps b') (hcoherent : b.transaction.Coherent)
    (hidle : b.transaction.phase = .idle) (hroom : b.transaction.frame.capacity = room) :
    b'.Forwards room ps := by
  induction hrun with
  | start => exact ⟨rfl, fun hhears => by rw [hidle] at hhears; cases hhears⟩
  | step hrun hpass ih =>
    exact forwards_of_pass? ih (hrun.coherent hcoherent) (hrun.keeps.frame.trans hroom) hpass

theorem output_of_pass? (h : p.before.Forwards room ps) (hcoherent : p.before.transaction.Coherent)
    (hroom : p.before.transaction.frame.capacity = room)
    (hpass : p.before.pass? p.met = some p) : p.Output ps := by
  cases hhears : p.before.transaction.phase.hearsSlave with
  | false =>
    obtain ⟨hquiet, -⟩ := mute_of_pass? hhears hpass
    exact ⟨.inl hquiet, fun error habort => ⟨toBus_of_aborted habort hpass, hquiet⟩⟩
  | true =>
    obtain ⟨-, hdecodes⟩ := h.hearing hhears
    have hphase : p.before.transaction.phase ≠ .idle := by
      intro hphase
      rw [hphase] at hhears
      cases hhears
    cases hands_of_pass? hcoherent hhears hdecodes hroom hpass with
    | nothing hquiet =>
      exact ⟨.inl hquiet, fun error habort => ⟨toBus_of_aborted habort hpass, hquiet⟩⟩
    | frame hsome _ hkept =>
      obtain ⟨hdecode, -, hparse⟩ := Frame.ofWire?_eq_some_iff.1 hsome
      refine ⟨.inr ⟨hhears, hparse, ?_⟩, fun error habort => absurd habort (hkept error)⟩
      rw [Pass.clockedIn_append ps hphase]
      exact hdecode

/-- Whatever a bridge meets after its start, and whatever the room in its buffers: each step
writes one whole frame to the host or nothing, the frame is what the bytes that came off the bus
since the transaction began decode to, and at any time the host was handed one frame of the
transaction if these bytes are a whole frame that fits the buffer, and none if they are not. -/
theorem hostOutput_of_start {frameRoom wireRoom : Nat} {timing : Timing} {wiring : Wiring}
    (hstart : (start (.ofRooms frameRoom wireRoom) timing wiring).1 = .ok b)
    (hrun : b.Run ps b') :
    (∀ front p back, ps = front ++ p :: back → p.Output front) ∧
      ∀ front back, ps = front ++ back →
        Pass.handed front = (Frame.ofWire? frameRoom (Pass.clockedIn front)).toList := by
  obtain ⟨level, rfl⟩ := start_eq_ok hstart
  have hfresh := Transaction.coherent_reset (.ofRooms frameRoom wireRoom)
  have hroom : (Transaction.ofRooms frameRoom wireRoom).reset.frame.capacity = frameRoom := by
    simp [Transaction.reset, Transaction.ofRooms]
  constructor
  · rintro front p back rfl
    obtain ⟨hfront, hpass⟩ := hrun.of_append_cons
    exact output_of_pass? (hfront.forwards hfresh rfl hroom) (hfront.coherent hfresh)
      (hfront.keeps.frame.trans hroom) hpass
  · rintro front back rfl
    obtain ⟨c, hfront⟩ := hrun.of_append
    exact (hfront.forwards hfresh rfl hroom).handed

/-- A write with an escaped byte in its payload is handed over once it is whole, and a write
that the buffer has no room for is not. -/
theorem hostOutput_of_start_of_overflow :
    ∃ ps b', (atRest (.ofRooms 5 16)).Run ps b' ∧
      (∀ front p back, ps = front ++ p :: back → p.Output front) ∧
      (∀ front back, ps = front ++ back →
        Pass.handed front = (Frame.ofWire? 5 (Pass.clockedIn front)).toList) ∧
      ps.map Pass.toHost = [[], [], [0, 5, 1, 0, 0x27], [], [], [], []] ∧
      (ps.map Pass.outcome).getLastD .stop = .aborted (.framing (.overflow 1 0 5)) := by
  have hpasses : ((atRest (.ofRooms 5 16)).passes [{ wiring.line.level := true },
      .ofBus [.data [0, 5, 1, 0]], .ofBus [.data [0x27, 0x01]], { wiring := {} },
      { wiring.line.level := true },
      .ofBus [.data [0, 5, 2, 0]], .ofBus [.data [7, 8]]]).map
      (fun ps => (ps.map Pass.toHost, (ps.map Pass.outcome).getLastD .stop)) =
      some ([[], [], [0, 5, 1, 0, 0x27], [], [], [], []],
        .aborted (.framing (.overflow 1 0 5))) := by
    decide +kernel
  obtain ⟨ps, hps, hfound⟩ := Option.map_eq_some_iff.1 hpasses
  obtain ⟨hhost, houtcome⟩ := Prod.mk.inj hfound
  have hstart : (start (.ofRooms 5 16) {} {}).1 = .ok (atRest (.ofRooms 5 16)) := rfl
  obtain ⟨houtput, hhanded⟩ := hostOutput_of_start hstart (Run.of_passes hps)
  exact ⟨ps, _, Run.of_passes hps, houtput, hhanded, hhost, houtcome⟩

end Bridge

end SpiBridge
