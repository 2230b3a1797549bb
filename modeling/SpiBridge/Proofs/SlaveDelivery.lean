import SpiBridge.Proofs.Collecting
/-!
# Transactions of the slave

The slave's frame is on the bus in written form, and the bus hands it over in pieces
of any size.  Main statements: a write of the slave reaches the host after two steps
at most, a read reaches it after one, the bytes behind the frame stay on the bus, and
the host's answer to the read is sent to the slave whole, however it arrives.
-/

namespace SpiBridge

open Command (Header Frame)

/-- Nothing that a step meets fails: the request line can be sampled, and what is written is
taken in time. -/
structure Encounter.Benign (e : Encounter) (timing : Timing) : Prop where
  line : e.wiring.line.failure = none
  outbound : e.wiring.outbound.Yields timing.write
  bus : e.wiring.bus.Yields IoError.isTransient

/-- The bus brings the written form of a frame, and other bytes behind it. -/
structure Encounter.BringsFrame (e : Encounter) (raw rest : Bytes) : Prop where
  waiting : e.wiring.bus.waiting = Escape.encode raw ++ rest
  brings : Channel.Brings IoError.isInterruption e.wiring.bus.arrivals (Escape.encode raw).length

theorem Encounter.BringsFrame.header {e : Encounter} {f : Frame} {rest : Bytes}
    (h : e.BringsFrame f.toBytes rest) :
    e.wiring.bus.waiting = Escape.encode f.header.toBytes ++ (Escape.encode f.payload ++ rest) ∧
      Channel.Brings IoError.isInterruption e.wiring.bus.arrivals
        ((Escape.encode f.header.toBytes).length + (Escape.encode f.payload).length) := by
  have hform : Escape.encode f.toBytes = Escape.encode f.header.toBytes ++
      Escape.encode f.payload := Escape.encode_append _ _
  have hwaiting := h.waiting
  have hbrings := h.brings
  rw [hform, List.append_assoc] at hwaiting
  rw [hform, List.length_append] at hbrings
  exact ⟨hwaiting, hbrings⟩

/-- The buffers have room for a frame on its way to the host: for its raw bytes, and for as many
bytes off the bus as a header takes, and then as many as a payload. -/
structure Transaction.FitsHost (t : Transaction) (raw : Bytes) : Prop where
  frame : raw.length ≤ t.frame.capacity
  wire : max Header.size (raw.length - Header.size) ≤ t.wire.capacity

structure Transaction.FitsHeader (t : Transaction) : Prop where
  frame : Header.size ≤ t.frame.capacity
  wire : Header.size ≤ t.wire.capacity

theorem Transaction.FitsHost.header {t : Transaction} {f : Frame} (h : t.FitsHost f.toBytes) :
    t.FitsHeader := by
  have hframe := h.frame
  have hwire := h.wire
  have hsize := Frame.size_le_length_toBytes f
  exact ⟨by omega, by omega⟩

theorem Transaction.FitsHeader.host {t : Transaction} {raw : Bytes} (h : t.FitsHeader)
    (hwhole : raw.length = Header.size) : t.FitsHost raw := by
  have hframe := h.frame
  have hwire := h.wire
  exact ⟨by omega, by omega⟩

namespace Bridge.Roomy

variable {b : Bridge} {f : Frame} (h : b.Roomy) (hf : f.Valid)
include h hf

theorem fitsHost : b.transaction.FitsHost f.toBytes := by
  have hshort := Frame.length_le_of_parse (Frame.parse_eq_ok_iff.2 ⟨hf, rfl⟩)
  unfold Header.maxFrame Header.size Header.maxPayload at hshort
  constructor
  · rw [h.frame]
    unfold Transaction.frameRoom
    omega
  · rw [h.wire]
    unfold Transaction.wireRoom Header.size
    omega

theorem fitsBus : b.transaction.FitsBus f.toBytes := by
  have hshort := Frame.length_le_of_parse (Frame.parse_eq_ok_iff.2 ⟨hf, rfl⟩)
  have hwritten := Escape.encodedLength_le f.toBytes
  unfold Header.maxFrame Header.size Header.maxPayload at hshort
  constructor
  · rw [h.frame]
    unfold Transaction.frameRoom
    omega
  · rw [h.wire]
    unfold Transaction.wireRoom Sync.Header.size
    omega

end Bridge.Roomy

namespace Turn

variable {now : Instant} {s : Scene} {r : Ending} {i : Intake} {header : Header} {o : Outlet}

theorem forwarding_of_yields (h : s.wiring.outbound.Yields s.bridge.timing.write) :
    ∃ o, s.forwarding = (.ok (), o) ∧
      s.wiring.outbound.channel.WritesTo o.channel s.bridge.transaction.frame.filled := by
  obtain ⟨o, hforward⟩ := Outlet.writeWithin_of_yields .outbound _ h
  exact ⟨o, hforward, (Outlet.offersTo_of_writeWithin hforward).writesTo⟩

theorem slaveHeader_ends (hfill : s.intake.fill Header.size = (.ok (), i))
    (hparse : Header.parse i.frame.filled = .ok header)
    (hforward : (s.taking i).forwarding = (.ok (), o)) (hend : SlaveHeaderEnding now s r) :
    (header.command.isWrite = true ∧ 0 < header.followingLength ∧
      r = .ok .continues ((s.taking i).running
        { (s.taking i).bridge.transaction with phase := .slavePayload })) ∨
    (header.command.isWrite = true ∧ header.followingLength = 0 ∧
      r = .ok (.completed .slave) (((s.taking i).handing o).finished .slave)) ∨
    (header.command.isWrite = false ∧
      ∀ deadline, now.after? s.bridge.timing.answer = some deadline →
        r = .ok .continues (((s.taking i).handing o).running
          { (s.taking i).bridge.transaction with
            request := some header, frame := i.frame.reset, deadline := some deadline
            phase := .slaveAwaitingHostAnswer })) := by
  cases hend with
  | unfilled hfill' =>
    rw [hfill] at hfill'
    cases hfill'
  | malformed hfill' hparse' =>
    rw [hfill] at hfill'
    cases hfill'
    rw [hparse] at hparse'
    cases hparse'
  | payloadFollows hfill' hparse' hwrite hfollows =>
    rw [hfill] at hfill'
    cases hfill'
    rw [hparse] at hparse'
    cases hparse'
    exact .inl ⟨hwrite, hfollows, rfl⟩
  | unforwarded hfill' hparse' hwhole hforward' =>
    rw [hfill] at hfill'
    cases hfill'
    rw [hforward] at hforward'
    cases hforward'
  | delivered hfill' hparse' hwrite hwhole hforward' =>
    rw [hfill] at hfill'
    cases hfill'
    rw [hparse] at hparse'
    cases hparse'
    rw [hforward] at hforward'
    cases hforward'
    exact .inr (.inl ⟨hwrite, hwhole, rfl⟩)
  | endless hfill' hparse' hread hforward' hnever =>
    rw [hfill] at hfill'
    cases hfill'
    rw [hparse] at hparse'
    cases hparse'
    refine .inr (.inr ⟨hread, fun deadline hdeadline => ?_⟩)
    rw [hdeadline] at hnever
    cases hnever
  | requested hfill' hparse' hread hforward' hsome =>
    rw [hfill] at hfill'
    cases hfill'
    rw [hparse] at hparse'
    cases hparse'
    rw [hforward] at hforward'
    cases hforward'
    refine .inr (.inr ⟨hread, fun deadline hdeadline => ?_⟩)
    rw [hdeadline] at hsome
    cases hsome
    rfl

theorem slavePayload_ends (hparse : Header.parse s.bridge.transaction.frame.filled = .ok header)
    (hfill : s.intake.fill header.frameLength = (.ok (), i))
    (hforward : (s.taking i).forwarding = (.ok (), o)) (hend : SlavePayloadEnding s r) :
    r = .ok (.completed .slave) (((s.taking i).handing o).finished .slave) := by
  cases hend with
  | malformed hparse' =>
    rw [hparse] at hparse'
    cases hparse'
  | unfilled hparse' hfill' =>
    rw [hparse] at hparse'
    cases hparse'
    rw [hfill] at hfill'
    cases hfill'
  | unforwarded hparse' hfill' hforward' =>
    rw [hparse] at hparse'
    cases hparse'
    rw [hfill] at hfill'
    cases hfill'
    rw [hforward] at hforward'
    cases hforward'
  | delivered hparse' hfill' hforward' =>
    rw [hparse] at hparse'
    cases hparse'
    rw [hfill] at hfill'
    cases hfill'
    rw [hforward] at hforward'
    cases hforward'
    rfl

theorem unfilled_slaveHeader {e : IntakeError} (hfill : s.intake.fill Header.size = (.error e, i))
    (hend : SlaveHeaderEnding now s r) : r = .error e.setback (s.taking i) := by
  cases hend with
  | unfilled hfill' =>
    rw [hfill] at hfill'
    cases hfill'
    rfl
  | malformed hfill' | payloadFollows hfill' | unforwarded hfill' | delivered hfill'
  | endless hfill' | requested hfill' =>
    rw [hfill] at hfill'
    cases hfill'

theorem unfilled_slavePayload {e : IntakeError}
    (hparse : Header.parse s.bridge.transaction.frame.filled = .ok header)
    (hfill : s.intake.fill header.frameLength = (.error e, i)) (hend : SlavePayloadEnding s r) :
    r = .error e.setback (s.taking i) := by
  cases hend with
  | malformed hparse' =>
    rw [hparse] at hparse'
    cases hparse'
  | unfilled hparse' hfill' =>
    rw [hparse] at hparse'
    cases hparse'
    rw [hfill] at hfill'
    cases hfill'
    rfl
  | unforwarded hparse' hfill' | delivered hparse' hfill' =>
    rw [hparse] at hparse'
    cases hparse'
    rw [hfill] at hfill'
    cases hfill'

section

-- The bus brings what is missing of the raw frame up to a target.
variable {target more : Nat} {raw tail : Bytes}
  (hlength : s.bridge.transaction.frame.filled.length + raw.length = target)
  (hrest : s.bridge.transaction.decoder.pending = false)
  (hwaiting : s.wiring.bus.waiting = Escape.encode raw ++ tail)
  (hbrings : Channel.Brings IoError.isInterruption s.wiring.bus.arrivals
    ((Escape.encode raw).length + more))
include hlength hrest hwaiting hbrings

theorem fill_of_bringsFrame (hne : raw ≠ [])
    (hframe : target ≤ s.bridge.transaction.frame.capacity)
    (hwire : raw.length ≤ s.bridge.transaction.wire.capacity) :
    ∃ i, s.intake.fill target = (.ok (), i) ∧
      i.frame.filled = s.bridge.transaction.frame.filled ++ raw ∧
      i.decoder.pending = false ∧ i.bus.waiting = tail ∧
      Channel.Brings IoError.isInterruption i.bus.arrivals more := by
  have hpositive := List.length_pos_iff.2 hne
  have hheld : s.intake.decoder.held = [] := Escape.Decoder.held_eq_nil_iff.2 hrest
  rw [Buffer.length_filled] at hlength
  have hroom := Buffer.length_add_remaining s.bridge.transaction.frame
  have hfits : raw.length ≤ s.intake.frame.remaining := by
    show raw.length ≤ s.bridge.transaction.frame.remaining
    omega
  obtain ⟨i, hfill, hfilled, htail, hmore⟩ :=
    (Intake.fill_of_brings hlength (by rwa [hheld]) (by rwa [hheld])).1 hfits hwire
  obtain ⟨taken, hfrom⟩ := Intake.filled_of_fill hfill
  have hpending : i.decoder.pending = false :=
    hfrom.rest (show s.bridge.transaction.frame.length < target by omega)
  rw [Escape.Decoder.held_eq_nil_iff.2 hpending, List.nil_append] at htail
  exact ⟨i, hfill, hfilled, hpending, htail, hmore⟩

theorem overflow_of_bringsFrame
    (hshort : s.bridge.transaction.frame.capacity < target ∨
      s.bridge.transaction.wire.capacity < raw.length) :
    ∃ e i, s.intake.fill target = (.error (.framing e), i) ∧ e.isOverflow = true := by
  have hheld : s.intake.decoder.held = [] := Escape.Decoder.held_eq_nil_iff.2 hrest
  rw [Buffer.length_filled] at hlength
  have hroom := Buffer.length_add_remaining s.bridge.transaction.frame
  have hnarrow : s.intake.frame.remaining < raw.length ∨ s.intake.wire.capacity < raw.length := by
    show s.bridge.transaction.frame.remaining < _ ∨ s.bridge.transaction.wire.capacity < _
    omega
  exact (Intake.fill_of_brings hlength (by rwa [hheld]) (by rwa [hheld])).2 hnarrow

end

end Turn

/-! ## The slave's frame -/

namespace Bridge

variable {b : Bridge} {e : Encounter} {f : Frame} {rest : Bytes}

structure ReadsHeader (b : Bridge) (e : Encounter) (f : Frame) (rest : Bytes) (level : Bool)
    (line : Line) (i : Intake) : Prop where
  sample : e.wiring.line.sample = (.ok level, line)
  fill : (e.scene b level line).intake.fill Header.size = (.ok (), i)
  filled : i.frame.filled = f.header.toBytes
  waiting : i.bus.waiting = Escape.encode f.payload ++ rest
  brings : Channel.Brings IoError.isInterruption i.bus.arrivals (Escape.encode f.payload).length

theorem exists_readsHeader (h : b.transaction.Coherent) (hroom : b.transaction.FitsHeader)
    (hphase : b.transaction.phase = .slaveHeader) (hline : e.wiring.line.failure = none)
    (hbus : e.BringsFrame f.toBytes rest) :
    ∃ level line i, b.ReadsHeader e f rest level line i := by
  obtain ⟨level, line, hsample⟩ := Line.sample_of_works hline
  obtain ⟨hempty, hrest⟩ : b.transaction.Holds .slaveHeader := hphase ▸ h.holds
  obtain ⟨hwaiting, hbrings⟩ := hbus.header
  have hlength : b.transaction.frame.filled.length + f.header.toBytes.length = Header.size := by
    rw [hempty]
    rfl
  obtain ⟨i, hfill, hfilled, -, htail, hmore⟩ := Turn.fill_of_bringsFrame
    (s := e.scene b level line) hlength hrest hwaiting hbrings (by simp [Header.toBytes])
    hroom.frame hroom.wire
  have hnothing : (e.scene b level line).bridge.transaction.frame.filled = [] := hempty
  rw [hnothing, List.nil_append] at hfilled
  exact ⟨level, line, i, hsample, hfill, hfilled, htail, hmore⟩

theorem ReadsHeader.whole {level : Bool} {line : Line} {i : Intake}
    (hread : b.ReadsHeader e f rest level line i) (hf : f.Valid)
    (hwhole : f.header.followingLength = 0) :
    i.frame.filled = f.toBytes ∧ i.bus.waiting = rest := by
  have hnone := Frame.payload_eq_nil hf hwhole
  have hwaiting := hread.waiting
  rw [hnone, Escape.encode_nil, List.nil_append] at hwaiting
  refine ⟨?_, hwaiting⟩
  rw [hread.filled, Frame.toBytes, hnone, List.append_nil]

/-- How a step ends that is to hand a frame of the slave to the host: with the whole frame, or
for lack of room with nothing at all. -/
structure Relays (b : Bridge) (f : Frame) (rest : Bytes) (p : Pass) : Prop where
  fits : b.transaction.FitsHost f.toBytes →
    p.outcome = .completed .slave ∧ p.toHost = f.toBytes ∧ p.left.bus.waiting = rest
  short : ¬ b.transaction.FitsHost f.toBytes → p.Overflows ∧ p.toHost = []

theorem Relays.of_keeps {b' : Bridge} {p : Pass} (hkeeps : b.Keeps b')
    (h : b'.Relays f rest p) : b.Relays f rest p := by
  have hsame : b'.transaction.FitsHost f.toBytes ↔ b.transaction.FitsHost f.toBytes := by
    constructor <;> rintro ⟨hframe, hwire⟩
    · exact ⟨hkeeps.frame ▸ hframe, hkeeps.wire ▸ hwire⟩
    · exact ⟨hkeeps.frame.symm ▸ hframe, hkeeps.wire.symm ▸ hwire⟩
  exact ⟨fun hfits => h.fits (hsame.2 hfits), fun hshort => h.short (mt hsame.1 hshort)⟩

theorem overflow_of_unfilled {level : Bool} {line : Line} {i : Intake} {error : FramingError}
    {phase : Phase} (hsample : e.wiring.line.sample = (.ok level, line))
    (hphase : b.transaction.phase = phase) (hoverflow : error.isOverflow = true)
    (hturn : ∀ {r}, Turn.EndingOf e.readiness e.now (e.scene b level line) phase r →
      r = .error (.transaction (.framing error)) ((e.scene b level line).taking i)) :
    ∃ p, b.pass? e = some p ∧ p.Overflows ∧ p.toHost = [] := by
  obtain ⟨r, hend, -, hgiven⟩ := exists_turn_of_sample hsample hphase
  refine ⟨_, hgiven (hturn hend), ⟨⟨error, hoverflow, rfl⟩, rfl, rfl, rfl⟩, ?_⟩
  exact congrArg (List.flatMap Call.delivered) (Channel.callsSince_self _)

theorem refuse_header (h : b.transaction.Coherent) (hshort : ¬ b.transaction.FitsHeader)
    (hphase : b.transaction.phase = .slaveHeader) (hline : e.wiring.line.failure = none)
    (hbus : e.BringsFrame f.toBytes rest) :
    ∃ p, b.pass? e = some p ∧ p.Overflows ∧ p.toHost = [] := by
  obtain ⟨level, line, hsample⟩ := Line.sample_of_works hline
  obtain ⟨hempty, hrest⟩ : b.transaction.Holds .slaveHeader := hphase ▸ h.holds
  obtain ⟨hwaiting, hbrings⟩ := hbus.header
  have hlength : b.transaction.frame.filled.length + f.header.toBytes.length = Header.size := by
    rw [hempty]
    rfl
  have hnarrow : b.transaction.frame.capacity < Header.size ∨
      b.transaction.wire.capacity < f.header.toBytes.length := by
    rcases Nat.lt_or_ge b.transaction.frame.capacity Header.size with hless | hframe
    · exact .inl hless
    · exact .inr (Nat.lt_of_not_le fun hwire => hshort ⟨hframe, hwire⟩)
  obtain ⟨error, i, hfill, hoverflow⟩ := Turn.overflow_of_bringsFrame
    (s := e.scene b level line) hlength hrest hwaiting hbrings hnarrow
  exact overflow_of_unfilled hsample hphase hoverflow (Turn.unfilled_slaveHeader hfill)

theorem payload_missing {t : Transaction} (h : t.Coherent) (hphase : t.phase = .slavePayload)
    (hf : f.Valid) (hread : t.frame.filled = f.header.toBytes) :
    t.decoder.pending = false ∧ Header.parse t.frame.filled = .ok f.header ∧ f.payload ≠ [] ∧
      t.frame.filled.length + f.payload.length = f.header.frameLength := by
  obtain ⟨-, hrest, header, hparse, hwrite, hpayload⟩ : t.Holds .slavePayload := hphase ▸ h.holds
  have hheader := Frame.parse_header hf
  rw [← hread, hparse] at hheader
  obtain rfl := Except.ok.inj hheader
  refine ⟨hrest, hparse, ?_, ?_⟩
  · rw [← List.length_pos_iff, hf.payload, Header.followingLength_of_isWrite hwrite]
    exact hpayload
  · rw [hread, hf.payload]
    rfl

theorem relay_payload (h : b.transaction.Coherent) (hheader : b.transaction.FitsHeader)
    (hphase : b.transaction.phase = .slavePayload) (hf : f.Valid)
    (hread : b.transaction.frame.filled = f.header.toBytes)
    (hbenign : e.Benign b.timing) (hbus : e.BringsFrame f.payload rest) :
    ∃ p, b.pass? e = some p ∧ b.Relays f rest p := by
  obtain ⟨level, line, hsample⟩ := Line.sample_of_works hbenign.line
  obtain ⟨hrest, hparse, hlong, hlength⟩ := payload_missing h hphase hf hread
  have hwide := hheader.wire
  have hbrings : Channel.Brings IoError.isInterruption e.wiring.bus.arrivals
      ((Escape.encode f.payload).length + 0) := hbus.brings
  have hwhole := Frame.length_toBytes_of_valid hf
  have hsplit : f.toBytes.length = Header.size + f.payload.length := by
    rw [hwhole, ← hlength, hread]
    rfl
  by_cases hroom : f.header.frameLength ≤ b.transaction.frame.capacity ∧
      f.payload.length ≤ b.transaction.wire.capacity
  · obtain ⟨i, hfill, hfilled, -, htail, -⟩ := Turn.fill_of_bringsFrame
      (s := e.scene b level line) hlength hrest hbus.waiting hbrings hlong hroom.1 hroom.2
    have hframe : i.frame.filled = f.toBytes := by
      rw [hfilled]
      show b.transaction.frame.filled ++ f.payload = _
      rw [hread]
      rfl
    obtain ⟨o, hforward, hwrites⟩ := Turn.forwarding_of_yields
      (s := (e.scene b level line).taking i) hbenign.outbound
    obtain ⟨r, hend, hpass⟩ := exists_ending_of_sample hsample hphase
    have hturn := Turn.slavePayload_ends (s := e.scene b level line) hparse hfill hforward hend
    refine ⟨_, hpass hturn, fun _ => ⟨rfl, ?_, htail⟩, fun hshort => absurd ?_ hshort⟩
    · rw [← hframe]
      exact hwrites.delivered_callsSince
    · exact ⟨by omega, by omega⟩
  · obtain ⟨error, i, hfill, hoverflow⟩ := Turn.overflow_of_bringsFrame
      (s := e.scene b level line) hlength hrest hbus.waiting hbrings
      (show b.transaction.frame.capacity < _ ∨ b.transaction.wire.capacity < _ by omega)
    obtain ⟨p, hpass, hgiven⟩ := overflow_of_unfilled hsample hphase hoverflow
      (Turn.unfilled_slavePayload hparse hfill)
    refine ⟨p, hpass, fun hfits => absurd ⟨?_, ?_⟩ hroom, fun _ => hgiven⟩
    · rw [← hwhole]
      exact hfits.frame
    · have hwire := hfits.wire
      omega

theorem relay_write (h : b.transaction.Coherent) (hphase : b.transaction.phase = .slaveHeader)
    (hf : f.Valid) (hwrite : f.header.command.isWrite = true) (hbenign : e.Benign b.timing)
    (hbus : e.BringsFrame f.toBytes rest) :
    ∃ p, b.pass? e = some p ∧
      (b.Relays f rest p ∨
        p.outcome = .continues ∧ p.toHost = [] ∧
          ∀ e' : Encounter, e'.Benign b.timing → e'.wiring.bus = p.left.bus →
            ∃ p', p.after.pass? e' = some p' ∧ b.Relays f rest p') := by
  by_cases hroom : b.transaction.FitsHeader
  case neg =>
    obtain ⟨p, hpass, hgiven⟩ := refuse_header h hroom hphase hbenign.line hbus
    exact ⟨p, hpass, .inl ⟨fun hfits => absurd hfits.header hroom, fun _ => hgiven⟩⟩
  obtain ⟨level, line, i, hheader⟩ := exists_readsHeader h hroom hphase hbenign.line hbus
  have hparse := Frame.parse_header hf
  rw [← hheader.filled] at hparse
  obtain ⟨o, hforward, hwrites⟩ := Turn.forwarding_of_yields
    (s := (e.scene b level line).taking i) hbenign.outbound
  obtain ⟨r, hend, hpass⟩ := exists_ending_of_sample hheader.sample hphase
  rcases Turn.slaveHeader_ends hheader.fill hparse hforward hend with
    ⟨-, hfollows, hturn⟩ | ⟨-, hwhole, hturn⟩ | ⟨hread, -⟩
  · refine ⟨_, hpass hturn, .inr ⟨rfl, ?_, ?_⟩⟩
    · exact congrArg (List.flatMap Call.delivered) (Channel.callsSince_self _)
    · intro e' hbenign' hsame
      have hbus' : e'.BringsFrame f.payload rest := by
        refine ⟨?_, ?_⟩ <;> rw [hsame]
        · exact hheader.waiting
        · exact hheader.brings
      have hkeeps := keeps_of_pass? (hpass hturn)
      have hroom' := Transaction.FitsHeader.mk (hkeeps.frame.symm ▸ hroom.frame)
        (hkeeps.wire.symm ▸ hroom.wire)
      obtain ⟨p', hpass', hrelays⟩ := relay_payload (coherent_of_pass? h (hpass hturn)).1
        hroom' rfl hf hheader.filled hbenign' hbus'
      exact ⟨p', hpass', hrelays.of_keeps hkeeps⟩
  · obtain ⟨hfilled, hrest⟩ := hheader.whole hf hwhole
    refine ⟨_, hpass hturn, .inl ⟨fun _ => ⟨rfl, ?_, hrest⟩, fun hshort => absurd ?_ hshort⟩⟩
    · rw [← hfilled]
      exact hwrites.delivered_callsSince
    · refine hroom.host ?_
      rw [← hfilled, hheader.filled]
      rfl
  · rw [hwrite] at hread
    cases hread

theorem relay_read {deadline : Instant} (h : b.transaction.Coherent)
    (hroom : b.transaction.FitsHeader) (hphase : b.transaction.phase = .slaveHeader) (hf : f.Valid)
    (hread : f.header.command.isWrite = false) (hbenign : e.Benign b.timing)
    (hbus : e.BringsFrame f.toBytes rest)
    (hdeadline : e.now.after? b.timing.answer = some deadline) :
    ∃ p, b.pass? e = some p ∧ p.outcome = .continues ∧ p.toHost = f.toBytes ∧
      f.toBytes.length = Header.size ∧ p.left.bus.waiting = rest ∧
      p.after.transaction.phase = .slaveAwaitingHostAnswer ∧
      p.after.transaction.frame.filled = [] ∧
      p.after.transaction.deadline = some deadline := by
  obtain ⟨level, line, i, hheader⟩ := exists_readsHeader h hroom hphase hbenign.line hbus
  have hparse := Frame.parse_header hf
  rw [← hheader.filled] at hparse
  obtain ⟨hfilled, hrest⟩ := hheader.whole hf (Header.followingLength_of_not_isWrite hread)
  obtain ⟨o, hforward, hwrites⟩ := Turn.forwarding_of_yields
    (s := (e.scene b level line).taking i) hbenign.outbound
  obtain ⟨r, hend, hpass⟩ := exists_ending_of_sample hheader.sample hphase
  rcases Turn.slaveHeader_ends hheader.fill hparse hforward hend with
    ⟨hwrite, -⟩ | ⟨hwrite, -⟩ | ⟨-, hturn⟩
  · rw [hread] at hwrite
    cases hwrite
  · rw [hread] at hwrite
    cases hwrite
  · have hlength : f.toBytes.length = Header.size := by
      rw [← hfilled, hheader.filled]
      rfl
    refine ⟨_, hpass (hturn deadline hdeadline), rfl, ?_, hlength, hrest, rfl, rfl, rfl⟩
    rw [← hfilled]
    exact hwrites.delivered_callsSince

end Bridge

/-! ## The host's answer -/

theorem Transaction.expects_of_awaiting {t : Transaction} (h : t.Coherent)
    (hphase : t.phase = .slaveAwaitingHostAnswer) (hempty : t.frame.filled = []) :
    t.Expects .slave :=
  ⟨h, by rw [hphase]; rfl, by rw [hphase]; rfl, hempty⟩

namespace Bridge

variable {b : Bridge} {e : Encounter}

theorem headerFor_of_counts {ps : List Pass} {raw : Bytes} (origin : Sync.Origin)
    (h : b.Counts ps) (hlength : raw.length < 65536) :
    (b.serials.headerFor origin raw).serial = origin.serialAt (Pass.sentBy origin ps) ∧
      (b.serials.headerFor origin raw).origin? = some origin ∧
      (b.serials.headerFor origin raw).length.toNat = raw.length := by
  have hserial : (b.serials.headerFor origin raw).serial =
      origin.serialAt (Pass.sentBy origin ps) := h origin
  refine ⟨hserial, ?_, ?_⟩
  · rw [Sync.Header.origin?, hserial]
    exact Sync.Origin.ofSerial?_eq_some_iff.2 (Sync.Origin.owns_serialAt _ _)
  · show (UInt16.ofNat raw.length).toNat = raw.length
    rw [UInt16.toNat_ofNat']
    omega

/-- The transactions of the slave, from any run that has just begun one, on channels that do
not fail.  A write reaches the host whole in two steps at most.  A read reaches it in one step;
then after whatever steps before the deadline, if they are given the host's answer, it is sent to
the slave whole, by one of them or by the step behind them, at any time.  What is behind the
slave's frame stays on the bus, and what is behind the answer stays in the host's channel. -/
theorem slaveDelivery_of_start {b₀ : Bridge} {timing : Timing} {wiring : Wiring}
    {ps : List Pass} {f : Frame} {rest : Bytes}
    (hstart : (start (.ofRooms Transaction.frameRoom Transaction.wireRoom) timing wiring).1 =
      .ok b₀) (hrun : b₀.Run ps b) (hphase : b.transaction.phase = .slaveHeader)
    (hf : f.Valid) (hbenign : e.Benign b.timing) (hbus : e.BringsFrame f.toBytes rest) :
    (f.header.command.isWrite = true →
      ∃ p, b.pass? e = some p ∧
        ((p.outcome = .completed .slave ∧ p.toHost = f.toBytes ∧ p.left.bus.waiting = rest) ∨
          p.outcome = .continues ∧ p.toHost = [] ∧
            ∀ e' : Encounter, e'.Benign b.timing → e'.wiring.bus = p.left.bus →
              ∃ p', p.after.pass? e' = some p' ∧ p'.outcome = .completed .slave ∧
                p'.toHost = f.toBytes ∧ p'.left.bus.waiting = rest)) ∧
    (f.header.command.isRead = true →
      ∀ deadline, e.now.after? b.timing.answer = some deadline →
        ∃ p, b.pass? e = some p ∧ p.outcome = .continues ∧ p.toHost = f.toBytes ∧
          f.toBytes.length = Header.size ∧ p.left.bus.waiting = rest ∧
          p.after.transaction.phase = .slaveAwaitingHostAnswer ∧
          ∀ {a : Frame} {c : Channel} {more : Bytes} {es late : List Encounter} {e' : Encounter},
            a.Valid → c.waiting = a.toBytes ++ more →
            Channel.Brings IoError.isTransient c.arrivals a.toBytes.length →
            (∀ e ∈ es, e.Benign b.timing ∧ deadline.reachedBy e.now = false) →
            e'.Benign b.timing → p.after.Supplied a.toBytes c es →
            ∃ qs last header, p.after.untilDone c (es ++ e' :: late) = some (qs ++ [last]) ∧
              last.outcome = .completed .slave ∧
              header.serial = Sync.Origin.slave.serialAt (Pass.sentBy .slave ps) ∧
              header.origin? = some .slave ∧ header.length.toNat = a.toBytes.length ∧
              (qs ++ [last]).flatMap Pass.toBus = Sync.encode header a.toBytes ∧
              (qs ++ [last]).flatMap Pass.fromHost = a.toBytes ∧
              last.left.inbound.waiting = more) := by
  have hfresh := fresh_of_start hstart
  have hroomy := hrun.roomy hfresh
  have hroom := hroomy.fitsHost hf
  constructor
  · intro hwrite
    obtain ⟨p, hpass, hrelays⟩ := relay_write hroomy.coherent hphase hf hwrite hbenign hbus
    refine ⟨p, hpass, hrelays.imp (fun h => h.fits hroom) ?_⟩
    rintro ⟨hgoesOn, hsilent, hnext⟩
    refine ⟨hgoesOn, hsilent, fun e' hbenign' hsame => ?_⟩
    obtain ⟨p', hpass', hrelays⟩ := hnext e' hbenign' hsame
    exact ⟨p', hpass', hrelays.fits hroom⟩
  intro hread deadline hdeadline
  have hnotWrite : f.header.command.isWrite = false := by
    simpa [Command.isRead] using hread
  obtain ⟨p, hpass, houtcome, htoHost, hlength, hleft, hawaiting, hempty, hset⟩ :=
    relay_read hroomy.coherent hroom.header hphase hf hnotWrite hbenign hbus hdeadline
  refine ⟨p, hpass, houtcome, htoHost, hlength, hleft, hawaiting, ?_⟩
  intro a c more es late e' ha hwaiting hbrings hes hsends hsupplied
  have hafter := roomy_of_pass? hroomy hpass
  have hquiet : ∀ e ∈ es, e.wiring.line.failure = none ∧
      e.wiring.bus.Yields IoError.isTransient ∧
      ∀ d ∈ p.after.transaction.deadline, d.reachedBy e.now = false := by
    intro e he
    obtain ⟨hsteady, hearly⟩ := hes e he
    refine ⟨hsteady.line, hsteady.bus, fun d hd => ?_⟩
    rw [hset] at hd
    obtain rfl := Option.some.inj hd
    exact hearly
  obtain ⟨qs, last, hdone, hdelivers⟩ := untilDone_of_expects
    (Transaction.expects_of_awaiting hafter.coherent hawaiting hempty) ha (by simp) hwaiting
    hbrings hquiet hsends.line hsends.bus hsupplied
  obtain ⟨hcompleted, htoBus, hmore⟩ := hdelivers.fits (hafter.fitsBus ha)
  have hbytes := waiting_of_untilDone hdone List.getLast?_concat
  obtain ⟨-, -, hserials⟩ := silent_of_pass? (by rw [hphase]; rfl) hpass
  rw [hserials] at htoBus
  have hshort := Frame.length_le_of_parse (Frame.parse_eq_ok_iff.2 ⟨ha, rfl⟩)
  unfold Header.maxFrame Header.size Header.maxPayload at hshort
  have hless : a.toBytes.length < 65536 := by omega
  obtain ⟨hserial, horigin, hsize⟩ := headerFor_of_counts .slave (hrun.counts hfresh) hless
  rw [hwaiting, hmore] at hbytes
  exact ⟨qs, last, _, hdone, hcompleted, hserial, horigin, hsize, htoBus,
    (List.append_cancel_right hbytes).symm, hmore⟩

/-- A write whose escape is cut in two, and a read whose answer comes in pieces and is sent when
its deadline is reached; other bytes are behind each of them. -/
theorem slaveDelivery_of_start_of_pieces :
    ∃ p₀, (atRest (.ofRooms Transaction.frameRoom Transaction.wireRoom)).pass?
        { wiring.line.level := true } = some p₀ ∧
      (∃ p, p₀.after.pass? (.ofBus [.data [0, 5, 2], .data [0, 0x27],
          .failed (.ofSystem .interrupted 4 "Interrupted system call"), .data [1],
          .data [9, 0xAA]]) = some p ∧
        (p.outcome = .completed .slave ∧ p.toHost = [0, 5, 2, 0, 0x27, 9] ∧
            p.left.bus.waiting = [0xAA] ∨
          p.outcome = .continues ∧ p.toHost = [] ∧
            ∃ p', p.after.pass? { wiring.bus := p.left.bus } = some p' ∧
              p'.outcome = .completed .slave ∧ p'.toHost = [0, 5, 2, 0, 0x27, 9] ∧
              p'.left.bus.waiting = [0xAA])) ∧
      ∃ p qs last, p₀.after.pass? (.ofBus [.data [1, 5, 1], .data [0, 0xAA]]) =
          some p ∧ p.toHost = [1, 5, 1, 0] ∧ p.left.bus.waiting = [0xAA] ∧
        p.after.untilDone { arrivals := [.data [0], .failed .blocked, .data [5, 1, 0],
          .data [0x27, 0xBB]] } ({ wiring := {} } :: List.replicate 4 (.ofHost []) ++
            [{ wiring := {}, now := ⟨1_000_000_000, by decide⟩ }]) =
          some (qs ++ [last]) ∧ last.outcome = .completed .slave ∧
        (qs ++ [last]).flatMap Pass.fromHost = [0, 5, 1, 0, 0x27] ∧
        last.left.inbound.waiting = [0xBB] := by
  have hstart : ((atRest (.ofRooms Transaction.frameRoom Transaction.wireRoom)).pass?
      { wiring.line.level := true }).map (fun p => p.after.transaction.phase) =
      some .slaveHeader := by
    decide +kernel
  obtain ⟨p₀, hpass₀, hphase⟩ := Option.map_eq_some_iff.1 hstart
  have hrun := Run.start.step hpass₀
  have htiming : p₀.after.timing = {} := hrun.keeps.timing
  have hyields : ∀ items, Channel.Yields IoError.isTransient { arrivals := items } :=
    fun items => ⟨by simp, rfl, by simp⟩
  have hbenign : ∀ e : Encounter, e.wiring.line = {} → e.wiring.outbound = {} →
      e.wiring.bus.Yields IoError.isTransient → e.Benign p₀.after.timing := by
    intro e hline houtbound hbus
    refine ⟨by rw [hline], ?_, hbus⟩
    rw [houtbound, htiming]
    exact ⟨⟨by simp, rfl, by simp⟩, ⟨⟨1_000_000_000, by decide⟩, by decide, by simp⟩, rfl⟩
  have hbegun : (start (.ofRooms Transaction.frameRoom Transaction.wireRoom) {} {}).1 =
      .ok (atRest (.ofRooms Transaction.frameRoom Transaction.wireRoom)) := rfl
  have hdelivery (items : List Arrival) (f : Frame) (hf : f.Valid)
      (hbus : (Encounter.ofBus items).BringsFrame f.toBytes [0xAA]) :=
    slaveDelivery_of_start hbegun hrun hphase hf
      (hbenign (.ofBus items) rfl rfl (hyields items)) hbus
  refine ⟨p₀, hpass₀, ?_, ?_⟩
  · obtain ⟨p, hpass, hdone⟩ := (hdelivery [.data [0, 5, 2], .data [0, 0x27],
      .failed (.ofSystem .interrupted 4 "Interrupted system call"), .data [1], .data [9, 0xAA]]
      ⟨⟨.writeRegister, 5, 2⟩, [0x27, 9]⟩ ⟨by decide, rfl⟩ ⟨rfl, by decide⟩).1 rfl
    refine ⟨p, hpass, hdone.imp_right ?_⟩
    rintro ⟨hgoesOn, hsilent, hnext⟩
    obtain ⟨taken, hreads⟩ := readsTo_bus_of_pass? (by rw [hphase]; rfl) hpass
    exact ⟨hgoesOn, hsilent, hnext _ (hbenign _ rfl rfl ((hyields _).of_readsTo hreads)) rfl⟩
  · obtain ⟨p, hpass, -, htoHost, -, hrest, -, hanswer⟩ :=
      (hdelivery [.data [1, 5, 1], .data [0, 0xAA]] ⟨⟨.readRegister, 5, 1⟩, []⟩
        ⟨by decide, rfl⟩ ⟨rfl, by decide⟩).2 rfl ⟨1_000_000_000, by decide⟩
        (by rw [htiming]; decide)
    have hready : ∀ e ∈ ({ wiring := {} } : Encounter) :: List.replicate 4 (.ofHost []),
        e.Benign p₀.after.timing ∧ Instant.reachedBy ⟨1_000_000_000, by decide⟩ e.now = false := by
      intro e he
      rcases List.mem_cons.1 he with rfl | he
      · exact ⟨hbenign _ rfl rfl (hyields _), by decide⟩
      · rw [(List.mem_replicate.1 he).2]
        exact ⟨hbenign _ rfl rfl (hyields _), by decide⟩
    have hread : ((atRest (.ofRooms Transaction.frameRoom Transaction.wireRoom)).pass?
        { wiring.line.level := true }).map (fun p₀ =>
          (p₀.after.pass? (.ofBus [.data [1, 5, 1], .data [0, 0xAA]])).map fun p =>
            p.after.hearing { arrivals := [.data [0], .failed .blocked, .data [5, 1, 0],
              .data [0x27, 0xBB]] } ({ wiring := {} } :: List.replicate 4 (.ofHost []))) =
        some (some [0, 5, 1, 0, 0x27]) := by
      decide +kernel
    rw [hpass₀, Option.map_some, hpass, Option.map_some] at hread
    have hheardAll := Option.some.inj (Option.some.inj hread)
    obtain ⟨qs, last, -, hdone, hcompleted, -, -, -, -, hheard, hmore⟩ :=
      @hanswer ⟨⟨.writeRegister, 5, 1⟩, [0x27]⟩
        { arrivals := [.data [0], .failed .blocked, .data [5, 1, 0], .data [0x27, 0xBB]] }
        [0xBB] _ [] { wiring := {}, now := ⟨1_000_000_000, by decide⟩ } ⟨by decide, rfl⟩ rfl
        (by decide) hready (hbenign _ rfl rfl (hyields _))
        (.inl (hheardAll ▸ List.prefix_append _ []))
    exact ⟨p, qs, last, hpass, htoHost, hrest, hdone, hcompleted, hheard, hmore⟩

end Bridge

end SpiBridge
