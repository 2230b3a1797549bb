import SpiBridge.Proofs.Hearing
/-!
# Frame boundaries in the host's channel

Nothing in the channel from the host marks where a frame begins, so the bridge must
know it from having read every frame to its end.  The one thing that makes it forget
is an answer that is given up when a part of it was read: the rest of that answer is
then taken for the next command.  Main statements: as long as this does not happen,
what the bridge has read always ends at the end of a frame, or in the frame that it is
reading; and a run in which it happens.
-/

namespace SpiBridge

open Command (Frame)

namespace Pass

/-- The part that was read of an answer that a step gives up for lack of time. -/
def lost (p : Pass) : Bytes :=
  match p.outcome with
  | .aborted (.timeout _) => p.before.transaction.taken ++ p.fromHost
  | _ => []

variable {frames : List Frame} {ps : List Pass} {p : Pass} {b : Bridge}

/-- The bytes read from the host are the first frames of a stream and what is taken of the next
one, and every frame that was sent is a frame of the stream. -/
structure Aligned (frames : List Frame) (ps : List Pass) (b : Bridge) (k : Nat) : Prop where
  count : k ≤ frames.length
  heard : ps.flatMap fromHost = (frames.take k).flatMap Frame.toBytes ++ b.transaction.taken
  sent : ∀ p ∈ ps, p.sent? ≠ none → ∃ f ∈ frames, p.raw = f.toBytes

namespace Aligned

variable {k : Nat}

theorem prefix_of_stream (h : Aligned frames ps b k)
    (hstream : (ps ++ [p]).flatMap fromHost <+: frames.flatMap Frame.toBytes) :
    b.transaction.taken ++ p.fromHost <+: (frames.drop k).flatMap Frame.toBytes := by
  rw [List.flatMap_append, List.flatMap_singleton, h.heard, List.append_assoc] at hstream
  exact Frame.prefix_drop_of_stream hstream

theorem append (h : Aligned frames ps b k) (more : List Frame) :
    Aligned (frames ++ more) ps b k := by
  refine ⟨?_, ?_, ?_⟩
  · rw [List.length_append]
    exact Nat.le_add_right_of_le h.count
  · rw [List.take_append_of_le_length h.count]
    exact h.heard
  · intro p hp hne
    obtain ⟨f, hf, hraw⟩ := h.sent p hp hne
    exact ⟨f, List.mem_append_left _ hf, hraw⟩

theorem gathers (h : Aligned frames ps p.before k) (hsent : p.sent? = none)
    (htaken : p.after.transaction.taken = p.before.transaction.taken ++ p.fromHost) :
    Aligned frames (ps ++ [p]) p.after k := by
  refine ⟨h.count, ?_, ?_⟩
  · rw [List.flatMap_append, List.flatMap_singleton, h.heard, htaken, List.append_assoc]
  · intro q hq hne
    rcases List.mem_append.1 hq with hq | hq
    · exact h.sent q hq hne
    · rw [List.mem_singleton.1 hq] at hne
      exact absurd hsent hne

theorem completes {f : Frame} (h : Aligned frames ps p.before k) (hvalid : ∀ f ∈ frames, f.Valid)
    (hpre : p.before.transaction.taken ++ p.fromHost <+: (frames.drop k).flatMap Frame.toBytes)
    (hparse : Frame.parse (p.before.transaction.taken ++ p.fromHost) = .ok f)
    (hidle : p.after.transaction.phase = .idle)
    (hraw : p.sent? ≠ none → p.raw = p.before.transaction.taken ++ p.fromHost) :
    frames[k]? = some f ∧ Aligned frames (ps ++ [p]) p.after (k + 1) := by
  obtain ⟨hat, htake⟩ := Frame.take_succ_of_stream hvalid hpre hparse
  obtain ⟨hless, -⟩ := List.getElem?_eq_some_iff.1 hat
  refine ⟨hat, hless, ?_, ?_⟩
  · rw [List.flatMap_append, List.flatMap_singleton, h.heard, htake,
      Transaction.taken_of_idle hidle, List.append_nil, List.append_assoc]
  · intro q hq hne
    rcases List.mem_append.1 hq with hq | hq
    · exact h.sent q hq hne
    · rw [List.mem_singleton.1 hq] at hne ⊢
      refine ⟨f, List.mem_of_getElem? hat, ?_⟩
      rw [hraw hne, (Frame.parse_eq_ok_iff.1 hparse).2]

theorem sends {origin : Sync.Origin} (h : Aligned frames ps p.before k)
    (hvalid : ∀ f ∈ frames, f.Valid) (hroomy : p.before.Roomy)
    (hpre : p.before.transaction.taken ++ p.fromHost <+: (frames.drop k).flatMap Frame.toBytes)
    (hsender : p.before.transaction.phase.sender? = some origin) (hheard : p.fromHost = [])
    (hidle : p.after.transaction.phase = .idle) :
    ∃ f, frames[k]? = some f ∧ p.raw = f.toBytes ∧
      Aligned frames (ps ++ [p]) p.after (k + 1) := by
  obtain ⟨-, f, hparse⟩ := Bridge.sendable_of_coherent hroomy.coherent hroomy.wire hsender
  have htaken := Transaction.taken_of_holdsHost (Phase.holdsHost_of_sender? hsender)
  have hraw : p.raw = p.before.transaction.taken ++ p.fromHost := by
    rw [hheard, List.append_nil, htaken]
    rfl
  have hparse' : Frame.parse (p.before.transaction.taken ++ p.fromHost) = .ok f := by
    rw [hheard, List.append_nil, htaken, hparse]
  obtain ⟨hat, haligned⟩ := h.completes hvalid hpre hparse' hidle fun _ => hraw
  exact ⟨f, hat, hraw.trans (Frame.parse_eq_ok_iff.1 hparse').2.symm, haligned⟩

theorem lapses {limit : Duration} (h : Aligned frames ps p.before k)
    (hphase : p.before.transaction.phase = .slaveAwaitingHostAnswer)
    (houtcome : p.outcome = .aborted (.timeout limit))
    (hidle : p.after.transaction.phase = .idle) (hlost : p.lost = []) :
    Aligned frames (ps ++ [p]) p.after k := by
  simp only [lost, houtcome] at hlost
  refine h.gathers (sent?_eq_none (by rw [hphase]; rfl)) ?_
  rw [Transaction.taken_of_idle hidle, hlost]

end Aligned

end Pass

namespace Bridge

variable {b b' : Bridge} {ps : List Pass} {p : Pass} {frames : List Frame}

theorem takes_of_aligned {k : Nat} (h : Pass.Aligned frames ps p.before k)
    (hvalid : ∀ f ∈ frames, f.Valid) (hroomy : p.before.Roomy)
    (hstream : (ps ++ [p]).flatMap Pass.fromHost <+: frames.flatMap Frame.toBytes)
    (hpass : p.before.pass? p.met = some p) :
    p.before.transaction.taken ++ p.fromHost <+: (frames.drop k).flatMap Frame.toBytes ∧
      p.Takes := by
  have hpre := h.prefix_of_stream hstream
  have hlegible := Frame.legible_of_stream (fun f hf => hvalid f (List.mem_of_mem_drop hf)) hpre
  exact ⟨hpre, takes_of_pass? hroomy (fun _ => hlegible) hpass⟩

theorem Run.aligned (hrun : b.Run ps b') (h : b.Fresh) (hvalid : ∀ f ∈ frames, f.Valid)
    (hstream : ps.flatMap Pass.fromHost <+: frames.flatMap Frame.toBytes)
    (hlossless : ∀ p ∈ ps, p.lost = []) : ∃ k, Pass.Aligned frames ps b' k := by
  induction hrun with
  | start =>
    refine ⟨0, Nat.zero_le _, ?_, by simp⟩
    rw [Transaction.taken_of_idle h.phase]
    rfl
  | @step ps c e p hrun hpass ih =>
    have hfront : ps.flatMap Pass.fromHost <+: frames.flatMap Frame.toBytes := by
      rw [List.flatMap_append] at hstream
      exact (List.prefix_append _ _).trans hstream
    obtain ⟨k, haligned⟩ := ih hfront fun q hq => hlossless q (List.mem_append_left _ hq)
    have hroomy := hrun.roomy h
    obtain ⟨rfl, rfl⟩ := before_of_pass? hpass
    obtain ⟨hpre, htakes⟩ := takes_of_aligned haligned hvalid hroomy hstream hpass
    cases htakes with
    | sends hsender houtcome hheard hidle =>
      obtain ⟨f, -, -, hnext⟩ := haligned.sends hvalid hroomy hpre hsender hheard hidle
      exact ⟨k + 1, hnext⟩
    | gathers hsilent hkept htaken =>
      exact ⟨k, haligned.gathers (Pass.sent?_eq_none hsilent) htaken⟩
    | refuses hphase houtcome hparse hread hidle =>
      have hsent : p.sent? = none := Pass.sent?_eq_none (by rw [hphase]; rfl)
      exact ⟨k + 1, (haligned.completes hvalid hpre hparse hidle (absurd hsent)).2⟩
    | lapses hphase houtcome hidle =>
      exact ⟨k, haligned.lapses hphase houtcome hidle (hlossless p (by simp))⟩

/-- Whatever a bridge meets after its start, as long as the host writes valid frames and no
answer is given up with a part of it read: in every idle bridge the bytes read from the host end
at the end of a frame, what is taken in any other phase begins there, and nothing is sent but
whole frames that the host wrote. -/
theorem aligned_of_start {timing : Timing} {wiring : Wiring}
    (hstart : (start (.ofRooms Transaction.frameRoom Transaction.wireRoom) timing wiring).1 =
      .ok b) (hrun : b.Run ps b') (hvalid : ∀ f ∈ frames, f.Valid)
    (hstream : ps.flatMap Pass.fromHost <+: frames.flatMap Frame.toBytes)
    (hlossless : ∀ p ∈ ps, p.lost = []) :
    (b'.transaction.phase = .idle →
      ∃ k ≤ frames.length, ps.flatMap Pass.fromHost = (frames.take k).flatMap Frame.toBytes) ∧
    (∃ k ≤ frames.length, ps.flatMap Pass.fromHost =
      (frames.take k).flatMap Frame.toBytes ++ b'.transaction.taken) ∧
    ∀ p ∈ ps, p.sent? ≠ none → ∃ f ∈ frames, p.raw = f.toBytes := by
  obtain ⟨k, haligned⟩ := hrun.aligned (fresh_of_start hstart) hvalid hstream hlossless
  refine ⟨fun hidle => ?_, ⟨k, haligned.count, haligned.heard⟩, haligned.sent⟩
  have hheard := haligned.heard
  rw [Transaction.taken_of_idle hidle, List.append_nil] at hheard
  exact ⟨k, haligned.count, hheard⟩

/-- A read of the slave that nobody answers, a read of the host that is refused, and a command
that is sent. -/
theorem aligned_of_start_of_refusal :
    ∃ ps b', (atRest (.ofRooms Transaction.frameRoom Transaction.wireRoom)).Run ps b' ∧
      ps.map Pass.outcome = [.continues, .continues, .aborted (.timeout (.ofMillis 1000)),
        .continues, .continues, .aborted (.framing (.unexpectedCommand .readRegister)),
        .continues, .continues, .completed .master] ∧
      (b'.transaction.phase = .idle →
        ∃ k ≤ 2, ps.flatMap Pass.fromHost = ([⟨⟨.readRegister, 5, 1⟩, []⟩,
          ⟨⟨.multiWriteRegister, 7, 0⟩, []⟩].take k).flatMap Frame.toBytes) ∧
      ∀ p ∈ ps, p.sent? ≠ none → ∃ f ∈ [⟨⟨.readRegister, 5, 1⟩, []⟩,
        ⟨⟨.multiWriteRegister, 7, 0⟩, []⟩], p.raw = Frame.toBytes f := by
  have hpasses : ((atRest (.ofRooms Transaction.frameRoom Transaction.wireRoom)).passes
      [{ wiring.line.level := true }, .ofBus [.data [1, 5, 1, 0]],
        { wiring := {}, now := ⟨10 ^ 9, by decide⟩ }, .ofHost [], .ofHost [.data [1, 5]],
        .ofHost [.data [1, 0]], .ofHost [], .ofHost [.data [2, 7, 0, 0]], .ofHost []]).map
      (fun ps => (ps.map Pass.outcome, ps.flatMap Pass.fromHost, ps.flatMap Pass.lost)) =
      some ([.continues, .continues, .aborted (.timeout (.ofMillis 1000)), .continues, .continues,
        .aborted (.framing (.unexpectedCommand .readRegister)), .continues, .continues,
        .completed .master], [1, 5, 1, 0, 2, 7, 0, 0], []) := by
    decide +kernel
  obtain ⟨ps, hps, hfound⟩ := Option.map_eq_some_iff.1 hpasses
  obtain ⟨houtcomes, hrest⟩ := Prod.mk.inj hfound
  obtain ⟨hheard, hlost⟩ := Prod.mk.inj hrest
  have hvalid : ∀ f ∈ [⟨⟨.readRegister, 5, 1⟩, []⟩, ⟨⟨.multiWriteRegister, 7, 0⟩, []⟩],
      Frame.Valid f := by
    intro f hf
    rcases List.mem_cons.1 hf with rfl | hf
    · exact ⟨by decide, rfl⟩
    · rw [List.mem_singleton.1 hf]
      exact ⟨by decide, rfl⟩
  have hstart : (start (.ofRooms Transaction.frameRoom Transaction.wireRoom) {} {}).1 =
      .ok (atRest (.ofRooms Transaction.frameRoom Transaction.wireRoom)) := rfl
  obtain ⟨hidle, -, hsent⟩ := aligned_of_start hstart (Run.of_passes hps) hvalid
    (by rw [hheard]; exact List.prefix_rfl) (List.flatMap_eq_nil_iff.1 hlost)
  exact ⟨ps, _, Run.of_passes hps, houtcomes, hidle, hsent⟩

/-- An answer of which four bytes come before the deadline and four after it: the bridge is idle
within the answer, and sends the second half of it as a command of the host. -/
theorem not_aligned_of_lapse :
    ∃ ps qs b' b'', (atRest (.ofRooms Transaction.frameRoom Transaction.wireRoom)).Run ps b' ∧
      b'.Run qs b'' ∧ Frame.Valid ⟨⟨.writeRegister, 5, 4⟩, [0, 7, 0, 0]⟩ ∧
      (ps ++ qs).flatMap Pass.fromHost =
        Frame.toBytes ⟨⟨.writeRegister, 5, 4⟩, [0, 7, 0, 0]⟩ ∧
      b'.transaction.phase = .idle ∧
      (¬ ∃ k ≤ 1, ps.flatMap Pass.fromHost =
        ([⟨⟨.writeRegister, 5, 4⟩, [0, 7, 0, 0]⟩].take k).flatMap Frame.toBytes) ∧
      qs.map Pass.sent? = [none, none, some .master] ∧
      qs.flatMap Pass.toBus = [0x63, 0, 0x01, 0x80, 4, 0] ++ [0, 7, 0, 0] := by
  have hpasses : ((atRest (.ofRooms Transaction.frameRoom Transaction.wireRoom)).passes
      [{ wiring.line.level := true }, .ofBus [.data [1, 5, 4, 0]],
        { Encounter.ofHost [.data [0, 5, 4, 0]] with now := ⟨10 ^ 9, by decide⟩ }]).bind
      (fun ps => (((ps.map Pass.after).getLastD
        (atRest (.ofRooms Transaction.frameRoom Transaction.wireRoom))).passes
        [.ofHost [], .ofHost [.data [0, 7, 0, 0]], .ofHost []]).map fun qs =>
          ([ps.flatMap Pass.fromHost, qs.flatMap Pass.fromHost, qs.flatMap Pass.toBus],
            (ps.map fun p => p.after.transaction.phase).getLastD .idle, qs.map Pass.sent?)) =
      some ([[0, 5, 4, 0], [0, 7, 0, 0], [0x63, 0, 0x01, 0x80, 4, 0, 0, 7, 0, 0]],
        .idle, [none, none, some .master]) := by
    decide +kernel
  obtain ⟨ps, hps, hmore⟩ := Option.bind_eq_some_iff.1 hpasses
  obtain ⟨qs, hqs, hfound⟩ := Option.map_eq_some_iff.1 hmore
  simp only [Prod.mk.injEq, List.cons.injEq, and_true] at hfound
  obtain ⟨⟨hheard, hheard', hbus⟩, hidle, hsent⟩ := hfound
  refine ⟨ps, qs, _, _, Run.of_passes hps, Run.of_passes hqs, ⟨by decide, rfl⟩, ?_, ?_, ?_, hsent,
    hbus⟩
  · rw [List.flatMap_append, hheard, hheard']
    rfl
  · rw [phase_getLastD]
    exact hidle
  · rw [hheard]
    decide

end Bridge

end SpiBridge
