import SpiBridge.Proofs.History
/-!
# Conversations with the host

Main statements: in an orderly conversation each frame under the slave's numbers is the
answer to the read in flight, and each frame under the master's numbers is a command of
the host, or an answer that comes after its read was given up; and conversations in which
a command is sent as the answer, and a late answer as a command.
-/

namespace SpiBridge

open Command (Frame)

namespace History

variable {es more : History} {w : Writing} {ws : List Writing} {i : Nat}

/-- What the bridge makes of a history: which of the writings it has read to their end, and that
of the others it can tell what they answer. -/
structure Understood (es : History) (b : Bridge) (k : Nat) : Prop where
  aligned : Pass.Aligned (es.writings.map Writing.frame) es.passes b k
  phase : es.phase = b.transaction.phase
  known : ∀ i ∈ es.answered, i < es.asked
  settled : ∀ i < es.asked, i ∈ es.answered ∨ es.GivenUp i ∨ es.inFlight? = some i
  unread : es.Unread (es.writings.drop k)

namespace Understood

variable {p : Pass} {b : Bridge} {k k' : Nat}

theorem steps (h : Understood es p.before k)
    (haligned : Pass.Aligned (es.writings.map Writing.frame) (es.passes ++ [p]) p.after k')
    (hasks : p.asks = false)
    (hsettled : ∀ i, es.inFlight? = some i → i ∈ es.answered ∨ GivenUp (es ++ [.step p]) i ∨
      inFlight? (es ++ [.step p]) = some i)
    (hunread : Unread (es ++ [.step p]) (es.writings.drop k')) :
    Understood (es ++ [.step p]) p.after k' := by
  have hasked : asked (es ++ [.step p]) = es.asked := by simp [asked_step, hasks]
  refine ⟨by simpa using haligned, phase_step, ?_, ?_, by simpa using hunread⟩
  · rw [answered_step, hasked]
    exact h.known
  · rw [answered_step, hasked]
    intro i hi
    rcases h.settled i hi with hanswered | hgiven | hflight
    · exact .inl hanswered
    · exact .inr (.inl (hgiven.append _))
    · exact hsettled i hflight

theorem inFlight?_of_before (h : Understood es b k) {phase : Phase}
    (hphase : b.transaction.phase = phase) :
    es.inFlight? = if phase.owesAnswer then some (es.asked - 1) else none := by
  rw [inFlight?, h.phase, hphase]

theorem drop_eq_nil (h : Understood es b k) (htaken : b.transaction.taken = [])
    (hread : es.heard = es.written) : es.writings.drop k = [] := by
  have hsplit := List.take_append_drop k (es.writings.map Writing.frame)
  have hwritten := written_eq es
  rw [← hread, heard, h.aligned.heard, htaken] at hwritten
  conv at hwritten => rhs; rw [← hsplit, List.flatMap_append]
  have hrest := List.append_cancel_left hwritten
  rwa [eq_comm, Frame.flatMap_toBytes_eq_nil_iff, ← List.map_drop, List.map_eq_nil_iff] at hrest

theorem asks (h : Understood es p.before k)
    (haligned : Pass.Aligned (es.writings.map Writing.frame) (es.passes ++ [p]) p.after k)
    (hasks : p.asks = true) (hread : es.heard = es.written) :
    Understood (es ++ [.step p]) p.after k := by
  obtain ⟨hbefore, hafter⟩ := of_decide_eq_true hasks
  have hasked : asked (es ++ [.step p]) = es.asked + 1 := by simp [asked_step, hasks]
  have hnone : es.inFlight? = none := h.inFlight?_of_before hbefore
  have hflight : inFlight? (es ++ [.step p]) = some es.asked := by
    rw [inFlight?, phase_step, hafter, hasked]
    rfl
  have hdrop := h.drop_eq_nil (Transaction.taken_of_not_holdsHost (by rw [hbefore]; rfl)) hread
  refine ⟨by simpa using haligned, phase_step, ?_, ?_, ?_⟩
  · intro i hi
    rw [answered_step] at hi
    have hless := h.known i hi
    omega
  · intro i hi
    rw [hasked] at hi
    by_cases hlast : i = es.asked
    · exact .inr (.inr (hlast ▸ hflight))
    · rcases h.settled i (by omega) with hanswered | hgiven | hflight'
      · exact .inl (by simpa using hanswered)
      · exact .inr (.inl (hgiven.append _))
      · rw [hnone] at hflight'
        cases hflight'
  · rw [writings_step, hdrop]
    refine .unanswered hflight fun hanswered => ?_
    rw [answered_step] at hanswered
    exact Nat.lt_irrefl _ (h.known _ hanswered)

theorem asks_eq_false {phase : Phase} (hphase : p.before.transaction.phase = phase)
    (hne : phase ≠ .slaveHeader) : p.asks = false := by
  simp [Pass.asks, hphase, hne]

theorem gathers (h : Understood es p.before k)
    (hleads : p.before.transaction.phase.Leads p.outcome p.after.transaction.phase)
    (hproper : es.Proper (.step p)) (hsilent : p.before.transaction.phase.sender? = none)
    (hkept : p.before.transaction.phase.holdsHost = true → ∀ e, p.outcome ≠ .aborted e)
    (htaken : p.after.transaction.taken = p.before.transaction.taken ++ p.fromHost) :
    Understood (es ++ [.step p]) p.after k := by
  have haligned := h.aligned.gathers (Pass.sent?_eq_none hsilent) htaken
  cases hasks : p.asks with
  | true => exact h.asks haligned hasks (hproper.1 hasks)
  | false =>
    -- Nothing changes about the read in flight, if there is one.
    have hsame : inFlight? (es ++ [.step p]) = es.inFlight? := by
      have hasked : asked (es ++ [.step p]) = es.asked := by simp [asked_step, hasks]
      have howes : p.after.transaction.phase.owesAnswer =
          p.before.transaction.phase.owesAnswer := by
        cases hbefore : p.before.transaction.phase.owesAnswer with
        | true =>
          have hphase := Phase.eq_awaiting_of_owesAnswer hbefore hsilent
          exact hleads.owesAnswer_of_awaiting hphase (hkept (by rw [hphase]; rfl))
        | false =>
          cases hafter : p.after.transaction.phase.owesAnswer with
          | false => rfl
          | true =>
            rcases hleads.asks_or_owesAnswer hafter with hasks' | howes
            · rw [Pass.asks, decide_eq_true hasks'] at hasks
              cases hasks
            · rw [hbefore] at howes
              cases howes
      rw [inFlight?, inFlight?, phase_step, howes, hasked, h.phase]
    exact h.steps haligned hasks (fun i hi => .inr (.inr (hsame.trans hi)))
      (h.unread.step hsame)

theorem passesOver (h : Understood es p.before k)
    (haligned : Pass.Aligned (es.writings.map Writing.frame) (es.passes ++ [p]) p.after (k + 1))
    {phase : Phase} (hphase : p.before.transaction.phase = phase) (hne : phase ≠ .slaveHeader)
    (howes : phase.owesAnswer = false) (hidle : p.after.transaction.phase = .idle) :
    Understood (es ++ [.step p]) p.after (k + 1) := by
  have hnone : es.inFlight? = none := by rw [h.inFlight?_of_before hphase, howes]; rfl
  have hnone' : inFlight? (es ++ [.step p]) = none :=
    inFlight?_eq_none (by rw [phase_step, hidle]; rfl)
  refine h.steps haligned (asks_eq_false hphase hne) ?_ (.quiet hnone' ?_)
  · intro i hi
    rw [hnone] at hi
    cases hi
  · intro w hw i hi
    have hw' : w ∈ es.writings.drop k := by
      rw [← List.drop_drop] at hw
      exact List.mem_of_mem_drop hw
    exact (h.unread.stray hnone w hw' i hi).append _

theorem answers (h : Understood es p.before k)
    (haligned : Pass.Aligned (es.writings.map Writing.frame) (es.passes ++ [p]) p.after (k + 1))
    (hphase : p.before.transaction.phase = .slaveAnswerToBus)
    (hat : es.writings[k]? = some w) (hidle : p.after.transaction.phase = .idle) :
    (∃ i, es.inFlight? = some i ∧ w.read? = some i) ∧
      Understood (es ++ [.step p]) p.after (k + 1) := by
  have hflight : es.inFlight? = some (es.asked - 1) := h.inFlight?_of_before hphase
  have hnone : inFlight? (es ++ [.step p]) = none :=
    inFlight?_eq_none (by rw [phase_step, hidle]; rfl)
  have hunread := h.unread
  rw [List.drop_eq_getElem?_toList_append, hat] at hunread
  obtain ⟨hread, hstray⟩ := hunread.first hflight
  refine ⟨⟨_, hflight, hread⟩, h.steps haligned (asks_eq_false hphase (by simp)) ?_
    (.quiet hnone (hstray.append _))⟩
  intro i hi
  rw [hflight] at hi
  cases hi
  exact .inl (mem_answered_iff.2 ⟨w, List.mem_of_getElem? hat, hread⟩)

theorem lapses {limit : Duration} (h : Understood es p.before k)
    (hphase : p.before.transaction.phase = .slaveAwaitingHostAnswer)
    (houtcome : p.outcome = .aborted (.timeout limit))
    (hidle : p.after.transaction.phase = .idle) (hlost : p.lost = []) :
    Understood (es ++ [.step p]) p.after k := by
  have hflight : es.inFlight? = some (es.asked - 1) := h.inFlight?_of_before hphase
  have hnone : inFlight? (es ++ [.step p]) = none :=
    inFlight?_eq_none (by rw [phase_step, hidle]; rfl)
  have hgiven := givenUp_of_lapse hflight houtcome
  refine h.steps (h.aligned.lapses hphase houtcome hidle hlost)
    (asks_eq_false hphase (by simp)) ?_ (.quiet hnone ?_)
  · intro i hi
    rw [hflight] at hi
    cases hi
    exact .inr (.inl hgiven)
  · intro w hw i hi
    generalize hws : es.writings.drop k = ws at hw
    have hunread := h.unread
    rw [hws] at hunread
    cases ws with
    | nil => cases hw
    | cons first others =>
      obtain ⟨hread, hstray⟩ := hunread.first hflight
      rcases List.mem_cons.1 hw with rfl | hw
      · rw [hread] at hi
        cases hi
        exact hgiven
      · exact (hstray w hw i hi).append _

theorem writes (h : Understood es b k) (hallowed : es.Allows w) (hproper : es.Proper (.write w)) :
    Understood (es ++ [.write w]) b k := by
  -- What answers no read in flight answers one that was given up.
  have hstray : ∀ i, w.read? = some i → (es.inFlight? = some i → i ∈ es.answered) →
      es.GivenUp i := by
    intro i hi hdone
    cases w with
    | command => cases hi
    | answer j a =>
      cases hi
      obtain ⟨-, hasked, hfresh⟩ := hallowed
      rcases h.settled i hasked with hanswered | hgiven | hflight
      · exact absurd hanswered hfresh
      · exact hgiven
      · exact absurd (hdone hflight) hfresh
  refine ⟨?_, by rw [phase_write, h.phase], ?_, ?_, ?_⟩
  · rw [writings_write, passes_write, List.map_append]
    exact h.aligned.append _
  · intro i hi
    rw [answered_write] at hi
    rw [asked_write]
    rcases List.mem_append.1 hi with hi | hi
    · exact h.known i hi
    · cases w with
      | command => cases hi
      | answer j a =>
        obtain rfl := List.mem_singleton.1 hi
        exact hallowed.2.1
  · intro i hi
    rw [asked_write] at hi
    rw [answered_write, inFlight?_write]
    rcases h.settled i hi with hanswered | hgiven | hflight
    · exact .inl (List.mem_append_left _ hanswered)
    · exact .inr (.inl (hgiven.append _))
    · exact .inr (.inr hflight)
  · have hcount := h.aligned.count
    rw [List.length_map] at hcount
    rw [writings_write, List.drop_append_of_le_length hcount]
    have hunread := h.unread
    have hmem : ∀ v ∈ es.writings.drop k, v ∈ es.writings := fun v => List.mem_of_mem_drop
    generalize es.writings.drop k = ws at hunread hmem
    cases hunread with
    | quiet hflight hws =>
      refine .quiet (inFlight?_write.trans hflight) ?_
      intro v hv i hi
      rcases List.mem_append.1 hv with hv | hv
      · exact (hws v hv i hi).append _
      · rw [List.mem_singleton.1 hv] at hi
        exact (hstray i hi (by simp [hflight])).append _
    | @unanswered i hflight howed =>
      exact .answered (inFlight?_write.trans hflight) (hproper i hflight howed) (by simp [Stray])
    | @answered i first others hflight hread hws =>
      refine .answered (inFlight?_write.trans hflight) hread ?_
      intro v hv j hj
      rcases List.mem_append.1 hv with hv | hv
      · exact (hws v hv j hj).append _
      · rw [List.mem_singleton.1 hv] at hj
        refine (hstray j hj fun hsame => ?_).append _
        rw [hflight] at hsame
        cases hsame
        exact mem_answered_iff.2 ⟨first, hmem first (by simp), hread⟩

end Understood

end History

/-! ## Conversations -/

namespace Bridge

open History

variable {b b' : Bridge} {es front back : History} {e : Event} {p : Pass} {k : Nat}

namespace Conversation

theorem run (htalk : b.Conversation es b') : b.Run es.passes b' := by
  induction htalk with
  | start => exact .start
  | step htalk hpass hread ih =>
    rw [passes_step]
    exact ih.step hpass
  | write htalk hallowed ih =>
    rw [passes_write]
    exact ih

theorem valid (htalk : b.Conversation es b') :
    ∀ f ∈ es.writings.map Writing.frame, f.Valid := by
  induction htalk with
  | start => simp [writings]
  | step htalk hpass hread ih =>
    rw [writings_step]
    exact ih
  | @write es b' w htalk hallowed ih =>
    intro f hf
    rw [writings_write, List.map_append] at hf
    rcases List.mem_append.1 hf with hf | hf
    · exact ih f hf
    · obtain rfl := List.mem_singleton.1 hf
      cases w with
      | command f => exact hallowed.1
      | answer i a => exact hallowed.1

theorem of_append_step (htalk : b.Conversation (front ++ .step p :: back) b') :
    b.Conversation front p.before ∧ p.before.pass? p.met = some p ∧
      front.heard ++ p.fromHost <+: front.written := by
  generalize hes : front ++ .step p :: back = es at htalk
  induction htalk generalizing back with
  | start => simp at hes
  | @step es c e q htalk hpass hread ih =>
    rcases List.eq_nil_or_concat back with rfl | ⟨back, last, rfl⟩
    · obtain ⟨rfl, hlast⟩ := List.append_inj' hes rfl
      obtain rfl : p = q := by simpa using hlast
      obtain ⟨rfl, rfl⟩ := before_of_pass? hpass
      exact ⟨htalk, hpass, hread⟩
    · rw [List.concat_eq_append, ← List.cons_append, ← List.append_assoc] at hes
      exact ih (List.append_inj' hes rfl).1
  | @write es c w htalk hallowed ih =>
    rcases List.eq_nil_or_concat back with rfl | ⟨back, last, rfl⟩
    · obtain ⟨-, hlast⟩ := List.append_inj' hes rfl
      simp at hlast
    · rw [List.concat_eq_append, ← List.cons_append, ← List.append_assoc] at hes
      exact ih (List.append_inj' hes rfl).1

end Conversation

theorem takes_of_understood (h : es.Understood p.before k)
    (htalk : b.Conversation es p.before) (hfresh : b.Fresh)
    (hpass : p.before.pass? p.met = some p) (hread : es.heard ++ p.fromHost <+: es.written) :
    p.before.transaction.taken ++ p.fromHost <+:
        ((es.writings.map Writing.frame).drop k).flatMap Frame.toBytes ∧ p.Takes := by
  refine takes_of_aligned h.aligned htalk.valid (htalk.run.roomy hfresh) ?_ hpass
  rw [List.flatMap_append, List.flatMap_singleton, ← written_eq]
  exact hread

theorem sends_of_understood {origin : Sync.Origin} (h : es.Understood p.before k)
    (htalk : b.Conversation es p.before) (hfresh : b.Fresh)
    (hpre : p.before.transaction.taken ++ p.fromHost <+:
      ((es.writings.map Writing.frame).drop k).flatMap Frame.toBytes)
    (hsender : p.before.transaction.phase.sender? = some origin) (hheard : p.fromHost = [])
    (hidle : p.after.transaction.phase = .idle) :
    ∃ w, es.writings[k]? = some w ∧ p.raw = w.toBytes ∧
      (origin = .slave → ∃ i, es.inFlight? = some i ∧ w.read? = some i) ∧
      (origin = .master → ∀ i, w.read? = some i → es.GivenUp i) ∧
      Understood (es ++ [.step p]) p.after (k + 1) := by
  obtain ⟨f, hat, hraw, haligned⟩ :=
    h.aligned.sends htalk.valid (htalk.run.roomy hfresh) hpre hsender hheard hidle
  rw [List.getElem?_map] at hat
  obtain ⟨w, hw, rfl⟩ := Option.map_eq_some_iff.1 hat
  rcases hphase : p.before.transaction.phase <;> rw [hphase] at hsender <;>
    simp [Phase.sender?] at hsender <;> subst hsender
  · obtain ⟨hflight, hnext⟩ := h.answers haligned hphase hw hidle
    exact ⟨w, hw, hraw, fun _ => hflight, by simp, hnext⟩
  · have hnone : es.inFlight? = none := h.inFlight?_of_before hphase
    refine ⟨w, hw, hraw, by simp, fun _ => ?_, h.passesOver haligned hphase (by simp) rfl hidle⟩
    have hstray := h.unread.stray hnone
    rw [List.drop_eq_getElem?_toList_append, hw] at hstray
    exact hstray w (by simp)

/-- In an orderly conversation the bridge always knows what the next writing answers. -/
theorem Conversation.understood (htalk : b.Conversation es b') (hfresh : b.Fresh)
    (horderly : Orderly [] es) : ∃ k, es.Understood b' k := by
  induction htalk with
  | start =>
    refine ⟨0, ⟨Nat.zero_le _, ?_, by simp [History.passes]⟩, ?_, by simp [answered, writings], ?_,
      ?_⟩
    · rw [Transaction.taken_of_idle hfresh.phase]
      rfl
    · rw [hfresh.phase]
      rfl
    · simp [asked, History.passes]
    · exact .quiet rfl (by simp [Stray, writings])
  | @step es c e p htalk hpass hread ih =>
    rw [orderly_append] at horderly
    obtain ⟨hfront, hproper, -⟩ := horderly
    obtain ⟨k, h⟩ := ih hfront
    obtain ⟨rfl, rfl⟩ := before_of_pass? hpass
    obtain ⟨hpre, htakes⟩ := takes_of_understood h htalk hfresh hpass hread
    have hleads := (coherent_of_pass? (htalk.run.coherent hfresh.coherent) hpass).2
    cases htakes with
    | sends hsender houtcome hheard hidle =>
      obtain ⟨w, -, -, -, -, hnext⟩ :=
        sends_of_understood h htalk hfresh hpre hsender hheard hidle
      exact ⟨k + 1, hnext⟩
    | gathers hsilent hkept htaken =>
      exact ⟨k, h.gathers hleads hproper hsilent hkept htaken⟩
    | refuses hphase houtcome hparse hread' hidle =>
      have hsent : p.sent? = none := Pass.sent?_eq_none (by rw [hphase]; rfl)
      obtain ⟨-, haligned⟩ := h.aligned.completes htalk.valid hpre hparse hidle (absurd hsent)
      exact ⟨k + 1, h.passesOver haligned hphase (by simp) rfl hidle⟩
    | lapses hphase houtcome hidle => exact ⟨k, h.lapses hphase houtcome hidle hproper.2⟩
  | @write es c w htalk hallowed ih =>
    rw [orderly_append] at horderly
    obtain ⟨hfront, hproper, -⟩ := horderly
    obtain ⟨k, h⟩ := ih hfront
    exact ⟨k, h.writes hallowed hproper⟩

end Bridge

/-- What a step sends to the slave, and who wrote it: nothing; or the answer to the read in
flight, under a number of the slave; or a command of the host, or an answer that was late, under
a number of the master.  The frame is the last that was read of what the host has written. -/
inductive History.Sends (es : History) (p : Pass) : Prop
  | nothing (hbus : p.toBus = [])
  | answer {k i : Nat} {a : Frame} {header : Sync.Header} (hflight : es.inFlight? = some i)
      (hat : es.writings[k]? = some (.answer i a))
      (hheard : es.heard = (es.writings.take k).flatMap Writing.toBytes ++ a.toBytes)
      (hserial : header.origin? = some .slave) (hlength : header.length.toNat = a.toBytes.length)
      (hbus : p.toBus = Sync.encode header a.toBytes)
  | command {k : Nat} {f : Frame} {header : Sync.Header}
      (hat : es.writings[k]? = some (.command f))
      (hheard : es.heard = (es.writings.take k).flatMap Writing.toBytes ++ f.toBytes)
      (hserial : header.origin? = some .master) (hlength : header.length.toNat = f.toBytes.length)
      (hbus : p.toBus = Sync.encode header f.toBytes)
  | late {k i : Nat} {a : Frame} {header : Sync.Header} (hgiven : es.GivenUp i)
      (hat : es.writings[k]? = some (.answer i a))
      (hheard : es.heard = (es.writings.take k).flatMap Writing.toBytes ++ a.toBytes)
      (hserial : header.origin? = some .master) (hlength : header.length.toNat = a.toBytes.length)
      (hbus : p.toBus = Sync.encode header a.toBytes)

namespace Bridge

open History

variable {b b' : Bridge} {es front back : History} {p : Pass}

/-- Whose frames go to the slave in any interleaving of steps and writes: as long as a read is
forwarded only when all that the host wrote was read, and the host writes nothing but the answer to
the read in flight while that is unanswered, and no answer is given up when a part of it was read,
each frame under a number of the slave is the answer to the read in flight, and each frame under a
number of the master is a command of the host or an answer whose read had been given up. -/
theorem sends_of_conversation {timing : Timing} {wiring : Wiring}
    (hstart : (start (.ofRooms Transaction.frameRoom Transaction.wireRoom) timing wiring).1 =
      .ok b) (htalk : b.Conversation es b') (horderly : Orderly [] es)
    (hes : es = front ++ .step p :: back) : front.Sends p := by
  subst hes
  have hfresh := fresh_of_start hstart
  obtain ⟨hfront, hpass, hread⟩ := htalk.of_append_step
  rw [orderly_append] at horderly
  obtain ⟨k, h⟩ := hfront.understood hfresh horderly.1
  have hroomy := hfront.run.roomy hfresh
  obtain ⟨hwrites, -⟩ :=
    writes_of_pass? hroomy.coherent hroomy.wire (hfront.run.counts hfresh) hpass
  cases hwrites with
  | nothing hsent hbus => exact .nothing hbus
  | @frame origin header frame hsent hparse hserial hlength hbus =>
    have horigin : header.origin? = some origin := by
      rw [Sync.Header.origin?, hserial]
      exact Sync.Origin.ofSerial?_eq_some_iff.2 (Sync.Origin.owns_serialAt _ _)
    have hsender := Pass.sender?_of_sent? hsent
    obtain ⟨hpre, htakes⟩ := takes_of_understood h hfront hfresh hpass hread
    cases htakes with
    | gathers hsilent | refuses hphase | lapses hphase =>
      simp_all [Phase.sender?]
    | sends hsender' houtcome hheard hidle =>
      rw [hsender] at hsender'
      cases hsender'
      obtain ⟨w, hat, hraw, hslave, hmaster, -⟩ :=
        sends_of_understood h hfront hfresh hpre hsender hheard hidle
      have hall := h.aligned.heard
      rw [Transaction.taken_of_holdsHost (Phase.holdsHost_of_sender? hsender)] at hall
      have hheard' : front.heard =
          (front.writings.take k).flatMap Writing.toBytes ++ w.toBytes := by
        rw [← hraw, heard, hall, ← List.map_take, List.flatMap_map]
        rfl
      rw [hraw] at hlength hbus
      cases origin with
      | slave =>
        obtain ⟨i, hflight, hi⟩ := hslave rfl
        cases w with
        | command => cases hi
        | answer j a =>
          cases hi
          exact .answer hflight hat hheard' horigin hlength hbus
      | master =>
        cases w with
        | command f => exact .command hat hheard' horigin hlength hbus
        | answer i a => exact .late (hmaster rfl i rfl) hat hheard' horigin hlength hbus

/-- The events behind some history, if the bridge meets the given things and the host writes the
given frames, and the bridge that they leave. -/
def converse? (b : Bridge) (es : History) :
    List (Encounter ⊕ Writing) → Option (History × Bridge)
  | [] => some (es, b)
  | .inl e :: rest => (b.pass? e).bind fun p =>
    if es.heard ++ p.fromHost <+: es.written then p.after.converse? (es ++ [.step p]) rest
    else none
  | .inr w :: rest =>
    if es.Allows w then b.converse? (es ++ [.write w]) rest else none

theorem Conversation.of_converse? {items : List (Encounter ⊕ Writing)} {c : Bridge}
    (htalk : b.Conversation es c) (h : c.converse? es items = some (back, b')) :
    b.Conversation back b' := by
  induction items generalizing es c with
  | nil =>
    obtain ⟨rfl, rfl⟩ := Prod.mk.inj (Option.some.inj h)
    exact htalk
  | cons item rest ih =>
    cases item with
    | inl e =>
      obtain ⟨p, hpass, hrest⟩ := Option.bind_eq_some_iff.1 h
      split at hrest
      · rename_i hread
        exact ih (htalk.step hpass hread) hrest
      · cases hrest
    | inr w =>
      rw [converse?] at h
      split at h
      · rename_i hallowed
        exact ih (htalk.write hallowed) h
      · cases h

/-- A command, a read with its answer and a command behind it, and a read whose answer comes
after the deadline. -/
theorem sends_of_conversation_of_late_answer :
    ∃ es b', (atRest (.ofRooms Transaction.frameRoom Transaction.wireRoom)).Conversation es b' ∧
      es.passes.filterMap Pass.sent? = [.master, .slave, .master, .master] ∧
      ∀ (front : History) p back, es = front ++ .step p :: back → front.Sends p := by
  have hitems : ((atRest (.ofRooms Transaction.frameRoom Transaction.wireRoom)).converse? []
      [.inr (.command ⟨⟨.writeRegister, 5, 1⟩, [0x27]⟩), .inl (.ofHost []),
        .inl (.ofHost [.data [0, 5, 1, 0]]), .inl (.ofHost [.data [0x27]]), .inl (.ofHost []),
        .inl { wiring.line.level := true }, .inl (.ofBus [.data [1, 5, 1, 0]]),
        .inr (.answer 0 ⟨⟨.writeRegister, 5, 1⟩, [9]⟩),
        .inr (.command ⟨⟨.multiWriteRegister, 7, 0⟩, []⟩), .inl (.ofHost [.data [0, 5, 1, 0]]),
        .inl (.ofHost [.data [9]]), .inl (.ofHost []), .inl (.ofHost []),
        .inl (.ofHost [.data [2, 7, 0, 0]]), .inl (.ofHost []),
        .inl { wiring.line.level := true }, .inl (.ofBus [.data [1, 6, 1, 0]]),
        .inl { wiring := {}, now := ⟨10 ^ 9, by decide⟩ },
        .inr (.answer 1 ⟨⟨.writeRegister, 6, 0⟩, []⟩), .inl (.ofHost []),
        .inl (.ofHost [.data [0, 6, 0, 0]]), .inl (.ofHost [])]).map (fun reached =>
          (reached.1.passes.filterMap Pass.sent?, decide (Orderly [] reached.1))) =
      some ([.master, .slave, .master, .master], true) := by
    decide +kernel
  obtain ⟨⟨es, b'⟩, hreached, hfound⟩ := Option.map_eq_some_iff.1 hitems
  obtain ⟨hsent, horderly⟩ := Prod.mk.inj hfound
  have htalk := Conversation.start.of_converse? hreached
  have hstart : (start (.ofRooms Transaction.frameRoom Transaction.wireRoom) {} {}).1 =
      .ok (atRest (.ofRooms Transaction.frameRoom Transaction.wireRoom)) := rfl
  exact ⟨es, b', htalk, hsent, fun front p back hes =>
    sends_of_conversation hstart htalk (of_decide_eq_true horderly) hes⟩

/-- A command that was written before a read was forwarded is sent as its answer, before the
host has answered anything; and an answer that comes after the deadline is sent as a command,
though the host has written no command. -/
theorem not_sends_of_untimely_writes :
    (∃ es b', (atRest (.ofRooms Transaction.frameRoom Transaction.wireRoom)).Conversation es b' ∧
      es.writings = [.command ⟨⟨.multiWriteRegister, 7, 0⟩, []⟩] ∧
      ∃ p ∈ es.passes, p.toBus = Sync.encode ⟨0x0001, 4⟩ [2, 7, 0, 0] ∧
        Sync.Header.origin? ⟨0x0001, 4⟩ = some .slave) ∧
    ∃ es b', (atRest (.ofRooms Transaction.frameRoom Transaction.wireRoom)).Conversation es b' ∧
      es.writings = [.answer 0 ⟨⟨.multiWriteRegister, 7, 0⟩, []⟩] ∧
      ∃ p ∈ es.passes, p.toBus = Sync.encode ⟨0x8001, 4⟩ [2, 7, 0, 0] ∧
        Sync.Header.origin? ⟨0x8001, 4⟩ = some .master := by
  have hqueued : ((atRest (.ofRooms Transaction.frameRoom Transaction.wireRoom)).converse? []
      [.inr (.command ⟨⟨.multiWriteRegister, 7, 0⟩, []⟩), .inl { wiring.line.level := true },
        .inl (.ofBus [.data [1, 5, 1, 0]]), .inl (.ofHost [.data [2, 7, 0, 0]]),
        .inl (.ofHost [])]).map (fun reached =>
          (reached.1.writings, (reached.1.passes.map Pass.toBus).getLast?)) =
      some ([.command ⟨⟨.multiWriteRegister, 7, 0⟩, []⟩],
        some (Sync.encode ⟨0x0001, 4⟩ [2, 7, 0, 0])) := by
    decide +kernel
  have hlate : ((atRest (.ofRooms Transaction.frameRoom Transaction.wireRoom)).converse? []
      [.inl { wiring.line.level := true }, .inl (.ofBus [.data [1, 5, 1, 0]]),
        .inl { wiring := {}, now := ⟨10 ^ 9, by decide⟩ },
        .inr (.answer 0 ⟨⟨.multiWriteRegister, 7, 0⟩, []⟩), .inl (.ofHost []),
        .inl (.ofHost [.data [2, 7, 0, 0]]), .inl (.ofHost [])]).map (fun reached =>
          (reached.1.writings, (reached.1.passes.map Pass.toBus).getLast?)) =
      some ([.answer 0 ⟨⟨.multiWriteRegister, 7, 0⟩, []⟩],
        some (Sync.encode ⟨0x8001, 4⟩ [2, 7, 0, 0])) := by
    decide +kernel
  have hlast {es : History} {bytes : Bytes}
      (h : (es.passes.map Pass.toBus).getLast? = some bytes) :
      ∃ p ∈ es.passes, p.toBus = bytes := by
    obtain ⟨p, hp, hbus⟩ := List.mem_map.1 (List.mem_of_getLast? h)
    exact ⟨p, hp, hbus⟩
  obtain ⟨⟨es, b'⟩, hreached, hfound⟩ := Option.map_eq_some_iff.1 hqueued
  obtain ⟨⟨es', b''⟩, hreached', hfound'⟩ := Option.map_eq_some_iff.1 hlate
  obtain ⟨p, hp, hbus⟩ := hlast (Prod.mk.inj hfound).2
  obtain ⟨p', hp', hbus'⟩ := hlast (Prod.mk.inj hfound').2
  exact ⟨⟨es, b', Conversation.start.of_converse? hreached, (Prod.mk.inj hfound).1, p, hp, hbus,
      by decide⟩,
    es', b'', Conversation.start.of_converse? hreached', (Prod.mk.inj hfound').1, p', hp', hbus',
      by decide⟩

end Bridge

end SpiBridge
