import SpiBridge.Proofs.Alignment
/-!
# Histories of the bridge and its host

The host writes its own commands and its answers to the slave's reads into one
channel, in which nothing tells the ones from the others: the bridge takes the next
frame for the answer when it awaits one, and for a command when it does not.  A history
is what happened between the two, step by step and write by write.  Main statements: how
what is read, written, asked and answered grows with a history, and which writings may
be unread while no doubt is left what they answer.
-/

namespace SpiBridge

open Command (Frame)

/-! ## What happens between the bridge and the host -/

/-- What the host writes: a command of its own, or the answer to one of the reads that were
forwarded to it, counted from the first. -/
inductive Writing where
  | command (frame : Frame)
  | answer (read : Nat) (frame : Frame)
  deriving DecidableEq

namespace Writing

def frame : Writing → Frame
  | command f | answer _ f => f

def toBytes (w : Writing) : Bytes :=
  w.frame.toBytes

def read? : Writing → Option Nat
  | command _ => none
  | answer i _ => some i

end Writing

inductive Event where
  | step (p : Pass)
  | write (w : Writing)

namespace Event

def pass? : Event → Option Pass
  | step p => some p
  | write _ => none

def writing? : Event → Option Writing
  | step _ => none
  | write w => some w

end Event

def Pass.asks (p : Pass) : Bool :=
  p.before.transaction.phase = .slaveHeader ∧
    p.after.transaction.phase = .slaveAwaitingHostAnswer

def Phase.owesAnswer : Phase → Bool
  | slaveAwaitingHostAnswer | slaveAnswerToBus => true
  | _ => false

theorem Phase.eq_awaiting_of_owesAnswer {phase : Phase} (howes : phase.owesAnswer = true)
    (hsilent : phase.sender? = none) : phase = .slaveAwaitingHostAnswer := by
  cases phase <;> simp_all [owesAnswer, sender?]

namespace Phase.Leads

variable {phase next : Phase} {outcome : Outcome}

theorem asks_or_owesAnswer (h : phase.Leads outcome next) (howes : next.owesAnswer = true) :
    phase = .slaveHeader ∧ next = .slaveAwaitingHostAnswer ∨ phase.owesAnswer = true := by
  rcases outcome with _ | _ | (_ | _) | _
  · cases phase <;> simp_all [Leads, continuations, owesAnswer] <;> grind
  · simp [h.2.2, owesAnswer] at howes
  · simp [h.2, owesAnswer] at howes
  · simp [h.2, owesAnswer] at howes
  · simp [h.2, owesAnswer] at howes

theorem owesAnswer_of_awaiting (h : phase.Leads outcome next)
    (hphase : phase = .slaveAwaitingHostAnswer) (hkept : ∀ e, outcome ≠ .aborted e) :
    next.owesAnswer = true := by
  subst hphase
  rcases outcome with _ | _ | e | _
  · simp_all [Leads, continuations]
    grind [owesAnswer]
  · simp [Leads, completing] at h
  · exact absurd rfl (hkept e)
  · simp [Leads] at h

end Phase.Leads

abbrev History := List Event

namespace History

variable (es : History)

def passes : List Pass :=
  es.filterMap Event.pass?

def writings : List Writing :=
  es.filterMap Event.writing?

def heard : Bytes :=
  es.passes.flatMap Pass.fromHost

def written : Bytes :=
  es.writings.flatMap Writing.toBytes

def asked : Nat :=
  es.passes.countP Pass.asks

def answered : List Nat :=
  es.writings.filterMap Writing.read?

def phase : Phase :=
  (es.passes.map fun p => p.after.transaction.phase).getLastD .idle

/-- The read that was forwarded last, as long as its answer is neither sent nor given up. -/
def inFlight? : Option Nat :=
  if es.phase.owesAnswer then some (es.asked - 1) else none

def GivenUp (i : Nat) : Prop :=
  ∃ front p back limit, es = front ++ .step p :: back ∧ inFlight? front = some i ∧
    p.outcome = .aborted (.timeout limit)

/-- What the host may write: any write of its own, and one answer to each read that was
forwarded to it. -/
def Allows : Writing → Prop
  | .command f => f.Valid ∧ f.header.command.isWrite = true
  | .answer i a => a.Valid ∧ i < es.asked ∧ i ∉ es.answered

instance : ∀ w, Decidable (Allows es w)
  | .command f => inferInstanceAs (Decidable (f.Valid ∧ f.header.command.isWrite = true))
  | .answer i a => inferInstanceAs (Decidable (a.Valid ∧ i < es.asked ∧ i ∉ es.answered))

/-- An event that leaves no doubt which frame is the answer: a read is forwarded only when all
that the host wrote was read, and while the read in flight is unanswered the host writes nothing but
the answer to just that read; nor is an answer given up when a part of it was read. -/
def Proper : Event → Prop
  | .step p => (p.asks = true → es.heard = es.written) ∧ p.lost = []
  | .write w => ∀ i ∈ es.inFlight?, i ∉ es.answered → w.read? = some i

instance : ∀ e, Decidable (Proper es e)
  | .step p => inferInstanceAs
      (Decidable ((p.asks = true → es.heard = es.written) ∧ p.lost = []))
  | .write w => inferInstanceAs
      (Decidable (∀ i ∈ es.inFlight?, i ∉ es.answered → w.read? = some i))

def Orderly (front : History) : History → Prop
  | [] => True
  | e :: es => front.Proper e ∧ Orderly (front ++ [e]) es

instance decidableOrderly : ∀ front es, Decidable (Orderly front es)
  | _, [] => .isTrue trivial
  | front, e :: es =>
    have := decidableOrderly (front ++ [e]) es
    inferInstanceAs (Decidable (front.Proper e ∧ Orderly (front ++ [e]) es))

end History

/-- A bridge and its host, in any interleaving of steps and writes: a step reads what the host
has written, and the host writes what it may. -/
inductive Bridge.Conversation (b : Bridge) : History → Bridge → Prop
  | start : b.Conversation [] b
  | step {es : History} {b' : Bridge} {e : Encounter} {p : Pass} (htalk : b.Conversation es b')
      (hpass : b'.pass? e = some p) (hread : es.heard ++ p.fromHost <+: es.written) :
      b.Conversation (es ++ [.step p]) p.after
  | write {es : History} {b' : Bridge} {w : Writing} (htalk : b.Conversation es b')
      (hallowed : es.Allows w) : b.Conversation (es ++ [.write w]) b'

/-! ## Histories that grow -/

namespace History

variable {es more : History} {p : Pass} {w : Writing} {i : Nat}

@[simp] theorem passes_step : passes (es ++ [.step p]) = es.passes ++ [p] := by
  simp [passes, Event.pass?]

@[simp] theorem passes_write : passes (es ++ [.write w]) = es.passes := by
  simp [passes, Event.pass?]

@[simp] theorem writings_step : writings (es ++ [.step p]) = es.writings := by
  simp [writings, Event.writing?]

@[simp] theorem writings_write : writings (es ++ [.write w]) = es.writings ++ [w] := by
  simp [writings, Event.writing?]

@[simp] theorem answered_step : answered (es ++ [.step p]) = es.answered := by
  simp [answered]

theorem mem_answered_iff : i ∈ es.answered ↔ ∃ w ∈ es.writings, w.read? = some i :=
  List.mem_filterMap

@[simp] theorem answered_write :
    answered (es ++ [.write w]) = es.answered ++ w.read?.toList := by
  cases h : w.read? <;> simp [answered, h]

theorem asked_step : asked (es ++ [.step p]) = es.asked + if p.asks then 1 else 0 := by
  simp [asked, List.countP_singleton]

@[simp] theorem asked_write : asked (es ++ [.write w]) = es.asked := by
  simp [asked]

theorem written_eq (es : History) :
    es.written = (es.writings.map Writing.frame).flatMap Frame.toBytes := by
  rw [written, List.flatMap_map]
  rfl

theorem phase_step : phase (es ++ [.step p]) = p.after.transaction.phase := by
  simp [phase]

@[simp] theorem phase_write : phase (es ++ [.write w]) = es.phase := by
  simp [phase]

theorem inFlight?_write : inFlight? (es ++ [.write w]) = es.inFlight? := by
  simp [inFlight?]

theorem inFlight?_eq_none (h : es.phase.owesAnswer = false) : es.inFlight? = none := by
  simp [inFlight?, h]

theorem GivenUp.append (h : es.GivenUp i) (more : History) : GivenUp (es ++ more) i := by
  obtain ⟨front, p, back, limit, rfl, hflight, houtcome⟩ := h
  exact ⟨front, p, back ++ more, limit, by simp, hflight, houtcome⟩

theorem givenUp_of_lapse {limit : Duration} (hflight : es.inFlight? = some i)
    (houtcome : p.outcome = .aborted (.timeout limit)) : GivenUp (es ++ [.step p]) i :=
  ⟨es, p, [], limit, rfl, hflight, houtcome⟩

theorem orderly_append {front : History} :
    Orderly front (es ++ more) ↔ Orderly front es ∧ Orderly (front ++ es) more := by
  induction es generalizing front with
  | nil => simp [Orderly]
  | cons e es ih => simp [Orderly, ih, and_assoc]

end History

/-! ## What is not yet read -/

namespace History

def Stray (es : History) (ws : List Writing) : Prop :=
  ∀ w ∈ ws, ∀ i, w.read? = some i → es.GivenUp i

/-- What may be unread: the answer to the read in flight comes before anything else. -/
inductive Unread (es : History) : List Writing → Prop
  | quiet {ws : List Writing} (hflight : es.inFlight? = none) (hstray : es.Stray ws) :
      es.Unread ws
  | unanswered {i : Nat} (hflight : es.inFlight? = some i) (howed : i ∉ es.answered) :
      es.Unread []
  | answered {i : Nat} {w : Writing} {ws : List Writing} (hflight : es.inFlight? = some i)
      (hread : w.read? = some i) (hstray : es.Stray ws) : es.Unread (w :: ws)

variable {es more : History} {w : Writing} {ws : List Writing} {i : Nat}

theorem Stray.append (h : es.Stray ws) (more : History) : Stray (es ++ more) ws :=
  fun w hw i hi => (h w hw i hi).append more

theorem Unread.stray (h : es.Unread ws) (hflight : es.inFlight? = none) : es.Stray ws := by
  cases h with
  | quiet hflight' hstray => exact hstray
  | unanswered hflight' | answered hflight' =>
    rw [hflight] at hflight'
    cases hflight'

theorem Unread.first (h : es.Unread (w :: ws)) (hflight : es.inFlight? = some i) :
    w.read? = some i ∧ es.Stray ws := by
  cases h with
  | quiet hflight' =>
    rw [hflight] at hflight'
    cases hflight'
  | answered hflight' hread hstray =>
    rw [hflight] at hflight'
    cases hflight'
    exact ⟨hread, hstray⟩

theorem Unread.step {p : Pass} (h : es.Unread ws)
    (hsame : inFlight? (es ++ [.step p]) = es.inFlight?) : Unread (es ++ [.step p]) ws := by
  cases h with
  | quiet hflight hstray => exact .quiet (hsame.trans hflight) (hstray.append _)
  | unanswered hflight howed => exact .unanswered (hsame.trans hflight) (by rwa [answered_step])
  | answered hflight hread hstray =>
    exact .answered (hsame.trans hflight) hread (hstray.append _)

end History

end SpiBridge
