import SpiBridge.Proofs.Arbitration
/-!
# Courses

A course is what a bridge does as it meets one thing after the other, faults and
failed samples of the line included.  Main statements: a course is cut where the list
of what it meets is cut, and what every step keeps holds all along a course.
-/

namespace SpiBridge

/-- The level that a step sampled, unless its sample failed. -/
def Move.level? (m : Move) : Option Bool :=
  match m.met.wiring.line.sample with
  | (.ok level, _) => some level
  | (.error _, _) => none

namespace Bridge

def after (b : Bridge) (es : List Encounter) : Bridge :=
  es.foldl (fun b e => (b.move e).after) b

variable {b : Bridge} {e : Encounter} {es : List Encounter} {m : Move}

theorem exists_of_course_eq_append {front back : List Move} (h : b.course es = front ++ back) :
    ∃ es₁ es₂, es = es₁ ++ es₂ ∧ front = b.course es₁ ∧ back = (b.after es₁).course es₂ := by
  induction front generalizing b es with
  | nil => exact ⟨[], es, rfl, rfl, h.symm⟩
  | cons first front ih =>
    cases es with
    | nil => cases h
    | cons e es =>
      obtain ⟨rfl, hrest⟩ := List.cons.inj h
      obtain ⟨es₁, es₂, rfl, rfl, rfl⟩ := ih hrest
      exact ⟨e :: es₁, es₂, rfl, rfl, rfl⟩

theorem exists_of_course_eq_append_cons {front back : List Move}
    (h : b.course es = front ++ m :: back) :
    ∃ es₁ e, front = b.course es₁ ∧ m = (b.after es₁).move e := by
  obtain ⟨es₁, es₂, -, hfront, hback⟩ := exists_of_course_eq_append h
  cases es₂ with
  | nil => cases hback
  | cons e es₂ => exact ⟨es₁, e, hfront, (List.cons.inj hback).1⟩

theorem keeps_of_move (b : Bridge) (e : Encounter) : b.Keeps (b.move e).after := by
  have hmoves := moves_move b e
  generalize b.move e = m at hmoves ⊢
  cases hmoves with
  | unsampled => exact .refl b
  | done hsample hend | failed hsample hend =>
    have hkeeps := Turn.keeps_of_ending hend
    exact ⟨hkeeps.frame, hkeeps.wire, hkeeps.timing⟩
  | aborted hsample hend =>
    have hkeeps := Turn.keeps_of_ending hend
    exact ⟨(Buffer.capacity_reset _).trans hkeeps.frame,
      (Buffer.capacity_reset _).trans hkeeps.wire, hkeeps.timing⟩

theorem exists_of_course_eq_cons {back : List Move} (h : b.course es = m :: back) :
    ∃ e es', m = b.move e ∧ back = m.after.course es' := by
  cases es with
  | nil => cases h
  | cons e es =>
    obtain ⟨rfl, hback⟩ := List.cons.inj h
    exact ⟨e, es, rfl, hback.symm⟩

theorem before_of_course {back : List Move} {q : Move} (h : b.course es = q :: m :: back) :
    m.before = q.after := by
  obtain ⟨e, es', rfl, hrest⟩ := exists_of_course_eq_cons h
  obtain ⟨e', -, rfl, -⟩ := exists_of_course_eq_cons hrest.symm
  rfl

theorem leads_of_move {outcome : Outcome} (h : (b.move e).outcome = .ok outcome) :
    b.transaction.phase.Leads outcome (b.move e).after.transaction.phase := by
  have hmoves := moves_move b e
  generalize b.move e = m at hmoves h ⊢
  cases hmoves with
  | unsampled | failed => cases h
  | @done level line _ s hsample hend =>
    cases h
    exact Turn.leads_of_ending (s := e.scene b level line) rfl hend
  | aborted hsample hend =>
    cases h
    exact Turn.leads_of_setback hend

theorem idle_of_move {outcome : Outcome} (h : (b.move e).outcome = .ok outcome)
    (hne : outcome ≠ .continues) : (b.move e).after.transaction.phase = .idle := by
  have hleads := leads_of_move h
  rcases outcome with _ | _ | (_ | _) | _
  · exact absurd rfl hne
  · exact hleads.2.2
  · exact hleads.2
  · exact hleads.2
  · exact hleads.2

theorem ne_aborted_of_ending {readiness : Readiness} {now : Instant} {s s' : Scene} {phase : Phase}
    {error : TransactionError} :
    ¬ Turn.EndingOf readiness now s phase (.ok (.aborted error) s') := by
  intro hend
  cases phase with
  | slaveAwaitingHostAnswer =>
    generalize hr : (EStateM.Result.ok (.aborted error) s' : Turn.Ending) = r at hend
    cases hend with
    | unready | blocked | incomplete => cases (Turn.eq_of_lapse hr.symm).1
    | _ => cases hr
  | _ => cases hend

theorem reset_of_aborted {error : TransactionError}
    (h : (b.move e).outcome = .ok (.aborted error)) :
    ∃ t : Transaction, (b.move e).after.transaction = t.reset := by
  have hmoves := moves_move b e
  generalize b.move e = m at hmoves h ⊢
  cases hmoves with
  | unsampled | failed => cases h
  | done hsample hend =>
    cases h
    exact absurd hend ne_aborted_of_ending
  | aborted => exact ⟨_, rfl⟩

theorem after_invariant {I : Bridge → Prop} (hstep : ∀ c e, I c → I (move c e).after) (h : I b)
    (es : List Encounter) : I (b.after es) := by
  induction es generalizing b with
  | nil => exact h
  | cons e es ih => exact ih (hstep b e h)

theorem exists_move_of_invariant {I : Bridge → Prop} (hstep : ∀ c e, I c → I (move c e).after)
    (h : I b) (hm : m ∈ b.course es) : ∃ c e, I c ∧ m = move c e := by
  obtain ⟨front, back, hcourse⟩ := List.append_of_mem hm
  obtain ⟨es₁, e, -, rfl⟩ := exists_of_course_eq_append_cons hcourse
  exact ⟨b.after es₁, e, after_invariant hstep h es₁, rfl⟩

end Bridge

end SpiBridge
