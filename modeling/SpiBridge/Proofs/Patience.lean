import Mathlib.Tactic.ByContra
import Mathlib.Tactic.Choose
import SpiBridge.Proofs.Transfers
/-!
# How long a bounded write goes on

A bounded write takes one round after the other: it polls for room, and if there is room it writes.
The clock is looked at in rounds without room only.  Main statements: with the clock past the
deadline, the write returns unless it comes to find room in every round and to be refused each time,
and then it goes on for ever; while no byte is taken, the first other round ends it with an error.
-/

namespace SpiBridge

/-- One round of a bounded write: what its poll finds and, if that is room, what its write meets. -/
inductive Round where
  | idle (clock : Instant)
  | failed (error : IoError)
  | ready (clock : Instant) (answer : Acceptance)
  deriving DecidableEq

namespace Round

def poll : Round → RoomPoll
  | idle clock => .idle clock
  | failed e => .failed e
  | ready clock _ => .ready clock

def answer? : Round → Option Acceptance
  | idle _ | failed _ => none
  | ready _ answer => some answer

/-- The clock has reached the deadline; a poll that fails is not followed by a look at the clock. -/
def Late (deadline : Instant) : Round → Prop
  | idle clock | ready clock _ => deadline.reachedBy clock = true
  | failed _ => True

def takes : Round → Bool
  | ready _ (.takes limit) => limit != 0
  | _ => false

def isRefusal : Round → Bool
  | ready _ (.failed e) => e.isTransient
  | _ => false

def leave (role : ChannelRole) (timeout : Duration) (deadline : Instant) (bytes : Bytes) :
    Round → Except TransportError Bytes
  | idle clock =>
    if deadline.reachedBy clock then .error (.writeTimeout role timeout) else .ok bytes
  | failed e => .error (.io e)
  | ready _ answer => Channel.afterWrite role bytes (answer.answer bytes)

def leaveAll (role : ChannelRole) (timeout : Duration) (deadline : Instant) (bytes : Bytes) :
    List Round → Except TransportError Bytes
  | [] => .ok bytes
  | r :: rest =>
    if bytes = [] then .ok []
    else match r.leave role timeout deadline bytes with
      | .ok left => leaveAll role timeout deadline left rest
      | .error e => .error e

def first (rounds : Nat → Round) (n : Nat) : List Round :=
  (List.range n).map rounds

variable {role : ChannelRole} {timeout : Duration} {deadline : Instant} {bytes left : Bytes}
  {r : Round} {front : List Round} {rounds : Nat → Round} {n k : Nat}

theorem first_succ (rounds : Nat → Round) (n : Nat) :
    first rounds (n + 1) = first rounds n ++ [rounds n] := by
  rw [first, List.range_succ, List.map_append]
  rfl

/-! ## One round -/

theorem leave_of_isRefusal (h : r.isRefusal = true) :
    r.leave role timeout deadline bytes = .ok bytes := by
  rcases r with _ | _ | ⟨clock, _ | e⟩ <;> try cases h
  have hagain : e.isTransient = true := h
  rw [leave, Acceptance.answer, Channel.afterWrite, if_pos hagain]

theorem eq_or_length_lt_of_leave (hne : bytes ≠ [])
    (h : r.leave role timeout deadline bytes = .ok left) :
    (r.takes = false ∧ left = bytes) ∨ (r.takes = true ∧ left.length < bytes.length) := by
  rcases r with clock | e | ⟨clock, limit | e⟩
  · rw [leave] at h
    split at h
    · cases h
    · exact .inl ⟨rfl, (Except.ok.inj h).symm⟩
  · cases h
  · have hlength := List.length_pos_iff.2 hne
    rcases hcount : min limit bytes.length with _ | count <;>
      rw [leave, Acceptance.answer, hcount] at h
    · cases h
    · cases h
      refine .inr ⟨by simp [takes]; omega, ?_⟩
      rw [List.length_drop]
      omega
  · rw [leave, Acceptance.answer, Channel.afterWrite] at h
    split at h
    · exact .inl ⟨rfl, (Except.ok.inj h).symm⟩
    · cases h

theorem isRefusal_of_leave (hlate : r.Late deadline) (htakes : r.takes = false)
    (h : r.leave role timeout deadline bytes = .ok left) : r.isRefusal = true := by
  rcases r with clock | e | ⟨clock, limit | e⟩
  · have hreached : deadline.reachedBy clock = true := hlate
    rw [leave, if_pos hreached] at h
    cases h
  · cases h
  · obtain rfl : limit = 0 := by simpa [takes] using htakes
    rw [leave, Acceptance.answer, Nat.zero_min] at h
    cases h
  · rw [leave, Acceptance.answer, Channel.afterWrite] at h
    split at h
    · assumption
    · cases h

/-! ## Many rounds -/

theorem leaveAll_nil (front : List Round) : leaveAll role timeout deadline [] front = .ok [] := by
  cases front <;> rfl

theorem leaveAll_append (back : List Round) :
    leaveAll role timeout deadline bytes (front ++ back) =
      match leaveAll role timeout deadline bytes front with
      | .ok left => leaveAll role timeout deadline left back
      | .error e => .error e := by
  induction front generalizing bytes with
  | nil => rfl
  | cons r front ih =>
    simp only [List.cons_append, leaveAll]
    split
    · exact (leaveAll_nil back).symm
    · rcases r.leave role timeout deadline bytes with e | left
      · rfl
      · exact ih

theorem leaveAll_first_succ (hne : left ≠ [])
    (h : leaveAll role timeout deadline bytes (first rounds n) = .ok left) :
    leaveAll role timeout deadline bytes (first rounds (n + 1)) =
      (rounds n).leave role timeout deadline left := by
  rw [first_succ, leaveAll_append, h]
  simp only [leaveAll, if_neg hne]
  rcases (rounds n).leave role timeout deadline left <;> rfl

theorem leaveAll_first_of_error {e : TransportError} (hle : n ≤ k)
    (h : leaveAll role timeout deadline bytes (first rounds n) = .error e) :
    leaveAll role timeout deadline bytes (first rounds k) = .error e := by
  induction hle with
  | refl => exact h
  | step _ ih => rw [first_succ, leaveAll_append, ih]

theorem leaveAll_of_refusals (hne : left ≠ [])
    (h : leaveAll role timeout deadline bytes (first rounds n) = .ok left)
    (hrefused : ∀ k ≥ n, (rounds k).isRefusal = true) (hle : n ≤ k) :
    leaveAll role timeout deadline bytes (first rounds k) = .ok left := by
  induction hle with
  | refl => exact h
  | step hle ih => rw [leaveAll_first_succ hne ih, leave_of_isRefusal (hrefused _ hle)]

theorem error_of_leaveAll (hne : left ≠ [])
    (h : leaveAll role timeout deadline bytes (first rounds n) = .ok left)
    (hrounds : ∀ k ≥ n, (rounds k).Late deadline ∧ (rounds k).takes = false) (hle : n ≤ k)
    (hother : (rounds k).isRefusal = false) :
    ∃ e, leaveAll role timeout deadline bytes (first rounds (k + 1)) = .error e := by
  by_contra hgoes
  -- If no round up to `k` ended the write, each left the same bytes, and so was a refusal.
  have hsame : ∀ m, n ≤ m → m ≤ k + 1 →
      leaveAll role timeout deadline bytes (first rounds m) = .ok left := by
    intro m hm
    induction hm with
    | refl => exact fun _ => h
    | @step m hm ih =>
      intro hmk
      have hstep := leaveAll_first_succ hne (ih (by omega))
      rcases hleave : (rounds m).leave role timeout deadline left with e | left'
      · exact absurd ⟨e, leaveAll_first_of_error hmk (hstep.trans hleave)⟩ hgoes
      · rcases eq_or_length_lt_of_leave hne hleave with ⟨-, rfl⟩ | ⟨htakes, -⟩
        · exact hstep.trans hleave
        · rw [(hrounds m hm).2] at htakes
          cases htakes
  have hstep := leaveAll_first_succ hne (hsame k hle (Nat.le_succ k))
  rw [hsame (k + 1) (by omega) (Nat.le_refl _)] at hstep
  have hrefusal := isRefusal_of_leave (hrounds k hle).1 (hrounds k hle).2 hstep.symm
  rw [hother] at hrefusal
  cases hrefusal

/-- A write that no round ends comes to a point from which on every round is a refusal, if the clock
is past the deadline from some point on. -/
theorem exists_refusals (hlate : ∃ N, ∀ n ≥ N, (rounds n).Late deadline)
    (hgoes : ∀ n, ∃ left, left ≠ [] ∧
      leaveAll role timeout deadline bytes (first rounds n) = .ok left) :
    ∃ n left, left ≠ [] ∧ leaveAll role timeout deadline bytes (first rounds n) = .ok left ∧
      ∀ k ≥ n, (rounds k).isRefusal = true := by
  obtain ⟨N, hlate⟩ := hlate
  choose left hne hleave using hgoes
  have hstep : ∀ n, (rounds n).leave role timeout deadline (left n) = .ok (left (n + 1)) :=
    fun n => (leaveAll_first_succ (hne n) (hleave n)).symm.trans (hleave (n + 1))
  have hfewer : ∀ n k, n ≤ k → (left k).length ≤ (left n).length := by
    intro n k hle
    induction hle with
    | refl => exact Nat.le_refl _
    | @step k hle ih =>
      rcases eq_or_length_lt_of_leave (hne k) (hstep k) with ⟨-, hsame⟩ | ⟨-, hless⟩
      · rwa [hsame]
      · exact Nat.le_trans (Nat.le_of_lt hless) ih
  -- By induction on what is left: a round that is no refusal leaves less.
  suffices hend : ∀ length n, N ≤ n → (left n).length = length →
      ∃ m, ∀ k ≥ m, (rounds k).isRefusal = true by
    obtain ⟨m, hrefused⟩ := hend _ N (Nat.le_refl N) rfl
    exact ⟨m, left m, hne m, hleave m, hrefused⟩
  intro length
  induction length using Nat.strongRecOn with
  | _ length ih =>
    intro n hn hlength
    by_cases hall : ∀ k ≥ n, (rounds k).isRefusal = true
    · exact ⟨n, hall⟩
    simp only [not_forall, Bool.not_eq_true] at hall
    obtain ⟨k, hk, hother⟩ := hall
    have hless : (left (k + 1)).length < (left k).length := by
      rcases eq_or_length_lt_of_leave (hne k) (hstep k) with ⟨htakes, -⟩ | ⟨-, hless⟩
      · rw [isRefusal_of_leave (hlate k (Nat.le_trans hn hk)) htakes (hstep k)] at hother
        cases hother
      · exact hless
    have hbefore := hfewer n k hk
    exact ih _ (by omega) (k + 1) (by omega) rfl

end Round

/-! ## What a transfer leaves of the flushes -/

namespace Channel

theorem flushes_write (c : Channel) (bytes : Bytes) : (c.write bytes).2.flushes = c.flushes := by
  unfold write
  split <;> rfl

theorem flushes_offer (c : Channel) (role : ChannelRole) (bytes : Bytes) :
    (c.offer role bytes).2.flushes = c.flushes := by
  refine offer_induct (motive := fun c _ r => r.2.flushes = c.flushes) (fun c => rfl) ?_ ?_ c bytes
  · exact fun c bytes e _ _ => flushes_write c bytes
  · exact fun c bytes left _ _ ih => ih.trans (flushes_write c bytes)

theorem result_flushWhile {c d : Channel} (makes : IoError → Bool) (h : c.flushes = d.flushes) :
    (c.flushWhile makes).1 = (d.flushWhile makes).1 := by
  simp only [flushWhile, flush, h]
  rcases d.flushes.dropWhile makes with _ | ⟨e, rest⟩ <;> rfl

end Channel

/-! ## Outlets -/

namespace Outlet

open Channel Round

variable {o : Outlet} {role : ChannelRole} {timeout : Duration} {deadline clock : Instant}
  {bytes left : Bytes} {rounds : List Round} {flushes : List IoError} {stream : Nat → Round}

def facing (o : Outlet) (rounds : List Round) : Outlet :=
  { o with
    channel.acceptances := rounds.filterMap Round.answer? ++ o.channel.acceptances
    polls := rounds.map Round.poll ++ o.polls }

/-- The first rounds of a bounded write, begun at some time, decide what it comes to, whatever it
meets after them. -/
def Settles (clock : Instant) (role : ChannelRole) (timeout : Duration) (bytes : Bytes)
    (flushes : List IoError) (rounds : List Round) (result : Except Failure Unit) : Prop :=
  ∀ o : Outlet, o.clock = clock → o.channel.flushes = flushes →
    ((o.facing rounds).writeWithin role timeout bytes).1 = result

/-- A bounded write that meets endlessly many rounds returns: it is settled after some of them. -/
def Returns (clock : Instant) (role : ChannelRole) (timeout : Duration) (bytes : Bytes)
    (stream : Nat → Round) : Prop :=
  ∀ flushes, ∃ n result, Settles clock role timeout bytes flushes (first stream n) result

theorem result_offerTo_nil (o : Outlet) (polls : List RoomPoll) :
    (o.offerTo role timeout deadline [] polls).1 = .ok () := by
  cases polls <;> simp [offerTo]

theorem flushes_offerTo (o : Outlet) (bytes : Bytes) (polls : List RoomPoll) :
    (o.offerTo role timeout deadline bytes polls).2.channel.flushes = o.channel.flushes := by
  induction polls generalizing o bytes with
  | nil =>
    simp only [offerTo]
    split
    · rfl
    split
    · exact flushes_offer _ _ _
    · rfl
  | cons poll rest ih =>
    simp only [offerTo]
    split
    · rfl
    cases poll with
    | failed e => rfl
    | idle clock =>
      simp only
      split
      · rfl
      · exact ih _ bytes
    | ready clock =>
      have hwrite := flushes_write o.channel bytes
      rcases hafter : afterWrite role bytes (o.channel.write bytes).1 with e | left
      · simpa only [hafter] using hwrite
      · simpa only [hafter] using (ih { o with channel := (o.channel.write bytes).2 } left).trans
          hwrite

theorem result_offerTo_rounds (o : Outlet) (bytes : Bytes) (rounds : List Round)
    (more : List RoomPoll) (later : List Acceptance)
    (hlater : o.channel.acceptances = rounds.filterMap Round.answer? ++ later) :
    ∃ q : Outlet, (o.offerTo role timeout deadline bytes (rounds.map Round.poll ++ more)).1 =
      match leaveAll role timeout deadline bytes rounds with
      | .ok left => (q.offerTo role timeout deadline left more).1
      | .error e => .error e := by
  induction rounds generalizing o bytes with
  | nil => exact ⟨o, rfl⟩
  | cons r rest ih =>
    simp only [List.map_cons, List.cons_append, offerTo, leaveAll]
    split
    · exact ⟨o, (result_offerTo_nil o more).symm⟩
    cases r with
    | failed e => exact ⟨o, rfl⟩
    | idle clock =>
      simp only [poll, leave]
      split
      · exact ⟨o, rfl⟩
      · exact ih (o.refusing (.idle clock)) bytes hlater
    | ready clock answer =>
      have hitems : o.channel.acceptances = answer :: (rest.filterMap Round.answer? ++ later) :=
        hlater
      simp only [poll, leave, write, hitems]
      rcases hafter : afterWrite role bytes (answer.answer bytes) with e | left
      · exact ⟨o, rfl⟩
      · exact ih _ left rfl

theorem offerTo_facing (o : Outlet) (rounds : List Round) (bytes : Bytes) :
    ∃ q : Outlet,
      ((o.facing rounds).offerTo role timeout deadline bytes (o.facing rounds).polls).1 =
      match leaveAll role timeout deadline bytes rounds with
      | .ok left => (q.offerTo role timeout deadline left o.polls).1
      | .error e => .error e :=
  result_offerTo_rounds (o.facing rounds) bytes rounds o.polls o.channel.acceptances rfl

/-! ## What settles a bounded write -/

theorem facing_append (o : Outlet) (front back : List Round) :
    o.facing (front ++ back) = (o.facing back).facing front := by
  simp only [facing, List.filterMap_append, List.map_append, List.append_assoc]

theorem Settles.later {n k : Nat} {result : Except Failure Unit} (hle : n ≤ k)
    (h : Settles clock role timeout bytes flushes (first stream n) result) :
    Settles clock role timeout bytes flushes (first stream k) result := by
  induction hle with
  | refl => exact h
  | @step k _ ih =>
    intro o hclock hflushes
    rw [first_succ, facing_append]
    exact ih (o.facing [stream k]) hclock hflushes

theorem settles_of_error {e : TransportError} (hdeadline : clock.after? timeout = some deadline)
    (h : leaveAll role timeout deadline bytes rounds = .error e) (flushes : List IoError) :
    Settles clock role timeout bytes flushes rounds (.error (.transport e)) := by
  rintro o rfl -
  obtain ⟨q, hoffer⟩ := o.offerTo_facing rounds bytes
  rw [h] at hoffer
  exact congrArg Prod.fst
    (writeWithin_of_error (o := o.facing rounds) hdeadline (Prod.ext hoffer rfl))

theorem settles_of_nil (hdeadline : clock.after? timeout = some deadline)
    (h : leaveAll role timeout deadline bytes rounds = .ok []) (flushes : List IoError) :
    ∃ result, Settles clock role timeout bytes flushes rounds result := by
  refine ⟨(Channel.flushWhile { flushes } IoError.isInterruption).1.mapError .transport, ?_⟩
  rintro o rfl rfl
  obtain ⟨q, hoffer⟩ := o.offerTo_facing rounds bytes
  rw [h] at hoffer
  rw [writeWithin_of_ok (o := o.facing rounds) hdeadline
    (Prod.ext (hoffer.trans (result_offerTo_nil q _)) rfl)]
  exact congrArg (Except.mapError Failure.transport) (result_flushWhile _ (flushes_offerTo _ _ _))

theorem not_settles (hdeadline : clock.after? timeout = some deadline) (hne : left ≠ [])
    (h : leaveAll role timeout deadline bytes rounds = .ok left) (result : Except Failure Unit) :
    ¬ Settles clock role timeout bytes flushes rounds result := by
  intro hsettles
  have hfailed : ∀ e : IoError, result = .error (.transport (.io e)) := by
    intro e
    obtain ⟨q, hoffer⟩ :=
      offerTo_facing { channel := { flushes }, clock, polls := [.failed e] } rounds bytes
    rw [h] at hoffer
    simp only [offerTo, if_neg hne] at hoffer
    rw [← hsettles { channel := { flushes }, clock, polls := [.failed e] } rfl rfl]
    exact congrArg Prod.fst (writeWithin_of_error hdeadline (Prod.ext hoffer rfl))
  cases (hfailed ⟨.interrupted, ""⟩).symm.trans (hfailed ⟨.wouldBlock, ""⟩)

theorem not_returns {n : Nat} (hdeadline : clock.after? timeout = some deadline) (hne : left ≠ [])
    (h : leaveAll role timeout deadline bytes (first stream n) = .ok left)
    (hrefused : ∀ k ≥ n, (stream k).isRefusal = true) :
    ¬ Returns clock role timeout bytes stream := by
  intro hreturns
  obtain ⟨k, result, hsettles⟩ := hreturns []
  rcases Nat.le_total n k with hle | hle
  · exact not_settles hdeadline hne (leaveAll_of_refusals hne h hrefused hle) result hsettles
  · exact not_settles hdeadline hne h result (hsettles.later hle)

/-- Room in every round and no byte taken, with the clock at the deadline all along: the write goes
on for ever. -/
theorem not_returns_of_blocked :
    Instant.start.after? ⟨0, by decide⟩ = some .start ∧
      Round.Late .start (.ready .start (.failed .blocked)) ∧
      ¬ Returns .start .outbound ⟨0, by decide⟩ [1, 5, 4, 0]
        fun _ => .ready .start (.failed .blocked) := by
  have hdeadline : Instant.start.after? ⟨0, by decide⟩ = some .start := rfl
  have hne : [1, 5, 4, 0] ≠ ([] : Bytes) := by decide
  exact ⟨hdeadline, rfl, not_returns (n := 0) hdeadline hne rfl fun _ _ => rfl⟩

/-- Once the clock is past the deadline, a bounded write returns unless it comes to a point from
which on it finds room in every round and is refused each time.  While no byte is taken past the
deadline, its first round that is no such refusal ends it with an error. -/
theorem returns_iff_of_late (role : ChannelRole) (bytes : Bytes)
    (hdeadline : clock.after? timeout = some deadline)
    (hlate : ∃ N, ∀ n ≥ N, (stream n).Late deadline) :
    (Returns clock role timeout bytes stream ↔
      ¬ ∃ n left, left ≠ [] ∧ leaveAll role timeout deadline bytes (first stream n) = .ok left ∧
        ∀ k ≥ n, (stream k).isRefusal = true) ∧
    ∀ n left, left ≠ [] → leaveAll role timeout deadline bytes (first stream n) = .ok left →
      (∀ k ≥ n, (stream k).Late deadline ∧ (stream k).takes = false) →
      ∀ k ≥ n, (stream k).isRefusal = false →
        ∃ e, ∀ flushes, Settles clock role timeout bytes flushes (first stream (k + 1))
          (.error (.transport e)) := by
  refine ⟨⟨?_, ?_⟩, ?_⟩
  · rintro hreturns ⟨n, left, hne, hleave, hrefused⟩
    exact not_returns hdeadline hne hleave hrefused hreturns
  · intro hends flushes
    by_contra hgoes
    refine hends (exists_refusals hlate fun n => ?_)
    -- A write that never settles has bytes left after any number of rounds.
    rcases hleave : leaveAll role timeout deadline bytes (first stream n) with e | left
    · exact absurd ⟨n, _, settles_of_error hdeadline hleave flushes⟩ hgoes
    · refine ⟨left, ?_, rfl⟩
      rintro rfl
      exact hgoes ⟨n, settles_of_nil hdeadline hleave flushes⟩
  · intro n left hne hleave hrounds k hk hother
    obtain ⟨e, herror⟩ := error_of_leaveAll hne hleave hrounds hk hother
    exact ⟨e, settles_of_error hdeadline herror⟩

/-- One refusal, one byte taken, and no room any more. -/
def stalling : Nat → Round
  | 0 => .ready .start (.failed .blocked)
  | 1 => .ready ⟨4, by decide⟩ (.takes 1)
  | _ => .idle ⟨6, by decide⟩

/-- The write of four bytes returns: the third round ends it, with three bytes left. -/
theorem returns_iff_of_late_of_stalling :
    Instant.start.after? ⟨5, by decide⟩ = some ⟨5, by decide⟩ ∧
    (∃ N, ∀ n ≥ N, (stalling n).Late ⟨5, by decide⟩) ∧
    Returns .start .outbound ⟨5, by decide⟩ [1, 5, 4, 0] stalling ∧
    ∀ flushes, Settles .start .outbound ⟨5, by decide⟩ [1, 5, 4, 0] flushes (first stalling 3)
      (.error (.transport (.writeTimeout .outbound ⟨5, by decide⟩))) := by
  have hdeadline : Instant.start.after? ⟨5, by decide⟩ = some ⟨5, by decide⟩ := rfl
  have hidle : ∀ n ≥ 2, stalling n = .idle ⟨6, by decide⟩ := by
    intro n hn
    obtain ⟨k, rfl⟩ := Nat.exists_eq_add_of_le' hn
    rfl
  have hlate : ∀ n ≥ 2, (stalling n).Late ⟨5, by decide⟩ := fun n hn => hidle n hn ▸ rfl
  obtain ⟨hreturns, hends⟩ :=
    returns_iff_of_late .outbound [1, 5, 4, 0] hdeadline ⟨2, hlate⟩
  refine ⟨hdeadline, ⟨2, hlate⟩, hreturns.2 ?_, ?_⟩
  · rintro ⟨n, left, -, -, hrefused⟩
    have hrefusal := hrefused (n + 2) (Nat.le_add_right n 2)
    rw [hidle (n + 2) (Nat.le_add_left 2 n)] at hrefusal
    cases hrefusal
  · obtain ⟨e, hsettles⟩ := hends 2 [5, 4, 0] (by decide) rfl
      (fun k hk => ⟨hlate k hk, hidle k hk ▸ rfl⟩) 2 (Nat.le_refl 2) rfl
    have herror : .error (.transport (.writeTimeout .outbound ⟨5, by decide⟩)) =
      (.error (.transport e) : Except Failure Unit) := hsettles [] {} rfl rfl
    cases herror
    exact hsettles

end Outlet

end SpiBridge
