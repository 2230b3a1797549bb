import SpiBridge.Proofs.Intake
import SpiBridge.Proofs.Progress
/-!
# What a failing transfer shows

A transfer makes some calls again and gives up after others.  Main statements: a read, a
write and the reading of a whole frame fail if and only if one of the calls that they made
is fatal, and a bounded write also if a poll for room failed or came too late.
-/

namespace SpiBridge

namespace Call

/-- A call that fails its channel, if flushes are made again after some kinds of failure. -/
def isFatal (again : IoKind → Bool) : Call → Bool
  | read _ (.ok _) | flush (.ok ()) => false
  | write _ (.ok count) => count == 0
  | read _ (.error kind) | write _ (.error kind) => !kind.isTransient
  | flush (.error kind) => !again kind

def findsEnd : Call → Bool
  | read room (.ok bytes) => room != 0 && bytes.isEmpty
  | _ => false

end Call

namespace Channel

variable {again : IoKind → Bool} {c q r : Channel} {failed failed' : Prop}

/-- The channel after calls of which one is fatal if and only if they failed as a whole. -/
def Shows (again : IoKind → Bool) (c q : Channel) (failed : Prop) : Prop :=
  ∃ new, q.calls = c.calls ++ new ∧ ((∃ call ∈ new, call.isFatal again = true) ↔ failed)

namespace Shows

theorem refl (again : IoKind → Bool) (c : Channel) : c.Shows again c False :=
  ⟨[], by simp⟩

theorem trans (h : c.Shows again q False) (h' : q.Shows again r failed) :
    c.Shows again r failed := by
  obtain ⟨new, hnew, hcalm⟩ := h
  obtain ⟨new', hnew', hshows⟩ := h'
  refine ⟨new ++ new', by rw [hnew', hnew, List.append_assoc], ?_⟩
  rw [iff_false] at hcalm
  rw [← hshows]
  constructor
  · rintro ⟨call, hmem, hfatal⟩
    rcases List.mem_append.1 hmem with hfront | hback
    · exact absurd ⟨call, hfront, hfatal⟩ hcalm
    · exact ⟨call, hback, hfatal⟩
  · rintro ⟨call, hmem, hfatal⟩
    exact ⟨call, List.mem_append_right _ hmem, hfatal⟩

theorem congr (h : c.Shows again q failed) (hiff : failed ↔ failed') : c.Shows again q failed' := by
  obtain ⟨new, hnew, hshows⟩ := h
  exact ⟨new, hnew, hshows.trans hiff⟩

theorem of_call {call : Call} (h : q.calls = c.calls ++ [call]) :
    c.Shows again q (call.isFatal again = true) :=
  ⟨[call], h, by simp⟩

theorem iff (h : c.Shows again q failed) :
    (∃ call ∈ q.callsSince c, call.isFatal again = true) ↔ failed := by
  obtain ⟨new, hnew, hshows⟩ := h
  rw [callsSince_of_append hnew]
  exact hshows

end Shows

/-! ## Reads -/

theorem exists_mem_iff_last {P : Call → Bool} {room : Nat} {skipped : List Call} {last : Call}
    (hskipped : ∀ call ∈ skipped, call = .read room (.error .interrupted))
    (hnot : P (.read room (.error .interrupted)) = false) :
    (∃ call ∈ skipped ++ [last], P call = true) ↔ P last = true := by
  constructor
  · rintro ⟨call, hmem, hP⟩
    rcases List.mem_append.1 hmem with hfront | hback
    · rw [hskipped call hfront, hnot] at hP
      cases hP
    · rwa [← List.mem_singleton.1 hback]
  · exact fun hP => ⟨last, by simp, hP⟩

theorem shows_readSome {room : Nat} {result : Except TransportError (Option Bytes)}
    (h : c.readSome room = (result, q)) : c.Shows again q (∃ e, result = .error e) := by
  obtain ⟨skipped, last, hcalls, hskipped, htells⟩ := exists_last_of_readSome h
  refine ⟨_, hcalls, ?_⟩
  rw [exists_mem_iff_last hskipped rfl]
  cases htells with
  | bytes | blocked => simp [Call.isFatal, IoKind.isTransient]
  | failed hkind => simp [Call.isFatal, hkind]

theorem findsEnd_iff_of_readSome {room : Nat} {result : Except TransportError (Option Bytes)}
    (h : c.readSome room = (result, q)) (hroom : 0 < room) :
    (∃ call ∈ q.callsSince c, call.findsEnd = true) ↔ result = .ok (some []) := by
  obtain ⟨skipped, last, hcalls, hskipped, htells⟩ := exists_last_of_readSome h
  rw [callsSince_of_append hcalls, exists_mem_iff_last hskipped rfl]
  cases htells with
  | bytes bytes => simp [Call.findsEnd, Nat.ne_of_gt hroom]
  | blocked | failed => simp [Call.findsEnd]

theorem room_of_readSome {room : Nat} {result : Except TransportError (Option Bytes)}
    (h : c.readSome room = (result, q)) :
    ∀ call ∈ q.callsSince c, ∃ got, call = .read room got := by
  obtain ⟨skipped, last, hcalls, hskipped, -⟩ := exists_last_of_readSome h
  rw [callsSince_of_append hcalls]
  intro call hmem
  rcases List.mem_append.1 hmem with hfront | hback
  · exact ⟨_, hskipped call hfront⟩
  · exact ⟨last, List.mem_singleton.1 hback⟩

/-! ## Writes -/

theorem shows_write {bytes : Bytes} {answer : Except IoError Nat} (role : ChannelRole)
    (h : c.write bytes = (answer, q)) :
    c.Shows again q (∃ e, afterWrite role bytes answer = .error e) := by
  refine (Shows.of_call (calls_of_write h).1).congr ?_
  rcases answer with e | _ | count
  · have hsame : e.kind.isTransient = e.isTransient := rfl
    cases htransient : e.isTransient <;> simp [Call.isFatal, afterWrite, hsame, htransient]
  · simp [Call.isFatal, afterWrite]
  · simp [Call.isFatal, afterWrite]

theorem shows_offerTo {role : ChannelRole} {bytes : Bytes} {items : List Acceptance}
    {result : Except TransportError Unit} (h : c.offerTo role bytes items = (result, q)) :
    c.Shows again q (∃ e, result = .error e) := by
  induction items generalizing c bytes with
  | nil =>
    simp only [offerTo] at h
    split at h
    · obtain ⟨rfl, rfl⟩ := Prod.mk.inj h
      exact (Shows.refl again _).congr (by simp)
    · rcases hwrite : write { c with acceptances := [] } bytes with ⟨answer, r⟩
      rw [hwrite] at h
      obtain ⟨rfl, rfl⟩ := Prod.mk.inj h
      have hshows : Shows again { c with acceptances := [] } r _ := shows_write role hwrite
      refine Shows.congr hshows ?_
      cases afterWrite role bytes answer <;> simp [Except.map]
  | cons item rest ih =>
    simp only [offerTo] at h
    split at h
    · obtain ⟨rfl, rfl⟩ := Prod.mk.inj h
      exact (Shows.refl again _).congr (by simp)
    · rcases hwrite : write { c with acceptances := item :: rest } bytes with ⟨answer, r⟩
      rw [hwrite] at h
      have hshows : Shows again { c with acceptances := item :: rest } r _ :=
        shows_write role hwrite
      rcases hafter : afterWrite role bytes answer with e | left <;> rw [hafter] at h hshows
      · obtain ⟨rfl, rfl⟩ := Prod.mk.inj h
        exact hshows.congr (by simp)
      · exact (hshows.congr (by simp)).trans (ih h)

theorem shows_flushWhile {makes : IoError → Bool} {result : Except TransportError Unit}
    (hagain : ∀ e, makes e = again e.kind) (h : c.flushWhile makes = (result, q)) :
    c.Shows again q (∃ e, result = .error e) := by
  simp only [flushWhile] at h
  have hpast : c.Shows again
      { c with
        flushes := c.flushes.dropWhile makes
        calls := c.calls ++
          (c.flushes.takeWhile makes).map fun (e : IoError) => Call.flush (.error e.kind) }
      False := by
    refine ⟨_, rfl, ?_⟩
    rw [iff_false]
    rintro ⟨call, hmem, hfatal⟩
    obtain ⟨e, he, rfl⟩ := List.mem_map.1 hmem
    have hmakes := List.all_eq_true.1 List.all_takeWhile e he
    rw [hagain] at hmakes
    rw [Call.isFatal, hmakes] at hfatal
    cases hfatal
  have hhead := List.head?_dropWhile_not makes c.flushes
  unfold flush at h
  rcases hleft : c.flushes.dropWhile makes with _ | ⟨e, rest⟩ <;>
    simp only [hleft, Prod.mk.injEq] at h hhead <;> obtain ⟨rfl, rfl⟩ := h
  · exact hpast.trans ((Shows.of_call rfl).congr (by simp [Call.isFatal]))
  · have hnot : again e.kind = false := by simpa [hagain] using hhead
    exact hpast.trans ((Shows.of_call rfl).congr (by simp [Call.isFatal, hnot]))

theorem shows_writeFully {role : ChannelRole} {bytes : Bytes}
    {result : Except TransportError Unit} (h : c.writeFully role bytes = (result, q)) :
    c.Shows IoKind.isTransient q (∃ e, result = .error e) := by
  unfold writeFully at h
  rcases hoffer : c.offer role bytes with ⟨e | _, r⟩ <;> rw [hoffer] at h
  · obtain ⟨rfl, rfl⟩ := Prod.mk.inj h
    exact (shows_offerTo hoffer).congr (by simp)
  · exact ((shows_offerTo hoffer).congr (by simp)).trans (shows_flushWhile (fun _ => rfl) h)

end Channel

theorem Intake.shows_fill (again : IoKind → Bool) (i : Intake) (target : Nat) :
    i.bus.Shows again (i.fill target).2.bus (∃ e, (i.fill target).1 = .error (.transport e)) := by
  fun_induction fill i target with
  | case1 i hless missing wire e hlend => exact (Channel.Shows.refl again _).congr (by simp)
  | case2 i hless missing wire lent hlend e bus hread =>
    exact (Channel.shows_readSome hread).congr (by simp)
  | case3 i hless missing wire lent hlend byte rest bus hread wire' e habsorb =>
    exact (Channel.shows_readSome hread).congr (by simp)
  | case4 i hless missing wire lent hlend byte rest bus hread wire' decoder frame habsorb ih =>
    exact ((Channel.shows_readSome hread).congr (by simp)).trans ih
  | case5 i hless missing wire lent hlend got bus hgot hread =>
    exact (Channel.shows_readSome hread).congr (by simp)
  | case6 i hless => exact (Channel.Shows.refl again _).congr (by simp)

/-! ## Bounded writes -/

namespace Outlet

variable {o q r : Outlet} {deadline : Instant} {failed failed' : Prop}

def refusalsSince (o earlier : Outlet) : List RoomPoll :=
  o.refusals.drop earlier.refusals.length

/-- The outlet after calls and polls, of which a call is fatal or a poll failed or came too late,
if and only if they failed as a whole. -/
def Shows (deadline : Instant) (o q : Outlet) (failed : Prop) : Prop :=
  ∃ calls polls, q.channel.calls = o.channel.calls ++ calls ∧ q.refusals = o.refusals ++ polls ∧
    ((∃ call ∈ calls, call.isFatal (· == .interrupted) = true) ∨
      (∃ poll ∈ polls, ¬ poll.Allows deadline) ↔ failed)

namespace Shows

theorem refl (deadline : Instant) (o : Outlet) : o.Shows deadline o False :=
  ⟨[], [], by simp⟩

theorem trans (h : o.Shows deadline q False) (h' : q.Shows deadline r failed) :
    o.Shows deadline r failed := by
  obtain ⟨calls, polls, hcalls, hpolls, hcalm⟩ := h
  obtain ⟨calls', polls', hcalls', hpolls', hshows⟩ := h'
  refine ⟨calls ++ calls', polls ++ polls', by rw [hcalls', hcalls, List.append_assoc],
    by rw [hpolls', hpolls, List.append_assoc], ?_⟩
  rw [iff_false, not_or] at hcalm
  simp only [List.mem_append, or_and_right, exists_or, hcalm.1, hcalm.2, false_or]
  exact hshows

theorem congr (h : o.Shows deadline q failed) (hiff : failed ↔ failed') :
    o.Shows deadline q failed' := by
  obtain ⟨calls, polls, hcalls, hpolls, hshows⟩ := h
  exact ⟨calls, polls, hcalls, hpolls, hshows.trans hiff⟩

theorem of_channel (h : o.channel.Shows (· == .interrupted) q.channel failed)
    (hsame : q.refusals = o.refusals) : o.Shows deadline q failed := by
  obtain ⟨calls, hcalls, hshows⟩ := h
  exact ⟨calls, [], hcalls, by rw [hsame, List.append_nil], by simpa using hshows⟩

theorem of_refusal (poll : RoomPoll) :
    o.Shows deadline (o.refusing poll) (¬ poll.Allows deadline) :=
  ⟨[], [poll], by simp [refusing], rfl, by simp⟩

theorem iff (h : o.Shows deadline q failed) :
    ((∃ call ∈ q.channel.callsSince o.channel, call.isFatal (· == .interrupted) = true) ∨
      ∃ poll ∈ q.refusalsSince o, ¬ poll.Allows deadline) ↔ failed := by
  obtain ⟨calls, polls, hcalls, hpolls, hshows⟩ := h
  have hsince : q.refusalsSince o = polls := by simp [refusalsSince, hpolls]
  rw [Channel.callsSince_of_append hcalls, hsince]
  exact hshows

end Shows

theorem shows_offerTo {role : ChannelRole} {timeout : Duration} {bytes : Bytes}
    {polls : List RoomPoll} {result : Except TransportError Unit}
    (h : o.offerTo role timeout deadline bytes polls = (result, q)) :
    o.Shows deadline q (∃ e, result = .error e) := by
  induction polls generalizing o bytes with
  | nil =>
    simp only [offerTo] at h
    split at h
    · obtain ⟨rfl, rfl⟩ := Prod.mk.inj h
      exact (Shows.refl deadline o).congr (by simp)
    split at h <;> obtain ⟨rfl, rfl⟩ := Prod.mk.inj h
    · exact .of_channel (Channel.shows_offerTo rfl) rfl
    · exact (Shows.of_refusal (.idle deadline)).congr
        (by simp [RoomPoll.Allows, Instant.reachedBy])
  | cons poll rest ih =>
    simp only [offerTo] at h
    split at h
    · obtain ⟨rfl, rfl⟩ := Prod.mk.inj h
      exact (Shows.refl deadline o).congr (by simp)
    cases poll with
    | failed e =>
      obtain ⟨rfl, rfl⟩ := Prod.mk.inj h
      exact (Shows.of_refusal (.failed e)).congr (by simp [RoomPoll.Allows])
    | idle clock =>
      simp only at h
      split at h
      · rename_i hreached
        obtain ⟨rfl, rfl⟩ := Prod.mk.inj h
        exact (Shows.of_refusal (.idle clock)).congr (by simp [RoomPoll.Allows, hreached])
      · rename_i hearly
        have hrefusal : o.Shows deadline (o.refusing (.idle clock)) False :=
          (Shows.of_refusal (.idle clock)).congr (by simp [RoomPoll.Allows, hearly])
        exact hrefusal.trans (ih h)
    | ready clock =>
      simp only at h
      rcases hwrite : o.channel.write bytes with ⟨answer, channel⟩
      rw [hwrite] at h
      have hshows : o.Shows deadline { o with channel } _ :=
        .of_channel (Channel.shows_write role hwrite) rfl
      rcases hafter : Channel.afterWrite role bytes answer with e | left <;>
        rw [hafter] at h hshows
      · obtain ⟨rfl, rfl⟩ := Prod.mk.inj h
        exact hshows.congr (by simp)
      · exact (hshows.congr (by simp)).trans (ih h)

theorem shows_writeWithin {role : ChannelRole} {timeout : Duration} {bytes : Bytes}
    {result : Except Failure Unit} (h : o.writeWithin role timeout bytes = (result, q)) :
    (o.clock.after? timeout = none ∧ result = .error .clockRange ∧ q = o) ∨
      ∃ deadline, o.clock.after? timeout = some deadline ∧ result ≠ .error .clockRange ∧
        o.Shows deadline q (∃ e, result = .error (.transport e)) := by
  unfold writeWithin at h
  rcases hdeadline : o.clock.after? timeout with _ | deadline <;> rw [hdeadline] at h
  · obtain ⟨rfl, rfl⟩ := Prod.mk.inj h
    exact .inl ⟨rfl, rfl, rfl⟩
  refine .inr ⟨deadline, rfl, ?_⟩
  simp only at h
  rcases hoffer : o.offerTo role timeout deadline bytes o.polls with ⟨e | _, r⟩ <;>
    rw [hoffer] at h
  · obtain ⟨rfl, rfl⟩ := Prod.mk.inj h
    exact ⟨by simp, (shows_offerTo hoffer).congr (by simp)⟩
  · simp only at h
    rcases hflush : r.channel.flushWhile IoError.isInterruption with ⟨e | _, channel⟩ <;>
      rw [hflush] at h <;> obtain ⟨rfl, rfl⟩ := Prod.mk.inj h <;> refine ⟨by simp, ?_⟩
    all_goals
      have hflushes : r.Shows deadline { r with channel } _ :=
        .of_channel (Channel.shows_flushWhile (fun _ => rfl) hflush) rfl
      exact ((shows_offerTo hoffer).congr (by simp)).trans (hflushes.congr (by simp))

end Outlet

end SpiBridge
