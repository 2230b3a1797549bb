import SpiBridge.Proofs.Faults
/-!
# The calls of a transfer

A transfer writes until all its bytes are taken, and then flushes until that succeeds.  Main
statements: each write offers exactly the bytes that were not yet taken, the flushes come after
the last of them, and the calls show how the transfer ends.  A bounded transfer also ends when a
poll for room fails or comes too late; with room at every poll it makes the calls of an unbounded
one, up to the first flush that would block.
-/

namespace SpiBridge

namespace Channel

variable {again : IoKind → Bool} {role : ChannelRole} {c q : Channel} {bytes mid left : Bytes}
  {front calls back : List Call} {call : Call} {cut : Option TransportError}
  {result : Except TransportError Unit}

/-! ## One write after the other -/

theorem nil_of_lastAnswer (hne : bytes ≠ [])
    (h : afterWrite role bytes (c.lastAnswer bytes) = .ok left) : left = [] := by
  have hsplit := sentOf_append_of_afterWrite h
  rw [sentOf_lastAnswer hne h] at hsplit
  exact List.append_right_eq_self.1 hsplit

theorem offer_eq (c : Channel) (role : ChannelRole) (bytes : Bytes) :
    c.offer role bytes =
      if bytes = [] then (.ok (), c)
      else match afterWrite role bytes (c.write bytes).1 with
        | .ok left => (c.write bytes).2.offer role left
        | .error e => (.error e, (c.write bytes).2) := by
  obtain ⟨arrivals, drained, acceptances, deserted, flushes, calls⟩ := c
  cases acceptances with
  | nil =>
    simp only [offer, offerTo, write]
    split
    · rfl
    · rename_i hne
      rcases hafter : afterWrite role bytes
        (lastAnswer ⟨arrivals, drained, [], deserted, flushes, calls⟩ bytes) with e | left
      · rfl
      · rw [nil_of_lastAnswer hne hafter]
        rfl
  | cons item rest => rfl

/-- To prove something of an offer: it is done, or its first write ends it, or that write leaves
something to offer. -/
theorem offer_induct {motive : Channel → Bytes → Except TransportError Unit × Channel → Prop}
    (done : ∀ c, motive c [] (.ok (), c))
    (ended : ∀ c bytes e, bytes ≠ [] → afterWrite role bytes (c.write bytes).1 = .error e →
      motive c bytes (.error e, (c.write bytes).2))
    (goes : ∀ c bytes left, bytes ≠ [] → afterWrite role bytes (c.write bytes).1 = .ok left →
      motive (c.write bytes).2 left ((c.write bytes).2.offer role left) →
      motive c bytes ((c.write bytes).2.offer role left))
    (c : Channel) (bytes : Bytes) : motive c bytes (c.offer role bytes) := by
  generalize hitems : c.acceptances = items
  induction items generalizing c bytes with
  | nil =>
    rw [offer_eq]
    split
    · rename_i hbytes
      exact hbytes ▸ done c
    rename_i hne
    rcases hafter : afterWrite role bytes (c.write bytes).1 with e | left
    · exact ended c bytes e hne hafter
    · refine goes c bytes left hne hafter ?_
      have hwrite : (c.write bytes).1 = c.lastAnswer bytes := by rw [write, hitems]
      rw [hwrite] at hafter
      rw [nil_of_lastAnswer hne hafter, offer_eq, if_pos rfl]
      exact done _
  | cons item rest ih =>
    rw [offer_eq]
    split
    · rename_i hbytes
      exact hbytes ▸ done c
    rename_i hne
    rcases hafter : afterWrite role bytes (c.write bytes).1 with e | left
    · exact ended c bytes e hne hafter
    · exact goes c bytes left hne hafter (ih _ _ (by rw [write, hitems]; rfl))

/-! ## The calls that a transfer can make -/

inductive Goes (again : IoKind → Bool) : Bytes → Call → Bytes → Prop
  | took {bytes : Bytes} {count : Nat} (hne : bytes ≠ []) (hcount : 0 < count) :
      Goes again bytes (.write bytes (.ok count)) (bytes.drop count)
  | refused {bytes : Bytes} {kind : IoKind} (hne : bytes ≠ []) (hkind : kind.isTransient = true) :
      Goes again bytes (.write bytes (.error kind)) bytes
  | unflushed {kind : IoKind} (hkind : again kind = true) :
      Goes again [] (.flush (.error kind)) []

inductive Leaves (again : IoKind → Bool) : Bytes → List Call → Bytes → Prop
  | none (bytes : Bytes) : Leaves again bytes [] bytes
  | call {bytes mid left : Bytes} {call : Call} {calls : List Call}
      (hfirst : Goes again bytes call mid) (hrest : Leaves again mid calls left) :
      Leaves again bytes (call :: calls) left

inductive Ends (again : IoKind → Bool) (role : ChannelRole) :
    Bytes → Call → Except TransportError Unit → Prop
  | closed {bytes : Bytes} (hne : bytes ≠ []) :
      Ends again role bytes (.write bytes (.ok 0)) (.error (.closed role))
  | broken {bytes : Bytes} {e : IoError} (hne : bytes ≠ []) (hkind : e.kind.isTransient = false) :
      Ends again role bytes (.write bytes (.error e.kind)) (.error (.io e))
  | flushed : Ends again role [] (.flush (.ok ())) (.ok ())
  | unflushed {e : IoError} (hkind : again e.kind = false) :
      Ends again role [] (.flush (.error e.kind)) (.error (.io e))

/-- All calls of a transfer: the last one ends it, unless something cuts it off before that. -/
inductive Transfers (again : IoKind → Bool) (role : ChannelRole) (bytes : Bytes) :
    List Call → Option TransportError → Except TransportError Unit → Prop
  | ended {left : Bytes} {calls : List Call} {call : Call} {result : Except TransportError Unit}
      (hcalls : Leaves again bytes calls left) (hlast : Ends again role left call result) :
      Transfers again role bytes (calls ++ [call]) none result
  | cutOff {left : Bytes} {calls : List Call} {e : TransportError}
      (hcalls : Leaves again bytes calls left) (hne : left ≠ []) :
      Transfers again role bytes calls (some e) (.error e)

theorem Goes.delivered (h : Goes again bytes call left) : call.delivered ++ left = bytes := by
  cases h <;> simp [Call.delivered]

theorem Goes.not_isFatal (h : Goes again bytes call left) : call.isFatal again = false := by
  cases h with
  | took hne hcount => simpa [Call.isFatal] using Nat.ne_of_gt hcount
  | refused hne hkind | unflushed hkind => simp [Call.isFatal, hkind]

namespace Leaves

theorem delivered (h : Leaves again bytes calls left) :
    calls.flatMap Call.delivered ++ left = bytes := by
  induction h with
  | none bytes => rfl
  | call hfirst hrest ih => rw [List.flatMap_cons, List.append_assoc, ih, hfirst.delivered]

theorem append (h : Leaves again bytes front mid) (h' : Leaves again mid calls left) :
    Leaves again bytes (front ++ calls) left := by
  induction h with
  | none bytes => exact h'
  | call hfirst hrest ih => exact .call hfirst (ih h')

theorem split (h : Leaves again bytes (front ++ call :: back) left) :
    ∃ mid next, Leaves again bytes front mid ∧ Goes again mid call next ∧
      Leaves again next back left := by
  induction front generalizing bytes with
  | nil =>
    cases h with
    | call hfirst hrest => exact ⟨bytes, _, .none bytes, hfirst, hrest⟩
  | cons head front ih =>
    cases h with
    | call hfirst hrest =>
      obtain ⟨mid, next, hfront, hcall, hback⟩ := ih hrest
      exact ⟨mid, next, .call hfirst hfront, hcall, hback⟩

end Leaves

namespace Transfers

theorem prepend (h : Transfers again role mid calls cut result)
    (hfront : Leaves again bytes front mid) :
    Transfers again role bytes (front ++ calls) cut result := by
  cases h with
  | ended hcalls hlast =>
    rw [← List.append_assoc]
    exact .ended (hfront.append hcalls) hlast
  | cutOff hcalls hne => exact .cutOff (hfront.append hcalls) hne

theorem split (h : Transfers again role bytes (front ++ call :: back) cut result) :
    ∃ mid, Leaves again bytes front mid ∧
      ((∃ next, Goes again mid call next) ∨
        (back = [] ∧ cut = none ∧ Ends again role mid call result)) := by
  generalize hcalls : front ++ call :: back = all at h
  cases h with
  | @ended left calls last result hleaves hlast =>
    rcases List.eq_nil_or_concat back with rfl | ⟨back, final, rfl⟩
    · obtain ⟨rfl, hcall⟩ := List.append_inj' hcalls rfl
      obtain rfl := List.singleton_inj.1 hcall
      exact ⟨left, hleaves, .inr ⟨rfl, rfl, hlast⟩⟩
    · have hfront : (front ++ call :: back) ++ [final] = calls ++ [last] := by
        simpa using hcalls
      obtain ⟨rfl, -⟩ := List.append_inj' hfront rfl
      obtain ⟨mid, next, hbefore, hcall, -⟩ := hleaves.split
      exact ⟨mid, hbefore, .inl ⟨next, hcall⟩⟩
  | cutOff hleaves hne =>
    subst hcalls
    obtain ⟨mid, next, hfront, hcall, -⟩ := hleaves.split
    exact ⟨mid, hfront, .inl ⟨next, hcall⟩⟩

end Transfers

end Channel

/-! ## What the calls show -/

def Call.failure? : Call → Option IoKind
  | read _ (.error kind) | write _ (.error kind) | flush (.error kind) => some kind
  | read _ (.ok _) | write _ (.ok _) | flush (.ok _) => none

namespace Channel

variable {again : IoKind → Bool} {role : ChannelRole} {c q : Channel} {bytes mid left : Bytes}
  {front calls back : List Call} {call : Call} {cut : Option TransportError}
  {result : Except TransportError Unit}

/-- The calls of a transfer of some bytes, which something may have cut off: what each of them is
for, and how they show what the transfer came to. -/
structure Conveys (again : IoKind → Bool) (role : ChannelRole) (bytes : Bytes) (calls : List Call)
    (cut : Option TransportError) (result : Except TransportError Unit) : Prop where
  write : ∀ front offered answer back, calls = front ++ .write offered answer :: back →
    front.flatMap Call.delivered ++ offered = bytes ∧ offered ≠ []
  flush : ∀ front answer back, calls = front ++ .flush answer :: back →
    front.flatMap Call.delivered = bytes
  not_isRead : ∀ call ∈ calls, call.isRead = false
  isPrefix : calls.flatMap Call.delivered <+: bytes
  ok_iff : result = .ok () ↔
    calls.flatMap Call.delivered = bytes ∧ Call.flush (.ok ()) ∈ calls
  closed_iff : result = .error (.closed role) ↔ ∃ offered, Call.write offered (.ok 0) ∈ calls
  io_iff : (∃ e, result = .error (.io e)) ↔
    (∃ call ∈ calls, call.isFatal again = true ∧ call.failure?.isSome = true) ∨
      ∃ e, cut = some (.io e)
  first : ∀ front call back, calls = front ++ call :: back → call.isFatal again = true →
    back = [] ∧ cut = none ∧ ∀ e, result = .error (.io e) → call.failure? = some e.kind
  cut : ∀ e, cut = some e → result = .error e ∧ calls.flatMap Call.delivered ≠ bytes

theorem Ends.delivered (h : Ends again role left call result) : call.delivered = [] := by
  cases h <;> rfl

namespace Transfers

theorem ne_nil (h : Transfers again role bytes calls none result) : calls ≠ [] := by
  cases h with
  | ended => simp

theorem mem (h : Transfers again role bytes calls cut result) (hmem : call ∈ calls) :
    (∃ mid next, Goes again mid call next) ∨ ∃ mid, Ends again role mid call result := by
  obtain ⟨front, back, rfl⟩ := List.append_of_mem hmem
  obtain ⟨mid, -, ⟨next, hgoes⟩ | ⟨-, -, hends⟩⟩ := h.split
  · exact .inl ⟨mid, next, hgoes⟩
  · exact .inr ⟨mid, hends⟩

theorem delivered (h : Transfers again role bytes calls cut result) :
    ∃ left, calls.flatMap Call.delivered ++ left = bytes ∧ (result = .ok () → left = []) ∧
      (∀ e, cut = some e → left ≠ []) := by
  cases h with
  | @ended left calls call result hcalls hlast =>
    refine ⟨left, ?_, ?_, by simp⟩
    · rw [List.flatMap_append, List.flatMap_singleton, hlast.delivered, List.append_nil,
        hcalls.delivered]
    · rintro rfl
      cases hlast
      rfl
  | cutOff hcalls hne => exact ⟨_, hcalls.delivered, by simp, fun _ _ => hne⟩

theorem mem_flush_iff (h : Transfers again role bytes calls cut result) :
    Call.flush (.ok ()) ∈ calls ↔ result = .ok () := by
  constructor
  · intro hmem
    rcases h.mem hmem with ⟨mid, next, hgoes⟩ | ⟨mid, hends⟩
    · cases hgoes
    · cases hends
      rfl
  · rintro rfl
    cases h with
    | ended hcalls hlast =>
      cases hlast
      simp

theorem mem_write_iff (h : Transfers again role bytes calls cut result)
    (hcut : cut ≠ some (.closed role)) :
    (∃ offered, Call.write offered (.ok 0) ∈ calls) ↔ result = .error (.closed role) := by
  constructor
  · rintro ⟨offered, hmem⟩
    rcases h.mem hmem with ⟨mid, next, hgoes⟩ | ⟨mid, hends⟩
    · cases hgoes with
      | took hne hcount => exact absurd hcount (Nat.lt_irrefl 0)
    · cases hends
      rfl
  · rintro rfl
    cases h with
    | ended hcalls hlast =>
      cases hlast
      exact ⟨_, List.mem_append_right _ (List.mem_singleton_self _)⟩
    | cutOff => exact absurd rfl hcut

theorem mem_isFatal_iff (h : Transfers again role bytes calls none result) :
    (∃ call ∈ calls, call.isFatal again = true ∧ call.failure?.isSome = true) ↔
      ∃ e, result = .error (.io e) := by
  constructor
  · rintro ⟨call, hmem, hfatal, hfailure⟩
    rcases h.mem hmem with ⟨mid, next, hgoes⟩ | ⟨mid, hends⟩
    · rw [hgoes.not_isFatal] at hfatal
      cases hfatal
    · cases hends with
      | broken | unflushed => exact ⟨_, rfl⟩
      | closed | flushed => cases hfailure
  · rintro ⟨e, rfl⟩
    cases h with
    | @ended _ calls last _ hcalls hlast =>
      refine ⟨last, by simp, ?_⟩
      cases hlast with
      | broken hne hkind | unflushed hkind => simp [Call.isFatal, Call.failure?, hkind]

theorem cut_of_writeTimeout {timeout : Duration}
    (h : Transfers again role bytes calls cut (.error (.writeTimeout role timeout))) :
    cut = some (.writeTimeout role timeout) := by
  cases h with
  | ended hcalls hlast => cases hlast
  | cutOff => rfl

theorem conveys (h : Transfers again role bytes calls cut result)
    (hcut : cut ≠ some (.closed role)) : Conveys again role bytes calls cut result := by
  obtain ⟨left, hdelivered, hok, hleft⟩ := h.delivered
  have hfirst : ∀ front call back, calls = front ++ call :: back → call.isFatal again = true →
      back = [] ∧ cut = none ∧ ∀ e, result = .error (.io e) → call.failure? = some e.kind := by
    rintro front call back rfl hfatal
    obtain ⟨mid, hfront, ⟨next, hgoes⟩ | ⟨hback, hnone, hends⟩⟩ := h.split
    · rw [hgoes.not_isFatal] at hfatal
      cases hfatal
    · refine ⟨hback, hnone, ?_⟩
      rintro e rfl
      cases hends <;> rfl
  refine ⟨?_, ?_, ?_, ⟨left, hdelivered⟩, ?_, (h.mem_write_iff hcut).symm, ?_, hfirst, ?_⟩
  · rintro front offered answer back rfl
    obtain ⟨mid, hfront, ⟨next, hgoes⟩ | ⟨-, -, hends⟩⟩ := h.split
    · cases hgoes <;> exact ⟨hfront.delivered, ‹_›⟩
    · cases hends <;> exact ⟨hfront.delivered, ‹_›⟩
  · rintro front answer back rfl
    obtain ⟨mid, hfront, ⟨next, hgoes⟩ | ⟨-, -, hends⟩⟩ := h.split
    · cases hgoes
      simpa using hfront.delivered
    · cases hends <;> simpa using hfront.delivered
  · intro call hmem
    rcases h.mem hmem with ⟨mid, next, hgoes⟩ | ⟨mid, hends⟩
    · cases hgoes <;> rfl
    · cases hends <;> rfl
  · rw [h.mem_flush_iff]
    refine ⟨fun hresult => ⟨?_, hresult⟩, And.right⟩
    rw [← hdelivered, hok hresult, List.append_nil]
  · cases cut with
    | none => simpa using h.mem_isFatal_iff.symm
    | some e =>
      have hcalm : ¬ ∃ call ∈ calls, call.isFatal again = true ∧
          call.failure?.isSome = true := by
        rintro ⟨call, hmem, hfatal, -⟩
        obtain ⟨front, back, rfl⟩ := List.append_of_mem hmem
        cases (hfirst front call back rfl hfatal).2.1
      cases h with
      | cutOff => simp [hcalm]
  · rintro e rfl
    have hsome := hleft e rfl
    cases h with
    | cutOff =>
      refine ⟨rfl, fun hall => hsome ?_⟩
      rw [hall] at hdelivered
      exact List.append_right_eq_self.1 hdelivered

end Transfers

/-! ## The transfers of a channel -/

inductive Offered (again : IoKind → Bool) (role : ChannelRole) (bytes : Bytes) (calls : List Call) :
    Option TransportError → Except TransportError Unit → Prop
  | done (h : Leaves again bytes calls []) : Offered again role bytes calls none (.ok ())
  | failed {cut : Option TransportError} {e : TransportError}
      (h : Transfers again role bytes calls cut (.error e)) :
      Offered again role bytes calls cut (.error e)

theorem Offered.prepend (h : Offered again role mid calls cut result)
    (hfront : Leaves again bytes front mid) :
    Offered again role bytes (front ++ calls) cut result := by
  cases h with
  | done h => exact .done (hfront.append h)
  | failed h => exact .failed (h.prepend hfront)

theorem calls_write (c : Channel) (bytes : Bytes) :
    (c.write bytes).2.calls = c.calls ++ [.write bytes (resultKind (c.write bytes).1)] :=
  (calls_of_write rfl).1

theorem calls_offer (c : Channel) (role : ChannelRole) (bytes : Bytes) :
    ∃ calls, (c.offer role bytes).2.calls = c.calls ++ calls ∧
      ∀ call ∈ calls, ∃ offered answer, call = .write offered answer := by
  refine offer_induct (motive := fun c bytes r => ∃ calls, r.2.calls = c.calls ++ calls ∧
    ∀ call ∈ calls, ∃ offered answer, call = .write offered answer) ?_ ?_ ?_ c bytes
  · exact fun c => ⟨[], by simp⟩
  · exact fun c bytes e hne hafter => ⟨_, calls_write c bytes, by simp⟩
  · rintro c bytes left hne hafter ⟨calls, hcalls, hwrites⟩
    refine ⟨_, by rw [hcalls, calls_write, List.append_assoc], ?_⟩
    simpa using hwrites

theorem goes_of_afterWrite {answer : Except IoError Nat} (hne : bytes ≠ [])
    (h : afterWrite role bytes answer = .ok left) :
    Goes again bytes (.write bytes (resultKind answer)) left := by
  rcases answer with e | _ | count
  · simp only [afterWrite] at h
    split at h
    · rename_i hkind
      cases h
      exact .refused hne hkind
    · cases h
  · cases h
  · cases h
    exact .took hne (Nat.succ_pos count)

theorem ends_of_afterWrite {answer : Except IoError Nat} {e : TransportError} (hne : bytes ≠ [])
    (h : afterWrite role bytes answer = .error e) :
    Ends again role bytes (.write bytes (resultKind answer)) (.error e) := by
  rcases answer with e | _ | count
  · simp only [afterWrite] at h
    split at h
    · cases h
    · rename_i hkind
      cases h
      exact .broken hne (Bool.eq_false_iff.2 hkind)
  · cases h
    exact .closed hne
  · cases h

theorem offered_offer (again : IoKind → Bool) (c : Channel) (role : ChannelRole) (bytes : Bytes) :
    ∃ calls, (c.offer role bytes).2.calls = c.calls ++ calls ∧
      Offered again role bytes calls none (c.offer role bytes).1 := by
  refine offer_induct (motive := fun c bytes r => ∃ calls, r.2.calls = c.calls ++ calls ∧
    Offered again role bytes calls none r.1) ?_ ?_ ?_ c bytes
  · exact fun c => ⟨[], (List.append_nil _).symm, .done (.none [])⟩
  · intro c bytes e hne hafter
    exact ⟨_, calls_write c bytes,
      .failed (.ended (.none bytes) (ends_of_afterWrite hne hafter))⟩
  · rintro c bytes left hne hafter ⟨calls, hcalls, hoffered⟩
    refine ⟨_, ?_, hoffered.prepend (.call (goes_of_afterWrite hne hafter) (.none left))⟩
    rw [hcalls, calls_write, List.append_assoc]

theorem flushWhile_eq (c : Channel) (makes : IoError → Bool) :
    c.flushWhile makes =
      match c.flushes with
      | [] => (.ok (), c.logged (.flush (.ok ())))
      | e :: rest =>
        let q := { c with flushes := rest }.logged (.flush (.error e.kind))
        if makes e then q.flushWhile makes else (.error (.io e), q) := by
  obtain ⟨arrivals, drained, acceptances, deserted, flushes, calls⟩ := c
  rcases flushes with _ | ⟨e, rest⟩
  · simp [flushWhile, flush]
  · cases hagain : makes e
    · simp [flushWhile, flush, hagain]
    · simp [flushWhile, logged, hagain]

theorem transfers_flushWhile (again : IoKind → Bool) (makes : IoError → Bool)
    (hagain : ∀ e, makes e = again e.kind) (c : Channel) (role : ChannelRole) :
    ∃ calls, (c.flushWhile makes).2.calls = c.calls ++ calls ∧
      Transfers again role [] calls none (c.flushWhile makes).1 := by
  generalize hflushes : c.flushes = errors
  induction errors generalizing c with
  | nil =>
    rw [flushWhile_eq, hflushes]
    exact ⟨_, rfl, .ended (.none []) .flushed⟩
  | cons e rest ih =>
    rw [flushWhile_eq, hflushes]
    simp only [hagain]
    split
    · rename_i hkind
      obtain ⟨calls, hcalls, htransfers⟩ :=
        ih ({ c with flushes := rest }.logged (.flush (.error e.kind))) rfl
      refine ⟨.flush (.error e.kind) :: calls, ?_,
        htransfers.prepend (.call (.unflushed hkind) (.none []))⟩
      rw [hcalls]
      simp [logged]
    · rename_i hkind
      exact ⟨_, rfl, .ended (.none []) (.unflushed (Bool.eq_false_iff.2 hkind))⟩

theorem Offered.flushed {flushes : List Call} (h : Offered again role bytes calls cut (.ok ()))
    (hflushes : Transfers again role [] flushes none result) :
    Transfers again role bytes (calls ++ flushes) cut result := by
  cases h with
  | done h => exact hflushes.prepend h

theorem Offered.transfers {e : TransportError} (h : Offered again role bytes calls cut (.error e)) :
    Transfers again role bytes calls cut (.error e) := by
  cases h with
  | failed h => exact h

theorem writeFully_of_error {e : TransportError} (hoffer : c.offer role bytes = (.error e, q)) :
    c.writeFully role bytes = (.error e, q) := by
  rw [writeFully, hoffer]

theorem writeFully_of_ok (hoffer : c.offer role bytes = (.ok (), q)) :
    c.writeFully role bytes = q.flushWhile IoError.isTransient := by
  rw [writeFully, hoffer]

theorem transfers_writeFully (c : Channel) (role : ChannelRole) (bytes : Bytes) :
    ∃ calls, (c.writeFully role bytes).2.calls = c.calls ++ calls ∧
      Transfers IoKind.isTransient role bytes calls none (c.writeFully role bytes).1 := by
  obtain ⟨calls, hcalls, hoffered⟩ := offered_offer IoKind.isTransient c role bytes
  rcases hoffer : c.offer role bytes with ⟨e | _, q⟩ <;> rw [hoffer] at hcalls hoffered
  · rw [writeFully_of_error hoffer]
    exact ⟨calls, hcalls, hoffered.transfers⟩
  · obtain ⟨flushes, hflushes, htransfers⟩ :=
      transfers_flushWhile IoKind.isTransient IoError.isTransient (fun _ => rfl) q role
    rw [writeFully_of_ok hoffer]
    refine ⟨calls ++ flushes, ?_, hoffered.flushed htransfers⟩
    rw [hflushes, hcalls, List.append_assoc]

end Channel

/-! ## The transfers of an outlet -/

def RoomPoll.verdict? (role : ChannelRole) (timeout : Duration) (deadline : Instant) :
    RoomPoll → Option TransportError
  | .ready _ => none
  | .idle clock => if deadline.reachedBy clock then some (.writeTimeout role timeout) else none
  | .failed e => some (.io e)

namespace Outlet

open Channel

variable {o q : Outlet} {role : ChannelRole} {timeout : Duration} {deadline : Instant}
  {bytes : Bytes}

def cutBy (role : ChannelRole) (timeout : Duration) (deadline : Instant) (refused : List RoomPoll) :
    Option TransportError :=
  refused.findSome? (RoomPoll.verdict? role timeout deadline)

theorem offered_offerTo (o : Outlet) (role : ChannelRole) (timeout : Duration) (deadline : Instant)
    (bytes : Bytes) (polls : List RoomPoll) :
    ∃ calls refused,
      (o.offerTo role timeout deadline bytes polls).2.channel.calls = o.channel.calls ++ calls ∧
      (o.offerTo role timeout deadline bytes polls).2.refusals = o.refusals ++ refused ∧
      (∀ poll ∈ refused.dropLast, poll.verdict? role timeout deadline = none) ∧
      Offered (· == .interrupted) role bytes calls
        (cutBy role timeout deadline refused)
        (o.offerTo role timeout deadline bytes polls).1 := by
  induction polls generalizing o bytes with
  | nil =>
    simp only [offerTo]
    split
    · rename_i hnil
      exact ⟨[], [], by simp, by simp, by simp, .done (hnil ▸ .none bytes)⟩
    rename_i hne
    split
    · obtain ⟨calls, hcalls, hoffered⟩ := offered_offer (· == .interrupted) o.channel role bytes
      exact ⟨calls, [], hcalls, by simp, by simp, hoffered⟩
    · refine ⟨[], [.idle deadline], by simp [refusing], rfl, by simp, ?_⟩
      have hverdict : RoomPoll.verdict? role timeout deadline (.idle deadline) =
          some (.writeTimeout role timeout) := by
        simp [RoomPoll.verdict?, Instant.reachedBy]
      rw [cutBy, List.findSome?_singleton, hverdict]
      exact .failed (.cutOff (.none bytes) hne)
  | cons poll rest ih =>
    simp only [offerTo]
    split
    · rename_i hnil
      exact ⟨[], [], by simp, by simp, by simp, .done (hnil ▸ .none bytes)⟩
    rename_i hne
    cases poll with
    | failed e =>
      exact ⟨[], [.failed e], by simp [refusing], rfl, by simp,
        .failed (.cutOff (.none bytes) hne)⟩
    | idle clock =>
      simp only
      split
      · rename_i hreached
        refine ⟨[], [.idle clock], by simp [refusing], rfl, by simp, ?_⟩
        have hverdict : RoomPoll.verdict? role timeout deadline (.idle clock) =
            some (.writeTimeout role timeout) := if_pos hreached
        rw [cutBy, List.findSome?_singleton, hverdict]
        exact .failed (.cutOff (.none bytes) hne)
      · rename_i hearly
        have hverdict : RoomPoll.verdict? role timeout deadline (.idle clock) = none :=
          if_neg hearly
        obtain ⟨calls, refused, hcalls, hrefused, hcalm, hoffered⟩ :=
          ih (o.refusing (.idle clock)) bytes
        refine ⟨calls, .idle clock :: refused, hcalls, ?_, ?_, ?_⟩
        · rw [hrefused]
          simp [refusing]
        · cases refused with
          | nil => simp
          | cons => exact List.forall_mem_cons.2 ⟨hverdict, hcalm⟩
        · rw [cutBy, List.findSome?_cons, hverdict]
          exact hoffered
    | ready clock =>
      have hwrite := calls_write o.channel bytes
      rcases hafter : afterWrite role bytes (o.channel.write bytes).1 with e | left
      · exact ⟨_, [], hwrite, by simp, by simp,
          .failed (.ended (.none bytes) (ends_of_afterWrite hne hafter))⟩
      · obtain ⟨calls, refused, hcalls, hrefused, hcalm, hoffered⟩ :=
          ih { o with channel := (o.channel.write bytes).2 } left
        refine ⟨_, refused, ?_, hrefused, hcalm,
          hoffered.prepend (.call (goes_of_afterWrite hne hafter) (.none left))⟩
        rw [hcalls, hwrite, List.append_assoc]

theorem cutBy_eq_some_iff {refused : List RoomPoll} {e : TransportError}
    (hcalm : ∀ poll ∈ refused.dropLast, poll.verdict? role timeout deadline = none) :
    cutBy role timeout deadline refused = some e ↔
      ∃ poll ∈ refused, poll.verdict? role timeout deadline = some e := by
  rcases List.eq_nil_or_concat refused with rfl | ⟨front, last, rfl⟩
  · simp [cutBy]
  rw [List.concat_eq_append, List.dropLast_concat] at hcalm
  have hfront := List.findSome?_eq_none_iff.2 hcalm
  rw [cutBy, List.concat_eq_append, List.findSome?_append, hfront, Option.none_or,
    List.findSome?_singleton]
  constructor
  · exact fun hlast => ⟨last, by simp, hlast⟩
  · rintro ⟨poll, hmem, hverdict⟩
    rcases List.mem_append.1 hmem with hmem | hmem
    · rw [hcalm poll hmem] at hverdict
      cases hverdict
    · rwa [← List.mem_singleton.1 hmem]

/-- A bounded transfer of some bytes: its calls and the polls that found no room, and how they show
what it came to. -/
structure Conveys (o q : Outlet) (role : ChannelRole) (timeout : Duration) (deadline : Instant)
    (bytes : Bytes) (calls : List Call) (refused : List RoomPoll)
    (result : Except Failure Unit) : Prop where
  calls_eq : q.channel.calls = o.channel.calls ++ calls
  refusals_eq : q.refusals = o.refusals ++ refused
  calm : ∀ poll ∈ refused.dropLast, poll.verdict? role timeout deadline = none
  transfer : ∃ inner, result = inner.mapError .transport ∧
    Channel.Conveys (· == .interrupted) role bytes calls (cutBy role timeout deadline refused) inner
  cut_iff : ∀ e, cutBy role timeout deadline refused = some e ↔
    ∃ poll ∈ refused, poll.verdict? role timeout deadline = some e
  timeout_iff : result = .error (.transport (.writeTimeout role timeout)) ↔
    ∃ clock, .idle clock ∈ refused ∧ deadline.reachedBy clock = true

theorem writeWithin_of_error {e : TransportError}
    (hdeadline : o.clock.after? timeout = some deadline)
    (hoffer : o.offerTo role timeout deadline bytes o.polls = (.error e, q)) :
    o.writeWithin role timeout bytes = (.error (.transport e), q) := by
  rw [writeWithin, hdeadline]
  simp only [hoffer]

theorem writeWithin_of_ok (hdeadline : o.clock.after? timeout = some deadline)
    (hoffer : o.offerTo role timeout deadline bytes o.polls = (.ok (), q)) :
    o.writeWithin role timeout bytes =
      ((q.channel.flushWhile IoError.isInterruption).1.mapError .transport,
        { q with channel := (q.channel.flushWhile IoError.isInterruption).2 }) := by
  rw [writeWithin, hdeadline]
  simp only [hoffer]
  rcases q.channel.flushWhile IoError.isInterruption with ⟨_ | _, channel⟩ <;> rfl

theorem transfers_writeWithin (hdeadline : o.clock.after? timeout = some deadline)
    (role : ChannelRole) (bytes : Bytes) :
    ∃ inner calls refused,
      (o.writeWithin role timeout bytes).1 = inner.mapError .transport ∧
      (o.writeWithin role timeout bytes).2.channel.calls = o.channel.calls ++ calls ∧
      (o.writeWithin role timeout bytes).2.refusals = o.refusals ++ refused ∧
      (∀ poll ∈ refused.dropLast, poll.verdict? role timeout deadline = none) ∧
      Transfers (· == .interrupted) role bytes calls
        (cutBy role timeout deadline refused) inner := by
  obtain ⟨calls, refused, hcalls, hrefused, hcalm, hoffered⟩ :=
    offered_offerTo o role timeout deadline bytes o.polls
  rcases hoffer : o.offerTo role timeout deadline bytes o.polls with ⟨e | _, r⟩ <;>
    rw [hoffer] at hcalls hrefused hoffered
  · rw [writeWithin_of_error hdeadline hoffer]
    exact ⟨.error e, calls, refused, rfl, hcalls, hrefused, hcalm, hoffered.transfers⟩
  · obtain ⟨flushes, hflushes, htransfers⟩ :=
      transfers_flushWhile (· == .interrupted) IoError.isInterruption (fun _ => rfl) r.channel role
    rw [hcalls, List.append_assoc] at hflushes
    rw [writeWithin_of_ok hdeadline hoffer]
    exact ⟨_, _, refused, rfl, hflushes, hrefused, hcalm, hoffered.flushed htransfers⟩

theorem conveys_writeWithin (hdeadline : o.clock.after? timeout = some deadline)
    (role : ChannelRole) (bytes : Bytes) :
    ∃ calls refused, o.Conveys (o.writeWithin role timeout bytes).2 role timeout deadline bytes
      calls refused (o.writeWithin role timeout bytes).1 := by
  obtain ⟨inner, calls, refused, hresult, hcalls, hrefused, hcalm, htransfers⟩ :=
    transfers_writeWithin hdeadline role bytes
  have hcut_iff := fun e => cutBy_eq_some_iff (e := e) hcalm
  have hopen : cutBy role timeout deadline refused ≠ some (.closed role) := by
    rw [Ne, hcut_iff]
    rintro ⟨poll, -, hverdict⟩
    cases poll <;> simp [RoomPoll.verdict?] at hverdict
  have hconveys := htransfers.conveys hopen
  refine ⟨calls, refused, hcalls, hrefused, hcalm, ⟨inner, hresult, hconveys⟩, hcut_iff, ?_⟩
  rw [hresult]
  constructor
  · intro htimeout
    cases inner with
    | ok => cases htimeout
    | error e =>
      cases htimeout
      obtain ⟨poll, hmem, hverdict⟩ := (hcut_iff _).1 htransfers.cut_of_writeTimeout
      cases poll with
      | idle clock => exact ⟨clock, hmem, by simpa [RoomPoll.verdict?] using hverdict⟩
      | ready | failed => simp [RoomPoll.verdict?] at hverdict
  · rintro ⟨clock, hmem, hreached⟩
    have hlapse := (hcut_iff (.writeTimeout role timeout)).2 ⟨.idle clock, hmem, if_pos hreached⟩
    rw [(hconveys.cut _ hlapse).1]
    rfl

end Outlet

/-! ## Transfers with room at every poll -/

namespace Channel

variable {c q : Channel} {calls : List Call} {full bounded : Except TransportError Unit × Channel}

/-- How two transfers compare, one that flushes again after every transient failure and a bounded
one that does so after interruptions alone: they are the same, or the bounded one ends with the
first flush that would block. -/
def Matches (c : Channel) (full bounded : Except TransportError Unit × Channel) : Prop :=
  (bounded = full ∧
    ∃ calls, full.2.calls = c.calls ++ calls ∧ Call.flush (.error .wouldBlock) ∉ calls) ∨
  ∃ e front back, bounded.1 = .error (.io e) ∧ e.isBlock = true ∧
    full.2.calls = c.calls ++ (front ++ .flush (.error .wouldBlock) :: back) ∧
    bounded.2.calls = c.calls ++ (front ++ [.flush (.error .wouldBlock)]) ∧
    Call.flush (.error .wouldBlock) ∉ front ∧ back ≠ []

theorem Matches.after (h : q.Matches full bounded) (hcalls : q.calls = c.calls ++ calls)
    (hcalm : Call.flush (.error .wouldBlock) ∉ calls) : c.Matches full bounded := by
  rcases h with ⟨hsame, new, hnew, hno⟩ |
    ⟨e, front, back, hresult, hblock, hfull, hbounded, hno, hne⟩
  · refine .inl ⟨hsame, calls ++ new, by rw [hnew, hcalls, List.append_assoc], ?_⟩
    exact fun hmem => (List.mem_append.1 hmem).elim hcalm hno
  · refine .inr ⟨e, calls ++ front, back, hresult, hblock, ?_, ?_, ?_, hne⟩
    · rw [hfull, hcalls]
      simp only [List.append_assoc]
    · rw [hbounded, hcalls]
      simp only [List.append_assoc]
    · exact fun hmem => (List.mem_append.1 hmem).elim hcalm hno

theorem matches_flushWhile (c : Channel) :
    c.Matches (c.flushWhile IoError.isTransient) (c.flushWhile IoError.isInterruption) := by
  generalize hflushes : c.flushes = errors
  induction errors generalizing c with
  | nil =>
    rw [flushWhile_eq, flushWhile_eq, hflushes]
    exact .inl ⟨rfl, [.flush (.ok ())], rfl, by simp⟩
  | cons e rest ih =>
    rw [flushWhile_eq, flushWhile_eq, hflushes]
    rcases hinterruption : e.isInterruption with _ | _ <;>
      rcases hblock : e.isBlock with _ | _ <;>
      simp only [IoError.isTransient, hinterruption, hblock, Bool.or_false, Bool.or_true, if_true,
        Bool.false_eq_true, if_false]
    · have hkind : e.kind ≠ .wouldBlock := by simpa [IoError.isBlock] using hblock
      exact .inl ⟨rfl, [.flush (.error e.kind)], rfl, by simpa using hkind.symm⟩
    · have hkind : e.kind = .wouldBlock := beq_iff_eq.1 hblock
      rw [hkind]
      obtain ⟨back, hback, htransfers⟩ :=
        transfers_flushWhile IoKind.isTransient IoError.isTransient (fun _ => rfl)
          ({ c with flushes := rest }.logged (.flush (.error .wouldBlock))) .outbound
      refine .inr ⟨e, [], back, rfl, hblock, ?_, rfl, by simp, ?_⟩
      · rw [hback]
        simp [logged]
      · exact htransfers.ne_nil
    all_goals
      have hkind : e.kind = .interrupted := beq_iff_eq.1 hinterruption
      rw [hkind]
      exact (ih _ rfl).after rfl (by simp)

end Channel

namespace Outlet

open Channel

variable {o : Outlet} {role : ChannelRole} {timeout : Duration} {deadline : Instant}

structure Free (o : Outlet) : Prop where
  writable : o.writable = true
  polls : ∀ poll ∈ o.polls, ∃ clock, poll = .ready clock

theorem offerTo_of_ready {polls : List RoomPoll} (hwritable : o.writable = true)
    (hpolls : ∀ poll ∈ polls, ∃ clock, poll = .ready clock) (role : ChannelRole)
    (timeout : Duration) (deadline : Instant) (bytes : Bytes) :
    ∃ left, o.offerTo role timeout deadline bytes polls =
        ((o.channel.offer role bytes).1,
          { o with channel := (o.channel.offer role bytes).2, polls := left }) ∧
      ∀ poll ∈ left, ∃ clock, poll = .ready clock := by
  induction polls generalizing o bytes with
  | nil =>
    refine ⟨[], ?_, by simp⟩
    simp only [offerTo]
    split
    · rename_i hnil
      rw [hnil, offer_eq, if_pos rfl]
    · simp only [hwritable]
  | cons poll rest ih =>
    obtain ⟨⟨clock, rfl⟩, hrest⟩ := List.forall_mem_cons.1 hpolls
    simp only [offerTo]
    rw [offer_eq]
    split
    · exact ⟨_, rfl, hpolls⟩
    rcases hafter : afterWrite role bytes (o.channel.write bytes).1 with e | left
    · exact ⟨rest, rfl, hrest⟩
    · exact ih (o := { o with channel := (o.channel.write bytes).2 }) hwritable hrest left

theorem matches_writeWithin (hdeadline : o.clock.after? timeout = some deadline) (hfree : o.Free)
    (role : ChannelRole) (bytes : Bytes) :
    ∃ bounded, (o.writeWithin role timeout bytes).1 = bounded.1.mapError .transport ∧
      (o.writeWithin role timeout bytes).2.channel = bounded.2 ∧
      o.channel.Matches (o.channel.writeFully role bytes) bounded := by
  obtain ⟨left, hoffer, -⟩ :=
    offerTo_of_ready hfree.writable hfree.polls role timeout deadline bytes
  obtain ⟨calls, hcalls, hwrites⟩ := calls_offer o.channel role bytes
  have hcalm : Call.flush (.error .wouldBlock) ∉ calls := by
    intro hmem
    obtain ⟨offered, answer, hwrite⟩ := hwrites _ hmem
    cases hwrite
  rcases hsame : o.channel.offer role bytes with ⟨e | _, q⟩ <;> rw [hsame] at hoffer hcalls
  · rw [writeWithin_of_error hdeadline hoffer, writeFully_of_error hsame]
    exact ⟨(.error e, q), rfl, rfl, .inl ⟨rfl, calls, hcalls, hcalm⟩⟩
  · rw [writeWithin_of_ok hdeadline hoffer, writeFully_of_ok hsame]
    exact ⟨_, rfl, rfl, (matches_flushWhile q).after hcalls hcalm⟩

/-- Whatever an outlet and its channel meet: a full write and a bounded one offer in each write what
was not yet taken, flush after the last byte, and end as their calls and polls show; with room at
every poll they make the same calls, but for flushes that would block. -/
theorem conveys_of_deadline (hdeadline : o.clock.after? timeout = some deadline)
    (role : ChannelRole) (bytes : Bytes) :
    (∃ calls, (o.channel.writeFully role bytes).2.calls = o.channel.calls ++ calls ∧
      Channel.Conveys IoKind.isTransient role bytes calls none
        (o.channel.writeFully role bytes).1) ∧
    (∃ calls refused, o.Conveys (o.writeWithin role timeout bytes).2 role timeout deadline bytes
      calls refused (o.writeWithin role timeout bytes).1) ∧
    (o.Free → ∃ bounded, (o.writeWithin role timeout bytes).1 = bounded.1.mapError .transport ∧
      (o.writeWithin role timeout bytes).2.channel = bounded.2 ∧
      o.channel.Matches (o.channel.writeFully role bytes) bounded) := by
  obtain ⟨calls, hcalls, htransfers⟩ := transfers_writeFully o.channel role bytes
  exact ⟨⟨calls, hcalls, htransfers.conveys (by simp)⟩, conveys_writeWithin hdeadline role bytes,
    fun hfree => matches_writeWithin hdeadline hfree role bytes⟩

def reluctant : Outlet :=
  { channel :=
      { acceptances := [.takes 2, .failed ⟨.interrupted, "signal"⟩, .failed .blocked, .takes 9]
        flushes := [⟨.interrupted, "signal"⟩, .blocked] }
    polls := [.ready .start, .ready .start, .ready .start] }

/-- The channel takes the bytes in two pieces; the bounded write ends with the second flush, and the
full one makes a third. -/
theorem conveys_of_deadline_of_reluctant :
    ∃ calls, reluctant.clock.after? ⟨5, by decide⟩ = some ⟨5, by decide⟩ ∧ reluctant.Free ∧
      calls = [.write [1, 5, 4, 0] (.ok 2), .write [4, 0] (.error .interrupted),
        .write [4, 0] (.error .wouldBlock), .write [4, 0] (.ok 2), .flush (.error .interrupted),
        .flush (.error .wouldBlock)] ∧
      Channel.Conveys IoKind.isTransient .outbound [1, 5, 4, 0] (calls ++ [.flush (.ok ())]) none
        (.ok ()) ∧
      reluctant.Conveys (reluctant.writeWithin .outbound ⟨5, by decide⟩ [1, 5, 4, 0]).2 .outbound
        ⟨5, by decide⟩ ⟨5, by decide⟩ [1, 5, 4, 0] calls []
        (.error (.transport (.io .blocked))) ∧
      reluctant.channel.Matches (reluctant.channel.writeFully .outbound [1, 5, 4, 0])
        (.error (.io .blocked),
          (reluctant.writeWithin .outbound ⟨5, by decide⟩ [1, 5, 4, 0]).2.channel) := by
  have hdeadline : reluctant.clock.after? ⟨5, by decide⟩ = some ⟨5, by decide⟩ := rfl
  have hfree : reluctant.Free := ⟨rfl, by simp [reluctant]⟩
  obtain ⟨⟨full, hfull, hconveys⟩, ⟨calls, refused, hbounded⟩, hmatches⟩ :=
    conveys_of_deadline hdeadline .outbound [1, 5, 4, 0]
  obtain ⟨⟨result, channel⟩, hresult, rfl, hsame⟩ := hmatches hfree
  obtain rfl : refused = [] := hbounded.refusals_eq.symm
  obtain rfl : result = .error (.io .blocked) := by
    cases result <;> cases hresult
    rfl
  have hcalls : calls = [.write [1, 5, 4, 0] (.ok 2), .write [4, 0] (.error .interrupted),
      .write [4, 0] (.error .wouldBlock), .write [4, 0] (.ok 2), .flush (.error .interrupted),
      .flush (.error .wouldBlock)] := hbounded.calls_eq.symm
  have hmore : full = calls ++ [.flush (.ok ())] := by
    rw [hcalls]
    exact hfull.symm
  exact ⟨calls, hdeadline, hfree, hcalls, hmore ▸ hconveys, hbounded, hsame⟩

end Outlet

end SpiBridge
