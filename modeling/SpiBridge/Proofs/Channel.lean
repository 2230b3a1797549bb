import SpiBridge.Channel.Transfer
/-!
# What calls change

A read takes bytes off the front of a channel, and a write gives bytes away.
Each of the two touches its own side of the channel alone.  Main statements: what
is read was waiting in that order, all calls of a read but the last were interrupted,
and what a transfer gives away is a prefix of what it was to give away, and all of it
if the transfer succeeds.
-/

namespace SpiBridge

/-- A call that fails in such a way is made again later, or its bytes are offered again. -/
def IoKind.isTransient (kind : IoKind) : Bool :=
  kind == .interrupted || kind == .wouldBlock

namespace Call

def isRead : Call → Bool
  | read .. => true
  | write .. | flush .. => false

def isFruitful : Call → Bool
  | read _ (.ok _) => true
  | _ => false

theorem delivered_of_isRead {call : Call} (h : call.isRead = true) : call.delivered = [] := by
  cases call <;> simp_all [isRead, delivered]

theorem received_of_not_isRead {call : Call} (h : call.isRead = false) : call.received = [] := by
  cases call <;> simp_all [isRead, received]

end Call

namespace Channel

def callsSince (c earlier : Channel) : List Call :=
  c.calls.drop earlier.calls.length

/-- The channel after reads that brought in some bytes: its other side is unchanged. -/
structure ReadsTo (c q : Channel) (bytes : Bytes) : Prop where
  calls : ∃ new, q.calls = c.calls ++ new ∧ (∀ call ∈ new, call.isRead = true) ∧
    new.flatMap Call.received = bytes
  waiting : c.waiting = bytes ++ q.waiting
  acceptances : q.acceptances = c.acceptances
  deserted : q.deserted = c.deserted
  flushes : q.flushes = c.flushes

/-- The channel after writes that gave away some bytes: its other side is unchanged. -/
structure WritesTo (c q : Channel) (bytes : Bytes) : Prop where
  calls : ∃ new, q.calls = c.calls ++ new ∧ (∀ call ∈ new, call.isRead = false) ∧
    new.flatMap Call.delivered = bytes
  arrivals : q.arrivals = c.arrivals
  drained : q.drained = c.drained

theorem callsSince_of_append {c q : Channel} {new : List Call} (h : q.calls = c.calls ++ new) :
    q.callsSince c = new := by
  simp [callsSince, h]

@[simp] theorem callsSince_self (c : Channel) : c.callsSince c = [] := by
  simp [callsSince]

namespace ReadsTo

variable {c q r : Channel} {front back bytes : Bytes}

theorem refl (c : Channel) : c.ReadsTo c [] :=
  ⟨⟨[], by simp⟩, rfl, rfl, rfl, rfl⟩

theorem trans (h : c.ReadsTo q front) (h' : q.ReadsTo r back) : c.ReadsTo r (front ++ back) := by
  obtain ⟨new, hnew, hread, hbytes⟩ := h.calls
  obtain ⟨new', hnew', hread', hbytes'⟩ := h'.calls
  refine ⟨⟨new ++ new', by rw [hnew', hnew, List.append_assoc], ?_, ?_⟩, ?_,
    h'.acceptances.trans h.acceptances, h'.deserted.trans h.deserted,
    h'.flushes.trans h.flushes⟩
  · intro call hcall
    exact (List.mem_append.1 hcall).elim (hread call) (hread' call)
  · rw [List.flatMap_append, hbytes, hbytes']
  · rw [h.waiting, h'.waiting, List.append_assoc]

theorem received_callsSince (h : c.ReadsTo q bytes) :
    (q.callsSince c).flatMap Call.received = bytes := by
  obtain ⟨new, hnew, -, hbytes⟩ := h.calls
  rw [callsSince_of_append hnew, hbytes]

theorem isRead_callsSince (h : c.ReadsTo q bytes) :
    ∀ call ∈ q.callsSince c, call.isRead = true := by
  obtain ⟨new, hnew, hread, -⟩ := h.calls
  rw [callsSince_of_append hnew]
  exact hread

theorem delivered_callsSince (h : c.ReadsTo q bytes) :
    (q.callsSince c).flatMap Call.delivered = [] := by
  obtain ⟨new, hnew, hread, -⟩ := h.calls
  rw [callsSince_of_append hnew, List.flatMap_eq_nil_iff]
  exact fun call hcall => Call.delivered_of_isRead (hread call hcall)

end ReadsTo

namespace WritesTo

variable {c q r : Channel} {front back bytes : Bytes}

theorem refl (c : Channel) : c.WritesTo c [] :=
  ⟨⟨[], by simp⟩, rfl, rfl⟩

theorem trans (h : c.WritesTo q front) (h' : q.WritesTo r back) :
    c.WritesTo r (front ++ back) := by
  obtain ⟨new, hnew, hwrite, hbytes⟩ := h.calls
  obtain ⟨new', hnew', hwrite', hbytes'⟩ := h'.calls
  refine ⟨⟨new ++ new', by rw [hnew', hnew, List.append_assoc], ?_, ?_⟩,
    h'.arrivals.trans h.arrivals, h'.drained.trans h.drained⟩
  · intro call hcall
    exact (List.mem_append.1 hcall).elim (hwrite call) (hwrite' call)
  · rw [List.flatMap_append, hbytes, hbytes']

theorem not_isRead_callsSince (h : c.WritesTo q bytes) :
    ∀ call ∈ q.callsSince c, call.isRead = false := by
  obtain ⟨new, hnew, hwrite, -⟩ := h.calls
  rw [callsSince_of_append hnew]
  exact hwrite

theorem received_callsSince (h : c.WritesTo q bytes) :
    (q.callsSince c).flatMap Call.received = [] :=
  List.flatMap_eq_nil_iff.2 fun call hcall =>
    Call.received_of_not_isRead (h.not_isRead_callsSince call hcall)

theorem delivered_callsSince (h : c.WritesTo q bytes) :
    (q.callsSince c).flatMap Call.delivered = bytes := by
  obtain ⟨new, hnew, -, hbytes⟩ := h.calls
  rw [callsSince_of_append hnew, hbytes]

end WritesTo

/-! ## Reads -/

def bytesOf {ε : Type} : Except ε (Option Bytes) → Bytes
  | .ok (some bytes) => bytes
  | _ => []

theorem waiting_of_read_error {c q : Channel} {room : Nat} {e : IoError}
    (h : c.read room = (.error e, q)) : q.waiting = c.waiting := by
  obtain ⟨arrivals, drained, acceptances, deserted, flushes, calls⟩ := c
  unfold read at h
  split at h
  · simp at h
  · rcases arrivals with _ | ⟨_ | _ | _, rest⟩
    · cases drained <;> simp only [Prod.mk.injEq, reduceCtorEq, false_and] at h
      rw [← h.2]
      rfl
    · simp at h
    · simp at h
    · simp only [Prod.mk.injEq] at h
      rw [← h.2]
      rfl

theorem length_le_of_read {c q : Channel} {room : Nat} {bytes : Bytes}
    (h : c.read room = (.ok bytes, q)) : bytes.length ≤ room := by
  unfold read at h
  grind

theorem calls_of_read {c q : Channel} {room : Nat} {result : Except IoError Bytes}
    (h : c.read room = (result, q)) :
    q.calls = c.calls ++ [.read room (resultKind result)] ∧
      q.acceptances = c.acceptances ∧ q.deserted = c.deserted ∧ q.flushes = c.flushes := by
  unfold read at h
  grind [logged, resultKind_ok, resultKind_error, IoError.blocked, IoError.ofSystem]

theorem readsTo_of_read {c q : Channel} {room : Nat} {result : Except IoError Bytes}
    (h : c.read room = (result, q)) : c.ReadsTo q (bytesOf (result.map some)) := by
  have hcalls := calls_of_read h
  have hwaiting : c.waiting = bytesOf (result.map some) ++ q.waiting := by
    cases result with
    | error e => exact (waiting_of_read_error h).symm
    | ok bytes => exact waiting_of_read h
  refine ⟨⟨_, hcalls.1, by simp [Call.isRead], ?_⟩, hwaiting, hcalls.2.1, hcalls.2.2.1,
    hcalls.2.2.2⟩
  cases result <;> simp [Call.received, Except.map, bytesOf]

theorem readsTo_pastInterruptions (c : Channel) (room : Nat) :
    c.ReadsTo (c.pastInterruptions room) [] := by
  refine ⟨⟨_, rfl, ?_, ?_⟩, (waiting_pastInterruptions c room).symm, rfl, rfl, rfl⟩
  · intro call hcall
    obtain ⟨_, -, rfl⟩ := List.mem_map.1 hcall
    rfl
  · rw [List.flatMap_eq_nil_iff]
    intro call hcall
    obtain ⟨_, -, rfl⟩ := List.mem_map.1 hcall
    rfl

theorem readsTo_of_readSome {c q : Channel} {room : Nat}
    {result : Except TransportError (Option Bytes)} (h : c.readSome room = (result, q)) :
    c.ReadsTo q (bytesOf result) := by
  have hpast : c.ReadsTo (if room = 0 then c else c.pastInterruptions room) [] := by
    split
    · exact .refl c
    · exact readsTo_pastInterruptions c room
  unfold readSome at h
  split at h
  · rename_i bytes r hread
    simp only [Prod.mk.injEq] at h
    obtain ⟨rfl, rfl⟩ := h
    exact hpast.trans (readsTo_of_read hread)
  · rename_i e r hread
    simp only [Prod.mk.injEq] at h
    obtain ⟨rfl, rfl⟩ := h
    have hnone : bytesOf (if e.isBlock then .ok none else .error (TransportError.io e)) = [] := by
      split <;> rfl
    rw [hnone]
    exact hpast.trans (readsTo_of_read hread)

/-- What a read makes of its last call. -/
inductive Tells : Except IoKind Bytes → Except TransportError (Option Bytes) → Prop
  | bytes (bytes : Bytes) : Tells (.ok bytes) (.ok (some bytes))
  | blocked : Tells (.error .wouldBlock) (.ok none)
  | failed {kind : IoKind} {e : TransportError} (h : kind.isTransient = false) :
      Tells (.error kind) (.error e)

theorem error_of_read {c q : Channel} {room : Nat} {e : IoError} (h : c.read room = (.error e, q)) :
    e = .blocked ∨ ∃ rest, c.arrivals = .failed e :: rest := by
  unfold read at h
  split at h
  · cases h
  split at h
  · split at h
    · exact .inl (Except.error.inj (Prod.mk.inj h).1).symm
    · cases h
  · cases h
  · cases h
  · rename_i e' rest harrivals
    have hsame : e' = e := Except.error.inj (Prod.mk.inj h).1
    exact .inr ⟨rest, hsame ▸ harrivals⟩

theorem not_isInterruption_of_read {c q : Channel} {room : Nat} {e : IoError}
    (h : (c.pastInterruptions room).read room = (.error e, q)) : e.isInterruption = false := by
  rcases error_of_read h with rfl | ⟨rest, harrivals⟩
  · rfl
  · have hhead := List.head?_dropWhile_not Arrival.isInterruption c.arrivals
    have hdropped : c.arrivals.dropWhile Arrival.isInterruption = .failed e :: rest := harrivals
    rw [hdropped] at hhead
    simpa [Arrival.isInterruption] using hhead

theorem tells_of_error {e : IoError} (h : e.isInterruption = false) :
    Tells (.error e.kind) (if e.isBlock then .ok none else .error (.io e)) := by
  cases hblock : e.isBlock with
  | true =>
    have hkind : e.kind = .wouldBlock := beq_iff_eq.1 hblock
    rw [hkind]
    exact .blocked
  | false =>
    have hkind : e.isTransient = false := by rw [IoError.isTransient, h, hblock]; rfl
    exact .failed hkind

theorem exists_last_of_readSome {c q : Channel} {room : Nat}
    {result : Except TransportError (Option Bytes)} (h : c.readSome room = (result, q)) :
    ∃ skipped last, q.calls = c.calls ++ (skipped ++ [.read room last]) ∧
      (∀ call ∈ skipped, call = .read room (.error .interrupted)) ∧ Tells last result := by
  unfold readSome at h
  by_cases hroom : room = 0
  · rw [if_pos hroom, read, if_pos hroom] at h
    simp only [Prod.mk.injEq] at h
    obtain ⟨rfl, rfl⟩ := h
    exact ⟨[], .ok [], by simp [logged, hroom], by simp, .bytes []⟩
  rw [if_neg hroom] at h
  have hskipped : ∀ call ∈ (c.arrivals.takeWhile Arrival.isInterruption).map
      fun _ => Call.read room (.error .interrupted), call = .read room (.error .interrupted) := by
    intro call hcall
    obtain ⟨_, -, rfl⟩ := List.mem_map.1 hcall
    rfl
  rcases hread : (c.pastInterruptions room).read room with ⟨result', r⟩
  have hcalls := (calls_of_read hread).1
  have hpast : (c.pastInterruptions room).calls = c.calls ++
      (c.arrivals.takeWhile Arrival.isInterruption).map
        fun _ => Call.read room (.error .interrupted) := rfl
  rw [hpast, List.append_assoc] at hcalls
  rw [hread] at h
  cases result' with
  | error e =>
    obtain ⟨rfl, rfl⟩ := Prod.mk.inj h
    exact ⟨_, _, hcalls, hskipped, tells_of_error (not_isInterruption_of_read hread)⟩
  | ok bytes =>
    obtain ⟨rfl, rfl⟩ := Prod.mk.inj h
    exact ⟨_, _, hcalls, hskipped, .bytes bytes⟩

theorem countP_isFruitful_of_readSome {c q : Channel} {room : Nat}
    {result : Except TransportError (Option Bytes)} (h : c.readSome room = (result, q)) :
    (q.callsSince c).countP Call.isFruitful ≤ 1 := by
  obtain ⟨skipped, last, hcalls, hskipped, -⟩ := exists_last_of_readSome h
  have hvain : skipped.countP Call.isFruitful = 0 := by
    rw [List.countP_eq_zero]
    intro call hmem
    rw [hskipped call hmem]
    simp [Call.isFruitful]
  rw [callsSince_of_append hcalls, List.countP_append, hvain, List.countP_singleton]
  split <;> omega

theorem length_le_of_readSome {c q : Channel} {room : Nat} {bytes : Bytes}
    (h : c.readSome room = (.ok (some bytes), q)) : bytes.length ≤ room := by
  unfold readSome at h
  split at h
  · rename_i hread
    simp only [Prod.mk.injEq, Except.ok.injEq, Option.some.injEq] at h
    exact h.1 ▸ length_le_of_read hread
  · split at h <;> simp at h

/-! ## Writes -/

def sentOf {ε : Type} (bytes : Bytes) : Except ε Nat → Bytes
  | .ok count => bytes.take count
  | .error _ => []

theorem calls_of_write {c q : Channel} {bytes : Bytes} {result : Except IoError Nat}
    (h : c.write bytes = (result, q)) :
    q.calls = c.calls ++ [.write bytes (resultKind result)] ∧
      q.arrivals = c.arrivals ∧ q.drained = c.drained := by
  unfold write at h
  grind [logged]

theorem writesTo_of_write {c q : Channel} {bytes : Bytes} {result : Except IoError Nat}
    (h : c.write bytes = (result, q)) : c.WritesTo q (sentOf bytes result) := by
  have hcalls := calls_of_write h
  refine ⟨⟨_, hcalls.1, by simp [Call.isRead], ?_⟩, hcalls.2.1, hcalls.2.2⟩
  cases result <;> simp [Call.delivered, sentOf]

theorem sentOf_append_of_afterWrite {role : ChannelRole} {bytes left : Bytes}
    {result : Except IoError Nat} (h : afterWrite role bytes result = .ok left) :
    sentOf bytes result ++ left = bytes := by
  cases result with
  | error e =>
    simp only [afterWrite] at h
    split at h <;> simp only [Except.ok.injEq, reduceCtorEq] at h
    simp [sentOf, h]
  | ok count =>
    cases count with
    | zero => simp [afterWrite] at h
    | succ n =>
      simp only [afterWrite, Except.ok.injEq] at h
      simp [sentOf, ← h]

theorem sentOf_isPrefix {ε : Type} (bytes : Bytes) (result : Except ε Nat) :
    sentOf bytes result <+: bytes := by
  cases result with
  | error e => exact List.nil_prefix
  | ok count => exact List.take_prefix count bytes

theorem sentOf_lastAnswer {c : Channel} {role : ChannelRole} {bytes left : Bytes}
    (hne : bytes ≠ []) (h : afterWrite role bytes (c.lastAnswer bytes) = .ok left) :
    sentOf bytes (c.lastAnswer bytes) = bytes := by
  have hlength : bytes.length ≠ 0 := by simpa using hne
  unfold lastAnswer at h ⊢
  split at h
  · simp [afterWrite, IoError.isTransient, IoError.isInterruption, IoError.isBlock,
      IoError.brokenPipe, IoError.ofSystem] at h
  · rename_i hdeserted
    simp [hdeserted, sentOf]

/-- The channel after it was to give away some bytes: a prefix of them is gone, and all of
them if that succeeded. -/
def OffersTo {ε : Type} (c q : Channel) (bytes : Bytes) (result : Except ε Unit) : Prop :=
  ∃ sent, c.WritesTo q sent ∧ sent <+: bytes ∧ (result = .ok () → sent = bytes)

namespace OffersTo

variable {ε : Type} {c q r : Channel} {bytes left : Bytes} {result : Except ε Unit}

theorem done (c : Channel) (result : Except ε Unit) : c.OffersTo c [] result :=
  ⟨[], .refl c, List.nil_prefix, fun _ => rfl⟩

theorem refused (c : Channel) (bytes : Bytes) (e : ε) : c.OffersTo c bytes (.error e) :=
  ⟨[], .refl c, List.nil_prefix, by simp⟩

theorem failed {answer : Except IoError Nat} (h : c.WritesTo q (sentOf bytes answer)) (e : ε) :
    c.OffersTo q bytes (.error e) :=
  ⟨_, h, sentOf_isPrefix _ _, by simp⟩

theorem again {role : ChannelRole} {answer : Except IoError Nat}
    (h : c.WritesTo q (sentOf bytes answer)) (hleft : afterWrite role bytes answer = .ok left)
    (hrest : q.OffersTo r left result) : c.OffersTo r bytes result := by
  obtain ⟨sent, hwrites, hpre, hall⟩ := hrest
  have hsplit := sentOf_append_of_afterWrite hleft
  have hboth : sentOf bytes answer ++ sent <+: sentOf bytes answer ++ left :=
    (List.prefix_append_right_inj _).2 hpre
  rw [hsplit] at hboth
  exact ⟨_, h.trans hwrites, hboth, fun hok => by rw [hall hok, hsplit]⟩

theorem writesTo (h : c.OffersTo q bytes (.ok () : Except ε Unit)) : c.WritesTo q bytes := by
  obtain ⟨sent, hwrites, -, hall⟩ := h
  exact hall rfl ▸ hwrites

theorem followed {ε' : Type} {result' : Except ε' Unit}
    (h : c.OffersTo q bytes (.ok () : Except ε Unit)) (hafter : q.WritesTo r []) :
    c.OffersTo r bytes result' :=
  ⟨bytes, by simpa using h.writesTo.trans hafter, List.prefix_rfl, fun _ => rfl⟩

end OffersTo

theorem offersTo_of_offerTo {c q : Channel} {role : ChannelRole} {bytes : Bytes}
    {items : List Acceptance} {result : Except TransportError Unit}
    (h : c.offerTo role bytes items = (result, q)) : c.OffersTo q bytes result := by
  induction items generalizing c bytes with
  | nil =>
    simp only [offerTo] at h
    split at h
    · rename_i hnil
      simp only [Prod.mk.injEq] at h
      obtain ⟨-, rfl⟩ := h
      exact ⟨[], ⟨⟨[], by simp⟩, rfl, rfl⟩, List.nil_prefix, fun _ => hnil.symm⟩
    · rename_i hne
      rcases hwrite : write { c with acceptances := [] } bytes with ⟨answer, r⟩
      rw [hwrite] at h
      simp only [Prod.mk.injEq] at h
      obtain ⟨hresult, rfl⟩ := h
      have hwrites := writesTo_of_write hwrite
      refine ⟨_, ⟨hwrites.calls, hwrites.arrivals, hwrites.drained⟩, sentOf_isPrefix _ _, ?_⟩
      intro hok
      have hanswer : answer = c.lastAnswer bytes := congrArg Prod.fst hwrite.symm
      rcases hafter : afterWrite role bytes answer with e | left
      · rw [hafter] at hresult
        subst hresult
        simp [Except.map] at hok
      · rw [hanswer] at hafter ⊢
        exact sentOf_lastAnswer hne hafter
  | cons item rest ih =>
    simp only [offerTo] at h
    split at h
    · rename_i hnil
      simp only [Prod.mk.injEq] at h
      obtain ⟨-, rfl⟩ := h
      exact ⟨[], ⟨⟨[], by simp⟩, rfl, rfl⟩, List.nil_prefix, fun _ => hnil.symm⟩
    · rcases hwrite : write { c with acceptances := item :: rest } bytes with ⟨answer, r⟩
      rw [hwrite] at h
      have hwrites := writesTo_of_write hwrite
      have hfirst : c.WritesTo r (sentOf bytes answer) :=
        ⟨hwrites.calls, hwrites.arrivals, hwrites.drained⟩
      rcases hafter : afterWrite role bytes answer with e | left
      · rw [hafter] at h
        simp only [Prod.mk.injEq] at h
        obtain ⟨rfl, rfl⟩ := h
        exact .failed hfirst e
      · rw [hafter] at h
        exact .again hfirst hafter (ih h)

theorem offersTo_of_offer {c q : Channel} {role : ChannelRole} {bytes : Bytes}
    {result : Except TransportError Unit} (h : c.offer role bytes = (result, q)) :
    c.OffersTo q bytes result :=
  offersTo_of_offerTo h

theorem writesTo_of_flush {c q : Channel} {result : Except IoError Unit}
    (h : c.flush = (result, q)) : c.WritesTo q [] := by
  unfold flush at h
  split at h <;> simp only [Prod.mk.injEq] at h <;> rw [← h.2] <;>
    exact ⟨⟨_, rfl, by simp [Call.isRead], by simp [Call.delivered]⟩, rfl, rfl⟩

theorem writesTo_of_flushWhile {c q : Channel} {again : IoError → Bool}
    {result : Except TransportError Unit} (h : c.flushWhile again = (result, q)) :
    c.WritesTo q [] := by
  simp only [flushWhile] at h
  have hpast : c.WritesTo
      { c with
        flushes := c.flushes.dropWhile again
        calls := c.calls ++
          (c.flushes.takeWhile again).map fun (e : IoError) => Call.flush (.error e.kind) } [] := by
    refine ⟨⟨_, rfl, by simp [Call.isRead], ?_⟩, rfl, rfl⟩
    simp [Call.delivered]
  split at h <;> rename_i hflush <;> simp only [Prod.mk.injEq] at h <;> rw [← h.2] <;>
    exact hpast.trans (writesTo_of_flush hflush)

theorem offersTo_of_writeFully {c q : Channel} {role : ChannelRole} {bytes : Bytes}
    {result : Except TransportError Unit} (h : c.writeFully role bytes = (result, q)) :
    c.OffersTo q bytes result := by
  unfold writeFully at h
  split at h
  · rename_i r hoffer
    exact (offersTo_of_offer hoffer).followed (writesTo_of_flushWhile h)
  · rename_i e r hoffer
    simp only [Prod.mk.injEq] at h
    obtain ⟨rfl, rfl⟩ := h
    exact offersTo_of_offer hoffer

end Channel

namespace Outlet

open Channel

theorem offersTo_of_offerTo {o q : Outlet} {role : ChannelRole} {timeout : Duration}
    {deadline : Instant} {bytes : Bytes} {polls : List RoomPoll}
    {result : Except TransportError Unit}
    (h : o.offerTo role timeout deadline bytes polls = (result, q)) :
    o.channel.OffersTo q.channel bytes result := by
  induction polls generalizing o bytes with
  | nil =>
    simp only [offerTo] at h
    split at h
    · rename_i hnil
      simp only [Prod.mk.injEq] at h
      obtain ⟨-, rfl⟩ := h
      exact hnil ▸ .done _ _
    · split at h <;> simp only [Prod.mk.injEq] at h <;> obtain ⟨rfl, rfl⟩ := h
      · exact offersTo_of_offer rfl
      · exact .refused _ _ _
  | cons poll rest ih =>
    simp only [offerTo] at h
    split at h
    · rename_i hnil
      simp only [Prod.mk.injEq] at h
      obtain ⟨-, rfl⟩ := h
      exact hnil ▸ .done _ _
    · cases poll with
      | failed e =>
        simp only [Prod.mk.injEq] at h
        obtain ⟨rfl, rfl⟩ := h
        exact .refused _ _ _
      | idle clock =>
        simp only at h
        split at h
        · simp only [Prod.mk.injEq] at h
          obtain ⟨rfl, rfl⟩ := h
          exact .refused _ _ _
        · have hrest : (o.refusing (.idle clock)).channel.OffersTo q.channel bytes result := ih h
          exact hrest
      | ready clock =>
        simp only at h
        rcases hwrite : o.channel.write bytes with ⟨answer, r⟩
        rw [hwrite] at h
        have hfirst := writesTo_of_write hwrite
        rcases hafter : afterWrite role bytes answer with e | left
        · rw [hafter] at h
          simp only [Prod.mk.injEq] at h
          obtain ⟨rfl, rfl⟩ := h
          exact .failed hfirst e
        · rw [hafter] at h
          exact .again hfirst hafter (ih h)

theorem offersTo_of_writeWithin {o q : Outlet} {role : ChannelRole} {timeout : Duration}
    {bytes : Bytes} {result : Except Failure Unit}
    (h : o.writeWithin role timeout bytes = (result, q)) :
    o.channel.OffersTo q.channel bytes result := by
  unfold writeWithin at h
  split at h
  · simp only [Prod.mk.injEq] at h
    obtain ⟨rfl, rfl⟩ := h
    exact .refused _ _ _
  · split at h
    · rename_i e r hoffer
      simp only [Prod.mk.injEq] at h
      obtain ⟨rfl, rfl⟩ := h
      obtain ⟨sent, hwrites, hpre, -⟩ := offersTo_of_offerTo hoffer
      exact ⟨sent, hwrites, hpre, by simp⟩
    · rename_i r hoffer
      have hoffers := offersTo_of_offerTo hoffer
      split at h <;> rename_i hflush <;> simp only [Prod.mk.injEq] at h <;>
        obtain ⟨rfl, rfl⟩ := h <;> exact hoffers.followed (writesTo_of_flushWhile hflush)

end Outlet

end SpiBridge
