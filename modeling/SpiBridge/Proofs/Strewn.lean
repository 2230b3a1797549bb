import SpiBridge.Proofs.Alike
import SpiBridge.Proofs.Transfers
/-!
# Calls that are made again

Between the things that calls meet there may be failures after which a call is simply made again.
Main statements: reads, full and bounded writes, and the reading of a whole frame come to the same
with such failures strewn in, and leave the same things behind, among which failures are strewn.
-/

namespace SpiBridge

/-- A list, and the same list with elements strewn in that count for nothing. -/
inductive Strewn {α : Type} (vain : α → Bool) : List α → List α → Prop
  | nil : Strewn vain [] []
  | keep (a : α) {as bs : List α} (h : Strewn vain as bs) : Strewn vain (a :: as) (a :: bs)
  | insert {b : α} {as bs : List α} (hb : vain b = true) (h : Strewn vain as bs) :
      Strewn vain as (b :: bs)

namespace Strewn

variable {α β : Type} {vain : α → Bool} {as bs as' bs' : List α}

theorem refl (vain : α → Bool) (as : List α) : Strewn vain as as := by
  induction as with
  | nil => exact .nil
  | cons a as ih => exact .keep a ih

theorem append (h : Strewn vain as bs) (h' : Strewn vain as' bs') :
    Strewn vain (as ++ as') (bs ++ bs') := by
  induction h with
  | nil => exact h'
  | keep a _ ih => exact .keep a ih
  | insert hb _ ih => exact .insert hb ih

theorem map {vain' : β → Bool} {f : α → β} (h : Strewn vain as bs)
    (hvain : ∀ a, vain a = true → vain' (f a) = true) : Strewn vain' (as.map f) (bs.map f) := by
  induction h with
  | nil => exact .nil
  | keep a _ ih => exact .keep (f a) ih
  | insert hb _ ih => exact .insert (hvain _ hb) ih

theorem flatMap_eq {f : α → List β} (h : Strewn vain as bs)
    (hvain : ∀ a, vain a = true → f a = []) : bs.flatMap f = as.flatMap f := by
  induction h with
  | nil => rfl
  | keep a _ ih => rw [List.flatMap_cons, List.flatMap_cons, ih]
  | insert hb _ ih => rw [List.flatMap_cons, hvain _ hb, ih, List.nil_append]

theorem takeWhile (h : Strewn vain as bs) :
    Strewn vain (as.takeWhile vain) (bs.takeWhile vain) := by
  induction h with
  | nil => exact .nil
  | keep a _ ih =>
    rw [List.takeWhile_cons, List.takeWhile_cons]
    split
    · exact .keep a ih
    · exact .nil
  | insert hb _ ih =>
    rw [List.takeWhile_cons, if_pos hb]
    exact .insert hb ih

end Strewn

inductive HeadsAgree {α : Type} (vain : α → Bool) : List α → List α → Prop
  | nil : HeadsAgree vain [] []
  | cons (a : α) {as bs : List α} (h : Strewn vain as bs) :
      HeadsAgree vain (a :: as) (a :: bs)

theorem HeadsAgree.strewn {α : Type} {vain : α → Bool} {as bs : List α}
    (h : HeadsAgree vain as bs) : Strewn vain as bs := by
  cases h with
  | nil => exact .nil
  | cons a h => exact .keep a h

theorem Strewn.dropWhile {α : Type} {vain : α → Bool} {as bs : List α} (h : Strewn vain as bs) :
    HeadsAgree vain (as.dropWhile vain) (bs.dropWhile vain) := by
  induction h with
  | nil => exact .nil
  | keep a h ih =>
    rw [List.dropWhile_cons, List.dropWhile_cons]
    split
    · exact ih
    · exact .cons a h
  | insert hb _ ih => rwa [List.dropWhile_cons, if_pos hb]

def Acceptance.isTransient : Acceptance → Bool
  | .takes _ => false
  | .failed e => e.isTransient

/-- A call that is made again, if flushes are made again after some kinds of failure. -/
def Call.isVain (again : IoKind → Bool) : Call → Bool
  | read _ (.error kind) => kind == .interrupted
  | write _ (.error kind) => kind.isTransient
  | flush (.error kind) => again kind
  | read _ (.ok _) | write _ (.ok _) | flush (.ok _) => false

theorem Call.received_of_isVain {again : IoKind → Bool} {call : Call}
    (h : call.isVain again = true) : call.received = [] := by
  rcases call with ⟨_, _ | _⟩ | ⟨_, _ | _⟩ | ⟨_ | _⟩ <;> first | rfl | cases h

theorem Call.delivered_of_isVain {again : IoKind → Bool} {call : Call}
    (h : call.isVain again = true) : call.delivered = [] := by
  rcases call with ⟨_, _ | _⟩ | ⟨_, _ | _⟩ | ⟨_ | _⟩ <;> first | rfl | cases h

namespace Channel

variable {again : IoKind → Bool} {c d : Channel} {α : Type}

/-- A channel, and the same channel with failures strewn in after which calls are made again:
interruptions of reads and writes, writes that would block, and flushes as `again` says. -/
structure Strewn (again : IoKind → Bool) (c d : Channel) : Prop where
  arrivals : SpiBridge.Strewn Arrival.isInterruption c.arrivals d.arrivals
  drained : c.drained = d.drained
  acceptances : SpiBridge.Strewn Acceptance.isTransient c.acceptances d.acceptances
  deserted : c.deserted = d.deserted
  flushes : SpiBridge.Strewn (fun e => again e.kind) c.flushes d.flushes
  calls : SpiBridge.Strewn (Call.isVain again) c.calls d.calls

structure StrewnEnds (again : IoKind → Bool) (x y : α × Channel) : Prop where
  result : x.1 = y.1
  left : x.2.Strewn again y.2

theorem StrewnEnds.exists_eq {a : α} {y : α × Channel} (h : StrewnEnds again (a, c) y) :
    ∃ d, y = (a, d) ∧ c.Strewn again d :=
  ⟨y.2, Prod.ext h.result.symm rfl, h.left⟩

namespace Strewn

theorem refl (again : IoKind → Bool) (c : Channel) : c.Strewn again c :=
  ⟨.refl _ _, rfl, .refl _ _, rfl, .refl _ _, .refl _ _⟩

theorem logged (h : c.Strewn again d) (call : Call) :
    (c.logged call).Strewn again (d.logged call) :=
  { h with calls := h.calls.append (.refl _ _) }

/-! More may be met later, and among it failures may be strewn as well. -/

theorem arrive {items items' : List Arrival} (h : c.Strewn again d)
    (hitems : SpiBridge.Strewn Arrival.isInterruption items items') :
    (c.arrive items).Strewn again (d.arrive items') :=
  { h with arrivals := h.arrivals.append hitems }

theorem willTake {items items' : List Acceptance} (h : c.Strewn again d)
    (hitems : SpiBridge.Strewn Acceptance.isTransient items items') :
    (c.willTake items).Strewn again (d.willTake items') :=
  { h with acceptances := h.acceptances.append hitems }

theorem willFailToFlush {errors errors' : List IoError} (h : c.Strewn again d)
    (herrors : SpiBridge.Strewn (fun e => again e.kind) errors errors') :
    (c.willFailToFlush errors).Strewn again (d.willFailToFlush errors') :=
  { h with flushes := h.flushes.append herrors }

theorem insert {call : Call} (h : c.Strewn again d) (hcall : call.isVain again = true) :
    c.Strewn again (d.logged call) :=
  { h with
    calls := by
      rw [← List.append_nil c.calls]
      exact h.calls.append (.insert hcall .nil) }

/-! ## Reads -/

theorem pastInterruptions (h : c.Strewn again d) (room : Nat) :
    (c.pastInterruptions room).Strewn again (d.pastInterruptions room) :=
  { h with
    arrivals := h.arrivals.dropWhile.strewn
    calls := h.calls.append (h.arrivals.takeWhile.map fun _ _ => rfl) }

theorem read (h : c.Strewn again d) (room : Nat)
    (hheads : room ≠ 0 → HeadsAgree Arrival.isInterruption c.arrivals d.arrivals) :
    StrewnEnds again (c.read room) (d.read room) := by
  unfold Channel.read
  split
  · exact ⟨rfl, h.logged _⟩
  rename_i hroom
  replace hheads := hheads hroom
  generalize hc : c.arrivals = as, hd : d.arrivals = bs at hheads
  cases hheads with
  | nil =>
    simp only [h.drained]
    split
    · exact ⟨rfl, h.logged _⟩
    · exact ⟨rfl, h.logged _⟩
  | @cons item as bs hrest =>
    have hleft : ∀ {items items'}, SpiBridge.Strewn Arrival.isInterruption items items' →
        Strewn again { c with arrivals := items } { d with arrivals := items' } :=
      fun hitems => { h with arrivals := hitems }
    cases item with
    | data bytes =>
      simp only
      split
      · exact ⟨rfl, (hleft hrest).logged _⟩
      · exact ⟨rfl, (hleft (.keep _ hrest)).logged _⟩
    | ended | failed => exact ⟨rfl, (hleft hrest).logged _⟩

theorem readSome (h : c.Strewn again d) (room : Nat) :
    StrewnEnds again (c.readSome room) (d.readSome room) := by
  have hread : StrewnEnds again
      ((if room = 0 then c else c.pastInterruptions room).read room)
      ((if room = 0 then d else d.pastInterruptions room).read room) := by
    split
    · exact h.read room fun hroom => absurd ‹room = 0› hroom
    · exact (h.pastInterruptions room).read room fun _ => h.arrivals.dropWhile
  unfold Channel.readSome
  rcases hc : (if room = 0 then c else c.pastInterruptions room).read room with ⟨e | bytes, c'⟩ <;>
    rw [hc] at hread <;> obtain ⟨d', hd, hleft⟩ := hread.exists_eq <;> rw [hd]
  · exact ⟨rfl, hleft⟩
  · exact ⟨rfl, hleft⟩

/-! ## Writes -/

theorem offer (h : c.Strewn again d) (role : ChannelRole) (bytes : Bytes) :
    StrewnEnds again (c.offer role bytes) (d.offer role bytes) := by
  have hitems := h.acceptances
  generalize hc : c.acceptances = as, hd : d.acceptances = bs at hitems
  induction hitems generalizing c d bytes with
  | nil =>
    rw [offer_eq, offer_eq d]
    split
    · exact ⟨rfl, h⟩
    rename_i hne
    have hanswer : d.lastAnswer bytes = c.lastAnswer bytes := by
      rw [lastAnswer, lastAnswer, h.deserted]
    simp only [write, hc, hd, hanswer]
    split
    · rename_i left hafter
      rw [nil_of_lastAnswer hne hafter, offer_eq, offer_eq, if_pos rfl, if_pos rfl]
      exact ⟨rfl, h.logged _⟩
    · exact ⟨rfl, h.logged _⟩
  | @keep item as bs hrest ih =>
    rw [offer_eq, offer_eq d]
    split
    · exact ⟨rfl, h⟩
    simp only [write, hc, hd]
    have hfewer : Strewn again { c with acceptances := as } { d with acceptances := bs } :=
      { h with acceptances := hrest }
    have hleft := hfewer.logged (.write bytes (resultKind (item.answer bytes)))
    split
    · exact ih hleft _ rfl rfl
    · exact ⟨rfl, hleft⟩
  | @insert item as bs hitem hrest ih =>
    by_cases hnil : bytes = []
    · rw [hnil, offer_eq, offer_eq d, if_pos rfl, if_pos rfl]
      exact ⟨rfl, h⟩
    cases item with
    | takes => cases hitem
    | failed e =>
      rw [offer_eq d, if_neg hnil]
      have hagain : e.isTransient = true := hitem
      simp only [write, hd, Acceptance.answer, afterWrite, hagain, if_true]
      have hfewer : Strewn again c { d with acceptances := bs } :=
        { h with acceptances := hc ▸ hrest }
      have hvain : (Call.write bytes (.error e.kind)).isVain again = true := hagain
      exact ih (hfewer.insert hvain) bytes hc rfl

theorem flushWhile (h : c.Strewn again d) (makes : IoError → Bool)
    (hagain : ∀ e, makes e = again e.kind) :
    StrewnEnds again (c.flushWhile makes) (d.flushWhile makes) := by
  have hflushes := h.flushes
  generalize hc : c.flushes = as, hd : d.flushes = bs at hflushes
  induction hflushes generalizing c d with
  | nil =>
    rw [flushWhile_eq, flushWhile_eq d, hc, hd]
    exact ⟨rfl, h.logged _⟩
  | @keep e as bs hrest ih =>
    rw [flushWhile_eq, flushWhile_eq d, hc, hd]
    have hshorter : Strewn again { c with flushes := as } { d with flushes := bs } :=
      { h with flushes := hrest }
    have hleft := hshorter.logged (.flush (.error e.kind))
    simp only
    split
    · exact ih hleft rfl rfl
    · exact ⟨rfl, hleft⟩
  | @insert e as bs he hrest ih =>
    rw [flushWhile_eq d, hd]
    simp only [hagain, he, if_true]
    have hshorter : Strewn again c { d with flushes := bs } := { h with flushes := hc ▸ hrest }
    exact ih (hshorter.insert he) hc rfl

theorem writeFully (h : c.Strewn IoKind.isTransient d) (role : ChannelRole) (bytes : Bytes) :
    StrewnEnds IoKind.isTransient (c.writeFully role bytes) (d.writeFully role bytes) := by
  have hoffer := h.offer role bytes
  rcases hc : c.offer role bytes with ⟨e | _, c'⟩ <;> rw [hc] at hoffer <;>
    obtain ⟨d', hd, hleft⟩ := hoffer.exists_eq
  · rw [writeFully_of_error hc, writeFully_of_error hd]
    exact ⟨rfl, hleft⟩
  · rw [writeFully_of_ok hc, writeFully_of_ok hd]
    exact hleft.flushWhile IoError.isTransient fun _ => rfl

end Strewn

end Channel

namespace Outlet

variable {o p : Outlet}

/-- An outlet with room at every poll, and the same one with failures strewn in after which its
bounded writes go on. -/
structure Strewn (o p : Outlet) : Prop where
  channel : o.channel.Strewn (· == .interrupted) p.channel
  clock : o.clock = p.clock
  refusals : o.refusals = p.refusals
  free : o.Free
  free' : p.Free

theorem Strewn.onto {c d : Channel} (h : o.Strewn p) (hchannel : c.Strewn (· == .interrupted) d) :
    Outlet.Strewn { o with channel := c } { p with channel := d } :=
  ⟨hchannel, h.clock, h.refusals, ⟨h.free.writable, h.free.polls⟩,
    ⟨h.free'.writable, h.free'.polls⟩⟩

theorem Strewn.writeWithin (h : o.Strewn p) (role : ChannelRole) (timeout : Duration)
    (bytes : Bytes) :
    (o.writeWithin role timeout bytes).1 = (p.writeWithin role timeout bytes).1 ∧
      (o.writeWithin role timeout bytes).2.Strewn (p.writeWithin role timeout bytes).2 := by
  rcases hdeadline : o.clock.after? timeout with _ | deadline
  · simp only [Outlet.writeWithin, hdeadline, ← h.clock]
    exact ⟨trivial, h⟩
  obtain ⟨polls, hoffer, hpolls⟩ :=
    offerTo_of_ready h.free.writable h.free.polls role timeout deadline bytes
  obtain ⟨polls', hoffer', hpolls'⟩ :=
    offerTo_of_ready h.free'.writable h.free'.polls role timeout deadline bytes
  have hdeadline' : p.clock.after? timeout = some deadline := h.clock ▸ hdeadline
  have hends := h.channel.offer role bytes
  rcases hc : o.channel.offer role bytes with ⟨e | _, c⟩ <;> rw [hc] at hends hoffer <;>
    obtain ⟨d, hd, hleft⟩ := hends.exists_eq <;> rw [hd] at hoffer'
  · rw [writeWithin_of_error hdeadline hoffer, writeWithin_of_error hdeadline' hoffer']
    exact ⟨rfl, hleft, h.clock, h.refusals, ⟨h.free.writable, hpolls⟩,
      ⟨h.free'.writable, hpolls'⟩⟩
  · rw [writeWithin_of_ok hdeadline hoffer, writeWithin_of_ok hdeadline' hoffer']
    obtain ⟨hflushed, hleft'⟩ := hleft.flushWhile IoError.isInterruption fun _ => rfl
    exact ⟨congrArg (Except.mapError Failure.transport) hflushed, hleft', h.clock, h.refusals,
      ⟨h.free.writable, hpolls⟩, ⟨h.free'.writable, hpolls'⟩⟩

end Outlet

/-! ## Reading from the bus -/

namespace Intake

/-- Two states of reading from the bus that differ in the failures that are strewn in. -/
structure Strewn (again : IoKind → Bool) (i j : Intake) : Prop where
  frame : i.frame = j.frame
  wire : i.wire = j.wire
  decoder : i.decoder = j.decoder
  bus : i.bus.Strewn again j.bus

theorem Strewn.fill {again : IoKind → Bool} {i j : Intake} (h : i.Strewn again j) (target : Nat) :
    (i.fill target).1 = (j.fill target).1 ∧
      (i.fill target).2.Strewn again (j.fill target).2 := by
  induction hwaiting : i.bus.waiting.length using Nat.strongRecOn generalizing i j with
  | _ n ih =>
    obtain ⟨frame, wire, decoder, bus⟩ := i
    obtain ⟨frame', wire', decoder', bus'⟩ := j
    obtain ⟨rfl, rfl, rfl, hbus⟩ := h
    rw [fill_eq, fill_eq ⟨frame, wire, decoder, bus'⟩]
    simp only at hbus hwaiting ⊢
    by_cases hless : frame.length < target
    case neg =>
      rw [if_neg hless, if_neg hless]
      exact ⟨rfl, rfl, rfl, rfl, hbus⟩
    rw [if_pos hless, if_pos hless]
    rcases wire.reset.lend (target - frame.length) with e | lent
    · exact ⟨rfl, rfl, rfl, rfl, hbus⟩
    have hends := hbus.readSome (target - frame.length)
    rcases hread : bus.readSome (target - frame.length) with ⟨e | _ | _ | ⟨byte, rest⟩, c⟩ <;>
      rw [hread] at hends <;> obtain ⟨d, hread', hleft⟩ := hends.exists_eq <;>
      rw [hread']
    · exact ⟨rfl, rfl, rfl, rfl, hleft⟩
    · exact ⟨rfl, rfl, rfl, rfl, hleft⟩
    · exact ⟨rfl, rfl, rfl, rfl, hleft⟩
    simp only
    rcases absorb decoder frame (byte :: rest) with e | ⟨decoder', frame'⟩
    · exact ⟨rfl, rfl, rfl, rfl, hleft⟩
    have hfewer : c.waiting.length < n := by
      rw [← hwaiting, Channel.waiting_of_readSome hread, List.length_append, List.length_cons]
      omega
    exact ih _ hfewer ⟨rfl, rfl, rfl, hleft⟩ rfl

end Intake

end SpiBridge
