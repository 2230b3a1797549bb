import SpiBridge.Proofs.Overflow
/-!
# How much is taken off the bus

Reading from the bus goes on until so many raw bytes are there, and never asks for more bytes than
raw bytes are missing.  Main statement: the bytes taken are the shortest front of what the bus
brings that completes the raw bytes, however the bus cuts it into pieces; if no front completes
them reading is given up, for a reason that what the bus brings decides alone.
-/

namespace SpiBridge

namespace Channel

def supplyOf : List Arrival → Bytes
  | [] | .ended :: _ => []
  | .data bytes :: rest => if bytes = [] then [] else bytes ++ supplyOf rest
  | .failed e :: rest => if e.isInterruption then supplyOf rest else []

def failureOf : List Arrival → Option IoError
  | [] | .ended :: _ => none
  | .data bytes :: rest => if bytes = [] then none else failureOf rest
  | .failed e :: rest =>
    if e.isInterruption then failureOf rest else if e.isBlock then none else some e

def supply (c : Channel) : Bytes :=
  supplyOf c.arrivals

def failure? (c : Channel) : Option IoError :=
  failureOf c.arrivals

variable {c q : Channel} {room : Nat} {result : Except TransportError (Option Bytes)}

theorem supplyOf_dropWhile (items : List Arrival) :
    supplyOf (items.dropWhile Arrival.isInterruption) = supplyOf items ∧
      failureOf (items.dropWhile Arrival.isInterruption) = failureOf items := by
  induction items with
  | nil => exact ⟨rfl, rfl⟩
  | cons item rest ih =>
    rw [List.dropWhile_cons]
    split
    · rename_i hitem
      cases item with
      | failed e =>
        have he : e.isInterruption = true := hitem
        simpa [supplyOf, failureOf, he] using ih
      | data | ended => cases hitem
    · exact ⟨rfl, rfl⟩

inductive Draws (c q : Channel) : Except TransportError (Option Bytes) → Prop
  | piece {bytes : Bytes} (hne : bytes ≠ []) (hsupply : c.supply = bytes ++ q.supply)
      (hfailure : c.failure? = q.failure?) : Draws c q (.ok (some bytes))
  | dry {got : Option Bytes} (hgot : got.getD [] = []) (hsupply : c.supply = [])
      (hfailure : c.failure? = none) : Draws c q (.ok got)
  | failed {e : IoError} (hsupply : c.supply = []) (hfailure : c.failure? = some e) :
      Draws c q (.error (.io e))

theorem draws_of_readSome (hroom : room ≠ 0) (h : c.readSome room = (result, q)) :
    c.Draws q result := by
  obtain ⟨hsupply, hfailure⟩ := supplyOf_dropWhile c.arrivals
  have hhead := List.head?_dropWhile_not Arrival.isInterruption c.arrivals
  unfold readSome read at h
  rw [if_neg hroom, if_neg hroom] at h
  simp only [pastInterruptions] at h
  rcases hdropped : c.arrivals.dropWhile Arrival.isInterruption with _ | ⟨item, rest⟩ <;>
    rw [hdropped] at h hsupply hfailure hhead
  · cases hdrained : c.drained <;> rw [hdrained] at h <;> obtain ⟨rfl, -⟩ := Prod.mk.inj h
    · exact .dry rfl hsupply.symm hfailure.symm
    · exact .dry rfl hsupply.symm hfailure.symm
  cases item with
  | data bytes =>
    obtain ⟨rfl, rfl⟩ := Prod.mk.inj h
    by_cases hbytes : bytes = []
    · subst hbytes
      exact .dry (by simp) hsupply.symm hfailure.symm
    · simp only [supplyOf, failureOf, if_neg hbytes] at hsupply hfailure
      refine .piece ?_ ?_ ?_
      · rw [Ne, List.take_eq_nil_iff]
        exact fun hor => hor.elim hroom hbytes
      · show supplyOf c.arrivals = bytes.take room ++
          supplyOf (if bytes.drop room = [] then rest else .data (bytes.drop room) :: rest)
        rw [← hsupply]
        split
        · rename_i hdrop
          rw [List.take_of_length_le (List.drop_eq_nil_iff.1 hdrop)]
        · rename_i hdrop
          rw [supplyOf, if_neg hdrop, ← List.append_assoc, List.take_append_drop]
      · show failureOf c.arrivals =
          failureOf (if bytes.drop room = [] then rest else .data (bytes.drop room) :: rest)
        rw [← hfailure]
        split
        · rfl
        · rename_i hdrop
          rw [failureOf, if_neg hdrop]
  | ended =>
    obtain ⟨rfl, -⟩ := Prod.mk.inj h
    exact .dry rfl hsupply.symm hfailure.symm
  | failed e =>
    have he : e.isInterruption = false := by simpa [Arrival.isInterruption] using hhead
    simp only [supplyOf, failureOf, he, Bool.false_eq_true, if_false] at hsupply hfailure
    obtain ⟨rfl, -⟩ := Prod.mk.inj h
    split at hfailure
    · rename_i hblock
      rw [if_pos hblock]
      exact .dry rfl hsupply.symm hfailure.symm
    · rename_i hblock
      rw [if_neg hblock]
      exact .failed hsupply.symm hfailure.symm

end Channel

/-! ## Fronts of what is brought -/

namespace Escape

namespace Decoder

variable {d : Decoder} {front back wire other stream : Bytes} {count : Nat}

theorem failure_of_append (h : (d.feedAll (front ++ back)).failure = none) :
    (d.feedAll front).failure = none := by
  induction front generalizing d with
  | nil => rfl
  | cons byte rest ih =>
    rcases hfeed : d.feed byte with ⟨_ | out, d'⟩
    · rw [List.cons_append, feedAll_cons_of_error hfeed] at h
      cases h
    · rw [List.cons_append, feedAll_cons_of_ok hfeed] at h
      rw [feedAll_cons_of_ok hfeed]
      exact ih h

structure Completes (d : Decoder) (count : Nat) (stream wire : Bytes) : Prop where
  within : wire <+: stream
  failure : (d.feedAll wire).failure = none
  length : (d.feedAll wire).raw.length = count

/-- The shortest front that completes so many raw bytes: it begins all others. -/
structure CompletesFirst (d : Decoder) (count : Nat) (stream wire : Bytes) : Prop
    extends d.Completes count stream wire where
  least : ∀ other, d.Completes count stream other → wire <+: other

structure BreaksAt (d : Decoder) (stream front : Bytes) (byte : UInt8) : Prop where
  within : front ++ [byte] <+: stream
  failure : (d.feedAll front).failure = none
  pending : (d.feedAll front).decoder.pending = true
  byte : byte ≠ follower

theorem length_le_of_feedAll (h : (d.feedAll wire).failure = none) :
    d.held.length + wire.length ≤
      2 * (d.feedAll wire).raw.length + (d.feedAll wire).decoder.held.length := by
  have hform := congrArg List.length (held_append_of_feedAll h)
  have hlength := encodedLength_le (d.feedAll wire).raw
  rw [← length_encode] at hlength
  simp only [List.length_append] at hform
  omega

theorem length_held_le (d : Decoder) : d.held.length ≤ 1 := by
  rcases d with ⟨_ | _⟩ <;> decide

theorem Completes.first (h : d.Completes count stream wire)
    (hrest : (d.feedAll wire).decoder.pending = false) : d.CompletesFirst count stream wire := by
  refine ⟨h, fun other hother => ?_⟩
  rcases List.prefix_or_prefix_of_prefix h.within hother.within with hle | hle
  · exact hle
  -- What stands behind the other front gives no raw byte and is not owed, so it is nothing.
  obtain ⟨more, rfl⟩ := hle
  have happend := feedAll_append more hother.failure
  have hfailure := h.failure
  have hlength := h.length
  rw [happend] at hfailure hlength hrest
  rw [List.length_append, hother.length] at hlength
  have hbound := length_le_of_feedAll (d := (d.feedAll other).decoder) hfailure
  rw [held_eq_nil_iff.2 hrest] at hbound
  have hnone : more.length = 0 := by
    simp only [List.length_nil] at hbound
    omega
  exact ⟨[], by rw [List.length_eq_zero_iff.1 hnone, List.append_nil, List.append_nil]⟩

theorem CompletesFirst.unique (h : d.CompletesFirst count stream wire)
    (h' : d.CompletesFirst count stream other) : wire = other :=
  (h.least other h'.toCompletes).eq_of_length_le (h'.least wire h.toCompletes).length_le

theorem exists_breaksAt {e : FramingError} (h : (d.feedAll stream).failure = some e) :
    ∃ front byte, d.BreaksAt stream front byte := by
  induction stream generalizing d with
  | nil => cases h
  | cons first rest ih =>
    rcases hfeed : d.feed first with ⟨_ | out, d'⟩
    · unfold feed at hfeed
      split at hfeed
      · rename_i hpending
        by_cases hfirst : first = follower
        · simp [hfirst] at hfeed
        · exact ⟨[], first, ⟨⟨rest, rfl⟩, rfl, hpending, hfirst⟩⟩
      · split at hfeed <;> cases hfeed
    · rw [feedAll_cons_of_ok hfeed] at h
      obtain ⟨front, byte, hbreaks⟩ := ih h
      refine ⟨first :: front, byte, ?_, ?_, ?_, hbreaks.byte⟩
      · exact List.cons_prefix_cons.2 ⟨rfl, hbreaks.within⟩
      · rw [feedAll_cons_of_ok hfeed]
        exact hbreaks.failure
      · rw [feedAll_cons_of_ok hfeed]
        exact hbreaks.pending

theorem Completes.begins {piece more : Bytes} (h : d.Completes count (piece ++ more) wire)
    (hpiece : piece.length ≤ count) : piece <+: wire := by
  rcases List.prefix_or_prefix_of_prefix h.within (List.prefix_append piece more) with hle | hle
  · have hraw := length_raw_feedAll_le d wire
    rw [h.length] at hraw
    obtain rfl := hle.eq_of_length_le (by omega)
    exact List.prefix_refl wire
  · exact hle

theorem Completes.rest {piece more rest : Bytes}
    (h : d.Completes count (piece ++ more) (piece ++ rest)) :
    (d.feedAll piece).decoder.Completes (count - (d.feedAll piece).raw.length) more rest := by
  have hfailure := failure_of_append h.failure
  have happend := feedAll_append rest hfailure
  have hlength := h.length
  rw [happend, List.length_append] at hlength
  refine ⟨(List.prefix_append_right_inj piece).1 h.within, ?_, by omega⟩
  have hall := h.failure
  rwa [happend] at hall

theorem BreaksAt.ne_none {byte : UInt8} (h : d.BreaksAt stream front byte) :
    (d.feedAll stream).failure ≠ none := by
  obtain ⟨more, rfl⟩ := h.within
  intro hfailure
  have hfront := failure_of_append hfailure
  rw [feedAll_append [byte] h.failure, feedAll] at hfront
  simp [feed, h.pending, h.byte] at hfront

theorem BreaksAt.append {byte : UInt8} (hfront : (d.feedAll front).failure = none)
    (h : (d.feedAll front).decoder.BreaksAt stream wire byte) :
    d.BreaksAt (front ++ stream) (front ++ wire) byte := by
  have happend := feedAll_append wire hfront
  refine ⟨?_, ?_, ?_, h.byte⟩
  · rw [List.append_assoc]
    exact (List.prefix_append_right_inj front).2 h.within
  · rw [happend]
    exact h.failure
  · rw [happend]
    exact h.pending

end Decoder

end Escape

/-! ## Calls -/

def Call.isInterrupted : Call → Bool
  | read _ (.error kind) => kind == .interrupted
  | read _ (.ok _) | write .. | flush _ => false

/-- Every read asks for as many bytes as raw bytes are missing after the reads before it, and none
is made behind bytes that cannot be decoded. -/
def Call.Asks (d : Escape.Decoder) (missing : Nat) (calls : List Call) : Prop :=
  ∀ front call back, calls = front ++ call :: back →
    (d.feedAll (front.flatMap received)).failure = none ∧
      ∃ room result, call = .read room result ∧
        (d.feedAll (front.flatMap received)).raw.length + room = missing

theorem Call.Asks.append {d : Escape.Decoder} {missing left : Nat} {first rest : List Call}
    (hfirst : Asks d missing first)
    (hfailure : (d.feedAll (first.flatMap received)).failure = none)
    (hleft : (d.feedAll (first.flatMap received)).raw.length + left = missing)
    (hrest : Asks (d.feedAll (first.flatMap received)).decoder left rest) :
    Asks d missing (first ++ rest) := by
  -- A read among the later ones has all the first ones before it.
  have hlater : ∀ front call back, rest = front ++ call :: back →
      (d.feedAll ((first ++ front).flatMap received)).failure = none ∧
        ∃ room result, call = .read room result ∧
          (d.feedAll ((first ++ front).flatMap received)).raw.length + room = missing := by
    intro front call back hcalls
    obtain ⟨hfailure', room, result, hcall, hlength⟩ := hrest front call back hcalls
    rw [List.flatMap_append, Escape.Decoder.feedAll_append _ hfailure]
    refine ⟨hfailure', room, result, hcall, ?_⟩
    rw [List.length_append]
    omega
  intro front call back hcalls
  rcases List.append_eq_append_iff.1 hcalls with
    ⟨more, rfl, hmore⟩ | ⟨_ | ⟨next, more⟩, hsplit, hmore⟩
  · exact hlater more call back hmore
  · rw [List.append_nil] at hsplit
    have hbegin := hlater [] call back hmore.symm
    rwa [List.append_nil, hsplit] at hbegin
  · obtain ⟨rfl, -⟩ := List.cons.inj hmore
    exact hfirst front call more hsplit

theorem Channel.asks_of_readSome {c q : Channel} {room : Nat}
    {result : Except TransportError (Option Bytes)} (h : c.readSome room = (result, q)) :
    ∃ new, q.calls = c.calls ++ new ∧ new.flatMap Call.received = bytesOf result ∧
      new.countP (fun call => !call.isInterrupted) = 1 ∧ ∀ d, Call.Asks d room new := by
  obtain ⟨skipped, last, hcalls, hskipped, htells⟩ := exists_last_of_readSome h
  have hvain : skipped.flatMap Call.received = [] := by
    rw [List.flatMap_eq_nil_iff]
    intro call hmem
    rw [hskipped call hmem]
    rfl
  have hread : ∀ call ∈ skipped ++ [.read room last], ∃ result, call = .read room result := by
    intro call hmem
    rcases List.mem_append.1 hmem with hmem | hmem
    · exact ⟨_, hskipped call hmem⟩
    · exact ⟨_, List.mem_singleton.1 hmem⟩
  refine ⟨skipped ++ [.read room last], hcalls, ?_, ?_, fun d front call back hsplit => ?_⟩
  · rw [List.flatMap_append, hvain]
    cases htells <;> simp [Call.received, bytesOf]
  · have hnone : skipped.countP (fun call => !call.isInterrupted) = 0 := by
      rw [List.countP_eq_zero]
      intro call hmem
      rw [hskipped call hmem]
      simp [Call.isInterrupted]
    have hlast : (Call.read room last).isInterrupted = false := by
      cases htells with
      | bytes | blocked => rfl
      | @failed kind e hkind => cases kind <;> first | rfl | cases hkind
    rw [List.countP_append, hnone, List.countP_singleton, hlast]
    rfl
  · -- What stands in front of a read was interrupted, so it brought in nothing.
    have hfront : front <+: skipped := by
      refine List.prefix_of_prefix_length_le ⟨call :: back, hsplit.symm⟩
        (List.prefix_append _ _) ?_
      have hlength := congrArg List.length hsplit
      simp only [List.length_append, List.length_cons, List.length_nil] at hlength
      omega
    obtain ⟨more, rfl⟩ := hfront
    rw [List.flatMap_append, List.append_eq_nil_iff] at hvain
    obtain ⟨result, rfl⟩ := hread call (by rw [hsplit]; simp)
    rw [hvain.1]
    exact ⟨rfl, room, result, rfl, Nat.zero_add _⟩

/-! ## Rounds -/

namespace Intake

open Escape

/-- Why reading is given up, if no front of what the bus brings completes what is missing: there is
a byte that stands wrongly behind a mark, or what the bus brings ends before. -/
inductive GivesUp (d : Decoder) (length target : Nat) (stream : Bytes) (failure? : Option IoError) :
    IntakeError → Prop
  | broken {front : Bytes} {byte : UInt8} (h : d.BreaksAt stream front byte) :
      GivesUp d length target stream failure? (.framing .danglingEscape)
  | owed (hall : (d.feedAll stream).failure = none) (hdry : failure? = none)
      (hpending : (d.feedAll stream).decoder.pending = true) :
      GivesUp d length target stream failure? (.framing .danglingEscape)
  | short (hall : (d.feedAll stream).failure = none) (hdry : failure? = none)
      (hrest : (d.feedAll stream).decoder.pending = false) :
      GivesUp d length target stream failure?
        (.framing (.truncated target (length + (d.feedAll stream).raw.length)))
  | failed {e : IoError} (hall : (d.feedAll stream).failure = none) (hfailed : failure? = some e) :
      GivesUp d length target stream failure? (.transport (.io e))

inductive Rounds (target : Nat) : Intake → Except IntakeError Unit → Intake → Prop
  | full {i : Intake} (hfull : target ≤ i.frame.length) : Rounds target i (.ok ()) i
  | failed {i q : Intake} {e : TransportError} (hless : i.frame.length < target)
      (hread : i.bus.readSome (target - i.frame.length) = (.error e, q.bus)) :
      Rounds target i (.error (.transport e)) q
  | dry {i q : Intake} {got : Option Bytes} (hless : i.frame.length < target)
      (hread : i.bus.readSome (target - i.frame.length) = (.ok got, q.bus))
      (hgot : got.getD [] = []) :
      Rounds target i (.error (.framing (i.stall target))) q
  | broken {i q : Intake} {piece : Bytes} {e : FramingError} (hless : i.frame.length < target)
      (hread : i.bus.readSome (target - i.frame.length) = (.ok (some piece), q.bus))
      (hfailure : (i.decoder.feedAll piece).failure = some e) :
      Rounds target i (.error (.framing e)) q
  | goesOn {i j q : Intake} {piece : Bytes} {result : Except IntakeError Unit}
      (hless : i.frame.length < target) (hne : piece ≠ [])
      (hread : i.bus.readSome (target - i.frame.length) = (.ok (some piece), j.bus))
      (hfailure : (i.decoder.feedAll piece).failure = none)
      (hdecoder : (i.decoder.feedAll piece).decoder = j.decoder)
      (happend : i.frame.append (i.decoder.feedAll piece).raw = .ok j.frame)
      (hrest : Rounds target j result q) : Rounds target i result q

variable {i j q : Intake} {target : Nat} {result : Except IntakeError Unit} {e : IntakeError}

theorem rounds_fill (hframe : target ≤ i.frame.capacity)
    (hwire : target - i.frame.length ≤ i.wire.capacity) :
    Rounds target i (i.fill target).1 (i.fill target).2 := by
  fun_induction fill i target with
  | case1 i hless missing wire e hlend =>
    obtain ⟨-, hfull⟩ := Buffer.overflow_of_lend hlend
    rw [Buffer.remaining_reset] at hfull
    omega
  | case2 i hless missing wire lent hlend e bus hread => exact .failed hless hread
  | case3 i hless missing wire lent hlend byte rest bus hread wire' e habsorb =>
    rcases absorb_eq_error habsorb with hfailure | ⟨-, hfull⟩
    · exact .broken hless hread hfailure
    · -- A piece is no longer than what is missing, and that much room there is.
      have hpiece := Channel.length_le_of_readSome hread
      have hraw := Decoder.length_raw_feedAll_le i.decoder (byte :: rest)
      have hcapacity := i.frame.length_add_remaining
      omega
  | case4 i hless missing wire lent hlend byte rest bus hread wire' decoder frame habsorb ih =>
    obtain ⟨hfailure, hdecoder, happend⟩ := absorb_eq_ok_iff.1 habsorb
    have hgrown := Buffer.length_of_append happend
    refine .goesOn hless (by simp) hread hfailure hdecoder happend (ih ?_ ?_)
    · rwa [Buffer.capacity_of_append happend]
    · simp only [wire', wire, Buffer.capacity_advance, Buffer.capacity_receive,
        Buffer.capacity_reset]
      omega
  | case5 i hless missing wire lent hlend got bus hgot hread =>
    refine .dry hless hread ?_
    rcases got with _ | _ | ⟨byte, rest⟩
    · rfl
    · rfl
    · exact absurd rfl (hgot byte rest)
  | case6 i hless => exact .full (Nat.le_of_not_lt hless)

theorem Rounds.calls (h : Rounds target i result q) :
    ∃ new, q.bus.calls = i.bus.calls ++ new ∧
      Call.Asks i.decoder (target - i.frame.length) new ∧
      (target ≤ i.frame.length → new = []) ∧
      (i.frame.length < target → new.countP (fun call => !call.isInterrupted) +
        i.decoder.held.length ≤ 2 * (target - i.frame.length)) := by
  -- The only round, or the last one, is a single read that was not interrupted.
  have hone : ∀ {i q : Intake} {got : Except TransportError (Option Bytes)},
      i.frame.length < target → i.bus.readSome (target - i.frame.length) = (got, q.bus) →
      ∃ new, q.bus.calls = i.bus.calls ++ new ∧
        Call.Asks i.decoder (target - i.frame.length) new ∧
        (target ≤ i.frame.length → new = []) ∧
        (i.frame.length < target → new.countP (fun call => !call.isInterrupted) +
          i.decoder.held.length ≤ 2 * (target - i.frame.length)) := by
    intro i q got hless hread
    obtain ⟨new, hcalls, -, hcount, hasks⟩ := Channel.asks_of_readSome hread
    have hheld := i.decoder.length_held_le
    exact ⟨new, hcalls, hasks _, fun hfull => by omega, fun _ => by omega⟩
  induction h with
  | full hfull =>
    exact ⟨[], by simp, fun front call back hsplit => by simp at hsplit, fun _ => rfl,
      fun hless => by omega⟩
  | failed hless hread | dry hless hread | broken hless hread => exact hone hless hread
  | @goesOn i j q piece result hless hne hread hfailure hdecoder happend hrest ih =>
    obtain ⟨first, hcalls, hreceived, hcount, hasks⟩ := Channel.asks_of_readSome hread
    obtain ⟨rest, hcalls', hasks', hnone, hfew⟩ := ih
    have hpositive := List.length_pos_iff.2 hne
    have hpiece := Channel.length_le_of_readSome hread
    have hraw := Decoder.length_raw_feedAll_le i.decoder piece
    have hgrown := Buffer.length_of_append happend
    have hbound := Decoder.length_le_of_feedAll hfailure
    have hheld := i.decoder.length_held_le
    have hsame : first.flatMap Call.received = piece := hreceived
    have hleft : (i.decoder.feedAll piece).raw.length + (target - j.frame.length) =
        target - i.frame.length := by omega
    rw [hdecoder] at hbound
    rw [← hdecoder] at hasks'
    rw [← hsame] at hfailure hleft hasks'
    refine ⟨first ++ rest, by rw [hcalls', hcalls, List.append_assoc],
      (hasks _).append hfailure hleft hasks', fun hfull => by omega, fun _ => ?_⟩
    rw [List.countP_append, hcount]
    by_cases hmore : j.frame.length < target
    · have hfew := hfew hmore
      omega
    · rw [hnone (Nat.le_of_not_lt hmore), List.countP_nil]
      omega

theorem Rounds.supply_eq (h : Rounds target i (.ok ()) q) :
    ∃ taken, i.bus.ReadsTo q.bus taken ∧ i.bus.supply = taken ++ q.bus.supply ∧
      i.bus.failure? = q.bus.failure? := by
  generalize hresult : (.ok () : Except IntakeError Unit) = result at h
  induction h with
  | full => exact ⟨[], .refl _, rfl, rfl⟩
  | failed | dry | broken => cases hresult
  | goesOn hless hne hread hfailure hdecoder happend hrest ih =>
    obtain ⟨taken, hreads, hsupply, hsame⟩ := ih hresult
    cases Channel.draws_of_readSome (by omega) hread with
    | piece _ hfront hfirst =>
      refine ⟨_, (Channel.readsTo_of_readSome hread).trans hreads, ?_, hfirst.trans hsame⟩
      rw [hfront, hsupply, List.append_assoc]
      rfl
    | dry hgot => exact absurd hgot hne

theorem GivesUp.of_piece {d : Decoder} {piece more : Bytes} {length : Nat}
    {failure? : Option IoError} (hfailure : (d.feedAll piece).failure = none)
    (h : GivesUp (d.feedAll piece).decoder (length + (d.feedAll piece).raw.length) target more
      failure? e) :
    GivesUp d length target (piece ++ more) failure? e := by
  have happend := Decoder.feedAll_append more hfailure
  cases h with
  | broken h => exact .broken (h.append hfailure)
  | owed hall hdry hpending =>
    exact .owed (by rw [happend]; exact hall) hdry (by rw [happend]; exact hpending)
  | short hall hdry hrest =>
    have hsum : length + (d.feedAll piece).raw.length +
        ((d.feedAll piece).decoder.feedAll more).raw.length =
          length + (d.feedAll (piece ++ more)).raw.length := by
      rw [happend, List.length_append, Nat.add_assoc]
    rw [hsum]
    exact .short (by rw [happend]; exact hall) hdry (by rw [happend]; exact hrest)
  | failed hall hfailed => exact .failed (by rw [happend]; exact hall) hfailed

theorem GivesUp.unique {d : Decoder} {length : Nat} {stream : Bytes} {failure? : Option IoError}
    {e' : IntakeError} (h : GivesUp d length target stream failure? e)
    (h' : GivesUp d length target stream failure? e') : e = e' := by
  rcases h with h | ⟨hall, hdry, hpending⟩ | ⟨hall, hdry, hrest⟩ | ⟨hall, hfailed⟩ <;>
    rcases h' with h' | ⟨hall', hdry', hpending'⟩ | ⟨hall', hdry', hrest'⟩ | ⟨hall', hfailed'⟩ <;>
    first
      | rfl
      | exact absurd hall' h.ne_none
      | exact absurd hall h'.ne_none
      | simp_all

theorem Rounds.givesUp (h : Rounds target i (.error e) q) :
    GivesUp i.decoder i.frame.length target i.bus.supply i.bus.failure? e ∧
      ∀ wire, ¬ i.decoder.Completes (target - i.frame.length) i.bus.supply wire := by
  -- Nothing completes what is missing if the bus brings nothing more.
  have hnothing : ∀ {i : Intake} {wire : Bytes}, i.frame.length < target → i.bus.supply = [] →
      ¬ i.decoder.Completes (target - i.frame.length) i.bus.supply wire := by
    intro i wire hless hsupply hcompletes
    have hwithin := hcompletes.within
    rw [hsupply, List.prefix_nil] at hwithin
    have hlength := hcompletes.length
    rw [hwithin, Decoder.feedAll_nil, List.length_nil] at hlength
    omega
  generalize hresult : (.error e : Except IntakeError Unit) = result at h
  induction h with
  | full => cases hresult
  | failed hless hread =>
    cases hresult
    cases Channel.draws_of_readSome (by omega) hread with
    | failed hsupply hfailure =>
      refine ⟨?_, fun wire => hnothing hless hsupply⟩
      rw [hsupply]
      exact .failed rfl hfailure
  | @dry i q got hless hread hgot =>
    cases hresult
    cases Channel.draws_of_readSome (by omega) hread with
    | piece hne => exact absurd hgot hne
    | dry _ hsupply hfailure =>
      refine ⟨?_, fun wire => hnothing hless hsupply⟩
      rw [hsupply, hfailure]
      unfold stall Decoder.finish
      cases hpending : i.decoder.pending with
      | true => exact .owed rfl rfl hpending
      | false => exact .short rfl rfl hpending
  | @broken i q piece e hless hread hfailure =>
    cases hresult
    cases Channel.draws_of_readSome (by omega) hread with
    | dry hgot =>
      obtain rfl : piece = [] := hgot
      cases hfailure
    | piece _ hsupply =>
      rw [Decoder.eq_danglingEscape_of_feedAll hfailure]
      obtain ⟨front, byte, hbreaks⟩ := Decoder.exists_breaksAt hfailure
      refine ⟨.broken ⟨?_, hbreaks.failure, hbreaks.pending, hbreaks.byte⟩,
        fun wire hcompletes => ?_⟩
      · rw [hsupply]
        exact hbreaks.within.trans (List.prefix_append _ _)
      · rw [hsupply] at hcompletes
        obtain ⟨rest, rfl⟩ := hcompletes.begins (Channel.length_le_of_readSome hread)
        have hnone := Decoder.failure_of_append hcompletes.failure
        rw [hfailure] at hnone
        cases hnone
  | @goesOn i j q piece result hless hne hread hfailure hdecoder happend hrest ih =>
    have hgrown := Buffer.length_of_append happend
    cases Channel.draws_of_readSome (by omega) hread with
    | dry hgot => exact absurd hgot hne
    | piece _ hsupply hsame =>
      obtain ⟨hgives, hnone⟩ := ih hresult
      rw [← hdecoder, hgrown] at hgives hnone
      rw [hsupply, hsame]
      refine ⟨hgives.of_piece hfailure, fun wire hcompletes => ?_⟩
      obtain ⟨rest, rfl⟩ := hcompletes.begins (Channel.length_le_of_readSome hread)
      refine hnone rest ?_
      rw [← Nat.sub_sub]
      exact hcompletes.rest

/-- Reading took some bytes off what the bus brings, and they are decoded into the frame. -/
structure Fetched (i q : Intake) (wire : Bytes) : Prop where
  reads : i.bus.ReadsTo q.bus wire
  supply : i.bus.supply = wire ++ q.bus.supply
  failure : i.bus.failure? = q.bus.failure?
  frame : i.frame.append (i.decoder.feedAll wire).raw = .ok q.frame
  decoder : (i.decoder.feedAll wire).decoder = q.decoder
  rest : q.decoder.pending = false

theorem Rounds.fetched (hless : i.frame.length < target) (h : Rounds target i (.ok ()) q)
    (hfill : i.fill target = (.ok (), q)) :
    ∃ wire, i.decoder.CompletesFirst (target - i.frame.length) i.bus.supply wire ∧
      i.Fetched q wire := by
  obtain ⟨taken, hfilled⟩ := filled_of_fill hfill
  obtain ⟨wire, hreads, hsupply, hsame⟩ := h.supply_eq
  obtain rfl : wire = taken := by
    rw [← hreads.received_callsSince, hfilled.took.bus.received_callsSince]
  have hrest := hfilled.rest hless
  have hgrown := Buffer.length_of_append hfilled.append
  have hfull := hfilled.length (Nat.le_of_lt hless)
  have hcompletes : i.decoder.Completes (target - i.frame.length) i.bus.supply wire :=
    ⟨⟨_, hsupply.symm⟩, hfilled.failure, by omega⟩
  refine ⟨wire, hcompletes.first ?_, hreads, hsupply, hsame, hfilled.append, hfilled.decoder, hrest⟩
  rwa [hfilled.decoder]

/-- Two intakes that agree in all but how the bus cuts what it brings, and the room for pieces. -/
structure SameUpToCuts (i j : Intake) : Prop where
  frame : j.frame = i.frame
  decoder : j.decoder = i.decoder
  supply : j.bus.supply = i.bus.supply
  failure : j.bus.failure? = i.bus.failure?

theorem fill_cases (hless : i.frame.length < target) (hframe : target ≤ i.frame.capacity)
    (hwire : target - i.frame.length ≤ i.wire.capacity) :
    (∃ wire q, i.fill target = (.ok (), q) ∧
      i.decoder.CompletesFirst (target - i.frame.length) i.bus.supply wire ∧ i.Fetched q wire) ∨
    (∃ e q, i.fill target = (.error e, q) ∧
      GivesUp i.decoder i.frame.length target i.bus.supply i.bus.failure? e ∧
        ∀ wire, ¬ i.decoder.Completes (target - i.frame.length) i.bus.supply wire) := by
  have hrounds := rounds_fill hframe hwire
  rcases hfill : i.fill target with ⟨e | _, q⟩ <;> rw [hfill] at hrounds
  · exact .inr ⟨e, q, rfl, hrounds.givesUp⟩
  · obtain ⟨wire, hfirst, hfetched⟩ := hrounds.fetched hless hfill
    exact .inl ⟨wire, q, rfl, hfirst, hfetched⟩

theorem Fetched.sameUpToCuts {q' : Intake} {wire : Bytes} (h : i.Fetched q wire)
    (h' : j.Fetched q' wire) (hsame : i.SameUpToCuts j) : q.SameUpToCuts q' := by
  obtain ⟨hframe, hdecoder, hsupply, hfailure⟩ := hsame
  have happend := h'.frame
  have hrest := h'.supply
  rw [hframe, hdecoder, h.frame] at happend
  rw [hsupply, h.supply] at hrest
  refine ⟨(Except.ok.inj happend).symm, ?_, (List.append_cancel_left hrest).symm, ?_⟩
  · rw [← h'.decoder, ← h.decoder, hdecoder]
  · rw [← h'.failure, ← h.failure, hfailure]

/-- What comes of reading is the same for any cuts, and so is what is left after a success. -/
theorem fill_of_sameUpToCuts (hless : i.frame.length < target)
    (hframe : target ≤ i.frame.capacity) (hwire : target - i.frame.length ≤ i.wire.capacity)
    (hsame : i.SameUpToCuts j) (hroom : target - i.frame.length ≤ j.wire.capacity) :
    (j.fill target).1 = (i.fill target).1 ∧
      ((i.fill target).1 = .ok () → (i.fill target).2.SameUpToCuts (j.fill target).2) := by
  have hj := @fill_cases j target (by rwa [hsame.frame]) (by rwa [hsame.frame])
    (by rwa [hsame.frame])
  rw [hsame.frame, hsame.decoder, hsame.supply, hsame.failure] at hj
  rcases fill_cases hless hframe hwire with
      ⟨wire, q, hfill, hfirst, hfetched⟩ | ⟨e, q, hfill, hgives, hnone⟩ <;>
    rcases hj with ⟨wire', q', hfill', hfirst', hfetched'⟩ | ⟨e', q', hfill', hgives', hnone'⟩ <;>
    rw [hfill, hfill']
  · rw [hfirst.unique hfirst'] at hfetched
    exact ⟨rfl, fun _ => hfetched.sameUpToCuts hfetched' hsame⟩
  · exact absurd hfirst.toCompletes (hnone' wire)
  · exact absurd hfirst'.toCompletes (hnone wire')
  · rw [hgives.unique hgives']
    exact ⟨rfl, fun hok => by cases hok⟩

/-- With room for what is missing, reading succeeds if and only if some front of what the bus
brings completes it, and takes the shortest such front; how the bus cuts what it brings does not
count.  The reads end, and each asks for no more bytes than raw bytes are missing. -/
theorem fetches_of_room (hless : i.frame.length < target) (hframe : target ≤ i.frame.capacity)
    (hwire : target - i.frame.length ≤ i.wire.capacity) :
    ((∃ wire, i.decoder.Completes (target - i.frame.length) i.bus.supply wire) →
      ∃ wire q, i.fill target = (.ok (), q) ∧
        i.decoder.CompletesFirst (target - i.frame.length) i.bus.supply wire ∧
        i.Fetched q wire) ∧
    ((∀ wire, ¬ i.decoder.Completes (target - i.frame.length) i.bus.supply wire) →
      ∃ e q, i.fill target = (.error e, q) ∧
        GivesUp i.decoder i.frame.length target i.bus.supply i.bus.failure? e) ∧
    (∀ j : Intake, i.SameUpToCuts j → target - i.frame.length ≤ j.wire.capacity →
      (j.fill target).1 = (i.fill target).1 ∧
        ((i.fill target).1 = .ok () → (i.fill target).2.SameUpToCuts (j.fill target).2)) ∧
    Call.Asks i.decoder (target - i.frame.length) ((i.fill target).2.bus.callsSince i.bus) ∧
    ((i.fill target).2.bus.callsSince i.bus).countP (fun call => !call.isInterrupted) ≤
      2 * (target - i.frame.length) := by
  obtain ⟨new, hcalls, hasks, -, hfew⟩ := (rounds_fill hframe hwire).calls
  rw [Channel.callsSince_of_append hcalls]
  refine ⟨?_, ?_, fun j => fill_of_sameUpToCuts hless hframe hwire, hasks, ?_⟩
  · rintro ⟨wire, hcompletes⟩
    rcases fill_cases hless hframe hwire with hok | ⟨e, q, -, -, hnone⟩
    · exact hok
    · exact absurd hcompletes (hnone wire)
  · intro hnone
    rcases fill_cases hless hframe hwire with
      ⟨wire, q, -, hfirst, -⟩ | ⟨e, q, hfill, hgives, -⟩
    · exact absurd hfirst.toCompletes (hnone wire)
    · exact ⟨e, q, hfill, hgives⟩
  · have hfew := hfew hless
    omega

/-- A mark is held, the second piece begins with the follower of a mark at the end of the first,
and a byte stands behind what is asked for. -/
def cutEscape : Intake where
  frame := ⟨[], [0x05], [0, 0, 0]⟩
  wire := .ofCapacity 3
  decoder := ⟨true⟩
  bus :=
    { arrivals := [.data [0x01, 0x27], .failed ⟨.interrupted, "signal"⟩, .data [0x01, 0x06, 0x09]] }

theorem fetches_of_room_of_cutEscape :
    cutEscape.frame.length < 4 ∧ 4 ≤ cutEscape.frame.capacity ∧
      4 - cutEscape.frame.length ≤ cutEscape.wire.capacity ∧
      ∃ q, cutEscape.fill 4 = (.ok (), q) ∧ q.frame.filled = [0x05, 0x27, 0x27, 0x06] ∧
        q.bus.supply = [0x09] := by
  have hless : cutEscape.frame.length < 4 := by decide
  have hframe : 4 ≤ cutEscape.frame.capacity := by decide
  have hwire : 4 - cutEscape.frame.length ≤ cutEscape.wire.capacity := by decide
  have hcompletes : cutEscape.decoder.Completes (4 - cutEscape.frame.length) cutEscape.bus.supply
      [0x01, 0x27, 0x01, 0x06] := ⟨by decide, by decide, by decide⟩
  obtain ⟨wire, q, hfill, hfirst, hfetched⟩ :=
    (fetches_of_room hless hframe hwire).1 ⟨_, hcompletes⟩
  obtain rfl := hfirst.unique (hcompletes.first (by decide))
  refine ⟨hless, hframe, hwire, q, hfill, ?_, ?_⟩
  · rw [Buffer.filled_of_append hfetched.frame]
    decide
  · have hsupply : [0x01, 0x27, 0x01, 0x06] ++ [0x09] =
        [0x01, 0x27, 0x01, 0x06] ++ q.bus.supply := hfetched.supply
    exact (List.append_cancel_left hsupply).symm

end Intake

end SpiBridge
