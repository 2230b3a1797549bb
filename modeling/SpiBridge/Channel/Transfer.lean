import SpiBridge.Channel.Basic
/-!
# Transfers

How the bridge reads and writes.  A read that is interrupted is made again, and
one that would block is no failure.  A write offers the bytes that were not yet
taken until none is left, and then flushes.  The bounded write waits before each
call until the channel can take bytes, but not longer than its timeout.
-/

namespace SpiBridge

def IoError.isInterruption (e : IoError) : Bool :=
  e.kind == .interrupted

def IoError.isBlock (e : IoError) : Bool :=
  e.kind == .wouldBlock

def IoError.isTransient (e : IoError) : Bool :=
  e.isInterruption || e.isBlock

def Arrival.isInterruption : Arrival → Bool
  | .failed e => e.isInterruption
  | _ => false

namespace Channel

def pastInterruptions (c : Channel) (room : Nat) : Channel :=
  { c with
    arrivals := c.arrivals.dropWhile Arrival.isInterruption
    calls := c.calls ++
      (c.arrivals.takeWhile Arrival.isInterruption).map fun _ =>
        Call.read room (.error .interrupted) }

/-- Reads into so much room, again after each interruption; nothing if it would block. -/
def readSome (c : Channel) (room : Nat) : Except TransportError (Option Bytes) × Channel :=
  match (if room = 0 then c else c.pastInterruptions room).read room with
  | (.ok bytes, c) => (.ok (some bytes), c)
  | (.error e, c) => (if e.isBlock then .ok none else .error (.io e), c)

theorem waiting_pastInterruptions (c : Channel) (room : Nat) :
    (c.pastInterruptions room).waiting = c.waiting := by
  suffices h : ∀ items : List Arrival,
      ({ c with arrivals := items.dropWhile Arrival.isInterruption } : Channel).waiting =
        ({ c with arrivals := items } : Channel).waiting from h c.arrivals
  intro items
  induction items with
  | nil => rfl
  | cons item rest ih =>
    cases item with
    | failed e =>
      simp only [List.dropWhile_cons]
      split
      · exact ih
      · rfl
    | data | ended => rfl

theorem waiting_of_readSome {c q : Channel} {room : Nat} {bytes : Bytes}
    (h : c.readSome room = (.ok (some bytes), q)) : c.waiting = bytes ++ q.waiting := by
  have hpast : (if room = 0 then c else c.pastInterruptions room).waiting = c.waiting := by
    split
    · rfl
    · exact waiting_pastInterruptions c room
  unfold readSome at h
  split at h
  · rename_i got r hread
    simp only [Prod.mk.injEq, Except.ok.injEq, Option.some.injEq] at h
    obtain ⟨rfl, rfl⟩ := h
    rw [← hpast, waiting_of_read hread]
  · rename_i e r hread
    split at h <;> simp at h

/-- What is left to do after a write: the bytes not yet taken, or the error that ends it. -/
def afterWrite (role : ChannelRole) (bytes : Bytes) :
    Except IoError Nat → Except TransportError Bytes
  | .ok 0 => .error (.closed role)
  | .ok count => .ok (bytes.drop count)
  | .error e => if e.isTransient then .ok bytes else .error (.io e)

def offerTo (c : Channel) (role : ChannelRole) (bytes : Bytes) :
    List Acceptance → Except TransportError Unit × Channel
  | [] =>
    let c := { c with acceptances := [] }
    if bytes = [] then (.ok (), c)
    else match c.write bytes with
      | (result, c) => ((afterWrite role bytes result).map fun _ => (), c)
  | item :: rest =>
    let c := { c with acceptances := item :: rest }
    if bytes = [] then (.ok (), c)
    else match c.write bytes with
      | (result, c) =>
        match afterWrite role bytes result with
        | .ok left => c.offerTo role left rest
        | .error e => (.error e, c)

def offer (c : Channel) (role : ChannelRole) (bytes : Bytes) :
    Except TransportError Unit × Channel :=
  c.offerTo role bytes c.acceptances

def flushWhile (c : Channel) (again : IoError → Bool) : Except TransportError Unit × Channel :=
  let c := { c with
    flushes := c.flushes.dropWhile again
    calls := c.calls ++
      (c.flushes.takeWhile again).map fun (e : IoError) => Call.flush (.error e.kind) }
  match c.flush with
  | (.ok (), c) => (.ok (), c)
  | (.error e, c) => (.error (.io e), c)

def writeFully (c : Channel) (role : ChannelRole) (bytes : Bytes) :
    Except TransportError Unit × Channel :=
  match c.offer role bytes with
  | (.ok (), c) => c.flushWhile IoError.isTransient
  | (.error e, c) => (.error e, c)

end Channel

/-- What a poll of a channel's room finds, and where the clock stands after it. -/
inductive RoomPoll where
  | ready (clock : Instant)
  | idle (clock : Instant)
  | failed (error : IoError)
  deriving DecidableEq

/-- An outgoing channel that is polled for room before each write. -/
structure Outlet where
  channel : Channel := {}
  clock : Instant := .start
  polls : List RoomPoll := []
  /-- What all later polls find; without room the clock passes every deadline. -/
  writable : Bool := true
  refusals : List RoomPoll := []

namespace Outlet

def refusing (o : Outlet) (poll : RoomPoll) : Outlet :=
  { o with refusals := o.refusals ++ [poll] }

inductive Failure where
  | transport (error : TransportError)
  | clockRange
  deriving DecidableEq

def offerTo (o : Outlet) (role : ChannelRole) (timeout : Duration) (deadline : Instant)
    (bytes : Bytes) : List RoomPoll → Except TransportError Unit × Outlet
  | [] =>
    let o := { o with polls := [] }
    if bytes = [] then (.ok (), o)
    else if o.writable then
      match o.channel.offer role bytes with
      | (result, channel) => (result, { o with channel })
    else (.error (.writeTimeout role timeout), o.refusing (.idle deadline))
  | poll :: rest =>
    if bytes = [] then (.ok (), { o with polls := poll :: rest })
    else match poll with
      | .failed e => (.error (.io e), { o with polls := rest }.refusing poll)
      | .idle clock =>
        if deadline.reachedBy clock then
          (.error (.writeTimeout role timeout), { o with polls := rest }.refusing poll)
        else (o.refusing poll).offerTo role timeout deadline bytes rest
      | .ready _ =>
        match o.channel.write bytes with
        | (result, channel) =>
          match Channel.afterWrite role bytes result with
          | .ok left => { o with channel }.offerTo role timeout deadline left rest
          | .error e => (.error e, { o with channel, polls := rest })

/-- Writes all bytes and flushes, within a timeout that starts with the call. -/
def writeWithin (o : Outlet) (role : ChannelRole) (timeout : Duration) (bytes : Bytes) :
    Except Failure Unit × Outlet :=
  match o.clock.after? timeout with
  | none => (.error .clockRange, o)
  | some deadline =>
    match o.offerTo role timeout deadline bytes o.polls with
    | (.error e, o) => (.error (.transport e), o)
    | (.ok (), o) =>
      match o.channel.flushWhile IoError.isInterruption with
      | (.ok (), channel) => (.ok (), { o with channel })
      | (.error e, channel) => (.error (.transport e), { o with channel })

end Outlet

end SpiBridge
