import SpiBridge.Bytes
import SpiBridge.Channel.Error
/-!
# Channels

A channel carries bytes between the bridge and a peer.  Seen from the bridge it
is what its next reads and writes will meet, in order, and how it goes on after
that.  The peer decides all of this; the bridge only calls.  A channel also keeps
the calls made on it.

Main statement: a read gives bytes only by taking them from those that wait.
-/

namespace SpiBridge

/-- What a read meets. -/
inductive Arrival where
  | data (bytes : Bytes)
  | ended
  | failed (error : IoError)
  deriving DecidableEq, Repr

/-- What a write meets. -/
inductive Acceptance where
  | takes (limit : Nat)
  | failed (error : IoError)
  deriving DecidableEq, Repr

def Acceptance.answer (bytes : Bytes) : Acceptance → Except IoError Nat
  | .takes limit => .ok (min limit bytes.length)
  | .failed e => .error e

inductive Drained where
  | blocks
  | ended
  deriving DecidableEq, Repr

inductive Call where
  | read (room : Nat) (result : Except IoKind Bytes)
  | write (offered : Bytes) (result : Except IoKind Nat)
  | flush (result : Except IoKind Unit)
  deriving Repr

namespace Call

def received : Call → Bytes
  | read _ (.ok bytes) => bytes
  | _ => []

def delivered : Call → Bytes
  | write offered (.ok count) => offered.take count
  | _ => []

end Call

/-- What the calls on a channel will meet, and the calls made so far. -/
structure Channel where
  arrivals : List Arrival := []
  drained : Drained := .ended
  acceptances : List Acceptance := []
  deserted : Bool := false
  flushes : List IoError := []
  calls : List Call := []
  deriving Repr

namespace Channel

def silent : Channel := {}

def logged (c : Channel) (call : Call) : Channel :=
  { c with calls := c.calls ++ [call] }

def unlogged (c : Channel) : Channel :=
  { c with calls := [] }

def received (c : Channel) : Bytes :=
  c.calls.flatMap Call.received

def delivered (c : Channel) : Bytes :=
  c.calls.flatMap Call.delivered

def waiting (c : Channel) : Bytes :=
  c.arrivals.flatMap fun
    | .data bytes => bytes
    | _ => []

def readable (c : Channel) : Bool :=
  !c.arrivals.isEmpty || c.drained == .ended

def arrive (c : Channel) (items : List Arrival) : Channel :=
  { c with arrivals := c.arrivals ++ items }

def willTake (c : Channel) (items : List Acceptance) : Channel :=
  { c with acceptances := c.acceptances ++ items }

def willFailToFlush (c : Channel) (errors : List IoError) : Channel :=
  { c with flushes := c.flushes ++ errors }

def stream (c : Channel) (bytes : Bytes) : Channel :=
  if bytes = [] then c
  else match c.arrivals.getLast? with
    | some (.data last) => { c with arrivals := c.arrivals.dropLast ++ [.data (last ++ bytes)] }
    | _ => c.arrive [.data bytes]

def read (c : Channel) (room : Nat) : Except IoError Bytes × Channel :=
  if room = 0 then
    (.ok [], c.logged (.read 0 (.ok [])))
  else match c.arrivals with
    | [] =>
      match c.drained with
      | .blocks => (.error .blocked, c.logged (.read room (.error .wouldBlock)))
      | .ended => (.ok [], c.logged (.read room (.ok [])))
    | .data bytes :: rest =>
      let left := if bytes.drop room = [] then rest else .data (bytes.drop room) :: rest
      (.ok (bytes.take room),
        { c with arrivals := left }.logged (.read room (.ok (bytes.take room))))
    | .ended :: rest =>
      (.ok [], { c with arrivals := rest }.logged (.read room (.ok [])))
    | .failed e :: rest =>
      (.error e, { c with arrivals := rest }.logged (.read room (.error e.kind)))

def resultKind {α : Type} (result : Except IoError α) : Except IoKind α :=
  result.mapError IoError.kind

@[simp] theorem resultKind_ok {α : Type} (a : α) : resultKind (.ok a) = .ok a := rfl

@[simp] theorem resultKind_error {α : Type} (e : IoError) :
    resultKind (.error e : Except IoError α) = .error e.kind := rfl

/-- What a write meets once nothing is queued: all bytes are taken, or nobody is there. -/
def lastAnswer (c : Channel) (bytes : Bytes) : Except IoError Nat :=
  if c.deserted then .error .brokenPipe else .ok bytes.length

def write (c : Channel) (bytes : Bytes) : Except IoError Nat × Channel :=
  match c.acceptances with
  | [] => (c.lastAnswer bytes, c.logged (.write bytes (resultKind (c.lastAnswer bytes))))
  | item :: rest =>
    (item.answer bytes,
      { c with acceptances := rest }.logged
        (.write bytes (resultKind (item.answer bytes))))

def flush (c : Channel) : Except IoError Unit × Channel :=
  match c.flushes with
  | [] => (.ok (), c.logged (.flush (.ok ())))
  | e :: rest => (.error e, { c with flushes := rest }.logged (.flush (.error e.kind)))

theorem waiting_of_read {c q : Channel} {room : Nat} {bytes : Bytes}
    (h : c.read room = (.ok bytes, q)) : c.waiting = bytes ++ q.waiting := by
  obtain ⟨arrivals, drained, acceptances, deserted, flushes, calls⟩ := c
  unfold read at h
  split at h
  · simp only [Prod.mk.injEq, Except.ok.injEq] at h
    obtain ⟨rfl, rfl⟩ := h
    rfl
  · cases arrivals with
    | nil =>
      cases drained <;> simp only [Prod.mk.injEq, Except.ok.injEq, reduceCtorEq, false_and] at h
      obtain ⟨rfl, rfl⟩ := h
      rfl
    | cons item rest =>
      cases item with
      | data item =>
        simp only [Prod.mk.injEq, Except.ok.injEq] at h
        obtain ⟨rfl, rfl⟩ := h
        split
        · rename_i hroom hnil
          rw [← List.append_cancel_left_eq (item.take room), List.take_append_drop,
            List.append_nil] at hnil
          simp [waiting, logged, ← hnil]
        · simp [waiting, logged, ← List.append_assoc]
      | ended =>
        simp only [Prod.mk.injEq, Except.ok.injEq] at h
        obtain ⟨rfl, rfl⟩ := h
        simp [waiting, logged]
      | failed e => simp at h

end Channel

end SpiBridge
