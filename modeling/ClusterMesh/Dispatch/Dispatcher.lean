import ClusterMesh.Message.Basic

/-!
# Dispatchers

A dispatcher accepts messages for the handlers of a node and counts what becomes of them. For
each accepted message the handler is looked up at once, then once in every interval and a
last time when the timeout is over; the message is dropped if no handler was found by then.
The messages are worked on side by side, or one after the other by a single worker.

A call that gives a message to a dispatcher comes to it twice: it checks whether the dispatcher is
shut down, and then places the message. A shutdown comes to it twice as well: it closes the
dispatcher, and then severs the queue. Calls and shutdowns of other threads may come in between.
-/

namespace ClusterMesh

/-- Whether every message has a task of its own or a single worker takes them in turn. -/
inductive PoolMode
  | cached
  | single
deriving DecidableEq, Repr, Inhabited

/-- Messages that reached a handler, messages that were dropped, handlers that failed or
panicked, and accepted messages that are not finished. A program counts in words of 64 bits, which
wrap around; numbers do not, and none of these is greater than the number of calls. -/
structure DispatchStats where
  dispatched : Nat
  dropped : Nat
  failures : Nat
  inFlight : Nat
deriving DecidableEq, Repr, Inhabited

inductive DispatchEnd
  | handled
  | failed
  | panicked
  | unhandled
deriving DecidableEq, Repr

namespace DispatchStats

def zero : DispatchStats := ⟨0, 0, 0, 0⟩

def accept (s : DispatchStats) : DispatchStats := { s with inFlight := s.inFlight + 1 }

def refuse (s : DispatchStats) : DispatchStats := { s with dropped := s.dropped + 1 }

/-- An accepted message is dropped after all. -/
def withdraw (s : DispatchStats) : DispatchStats :=
  { s with inFlight := s.inFlight - 1, dropped := s.dropped + 1 }

def finish (s : DispatchStats) (e : DispatchEnd) : DispatchStats :=
  let s := { s with inFlight := s.inFlight - 1 }
  match e with
  | .handled => { s with dispatched := s.dispatched + 1 }
  | .failed => { s with dispatched := s.dispatched + 1, failures := s.failures + 1 }
  | .panicked => { s with failures := s.failures + 1 }
  | .unhandled => { s with dropped := s.dropped + 1 }

end DispatchStats

/-- A call that gives a message to a dispatcher. The place at which the message was read from the bus,
if it was, stays with it. -/
structure DispatchCall where
  message : Message
  origin : Option Nat

/-- A dispatcher. The queue holds the messages that the single worker has not taken yet; a
worker that is gone takes no more, and no more are sent to a queue that is severed. Calls are under
way that have passed the check and have not placed their messages yet. -/
structure Dispatcher where
  interval : Nat
  timeout : Nat
  pool : PoolMode
  closed : Bool
  severed : Bool
  workerGone : Bool
  entering : List DispatchCall
  queue : List Message
  stats : DispatchStats

inductive Admission
  | refused
  | queued
  | started
deriving DecidableEq, Repr

namespace Dispatcher

def start (interval timeout : Nat) (pool : PoolMode) : Dispatcher :=
  ⟨interval, timeout, pool, false, false, false, [], [], DispatchStats.zero⟩

instance : Inhabited Dispatcher := ⟨start 1000 10000 .cached⟩

/-- There is a queue to send messages to. -/
def hasSender (d : Dispatcher) : Bool := d.pool = .single && !d.severed

/-- A call has passed the check, and counts its message. -/
def enlist (d : Dispatcher) : Dispatcher := { d with stats := d.stats.accept }

/-- A call places its message: at the end of the queue if there is one, unless the worker is gone;
else the message starts at once. The sender is copied and used in one access, as a queue to which a
copy leads stays open until that is used. -/
def place (d : Dispatcher) (m : Message) : Dispatcher × Admission :=
  if d.hasSender then
    if d.workerGone then ({ d with stats := d.stats.withdraw }, .refused)
    else ({ d with queue := d.queue ++ [m] }, .queued)
  else (d, .started)

/-- A call at one stroke. A dispatcher that is shut down drops the message. -/
def accept (d : Dispatcher) (m : Message) : Dispatcher × Admission :=
  if d.closed then ({ d with stats := d.stats.refuse }, .refused) else d.enlist.place m

/-- A call that has passed the check stays under way. -/
def enter (d : Dispatcher) (c : DispatchCall) : Dispatcher :=
  { d.enlist with entering := d.entering ++ [c] }

/-- One of the calls under way goes on. -/
def resume (d : Dispatcher) (k : Nat) : Dispatcher :=
  { d with entering := d.entering.eraseIdx k }

/-- A call at one stroke is one that goes on as soon as it is under way. -/
theorem accept_of_open {d : Dispatcher} (h : d.closed = false) (c : DispatchCall) :
    d.accept c.message = ((d.enter c).resume d.entering.length).place c.message := by
  have hresume : (d.enter c).resume d.entering.length = d.enlist := by
    simp [enter, resume, enlist, List.eraseIdx_append_of_length_le]
  rw [hresume, accept, h]
  rfl

def takeQueued? (d : Dispatcher) : Option (Message × Dispatcher) :=
  match d.queue with
  | [] => none
  | m :: rest => some (m, { d with queue := rest })

def finish (d : Dispatcher) (e : DispatchEnd) : Dispatcher := { d with stats := d.stats.finish e }

/-- Let no more calls pass the check. -/
def close (d : Dispatcher) : Dispatcher := { d with closed := true }

/-- Take the sender of the queue away; a worker ends when it has emptied the queue. -/
def sever (d : Dispatcher) : Dispatcher := { d with severed := true }

/-- When to look for a handler again after a look-up at `now` that found none: an interval
later, but not after the deadline; never again once the deadline is reached. -/
def nextLookup? (d : Dispatcher) (now deadline : Nat) : Option Nat :=
  if deadline ≤ now then none else some (min (now + d.interval) deadline)

end Dispatcher

end ClusterMesh
