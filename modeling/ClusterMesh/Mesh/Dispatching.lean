import ClusterMesh.Mesh.Handling

/-!
# Dispatching

The work on a message that a dispatcher has accepted: look for a handler until there is one or
the deadline is reached, let the handler deal with the message, and count how it ended.
-/

namespace ClusterMesh.Mesh

def countedAs : HandlerEnd → DispatchEnd
  | .succeeded => .handled
  | .failed _ => .failed
  | .panicked => .panicked

def concludeJob (m : Mesh) (i : Nat) (id : HandlerId) (message : Message) : Mesh :=
  let after := m.handle i id message
  after.1.updateDispatcher i (fun d => d.finish (countedAs after.2))

/-- Look for the handler of a message. A handler that does not wait deals with it at once. Also
gives where the work stands, unless it has ended. -/
def seekHandler (m : Mesh) (t i : Nat) (message : Message) (deadline : Nat) :
    Mesh × Option Job :=
  match (m.station i).lookup? message.eventType with
  | some id =>
    let wait := m.waitOf i id message
    if wait = 0 then (m.concludeJob i id message, none)
    else (m.setAlarm (m.now + wait) t, some ⟨message, .handling id (m.now + wait)⟩)
  | none =>
    match (m.station i).dispatcher.nextLookup? m.now deadline with
    | some next => (m.setAlarm next t, some ⟨message, .searching deadline next⟩)
    | none => (m.updateDispatcher i (fun d => d.finish .unhandled), none)

def stepJob (m : Mesh) (t i : Nat) (job : Job) : Mesh × Option Job :=
  match job.stage with
  | .arrived => m.seekHandler t i job.message (m.now + (m.station i).dispatcher.timeout)
  | .searching deadline next =>
    if m.now < next then (m, some job) else m.seekHandler t i job.message deadline
  | .handling id due =>
    if m.now < due then (m, some job) else (m.concludeJob i id job.message, none)

def runDispatch (m : Mesh) (t i : Nat) (job : Job) : Mesh :=
  match m.stepJob t i job with
  | (m, some job) => m.setActivity t (.dispatching job)
  | (m, none) => m.finish t .done

/-- Let a worker without a message take messages off its queue, at most so many, until one of
them has to wait. -/
def takeTurns (m : Mesh) (t i : Nat) : Nat → Mesh
  | 0 => m.setActivity t (.working none)
  | fuel + 1 =>
    match (m.station i).dispatcher.takeQueued? with
    | none =>
      if (m.station i).dispatcher.severed then m.finish t .done
      else m.setActivity t (.working none)
    | some (message, d) =>
      match (m.updateDispatcher i (fun _ => d)).stepJob t i ⟨message, .arrived⟩ with
      | (m, some job) => m.setActivity t (.working (some job))
      | (m, none) => takeTurns m t i fuel

def runWorker (m : Mesh) (t i : Nat) (job : Option Job) : Mesh :=
  let turns := (m.station i).dispatcher.queue.length + 1
  match job with
  | none => m.takeTurns t i turns
  | some job =>
    match m.stepJob t i job with
    | (m, some job) => m.setActivity t (.working (some job))
    | (m, none) => m.takeTurns t i turns

/-- Let a loop take messages off the bus, at most so many, until there is none. -/
def drainBus (m : Mesh) (t i subscriber : Nat) : Nat → Mesh
  | 0 => m
  | fuel + 1 =>
    match m.bus.receive subscriber with
    | (bus, .nothing) => { m with bus := bus.await t }
    | (bus, .message message) =>
      drainBus ({ m with bus := bus }.consume i message).1 t i subscriber fuel
    | (bus, .lagged _) => drainBus { m with bus := bus } t i subscriber fuel

def runLoop (m : Mesh) (t i : Nat) : Option Nat → Mesh
  | some subscriber => m.drainBus t i subscriber (m.bus.unread subscriber + 2)
  | none => m.finish t .done

end ClusterMesh.Mesh
