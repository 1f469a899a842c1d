import ClusterMesh.Mesh.Station
import ClusterMesh.Schedule.Machine
import ClusterMesh.Transport.Bus

/-!
# The mesh

Stations on one bus and the tasks that work for them. Whatever a station does over time is a
task: a loop that takes messages off the bus, the work on a message, a call that waits for
results, a reaper that ends an expired command. A task runs until it has to wait, and what it
does until then is one step.
-/

namespace ClusterMesh

/-- Where the work on a message stands: it has just begun; a handler is sought until the
deadline, the next time at an instant; or a handler that was found waits for an instant. -/
inductive JobStage
  | arrived
  | searching (deadline next : Nat)
  | handling (handler : HandlerId) (due : Nat)

structure Job where
  message : Message
  stage : JobStage

/-- Where a call stands: it was submitted; its command is stored, has a reaper and is on its way
through the transport; or it waits for its results, but not longer than up to an instant. -/
inductive CallStage
  | submitted
  | sending (ticket : Ticket) (timeout reaper : Nat)
  | waiting (ticket : Ticket) (due reaper : Nat)

inductive HandlerEnd
  | succeeded
  | failed (e : MeshError)
  | panicked

inductive TaskEnd
  | done
  | reaped (expired : Bool)
  | returned (instant : Nat) (outcome : Except MeshError Outcome)
  | handled (e : HandlerEnd)
  | cancelled

/-- What a task does. A loop without a subscriber is on a bus that is gone. -/
inductive Activity
  | receiving (subscriber : Option Nat)
  | dispatching (job : Job)
  | working (job : Option Job)
  | reaping (ticket : Ticket) (delay : Nat) (due : Option Nat)
  | executing (command : Command) (stage : CallStage)
  | handling (handler : HandlerId) (message : Message) (due : Option Nat)
  | ended (e : TaskEnd)

/-- A task of a station. An aborted one ends as soon as it would run again. -/
structure Task where
  station : Nat
  activity : Activity
  aborted : Bool

def Task.end? (t : Task) : Option TaskEnd :=
  match t.activity with
  | .ended e => some e
  | _ => none

/-- Stations on one bus, their tasks by number, and the journal of what scripted handlers did,
with the instants. -/
structure Mesh where
  agenda : Agenda
  bus : Bus Message
  stations : List Station
  tasks : List Task
  journal : List (Nat × String)

namespace Mesh

/-- A mesh without stations whose bus keeps at least so many messages. -/
def ofCapacity (capacity : Nat) : Mesh := ⟨Agenda.empty, Bus.ofCapacity capacity, [], [], []⟩

instance : Inhabited Mesh := ⟨ofCapacity 1⟩

def now (m : Mesh) : Nat := m.agenda.now

def station (m : Mesh) (i : Nat) : Station := m.stations.getD i default

def updateStation (m : Mesh) (i : Nat) (f : Station → Station) : Mesh :=
  { m with stations := m.stations.modify i f }

def updateRegistry (m : Mesh) (i : Nat) (f : Registry → Registry) : Mesh :=
  m.updateStation i (fun s => { s with registry := f s.registry })

def updateStore (m : Mesh) (i : Nat) (f : PendingStore → PendingStore) : Mesh :=
  m.updateStation i (fun s => { s with store := f s.store })

def updateDispatcher (m : Mesh) (i : Nat) (f : Dispatcher → Dispatcher) : Mesh :=
  m.updateStation i (fun s => { s with dispatcher := f s.dispatcher })

def taskEnd? (m : Mesh) (t : Nat) : Option TaskEnd := m.tasks[t]?.bind Task.end?

def hasEnded (m : Mesh) (t : Nat) : Bool := (m.taskEnd? t).isSome

def setActivity (m : Mesh) (t : Nat) (a : Activity) : Mesh :=
  { m with tasks := m.tasks.modify t (fun task => { task with activity := a }) }

def wake (m : Mesh) (t : Nat) : Mesh := { m with agenda := m.agenda.wake t }

def setAlarm (m : Mesh) (due t : Nat) : Mesh := { m with agenda := m.agenda.setAlarm due t }

/-- Begin a task, which runs after those that were woken before. -/
def spawn (m : Mesh) (i : Nat) (a : Activity) : Mesh × Nat :=
  let t := m.tasks.length
  ({ m with tasks := m.tasks ++ [⟨i, a, false⟩], agenda := m.agenda.wake t }, t)

/-- End a task; its alarms do not ring any more. -/
def finish (m : Mesh) (t : Nat) (e : TaskEnd) : Mesh :=
  { m.setActivity t (.ended e) with agenda := m.agenda.dropAlarms t }

def abort (m : Mesh) (t : Nat) : Mesh :=
  if m.hasEnded t then m
  else
    { m with
      tasks := m.tasks.modify t (fun task => { task with aborted := true })
      agenda := m.agenda.wake t }

def isCallerOf (i : Nat) (ticket : Ticket) (task : Task) : Bool :=
  match task.activity with
  | .executing _ (.waiting k _ _) => task.station == i && k == ticket
  | _ => false

def wakeCaller (m : Mesh) (i : Nat) (ticket : Ticket) : Mesh :=
  match m.tasks.findIdx? (isCallerOf i ticket) with
  | some t => m.wake t
  | none => m

/-- Complete a ticket's command whose time is over, and wake its caller. Tells whether this
completed it. -/
def timeOut (m : Mesh) (i : Nat) (ticket : Ticket) : Mesh × Bool :=
  let after := (m.station i).store.onTimeout ticket
  let m := m.updateStore i (fun _ => after.1)
  (if after.2 then m.wakeCaller i ticket else m, after.2)

/-- Take in results for a ticket, and wake the caller if they complete its command. Tells
whether they did. -/
def addResults (m : Mesh) (i : Nat) (ticket : Ticket) (incoming : List CommandResult) :
    Mesh × Bool :=
  let after := (m.station i).store.addResults ticket incoming
  let m := m.updateStore i (fun _ => after.1)
  (if after.2 then m.wakeCaller i ticket else m, after.2)

/-- Take an expired ticket out of the store, complete its command and wake its caller. Tells
whether it was in the store. -/
def expire (m : Mesh) (i : Nat) (ticket : Ticket) : Mesh × Bool :=
  let after := (m.station i).store.expire ticket
  let m := m.updateStore i (fun _ => after.1)
  (if after.2 then m.wakeCaller i ticket else m, after.2)

/-- Take a result in for the stored command of its id, and wake the caller if it completes the
command. Tells whether it does. -/
def correlate (m : Mesh) (i : Nat) (result : CommandResult) : Mesh × Bool :=
  let after := (m.station i).store.correlate result
  let m := m.updateStore i (fun _ => after.1)
  match after.2 with
  | some ticket => (m.wakeCaller i ticket, true)
  | none => (m, false)

def publish (m : Mesh) (message : Message) : Mesh :=
  let after := m.bus.publish message
  { m with bus := after.1, agenda := m.agenda.wakeAll after.2 }

/-- Send a message from a station. Tells whether it went out; the producer holds an unforced one
back while its switch is off. -/
def produce (m : Mesh) (i : Nat) (message : Message) : Mesh × Except MeshError Bool :=
  let s := m.station i
  if s.sends message then
    match s.producer.refusal with
    | some reason => (m, .error (.transport reason))
    | none => (m.publish (message.stamped s.node), .ok true)
  else (m, .ok false)

def wakeWorker (m : Mesh) (i : Nat) : Mesh :=
  match (m.station i).worker with
  | some t =>
    match m.tasks[t]? with
    | some ⟨_, .working none, _⟩ => m.wake t
    | _ => m
  | none => m

/-- What a message comes to that was given to the dispatcher of a station: it is dropped, a task
starts to work on it, or it is left to the worker. -/
def deliver (m : Mesh) (i : Nat) (message : Message) (after : Dispatcher × Admission) : Mesh :=
  let m := m.updateDispatcher i (fun _ => after.1)
  match after.2 with
  | .refused => m
  | .started => (m.spawn i (.dispatching ⟨message, .arrived⟩)).1
  | .queued => m.wakeWorker i

/-- Give a message to the dispatcher of a station, with nothing in between. -/
def dispatch (m : Mesh) (i : Nat) (message : Message) : Mesh :=
  m.deliver i message ((m.station i).dispatcher.accept message)

/-- A call to the dispatcher of a station passes the check and stays under way. -/
def beginDispatch (m : Mesh) (i : Nat) (c : DispatchCall) : Mesh :=
  m.updateDispatcher i (fun d => d.enter c)

/-- A call to the dispatcher of a station that is under way with a message goes on. -/
def endDispatch (m : Mesh) (i k : Nat) (message : Message) : Mesh :=
  m.deliver i message (((m.station i).dispatcher.resume k).place message)

/-- Let the consumer of a station take a message. Tells whether it went to the dispatcher. -/
def consume (m : Mesh) (i : Nat) (message : Message) : Mesh × Bool :=
  if (m.station i).takes message then (m.dispatch i message, true) else (m, false)

end Mesh

end ClusterMesh
