import ClusterMesh.Mesh.Basic

/-!
# Calling

A call sends a command and waits for the results. They come at once when the last node of the
destination has answered, and otherwise when the time is over, with what was collected up to
then. A reaper takes a command whose time is over out of the store.
-/

namespace ClusterMesh.Mesh

def refusal? (s : Station) (c : Command) : Option MeshError :=
  if !s.context.storeBound then some .storeUnavailable
  else if !s.context.producerBound then some .transportUnavailable
  else if s.context.settings.validateIds then c.fault?.map .invalidCommand
  else none

def endCall (m : Mesh) (t : Nat) (outcome : Except MeshError Outcome) : Mesh :=
  m.finish t (.returned m.now outcome)

def returnResults (m : Mesh) (t i : Nat) (c : Command) (ticket reaper : Nat) (results : Results) :
    Mesh :=
  let m := m.updateStore i (fun s => ((s.update ticket Pending.take).removeEntry ticket).1)
  (m.abort reaper).endCall t (.ok ⟨c.id, c.expected, results⟩)

/-- Look whether the results of a waiting call are there; when its time is over it takes what was
collected. -/
def awaitResults (m : Mesh) (t i : Nat) (c : Command) (ticket due reaper : Nat) : Mesh :=
  match (m.station i).store.command? ticket with
  | some ⟨_, collected, _, delivery⟩ =>
    match delivery with
    | .delivered results => m.returnResults t i c ticket reaper results
    | _ =>
      if m.now < due then m
      else (m.timeOut i ticket).1.returnResults t i c ticket reaper collected
  | none => m

/-- Store a command under its id, so that an earlier one of that id is completed with what it
has, and arm a reaper for it. -/
def register (m : Mesh) (i : Nat) (c : Command) (timeout : Nat) : Mesh × Ticket × Nat :=
  let issued := (m.station i).store.issue c
  let put := issued.1.put c.id issued.2
  let m := m.updateStore i (fun _ => put.1)
  let m :=
    match put.2 with
    | some displaced => (m.timeOut i displaced).1
    | none => m
  let spawned := m.spawn i (.reaping issued.2 timeout none)
  (spawned.1, issued.2, spawned.2)

def enter (m : Mesh) (t i : Nat) (c : Command) : Mesh × Ticket × Nat :=
  let timeout := (m.station i).timeoutOf c
  let registered := m.register i c timeout
  (registered.1.setActivity t (.executing c (.sending registered.2.1 timeout registered.2.2)),
    registered.2)

def beginWaiting (m : Mesh) (t : Nat) (c : Command) (ticket due reaper : Nat) : Mesh :=
  (m.setActivity t (.executing c (.waiting ticket due reaper))).setAlarm due t

/-- Go on with a call when the transport is done with its command. A command that could not be
sent leaves the store again. -/
def depart (m : Mesh) (t i : Nat) (c : Command) (ticket timeout reaper : Nat) :
    Except MeshError Bool → Mesh
  | .error e =>
    ((m.updateStore i (fun s => (s.removeEntry ticket).1)).abort reaper).endCall t (.error e)
  | .ok _ =>
    let due := m.now + timeout
    (m.beginWaiting t c ticket due reaper).awaitResults t i c ticket due reaper

def send (m : Mesh) (t i : Nat) (c : Command) (ticket timeout reaper : Nat) : Mesh :=
  let produced := m.produce i (.command c)
  produced.1.depart t i c ticket timeout reaper produced.2

/-- Submit a command: refuse it, or register it, send it and wait for its results. -/
def submit (m : Mesh) (t i : Nat) (c : Command) : Mesh :=
  let s := m.station i
  match refusal? s c with
  | some e => m.endCall t (.error e)
  | none =>
    let c := c.stamped s.node
    let entered := m.enter t i c
    entered.1.send t i c entered.2.1 (s.timeoutOf c) entered.2.2

def runCall (m : Mesh) (t i : Nat) (c : Command) : CallStage → Mesh
  | .submitted => m.submit t i c
  | .sending ticket timeout reaper => m.send t i c ticket timeout reaper
  | .waiting ticket due reaper => m.awaitResults t i c ticket due reaper

/-- Let a reaper go on: it begins to wait, or ends the command of its ticket. -/
def runReaper (m : Mesh) (t i : Nat) (ticket delay : Nat) (due : Option Nat) : Mesh :=
  let instant := due.getD (m.now + delay)
  if m.now < instant then
    let m := m.setActivity t (.reaping ticket delay (some instant))
    if due.isNone then m.setAlarm instant t else m
  else
    let after := m.expire i ticket
    after.1.finish t (.reaped after.2)

end ClusterMesh.Mesh
