import ClusterMesh.Mesh.Run

/-!
# Setting up a mesh

How stations come into a mesh, and how they start and stop to receive messages.
-/

namespace ClusterMesh.Mesh

/-- Add a station. A dispatcher with a single worker starts it. -/
def addStation (m : Mesh) (s : Station) : Mesh × Nat :=
  let i := m.stations.length
  let m := { m with stations := m.stations ++ [s] }
  match s.dispatcher.pool with
  | .cached => (m, i)
  | .single =>
    let spawned := m.spawn i (.working none)
    (spawned.1.updateStation i (fun s => { s with worker := some spawned.2 }), i)

def isConsuming (m : Mesh) (i : Nat) : Bool :=
  match (m.station i).consumer.loop with
  | some t => !m.hasEnded t
  | none => false

def beginLoop (m : Mesh) (i : Nat) (subscriber : Option Nat) : Mesh :=
  let spawned := m.spawn i (.receiving subscriber)
  spawned.1.updateStation i fun s =>
    { s with consumer := { s.consumer with loop := some spawned.2 } }

/-- Let a station receive messages from the bus, or from one that is gone. One that receives
already is left alone. -/
def startConsumer (m : Mesh) (i : Nat) (busIsGone : Bool) : Mesh :=
  if m.isConsuming i then m
  else if busIsGone then m.beginLoop i none
  else
    let subscribed := m.bus.subscribe
    { m with bus := subscribed.1 }.beginLoop i (some subscribed.2)

def stopConsumer (m : Mesh) (i : Nat) : Mesh :=
  match (m.station i).consumer.loop with
  | some t =>
    (m.updateStation i (fun s => { s with consumer := { s.consumer with loop := none } })).abort t
  | none => m

/-- Close the dispatcher of a station. -/
def close (m : Mesh) (i : Nat) : Mesh := m.updateDispatcher i Dispatcher.close

/-- Sever the queue of a dispatcher. A worker that waits for messages ends. -/
def sever (m : Mesh) (i : Nat) : Mesh := (m.updateDispatcher i Dispatcher.sever).wakeWorker i

/-- Shut the dispatcher of a station down, with nothing in between. -/
def shutdown (m : Mesh) (i : Nat) : Mesh := (m.close i).sever i

def bindStore (m : Mesh) (i : Nat) (bound : Bool) : Mesh :=
  m.updateStation i (fun s => { s with context := { s.context with storeBound := bound } })

def bindProducer (m : Mesh) (i : Nat) (bound : Bool) : Mesh :=
  m.updateStation i (fun s => { s with context := { s.context with producerBound := bound } })

def setRefusal (m : Mesh) (i : Nat) (refusal : Option String) : Mesh :=
  m.updateStation i (fun s => { s with producer := { s.producer with refusal } })

/-- Start a station as a configuration says: with the handlers of the control commands, and
receiving messages. -/
def startNode (m : Mesh) (c : MeshConfig) : Mesh :=
  let s := (Station.start c.node.toNode c.properties true c.dispatch c.commands).installControl
  let added := m.addStation s
  added.1.startConsumer added.2 false

/-- Stop a station: it receives no more messages, and its dispatcher accepts none. -/
def stopNode (m : Mesh) (i : Nat) : Mesh := (m.stopConsumer i).shutdown i

/-- Bind a handler of commands, and a correlator for its results unless there is a handler for
them. -/
def bindAnswerer (m : Mesh) (i : Nat) (h : Handler) : Mesh :=
  m.updateRegistry i fun r =>
    let r := r.install h
    match h.resultType? with
    | some resultType =>
      if r.hasHandler resultType then r else r.install (Handler.correlator resultType)
    | none => r

def execute (m : Mesh) (i : Nat) (c : Command) : Mesh × Nat := m.spawn i (.executing c .submitted)

def takeJournal (m : Mesh) : Mesh × List (Nat × String) :=
  ({ m with journal := [] },
    m.journal.mergeSort (fun a b => decide (a.1 < b.1) || (a.1 == b.1 && decide (a.2 ≤ b.2))))

end ClusterMesh.Mesh
