import ClusterMesh.Cluster.Node
import ClusterMesh.Json.Basic
import ClusterMesh.Message.Timestamp

/-!
# Messages

What travels between nodes: plain events, commands, and the results that answer commands. All
three share the header of an event. A message without a destination is for every node.
Commands and results are forced: no switch holds them back.
-/

namespace ClusterMesh

structure Event where
  id : String
  eventType : String
  sourceGroup : Option String
  sourceNode : Option Node
  destination : Option NodeSet
  force : Bool
  properties : Table String Json
  createdAt : Timestamp

namespace Event

def withId (id eventType : String) : Event :=
  ⟨id, eventType, none, none, none, false, ∅, Timestamp.epoch⟩

instance : Inhabited Event := ⟨withId "" ""⟩

def isAddressedTo (e : Event) (n : Node) : Bool :=
  match e.destination with
  | none => true
  | some nodes => nodes.contains n.id

def property? (e : Event) (name : String) : Option Json := Table.get? e.properties name

def propertyText? (e : Event) (name : String) : Option String :=
  (e.property? name).bind Json.text?

def setProperty (e : Event) (name : String) (value : Json) : Event :=
  { e with properties := Table.set e.properties name value }

def stamped (e : Event) (n : Node) : Event :=
  { e with sourceNode := some (e.sourceNode.getD n) }

@[simp] theorem sourceNode_stamped (e : Event) (n : Node) :
    (e.stamped n).sourceNode = some (e.sourceNode.getD n) := rfl

@[simp] theorem id_stamped (e : Event) (n : Node) : (e.stamped n).id = e.id := rfl

@[simp] theorem destination_stamped (e : Event) (n : Node) :
    (e.stamped n).destination = e.destination := rfl

end Event

/-- A request to the nodes of its destination, with the milliseconds to wait for answers
where the sender has set them. -/
structure Command where
  event : Event
  timeout : Option UInt64

namespace Command

def withId (id commandType : String) : Command :=
  ⟨{ Event.withId id commandType with force := true }, none⟩

instance : Inhabited Command := ⟨withId "" ""⟩

def id (c : Command) : String := c.event.id

def commandType (c : Command) : String := c.event.eventType

def destination (c : Command) : Option NodeSet := c.event.destination

/-- The number of nodes that have to answer; none for a broadcast. -/
def expected (c : Command) : Option Nat := c.destination.map KeyedList.size

def stamped (c : Command) (n : Node) : Command := { c with event := c.event.stamped n }

end Command

/-- The answer of one node to a command, with the id of the command. -/
structure CommandResult where
  event : Event

namespace CommandResult

instance : Inhabited CommandResult := ⟨⟨Event.withId "" ""⟩⟩

def id (r : CommandResult) : String := r.event.id

def resultType (r : CommandResult) : String := r.event.eventType

def sourceNode (r : CommandResult) : Option Node := r.event.sourceNode

def setProperty (r : CommandResult) (name : String) (value : Json) : CommandResult :=
  ⟨r.event.setProperty name value⟩

/-- The answer of a node to a command: of the same id and group, addressed to the node that
the command came from, if that is known. -/
def replyTo (c : Command) (resultType : String) (source : Node) : CommandResult :=
  ⟨{ Event.withId c.id resultType with
      sourceGroup := c.event.sourceGroup
      sourceNode := some source
      destination := c.event.sourceNode.map (fun origin => KeyedList.ofList [origin])
      force := true }⟩

end CommandResult

inductive Message
  | event (e : Event)
  | command (c : Command)
  | result (r : CommandResult)

namespace Message

instance : Inhabited Message := ⟨.event default⟩

def header : Message → Event
  | event e => e
  | command c => c.event
  | result r => r.event

def mapHeader (f : Event → Event) : Message → Message
  | event e => event (f e)
  | command c => command { c with event := f c.event }
  | result r => result ⟨f r.event⟩

@[simp] theorem header_mapHeader (f : Event → Event) (m : Message) :
    (m.mapHeader f).header = f m.header := by
  cases m <;> rfl

def id (m : Message) : String := m.header.id

def eventType (m : Message) : String := m.header.eventType

/-- Whether switches let the message pass in any position. -/
def isForced : Message → Bool
  | event e => e.force
  | command _ => true
  | result _ => true

def stamped (m : Message) (n : Node) : Message := m.mapHeader (fun e => e.stamped n)

@[simp] theorem sourceNode_stamped (m : Message) (n : Node) :
    (m.stamped n).header.sourceNode = some (m.header.sourceNode.getD n) := by
  simp [stamped]

@[simp] theorem isForced_stamped (m : Message) (n : Node) :
    (m.stamped n).isForced = m.isForced := by
  cases m <;> rfl

def command? : Message → Option Command
  | command c => some c
  | _ => none

def result? : Message → Option CommandResult
  | result r => some r
  | _ => none

end Message

end ClusterMesh
