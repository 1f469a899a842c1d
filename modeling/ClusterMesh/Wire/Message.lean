import ClusterMesh.Message.Basic
import ClusterMesh.Wire.Cluster

/-!
# Messages on the wire

A message is a record of its kind and its body. The body of an event is the record of its
header, that of a command or a result holds the header in the field `event`.
-/

namespace ClusterMesh

open Json

namespace Timestamp

def toJson (t : Timestamp) : Json := .text t.render

def ofJson? (j : Json) : Option Timestamp := (text? j).bind parse

end Timestamp

namespace Event

/-- The record of an event. The nodes of its destination are in the order of their ids. -/
def toJson (e : Event) : Json :=
  .object [("id", .text e.id), ("event_type", .text e.eventType),
    ("source_group", ofOption .text e.sourceGroup),
    ("source_node", ofOption Node.toJson e.sourceNode),
    ("destination", ofOption (fun s => .list (s.sorted.map Node.toJson)) e.destination),
    ("force", .bool e.force),
    ("properties", .object e.properties.toList), ("created_at", e.createdAt.toJson)]

def propertiesOfJson? (j : Json) : Option (Table String Json) :=
  (mapOf? (fun v => some v.settled) j).map Table.ofPairs

def ofJson? (j : Json) : Option Event := do
  match ← record? ["id", "event_type", "source_group", "source_node", "destination", "force",
      "properties", "created_at"] j with
  | [id, eventType, sourceGroup, sourceNode, destination, force, properties, createdAt] =>
    some ⟨← required? text? id, ← required? text? eventType, ← optional? text? sourceGroup,
      ← optional? Node.ofJson? sourceNode, ← optional? NodeSet.ofJson? destination,
      ← required? bool? force, ← required? propertiesOfJson? properties,
      ← required? Timestamp.ofJson? createdAt⟩
  | _ => none

end Event

namespace Command

def toJson (c : Command) : Json :=
  .object [("event", c.event.toJson),
    ("timeout_ms", ofOption (fun t : UInt64 => .int t.toNat) c.timeout)]

def ofJson? (j : Json) : Option Command := do
  match ← record? ["event", "timeout_ms"] j with
  | [event, timeout] => some ⟨← required? Event.ofJson? event, ← optional? word? timeout⟩
  | _ => none

end Command

namespace CommandResult

def toJson (r : CommandResult) : Json := .object [("event", r.event.toJson)]

def ofJson? (j : Json) : Option CommandResult := do
  match ← record? ["event"] j with
  | [event] => some ⟨← required? Event.ofJson? event⟩
  | _ => none

end CommandResult

namespace Message

def toJson : Message → Json
  | event e => .object [("kind", .text "Event"), ("body", e.toJson)]
  | command c => .object [("kind", .text "Command"), ("body", c.toJson)]
  | result r => .object [("kind", .text "Result"), ("body", r.toJson)]

def bodyReaders : List (String × (Json → Option Message)) :=
  [("Event", fun j => (Event.ofJson? j).map .event),
    ("Command", fun j => (Command.ofJson? j).map .command),
    ("Result", fun j => (CommandResult.ofJson? j).map .result)]

def ofJson? (j : Json) : Option Message := do
  match ← record? ["kind", "body"] j with
  | [kind, body] => (← required? (case? bodyReaders) kind) (← body)
  | _ => none

end Message

end ClusterMesh
