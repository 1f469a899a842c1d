import ClusterMesh.Merge.Replicated
import ClusterMesh.Wire.Cluster

/-!
# Replicated values on the wire

A replicated value is a record of its kind and its value.
-/

namespace ClusterMesh.ReplicatedValue

open Json

def payload : ReplicatedValue → Json
  | scalar v => v
  | text s => .text s
  | set items => ofTexts items.toList
  | list items => ofTexts items
  | nodes g => g.toJson

def toJson (v : ReplicatedValue) : Json := .object [("type", .text v.kind), ("value", v.payload)]

def payloadReaders : List (String × (Json → Option ReplicatedValue)) :=
  [("scalar", fun j => some (.scalar j.settled)),
    ("text", fun j => (text? j).map .text),
    ("set", fun j => (listOf? text? j).map (fun ts => .set (KeyedList.ofList ts))),
    ("list", fun j => (listOf? text? j).map .list),
    ("nodes", fun j => (Group.ofJson? j).map .nodes)]

def ofJson? (j : Json) : Option ReplicatedValue := do
  match ← record? ["type", "value"] j with
  | [kind, value] => (← required? (case? payloadReaders) kind) (← value)
  | _ => none

end ClusterMesh.ReplicatedValue
