import ClusterMesh.Cluster.Group
import ClusterMesh.Json.Record

/-!
# Nodes and groups on the wire

Nodes and groups as JSON records, written and read.
-/

namespace ClusterMesh

open Json

namespace Node

def toJson (n : Node) : Json :=
  .object [("id", .text n.id), ("alias", ofOption .text n.nickname), ("host", .text n.host),
    ("port", .int n.port.toNat)]

def ofJson? (j : Json) : Option Node := do
  match ← record? ["id", "alias", "host", "port"] j with
  | [id, nickname, host, port] =>
    some ⟨← required? text? id, ← optional? text? nickname, ← required? text? host,
      ← required? halfword? port⟩
  | _ => none

end Node

namespace NodeSet

def toJson (s : NodeSet) : Json := .list (s.toList.map Node.toJson)

def ofJson? (j : Json) : Option NodeSet := (listOf? Node.ofJson? j).map KeyedList.ofList

end NodeSet

namespace Group

def toJson (g : Group) : Json :=
  .object [("name", .text g.name), ("nodes", NodeSet.toJson g.nodes),
    ("parent", ofOption .text g.parent)]

def ofJson? (j : Json) : Option Group := do
  match ← record? ["name", "nodes", "parent"] j with
  | [name, nodes, parent] =>
    some ⟨← required? text? name, ← required? NodeSet.ofJson? nodes,
      ← optional? text? parent⟩
  | _ => none

end Group

end ClusterMesh
