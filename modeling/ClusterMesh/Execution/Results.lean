import ClusterMesh.Message.Basic

/-!
# Collected results

The results of a command by the node that sent them. A node counts by its id: the node of the
first result stays as the key, and the last result is the value.
-/

namespace ClusterMesh

/-- Results by node, in the order in which the nodes answered first. -/
abbrev Results := KeyedList (fun entry : Node × CommandResult => entry.1.id)

namespace Results

def record (rs : Results) (node : Node) (result : CommandResult) : Results :=
  rs.put (((rs.find? node.id).map Prod.fst).getD node, result)

theorem id_seat (rs : Results) (node : Node) :
    (((rs.find? node.id).map Prod.fst).getD node).id = node.id := by
  cases h : rs.find? node.id with
  | none => rfl
  | some entry => simpa using KeyedList.key_of_find? h

theorem mem_keys_record {rs : Results} {node : Node} {result : CommandResult} {id : String} :
    id ∈ (rs.record node result).keys ↔ id ∈ rs.keys ∨ id = node.id := by
  rw [record, KeyedList.mem_keys_put, id_seat]

/-- Note a result under its source node; one without a source node is of no account. -/
def add (rs : Results) (result : CommandResult) : Results :=
  match result.sourceNode with
  | some node => rs.record node result
  | none => rs

def addAll (rs : Results) (incoming : List CommandResult) : Results := incoming.foldl add rs

end Results

end ClusterMesh
