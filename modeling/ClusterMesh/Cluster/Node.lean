import ClusterMesh.Collection.KeyedList

/-!
# Nodes

A node is a member of the cluster. Its id alone says which node it is: host, port and nickname
are where it can be found and how it is called.
-/

namespace ClusterMesh

structure Node where
  id : String
  nickname : Option String
  host : String
  port : UInt16
deriving DecidableEq, Repr, Inhabited

namespace Node

/-- Two nodes are the same member when their ids agree. -/
def same (a b : Node) : Bool := a.id == b.id

/-- The text of a node: `id@host:port`, or `id (nickname@host:port)` for one with a nickname. -/
def text (n : Node) : String :=
  let place := n.host ++ ":" ++ toString n.port.toNat
  match n.nickname with
  | some nickname => n.id ++ " (" ++ nickname ++ "@" ++ place ++ ")"
  | none => n.id ++ "@" ++ place

end Node

/-- A set of nodes in the order in which their ids first came; the first node of an id
stays. -/
abbrev NodeSet := KeyedList Node.id

def NodeSet.sorted (s : NodeSet) : List Node :=
  s.toList.mergeSort (fun a b => decide (a.id ≤ b.id))

end ClusterMesh
