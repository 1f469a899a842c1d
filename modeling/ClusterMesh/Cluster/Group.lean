import ClusterMesh.Cluster.Node

/-!
# Groups

A group is a named set of nodes, perhaps below a parent group. The group manager of a
node keeps the groups that the node knows in the order in which they came. The local node is
put back into the default group when it quits its last group.
-/

namespace ClusterMesh

structure Group where
  name : String
  nodes : NodeSet
  parent : Option String

instance : Inhabited Group := ⟨⟨"", ∅, none⟩⟩

namespace Group

def named (name : String) : Group := ⟨name, ∅, none⟩

def contains (g : Group) (n : Node) : Bool := g.nodes.contains n.id

def same (a b : Group) : Bool :=
  a.name == b.name && a.parent == b.parent && a.nodes.sameKeys b.nodes

/-- Add a node; one with the same id stays instead. -/
def add (g : Group) (n : Node) : Group := { g with nodes := g.nodes.insert n }

def drop (g : Group) (n : Node) : Group := { g with nodes := g.nodes.erase n.id }

end Group

def defaultGroup : String := "default"

structure GroupManager where
  localNode : Node
  groups : Table String Group

namespace GroupManager

def start (localNode : Node) : GroupManager :=
  ⟨localNode, Table.set ∅ defaultGroup ((Group.named defaultGroup).add localNode)⟩

def find? (m : GroupManager) (name : String) : Option Group := Table.get? m.groups name

def findOrNew (m : GroupManager) (name : String) : Group := (m.find? name).getD (Group.named name)

def write (m : GroupManager) (name : String) (g : Group) : GroupManager :=
  { m with groups := Table.set m.groups name g }

def create (m : GroupManager) (name : String) : GroupManager × Group :=
  let g := m.findOrNew name
  (m.write name g, g)

/-- Put a group in the place of the one of its name, or at the end. -/
def register (m : GroupManager) (g : Group) : GroupManager := m.write g.name g

def delete (m : GroupManager) (name : String) : GroupManager × Option Group :=
  ({ m with groups := m.groups.erase name }, m.find? name)

def join (m : GroupManager) (name : String) (n : Node) : GroupManager :=
  m.write name ((m.findOrNew name).add n)

def list (m : GroupManager) : List Group := m.groups.toList.map Prod.snd

def localGroups (m : GroupManager) : List Group :=
  m.list.filter (fun g => g.contains m.localNode)

/-- Take a node out of a group; the local node falls back to the default group when it is
then in no group at all. -/
def quit (m : GroupManager) (name : String) (n : Node) : GroupManager :=
  let left :=
    match m.find? name with
    | some g => m.write name (g.drop n)
    | none => m
  if n.same m.localNode && left.localGroups.isEmpty then
    left.join defaultGroup m.localNode
  else left

/-- The local node and then every member of every group, each once. -/
def nodes (m : GroupManager) : NodeSet :=
  (KeyedList.ofList [m.localNode]).insertMany (m.list.flatMap (fun g => g.nodes.toList))

end GroupManager

end ClusterMesh
