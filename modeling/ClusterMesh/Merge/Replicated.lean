import ClusterMesh.Cluster.Group
import ClusterMesh.Json.Basic
import ClusterMesh.Text.Blank
import ClusterMesh.Text.Pieces

/-!
# Replicated values

The value that a replica holds under a key, and how the values of two replicas become one.
Sets, groups of nodes and tagged texts are united with the incoming members first, lists
are appended, and of any other two values the existing one stays. A text is tagged when it
has the form `MERGABLE[...]`; between the brackets it holds items separated by commas.
-/

namespace ClusterMesh

/-! ### Texts that hold a set of items -/
namespace Tagged

def opening : List Char := "MERGABLE[".toList

def closing : Char := ']'

def body? (cs : List Char) : Option (List Char) :=
  if opening.isPrefixOf cs && cs.length > opening.length && cs.getLast? == some closing then
    some ((cs.drop opening.length).dropLast)
  else none

def isTagged (s : String) : Bool := (body? s.toList).isSome

/-- The items of a text, tagged or not: separated by commas, trimmed, empty and repeated ones
left out. -/
def items (s : String) : TextSet :=
  KeyedList.ofList <|
    ((Text.pieces ',' ((body? s.toList).getD s.toList)).map
      (fun p => String.ofList (Text.trimChars p))).filter (fun item => !item.isEmpty)

def plain (items : TextSet) : String := Text.joinWith ',' items.toList

def render (items : TextSet) : String := "MERGABLE[" ++ plain items ++ "]"

/-- Two texts of which at least one is tagged, united: the incoming items first. Where neither
has an item the existing text stays. -/
def merge (incoming existing : String) : String :=
  let united := (items incoming).union (items existing)
  if united.isEmpty then existing else render united

end Tagged

inductive ReplicatedValue
  | scalar (value : Json)
  | text (value : String)
  | set (items : TextSet)
  | list (items : List String)
  | nodes (group : Group)

namespace ReplicatedValue

instance : Inhabited ReplicatedValue := ⟨.text ""⟩

def kind : ReplicatedValue → String
  | scalar _ => "scalar"
  | text _ => "text"
  | set _ => "set"
  | list _ => "list"
  | nodes _ => "nodes"

def mergable (items : List String) : ReplicatedValue :=
  .text (Tagged.render (KeyedList.ofList items))

/-- Equality of values: sets and the nodes of groups in any order. -/
def same : ReplicatedValue → ReplicatedValue → Bool
  | scalar a, scalar b => a.same b
  | text a, text b => a == b
  | set a, set b => a.sameKeys b
  | list a, list b => a == b
  | nodes a, nodes b => a.same b
  | _, _ => false

def mergeBoth : ReplicatedValue → ReplicatedValue → ReplicatedValue
  | nodes incoming, nodes existing =>
    nodes { existing with nodes := incoming.nodes.union existing.nodes }
  | set incoming, set existing => set (incoming.union existing)
  | list incoming, list existing => list (existing ++ incoming)
  | text incoming, text existing =>
    if Tagged.isTagged incoming || Tagged.isTagged existing then
      text (Tagged.merge incoming existing)
    else text existing
  | _, existing => existing

/-- The value of a key that at least one of two replicas may hold. -/
def merge : Option ReplicatedValue → Option ReplicatedValue → Option ReplicatedValue
  | none, existing => existing
  | incoming, none => incoming
  | some incoming, some existing => some (mergeBoth incoming existing)

end ReplicatedValue

abbrev Replica := Table String ReplicatedValue

namespace Replica

def absorb (r : Replica) (entry : String × ReplicatedValue) : Replica :=
  match ReplicatedValue.merge (some entry.2) (Table.get? r entry.1) with
  | some resolved => Table.set r entry.1 resolved
  | none => r.erase entry.1

def reconcile (r : Replica) (incoming : Replica) : Replica := incoming.toList.foldl absorb r

end Replica

def isSubcollection (a b : List String) : Bool := a.all (fun x => b.contains x)

def sameCollection (a b : List String) : Bool := isSubcollection a b && isSubcollection b a

end ClusterMesh
