import ClusterMesh.Collection.KeyedList
import ClusterMesh.Text.Blank

/-!
# Properties

A flat store of texts under text keys. Lists, group parents, handler toggles and
synchronization toggles all live in it, each under a key of its own shape.
-/

namespace ClusterMesh

abbrev Properties := Table String String

namespace Properties

/-- A handler toggle is kept under `handler.<name>`. -/
def handlerKey (handler : String) : String := "handler." ++ handler

/-- The toggle of a category's synchronization is kept under `<group>.<category>.sync`. -/
def syncKey (group category : String) : String := group ++ "." ++ category ++ ".sync"

/-- The parent of a group is kept under `<group>.parent`. -/
def parentKey (group : String) : String := group ++ ".parent"

def spells (word value : String) : Bool :=
  (Text.trim value).toList.map Char.toLower == word.toList

/-- A handler is enabled unless its toggle spells `false`. -/
def handlerEnabled (p : Properties) (handler : String) : Bool :=
  match Table.get? p (handlerKey handler) with
  | some value => !spells "false" value
  | none => true

def setHandlerEnabled (p : Properties) (handler : String) (enabled : Bool) : Properties :=
  Table.set p (handlerKey handler) (if enabled then "true" else "false")

/-- A category is synchronized for a group only where its toggle spells `true`. -/
def syncEnabled (p : Properties) (group category : String) : Bool :=
  match Table.get? p (syncKey group category) with
  | some value => spells "true" value
  | none => false

end Properties

end ClusterMesh
