import ClusterMesh.Cluster.Group
import ClusterMesh.Policy.Expression
import ClusterMesh.Properties
import ClusterMesh.Text.Pieces

/-!
# Access policy

Which items may pass for a group, a category and a direction is told by two lists of wildcard
patterns. An empty whitelist admits every item, any other only what one of its patterns
matches; a pattern of the blacklist that matches always denies. A group inherits the
entries of its parent, of the parent's parent and so on, until the chain ends or comes back
to a group that it has visited.
-/

namespace ClusterMesh

open Expression (Engine)

inductive Direction
  | inbound
  | outbound
deriving DecidableEq, Repr

def Direction.text : Direction → String
  | .inbound => "inbound"
  | .outbound => "outbound"

inductive ListKind
  | whitelist
  | blacklist
deriving DecidableEq, Repr

def ListKind.text : ListKind → String
  | .whitelist => "whitelist"
  | .blacklist => "blacklist"

namespace Policy

/-- A list is kept under `<group>.<category>.<list>.<direction>`. -/
def listKey (kind : ListKind) (group category : String) (direction : Direction) : String :=
  group ++ "." ++ category ++ "." ++ kind.text ++ "." ++ direction.text

/-- The items of a list property: line ends are dropped, commas separate the items, which are
trimmed, and empty and repeated items are left out. -/
def listItems (value : String) : TextSet :=
  KeyedList.ofList <|
    ((Text.pieces ',' (value.toList.filter (fun c => c != '\n' && c != '\r'))).map
      (fun p => String.ofList (Text.trimChars p))).filter (fun item => !item.isEmpty)

def listText (items : TextSet) : String := Text.joinWith ',' items.toList

/-- The items of the list property under a key; none if there is no such property. -/
def itemsAt (properties : Properties) (key : String) : TextSet :=
  match Table.get? properties key with
  | some value => listItems value
  | none => ∅

/-- The parent of a group: the one that the group itself declares, else the parent property,
trimmed; a blank one is no parent. -/
def parent? (groups : Option GroupManager) (properties : Properties) (group : String) :
    Option String :=
  let declared := (groups.bind (fun m => m.find? group)).bind Group.parent
  let named := declared <|> Table.get? properties (Properties.parentKey group)
  (named.map Text.trim).filter (fun p => !p.isEmpty)

/-- The chain from a group upward over at most `steps` parents, without the groups that were
visited before. -/
def chainFrom (groups : Option GroupManager) (properties : Properties) :
    Nat → List String → String → List String
  | steps, visited, group =>
    if group ∈ visited then []
    else
      match steps, parent? groups properties group with
      | steps + 1, some p => group :: chainFrom groups properties steps (group :: visited) p
      | _, _ => [group]

/-- No chain is longer: a group that has a parent is known to the manager or has a property of
its own that names the parent. -/
def chainBound (groups : Option GroupManager) (properties : Properties) : Nat :=
  (groups.map (fun m => m.groups.size)).getD 0 + properties.size

/-- A group, its parent, the parent's parent and so on, stopped at the first repeated name. -/
def chain (groups : Option GroupManager) (properties : Properties) (group : String) :
    List String :=
  chainFrom groups properties (chainBound groups properties) [] group

def entries (groups : Option GroupManager) (properties : Properties) (kind : ListKind)
    (group category : String) (direction : Direction) : TextSet :=
  KeyedList.ofList <| (chain groups properties group).flatMap
    (fun g => (itemsAt properties (listKey kind g category direction)).toList)

def entriesForGroups (groups : Option GroupManager) (properties : Properties)
    (kind : ListKind) (names : List String) (category : String) (direction : Direction) :
    TextSet :=
  KeyedList.ofList <|
    names.flatMap (fun g => (entries groups properties kind g category direction).toList)

/-- Whether an item may pass: the whitelist is empty or matches it, and the blacklist does
not. -/
def isAllowed (engine : Engine) (groups : Option GroupManager) (properties : Properties)
    (group category : String) (direction : Direction) (item : String) : Bool :=
  let white := (entries groups properties .whitelist group category direction).toList
  let black := (entries groups properties .blacklist group category direction).toList
  (white.isEmpty || white.any (fun p => Wildcard.matchBy engine p item)) &&
    !black.any (fun p => Wildcard.matchBy engine p item)

/-- Take an entry out of a group's own list if it is there, else put it at the end, and
write the list back; a blank entry is never put in. Also tells whether the entry is in the
list afterwards. -/
def switchEntry (properties : Properties) (kind : ListKind) (group category : String)
    (direction : Direction) (entry : String) : Properties × Bool :=
  let entry := Text.trim entry
  let key := listKey kind group category direction
  let items := itemsAt properties key
  if items.contains entry then
    (Table.set properties key (listText (items.erase entry)), false)
  else if entry.isEmpty then
    (Table.set properties key (listText items), false)
  else
    (Table.set properties key (listText (items.insert entry)), true)

end Policy

/-- The finders of the patterns that were compiled so far, the refused ones included. -/
abbrev PatternCache := Table String (Option (String → Bool))

namespace PatternCache

/-- Match an item with a pattern, which is compiled only the first time. -/
def tryPattern (engine : Engine) (cache : PatternCache) (pattern item : String) :
    PatternCache × Bool :=
  match Table.get? cache pattern with
  | some compiled => (cache, Wildcard.accepts compiled item)
  | none =>
    let compiled := Wildcard.compile pattern engine
    (Table.set cache pattern compiled, Wildcard.accepts compiled item)

/-- Try patterns one after the other up to the first that matches. -/
def tryAny (engine : Engine) (cache : PatternCache) : List String → String → PatternCache × Bool
  | [], _ => (cache, false)
  | p :: ps, item =>
    let first := cache.tryPattern engine p item
    if first.2 then first else tryAny engine first.1 ps item

end PatternCache

/-- An access policy: the engine that compiles its patterns, the properties it reads, the groups
whose declared parents it honours, if it has any, and the patterns it has compiled. -/
structure AccessPolicy where
  engine : Engine
  properties : Properties
  groups : Option GroupManager
  cache : PatternCache

namespace AccessPolicy

def start (properties : Properties) (groups : Option GroupManager)
    (engine : Engine := .running) : AccessPolicy :=
  ⟨engine, properties, groups, ∅⟩

/-- Decide on an item. The blacklist is tried only on an item that the whitelist admits. -/
def decide (p : AccessPolicy) (group category : String) (direction : Direction)
    (item : String) : AccessPolicy × Bool :=
  let white := (Policy.entries p.groups p.properties .whitelist group category direction).toList
  let black := (Policy.entries p.groups p.properties .blacklist group category direction).toList
  let admitted := if white.isEmpty then (p.cache, true) else p.cache.tryAny p.engine white item
  if admitted.2 then
    let denied := admitted.1.tryAny p.engine black item
    ({ p with cache := denied.1 }, !denied.2)
  else ({ p with cache := admitted.1 }, false)

def decideAll (p : AccessPolicy) (group category : String) (direction : Direction) :
    List String → AccessPolicy × List Bool
  | [] => (p, [])
  | item :: items =>
    let first := p.decide group category direction item
    let others := first.1.decideAll group category direction items
    (others.1, first.2 :: others.2)

/-- Take an entry out of a list of the policy's properties, or put it in. Also tells whether the
entry is in the list afterwards. -/
def switchEntry (p : AccessPolicy) (kind : ListKind) (group category : String)
    (direction : Direction) (entry : String) : AccessPolicy × Bool :=
  let after := Policy.switchEntry p.properties kind group category direction entry
  ({ p with properties := after.1 }, after.2)

/-- The text that describes a policy: whether it honours declared parents and how many
patterns it has compiled. -/
def describe (p : AccessPolicy) : String :=
  "AccessPolicy \x7b group_provider: " ++ (if p.groups.isSome then "true" else "false") ++
    ", cached_patterns: " ++ toString p.cache.size ++ " \x7d"

end AccessPolicy

end ClusterMesh
