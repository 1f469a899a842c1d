import ClusterMesh.Handler.Basic
import ClusterMesh.Properties

/-!
# The registry of handlers

At most one handler is bound to a type of messages. A handler is known by number, so that two
handlers of one name and type are told apart. A bound handler is found unless its switch is
off or, where properties count, its toggle disables it.
-/

namespace ClusterMesh

abbrev HandlerId := Nat

/-- All handlers by number, those that are bound by type, and whether their toggles count. -/
structure Registry where
  handlers : List Handler
  bound : Table String HandlerId
  honoursToggles : Bool

namespace Registry

def empty (honoursToggles : Bool) : Registry := ⟨[], ∅, honoursToggles⟩

instance : Inhabited Registry := ⟨empty true⟩

def add (r : Registry) (h : Handler) : Registry × HandlerId :=
  ({ r with handlers := r.handlers ++ [h] }, r.handlers.length)

def handler? (r : Registry) (id : HandlerId) : Option Handler := r.handlers[id]?

/-- Bind a handler to its type in the place of any other; the empty type is never bound. -/
def bind (r : Registry) (id : HandlerId) : Registry :=
  match r.handler? id with
  | some h =>
    if h.handledType.isEmpty then r else { r with bound := Table.set r.bound h.handledType id }
  | none => r

def install (r : Registry) (h : Handler) : Registry :=
  let added := r.add h
  added.1.bind added.2

def entry? (r : Registry) (messageType : String) : Option HandlerId :=
  Table.get? r.bound messageType

/-- Unbind a handler if it is the one that is bound to its type. Tells whether it was. -/
def unbind (r : Registry) (id : HandlerId) : Registry × Bool :=
  match r.handler? id with
  | some h =>
    if r.entry? h.handledType = some id then
      ({ r with bound := r.bound.erase h.handledType }, true)
    else (r, false)
  | none => (r, false)

def isEnabled (r : Registry) (properties : Properties) (h : Handler) : Bool :=
  h.switch.isOn && (!r.honoursToggles || properties.handlerEnabled h.name)

def lookup? (r : Registry) (properties : Properties) (messageType : String) : Option HandlerId := do
  let id ← r.entry? messageType
  let h ← r.handler? id
  if r.isEnabled properties h then some id else none

def hasHandler (r : Registry) (messageType : String) : Bool := r.bound.contains messageType

def boundHandlers (r : Registry) : List (HandlerId × Handler) :=
  r.bound.toList.filterMap (fun e => (r.handler? e.2).map (fun h => (e.2, h)))

def findByName? (r : Registry) (name : String) : Option (HandlerId × Handler) :=
  r.boundHandlers.find? (fun e => e.2.name == name)

def statuses (r : Registry) (properties : Properties) : Table String SwitchStatus :=
  Table.ofPairs <| r.boundHandlers.map
    (fun e => (e.2.name, SwitchStatus.ofBool (r.isEnabled properties e.2)))

def types (r : Registry) : List String := r.bound.keys

def size (r : Registry) : Nat := r.bound.size

def isEmpty (r : Registry) : Bool := r.bound.isEmpty

def setSwitch (r : Registry) (id : HandlerId) (status : SwitchStatus) : Registry :=
  { r with handlers := r.handlers.modify id (fun h => { h with switch := h.switch.set status }) }

end Registry

end ClusterMesh
