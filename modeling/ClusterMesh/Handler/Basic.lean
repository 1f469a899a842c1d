import ClusterMesh.Message.Basic
import ClusterMesh.Switch

/-!
# Handlers

A handler takes in the messages of one type. A listener takes in messages of any kind, an
answerer sends a result back for each command, and a correlator hands results to the commands
that wait for them.
-/

namespace ClusterMesh

inductive Ending
  | succeeds
  | fails
  | panics
deriving DecidableEq, Repr

/-- What a scripted handler does: it waits so many milliseconds, and ends. -/
structure Script where
  delay : Nat
  ending : Ending
deriving DecidableEq, Repr

inductive ControlTarget
  | producer
  | consumer
  | handlers
deriving DecidableEq, Repr

namespace ControlTarget

def commandType : ControlTarget → String
  | producer => "producer-switch"
  | consumer => "consumer-switch"
  | handlers => "manage-handlers"

def resultType (t : ControlTarget) : String := t.commandType ++ "-result"

def handlerName (t : ControlTarget) : String := t.commandType ++ "-handler"

def all : List ControlTarget := [producer, consumer, handlers]

end ControlTarget

inductive HandlerRole
  | listener (script : Script)
  | answerer (resultType : String) (script : Script)
  | control (target : ControlTarget)
  | correlator
deriving DecidableEq, Repr

structure Handler where
  handledType : String
  switch : Switch
  role : HandlerRole
deriving DecidableEq, Repr

namespace Handler

def name (h : Handler) : String := h.switch.name

def correlator (resultType : String) : Handler :=
  ⟨resultType, Switch.named (resultType ++ "-handler"), .correlator⟩

def control (target : ControlTarget) : Handler :=
  ⟨target.commandType, Switch.named target.handlerName, .control target⟩

def resultType? (h : Handler) : Option String :=
  match h.role with
  | .answerer resultType _ => some resultType
  | .control target => some target.resultType
  | _ => none

/-- How long a handler waits before it deals with a message. An answerer has nothing to do for a
message that is no command. -/
def wait (h : Handler) (m : Message) : Nat :=
  match h.role, m with
  | .listener script, _ => script.delay
  | .answerer _ script, .command _ => script.delay
  | _, _ => 0

end Handler

end ClusterMesh
